import MlnxLib.Complib.QcPool

/-!
# Quick pools

`cl_qpool_t` of `cl_qpool.h` is a composite pool with one component and, for the lists and maps of complib,
without an initializer: an object is its own item.

* `clQpoolInit`, `clQpoolGet`, `clQpoolPut` — the calls, on the composite pool.
* `Stock size s items n` — the pool has handed out `items` and has `n` free objects of `size` bytes.

Principal results: `Stock.get` and `Stock.put` — a call has a result, and the stock is known after it;
`Stock.get_free` — with a free object, the heap is not asked.
-/

set_option autoImplicit false

namespace MlnxLib.QcPool

/-! ## Calls -/

/-- `cl_qpool_init` of a pool in new memory, without callbacks. -/
def clQpoolInit (malloc : Bool) (supply : Supply) (minSize maxSize growSize objectSize : UInt64) :
    Option (ClStatus × PoolSystem) :=
  clQcpoolInit .start malloc supply ⟨minSize, maxSize, growSize, [objectSize], false⟩

/-- `cl_qpool_get`. -/
def clQpoolGet : PoolSystem → Supply → Option (Option Addr × PoolSystem) := clQcpoolGet

/-- `cl_qpool_put`. -/
def clQpoolPut : PoolSystem → Addr → Option PoolSystem := clQcpoolPut

/-! ## Stocks -/

/-- **A pool of objects of `size` bytes**, with `items` handed out and `n` objects free. -/
structure Stock (size : UInt64) (s : PoolSystem) (items : List Addr) (n : Nat) : Prop where
  accounts : ∃ free : List Addr, free.length = n ∧ Accounts (InBlocks s) s.pool s.handedOut free
  out : s.handedOut.Perm items
  sizes : s.pool.componentSizes = [size]
  noInit : s.pool.pfnInit = false
  grow : s.pool.growSize.toNat < 4294967296
  /-- An item lies in its object. -/
  fits : POOL_ITEM_SIZE.toNat ≤ size.toNat ∧ size.toNat < 4294967296

namespace Stock

variable {size : UInt64} {s s' : PoolSystem} {items rest : List Addr} {n : Nat} {a : Addr} {supply : Supply}

theorem growCount_le_objCount (pool : ClQcpool) (objCount : UInt64) :
    (growCount pool objCount).toNat ≤ objCount.toNat := by
  unfold growCount
  split
  · rename_i hlt
    exact (UInt64.lt_iff_toNat_lt.mp hlt).le
  · exact le_refl _

theorem perm (h : Stock size s items n) (hperm : items.Perm rest) : Stock size s rest n :=
  ⟨h.accounts, h.out.trans hperm, h.sizes, h.noInit, h.grow, h.fits⟩

theorem nodup (h : Stock size s items n) : items.Nodup := by
  obtain ⟨free, -, hacc⟩ := h.accounts
  exact h.out.nodup_iff.mp hacc.nodup.of_append_right

/-- The blocks are of a size that does not wrap around. -/
theorem fitsBlock (h : Stock size s items n) (supply : Supply) : Fits s supply s.pool.growSize := by
  have hsize : s.pool.objSize = size := by
    unfold ClQcpool.objSize
    rw [h.sizes, List.foldl_cons, List.foldl_nil, UInt64.zero_add]
  obtain ⟨hitem, hlt⟩ := h.fits
  refine ⟨?_, fun k offset hinit => ?_⟩
  · have hcount := growCount_le_objCount s.pool s.pool.growSize
    have hgrow := h.grow
    have hlist : LIST_ITEM_SIZE.toNat = 16 := rfl
    have hprod : size.toNat * (growCount s.pool s.pool.growSize).toNat ≤ 4294967295 * 4294967295 :=
      Nat.mul_le_mul (by omega) (by omega)
    rw [hsize, hlist]
    omega
  · unfold initObject at hinit
    rw [h.noInit, if_neg Bool.false_ne_true] at hinit
    cases hinit
    rw [hsize]
    simpa using hitem

/-- **Getting an object** has a result, and an object that is handed out is a new one. -/
theorem get (h : Stock size s items n) (supply : Supply) :
    ∃ r s' n', clQpoolGet s supply = some (r, s') ∧ Stock size s' (r.toList ++ items) n' ∧
      ∀ a, r = some a → a ∉ items := by
  obtain ⟨free, -, hacc⟩ := h.accounts
  obtain ⟨⟨r, s'⟩, hget⟩ :=
    Option.isSome_iff_exists.mp (getBy_isSome takes_removeHead hacc (h.fitsBlock supply))
  obtain ⟨⟨free', hacc'⟩, hsame, -⟩ := getBy_spec takes_removeHead hacc hget
  obtain ⟨hout, hsizes⟩ := getBy_out hget
  have hperm : s'.handedOut.Perm (r.toList ++ items) := by
    rw [hout]
    exact h.out.append_left _
  have hgrow : s'.pool.growSize.toNat < 4294967296 := by
    rw [hsame.growSize]
    exact h.grow
  refine ⟨r, s', free'.length, hget, ⟨⟨free', rfl, hacc'⟩, hperm, hsizes.trans h.sizes,
    hsame.pfnInit.trans h.noInit, hgrow, h.fits⟩, ?_⟩
  rintro a rfl
  have hnd := hperm.nodup_iff.mp hacc'.nodup.of_append_right
  exact (List.nodup_cons.mp hnd).1

/-- **With a free object** the heap is not asked. -/
theorem get_free (h : Stock size s items (n + 1)) :
    ∃ a s', (∀ supply, clQpoolGet s supply = some (some a, s')) ∧ Stock size s' (a :: items) n ∧ a ∉ items ∧
      s'.blocks = s.blocks := by
  obtain ⟨free, hlen, hacc⟩ := h.accounts
  obtain ⟨a, free, rfl⟩ := List.exists_cons_of_length_eq_add_one hlen
  have hempty : clIsQlistEmpty s.pool.freeList ≠ true := fun he => List.cons_ne_nil _ _ ((isEmpty_iff hacc).mp he)
  obtain ⟨freeList, hremove, hlist⟩ := hacc.list.removeHead
  have hall : (free ++ a :: s.handedOut).Perm (a :: free ++ s.handedOut) := List.perm_middle
  have hout : a ∉ items := fun hmem =>
    (List.nodup_cons.mp hacc.nodup).1 (List.mem_append_right _ (h.out.mem_iff.mpr hmem))
  refine ⟨a, { s with pool := { s.pool with freeList := freeList }, handedOut := a :: s.handedOut },
    fun supply => ?_, ⟨⟨free, Nat.succ.inj hlen, hlist, hall.nodup_iff.mpr hacc.nodup, ?_, hacc.max,
      fun b hb => hacc.place b (hall.mem_iff.mp hb)⟩, h.out.cons a, h.sizes, h.noInit, h.grow, h.fits⟩, hout, rfl⟩
  · unfold clQpoolGet clQcpoolGet getBy
    rw [if_neg hempty, takeItem, hremove]
  · rw [← List.length_append, hall.length_eq, List.length_append, hacc.count]

/-- What getting an object does, whether there is a free one or not. -/
theorem get_spec (h : Stock size s items n) (supply : Supply) :
    ∃ r s' n', clQpoolGet s supply = some (r, s') ∧ Stock size s' (r.toList ++ items) n' ∧
      (∀ a, r = some a → a ∉ items) ∧ (0 < n → r ≠ none ∧ n' + 1 = n ∧ s'.blocks = s.blocks) := by
  cases n with
  | zero =>
    obtain ⟨r, s', n', hget, h', hfresh⟩ := h.get supply
    exact ⟨r, s', n', hget, h', hfresh, fun hpos => absurd hpos (Nat.lt_irrefl 0)⟩
  | succ n =>
    obtain ⟨a, s', hget, h', hfresh, hblocks⟩ := h.get_free
    refine ⟨some a, s', n, hget supply, h', ?_, fun _ => ⟨Option.some_ne_none a, rfl, hblocks⟩⟩
    rintro _ ⟨⟩
    exact hfresh

/-- **Putting an object back** makes it a free one. -/
theorem put (h : Stock size s items n) (hperm : items.Perm (a :: rest)) :
    ∃ s', clQpoolPut s a = some s' ∧ Stock size s' rest (n + 1) ∧ s'.blocks = s.blocks := by
  obtain ⟨free, hlen, hacc⟩ := h.accounts
  have hout := h.out.trans hperm
  obtain ⟨freeList, hins, hacc'⟩ := hacc.put (hout.mem_iff.mpr (List.mem_cons_self ..))
  have herase := hout.erase a
  rw [List.erase_cons_head] at herase
  exact ⟨{ s with pool := { s.pool with freeList := freeList }, handedOut := s.handedOut.erase a },
    by rw [clQpoolPut, clQcpoolPut, hins, Option.map_some],
    ⟨⟨a :: free, congrArg Nat.succ hlen, hacc'⟩, herase, h.sizes, h.noInit, h.grow, h.fits⟩, rfl⟩

/-- **A pool that is initialized** has handed out nothing. -/
theorem init {malloc : Bool} {minSize maxSize growSize objectSize : UInt64} {s : PoolSystem}
    (hrun : clQpoolInit malloc supply minSize maxSize growSize objectSize = some (.success, s))
    (hgrow : growSize.toNat < 4294967296)
    (hfits : POOL_ITEM_SIZE.toNat ≤ (roundup objectSize 8).toNat ∧ (roundup objectSize 8).toNat < 4294967296) :
    ∃ n, Stock (roundup objectSize 8) s [] n := by
  unfold clQpoolInit clQcpoolInit at hrun
  dsimp only at hrun
  split at hrun
  · cases hrun
  split at hrun
  · cases hrun
  split at hrun
  · cases hrun
  split at hrun
  · cases hrun
    exact ⟨0, ⟨[], rfl, accounts_setUp _ _⟩, .refl _, rfl, rfl, hgrow, hfits⟩
  · obtain ⟨⟨status, s₁⟩, hgrown, hstatus⟩ := Option.map_eq_some_iff.mp hrun
    have hempty : ∀ args, Accounts (InBlocks { PoolSystem.start with pool := setUp args }) (setUp args) [] [] :=
      fun args => accounts_setUp args _
    obtain ⟨⟨free, hacc, -⟩, hsame, -⟩ := clQcpoolGrow_spec (hempty _) hgrown
    obtain ⟨hout, hsizes⟩ := clQcpoolGrow_out hgrown
    dsimp only at hstatus
    split at hstatus
    · rename_i hfails
      exact absurd (congrArg Prod.fst hstatus) hfails
    · cases hstatus
      refine ⟨free.length, ⟨free, rfl, hacc⟩, hout ▸ .refl _, hsizes, hsame.pfnInit, ?_, hfits⟩
      rw [hsame.growSize]
      exact hgrow

end Stock

end MlnxLib.QcPool
