import MlnxLib.Complib.QPool

/-!
# Arrays inserted into a list

Model of the part of `cl_list.h` and `cl_list.c` that inserts: a `cl_list_t` is a quick list of pool objects
with a pool that it takes them from.  An array goes in object by object, and all of it comes out again if the
pool has no more objects.

* `ClList` — `cl_list_t`, with the pointer in each of its pool objects.
* `insertBy`, `removeBy` — one object; `insertLoop`, `rollBack` — the two loops of an insertion.
* `Holds s items` — the list has the pool objects `items`, and they are all that the pool has handed out.
* `Atomic` — an insertion that has put the objects in, or has left everything as it was.

Pointers are 64-bit values.  The links of a pool object are those of the free list or those of the list; here
each of the two lists has its own.

Principal result: `insert_array_atomic` — an insertion at the tail is atomic, and one at the head exactly if the
offset of the last object of the array does not wrap around in 32 bits, or the pool has too few objects.
-/

set_option autoImplicit false

namespace MlnxLib.ClLists

open QcPool

/-! ## Lists with a pool -/

/-- `cl_list_t`, and `p_object` of the pool objects. -/
structure ClList where
  pool : PoolSystem
  list : Qlist FreeNode
  object : Addr → UInt64

def FREE_ITEM_GROW_SIZE : UInt32 := 10

/-- `sizeof(cl_pool_obj_t)`. -/
def POOL_OBJ_SIZE : UInt64 := 24

/-- The `grow_size` of `cl_list_init`. -/
def listGrowSize (minItems : UInt64) : UInt32 :=
  if minItems.toUInt32 >>> 3 < FREE_ITEM_GROW_SIZE then FREE_ITEM_GROW_SIZE else minItems.toUInt32 >>> 3

/-- `cl_list_init` of a list in new memory. -/
def clListInit (malloc : Bool) (supply : Supply) (minItems : UInt64) : Option (ClStatus × ClList) :=
  (clQcpoolInit .start malloc supply ⟨minItems, 0, (listGrowSize minItems).toUInt64, [POOL_OBJ_SIZE], false⟩).map
    fun r => (r.1, ⟨r.2, ⟨clQlistInit (fun _ => Ring.Link.null) .listEnd, 0⟩, fun _ => 0⟩)

/-- What `cl_list_insert_head` and `cl_list_insert_tail` share. -/
def insertBy (insert : Qlist FreeNode → FreeNode → Option (Qlist FreeNode)) (s : ClList) (supply : Supply)
    (object : UInt64) : Option (ClStatus × ClList) :=
  (clQcpoolGet s.pool supply).bind fun r =>
    match r.1 with
    | none => some (.insufficientMemory, { s with pool := r.2 })
    | some a => (insert s.list (.item a)).map fun list =>
      (.success, ⟨r.2, list, Function.update s.object a object⟩)

/-- `cl_qlist_insert_head` on the list. -/
def atHead (list : Qlist FreeNode) (item : FreeNode) : Option (Qlist FreeNode) :=
  clQlistInsertHead list .listEnd item

/-- `cl_qlist_insert_tail` on the list. -/
def atTail (list : Qlist FreeNode) (item : FreeNode) : Option (Qlist FreeNode) :=
  some ⟨clQlistInsertTail list.links .listEnd item, list.count + 1⟩

/-- `cl_list_insert_head`. -/
def clListInsertHead : ClList → Supply → UInt64 → Option (ClStatus × ClList) := insertBy atHead

/-- `cl_list_insert_tail`. -/
def clListInsertTail : ClList → Supply → UInt64 → Option (ClStatus × ClList) := insertBy atTail

/-- What `cl_list_remove_head` and `cl_list_remove_tail` share; `none` for `NULL`. -/
def removeBy (remove : Qlist FreeNode → FreeNode → Option (FreeNode × Qlist FreeNode)) (s : ClList) :
    Option (Option UInt64 × ClList) :=
  if clIsQlistEmpty s.list then some (none, s) else
  (remove s.list .listEnd).bind fun r =>
    match r.1 with
    | .listEnd => none
    | .item a => (clQcpoolPut s.pool a).map fun pool => (some (s.object a), { s with pool := pool, list := r.2 })

/-- `cl_list_remove_head`. -/
def clListRemoveHead : ClList → Option (Option UInt64 × ClList) := removeBy clQlistRemoveHead

/-- `cl_list_remove_tail`. -/
def clListRemoveTail : ClList → Option (Option UInt64 × ClList) := removeBy clQlistRemoveTail

/-! ## Arrays -/

/-- `while (items_remain++ < (item_count - 1))`, with the removal of an object. -/
def rollBack (remove : ClList → Option (Option UInt64 × ClList)) (itemCount : UInt32) :
    Nat → UInt32 → ClList → Option ClList
  | 0, _, _ => none
  | fuel + 1, itemsRemain, s =>
    if itemsRemain < itemCount - 1 then
      (remove s).bind fun r => rollBack remove itemCount fuel (itemsRemain + 1) r.2
    else some s

/-- `while (items_remain--)`, with the insertion of an object; `next` goes to the next one.  What the pool gets
from the heap depends on the objects that remain. -/
def insertLoop (insert : ClList → Supply → UInt64 → Option (ClStatus × ClList))
    (remove : ClList → Option (Option UInt64 × ClList)) (next : UInt64 → UInt64) (itemCount : UInt32)
    (supplies : UInt32 → Supply) : Nat → UInt32 → UInt64 → ClList → Option (ClStatus × ClList)
  | 0, _, _, _ => none
  | fuel + 1, itemsRemain, object, s =>
    if itemsRemain = 0 then some (.success, s) else
    (insert s (supplies (itemsRemain - 1)) object).bind fun r =>
      if r.1 ≠ .success then
        (rollBack remove itemCount (itemCount.toNat + 1) (itemsRemain - 1) r.2).map fun s => (r.1, s)
      else insertLoop insert remove next itemCount supplies fuel (itemsRemain - 1) (next object) r.2

/-- `cl_list_insert_array_head`; the offset of the last object is computed in 32 bits. -/
def clListInsertArrayHead (s : ClList) (array : UInt64) (itemCount itemSize : UInt32)
    (supplies : UInt32 → Supply) : Option (ClStatus × ClList) :=
  insertLoop clListInsertHead clListRemoveHead (· - itemSize.toUInt64) itemCount supplies (itemCount.toNat + 1)
    itemCount (array + (itemSize * (itemCount - 1)).toUInt64) s

/-- `cl_list_insert_array_tail`. -/
def clListInsertArrayTail (s : ClList) (array : UInt64) (itemCount itemSize : UInt32)
    (supplies : UInt32 → Supply) : Option (ClStatus × ClList) :=
  insertLoop clListInsertTail clListRemoveTail (· + itemSize.toUInt64) itemCount supplies (itemCount.toNat + 1)
    itemCount array s

/-- The objects of an array. -/
def arrayObjects (array : UInt64) (itemCount itemSize : UInt32) : List UInt64 :=
  (List.range itemCount.toNat).map fun k => array + UInt64.ofNat k * itemSize.toUInt64

/-- The pool has objects for the positions below `n`, from the last one on. -/
def supplied (supplies : UInt32 → Supply) : Nat → PoolSystem → Bool
  | 0, _ => true
  | n + 1, pool =>
    match clQcpoolGet pool (supplies (UInt32.ofNat n)) with
    | some (some _, pool) => supplied supplies n pool
    | _ => false

/-! ## Representation -/

/-- **The list has the pool objects `items`**, and the pool has handed out these. -/
structure Holds (s : ClList) (items : List Addr) : Prop where
  accounts : ∃ free, Accounts (InBlocks s.pool) s.pool.pool s.pool.handedOut free
  list : IsQlist s.list .listEnd (items.map .item)
  out : s.pool.handedOut.Perm items
  sizes : s.pool.pool.componentSizes = [POOL_OBJ_SIZE]
  noInit : s.pool.pool.pfnInit = false
  grow : s.pool.pool.growSize.toNat < 4294967296

/-- **An insertion is atomic**: it succeeds and the list has these objects, or it fails and the list has the pool
objects that it had, with the same objects. -/
def Atomic (s : ClList) (items : List Addr) (result : Option (ClStatus × ClList)) (objects : List UInt64) : Prop :=
  ∃ status s', result = some (status, s') ∧
    if status = .success then ∃ items', Holds s' items' ∧ items'.map s'.object = objects
    else Holds s' items ∧ ∀ a ∈ items, s'.object a = s.object a

section

variable {s : ClList} {items : List Addr} {place : Addr → List Addr → List Addr}
  {insert : Qlist FreeNode → FreeNode → Option (Qlist FreeNode)}
  {remove : Qlist FreeNode → FreeNode → Option (FreeNode × Qlist FreeNode)}

/-- A list has one sequence of pool objects. -/
theorem Holds.unique {items' : List Addr} (h : Holds s items) (h' : Holds s items') : items = items' :=
  List.map_injective_iff.mpr (fun _ _ he => FreeNode.item.inj he) (h.list.ring.unique h'.list.ring)

theorem Holds.nodup (h : Holds s items) : items.Nodup := h.list.ring.nodup.of_map _

/-- The pool of a list. -/
theorem Holds.stock (h : Holds s items) : ∃ n, Stock POOL_OBJ_SIZE s.pool items n := by
  obtain ⟨free, hacc⟩ := h.accounts
  exact ⟨free.length, ⟨free, rfl, hacc⟩, h.out, h.sizes, h.noInit, h.grow, by decide⟩

theorem Holds.of_stock {n : Nat} (h : Stock POOL_OBJ_SIZE s.pool items n)
    (hlist : IsQlist s.list .listEnd (items.map .item)) : Holds s items := by
  obtain ⟨free, -, hacc⟩ := h.accounts
  exact ⟨⟨free, hacc⟩, hlist, h.out, h.sizes, h.noInit, h.grow⟩

/-- Where objects are inserted, and removed again. -/
structure Inserts (place : Addr → List Addr → List Addr)
    (insert : Qlist FreeNode → FreeNode → Option (Qlist FreeNode))
    (remove : Qlist FreeNode → FreeNode → Option (FreeNode × Qlist FreeNode)) : Prop where
  perm : ∀ a items, (place a items).Perm (a :: items)
  insert : ∀ {list items a}, IsQlist list .listEnd (items.map .item) → a ∉ items →
    ∃ list', insert list (.item a) = some list' ∧ IsQlist list' .listEnd ((place a items).map .item)
  remove : ∀ {list items a}, IsQlist list .listEnd ((place a items).map .item) →
    ∃ list', remove list .listEnd = some (.item a, list') ∧ IsQlist list' .listEnd (items.map .item)

theorem inserts_head : Inserts List.cons atHead clQlistRemoveHead where
  perm _ _ := .refl _
  insert hlist ha := hlist.insertHead (not_mem_nodes ha)
  remove hlist := hlist.removeHead

theorem inserts_tail : Inserts (fun a items => items ++ [a]) atTail clQlistRemoveTail where
  perm a items := List.perm_append_singleton a items
  insert {list items a} hlist ha := by
    rw [← List.append_nil (items.map _)] at hlist
    have hins := hlist.insertBefore (by simpa using not_mem_nodes ha : FreeNode.item a ∉ _)
    refine ⟨_, rfl, ?_⟩
    rw [List.map_append]
    exact hins
  remove {list items a} hlist := by
    rw [List.map_append] at hlist
    exact hlist.removeTail

namespace Holds

/-- **An object is inserted**, or the pool has none. -/
theorem insertBy (hp : Inserts place insert remove) (h : Holds s items) (supply : Supply) (object : UInt64) :
    (∃ a s', ClLists.insertBy insert s supply object = some (.success, s') ∧
      clQcpoolGet s.pool supply = some (some a, s'.pool) ∧ Holds s' (place a items) ∧ a ∉ items ∧
      s'.object = Function.update s.object a object) ∨
    ∃ s', ClLists.insertBy insert s supply object = some (.insufficientMemory, s') ∧
      clQcpoolGet s.pool supply = some (none, s'.pool) ∧ Holds s' items ∧ s'.object = s.object := by
  obtain ⟨n, hstock⟩ := h.stock
  obtain ⟨r, pool, n', hget, hstock', hfresh⟩ := hstock.get supply
  have hcode : clQcpoolGet s.pool supply = some (r, pool) := hget
  unfold ClLists.insertBy
  rw [hcode, Option.bind_some]
  cases r with
  | none => exact Or.inr ⟨_, rfl, rfl, of_stock hstock' h.list, rfl⟩
  | some a =>
    have ha : a ∉ items := hfresh a rfl
    obtain ⟨list', hins, hlist⟩ := hp.insert h.list ha
    refine Or.inl ⟨a, ⟨pool, list', Function.update s.object a object⟩, by dsimp only; rw [hins]; rfl, rfl,
      of_stock (hstock'.perm (hp.perm a items).symm) hlist, ha, rfl⟩

/-- **An object is removed**, and is in the pool again. -/
theorem removeBy (hp : Inserts place insert remove) {a : Addr} (h : Holds s (place a items)) :
    ∃ object s', ClLists.removeBy remove s = some (object, s') ∧ Holds s' items ∧ s'.object = s.object := by
  have hempty : clIsQlistEmpty s.list ≠ true := by
    intro he
    rw [h.list.isEmpty_iff, List.map_eq_nil_iff] at he
    have hperm := hp.perm a items
    rw [he] at hperm
    cases hperm.symm.eq_nil
  obtain ⟨n, hstock⟩ := h.stock
  obtain ⟨list', hremove, hlist⟩ := hp.remove h.list
  obtain ⟨pool, hput, hstock', -⟩ := hstock.put (hp.perm a items)
  have hcode : clQcpoolPut s.pool a = some pool := hput
  refine ⟨some (s.object a), ⟨pool, list', s.object⟩, ?_, of_stock hstock' hlist, rfl⟩
  unfold ClLists.removeBy
  rw [if_neg hempty, hremove, Option.bind_some]
  dsimp only
  rw [hcode]
  rfl

/-- **The objects that were inserted come out again**, the last one first. -/
theorem rollBack (hp : Inserts place insert remove) {itemCount : UInt32} : ∀ (news : List Addr) {s : ClList}
    {itemsRemain : UInt32} {fuel : Nat}, Holds s (news.foldr place items) →
      itemsRemain.toNat + news.length = (itemCount - 1).toNat → news.length < fuel →
      ∃ s', ClLists.rollBack (ClLists.removeBy remove) itemCount fuel itemsRemain s = some s' ∧ Holds s' items ∧
        s'.object = s.object
  | _, _, _, 0, _, _, hfuel => absurd hfuel (Nat.not_lt_zero _)
  | [], s, itemsRemain, fuel + 1, h, hcount, _ => by
    have hge : ¬itemsRemain < itemCount - 1 := by
      rw [UInt32.lt_iff_toNat_lt, ← hcount]
      exact Nat.lt_irrefl _
    exact ⟨s, by rw [ClLists.rollBack, if_neg hge], h, rfl⟩
  | a :: news, s, itemsRemain, fuel + 1, h, hcount, hfuel => by
    rw [List.length_cons] at hcount hfuel
    have hlt : itemsRemain < itemCount - 1 := by
      rw [UInt32.lt_iff_toNat_lt, ← hcount]
      omega
    have hsucc : (itemsRemain + 1).toNat = itemsRemain.toNat + 1 := by
      have hbound := (itemCount - 1).toNat_lt
      rw [UInt32.toNat_add, UInt32.toNat_one]
      omega
    obtain ⟨object, s₁, hremove, h₁, hobject₁⟩ := removeBy hp h
    have hcount₁ : (itemsRemain + 1).toNat + news.length = (itemCount - 1).toNat := by omega
    obtain ⟨s', hloop, h', hobject⟩ := rollBack hp news h₁ hcount₁ (Nat.lt_of_succ_lt_succ hfuel)
    refine ⟨s', ?_, h', hobject.trans hobject₁⟩
    rw [ClLists.rollBack, if_pos hlt, hremove, Option.bind_some, hloop]

end Holds

/-- What an insertion of `n` more objects leaves, after those of `news`. -/
inductive Inserted (place : Addr → List Addr → List Addr) (next : UInt64 → UInt64) (supplies : UInt32 → Supply)
    (items news : List Addr) (n : Nat) (object : UInt64) (s : ClList) : ClStatus × ClList → Prop where
  | all (s' : ClList) (more : List Addr) (hsupplied : supplied supplies n s.pool = true)
      (hholds : Holds s' ((more ++ news).foldr place items))
      (hobjects : more.reverse.map s'.object = (List.range n).map (next^[·] object))
      (hsame : ∀ a ∈ news.foldr place items, s'.object a = s.object a) :
      Inserted place next supplies items news n object s (.success, s')
  | none (s' : ClList) (hsupplied : supplied supplies n s.pool = false) (hholds : Holds s' items)
      (hsame : ∀ a ∈ items, s'.object a = s.object a) :
      Inserted place next supplies items news n object s (.insufficientMemory, s')

theorem mem_foldr_place (hp : Inserts place insert remove) {a : Addr} : ∀ (news : List Addr),
    a ∈ news.foldr place items ↔ a ∈ news ∨ a ∈ items
  | [] => by simp
  | b :: news => by
    rw [List.foldr_cons, (hp.perm b _).mem_iff, List.mem_cons, mem_foldr_place hp news, List.mem_cons, or_assoc]

/-- **The loop over the objects of an array**, when those of `news` are in the list. -/
theorem insertLoop_spec (hp : Inserts place insert remove) {next : UInt64 → UInt64} {itemCount : UInt32}
    {supplies : UInt32 → Supply} : ∀ (n : Nat) {news : List Addr} {s : ClList} {object : UInt64}
      {itemsRemain : UInt32} {fuel : Nat}, itemsRemain.toNat = n → Holds s (news.foldr place items) →
      news.length + n = itemCount.toNat → n < fuel →
      ∃ r, insertLoop (insertBy insert) (removeBy remove) next itemCount supplies fuel itemsRemain object s = some r ∧
        Inserted place next supplies items news n object s r
  | _, _, _, _, _, 0, _, _, _, hfuel => absurd hfuel (Nat.not_lt_zero _)
  | 0, news, s, object, itemsRemain, fuel + 1, hn, h, _, _ => by
    have hzero : itemsRemain = 0 := UInt32.toNat_inj.mp hn
    exact ⟨_, by rw [insertLoop, if_pos hzero], .all s [] rfl h rfl fun _ _ => rfl⟩
  | n + 1, news, s, object, itemsRemain, fuel + 1, hn, h, hcount, hfuel => by
    have hne : itemsRemain ≠ 0 := by
      rintro rfl
      cases hn
    have hle : (1 : UInt32) ≤ itemsRemain := by
      rw [UInt32.le_iff_toNat_le, UInt32.toNat_one]
      omega
    have hpred : (itemsRemain - 1).toNat = n := by
      rw [UInt32.toNat_sub_of_le _ _ hle, hn, UInt32.toNat_one, Nat.add_sub_cancel]
    have hofNat : UInt32.ofNat n = itemsRemain - 1 := by
      rw [← hpred, UInt32.ofNat_toNat]
    rw [insertLoop, if_neg hne]
    rcases h.insertBy hp (supplies (itemsRemain - 1)) object with
      ⟨a, s₁, hinsert, hget, h₁, ha, hobject₁⟩ | ⟨s₁, hinsert, hget, h₁, hobject₁⟩
    · rw [hinsert, Option.bind_some, if_neg (not_not.mpr rfl)]
      have hcount₁ : (a :: news).length + n = itemCount.toNat := by
        rw [List.length_cons]
        omega
      obtain ⟨r, hloop, hinserted⟩ := insertLoop_spec hp n hpred (h₁ : Holds s₁ ((a :: news).foldr place items))
        hcount₁ (Nat.lt_of_succ_lt_succ hfuel)
      refine ⟨r, hloop, ?_⟩
      have hsupplied : supplied supplies (n + 1) s.pool = supplied supplies n s₁.pool := by
        rw [supplied, hofNat, hget]
      have hkeeps : ∀ b ∈ news.foldr place items, s₁.object b = s.object b := by
        intro b hb
        rw [hobject₁, Function.update_of_ne]
        rintro rfl
        exact ha hb
      cases hinserted with
      | all s' more hmore hholds hobjects hsame =>
        have hmem : a ∈ (a :: news).foldr place items := (mem_foldr_place hp _).mpr (Or.inl (List.mem_cons_self ..))
        refine .all s' (more ++ [a]) (hsupplied.trans hmore) (by simpa using hholds) ?_ fun b hb => ?_
        · rw [List.reverse_append, List.reverse_singleton, List.singleton_append, List.map_cons, hobjects,
            hsame a hmem, hobject₁, Function.update_self, List.range_succ_eq_map, List.map_cons, List.map_map]
          rfl
        · rw [hsame b ((hp.perm a _).mem_iff.mpr (List.mem_cons_of_mem _ hb)), hkeeps b hb]
      | none s' hmore hholds hsame =>
        refine .none s' (hsupplied.trans hmore) hholds fun b hb => ?_
        rw [hsame b hb, hkeeps b ((mem_foldr_place hp _).mpr (Or.inr hb))]
    · have hone : (1 : UInt32) ≤ itemCount := by
        rw [UInt32.le_iff_toNat_le, UInt32.toNat_one]
        omega
      have hlast : (itemCount - 1).toNat = itemCount.toNat - 1 := by
        rw [UInt32.toNat_sub_of_le _ _ hone, UInt32.toNat_one]
      have hcount₁ : (itemsRemain - 1).toNat + news.length = (itemCount - 1).toNat := by omega
      have hfuel₁ : news.length < itemCount.toNat + 1 := by omega
      obtain ⟨s', hback, h', hobject⟩ := h₁.rollBack hp news hcount₁ hfuel₁
      have hfails : ClStatus.insufficientMemory ≠ .success := nofun
      refine ⟨(.insufficientMemory, s'), ?_, .none s' ?_ h' fun b _ => ?_⟩
      · rw [hinsert, Option.bind_some, if_pos hfails, hback]
        rfl
      · rw [supplied, hofNat, hget]
      · rw [hobject, hobject₁]

/-! ## Both ends -/

theorem add_iterate (size : UInt64) : ∀ (k : Nat) (object : UInt64),
    (· + size)^[k] object = object + UInt64.ofNat k * size
  | 0, object => by simp
  | k + 1, object => by
    rw [Function.iterate_succ_apply, add_iterate size k, UInt64.ofNat_add]
    grind

theorem sub_iterate (size : UInt64) : ∀ (k : Nat) (object : UInt64),
    (· - size)^[k] object = object - UInt64.ofNat k * size
  | 0, object => by simp
  | k + 1, object => by
    rw [Function.iterate_succ_apply, sub_iterate size k, UInt64.ofNat_add]
    grind

theorem foldr_tail (items : List Addr) : ∀ more : List Addr,
    more.foldr (fun a items => items ++ [a]) items = items ++ more.reverse
  | [] => by simp
  | a :: more => by
    rw [List.foldr_cons, foldr_tail items more, List.reverse_cons, List.append_assoc]

theorem foldr_head (items more : List Addr) : more.foldr List.cons items = more ++ items := List.foldr_cons_eq_append'

/-- The loop from an array on. -/
theorem insertArray_spec (hp : Inserts place insert remove) (h : Holds s items) (next : UInt64 → UInt64)
    (itemCount : UInt32) (supplies : UInt32 → Supply) (object : UInt64) :
    ∃ r, insertLoop (insertBy insert) (removeBy remove) next itemCount supplies (itemCount.toNat + 1) itemCount
      object s = some r ∧ Inserted place next supplies items [] itemCount.toNat object s r :=
  insertLoop_spec hp itemCount.toNat rfl h (Nat.zero_add _) (Nat.lt_succ_self _)

/-- **An insertion at the tail** is atomic. -/
theorem atomic_tail (h : Holds s items) (array : UInt64) (itemCount itemSize : UInt32)
    (supplies : UInt32 → Supply) : Atomic s items (clListInsertArrayTail s array itemCount itemSize supplies)
      (items.map s.object ++ arrayObjects array itemCount itemSize) := by
  obtain ⟨r, hloop, hinserted⟩ := insertArray_spec inserts_tail h (· + itemSize.toUInt64) itemCount supplies array
  cases hinserted with
  | all s' more _ hholds hobjects hsame =>
    refine ⟨.success, s', hloop, ?_⟩
    rw [if_pos rfl]
    rw [List.append_nil, foldr_tail] at hholds
    have hold : items.map s'.object = items.map s.object := List.map_congr_left hsame
    refine ⟨_, hholds, ?_⟩
    rw [List.map_append, hobjects, hold]
    simp only [add_iterate]
    rfl
  | none s' _ hholds hsame =>
    refine ⟨.insufficientMemory, s', hloop, ?_⟩
    rw [if_neg nofun]
    exact ⟨hholds, hsame⟩

/-- The objects that are inserted from the last one on, and those of the array. -/
theorem reverse_eq_arrayObjects (array : UInt64) (itemCount itemSize : UInt32) (offset : UInt64) :
    ((List.range itemCount.toNat).map fun k => array + offset - UInt64.ofNat k * itemSize.toUInt64).reverse =
        arrayObjects array itemCount itemSize ↔
      (itemCount.toNat = 0 ∨ offset = UInt64.ofNat (itemCount.toNat - 1) * itemSize.toUInt64) := by
  unfold arrayObjects
  cases itemCount.toNat with
  | zero => simp
  | succ n =>
    rw [Nat.add_sub_cancel]
    constructor
    · intro h
      -- the object that is inserted first
      have hlast := congrArg List.getLast? h
      have hfirst : (List.range (n + 1)).head? = some 0 := by
        rw [List.range_succ_eq_map]
        rfl
      have hend : (List.range (n + 1)).getLast? = some n := by
        rw [List.range_succ, List.getLast?_concat]
      rw [List.getLast?_reverse, List.head?_map, List.getLast?_map, hfirst, hend, Option.map_some,
        Option.map_some, Option.some.injEq] at hlast
      have hzero : UInt64.ofNat 0 = 0 := rfl
      rw [hzero] at hlast
      right
      grind
    · rintro (h | rfl)
      · cases h
      · refine List.ext_getElem (by simp) fun i hi _ => ?_
        rw [List.length_reverse, List.length_map, List.length_range] at hi
        simp only [List.getElem_reverse, List.length_map, List.length_range, List.getElem_map, List.getElem_range]
        have hsum : UInt64.ofNat n = UInt64.ofNat (n + 1 - 1 - i) + UInt64.ofNat i := by
          rw [← UInt64.ofNat_add]
          congr 1
          omega
        rw [hsum]
        grind

/-- The offset of the last object. -/
theorem offset_eq_iff {itemCount itemSize : UInt32} (hne : itemCount.toNat ≠ 0) :
    (itemSize * (itemCount - 1)).toUInt64 = UInt64.ofNat (itemCount.toNat - 1) * itemSize.toUInt64 ↔
      itemSize.toNat * (itemCount.toNat - 1) < 4294967296 := by
  have hone : (1 : UInt32) ≤ itemCount := by
    rw [UInt32.le_iff_toNat_le, UInt32.toNat_one]
    omega
  have hlast : (itemCount - 1).toNat = itemCount.toNat - 1 := by
    rw [UInt32.toNat_sub_of_le _ _ hone, UInt32.toNat_one]
  have hsize := itemSize.toNat_lt
  have hcount := itemCount.toNat_lt
  have hprod : itemSize.toNat * (itemCount.toNat - 1) < 4294967296 * 4294967296 := by
    exact Nat.mul_lt_mul'' (by omega) (by omega)
  rw [← UInt64.toNat_inj, UInt32.toNat_toUInt64, UInt32.toNat_mul, hlast, UInt64.toNat_mul, UInt64.toNat_ofNat',
    UInt32.toNat_toUInt64, Nat.mod_eq_of_lt (by omega : itemCount.toNat - 1 < 2 ^ 64), Nat.mul_comm (_ - 1),
    Nat.mod_eq_of_lt (by omega : itemSize.toNat * (itemCount.toNat - 1) < 2 ^ 64)]
  constructor
  · intro h
    rw [← h]
    exact Nat.mod_lt _ (by decide)
  · intro h
    exact Nat.mod_eq_of_lt h

/-- **An insertion at the head** is atomic if the offset of the last object is right, or the pool has too few
objects. -/
theorem atomic_head_iff (h : Holds s items) (array : UInt64) (itemCount itemSize : UInt32)
    (supplies : UInt32 → Supply) : Atomic s items (clListInsertArrayHead s array itemCount itemSize supplies)
        (arrayObjects array itemCount itemSize ++ items.map s.object) ↔
      (itemSize.toNat * (itemCount.toNat - 1) < 4294967296 ∨
        supplied supplies itemCount.toNat s.pool = false) := by
  obtain ⟨r, hloop, hinserted⟩ := insertArray_spec inserts_head h (· - itemSize.toUInt64) itemCount supplies
    (array + (itemSize * (itemCount - 1)).toUInt64)
  have hcode : clListInsertArrayHead s array itemCount itemSize supplies = some r := hloop
  cases hinserted with
  | all s' more hsupplied hholds hobjects hsame =>
    have hold : items.map s'.object = items.map s.object := List.map_congr_left hsame
    rw [List.append_nil, foldr_head] at hholds
    simp only [sub_iterate] at hobjects
    have hmore : more.map s'.object = ((List.range itemCount.toNat).map fun k =>
        array + (itemSize * (itemCount - 1)).toUInt64 - UInt64.ofNat k * itemSize.toUInt64).reverse := by
      rw [← hobjects, ← List.map_reverse, List.reverse_reverse]
    have hatomic : Atomic s items (clListInsertArrayHead s array itemCount itemSize supplies)
        (arrayObjects array itemCount itemSize ++ items.map s.object) ↔
        more.map s'.object = arrayObjects array itemCount itemSize := by
      constructor
      · rintro ⟨status, s₁, hrun, hresult⟩
        cases hcode.symm.trans hrun
        rw [if_pos rfl] at hresult
        obtain ⟨items', hholds', hcontents⟩ := hresult
        rw [← hholds.unique hholds', List.map_append, hold] at hcontents
        exact List.append_cancel_right hcontents
      · intro hcontents
        refine ⟨.success, s', hcode, ?_⟩
        rw [if_pos rfl]
        exact ⟨_, hholds, by rw [List.map_append, hold, hcontents]⟩
    rw [hatomic, hmore, reverse_eq_arrayObjects, hsupplied]
    by_cases hzero : itemCount.toNat = 0
    · simp [hzero]
    · rw [offset_eq_iff hzero]
      simp [hzero]
  | none s' hsupplied hholds hsame =>
    refine iff_of_true ⟨.insufficientMemory, s', hcode, ?_⟩ (Or.inr hsupplied)
    rw [if_neg nofun]
    exact ⟨hholds, hsame⟩

/-- A list that is initialized is empty. -/
theorem clListInit_holds {malloc : Bool} {supply : Supply} {minItems : UInt64} {s : ClList}
    (hrun : clListInit malloc supply minItems = some (.success, s)) : Holds s [] := by
  unfold clListInit at hrun
  obtain ⟨⟨status, pool⟩, hpool, heq⟩ := Option.map_eq_some_iff.mp hrun
  cases heq
  have hgrow : (listGrowSize minItems).toUInt64.toNat < 4294967296 := by
    rw [UInt32.toNat_toUInt64]
    exact (listGrowSize minItems).toNat_lt
  obtain ⟨n, hstock⟩ := Stock.init hpool hgrow (by decide)
  exact .of_stock hstock (isQlist_init (fun _ => Ring.Link.null) FreeNode.listEnd)

/-- **Array insertion.**  For every list and every array, whatever objects the pool can supply, an insertion at
the tail is atomic, and one at the head if and only if the offset of the last object fits in 32 bits, or the pool
does not supply an object for each position. -/
theorem insert_array_atomic (s : ClList) (items : List Addr) (h : Holds s items) (array : UInt64)
    (itemCount itemSize : UInt32) (supplies : UInt32 → Supply) :
    Atomic s items (clListInsertArrayTail s array itemCount itemSize supplies)
      (items.map s.object ++ arrayObjects array itemCount itemSize) ∧
    (Atomic s items (clListInsertArrayHead s array itemCount itemSize supplies)
        (arrayObjects array itemCount itemSize ++ items.map s.object) ↔
      (itemSize.toNat * (itemCount.toNat - 1) < 4294967296 ∨
        supplied supplies itemCount.toNat s.pool = false)) :=
  ⟨atomic_tail h array itemCount itemSize supplies, atomic_head_iff h array itemCount itemSize supplies⟩

end

/-- A list with three objects in its pool. -/
def sampleList : ClList := ((clListInit true ⟨true, fun _ => .fail⟩ 3).getD (.user, ⟨.start, ⟨fun _ => .null, 0⟩,
  fun _ => 0⟩)).2

theorem sampleList_init : clListInit true ⟨true, fun _ => .fail⟩ 3 = some (.success, sampleList) := by
  have hstatus : (clListInit true ⟨true, fun _ => .fail⟩ 3).map Prod.fst = some .success := by decide +kernel
  obtain ⟨⟨status, s⟩, hrun, heq⟩ := Option.map_eq_some_iff.mp hstatus
  cases heq
  rw [sampleList, hrun]
  rfl

theorem sampleList_holds : Holds sampleList [] := clListInit_holds sampleList_init

/-- No memory. -/
def noSupply : Supply := ⟨false, fun _ => .fail⟩

/-- The list with one object, and two more in its pool. -/
def filledList : ClList := ((clListInsertTail sampleList noSupply 4096).getD (.user, sampleList)).2

theorem filledList_holds : ∃ a, Holds filledList [a] ∧ filledList.object a = 4096 := by
  rcases sampleList_holds.insertBy inserts_tail noSupply 4096 with
    ⟨a, s', hcall, -, hholds, -, hobject⟩ | ⟨s', hcall, -⟩
  · have hcode : clListInsertTail sampleList noSupply 4096 = some (.success, s') := hcall
    refine ⟨a, ?_, ?_⟩ <;> rw [filledList, hcode]
    · exact hholds
    · change s'.object a = 4096
      rw [hobject, Function.update_self]
  · have hstatus : (clListInsertTail sampleList noSupply 4096).map Prod.fst = some .success := by decide +kernel
    rw [clListInsertTail, hcall] at hstatus
    cases hstatus

/-- **Three objects into a list with one**: the pool gives out at the third, and no memory is left. -/
theorem insert_array_atomic_rollback :
    ∃ a, filledList.object a = 4096 ∧
      supplied (fun _ => noSupply) 2 filledList.pool = true ∧
      supplied (fun _ => noSupply) (3 : UInt32).toNat filledList.pool = false ∧
      Atomic filledList [a] (clListInsertArrayTail filledList 8192 3 8 fun _ => noSupply)
        ([a].map filledList.object ++ arrayObjects 8192 3 8) ∧
      (Atomic filledList [a] (clListInsertArrayHead filledList 8192 3 8 fun _ => noSupply)
          (arrayObjects 8192 3 8 ++ [a].map filledList.object) ↔
        ((8 : UInt32).toNat * ((3 : UInt32).toNat - 1) < 4294967296 ∨
          supplied (fun _ => noSupply) (3 : UInt32).toNat filledList.pool = false)) := by
  obtain ⟨a, hholds, hobject⟩ := filledList_holds
  exact ⟨a, hobject, by decide +kernel, by decide +kernel,
    insert_array_atomic filledList [a] hholds 8192 3 8 fun _ => noSupply⟩

/-- **An array of 6 GiB** does not go in at the head in its order. -/
theorem large_array_head :
    ¬∀ (s : ClList) (items : List Addr), Holds s items → ∀ (array : UInt64) (itemCount itemSize : UInt32),
      1 ≤ itemCount → ∀ supplies : UInt32 → Supply,
        Atomic s items (clListInsertArrayHead s array itemCount itemSize supplies)
          (arrayObjects array itemCount itemSize ++ items.map s.object) := by
  intro h
  have hatomic := h sampleList [] sampleList_holds 4294967296 3 2147483648 (by decide) fun _ => ⟨true, fun _ => .fail⟩
  rcases (atomic_head_iff sampleList_holds _ _ _ _).mp hatomic with hfits | hpool
  · exact absurd hfits (by decide)
  · exact absurd hpool (by decide +kernel)

end MlnxLib.ClLists
