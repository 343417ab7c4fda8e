import MlnxLib.Lib.OrdMap
import MlnxLib.Complib.QPool

/-!
# Maps

Model of `cl_map_t` of `cl_map.c`: a quick map whose items come from a pool of its own, each with a pointer to an
object.

* `ClMap` — `cl_map_t`, with the pointer in each of its items.
* `clMapInsert`, `clMapGet`, `clMapRemoveItem` — the calls; an item is taken from the pool first, and put back if
  the key is there.
* `Stored s n` — the items of the map are those that its pool has handed out, with objects, and `n` items are
  free.
* `Inserted` — the three ends of an insertion.

The quick map is seen through its interface; keys are of any linear order.

Principal results: `clMapInsert_spec`, `clMapRemoveItem_spec` — what a call leaves, and how many free items.
-/

set_option autoImplicit false

namespace MlnxLib.ClMaps

open QcPool

/-! ## Maps with a pool -/

/-- `cl_map_t`, and `p_object` of its items; `none` is `NULL`. -/
structure ClMap (κ O : Type) [LinearOrder κ] where
  qmap : OrdMap κ Addr
  pool : PoolSystem
  object : Addr → Option O

def MAP_GROW_SIZE : UInt32 := 32

/-- `sizeof(cl_map_obj_t)`. -/
def MAP_OBJ_SIZE : UInt64 := 64

/-- The `grow_size` of `cl_map_init`. -/
def mapGrowSize (minItems : UInt32) : UInt32 :=
  if minItems >>> 3 < MAP_GROW_SIZE then MAP_GROW_SIZE else minItems >>> 3

section

variable {κ O : Type} [LinearOrder κ]

/-- `cl_map_init` of a map in new memory. -/
def clMapInit (malloc : Bool) (supply : Supply) (minItems : UInt32) : Option (ClStatus × ClMap κ O) :=
  (clQpoolInit malloc supply minItems.toUInt64 0 (mapGrowSize minItems).toUInt64 MAP_OBJ_SIZE).map fun r =>
    (r.1, ⟨.empty, r.2, fun _ => none⟩)

/-- `cl_qmap_insert`: the item with the key after it, and the map. -/
def clQmapInsert (qmap : OrdMap κ Addr) (key : κ) (item : Addr) : Addr × OrdMap κ Addr :=
  match qmap.get key with
  | some there => (there, qmap)
  | none => (item, qmap.insert key item)

/-- `cl_map_insert`. -/
def clMapInsert (s : ClMap κ O) (supply : Supply) (key : κ) (object : Option O) :
    Option (Option O × ClMap κ O) :=
  (clQpoolGet s.pool supply).bind fun r =>
    match r.1 with
    | none => some (none, { s with pool := r.2 })
    | some item =>
      let objects := Function.update s.object item object
      let atKey := clQmapInsert s.qmap key item
      if atKey.1 ≠ item then
        (clQpoolPut r.2 item).map fun pool => (objects atKey.1, ⟨atKey.2, pool, objects⟩)
      else some (objects atKey.1, ⟨atKey.2, r.2, objects⟩)

/-- `cl_map_get`. -/
def clMapGet (s : ClMap κ O) (key : κ) : Option O := (s.qmap.get key).bind s.object

/-- `cl_map_remove_item`; `none` is the end of the map. -/
def clMapRemoveItem (s : ClMap κ O) : Option Addr → Option (ClMap κ O)
  | none => some s
  | some item => (clQpoolPut s.pool item).map fun pool =>
    { s with qmap := s.qmap.removeItem item, pool := pool }

/-- Whether the pool has an item for an insertion, and the pool after it: the item of a key that is there is put
back. -/
def itemFor (there : Bool) (pool : PoolSystem) (supply : Supply) : Option PoolSystem :=
  match clQpoolGet pool supply with
  | some (some item, pool) => if there then clQpoolPut pool item else some pool
  | _ => none

/-! ## What is stored -/

/-- **The items of a map** are those that its pool has handed out, each with an object; `n` items are free. -/
structure Stored (s : ClMap κ O) (n : Nat) : Prop where
  stock : Stock MAP_OBJ_SIZE s.pool s.qmap.values n
  objects : ∀ item ∈ s.qmap.values, s.object item ≠ none

/-- The keys, in their order. -/
def ClMap.keys (s : ClMap κ O) : List κ := s.qmap.entries.map (·.1)

variable {s : ClMap κ O} {n : Nat} {k key : κ} {item : Addr}

theorem Stored.nodup (h : Stored s n) : s.qmap.values.Nodup := h.stock.nodup

theorem Stored.get_eq_none (h : Stored s n) : clMapGet s k = none ↔ s.qmap.get k = none := by
  unfold clMapGet
  cases hg : s.qmap.get k with
  | none => simp
  | some item => simpa using h.objects item (OrdMap.get_mem_values hg)

theorem Stored.mem_keys (h : Stored s n) : k ∈ s.keys ↔ clMapGet s k ≠ none := by
  unfold ClMap.keys
  rw [ne_eq, h.get_eq_none, OrdMap.get_eq_none_iff, List.mem_map]
  constructor
  · rintro ⟨⟨k, item⟩, hmem, rfl⟩ hnone
    exact hnone item hmem
  · intro hex
    push Not at hex
    obtain ⟨item, hmem⟩ := hex
    exact ⟨(k, item), hmem, rfl⟩

/-- The map after an item has been added to it. -/
theorem get_added {s' : ClMap κ O} {object : Option O} (habsent : s.qmap.get key = none)
    (hitem : item ∉ s.qmap.values) (hqmap : s'.qmap = s.qmap.insert key item)
    (hobject : s'.object = Function.update s.object item object) (k : κ) :
    clMapGet s' k = if k = key then object else clMapGet s k := by
  unfold clMapGet
  rw [hqmap, OrdMap.get_insert item habsent, hobject]
  split
  · rw [Option.bind_some, Function.update_self]
  · cases hg : s.qmap.get k with
    | none => rfl
    | some there =>
      have hne : there ≠ item := fun he => hitem (he ▸ OrdMap.get_mem_values hg)
      rw [Option.bind_some, Option.bind_some, Function.update_of_ne hne]

/-- A map whose items and objects are the same. -/
theorem get_kept {s' : ClMap κ O} {object : Option O} (hitem : item ∉ s.qmap.values) (hqmap : s'.qmap = s.qmap)
    (hobject : s'.object = Function.update s.object item object) (k : κ) : clMapGet s' k = clMapGet s k := by
  unfold clMapGet
  rw [hqmap, hobject]
  cases hg : s.qmap.get k with
  | none => rfl
  | some there =>
    have hne : there ≠ item := fun he => hitem (he ▸ OrdMap.get_mem_values hg)
    rw [Option.bind_some, Option.bind_some, Function.update_of_ne hne]

/-! ## Calls -/

/-- **The ends of an insertion**: the object is added, or its key is there, or the pool has no item. -/
inductive Inserted (s : ClMap κ O) (n : Nat) (supply : Supply) (key : κ) (object : O) : Option O × ClMap κ O → Prop
  | added (item : Addr) (n' : Nat) (s' : ClMap κ O) (habsent : clMapGet s key = none)
      (hpool : itemFor false s.pool supply = some s'.pool) (hstored : Stored s' n')
      (hqmap : s'.qmap = s.qmap.insert key item)
      (hget : ∀ k, clMapGet s' k = if k = key then some object else clMapGet s k)
      (hfree : 0 < n → n ≤ n' + 1 ∧ s'.pool.blocks = s.pool.blocks) :
      Inserted s n supply key object (some object, s')
  | there (found : O) (n' : Nat) (s' : ClMap κ O) (hfound : clMapGet s key = some found)
      (hpool : itemFor true s.pool supply = some s'.pool) (hstored : Stored s' n')
      (hqmap : s'.qmap = s.qmap) (hget : ∀ k, clMapGet s' k = clMapGet s k)
      (hfree : 0 < n → n ≤ n' + 1 ∧ s'.pool.blocks = s.pool.blocks) :
      Inserted s n supply key object (some found, s')
  | noItem (n' : Nat) (s' : ClMap κ O) (hpool : ∀ there, itemFor there s.pool supply = none)
      (hstored : Stored s' n') (hqmap : s'.qmap = s.qmap) (hget : ∀ k, clMapGet s' k = clMapGet s k)
      (hnone : n = 0) : Inserted s n supply key object (none, s')

theorem Inserted.stored {supply : Supply} {key : κ} {object : O} {r : Option O × ClMap κ O}
    (h : Inserted s n supply key object r) : ∃ n', Stored r.2 n' := by
  cases h with
  | added _ n' _ _ _ hstored => exact ⟨n', hstored⟩
  | there _ n' _ _ _ hstored => exact ⟨n', hstored⟩
  | noItem n' _ _ hstored => exact ⟨n', hstored⟩

/-- **`cl_map_insert`** ends in one of these ways. -/
theorem clMapInsert_spec (h : Stored s n) (supply : Supply) (key : κ) (object : O) :
    ∃ r, clMapInsert s supply key (some object) = some r ∧ Inserted s n supply key object r := by
  obtain ⟨r, pool, n₁, hget, hstock, hfresh, hfree⟩ := h.stock.get_spec supply
  unfold clMapInsert
  rw [hget, Option.bind_some]
  cases r with
  | none =>
    refine ⟨_, rfl, .noItem n₁ _ (fun there => ?_) ⟨hstock, h.objects⟩ rfl (fun k => rfl) ?_⟩
    · rw [itemFor, hget]
    · exact Nat.eq_zero_of_not_pos fun hpos => (hfree hpos).1 rfl
  | some item =>
    have hitem : item ∉ s.qmap.values := hfresh item rfl
    have hobjects : ∀ a ∈ s.qmap.values, Function.update s.object item (some object) a ≠ none := by
      intro a ha
      have hne : a ≠ item := fun he => hitem (he ▸ ha)
      rw [Function.update_of_ne hne]
      exact h.objects a ha
    dsimp only
    unfold clQmapInsert
    cases hkey : s.qmap.get key with
    | none =>
      have hvalues : (item :: s.qmap.values).Perm (s.qmap.insert key item).values :=
        (OrdMap.values_insert item hkey).symm
      dsimp only
      rw [if_neg (not_not.mpr rfl), Function.update_self]
      refine ⟨_, rfl, .added item n₁ _ (h.get_eq_none.mpr hkey) ?_ ⟨hstock.perm hvalues, fun a ha => ?_⟩ rfl
        (get_added hkey hitem rfl rfl) fun hpos => ⟨(hfree hpos).2.1.ge, (hfree hpos).2.2⟩⟩
      · rw [itemFor, hget]
        rfl
      · rcases List.mem_cons.mp (hvalues.mem_iff.mpr ha) with rfl | ha
        · dsimp only
          rw [Function.update_self]
          exact Option.some_ne_none object
        · exact hobjects a ha
    | some there =>
      have hthere := OrdMap.get_mem_values hkey
      have hne : there ≠ item := fun he => hitem (he ▸ hthere)
      obtain ⟨found, hfound⟩ := Option.ne_none_iff_exists'.mp (h.objects there hthere)
      obtain ⟨pool', hput, hstock', hblocks⟩ := hstock.put (.refl (item :: s.qmap.values))
      dsimp only
      rw [if_pos hne, hput, Option.map_some, Function.update_of_ne hne, hfound]
      refine ⟨_, rfl, .there found (n₁ + 1) _ ?_ ?_ ⟨hstock', hobjects⟩ rfl (get_kept hitem rfl rfl) fun hpos =>
        ⟨?_, hblocks.trans (hfree hpos).2.2⟩⟩
      · rw [clMapGet, hkey, Option.bind_some, hfound]
      · rw [itemFor, hget]
        exact hput
      · have hcount := (hfree hpos).2.1
        omega

/-- **`cl_map_remove_item`** makes the item a free one. -/
theorem clMapRemoveItem_spec (h : Stored s n) {as bs : List (κ × Addr)}
    (hentries : s.qmap.entries = as ++ (key, item) :: bs) :
    ∃ s', clMapRemoveItem s (some item) = some s' ∧ Stored s' (n + 1) ∧ s'.qmap.entries = as ++ bs ∧
      (∀ k, clMapGet s' k = if k = key then none else clMapGet s k) ∧ s'.pool.blocks = s.pool.blocks := by
  have hmem : (key, item) ∈ s.qmap.entries := by
    rw [hentries]
    exact List.mem_append_right _ (List.mem_cons_self ..)
  have hremoved := OrdMap.entries_removeItem_split h.nodup hentries
  have hvalues : s.qmap.values.Perm (item :: (s.qmap.removeItem item).values) := by
    unfold OrdMap.values
    rw [hentries, hremoved, List.map_append, List.map_append]
    exact List.perm_middle
  obtain ⟨pool, hput, hstock, hblocks⟩ := h.stock.put hvalues
  refine ⟨{ s with qmap := s.qmap.removeItem item, pool := pool }, ?_, ⟨hstock, fun a ha => ?_⟩, hremoved,
    fun k => ?_, hblocks⟩
  · rw [clMapRemoveItem, hput, Option.map_some]
  · exact h.objects a (hvalues.mem_iff.mpr (List.mem_cons_of_mem _ ha))
  · have hget := OrdMap.mem_entries_iff.mp hmem
    unfold clMapGet
    rw [OrdMap.get_removeItem]
    by_cases hk : k = key
    · subst hk
      rw [if_pos hget, if_pos rfl, Option.bind_none]
    · have hother : s.qmap.get k ≠ some item := fun he => hk (OrdMap.key_unique h.nodup he hget)
      rw [if_neg hother, if_neg hk]

theorem Stored.get_entry (h : Stored s n) {as bs : List (κ × Addr)}
    (hentries : s.qmap.entries = as ++ (key, item) :: bs) :
    s.qmap.keyOf item = some key ∧ s.qmap.next item = bs.head?.map (·.2) ∧ s.object item = clMapGet s key ∧
      clMapGet s key ≠ none := by
  have hmem : (key, item) ∈ s.qmap.entries := by
    rw [hentries]
    exact List.mem_append_right _ (List.mem_cons_self ..)
  have hget := OrdMap.mem_entries_iff.mp hmem
  have hvalues : s.qmap.values = as.map (·.2) ++ item :: bs.map (·.2) := by
    unfold OrdMap.values
    rw [hentries, List.map_append, List.map_cons]
  have hobject : s.object item = clMapGet s key := by
    rw [clMapGet, hget, Option.bind_some]
  refine ⟨OrdMap.keyOf_eq h.nodup hmem, ?_, hobject, ?_⟩
  · rw [OrdMap.next_of_split h.nodup hvalues, List.head?_map]
  · rw [← hobject]
    exact h.objects item (OrdMap.get_mem_values hget)

/-- **A pair that was removed goes back**: the pool has the item that it had. -/
theorem clMapInsert_back (h : Stored s n) {as bs : List (κ × Addr)}
    (hentries : s.qmap.entries = as ++ (key, item) :: bs) {object : O} (hobject : clMapGet s key = some object)
    {s' : ClMap κ O} (hremove : clMapRemoveItem s (some item) = some s') (supply : Supply) :
    ∃ item' n' s'', clMapInsert s' supply key (some object) = some (some object, s'') ∧ Stored s'' n' ∧ n ≤ n' ∧
      s''.qmap.entries = as ++ (key, item') :: bs ∧ (∀ k, clMapGet s'' k = clMapGet s k) ∧
      s''.pool.blocks = s.pool.blocks := by
  obtain ⟨s₁, hremove₁, hstored, hentries', hget, hblocks⟩ := clMapRemoveItem_spec h hentries
  cases hremove₁.symm.trans hremove
  have hsorted := s.qmap.sorted
  rw [hentries, List.pairwise_append, List.pairwise_cons] at hsorted
  obtain ⟨-, ⟨hbehind, -⟩, hbefore⟩ := hsorted
  have habsent : clMapGet s' key = none := by rw [hget, if_pos rfl]
  obtain ⟨r, hinsert, hend⟩ := clMapInsert_spec hstored supply key object
  cases hend with
  | added item' n' s'' _ _ hstored' hqmap hget' hfree =>
    obtain ⟨hcount, hblocks'⟩ := hfree (Nat.succ_pos n)
    refine ⟨item', n', s'', hinsert, hstored', Nat.le_of_succ_le_succ hcount, ?_, fun k => ?_,
      hblocks'.trans hblocks⟩
    · rw [hqmap]
      exact OrdMap.entries_insert_split item' hentries'
        (fun p hp => hbefore p hp _ (List.mem_cons_self ..)) hbehind
    · rw [hget', hget]
      split
      · rename_i hk
        rw [hk, hobject]
      · rfl
  | there _ _ _ hfound =>
    rw [habsent] at hfound
    cases hfound
  | noItem _ _ _ _ _ _ hnone => cases hnone

/-- **A map that is initialized** is empty. -/
theorem clMapInit_stored {malloc : Bool} {supply : Supply} {minItems : UInt32}
    (hrun : clMapInit malloc supply minItems = some (.success, s)) :
    s.qmap.entries = [] ∧ ∃ n, Stored s n := by
  unfold clMapInit at hrun
  obtain ⟨⟨status, pool⟩, hpool, heq⟩ := Option.map_eq_some_iff.mp hrun
  cases heq
  have hgrow : (mapGrowSize minItems).toUInt64.toNat < 4294967296 := by
    rw [UInt32.toNat_toUInt64]
    exact (mapGrowSize minItems).toNat_lt
  obtain ⟨n, hstock⟩ := Stock.init hpool hgrow (by decide)
  exact ⟨rfl, n, hstock, nofun⟩

end

end MlnxLib.ClMaps
