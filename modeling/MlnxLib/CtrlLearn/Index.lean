import MlnxLib.Lib.RingFamily
import MlnxLib.CtrlLearn.UcDb

/-!
# The index behind the filter lists

The filter lists are an index: a location — a vid, or a filter key — has the sequence of list
items linked there.  `Represents s L` relates the pointers, heads, counts and the head pool of a
state to that index, and the functions of the filter module act on it by `Index.insert` and
`Index.remove`.  Nothing here looks at the content of the records.

Principal results: `link_spec`, `link_full`, `delink_spec`, `delink_unlinked` —
`link_entry_to_fltr_list` and `delink_entry_from_fltr_list` refine insertion and removal, with
what each takes from the head pool or gives back to it; `represents_vlanListInsertTail`,
`represents_delinkVidEntry` — the same for the vlan lists.
-/

set_option autoImplicit false

namespace MlnxLib.CtrlLearn

/-! ## The abstract index -/

/-- Where a list item can be linked: the list of a vid, or the list of a filter key. -/
inductive Loc where
  | vlan (vid : Nat)
  | key (mapKey : Nat)
  deriving DecidableEq, Repr

abbrev Index := Loc → List Node

namespace Index

def insert (L : Index) (l : Loc) (x : Node) : Index := Function.update L l (L l ++ [x])

def remove (L : Index) (l : Loc) (x : Node) : Index := Function.update L l ((L l).erase x)

theorem mem_insert {L : Index} {l l' : Loc} {x y : Node} :
    y ∈ L.insert l x l' ↔ y ∈ L l' ∨ (l' = l ∧ y = x) := by
  unfold insert
  by_cases hl : l' = l
  · subst hl; simp
  · simp [hl]

theorem insert_self (L : Index) (l : Loc) (x : Node) : L.insert l x l = L l ++ [x] := by
  simp [insert]

theorem insert_of_ne (L : Index) {l l' : Loc} (x : Node) (h : l' ≠ l) : L.insert l x l' = L l' := by
  simp [insert, h]

theorem remove_self (L : Index) (l : Loc) (x : Node) : L.remove l x l = (L l).erase x := by
  simp [remove]

theorem remove_of_ne (L : Index) {l l' : Loc} (x : Node) (h : l' ≠ l) : L.remove l x l' = L l' := by
  simp [remove, h]

/-- The other items stay linked where they are. -/
theorem mem_remove_of_ne {L : Index} {l l' : Loc} {x y : Node} (hne : y ≠ x) :
    y ∈ L.remove l x l' ↔ y ∈ L l' := by
  by_cases hl : l' = l
  · subst hl
    rw [remove_self]
    exact List.mem_erase_of_ne hne
  · rw [remove_of_ne _ _ hl]

end Index

/-! ## Representation -/

def Node.IsItem : Node → Prop
  | .entry _ _ => True
  | _ => False

/-- The end item of every list that exists, given the heads of `fbd_filter_map`. -/
def listEnds (heads : QMap) : Loc → Option Node
  | .vlan v => if v < MAX_VLAN_ENTRIES then some (.vlanEnd v) else none
  | .key k => (heads.get k).map .fltrEnd

/-- The filter part of the state represents an index. -/
structure Represents (s : Fdb) (L : Index) : Prop where
  ready : s.filtersInitiated = true
  family : Ring.Family Node.IsItem s.links (listEnds s.fbdFilterMap) L
  heads : ∀ {k j}, s.fbdFilterMap.get k = some j → L (.key k) ≠ []
  count : ∀ v, v < MAX_VLAN_ENTRIES → s.vlanCount v = (L (.vlan v)).length
  pool : Conserves s.fdbFltrPool s.fbdFilterMap MAX_FILTER_ENTRIES

/-- A key whose list still has an item in `L'` keeps its head. -/
def HeadsKept (s s' : Fdb) (L' : Index) : Prop :=
  ∀ k, L' (.key k) ≠ [] → s'.fbdFilterMap.get k = s.fbdFilterMap.get k

/-- The parts of the state the filter functions leave alone. -/
structure SameDb (s s' : Fdb) : Prop where
  fdbInitiated : s'.fdbInitiated = s.fdbInitiated
  mainDbPool : s'.mainDbPool = s.mainDbPool
  fdbMap : s'.fdbMap = s.fdbMap
  records : s'.records = s.records

theorem SameDb.rfl {s : Fdb} : SameDb s s := ⟨Eq.refl _, Eq.refl _, Eq.refl _, Eq.refl _⟩

theorem SameDb.trans {s s' s'' : Fdb} (h : SameDb s s') (h' : SameDb s' s'') : SameDb s s'' :=
  ⟨h'.fdbInitiated.trans h.fdbInitiated, h'.mainDbPool.trans h.mainDbPool,
    h'.fdbMap.trans h.fdbMap, h'.records.trans h.records⟩

namespace Represents

variable {s : Fdb} {L : Index}

/-- The representation does not depend on the records. -/
theorem congr {s' : Fdb} (hr : Represents s L) (h₁ : s'.filtersInitiated = s.filtersInitiated)
    (h₂ : s'.links = s.links) (h₃ : s'.fbdFilterMap = s.fbdFilterMap)
    (h₄ : s'.fdbFltrPool = s.fdbFltrPool) (h₅ : s'.vlanCount = s.vlanCount) : Represents s' L := by
  refine ⟨h₁.trans hr.ready, ?_, ?_, ?_, ?_⟩
  · rw [h₂, h₃]; exact hr.family
  · rw [h₃]; exact hr.heads
  · rw [h₅]; exact hr.count
  · rw [h₃, h₄]; exact hr.pool

/-- **A key has a head exactly when its list has an item.** -/
theorem get_isSome_iff (hr : Represents s L) {k : Nat} :
    (s.fbdFilterMap.get k).isSome ↔ L (.key k) ≠ [] := by
  constructor
  · intro h
    obtain ⟨j, hj⟩ := Option.isSome_iff_exists.mp h
    exact hr.heads hj
  · intro h
    cases hg : s.fbdFilterMap.get k with
    | some j => rfl
    | none => exact absurd (hr.family.closed (by simp [listEnds, hg])) h

theorem get_none_iff (hr : Represents s L) {k : Nat} :
    s.fbdFilterMap.get k = none ↔ L (.key k) = [] := by
  rw [← Option.not_isSome_iff_eq_none, hr.get_isSome_iff, not_not]

theorem mem_remove (hr : Represents s L) {l l' : Loc} {x y : Node} (hx : x ∈ L l) :
    y ∈ L.remove l x l' ↔ y ∈ L l' ∧ y ≠ x := by
  have hnd := hr.family.nodup l
  by_cases hl : l' = l
  · subst hl
    rw [Index.remove_self, hnd.mem_erase_iff, and_comm]
  · rw [Index.remove_of_ne _ _ hl]
    refine ⟨fun hy => ⟨hy, fun hyx => hl (hr.family.disj (hyx ▸ hy) hx)⟩, And.left⟩

/-- The links of an item that is linked nowhere are null. -/
theorem links_unlinked (hr : Represents s L) {f : FltrField} {i : Nat}
    (hx : ∀ l, .entry f i ∉ L l) : s.links (.entry f i) = Ring.Link.null :=
  hr.family.free trivial hx

end Represents

/-! ## The heads of the filter map -/

theorem listEnds_insert {heads : QMap} {k : Nat} (i : Nat) (hk : heads.get k = none) :
    listEnds (heads.insert k i) =
      Function.update (listEnds heads) (.key k) (some (.fltrEnd i)) := by
  funext l
  cases l with
  | vlan v => simp [listEnds]
  | key k' =>
    by_cases hkk : k' = k
    · simp [listEnds, OrdMap.get_insert i hk, hkk]
    · simp [listEnds, OrdMap.get_insert i hk, hkk]

theorem listEnds_removeItem {heads : QMap} (hnd : heads.values.Nodup) {k i : Nat}
    (hk : heads.get k = some i) :
    listEnds (heads.removeItem i) = Function.update (listEnds heads) (.key k) none := by
  funext l
  cases l with
  | vlan v => simp [listEnds]
  | key k' =>
    by_cases hkk : k' = k
    · simp [listEnds, OrdMap.get_removeItem, hkk, hk]
    · have hne : heads.get k' ≠ some i := fun h' => hkk (OrdMap.key_unique hnd h' hk)
      simp [listEnds, OrdMap.get_removeItem, hkk, hne]

/-! ## Linking -/

/-- The number of heads a link at key `k` takes from the pool. -/
def headCost (L : Index) (k : Nat) : Nat := if L (.key k) = [] then 1 else 0

/-- The number of heads a de-link of `x` at key `k` gives back. -/
def headFreed (L : Index) (k : Nat) (x : Node) : Nat := if L (.key k) = [x] then 1 else 0

theorem link_existing {s : Fdb} {L : Index} (hr : Represents s L) {f : FltrField} {i k j : Nat}
    (hfree : ∀ l, .entry f i ∉ L l) (hg : s.fbdFilterMap.get k = some j) :
    (linkEntryToFltrList s i k f).1 = 0 ∧
    Represents (linkEntryToFltrList s i k f).2 (L.insert (.key k) (.entry f i)) ∧
    SameDb s (linkEntryToFltrList s i k f).2 ∧
    (linkEntryToFltrList s i k f).2.fdbFltrPool = s.fdbFltrPool := by
  unfold linkEntryToFltrList
  rw [if_neg (by simp [hr.ready])]
  simp only [hg]
  refine ⟨trivial, ?_, ⟨rfl, rfl, rfl, rfl⟩, trivial⟩
  refine ⟨hr.ready, hr.family.append (by simp [listEnds, hg]) trivial hfree, ?_, ?_, hr.pool⟩
  · intro k' j' hk'
    by_cases hkk : (Loc.key k') = .key k
    · rw [hkk, Index.insert_self]; simp
    · rw [Index.insert_of_ne _ _ hkk]; exact hr.heads hk'
  · intro v hv
    rw [Index.insert_of_ne _ _ (by simp)]
    exact hr.count v hv

theorem link_new {s : Fdb} {L : Index} (hr : Represents s L) {f : FltrField} {i k j : Nat}
    {pool : Pool} (hfree : ∀ l, .entry f i ∉ L l) (hg : s.fbdFilterMap.get k = none)
    (hp : clPoolGet s.fdbFltrPool = some (j, pool)) :
    (linkEntryToFltrList s i k f).1 = 0 ∧
    Represents (linkEntryToFltrList s i k f).2 (L.insert (.key k) (.entry f i)) ∧
    SameDb s (linkEntryToFltrList s i k f).2 ∧
    (linkEntryToFltrList s i k f).2.fdbFltrPool = pool := by
  have hfresh : j ∉ s.fbdFilterMap.values := hr.pool.fresh hp
  -- the new head is a sentinel of no other list
  have hnoend : ∀ l', listEnds s.fbdFilterMap l' ≠ some (.fltrEnd j) := by
    intro l' hl'
    cases l' with
    | vlan v => simp [listEnds] at hl'
    | key k' =>
      simp only [listEnds, Option.map_eq_some_iff, Node.fltrEnd.injEq, exists_eq_right] at hl'
      exact hfresh (OrdMap.get_mem_values hl')
  have hclear : clQlistInit (Ring.clear s.links (.fltrEnd j)) (.fltrEnd j) =
      Ring.reset s.links (.fltrEnd j) := by
    simp [clQlistInit, Ring.reset, Ring.clear, Function.update_idem]
  have hopen := hr.family.openEnd (l := .key k) (e := .fltrEnd j) (by simp [listEnds, hg])
    (fun h => h) hnoend
  have happ := hopen.append (l := .key k) (e := .fltrEnd j) (x := .entry f i)
    (Function.update_self ..) trivial hfree
  unfold linkEntryToFltrList
  rw [if_neg (by simp [hr.ready])]
  simp only [hg, hp]
  refine ⟨trivial, ⟨hr.ready, ?_, ?_, ?_, hr.pool.get hp hg⟩, ⟨rfl, rfl, rfl, rfl⟩, trivial⟩
  · simp only [hclear, listEnds_insert j hg]
    exact happ
  · intro k' j' hk'
    simp only [OrdMap.get_insert j hg] at hk'
    by_cases hkk : k' = k
    · rw [hkk, Index.insert_self]; simp
    · rw [if_neg hkk] at hk'
      rw [Index.insert_of_ne _ _ (by simp [hkk])]
      exact hr.heads hk'
  · intro v hv
    rw [Index.insert_of_ne _ _ (by simp)]
    exact hr.count v hv

/-- **`link_entry_to_fltr_list` refines insertion** when the head it needs is there or free. -/
theorem link_spec {s : Fdb} {L : Index} (hr : Represents s L) {f : FltrField} {i k : Nat}
    (hfree : ∀ l, .entry f i ∉ L l) (hcost : headCost L k ≤ clPoolCount s.fdbFltrPool) :
    (linkEntryToFltrList s i k f).1 = 0 ∧
    Represents (linkEntryToFltrList s i k f).2 (L.insert (.key k) (.entry f i)) ∧
    SameDb s (linkEntryToFltrList s i k f).2 ∧
    clPoolCount (linkEntryToFltrList s i k f).2.fdbFltrPool + headCost L k =
      clPoolCount s.fdbFltrPool := by
  unfold headCost at hcost ⊢
  cases hg : s.fbdFilterMap.get k with
  | some j =>
    obtain ⟨herr, hrep, hdb, hpool⟩ := link_existing hr hfree hg
    exact ⟨herr, hrep, hdb, by rw [hpool, if_neg (hr.heads hg), Nat.add_zero]⟩
  | none =>
    rw [if_pos (hr.get_none_iff.mp hg)] at hcost ⊢
    cases hp : clPoolGet s.fdbFltrPool with
    | none =>
      have := clPoolGet_none_iff.mp hp
      omega
    | some r =>
      obtain ⟨herr, hrep, hdb, hpool⟩ := link_new hr hfree hg hp
      exact ⟨herr, hrep, hdb, by rw [hpool]; exact clPoolGet_count hp⟩

/-- Without a head for it, a link fails and changes nothing. -/
theorem link_full {s : Fdb} {L : Index} (hr : Represents s L) (f : FltrField) (i : Nat) {k : Nat}
    (hcost : clPoolCount s.fdbFltrPool < headCost L k) :
    linkEntryToFltrList s i k f = (ENOMEM, s) := by
  unfold headCost at hcost
  split at hcost
  · rename_i hnil
    have hp := clPoolGet_none_iff.mpr (show clPoolCount s.fdbFltrPool = 0 by omega)
    unfold linkEntryToFltrList
    simp [hr.ready, hr.get_none_iff.mpr hnil, hp]
  · omega

/-! ## De-linking -/

/-- An item that is linked nowhere cannot be de-linked. -/
theorem delink_unlinked {s : Fdb} {L : Index} (hr : Represents s L) {f : FltrField} {i : Nat}
    (k : Nat) (hfree : ∀ l, .entry f i ∉ L l) :
    delinkEntryFromFltrList s i k f = (-EPERM, s) := by
  unfold delinkEntryFromFltrList
  simp [hr.ready, hr.links_unlinked hfree, Ring.Link.null]

/-- **`delink_entry_from_fltr_list` refines removal** when it is called with the key of the list
the item is in: the head goes with the last item. -/
theorem delink_spec {s : Fdb} {L : Index} (hr : Represents s L) {f : FltrField} {i k : Nat}
    (hmem : .entry f i ∈ L (.key k)) :
    (delinkEntryFromFltrList s i k f).1 = 0 ∧
    Represents (delinkEntryFromFltrList s i k f).2 (L.remove (.key k) (.entry f i)) ∧
    SameDb s (delinkEntryFromFltrList s i k f).2 ∧
    clPoolCount (delinkEntryFromFltrList s i k f).2.fdbFltrPool =
      clPoolCount s.fdbFltrPool + headFreed L k (.entry f i) ∧
    HeadsKept s (delinkEntryFromFltrList s i k f).2 (L.remove (.key k) (.entry f i)) := by
  unfold headFreed HeadsKept
  obtain ⟨n, p, hn, hp⟩ := hr.family.links_of_mem hmem
  have halone := hr.family.alone_iff hmem
  rw [hn, hp] at halone
  have hrem := hr.family.remove hmem
  have hcount : ∀ v, v < MAX_VLAN_ENTRIES →
      s.vlanCount v = (L.remove (.key k) (.entry f i) (.vlan v)).length := by
    intro v hv
    rw [Index.remove_of_ne _ _ (by simp)]
    exact hr.count v hv
  unfold delinkEntryFromFltrList
  rw [if_neg (by simp [hr.ready])]
  simp only [hn, hp, halone, Option.isSome_some, Bool.and_self, if_true, Bool.true_and,
    decide_eq_true_eq]
  by_cases hlast : L (.key k) = [.entry f i]
  · -- the last item: its head is found under the key and released
    rw [if_pos hlast, if_pos hlast]
    obtain ⟨j, hj⟩ := Option.isSome_iff_exists.mp (hr.get_isSome_iff.mpr (by rw [hlast]; simp))
    have hnil : L.remove (.key k) (.entry f i) (.key k) = [] := by
      rw [Index.remove_self, hlast, List.erase_cons_head]
    simp only [hj]
    refine ⟨trivial, ⟨hr.ready, ?_, ?_, hcount, hr.pool.put (OrdMap.get_mem_values hj)⟩,
      ⟨rfl, rfl, rfl, rfl⟩, clPoolPut_count .., ?_⟩
    · simp only [listEnds_removeItem hr.pool.values_nodup hj]
      exact hrem.closeEnd hnil
    · intro k' j' hk'
      simp only [OrdMap.get_removeItem] at hk'
      have hkk : k' ≠ k := by
        rintro rfl
        rw [if_pos hj] at hk'
        cases hk'
      rw [Index.remove_of_ne _ _ (by simp [hkk])]
      split at hk'
      · cases hk'
      · exact hr.heads hk'
    · intro k' hk'
      have hkk : s.fbdFilterMap.get k' ≠ some j := by
        intro hj'
        rw [OrdMap.key_unique hr.pool.values_nodup hj' hj] at hk'
        exact hk' hnil
      rw [OrdMap.get_removeItem, if_neg hkk]
  · rw [if_neg hlast, if_neg hlast]
    refine ⟨rfl, ⟨hr.ready, hrem, ?_, hcount, hr.pool⟩, ⟨rfl, rfl, rfl, rfl⟩, rfl, fun _ _ => rfl⟩
    intro k' j' hk'
    by_cases hkk : (Loc.key k') = .key k
    · rw [hkk, Index.remove_self]
      intro hnil
      have hperm := List.perm_cons_erase hmem
      rw [hnil] at hperm
      exact hlast (List.perm_singleton.mp hperm)
    · rw [Index.remove_of_ne _ _ hkk]
      exact hr.heads hk'

/-! ## Moving an item to another key -/

/-- The two calls that move an item between filter lists. -/
def swapEntry (s : Fdb) (macEntry oldKey newKey : Nat) (fld : FltrField) : Int × Fdb :=
  orBail (delinkEntryFromFltrList s macEntry oldKey fld) fun s =>
    linkEntryToFltrList s macEntry newKey fld

def Index.swap (L : Index) (k k' : Nat) (x : Node) : Index :=
  (L.remove (.key k) x).insert (.key k') x

/-- The item is linked at `k`, and with the head its de-link may give back there is one for `k'`. -/
def CanSwap (L : Index) (k k' : Nat) (x : Node) (free : Nat) : Prop :=
  x ∈ L (.key k) ∧ headCost (L.remove (.key k) x) k' ≤ free + headFreed L k x

theorem Represents.mem_swap {s : Fdb} {L : Index} (hr : Represents s L) {k k' : Nat} {x y : Node}
    {l : Loc} (hx : x ∈ L (.key k)) :
    y ∈ L.swap k k' x l ↔ (y ∈ L l ∧ y ≠ x) ∨ (l = .key k' ∧ y = x) := by
  rw [Index.swap, Index.mem_insert, hr.mem_remove hx]

/-- **A move that finds its heads.** -/
theorem swap_spec {s : Fdb} {L : Index} (hr : Represents s L) {f : FltrField} {i k k' : Nat}
    (hcan : CanSwap L k k' (.entry f i) (clPoolCount s.fdbFltrPool)) :
    (swapEntry s i k k' f).1 = 0 ∧
    Represents (swapEntry s i k k' f).2 (L.swap k k' (.entry f i)) ∧
    SameDb s (swapEntry s i k k' f).2 ∧
    clPoolCount (swapEntry s i k k' f).2.fdbFltrPool + headCost (L.remove (.key k) (.entry f i)) k' =
      clPoolCount s.fdbFltrPool + headFreed L k (.entry f i) := by
  obtain ⟨hmem, hcost⟩ := hcan
  obtain ⟨herr, hr₁, hdb₁, hcount₁, -⟩ := delink_spec hr hmem
  unfold swapEntry
  rw [orBail_ok herr]
  obtain ⟨herr₂, hr₂, hdb₂, hcount₂⟩ := link_spec hr₁ (f := f) (i := i) (k := k')
    (fun l hl => ((hr.mem_remove hmem).mp hl).2 rfl) (by omega)
  exact ⟨herr₂, hr₂, hdb₁.trans hdb₂, by omega⟩

/-- A move that finds no head leaves the item unlinked. -/
theorem swap_full {s : Fdb} {L : Index} (hr : Represents s L) {f : FltrField} {i k k' : Nat}
    (hmem : .entry f i ∈ L (.key k))
    (hcan : ¬ CanSwap L k k' (.entry f i) (clPoolCount s.fdbFltrPool)) :
    (swapEntry s i k k' f).1 = ENOMEM ∧
    Represents (swapEntry s i k k' f).2 (L.remove (.key k) (.entry f i)) ∧
    SameDb s (swapEntry s i k k' f).2 := by
  obtain ⟨herr, hr₁, hdb₁, hcount₁, -⟩ := delink_spec hr hmem
  have hcost : ¬ headCost (L.remove (.key k) (.entry f i)) k' ≤
      clPoolCount s.fdbFltrPool + headFreed L k (.entry f i) := fun hc => hcan ⟨hmem, hc⟩
  unfold swapEntry
  rw [orBail_ok herr, link_full hr₁ f i (by omega)]
  exact ⟨rfl, hr₁, hdb₁⟩

theorem swap_unlinked {s : Fdb} {L : Index} (hr : Represents s L) {f : FltrField} {i : Nat}
    (k k' : Nat) (hfree : ∀ l, .entry f i ∉ L l) : swapEntry s i k k' f = (-EPERM, s) := by
  unfold swapEntry
  rw [delink_unlinked hr k hfree, orBail_err (by simp [EPERM])]

/-! ## The vlan lists -/

theorem represents_vlanListInsertTail {s : Fdb} {L : Index} (hr : Represents s L) {v i : Nat}
    (hv : v < MAX_VLAN_ENTRIES) (hfree : ∀ l, .entry .vid i ∉ L l) :
    Represents (vlanListInsertTail s v i) (L.insert (.vlan v) (.entry .vid i)) := by
  refine ⟨hr.ready, hr.family.append (by simp [listEnds, hv]) trivial hfree, ?_, ?_, hr.pool⟩
  · intro k j hk
    rw [Index.insert_of_ne _ _ (by simp)]
    exact hr.heads hk
  · intro w hw
    unfold vlanListInsertTail
    by_cases hwv : w = v
    · subst hwv
      simp [Index.insert_self, hr.count w hw]
    · rw [Index.insert_of_ne _ _ (by simp [hwv])]
      simp [hwv, hr.count w hw]

theorem represents_vlanListRemoveItem {s : Fdb} {L : Index} (hr : Represents s L) {v i : Nat}
    (hmem : .entry .vid i ∈ L (.vlan v)) :
    Represents (vlanListRemoveItem s v i) (L.remove (.vlan v) (.entry .vid i)) := by
  refine ⟨hr.ready, hr.family.remove hmem, ?_, ?_, hr.pool⟩
  · intro k j hk
    rw [Index.remove_of_ne _ _ (by simp)]
    exact hr.heads hk
  · intro w hw
    unfold vlanListRemoveItem
    by_cases hwv : w = v
    · subst hwv
      simp [Index.remove_self, hr.count w hw, List.length_erase_of_mem hmem]
    · rw [Index.remove_of_ne _ _ (by simp [hwv])]
      simp [hwv, hr.count w hw]

theorem delinkVidEntry_unlinked {s : Fdb} {L : Index} (hr : Represents s L) {i : Nat}
    (hfree : ∀ l, .entry .vid i ∉ L l) : delinkVidEntry s i = s := by
  unfold delinkVidEntry
  simp [hr.links_unlinked hfree, Ring.Link.null]

/-- **The first step of a delete** removes the item from the list of its vid. -/
theorem delinkVidEntry_linked {s : Fdb} {L : Index} (hr : Represents s L) {i : Nat} {l : Loc}
    (hmem : .entry .vid i ∈ L l) :
    delinkVidEntry s i = vlanListRemoveItem s (s.records i).macParams.vid.toNat i := by
  obtain ⟨n, p, hn, hp⟩ := hr.family.links_of_mem hmem
  unfold delinkVidEntry
  simp [hn, hp]

end MlnxLib.CtrlLearn
