import MlnxLib.Complib.Fmap

/-!
# Flexi maps agree with quick maps

* `fmapInsBal_eq`, `fmapDelBal_eq` — the copies of the loops on the colours are the loops of the quick maps.
* `ClFmap.toQmap`, `withKeys` — the quick map of a flexi map, and the memory with the embedded keys.
* `Embeds cmp e` — a compare function that is a strict order, embedded into another one.

Principal results: `clFmapMatch_eq`, `clFmapInsert_eq`, `clFmapRemoveItem_eq`, `clFmapMerge_eq`, `clFmapDelta_eq` —
from any memory, both calls return the same item and leave the same trees, lists and counts.
-/

set_option autoImplicit false

namespace MlnxLib.Fmaps

open RedBlack Qmaps

variable {ν K κ : Type} [DecidableEq ν]

/-! ## The tree -/

section Trees

variable {map : ClFmap ν K} {h : Heap ν} {item : ν}

theorem fmapParentPtrToItem_eq : fmapParentPtrToItem h item = parentPtrToItem h item := by
  unfold fmapParentPtrToItem fmapIsLeftChild parentPtrToItem sideOf isLeftChild
  split <;> rfl

theorem clFmapRotLeft_eq : clFmapRotLeft map h item = rot .left map.nil h item := by
  unfold clFmapRotLeft rot
  rw [fmapParentPtrToItem_eq]
  rfl

theorem clFmapRotRight_eq : clFmapRotRight map h item = rot .right map.nil h item := by
  unfold clFmapRotRight rot
  rw [fmapParentPtrToItem_eq]
  rfl

theorem fmapExchange_eq {delItem : ν} : fmapExchange h item delItem = exchange h item delItem := by
  unfold fmapExchange exchange
  simp only [fmapParentPtrToItem_eq]

/-- The side that a branch of the copy is for. -/
theorem sideOf_of_left (hleft : fmapIsLeftChild h item = true) : sideOf h item = .left := by
  unfold sideOf
  exact if_pos hleft

theorem sideOf_of_not_left (hleft : ¬fmapIsLeftChild h item = true) : sideOf h item = .right := by
  unfold sideOf
  exact if_neg hleft

theorem fmapInsBal_eq : ∀ (fuel : Nat) (h : Heap ν) (item : ν),
    fmapInsBal map fuel h item = insBal map.nil fuel h item
  | 0, _, _ => rfl
  | fuel + 1, h, item => by
    rw [fmapInsBal, insBal]
    by_cases hred : h.color (h.up item) = .red
    · rw [if_pos hred, if_pos hred]
      by_cases hparent : fmapIsLeftChild h (h.up item) = true
      · rw [if_pos hparent, sideOf_of_left hparent]
        dsimp only [Side.other]
        by_cases hitem : fmapIsLeftChild h item = true
        · simp only [hitem, sideOf_of_left hitem, fmapInsBal_eq fuel, clFmapRotRight_eq, insEnd, Side.other,
            Bool.not_true, Bool.false_eq_true, if_false, ne_eq, not_true]
        · simp only [hitem, sideOf_of_not_left hitem, fmapInsBal_eq fuel, clFmapRotRight_eq, clFmapRotLeft_eq, insEnd,
            Side.other, Bool.not_false, if_true, ne_eq, reduceCtorEq, not_false_eq_true]
      · rw [if_neg hparent, sideOf_of_not_left hparent]
        dsimp only [Side.other]
        by_cases hitem : fmapIsLeftChild h item = true
        · simp only [hitem, sideOf_of_left hitem, fmapInsBal_eq fuel, clFmapRotRight_eq, clFmapRotLeft_eq, insEnd,
            Side.other, if_true, ne_eq, reduceCtorEq, not_false_eq_true]
        · simp only [hitem, sideOf_of_not_left hitem, fmapInsBal_eq fuel, clFmapRotLeft_eq, insEnd, Side.other,
            Bool.false_eq_true, if_false, ne_eq, not_true]
    · rw [if_neg hred, if_neg hred]

theorem fmapDelEndLeft_eq : fmapDelEndLeft map h item (h.child (h.up item) .right) = delEnd .left map.nil h item := by
  unfold fmapDelEndLeft delEnd
  simp only [clFmapRotLeft_eq, Side.other]

theorem fmapDelEndRight_eq : fmapDelEndRight map h item (h.child (h.up item) .left) = delEnd .right map.nil h item := by
  unfold fmapDelEndRight delEnd
  simp only [clFmapRotRight_eq, Side.other]

theorem fmapDelBal_eq : ∀ (fuel : Nat) (h : Heap ν) (item : ν),
    fmapDelBal map fuel h item = delBal map.nil map.root fuel h item
  | 0, _, _ => rfl
  | fuel + 1, h, item => by
    rw [fmapDelBal, delBal]
    by_cases hgo : h.color item ≠ .red ∧ h.up item ≠ map.root
    · rw [if_pos hgo, if_pos hgo]
      by_cases hitem : fmapIsLeftChild h item = true
      · rw [if_pos hitem, sideOf_of_left hitem]
        have hturn : (if h.color (h.child (h.up item) .right) = .red then
            let h := h.setColor (h.child (h.up item) .right) .black
            let h := h.setColor (h.up item) .red
            let h := clFmapRotLeft map h (h.up item)
            (h.child (h.up item) .right, h)
          else (h.child (h.up item) .right, h)) =
            ((delUncle .left map.nil h item).child ((delUncle .left map.nil h item).up item) .right,
              delUncle .left map.nil h item) := by
          unfold delUncle
          by_cases huncle : h.color (h.child (h.up item) .right) = .red
          · simp only [Side.other, huncle, if_true, clFmapRotLeft_eq]
          · simp only [Side.other, huncle, if_false]
        simp only [hturn, Side.other, fmapDelEndLeft_eq, clFmapRotRight_eq, fmapDelBal_eq fuel]
        rfl
      · rw [if_neg hitem, sideOf_of_not_left hitem]
        have hturn : (if h.color (h.child (h.up item) .left) = .red then
            let h := h.setColor (h.child (h.up item) .left) .black
            let h := h.setColor (h.up item) .red
            let h := clFmapRotRight map h (h.up item)
            (h.child (h.up item) .left, h)
          else (h.child (h.up item) .left, h)) =
            ((delUncle .right map.nil h item).child ((delUncle .right map.nil h item).up item) .left,
              delUncle .right map.nil h item) := by
          unfold delUncle
          by_cases huncle : h.color (h.child (h.up item) .left) = .red
          · simp only [Side.other, huncle, if_true, clFmapRotRight_eq]
          · simp only [Side.other, huncle, if_false]
        simp only [hturn, Side.other, fmapDelEndRight_eq, clFmapRotLeft_eq, fmapDelBal_eq fuel]
        rfl
    · rw [if_neg hgo, if_neg hgo]

end Trees

/-! ## Keys -/

/-- The quick map with the same items. -/
def ClFmap.toQmap (map : ClFmap ν K) : ClQmap ν := ⟨map.nil, map.root, map.ne⟩

/-- The memory of the quick maps, with embedded keys. -/
def withKeys (e : K → κ) (s : Memory ν K) : Memory ν κ := ⟨s.tree, s.links, e ∘ s.key, s.count⟩

omit [DecidableEq ν] in
@[simp] theorem withKeys_key {e : K → κ} {s : Memory ν K} {x : ν} : (withKeys e s).key x = e (s.key x) := rfl

/-- The item that a call returns, and the memory of the quick maps. -/
def embed (e : K → κ) (r : ν × Memory ν K) : ν × Memory ν κ := (r.1, withKeys e r.2)

variable [LinearOrder κ]

/-- **A compare function** that is a strict order of the keys, embedded into another order. -/
structure Embeds (cmp : K → K → Int) (e : K → κ) : Prop where
  lt : ∀ a b, cmp a b < 0 ↔ e a < e b
  eq : ∀ a b, cmp a b = 0 ↔ e a = e b

section Calls

variable {e : K → κ} {map dest src map1 map2 new old : ClFmap ν K} {s : Memory ν K} {key : K} {item : ν}

omit [DecidableEq ν] in
theorem Embeds.gt {cmp : K → K → Int} (he : Embeds cmp e) (a b : K) : cmp a b > 0 ↔ e b < e a := by
  have hlt := he.lt a b
  have heq := he.eq a b
  constructor
  · intro hpos
    refine lt_of_le_of_ne (not_lt.mp fun h => ?_) fun h => ?_
    · have hneg := hlt.mpr h
      omega
    · have hzero := heq.mpr h.symm
      omega
  · intro hgt
    have hnlt := mt hlt.mp (lt_asymm hgt)
    have hne := mt heq.mp (ne_of_gt hgt)
    omega

theorem matchLoop_eq (he : Embeds map.pfnCompare e) {pfnCompare : Option (K → K → Int)}
    (hpfn : pfnCompare.getD map.pfnCompare = map.pfnCompare) : ∀ (fuel : Nat) (item : ν),
    matchLoop s map key pfnCompare fuel item = getLoop (withKeys e s) map.toQmap (e key) fuel item
  | 0, _ => rfl
  | fuel + 1, item => by
    rw [matchLoop, getLoop, hpfn]
    by_cases hnil : item = map.nil
    · rw [if_neg (not_not.mpr hnil)]
      exact (if_pos hnil).symm
    · have hnil' : item ≠ map.toQmap.nil := hnil
      rw [if_pos hnil, if_neg hnil']
      simp only [he.eq, he.lt, withKeys_key, matchLoop_eq he hpfn fuel]
      rfl

/-- **`cl_fmap_match`** with the compare function of the map. -/
theorem clFmapMatch_eq (he : Embeds map.pfnCompare e) {pfnCompare : Option (K → K → Int)}
    (hpfn : pfnCompare.getD map.pfnCompare = map.pfnCompare) :
    clFmapMatch s map key pfnCompare = clQmapGet (withKeys e s) map.toQmap (e key) := matchLoop_eq he hpfn _ _

theorem fmapGetNextLoop_eq (he : Embeds map.pfnCompare e) : ∀ (fuel : Nat) (found item : ν),
    fmapGetNextLoop s map key fuel found item = getNextLoop (withKeys e s) map.toQmap (e key) fuel found item
  | 0, _, _ => rfl
  | fuel + 1, found, item => by
    rw [fmapGetNextLoop, getNextLoop]
    by_cases hnil : item = map.nil
    · rw [if_neg (not_not.mpr hnil)]
      exact (if_pos hnil).symm
    · have hnil' : item ≠ map.toQmap.nil := hnil
      rw [if_pos hnil, if_neg hnil']
      simp only [he.lt, withKeys_key, fmapGetNextLoop_eq he fuel]
      rfl

theorem clFmapGetNext_eq (he : Embeds map.pfnCompare e) :
    clFmapGetNext s map key = clQmapGetNext (withKeys e s) map.toQmap (e key) := fmapGetNextLoop_eq he _ _ _

/-- **The loop of the insertion**: its last comparison is with the item to insert at. -/
theorem fmapInsertLoop_eq (s : Memory ν K) (key : K) (he : Embeds map.pfnCompare e) :
    ∀ (fuel : Nat) (cmp : Int) (insertAt comp : ν),
    (insertAt ≠ map.root → cmp = map.pfnCompare key (s.key insertAt)) →
    (fmapInsertLoop s map key fuel cmp insertAt comp).map (fun place => (place.present, place.insertAt)) =
        insertLoop (withKeys e s) map.toQmap (e key) fuel insertAt comp ∧
      ∀ place ∈ fmapInsertLoop s map key fuel cmp insertAt comp, place.insertAt ≠ map.root →
        place.cmp = map.pfnCompare key (s.key place.insertAt)
  | 0, _, _, _, _ => ⟨rfl, nofun⟩
  | fuel + 1, cmp, insertAt, comp, hcmp => by
    rw [fmapInsertLoop, insertLoop, withKeys_key]
    by_cases hnil : comp = map.nil
    · rw [if_neg (not_not.mpr hnil)]
      refine ⟨(if_pos hnil).symm, fun place hplace => ?_⟩
      cases hplace
      exact hcmp
    have hnil' : comp ≠ map.toQmap.nil := hnil
    rw [if_pos hnil, if_neg hnil']
    dsimp only
    by_cases hzero : map.pfnCompare key (s.key comp) = 0
    · rw [if_pos hzero, if_pos ((he.eq _ _).mp hzero)]
      refine ⟨rfl, fun place hplace _ => ?_⟩
      cases hplace
      rfl
    rw [if_neg hzero, if_neg (mt (he.eq _ _).mpr hzero)]
    by_cases hneg : map.pfnCompare key (s.key comp) < 0
    · rw [if_pos hneg, if_pos ((he.lt _ _).mp hneg)]
      exact fmapInsertLoop_eq s key he fuel _ _ _ fun _ => rfl
    · rw [if_neg hneg, if_neg (mt (he.lt _ _).mpr hneg)]
      exact fmapInsertLoop_eq s key he fuel _ _ _ fun _ => rfl

theorem fmapInsertPlace_eq (he : Embeds map.pfnCompare e) {place : Place ν}
    (hcmp : place.insertAt ≠ map.root → place.cmp = map.pfnCompare key (s.key place.insertAt)) :
    fmapInsertPlace s map place = insertPlace (withKeys e s) map.toQmap (e key) place.insertAt := by
  unfold fmapInsertPlace insertPlace
  by_cases hroot : place.insertAt = map.root
  · rw [if_pos hroot]
    exact (if_pos hroot).symm
  · have hroot' : place.insertAt ≠ map.toQmap.root := hroot
    rw [if_neg hroot, if_neg hroot', hcmp hroot]
    simp only [he.lt, withKeys_key]
    rfl

/-- **`cl_fmap_insert`.** -/
theorem clFmapInsert_eq (he : Embeds map.pfnCompare e) :
    (clFmapInsert s map key item).map (embed e) = clQmapInsert (withKeys e s) map.toQmap (e key) item := by
  have hnew : newItem (withKeys e s) map.toQmap (e key) item = withKeys e (fmapNewItem s map key item) := by
    unfold newItem withKeys fmapNewItem
    rw [Function.comp_update]
    rfl
  unfold clFmapInsert clQmapInsert
  dsimp only
  rw [hnew]
  obtain ⟨hloop, hcmp⟩ := fmapInsertLoop_eq (fmapNewItem s map key item) key he
    ((fmapNewItem s map key item).count map.nil + 1) 0 map.root (clFmapRoot (fmapNewItem s map key item) map)
    fun h => absurd rfl h
  have hloop' : insertLoop (withKeys e (fmapNewItem s map key item)) map.toQmap (e key)
      ((withKeys e (fmapNewItem s map key item)).count map.toQmap.nil + 1) map.toQmap.root
      (clMapRoot (withKeys e (fmapNewItem s map key item)) map.toQmap) = _ := hloop.symm
  rw [hloop']
  cases hplace : fmapInsertLoop (fmapNewItem s map key item) map key
      ((fmapNewItem s map key item).count map.nil + 1) 0 map.root (clFmapRoot (fmapNewItem s map key item) map) with
  | none => rfl
  | some place =>
    rw [Option.map_some, Option.bind_some, Option.bind_some]
    dsimp only
    by_cases hpresent : place.present = true
    · rw [if_pos hpresent, if_pos hpresent]
      rfl
    · rw [if_neg hpresent, if_neg hpresent, fmapInsertPlace_eq he (hcmp place hplace)]
      cases insertPlace (withKeys e (fmapNewItem s map key item)) map.toQmap (e key) place.insertAt with
      | none => rfl
      | some slot =>
        rw [Option.bind_some, Option.bind_some, fmapInsBal_eq, Option.map_map]
        rfl

omit [LinearOrder κ] in
/-- **`cl_fmap_remove_item`**; it compares no keys. -/
theorem clFmapRemoveItem_eq (e : K → κ) (s : Memory ν K) (map : ClFmap ν K) (item : ν) :
    (clFmapRemoveItem s map item).map (withKeys e) = clQmapRemoveItem (withKeys e s) map.toQmap item := by
  unfold clFmapRemoveItem clQmapRemoveItem
  by_cases hend : item = map.nil
  · rw [if_pos hend]
    exact (if_pos hend).symm
  · have hend' : item ≠ map.toQmap.nil := hend
    rw [if_neg hend, if_neg hend']
    have hdel : fmapDelItemOf s map item = delItemOf (withKeys e s) map.toQmap item := rfl
    rw [hdel]
    cases delItemOf (withKeys e s) map.toQmap item with
    | none => rfl
    | some delItem =>
      rw [Option.bind_some, Option.bind_some, Option.map_map]
      simp only [fmapParentPtrToItem_eq, fmapDelBal_eq, fmapExchange_eq]
      rfl

/-- **`cl_fmap_remove`.** -/
theorem clFmapRemove_eq (he : Embeds map.pfnCompare e) :
    (clFmapRemove s map key).map (embed e) = clQmapRemove (withKeys e s) map.toQmap (e key) := by
  unfold clFmapRemove clQmapRemove clFmapGet
  have hget : clFmapMatch s map key (some map.pfnCompare) = _ := clFmapMatch_eq he rfl
  rw [← hget]
  cases clFmapMatch s map key (some map.pfnCompare) with
  | none => rfl
  | some item =>
    rw [Option.bind_some, Option.bind_some, ← clFmapRemoveItem_eq, Option.map_map, Option.map_map]
    rfl

/-! ## Merge and delta -/

theorem fmapMergeTurn_eq (hdest : Embeds dest.pfnCompare e) (hsrc : Embeds src.pfnCompare e) :
    (fmapMergeTurn dest src s item).map (withKeys e) = mergeTurn dest.toQmap src.toQmap (withKeys e s) item := by
  unfold fmapMergeTurn mergeTurn
  rw [← clFmapRemoveItem_eq]
  cases clFmapRemoveItem s src item with
  | none => rfl
  | some s₁ =>
    rw [Option.bind_some, Option.map_some, Option.bind_some, withKeys_key, ← clFmapInsert_eq hdest]
    cases clFmapInsert s₁ dest (s₁.key item) item with
    | none => rfl
    | some r =>
      rw [Option.bind_some, Option.map_some, Option.bind_some]
      by_cases hback : r.1 = item
      · have hback' : (embed e r).1 = item := hback
        rw [if_neg (not_not.mpr hback), if_neg (not_not.mpr hback')]
        rfl
      · have hback' : (embed e r).1 ≠ item := hback
        have hinsert : clQmapInsert (embed e r).2 src.toQmap ((embed e r).2.key item) item = _ :=
          (clFmapInsert_eq hsrc).symm
        rw [if_pos hback, if_pos hback', hinsert, Option.map_map, Option.map_map]
        rfl

theorem fmapMergeLoop_eq (hdest : Embeds dest.pfnCompare e) (hsrc : Embeds src.pfnCompare e) :
    ∀ (fuel : Nat) (s : Memory ν K) (item : ν), (fmapMergeLoop dest src fuel s item).map (withKeys e) =
      mergeLoop dest.toQmap src.toQmap fuel (withKeys e s) item
  | 0, _, _ => rfl
  | fuel + 1, s, item => by
    rw [fmapMergeLoop, mergeLoop]
    by_cases hend : item = src.nil
    · rw [if_neg (not_not.mpr hend)]
      exact (if_neg (not_not.mpr hend)).symm
    have hend' : item ≠ src.toQmap.nil := hend
    rw [if_pos hend, if_pos hend', ← fmapMergeTurn_eq hdest hsrc]
    have hnext : clQmapNext (withKeys e s) item = clFmapNext s item := rfl
    rw [hnext]
    cases clFmapNext s item with
    | none => rfl
    | some next =>
      rw [Option.bind_some, Option.bind_some]
      cases fmapMergeTurn dest src s item with
      | none => rfl
      | some s₁ =>
        rw [Option.bind_some, Option.map_some, Option.bind_some]
        exact fmapMergeLoop_eq hdest hsrc fuel s₁ next

/-- **`cl_fmap_merge`.** -/
theorem clFmapMerge_eq (hdest : Embeds dest.pfnCompare e) (hsrc : Embeds src.pfnCompare e) :
    (clFmapMerge s dest src).map (withKeys e) = clQmapMerge (withKeys e s) dest.toQmap src.toQmap := by
  unfold clFmapMerge clQmapMerge
  have hhead : clQmapHead (withKeys e s) src.toQmap = clFmapHead s src := rfl
  rw [hhead]
  cases clFmapHead s src with
  | none => rfl
  | some item =>
    rw [Option.bind_some, Option.bind_some]
    exact fmapMergeLoop_eq hdest hsrc _ s item

theorem clFmapDeltaMove_eq (hdest : Embeds dest.pfnCompare e) :
    (clFmapDeltaMove dest src s item).map (embed e) = clQmapDeltaMove dest.toQmap src.toQmap (withKeys e s) item := by
  unfold clFmapDeltaMove clQmapDeltaMove
  have hnext : clQmapNext (withKeys e s) item = clFmapNext s item := rfl
  rw [hnext, ← clFmapRemoveItem_eq]
  cases clFmapNext s item with
  | none => rfl
  | some next =>
    rw [Option.bind_some, Option.bind_some]
    cases clFmapRemoveItem s src item with
    | none => rfl
    | some s₁ =>
      rw [Option.bind_some, Option.map_some, Option.bind_some, withKeys_key, ← clFmapInsert_eq hdest, Option.map_map,
        Option.map_map]
      rfl

/-- **The loop of the delta on both maps**: the keys are compared as those of the first. -/
theorem fmapDeltaLoop_eq (h1 : Embeds map1.pfnCompare e) (hnew : Embeds new.pfnCompare e)
    (hold : Embeds old.pfnCompare e) : ∀ (fuel : Nat) (s : Memory ν K) (item1 item2 : ν),
    (fmapDeltaLoop map1 map2 new old fuel s item1 item2).map (fun r => (withKeys e r.1, r.2)) =
      deltaLoop map1.toQmap map2.toQmap new.toQmap old.toQmap fuel (withKeys e s) item1 item2
  | 0, _, _, _ => rfl
  | fuel + 1, s, item1, item2 => by
    rw [fmapDeltaLoop, deltaLoop]
    by_cases hgo : item1 ≠ map1.nil ∧ item2 ≠ map2.nil
    · have hgo' : item1 ≠ map1.toQmap.nil ∧ item2 ≠ map2.toQmap.nil := hgo
      rw [if_pos hgo, if_pos hgo']
      dsimp only
      rw [withKeys_key, withKeys_key]
      by_cases hlt : map1.pfnCompare (s.key item1) (s.key item2) < 0
      · rw [if_pos hlt, if_pos ((h1.lt _ _).mp hlt), ← clFmapDeltaMove_eq hold]
        cases clFmapDeltaMove old map1 s item1 with
        | none => rfl
        | some r => exact fmapDeltaLoop_eq h1 hnew hold fuel r.2 r.1 item2
      rw [if_neg hlt, if_neg (mt (h1.lt _ _).mpr hlt)]
      by_cases hgt : map1.pfnCompare (s.key item1) (s.key item2) > 0
      · rw [if_pos hgt, if_pos ((h1.gt _ _).mp hgt), ← clFmapDeltaMove_eq hnew]
        cases clFmapDeltaMove new map2 s item2 with
        | none => rfl
        | some r => exact fmapDeltaLoop_eq h1 hnew hold fuel r.2 item1 r.1
      rw [if_neg hgt, if_neg (mt (h1.gt _ _).mpr hgt)]
      have hnext : ∀ x, clQmapNext (withKeys e s) x = clFmapNext s x := fun _ => rfl
      rw [hnext, hnext]
      cases clFmapNext s item1 with
      | none => rfl
      | some next1 =>
        rw [Option.bind_some, Option.bind_some]
        cases clFmapNext s item2 with
        | none => rfl
        | some next2 => exact fmapDeltaLoop_eq h1 hnew hold fuel s next1 next2
    · rw [if_neg hgo]
      exact (if_neg hgo).symm

theorem fmapRestLoop_eq (hdest : Embeds dest.pfnCompare e) : ∀ (fuel : Nat) (s : Memory ν K) (item : ν),
    (fmapRestLoop dest src fuel s item).map (withKeys e) = restLoop dest.toQmap src.toQmap fuel (withKeys e s) item
  | 0, _, _ => rfl
  | fuel + 1, s, item => by
    rw [fmapRestLoop, restLoop]
    by_cases hend : item = src.nil
    · rw [if_neg (not_not.mpr hend)]
      exact (if_neg (not_not.mpr hend)).symm
    have hend' : item ≠ src.toQmap.nil := hend
    rw [if_pos hend, if_pos hend', ← clFmapDeltaMove_eq hdest]
    cases clFmapDeltaMove dest src s item with
    | none => rfl
    | some r => exact fmapRestLoop_eq hdest fuel r.2 r.1

/-- **`cl_fmap_delta`.** -/
theorem clFmapDelta_eq (h1 : Embeds map1.pfnCompare e) (hnew : Embeds new.pfnCompare e)
    (hold : Embeds old.pfnCompare e) : (clFmapDelta s map1 map2 new old).map (withKeys e) =
      clQmapDelta (withKeys e s) map1.toQmap map2.toQmap new.toQmap old.toQmap := by
  unfold clFmapDelta clQmapDelta
  have hhead : ∀ map : ClFmap ν K, clQmapHead (withKeys e s) map.toQmap = clFmapHead s map := fun _ => rfl
  rw [hhead, hhead]
  cases clFmapHead s map1 with
  | none => rfl
  | some item1 =>
    rw [Option.bind_some, Option.bind_some]
    cases clFmapHead s map2 with
    | none => rfl
    | some item2 =>
      have hcount : ∀ map : ClFmap ν K, (withKeys e s).count map.toQmap.nil = s.count map.nil := fun _ => rfl
      rw [Option.bind_some, Option.bind_some, hcount, hcount, ← fmapDeltaLoop_eq h1 hnew hold]
      cases fmapDeltaLoop map1 map2 new old (s.count map1.nil + s.count map2.nil + 1) s item1 item2 with
      | none => rfl
      | some r =>
        rw [Option.bind_some, Option.map_some, Option.bind_some, ← fmapRestLoop_eq hnew]
        cases fmapRestLoop new map2 (s.count map2.nil + 1) r.1 r.2.2 with
        | none => rfl
        | some s' => exact fmapRestLoop_eq hold _ s' r.2.1

end Calls

end MlnxLib.Fmaps
