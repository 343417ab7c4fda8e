import MlnxLib.Lib.PartialMaps
import MlnxLib.Complib.QmapStore

/-!
# A family of quick maps is a family of finite maps

Calls on several maps that are stored apart, among them merges and deltas, next to what they do to the maps from keys
to items.

* `actAll same F call` — what a call does to the maps from keys to items, for any notion of the same key.
* `Replies`, `AllowedAll` — what a call returns, and what the callers see to.
* `Holds s maps F` — every map of the code has the items of its map from keys to items.

Principal result: `Holds.step` — every call that is allowed returns, and acts on the maps from keys to items.
-/

set_option autoImplicit false

namespace MlnxLib.Qmaps

open PartialMaps Runs

variable {ν κ : Type} [DecidableEq ν]

/-! ## Maps from keys to items -/

/-- The maps from keys to items, one for each map of the code. -/
abbrev Family (ν κ : Type) := ClQmap ν → κ → Option ν

/-- The maps without items. -/
def noneAtAll : Family ν κ := fun _ _ => none

/-- What a call does to the maps. -/
def actAll (same : κ → κ → Prop) [DecidableRel same] (F : Family ν κ) : Call (ClQmap ν) ν κ → Family ν κ
  | .insert map key item =>
    if F map key = none then Function.update F map fun k => if same k key then some item else F map k else F
  | .find _ _ => F
  | .get _ _ => F
  | .getNext _ _ => F
  | .remove map key => Function.update F map fun k => if same k key then none else F map k
  | .removeItem map item => Function.update F map fun k => if F map k = some item then none else F map k
  | .merge dest src =>
    Function.update (Function.update F dest (union (F dest) (F src))) src (within (F src) (F dest))
  | .delta map1 map2 new old =>
    let F' := Function.update (Function.update F map1 (within (F map1) (F map2))) map2 (within (F map2) (F map1))
    Function.update (Function.update F' new (without (F map2) (F map1))) old (without (F map1) (F map2))

/-- The item with the least greater key, or the end. -/
def IsNextBy (lt : κ → κ → Prop) (nil : ν) (M : κ → Option ν) (key : κ) (r : ν) : Prop :=
  (r = nil ∧ ∀ k x, M k = some x → ¬lt key k) ∨
    ∃ k, M k = some r ∧ lt key k ∧ ∀ k' x, M k' = some x → lt key k' → ¬lt k' k

/-- What a call returns. -/
def Replies (lt : κ → κ → Prop) (F : Family ν κ) : Call (ClQmap ν) ν κ → Option ν → Prop
  | .insert map key item, r => r = some ((F map key).getD item)
  | .find map key, r => r = some ((F map key).getD map.nil)
  | .get map key, r => r = some ((F map key).getD map.nil)
  | .getNext map key, r => ∃ x, r = some x ∧ IsNextBy lt map.nil (F map) key x
  | .remove map key, r => r = some ((F map key).getD map.nil)
  | .removeItem _ _, r => r = none
  | .merge _ _, r => r = none
  | .delta _ _ _ _, r => r = none

/-- What the callers see to: an item is in one map at most, an item to remove is in the map or its end, the maps for
the results of a delta are empty, and no map is there twice. -/
def AllowedAll (maps : List (ClQmap ν)) (F : Family ν κ) (call : Call (ClQmap ν) ν κ) : Prop :=
  call.maps ⊆ maps ∧ call.maps.Nodup ∧ match call with
    | .insert _ _ item => ∀ m ∈ maps, item ≠ m.nil ∧ item ≠ m.root ∧ ∀ k, F m k ≠ some item
    | .removeItem map item => item = map.nil ∨ ∃ k, F map k = some item
    | .delta _ _ new old => (∀ k, F new k = none) ∧ ∀ k, F old k = none
    | _ => True

variable [LinearOrder κ]

/-- **Every map of the code has the items** of its map from keys to items. -/
structure Holds (s : Memory ν κ) (maps : List (ClQmap ν)) (F : Family ν κ) : Prop where
  stored : Stored s maps
  indexed : ∀ m ∈ maps, IndexedBy s.key (F m) (m.items s)

/-- A call that returns, replies and acts as on the maps from keys to items. -/
def ActsAll (s : Memory ν κ) (maps : List (ClQmap ν)) (F : Family ν κ) (call : Call (ClQmap ν) ν κ) : Prop :=
  ∃ r s', qmapStep s call = some (r, s') ∧ Replies (· < ·) F call r ∧ Holds s' maps (actAll (· = ·) F call)

section

variable {s s' : Memory ν κ} {maps touched : List (ClQmap ν)} {map : ClQmap ν} {F F' : Family ν κ} {key : κ} {item : ν}

namespace Holds

theorem represents (h : Holds s maps F) (hmap : map ∈ maps) : Represents s map (F map) (map.items s) :=
  ⟨h.stored.isQmap map hmap, h.indexed map hmap⟩

/-- An item that no map from keys to items has is in no map. -/
theorem fresh (h : Holds s maps F) (hitem : ∀ m ∈ maps, item ≠ m.nil ∧ item ≠ m.root ∧ ∀ k, F m k ≠ some item) :
    ∀ m ∈ maps, item ∉ m.nodes (m.items s) := by
  intro m hm hin
  obtain ⟨hnil, hroot, hnone⟩ := hitem m hm
  simp only [ClQmap.nodes, List.mem_cons] at hin
  rcases hin with hin | hin | hin
  · exact hnil hin
  · exact hroot hin
  · exact hnone _ ((h.indexed m hm).get hin)

/-- A map without items. -/
theorem items_eq_nil (h : Holds s maps F) (hmap : map ∈ maps) (hnone : ∀ k, F map k = none) : map.items s = [] := by
  rw [List.eq_nil_iff_forall_not_mem]
  intro x hx
  have hget := (h.indexed map hmap).get hx
  rw [hnone] at hget
  cases hget

/-- **What the callers see to** is what the memory is checked for. -/
theorem legal (h : Holds s maps F) {call : Call (ClQmap ν) ν κ} (hcall : AllowedAll maps F call) :
    Legal maps s call := by
  obtain ⟨hsub, hnd, hcall⟩ := hcall
  refine ⟨hsub, hnd, ?_⟩
  cases call with
  | insert map key item => exact h.fresh hcall
  | removeItem map item =>
    have hmap : map ∈ maps := hsub (List.mem_singleton_self _)
    rcases hcall with hnil | ⟨k, hk⟩
    · exact Or.inl hnil
    · exact Or.inr ((h.indexed map hmap k item).mp hk).1
  | delta map1 map2 new old =>
    have hnew : new ∈ maps := hsub (by simp [Call.maps])
    have hold : old ∈ maps := hsub (by simp [Call.maps])
    exact ⟨h.items_eq_nil hnew hcall.1, h.items_eq_nil hold hcall.2⟩
  | _ => trivial

/-- **The maps that a call does not touch** keep their items and their keys. -/
theorem of_touched {S : List ν} (h : Holds s maps F) (hs : Stored s' maps) (hout : Outside s s' S)
    (hrest : ∀ m ∈ maps, m ∉ touched → (m.nodes (m.items s)).Disjoint S)
    (hsame : ∀ m ∈ maps, m ∉ touched → F' m = F m) (hidx : ∀ m ∈ touched, IndexedBy s'.key (F' m) (m.items s')) :
    Holds s' maps F' := by
  refine ⟨hs, fun m hm => ?_⟩
  by_cases ht : m ∈ touched
  · exact hidx m ht
  · have hdisj := hrest m hm ht
    rw [hsame m hm ht, ((h.stored.isQmap m hm).outside hout hdisj).items_eq]
    refine (h.indexed m hm).congr_key fun x hx => ?_
    exact (hout x fun hx' => hdisj (List.mem_cons_of_mem _ (List.mem_cons_of_mem _ hx)) hx').key

/-- The nodes of the maps that a call does not touch. -/
theorem apart_of_touched (h : Holds s maps F) (hsub : touched ⊆ maps) :
    ∀ m ∈ maps, m ∉ touched → (m.nodes (m.items s)).Disjoint (touched.flatMap fun m => m.nodes (m.items s)) := by
  intro m hm ht x hx hx'
  obtain ⟨m', ht', hx'⟩ := List.mem_flatMap.mp hx'
  exact h.stored.apart m hm m' (hsub ht') (fun he => ht (he ▸ ht')) hx hx'

/-- **A call on one map**: its map from keys to items changes, and no other. -/
theorem of_one {S : List ν} {M : κ → Option ν} {l : List ν} (h : Holds s maps F) (hmap : map ∈ maps)
    (hs : Stored s' maps) (hout : Outside s s' (S ++ map.nodes (map.items s)))
    (hS : ∀ m ∈ maps, ∀ x ∈ S, x ∉ m.nodes (m.items s)) (hone : Represents s' map M l) :
    Holds s' maps (Function.update F map M) := by
  have hrest : ∀ m ∈ maps, m ∉ [map] → (m.nodes (m.items s)).Disjoint (S ++ map.nodes (map.items s)) := by
    intro m hm ht x hx hx'
    rcases List.mem_append.mp hx' with hx' | hx'
    · exact hS m hm x hx' hx
    · exact h.stored.apart m hm map hmap (fun he => ht (List.mem_singleton.mpr he)) hx hx'
  refine h.of_touched hs hout hrest (fun m _ ht => ?_) fun m hm => ?_
  · exact Function.update_of_ne (fun he => ht (List.mem_singleton.mpr he)) ..
  · rw [List.mem_singleton.mp hm, Function.update_self, hone.isQmap.items_eq]
    exact hone.lookup

/-! ## The calls -/

theorem acts_insert (h : Holds s maps F) (hcall : AllowedAll maps F (.insert map key item)) :
    ActsAll s maps F (.insert map key item) := by
  obtain ⟨hsub, -, hitem⟩ := hcall
  have hmap : map ∈ maps := hsub (List.mem_singleton_self _)
  have hfresh := h.fresh hitem
  obtain ⟨r, s', hinsert, hs⟩ := h.stored.insert hmap key hfresh
  obtain ⟨r₁, s₁, hinsert₁, -, hout, -⟩ := clQmapInsert_spec (h.stored.isQmap map hmap) key (hfresh map hmap)
  have hallowed : Allowed map (F map) (.insert key item) :=
    ⟨(hitem map hmap).1, (hitem map hmap).2.1, (hitem map hmap).2.2⟩
  obtain ⟨r₂, s₂, l, hinsert₂, hreply, hone⟩ := (h.represents hmap).acts_insert hallowed
  obtain ⟨rfl, rfl⟩ := Prod.mk.inj (Option.some.inj (hinsert.symm.trans hinsert₁))
  obtain ⟨rfl, rfl⟩ := Prod.mk.inj (Option.some.inj (hinsert.symm.trans hinsert₂))
  have hout' : Outside s s' ([item] ++ map.nodes (map.items s)) := hout.mono fun x hx => by
    simp only [ClQmap.nodes, List.mem_cons, List.mem_append] at hx ⊢
    tauto
  have hS : ∀ m ∈ maps, ∀ x ∈ [item], x ∉ m.nodes (m.items s) := fun m hm x hx =>
    List.mem_singleton.mp hx ▸ hfresh m hm
  refine ⟨some r, s', by rw [qmapStep, hinsert, Option.map_some], congrArg some hreply, ?_⟩
  have hact : actAll (· = ·) F (.insert map key item) = Function.update F map (act (F map) (.insert key item)) := by
    rw [actAll, act]
    split
    · congr 1
      funext k
      rw [Function.update_apply]
    · exact (Function.update_eq_self ..).symm
  rw [hact]
  exact h.of_one hmap hs hout' hS hone

/-- The steps that change no map. -/
theorem acts_of_get {r : ν} {call : Call (ClQmap ν) ν κ} (h : Holds s maps F)
    (hstep : qmapStep s call = some (some r, s)) (hreply : Replies (· < ·) F call (some r))
    (hact : actAll (· = ·) F call = F) : ActsAll s maps F call :=
  ⟨some r, s, hstep, hreply, hact.symm ▸ h⟩

theorem acts_get (h : Holds s maps F) (hmap : map ∈ maps) (key : κ) :
    ActsAll s maps F (.get map key) ∧ ActsAll s maps F (.find map key) := by
  obtain ⟨r, s', items, hget, hreply, -⟩ := (h.represents hmap).acts_get key
  obtain ⟨x, hx, hpair⟩ := Option.map_eq_some_iff.mp hget
  obtain ⟨rfl, rfl⟩ := Prod.mk.inj hpair
  constructor
  · exact h.acts_of_get (by rw [qmapStep, hx, Option.map_some]) (congrArg some hreply) rfl
  · exact h.acts_of_get (by rw [qmapStep, hx, Option.map_some]) (congrArg some hreply) rfl

theorem acts_getNext (h : Holds s maps F) (hmap : map ∈ maps) (key : κ) : ActsAll s maps F (.getNext map key) := by
  obtain ⟨r, s', items, hget, hreply, -⟩ := (h.represents hmap).acts_getNext key
  obtain ⟨x, hx, hpair⟩ := Option.map_eq_some_iff.mp hget
  obtain ⟨rfl, rfl⟩ := Prod.mk.inj hpair
  refine h.acts_of_get (by rw [qmapStep, hx, Option.map_some]) ⟨x, rfl, ?_⟩ rfl
  rcases hreply with ⟨hnil, hle⟩ | ⟨k, hk, hlt, hleast⟩
  · exact Or.inl ⟨hnil, fun k y hy => not_lt.mpr (hle k y hy)⟩
  · exact Or.inr ⟨k, hk, hlt, fun k' y hy hlt' => not_lt.mpr (hleast k' y hy hlt')⟩

/-- A removal from a map, with what it does to it. -/
theorem of_removeItem (h : Holds s maps F) (hmap : map ∈ maps) (hitem : item = map.nil ∨ item ∈ map.items s)
    (hremove : clQmapRemoveItem s map item = some s') {M : κ → Option ν} {l : List ν}
    (hone : Represents s' map M l) : Holds s' maps (Function.update F map M) := by
  obtain ⟨s₁, hremove₁, hs⟩ := h.stored.removeItem hmap hitem
  cases Option.some.inj (hremove.symm.trans hremove₁)
  have hout : Outside s s' ([] ++ map.nodes (map.items s)) := by
    rcases hitem with rfl | hitem
    · rw [clQmapRemoveItem_end, Option.some.injEq] at hremove
      exact hremove ▸ Outside.refl s _
    · obtain ⟨as, bs, hsplit⟩ := List.append_of_mem hitem
      have hq := h.stored.isQmap map hmap
      rw [hsplit] at hq
      obtain ⟨s₂, hremove₂, -, -, hout⟩ := clQmapRemoveItem_spec hq
      cases Option.some.inj (hremove.symm.trans hremove₂)
      rwa [← hsplit] at hout
  exact h.of_one hmap hs hout nofun hone

theorem acts_removeItem (h : Holds s maps F) (hcall : AllowedAll maps F (.removeItem map item)) :
    ActsAll s maps F (.removeItem map item) := by
  obtain ⟨hsub, -, hitem⟩ := hcall
  have hmap : map ∈ maps := hsub (List.mem_singleton_self _)
  obtain ⟨r, s', l, hcode, -, hone⟩ := (h.represents hmap).acts_removeItem hitem
  obtain ⟨s₁, hremove, hpair⟩ := Option.map_eq_some_iff.mp hcode
  obtain ⟨-, rfl⟩ := Prod.mk.inj hpair
  have hin : item = map.nil ∨ item ∈ map.items s := hitem.imp_right fun ⟨k, hk⟩ => ((h.indexed map hmap k item).mp hk).1
  exact ⟨none, s₁, by rw [qmapStep, hremove, Option.map_some], rfl, h.of_removeItem hmap hin hremove hone⟩

theorem acts_remove (h : Holds s maps F) (hmap : map ∈ maps) (key : κ) : ActsAll s maps F (.remove map key) := by
  obtain ⟨r, s', l, hremove, hreply, hone⟩ := (h.represents hmap).acts_remove key
  have hremove' : clQmapRemove s map key = some (r, s') := hremove
  obtain ⟨x, hget, hrest⟩ := Option.bind_eq_some_iff.mp hremove'
  obtain ⟨s₁, hitem, hpair⟩ := Option.map_eq_some_iff.mp hrest
  obtain ⟨rfl, rfl⟩ := Prod.mk.inj hpair
  have hin : x = map.nil ∨ x ∈ map.items s := by
    rcases clQmapGet_spec (h.stored.isQmap map hmap) key with ⟨y, hy, -, hget'⟩ | ⟨-, hget'⟩
    · exact Or.inr (Option.some.inj (hget.symm.trans hget') ▸ hy)
    · exact Or.inl (Option.some.inj (hget.symm.trans hget'))
  refine ⟨some x, s₁, by rw [qmapStep, hremove', Option.map_some], congrArg some hreply, ?_⟩
  have hact : act (F map) (.remove key) = fun k => if k = key then none else F map k := by
    funext k
    rw [act, Function.update_apply]
  have hholds := h.of_removeItem hmap hin hitem hone
  rwa [hact] at hholds

theorem acts_merge {dest src : ClQmap ν} (h : Holds s maps F) (hcall : AllowedAll maps F (.merge dest src)) :
    ActsAll s maps F (.merge dest src) := by
  obtain ⟨hsub, hnd, -⟩ := hcall
  have hne : dest ≠ src := by
    simpa [Call.maps] using hnd
  have hdest : dest ∈ maps := hsub (by simp [Call.maps])
  have hsrc : src ∈ maps := hsub (by simp [Call.maps])
  obtain ⟨s', hmerge, hs⟩ := h.stored.merge hsub hnd
  have hnodes := h.stored.nodup hsub hnd
  simp only [Call.maps, List.flatMap_cons, List.flatMap_nil, List.append_nil] at hnodes
  obtain ⟨s₁, ds', hmerge₁, hr⟩ :=
    clQmapMerge_result (h.stored.isQmap dest hdest) (h.stored.isQmap src hsrc) hnodes
  cases Option.some.inj (hmerge.symm.trans hmerge₁)
  have hout : Outside s s' ([dest, src].flatMap fun m => m.nodes (m.items s)) := by
    simp only [List.flatMap_cons, List.flatMap_nil, List.append_nil]
    exact hr.outside
  refine ⟨none, s', by rw [qmapStep, hmerge, Option.map_some], rfl, ?_⟩
  refine h.of_touched hs hout (h.apart_of_touched hsub) (fun m _ ht => ?_) fun m hm => ?_
  · simp only [List.mem_cons, List.not_mem_nil, or_false, not_or] at ht
    rw [actAll, Function.update_of_ne ht.2, Function.update_of_ne ht.1]
  · simp only [List.mem_cons, List.not_mem_nil, or_false] at hm
    rw [hr.key_eq]
    rcases hm with rfl | rfl
    · rw [actAll, Function.update_of_ne hne, Function.update_self, hr.onDest.items_eq]
      exact ((h.indexed m hdest).union (h.indexed src hsrc)).perm hr.moved
    · rw [actAll, Function.update_self, hr.onSrc.items_eq]
      exact (h.indexed m hsrc).within (h.indexed dest hdest)

theorem acts_delta {map1 map2 new old : ClQmap ν} (h : Holds s maps F)
    (hcall : AllowedAll maps F (.delta map1 map2 new old)) : ActsAll s maps F (.delta map1 map2 new old) := by
  have hlegal := h.legal hcall
  obtain ⟨hsub, hnd, hnew, hold⟩ := hlegal
  have hnd' := hnd
  simp only [Call.maps, List.nodup_cons, List.mem_cons, List.not_mem_nil, or_false, not_or, not_false_eq_true,
    List.nodup_nil, and_true] at hnd'
  obtain ⟨⟨h12, h1n, h1o⟩, ⟨h2n, h2o⟩, hno⟩ := hnd'
  have hm1 : map1 ∈ maps := hsub (by simp [Call.maps])
  have hm2 : map2 ∈ maps := hsub (by simp [Call.maps])
  have hmn : new ∈ maps := hsub (by simp [Call.maps])
  have hmo : old ∈ maps := hsub (by simp [Call.maps])
  obtain ⟨s', hdelta, hs⟩ := h.stored.delta hsub hnd hnew hold
  have hpairs : [map1, map2, new, old].Perm [map1, old, map2, new] := by
    rw [List.perm_iff_count]
    intro z
    simp only [List.count_cons, List.count_nil]
    omega
  have hnodes := h.stored.nodup (List.Subset.trans hpairs.symm.subset hsub) (hpairs.nodup_iff.mp hnd)
  simp only [List.flatMap_cons, List.flatMap_nil, List.append_nil, ← List.append_assoc] at hnodes
  rw [hnew, hold] at hnodes
  obtain ⟨s₁, hdelta₁, hr⟩ := clQmapDelta_result (h.stored.isQmap map1 hm1) (h.stored.isQmap map2 hm2)
    (hnew ▸ h.stored.isQmap new hmn) (hold ▸ h.stored.isQmap old hmo) (by rwa [← List.append_assoc])
  cases Option.some.inj (hdelta.symm.trans hdelta₁)
  have hout : Outside s s' ([map1, map2, new, old].flatMap fun m => m.nodes (m.items s)) := by
    refine hr.outside.mono fun x hx => ?_
    simp only [List.flatMap_cons, List.flatMap_nil, List.append_nil, List.mem_append, hnew, hold] at hx ⊢
    tauto
  refine ⟨none, s', by rw [qmapStep, hdelta, Option.map_some], rfl, ?_⟩
  refine h.of_touched hs hout (h.apart_of_touched hsub) (fun m _ ht => ?_) fun m hm => ?_
  · simp only [List.mem_cons, List.not_mem_nil, or_false, not_or] at ht
    obtain ⟨ht1, ht2, htn, hto⟩ := ht
    dsimp only [actAll]
    rw [Function.update_of_ne hto, Function.update_of_ne htn, Function.update_of_ne ht2, Function.update_of_ne ht1]
  · simp only [List.mem_cons, List.not_mem_nil, or_false] at hm
    have hi1 := h.indexed map1 hm1
    have hi2 := h.indexed map2 hm2
    rw [hr.key_eq]
    dsimp only [actAll]
    rcases hm with rfl | rfl | rfl | rfl
    · rw [Function.update_of_ne h1o, Function.update_of_ne h1n, Function.update_of_ne h12, Function.update_self,
        hr.onMap1.items_eq]
      exact hi1.within hi2
    · rw [Function.update_of_ne h2o, Function.update_of_ne h2n, Function.update_self, hr.onMap2.items_eq]
      exact hi2.within hi1
    · rw [Function.update_of_ne hno, Function.update_self, hr.onNew.items_eq]
      exact hi2.without hi1
    · rw [Function.update_self, hr.onOld.items_eq]
      exact hi1.without hi2

/-- **Every call acts on the maps from keys to items.** -/
theorem step (h : Holds s maps F) {call : Call (ClQmap ν) ν κ} (hcall : AllowedAll maps F call) :
    ActsAll s maps F call := by
  cases call with
  | insert map key item => exact h.acts_insert hcall
  | find map key => exact (h.acts_get (hcall.1 (List.mem_singleton_self _)) key).2
  | get map key => exact (h.acts_get (hcall.1 (List.mem_singleton_self _)) key).1
  | getNext map key => exact h.acts_getNext (hcall.1 (List.mem_singleton_self _)) key
  | remove map key => exact h.acts_remove (hcall.1 (List.mem_singleton_self _)) key
  | removeItem map item => exact h.acts_removeItem hcall
  | merge dest src => exact h.acts_merge hcall
  | delta map1 map2 new old => exact h.acts_delta hcall

/-- The maps at the start. -/
theorem init (s : Memory ν κ) (hnd : (maps.flatMap fun m => m.nodes []).Nodup) :
    Holds (initAll s maps) maps noneAtAll := by
  have hempty := initAll_isQmap maps [] (s := s) hnd nofun
  refine ⟨stored_init s hnd, fun m hm => ?_⟩
  rw [(hempty m hm).items_eq]
  exact IndexedBy.empty _

end Holds

end

end MlnxLib.Qmaps
