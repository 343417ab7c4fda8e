import Mathlib.Data.List.Pairwise
import MlnxLib.Complib.QmapRuns
import MlnxLib.Complib.QmapMerge

/-!
# Several quick maps

Runs of calls on maps that are stored apart: an item is in one of them at most, and goes from one to another.

* `Call` — the calls on one map and on several.
* `ClQmap.items` — what a traversal of a map collects.
* `Legal` — what the callers see to, from the memory before the call.
* `Stored` — all maps are well formed, and no node is in two of them.

Principal result: `Stored.step` — every legal call returns and keeps the maps stored.
-/

set_option autoImplicit false

namespace MlnxLib.Qmaps

open Runs

variable {ν κ : Type} [DecidableEq ν]

/-! ## Calls -/

/-- The calls on maps `μ`; `find` is `cl_fmap_match` with the compare function of the map, which quick maps have not. -/
inductive Call (μ ν κ : Type) where
  | insert (map : μ) (key : κ) (item : ν)
  | find (map : μ) (key : κ)
  | get (map : μ) (key : κ)
  | getNext (map : μ) (key : κ)
  | remove (map : μ) (key : κ)
  | removeItem (map : μ) (item : ν)
  | merge (dest src : μ)
  | delta (map1 map2 new old : μ)
  deriving DecidableEq, Repr

/-- The maps of a call. -/
def Call.maps {μ : Type} : Call μ ν κ → List μ
  | .insert map _ _ | .find map _ | .get map _ | .getNext map _ | .remove map _ | .removeItem map _ => [map]
  | .merge dest src => [dest, src]
  | .delta map1 map2 new old => [map1, map2, new, old]

/-- The items of a map, by `cl_qmap_apply_func`. -/
def ClQmap.items (map : ClQmap ν) (s : Memory ν κ) : List ν :=
  (clQmapApplyFunc s map (fun items x => items ++ [x]) []).getD []

/-- What the callers see to: an item that is inserted is in no map, one that is removed is in the map or is its end,
and no map is there twice. -/
def Legal (maps : List (ClQmap ν)) (s : Memory ν κ) (call : Call (ClQmap ν) ν κ) : Prop :=
  call.maps ⊆ maps ∧ call.maps.Nodup ∧ match call with
    | .insert _ _ item => ∀ m ∈ maps, item ∉ m.nodes (m.items s)
    | .removeItem map item => item = map.nil ∨ item ∈ map.items s
    | .delta _ _ new old => new.items s = [] ∧ old.items s = []
    | _ => True

instance (maps : List (ClQmap ν)) (s : Memory ν κ) : ∀ call, Decidable (Legal maps s call)
  | .insert .. => inferInstanceAs (Decidable (_ ∧ _))
  | .find .. => inferInstanceAs (Decidable (_ ∧ _))
  | .get .. => inferInstanceAs (Decidable (_ ∧ _))
  | .getNext .. => inferInstanceAs (Decidable (_ ∧ _))
  | .remove .. => inferInstanceAs (Decidable (_ ∧ _))
  | .removeItem .. => inferInstanceAs (Decidable (_ ∧ _))
  | .merge .. => inferInstanceAs (Decidable (_ ∧ _))
  | .delta .. => inferInstanceAs (Decidable (_ ∧ _))

/-- `cl_qmap_init` of all maps. -/
def initAll (s : Memory ν κ) (maps : List (ClQmap ν)) : Memory ν κ := maps.foldl clQmapInit s

variable [LinearOrder κ]

/-- A call: the item that it returns, if it does, and the memory after it. -/
def qmapStep (s : Memory ν κ) : Call (ClQmap ν) ν κ → Option (Option ν × Memory ν κ)
  | .insert map key item => (clQmapInsert s map key item).map fun r => (some r.1, r.2)
  | .find map key => (clQmapGet s map key).map fun item => (some item, s)
  | .get map key => (clQmapGet s map key).map fun item => (some item, s)
  | .getNext map key => (clQmapGetNext s map key).map fun item => (some item, s)
  | .remove map key => (clQmapRemove s map key).map fun r => (some r.1, r.2)
  | .removeItem map item => (clQmapRemoveItem s map item).map fun s => (none, s)
  | .merge dest src => (clQmapMerge s dest src).map fun s => (none, s)
  | .delta map1 map2 new old => (clQmapDelta s map1 map2 new old).map fun s => (none, s)

/-! ## Maps that are stored apart -/

/-- **All maps are well formed**, and no node is in two of them. -/
structure Stored (s : Memory ν κ) (maps : List (ClQmap ν)) : Prop where
  isQmap : ∀ m ∈ maps, IsQmap s m (m.items s)
  apart : ∀ m ∈ maps, ∀ m' ∈ maps, m ≠ m' → (m.nodes (m.items s)).Disjoint (m'.nodes (m'.items s))

section

variable {s s' : Memory ν κ} {maps touched : List (ClQmap ν)} {map : ClQmap ν} {l : List ν}

/-- **The items** of a map are those that it is known to have. -/
theorem IsQmap.items_eq (h : IsQmap s map l) : map.items s = l := by
  have hcollect : ∀ (as bs : List ν), bs.foldl (fun items x => items ++ [x]) as = as ++ bs := by
    intro as bs
    induction bs generalizing as with
    | nil => exact (List.append_nil as).symm
    | cons b bs ih => rw [List.foldl_cons, ih, List.append_assoc, List.singleton_append]
  rw [ClQmap.items, clQmapApplyFunc_spec h, hcollect, Option.getD_some, List.nil_append]

namespace Stored

theorem nodup (h : Stored s maps) (hsub : touched ⊆ maps) (hnd : touched.Nodup) :
    (touched.flatMap fun m => m.nodes (m.items s)).Nodup := by
  rw [List.nodup_flatMap]
  refine ⟨fun m hm => (h.isQmap m (hsub hm)).nodup, hnd.imp_of_mem fun hm hm' hne => ?_⟩
  exact h.apart _ (hsub hm) _ (hsub hm') hne

/-- **Some of the maps are changed**, inside of `S`, and the others are not. -/
theorem change {S : List ν} (h : Stored s maps) (hout : Outside s s' S)
    (hrest : ∀ m ∈ maps, m ∉ touched → (m.nodes (m.items s)).Disjoint S)
    (hmaps : ∀ m ∈ touched, IsQmap s' m (m.items s')) (hsub : (touched.flatMap fun m => m.nodes (m.items s')) ⊆ S)
    (hnd : (touched.flatMap fun m => m.nodes (m.items s')).Nodup) : Stored s' maps := by
  have hother : ∀ m ∈ maps, m ∉ touched → IsQmap s' m (m.items s) := fun m hm ht =>
    (h.isQmap m hm).outside hout (hrest m hm ht)
  have hsame : ∀ m ∈ maps, m ∉ touched → m.items s' = m.items s := fun m hm ht => (hother m hm ht).items_eq
  have hin : ∀ m ∈ touched, m.nodes (m.items s') ⊆ S := fun m ht x hx =>
    hsub (List.mem_flatMap.mpr ⟨m, ht, hx⟩)
  have hsymm : Std.Symm (Function.onFun List.Disjoint fun m : ClQmap ν => m.nodes (m.items s')) :=
    ⟨fun _ _ hd => List.disjoint_symm hd⟩
  have hpair := (List.nodup_flatMap.mp hnd).2
  constructor
  · intro m hm
    by_cases ht : m ∈ touched
    · exact hmaps m ht
    · rw [hsame m hm ht]
      exact hother m hm ht
  · intro m hm m' hm' hne
    by_cases ht : m ∈ touched <;> by_cases ht' : m' ∈ touched
    · exact hpair.forall ht ht' hne
    · rw [hsame m' hm' ht']
      exact List.disjoint_of_subset_left (hin m ht) (List.disjoint_symm (hrest m' hm' ht'))
    · rw [hsame m hm ht]
      exact List.disjoint_of_subset_right (hin m' ht') (hrest m hm ht)
    · rw [hsame m hm ht, hsame m' hm' ht']
      exact h.apart m hm m' hm' hne

/-- **Items move** between some of the maps. -/
theorem exchange (h : Stored s maps) (hsub : touched ⊆ maps) (hnd : touched.Nodup)
    (hout : Outside s s' (touched.flatMap fun m => m.nodes (m.items s)))
    (hmaps : ∀ m ∈ touched, IsQmap s' m (m.items s'))
    (hperm : (touched.flatMap fun m => m.nodes (m.items s')).Perm (touched.flatMap fun m => m.nodes (m.items s))) :
    Stored s' maps := by
  refine h.change hout (fun m hm ht x hx hx' => ?_) hmaps hperm.subset (hperm.symm.nodup (h.nodup hsub hnd))
  obtain ⟨m', ht', hx'⟩ := List.mem_flatMap.mp hx'
  exact h.apart m hm m' (hsub ht') (fun he => ht (he ▸ ht')) hx hx'

/-- **One map is changed**, and perhaps an item that is in no map. -/
theorem change_one {S : List ν} (h : Stored s maps) (hmap : map ∈ maps)
    (hout : Outside s s' (S ++ map.nodes (map.items s))) (hS : ∀ m ∈ maps, ∀ x ∈ S, x ∉ m.nodes (m.items s))
    (hl : IsQmap s' map l) (hsub : map.nodes l ⊆ S ++ map.nodes (map.items s)) : Stored s' maps := by
  have hitems := hl.items_eq
  have hsingle : ([map].flatMap fun m => m.nodes (m.items s')) = map.nodes l := by
    rw [List.flatMap_singleton, hitems]
  have hmaps : ∀ m ∈ [map], IsQmap s' m (m.items s') := fun m hm => by
    rw [List.mem_singleton.mp hm, hitems]
    exact hl
  refine h.change hout (fun m hm ht x hx hx' => ?_) hmaps (hsingle ▸ hsub) (hsingle ▸ hl.nodup)
  rcases List.mem_append.mp hx' with hx' | hx'
  · exact hS m hm x hx' hx
  · exact h.apart m hm map hmap (fun he => ht (List.mem_singleton.mpr he)) hx hx'

theorem insert (h : Stored s maps) (hmap : map ∈ maps) (key : κ) {item : ν}
    (hitem : ∀ m ∈ maps, item ∉ m.nodes (m.items s)) :
    ∃ r s', clQmapInsert s map key item = some (r, s') ∧ Stored s' maps := by
  obtain ⟨r, s', hinsert, -, hout, hplaced⟩ := clQmapInsert_spec (h.isQmap map hmap) key (hitem map hmap)
  have hout' : Outside s s' ([item] ++ map.nodes (map.items s)) := hout.mono fun x hx => by
    simp only [ClQmap.nodes, List.mem_cons, List.mem_append] at hx ⊢
    tauto
  have hS : ∀ m ∈ maps, ∀ x ∈ [item], x ∉ m.nodes (m.items s) := fun m hm x hx =>
    List.mem_singleton.mp hx ▸ hitem m hm
  refine ⟨r, s', hinsert, ?_⟩
  rcases hplaced with ⟨-, -, hl⟩ | ⟨-, as, bs, hsplit, -, -, hl⟩
  · exact h.change_one hmap hout' hS hl (List.subset_append_right ..)
  · refine h.change_one hmap hout' hS hl fun x hx => ?_
    rw [hsplit]
    simp only [ClQmap.nodes, List.mem_cons, List.mem_append] at hx ⊢
    tauto

theorem removeItem (h : Stored s maps) (hmap : map ∈ maps) {item : ν} (hitem : item = map.nil ∨ item ∈ map.items s) :
    ∃ s', clQmapRemoveItem s map item = some s' ∧ Stored s' maps := by
  rcases hitem with rfl | hitem
  · exact ⟨s, clQmapRemoveItem_end, h⟩
  obtain ⟨as, bs, hsplit⟩ := List.append_of_mem hitem
  have hq := h.isQmap map hmap
  rw [hsplit] at hq
  obtain ⟨s', hremove, hl, -, hout⟩ := clQmapRemoveItem_spec hq
  rw [← hsplit] at hout
  refine ⟨s', hremove, h.change_one (S := []) hmap hout nofun hl fun x hx => ?_⟩
  rw [hsplit]
  simp only [ClQmap.nodes, List.mem_cons, List.mem_append] at hx ⊢
  tauto

theorem remove (h : Stored s maps) (hmap : map ∈ maps) (key : κ) :
    ∃ r s', clQmapRemove s map key = some (r, s') ∧ Stored s' maps := by
  rcases clQmapGet_spec (h.isQmap map hmap) key with ⟨x, hx, -, hget⟩ | ⟨-, hget⟩
  · obtain ⟨s', hremove, h'⟩ := h.removeItem hmap (Or.inr hx)
    exact ⟨x, s', by rw [clQmapRemove, hget, Option.bind_some, hremove, Option.map_some], h'⟩
  · obtain ⟨s', hremove, h'⟩ := h.removeItem hmap (Or.inl rfl)
    exact ⟨map.nil, s', by rw [clQmapRemove, hget, Option.bind_some, hremove, Option.map_some], h'⟩

theorem merge {dest src : ClQmap ν} (h : Stored s maps) (hsub : [dest, src] ⊆ maps) (hnd : [dest, src].Nodup) :
    ∃ s', clQmapMerge s dest src = some s' ∧ Stored s' maps := by
  have hnodes := h.nodup hsub hnd
  simp only [List.flatMap_cons, List.flatMap_nil, List.append_nil] at hnodes
  have hdest := h.isQmap dest (hsub (by simp))
  have hsrc := h.isQmap src (hsub (by simp))
  obtain ⟨s', ds', hmerge, hr⟩ := clQmapMerge_result hdest hsrc hnodes
  have hdest' := hr.onDest.items_eq
  have hsrc' := hr.onSrc.items_eq
  refine ⟨s', hmerge, h.exchange hsub hnd ?_ (fun m hm => ?_) ?_⟩
  · simp only [List.flatMap_cons, List.flatMap_nil, List.append_nil]
    exact hr.outside
  · simp only [List.mem_cons, List.not_mem_nil, or_false] at hm
    rcases hm with rfl | rfl
    · rw [hdest']
      exact hr.onDest
    · rw [hsrc']
      exact hr.onSrc
  · simp only [List.flatMap_cons, List.flatMap_nil, List.append_nil]
    rw [hdest', hsrc']
    exact merge_perm hr.moved

theorem delta {map1 map2 new old : ClQmap ν} (h : Stored s maps) (hsub : [map1, map2, new, old] ⊆ maps)
    (hnd : [map1, map2, new, old].Nodup) (hnew : new.items s = []) (hold : old.items s = []) :
    ∃ s', clQmapDelta s map1 map2 new old = some s' ∧ Stored s' maps := by
  -- the pairs of maps that items move between
  have hpairs : [map1, map2, new, old].Perm [map1, old, map2, new] := by
    rw [List.perm_iff_count]
    intro z
    simp only [List.count_cons, List.count_nil]
    omega
  have hsub' := List.Subset.trans hpairs.symm.subset hsub
  have hnd' := hpairs.nodup_iff.mp hnd
  have hflat : ∀ s : Memory ν κ, ([map1, old, map2, new].flatMap fun m => m.nodes (m.items s)) =
      (map1.nodes (map1.items s) ++ old.nodes (old.items s)) ++
        (map2.nodes (map2.items s) ++ new.nodes (new.items s)) := by
    intro s
    simp only [List.flatMap_cons, List.flatMap_nil, List.append_nil, List.append_assoc]
  have hnodes := h.nodup hsub' hnd'
  have h1 := h.isQmap map1 (hsub (by simp))
  have h2 := h.isQmap map2 (hsub (by simp))
  have hnewMap := h.isQmap new (hsub (by simp))
  have holdMap := h.isQmap old (hsub (by simp))
  rw [hnew] at hnewMap
  rw [hold] at holdMap
  rw [hflat, hnew, hold] at hnodes
  obtain ⟨s', hdelta, hr⟩ := clQmapDelta_result h1 h2 hnewMap holdMap hnodes
  have h1' := hr.onMap1.items_eq
  have h2' := hr.onMap2.items_eq
  have hnew' := hr.onNew.items_eq
  have hold' := hr.onOld.items_eq
  refine ⟨s', hdelta, h.exchange hsub' hnd' ?_ (fun m hm => ?_) ?_⟩
  · rw [hflat, hnew, hold]
    exact hr.outside
  · simp only [List.mem_cons, List.not_mem_nil, or_false] at hm
    rcases hm with rfl | rfl | rfl | rfl
    · rw [h1']
      exact hr.onMap1
    · rw [hold']
      exact hr.onOld
    · rw [h2']
      exact hr.onMap2
    · rw [hnew']
      exact hr.onNew
  · rw [hflat, hflat, h1', h2', hnew', hold', hnew, hold]
    exact delta_perm ..

/-- **Every legal call** returns, and keeps the maps stored. -/
theorem step (h : Stored s maps) {call : Call (ClQmap ν) ν κ} (hcall : Legal maps s call) :
    ∃ r, qmapStep s call = some r ∧ Stored r.2 maps := by
  obtain ⟨hsub, hnd, hcall⟩ := hcall
  cases call with
  | insert map key item =>
    obtain ⟨r, s', hinsert, h'⟩ := h.insert (hsub (List.mem_singleton_self _)) key hcall
    exact ⟨(some r, s'), by rw [qmapStep, hinsert, Option.map_some], h'⟩
  | find map key | get map key =>
    rcases clQmapGet_spec (h.isQmap map (hsub (List.mem_singleton_self _))) key with ⟨x, -, -, hget⟩ | ⟨-, hget⟩
    · exact ⟨(some x, s), by rw [qmapStep, hget, Option.map_some], h⟩
    · exact ⟨(some map.nil, s), by rw [qmapStep, hget, Option.map_some], h⟩
  | getNext map key =>
    obtain ⟨as, bs, -, -, -, hget⟩ := clQmapGetNext_spec (h.isQmap map (hsub (List.mem_singleton_self _))) key
    exact ⟨(some (bs.headD map.nil), s), by rw [qmapStep, hget, Option.map_some], h⟩
  | remove map key =>
    obtain ⟨r, s', hremove, h'⟩ := h.remove (hsub (List.mem_singleton_self _)) key
    exact ⟨(some r, s'), by rw [qmapStep, hremove, Option.map_some], h'⟩
  | removeItem map item =>
    obtain ⟨s', hremove, h'⟩ := h.removeItem (hsub (List.mem_singleton_self _)) hcall
    exact ⟨(none, s'), by rw [qmapStep, hremove, Option.map_some], h'⟩
  | merge dest src =>
    obtain ⟨s', hmerge, h'⟩ := h.merge hsub hnd
    exact ⟨(none, s'), by rw [qmapStep, hmerge, Option.map_some], h'⟩
  | delta map1 map2 new old =>
    obtain ⟨s', hdelta, h'⟩ := h.delta hsub hnd hcall.1 hcall.2
    exact ⟨(none, s'), by rw [qmapStep, hdelta, Option.map_some], h'⟩

end Stored

/-! ## The maps at the start -/

/-- `cl_qmap_init` of the maps one after another. -/
theorem initAll_isQmap : ∀ (maps done : List (ClQmap ν)) {s : Memory ν κ},
    ((done ++ maps).flatMap fun m => m.nodes []).Nodup → (∀ m ∈ done, IsQmap s m []) →
      ∀ m ∈ done ++ maps, IsQmap (initAll s maps) m []
  | [], done, s, _, hdone, m, hm => hdone m (by simpa using hm)
  | map :: maps, done, s, hnd, hdone, m, hm => by
    have hassoc : done ++ map :: maps = (done ++ [map]) ++ maps := by simp
    rw [hassoc] at hnd hm
    refine initAll_isQmap maps (done ++ [map]) (s := clQmapInit s map) hnd (fun m hm => ?_) m hm
    obtain ⟨hmap, hout⟩ := isQmap_init s map
    rcases List.mem_append.mp hm with hm | hm
    · refine (hdone m hm).outside hout fun x hx hx' => ?_
      rw [List.append_assoc, List.flatMap_append, List.flatMap_append, List.flatMap_singleton] at hnd
      exact List.disjoint_of_nodup_append hnd (List.mem_flatMap.mpr ⟨m, hm, hx⟩) (List.mem_append_left _ hx')
    · rw [List.mem_singleton.mp hm]
      exact hmap

/-- **The maps are stored** after they are initialised. -/
theorem stored_init (s : Memory ν κ) (hnd : (maps.flatMap fun m => m.nodes []).Nodup) :
    Stored (initAll s maps) maps := by
  have hempty : ∀ m ∈ maps, IsQmap (initAll s maps) m [] := initAll_isQmap maps [] hnd nofun
  have hsymm : Std.Symm (Function.onFun List.Disjoint fun m : ClQmap ν => m.nodes []) :=
    ⟨fun _ _ hd => List.disjoint_symm hd⟩
  have hpair := (List.nodup_flatMap.mp hnd).2
  constructor
  · intro m hm
    rw [(hempty m hm).items_eq]
    exact hempty m hm
  · intro m hm m' hm' hne
    rw [(hempty m hm).items_eq, (hempty m' hm').items_eq]
    exact hpair.forall hm hm' hne

end

end MlnxLib.Qmaps
