import MlnxLib.Complib.QmapRemove

/-!
# Merge and delta of quick maps

Model of `cl_qmap_merge` and `cl_qmap_delta`, which walk a map while they move its items to another one.

* `mergeTurn`, `clQmapMerge` — an item whose key is in the destination goes back to the map that is walked.
* `clQmapDeltaMove`, `clQmapDelta` — the merge of two ordered lists, with the cursor taken before the move.
* `common key other l`, `only key other l` — the items whose keys are, and are not, those of other items.
* `move_spec` — an item goes from one map to another.

Principal result: `merge_delta_partition` — both end, all maps are well formed, and each item is in one of them.
-/

set_option autoImplicit false

namespace MlnxLib.Qmaps

variable {ν κ : Type} [DecidableEq ν] [LinearOrder κ]

/-! ## Calls -/

/-- One turn of the loop of `cl_qmap_merge`. -/
def mergeTurn (dest src : ClQmap ν) (s : Memory ν κ) (item : ν) : Option (Memory ν κ) :=
  (clQmapRemoveItem s src item).bind fun s =>
  (clQmapInsert s dest (s.key item) item).bind fun r =>
    if r.1 ≠ item then (clQmapInsert r.2 src (r.2.key item) item).map (·.2) else some r.2

def mergeLoop (dest src : ClQmap ν) : Nat → Memory ν κ → ν → Option (Memory ν κ)
  | 0, _, _ => none
  | fuel + 1, s, item =>
    if item ≠ src.nil then
      (clQmapNext s item).bind fun next => (mergeTurn dest src s item).bind fun s => mergeLoop dest src fuel s next
    else some s

/-- `cl_qmap_merge`. -/
def clQmapMerge (s : Memory ν κ) (dest src : ClQmap ν) : Option (Memory ν κ) :=
  (clQmapHead s src).bind fun item => mergeLoop dest src (s.count src.nil + 1) s item

/-- `__cl_qmap_delta_move`: the item after the one that is moved, and the memory. -/
def clQmapDeltaMove (dest src : ClQmap ν) (s : Memory ν κ) (item : ν) : Option (ν × Memory ν κ) :=
  (clQmapNext s item).bind fun next => (clQmapRemoveItem s src item).bind fun s =>
    (clQmapInsert s dest (s.key item) item).map fun r => (next, r.2)

/-- The loop of `cl_qmap_delta` on both maps. -/
def deltaLoop (map1 map2 new old : ClQmap ν) : Nat → Memory ν κ → ν → ν → Option (Memory ν κ × ν × ν)
  | 0, _, _, _ => none
  | fuel + 1, s, item1, item2 =>
    if item1 ≠ map1.nil ∧ item2 ≠ map2.nil then
      if s.key item1 < s.key item2 then
        (clQmapDeltaMove old map1 s item1).bind fun r => deltaLoop map1 map2 new old fuel r.2 r.1 item2
      else if s.key item2 < s.key item1 then
        (clQmapDeltaMove new map2 s item2).bind fun r => deltaLoop map1 map2 new old fuel r.2 item1 r.1
      else
        (clQmapNext s item1).bind fun next1 => (clQmapNext s item2).bind fun next2 =>
          deltaLoop map1 map2 new old fuel s next1 next2
    else some (s, item1, item2)

/-- The two loops on the remainder. -/
def restLoop (dest src : ClQmap ν) : Nat → Memory ν κ → ν → Option (Memory ν κ)
  | 0, _, _ => none
  | fuel + 1, s, item =>
    if item ≠ src.nil then (clQmapDeltaMove dest src s item).bind fun r => restLoop dest src fuel r.2 r.1
    else some s

/-- `cl_qmap_delta`. -/
def clQmapDelta (s : Memory ν κ) (map1 map2 new old : ClQmap ν) : Option (Memory ν κ) :=
  (clQmapHead s map1).bind fun item1 => (clQmapHead s map2).bind fun item2 =>
  (deltaLoop map1 map2 new old (s.count map1.nil + s.count map2.nil + 1) s item1 item2).bind fun r =>
  (restLoop new map2 (s.count map2.nil + 1) r.1 r.2.2).bind fun s' =>
    restLoop old map1 (s.count map1.nil + 1) s' r.2.1

/-! ## Common keys -/

section Keys

/-- The items whose keys are keys of other items. -/
def common (key : ν → κ) (other items : List ν) : List ν := items.filter fun x => key x ∈ other.map key

/-- The items whose keys are not keys of other items. -/
def only (key : ν → κ) (other items : List ν) : List ν := items.filter fun x => key x ∉ other.map key

variable {key : ν → κ} {other items : List ν} {x : ν}

omit [DecidableEq ν] in
theorem only_sublist : (only key other items).Sublist items := List.filter_sublist

omit [DecidableEq ν] in
/-- **No item is lost or duplicated.** -/
theorem common_only_perm (key : ν → κ) (other items : List ν) :
    (common key other items ++ only key other items).Perm items := by
  have hperm := List.filter_append_perm (fun x => decide (key x ∈ other.map key)) items
  simpa only [common, only, decide_not] using hperm

omit [DecidableEq ν] in
theorem common_concat_of_mem (items : List ν) (hx : key x ∈ other.map key) :
    common key other (items ++ [x]) = common key other items ++ [x] ∧
      only key other (items ++ [x]) = only key other items := by
  unfold common only
  rw [List.filter_append, List.filter_append]
  simp only [List.filter_cons, List.filter_nil, hx, decide_true, if_true, not_true, decide_false]
  simp

omit [DecidableEq ν] in
theorem common_concat_of_not_mem (items : List ν) (hx : key x ∉ other.map key) :
    common key other (items ++ [x]) = common key other items ∧
      only key other (items ++ [x]) = only key other items ++ [x] := by
  unfold common only
  rw [List.filter_append, List.filter_append]
  simp only [List.filter_cons, List.filter_nil, hx, decide_false, not_false_eq_true, decide_true, if_true]
  simp

end Keys

/-! ## Moves -/

section Move

variable {s : Memory ν κ} {dest src : ClQmap ν} {ds as bs : List ν} {x : ν}

/-- **An item goes to another map**, unless its key is there. -/
theorem move_spec (hdest : IsQmap s dest ds) (hsrc : IsQmap s src (as ++ x :: bs))
    (hnd : (dest.nodes ds ++ src.nodes (as ++ x :: bs)).Nodup) :
    ∃ s₁ r s₂, clQmapRemoveItem s src x = some s₁ ∧ clQmapInsert s₁ dest (s₁.key x) x = some (r, s₂) ∧
      s₂.key = s.key ∧ IsQmap s₂ src (as ++ bs) ∧
      Outside s s₂ (dest.nodes ds ++ src.nodes (as ++ x :: bs)) ∧ Placed s s₂ dest ds (s.key x) x r := by
  have hdisj := List.disjoint_of_nodup_append hnd
  obtain ⟨s₁, hremove, hsrc₁, hkey₁, hout₁⟩ := clQmapRemoveItem_spec hsrc
  have hx : x ∉ dest.nodes ds := fun hm => hdisj hm (by simp [ClQmap.nodes])
  obtain ⟨r, s₂, hinsert, hkey₂, hout₂, hplaced⟩ := clQmapInsert_spec (hdest.outside hout₁ hdisj) (s₁.key x) hx
  have hrest : (src.nodes (as ++ bs)).Disjoint (dest.nodes (x :: ds)) := by
    have hsrcNd := hsrc.nodup
    have hfresh : (x :: src.nodes (as ++ bs)).Nodup := by
      refine List.Perm.nodup ?_ hsrcNd
      rw [List.perm_iff_count]
      intro z
      simp only [ClQmap.nodes, List.count_cons, List.count_append]
      omega
    intro z hz hz'
    have hzx : z ≠ x := fun he => (List.nodup_cons.mp hfresh).1 (he ▸ hz)
    refine hdisj (a := z) ?_ ?_
    · simp only [ClQmap.nodes, List.mem_cons] at hz' ⊢
      tauto
    · simp only [ClQmap.nodes, List.mem_cons, List.mem_append] at hz ⊢
      tauto
  rw [Function.update_eq_self, hkey₁] at hkey₂
  refine ⟨s₁, r, s₂, hremove, hinsert, hkey₂, hsrc₁.outside hout₂ hrest,
    (hout₁.mono ?_).trans (hout₂.mono ?_), ?_⟩
  · exact List.subset_append_right ..
  · intro z hz
    simp only [ClQmap.nodes, List.mem_cons, List.mem_append] at hz ⊢
    tauto
  · unfold Placed at hplaced ⊢
    rw [hkey₁] at hplaced
    exact hplaced

end Move

/-! ## Merge -/

section Merge

variable {s : Memory ν κ} {dest src : ClQmap ν} {ds ss kept rest : List ν} {x : ν}

omit [DecidableEq ν] [LinearOrder κ] in
theorem split_eq {P : ν → Prop} [DecidablePred P] {as bs cs es : List ν} (h : as ++ bs = cs ++ es)
    (has : ∀ x ∈ as, P x) (hbs : ∀ x ∈ bs, ¬P x) (hcs : ∀ x ∈ cs, P x) (hes : ∀ x ∈ es, ¬P x) :
    as = cs ∧ bs = es := by
  have hfilter : ∀ {l m : List ν}, (∀ x ∈ l, P x) → (∀ x ∈ m, ¬P x) → (l ++ m).filter (fun x => P x) = l := by
    intro l m hl hm
    rw [List.filter_append, List.filter_eq_self.mpr fun x hx => decide_eq_true (hl x hx),
      List.filter_eq_nil_iff.mpr fun x hx => by simpa using hm x hx, List.append_nil]
  have hleft : as = cs := by
    rw [← hfilter has hbs, h, hfilter hcs hes]
  subst hleft
  exact ⟨rfl, List.append_cancel_left h⟩

/-- **A turn of the merge**: an item whose key is in the destination is back in its place. -/
theorem mergeTurn_spec (hdest : IsQmap s dest ds) (hsrc : IsQmap s src (kept ++ x :: rest))
    (hnd : (dest.nodes ds ++ src.nodes (kept ++ x :: rest)).Nodup) :
    ∃ s', mergeTurn dest src s x = some s' ∧ s'.key = s.key ∧
      Outside s s' (dest.nodes ds ++ src.nodes (kept ++ x :: rest)) ∧
      ((s.key x ∈ ds.map s.key ∧ IsQmap s' dest ds ∧ IsQmap s' src (kept ++ x :: rest)) ∨
        (s.key x ∉ ds.map s.key ∧ ∃ ds', ds'.Perm (ds ++ [x]) ∧ IsQmap s' dest ds' ∧
          IsQmap s' src (kept ++ rest))) := by
  have hdisj := List.disjoint_of_nodup_append hnd
  have hxds : x ∉ ds := fun hm => hdisj (a := x) (by simp [ClQmap.nodes, hm]) (by simp [ClQmap.nodes])
  obtain ⟨s₁, r, s₂, hremove, hinsert, hkey, hsrc₂, hout, hplaced⟩ := move_spec hdest hsrc hnd
  unfold mergeTurn
  rw [hremove, Option.bind_some, hinsert, Option.bind_some]
  dsimp only
  rcases hplaced with ⟨hr, hrkey, hdest₂⟩ | ⟨rfl, cs, es, rfl, hcs, hes, hdest₂⟩
  · -- the item goes back
    have hrx : r ≠ x := fun he => hxds (he ▸ hr)
    have hsorted := hsrc.sorted
    rw [List.pairwise_append, List.pairwise_cons] at hsorted
    obtain ⟨-, ⟨hrest, -⟩, hkept⟩ := hsorted
    have hfresh : (x :: src.nodes (kept ++ rest)).Nodup := by
      refine List.Perm.nodup ?_ hsrc.nodup
      rw [List.perm_iff_count]
      intro z
      simp only [ClQmap.nodes, List.count_cons, List.count_append]
      omega
    obtain ⟨r', s₃, hback, hkey₃, hout₃, hplaced₃⟩ :=
      clQmapInsert_spec hsrc₂ (s₂.key x) (List.nodup_cons.mp hfresh).1
    rw [Function.update_eq_self] at hkey₃
    have hdest₃ : IsQmap s₃ dest ds := by
      refine hdest₂.outside hout₃ fun z hz hz' => hdisj hz ?_
      simp only [ClQmap.nodes, List.mem_cons, List.mem_append] at hz' ⊢
      tauto
    rw [if_pos hrx, hback, Option.map_some]
    refine ⟨s₃, rfl, hkey₃.trans hkey, hout.trans (hout₃.mono ?_), Or.inl ⟨?_, hdest₃, ?_⟩⟩
    · intro z hz
      simp only [ClQmap.nodes, List.mem_cons, List.mem_append] at hz ⊢
      tauto
    · rw [← hrkey]
      exact List.mem_map_of_mem hr
    · rw [hkey] at hplaced₃
      have hne : ∀ z ∈ kept ++ rest, s.key z ≠ s.key x := by
        intro z hz
        rcases List.mem_append.mp hz with hz | hz
        · exact ne_of_lt (hkept z hz x (List.mem_cons_self ..))
        · exact ne_of_gt (hrest z hz)
      rcases hplaced₃ with ⟨hr', hrkey', -⟩ | ⟨-, as, bs, hsplit, has, hbs, hmap⟩
      · rw [hkey] at hrkey'
        exact absurd hrkey' (hne r' hr')
      · rw [hkey] at has hbs
        obtain ⟨rfl, rfl⟩ := split_eq (P := fun z => s.key z < s.key x) hsplit
          (fun z hz => hkept z hz x (List.mem_cons_self ..)) (fun z hz => not_lt.mpr (hrest z hz).le) has
          fun z hz => not_lt.mpr (hbs z hz).le
        exact hmap
  · rw [if_neg (not_not.mpr rfl)]
    refine ⟨s₂, rfl, hkey, hout, Or.inr ⟨?_, _, ?_, hdest₂, hsrc₂⟩⟩
    · rw [List.mem_map]
      rintro ⟨z, hz, hzr⟩
      rcases List.mem_append.mp hz with hz | hz
      · exact ne_of_lt (hcs z hz) hzr
      · exact ne_of_gt (hes z hz) hzr
    · rw [List.perm_iff_count]
      intro z
      simp only [List.count_cons, List.count_append, List.count_nil]
      omega

/-- **The loop of the merge**, with the items that it has seen and those to come. -/
theorem mergeLoop_spec {key : ν → κ} : ∀ (seen rest : List ν) {s : Memory ν κ} {ds₁ : List ν} {fuel : Nat},
    rest.length < fuel → s.key = key → (dest.nodes ds ++ src.nodes (seen ++ rest)).Nodup →
    (seen ++ rest).Pairwise (fun x y => key x < key y) → ds₁.Perm (ds ++ only key ds seen) → IsQmap s dest ds₁ →
    IsQmap s src (common key ds seen ++ rest) →
    ∃ s' ds', mergeLoop dest src fuel s (rest.headD src.nil) = some s' ∧ s'.key = key ∧
      Outside s s' (dest.nodes ds ++ src.nodes (seen ++ rest)) ∧
      ds'.Perm (ds ++ only key ds (seen ++ rest)) ∧ IsQmap s' dest ds' ∧ IsQmap s' src (common key ds (seen ++ rest))
  | _, _, _, _, 0, hfuel, _, _, _, _, _, _ => absurd hfuel (Nat.not_lt_zero _)
  | seen, [], s, ds₁, fuel + 1, _, hkey, _, _, hperm, hdest, hsrc => by
    rw [List.append_nil] at *
    refine ⟨s, ds₁, ?_, hkey, .refl s _, hperm, hdest, hsrc⟩
    rw [List.headD_nil, mergeLoop, if_neg (not_not.mpr rfl)]
  | seen, x :: rest, s, ds₁, fuel + 1, hfuel, hkey, hnd, hsorted, hperm, hdest, hsrc => by
    have hnodes : (dest.nodes ds₁ ++ src.nodes (common key ds seen ++ x :: rest)).Perm
        (dest.nodes ds ++ src.nodes (seen ++ x :: rest)) := by
      rw [List.perm_iff_count]
      intro z
      have hds := hperm.count_eq z
      have hseen := (common_only_perm key ds seen).count_eq z
      simp only [ClQmap.nodes, List.count_cons, List.count_append] at hds hseen ⊢
      omega
    have hx : x ≠ src.nil := by
      rintro rfl
      exact (List.nodup_cons.mp hsrc.nodup).1 (by simp)
    have hnext := (hsrc.links rfl).1
    obtain ⟨s₁, hturn, hkey₁, hout, hmaps⟩ := mergeTurn_spec hdest hsrc (hnodes.nodup_iff.mpr hnd)
    have hout₁ : Outside s s₁ (dest.nodes ds ++ src.nodes (seen ++ x :: rest)) := hout.mono hnodes.subset
    -- no item that was seen has the key
    have hseen : s.key x ∈ ds₁.map s.key ↔ key x ∈ ds.map key := by
      rw [hkey, (hperm.map key).mem_iff, List.map_append, List.mem_append, or_iff_left]
      intro hm
      obtain ⟨y, hy, hyx⟩ := List.mem_map.mp hm
      rw [List.pairwise_append] at hsorted
      exact ne_of_lt (hsorted.2.2 y (only_sublist.subset hy) x (List.mem_cons_self ..)) hyx
    have hassoc : seen ++ x :: rest = (seen ++ [x]) ++ rest := by simp
    have hfuel' : rest.length < fuel := Nat.lt_of_succ_lt_succ hfuel
    rw [hassoc] at hnd hsorted hout₁ ⊢
    rw [List.headD_cons, mergeLoop, if_pos hx, hnext, Option.bind_some, hturn, Option.bind_some]
    suffices hrec : ∃ ds₂ : List ν, ds₂.Perm (ds ++ only key ds (seen ++ [x])) ∧ IsQmap s₁ dest ds₂ ∧
        IsQmap s₁ src (common key ds (seen ++ [x]) ++ rest) by
      obtain ⟨ds₂, hperm₂, hdest₂, hsrc₂⟩ := hrec
      obtain ⟨s', ds', hloop, hkey', hout', hmaps'⟩ :=
        mergeLoop_spec (seen ++ [x]) rest hfuel' (hkey₁.trans hkey) hnd hsorted hperm₂ hdest₂ hsrc₂
      exact ⟨s', ds', hloop, hkey', hout₁.trans hout', hmaps'⟩
    rcases hmaps with ⟨hin, hdest₁, hsrc₁⟩ | ⟨hnotin, ds₂, hds₂, hdest₁, hsrc₁⟩
    · obtain ⟨hcommon, honly⟩ := common_concat_of_mem seen (hseen.mp hin)
      rw [hcommon, honly, List.append_assoc]
      exact ⟨ds₁, hperm, hdest₁, hsrc₁⟩
    · obtain ⟨hcommon, honly⟩ := common_concat_of_not_mem seen (mt hseen.mpr hnotin)
      rw [hcommon, honly, ← List.append_assoc]
      exact ⟨ds₂, hds₂.trans (hperm.append_right [x]), hdest₁, hsrc₁⟩

/-- **`cl_qmap_merge`**: the destination gets the items whose keys it has not, and the others stay. -/
theorem clQmapMerge_spec (hdest : IsQmap s dest ds) (hsrc : IsQmap s src ss)
    (hnd : (dest.nodes ds ++ src.nodes ss).Nodup) :
    ∃ s' ds', clQmapMerge s dest src = some s' ∧ s'.key = s.key ∧ Outside s s' (dest.nodes ds ++ src.nodes ss) ∧
      ds'.Perm (ds ++ only s.key ds ss) ∧ IsQmap s' dest ds' ∧ IsQmap s' src (common s.key ds ss) := by
  have hempty : ds.Perm (ds ++ only s.key ds []) := by
    rw [only, List.filter_nil, List.append_nil]
  have hfuel : ss.length < s.count src.nil + 1 := by
    rw [hsrc.count]
    exact Nat.lt_succ_self _
  rw [clQmapMerge, hsrc.head, Option.bind_some]
  exact mergeLoop_spec [] ss hfuel rfl hnd hsrc.sorted hempty hdest hsrc

end Merge

/-! ## Delta -/

section Delta

variable {key : ν → κ} {s s' : Memory ν κ} {map dest map1 map2 new old : ClQmap ν}
  {other items done rest items1 items2 done1 rest1 done2 rest2 : List ν} {x : ν}

/-- **A map and the one that its items go to**, after some of the items: those that have common keys stay. -/
structure Moving (key : ν → κ) (map dest : ClQmap ν) (other items : List ν) (s : Memory ν κ) (done rest : List ν) :
    Prop where
  split : items = done ++ rest
  key_eq : s.key = key
  map : IsQmap s map (common key other done ++ rest)
  dest : IsQmap s dest (only key other done)

/-- Two maps that are stored apart. -/
structure Apart (key : ν → κ) (map dest : ClQmap ν) (items : List ν) : Prop where
  nodup : (map.nodes items ++ dest.nodes []).Nodup
  sorted : items.Pairwise fun x y => key x < key y

namespace Moving

/-- The nodes of both maps are always the same. -/
theorem nodes_perm (h : Moving key map dest other items s done rest) :
    (dest.nodes (only key other done) ++ map.nodes (common key other done ++ rest)).Perm
      (map.nodes items ++ dest.nodes []) := by
  rw [h.split, List.perm_iff_count]
  intro z
  have hdone := (common_only_perm key other done).count_eq z
  simp only [ClQmap.nodes, List.count_cons, List.count_append, List.count_nil] at hdone ⊢
  omega

theorem frame {S : List ν} (h : Moving key map dest other items s done rest) (hout : Outside s s' S)
    (hdisj : (map.nodes items ++ dest.nodes []).Disjoint S) (hkey : s'.key = s.key) :
    Moving key map dest other items s' done rest := by
  have hnodes := h.nodes_perm
  refine ⟨h.split, hkey.trans h.key_eq, h.map.outside hout fun z hz => ?_, h.dest.outside hout fun z hz => ?_⟩
  · exact hdisj (hnodes.mem_iff.mp (List.mem_append_right _ hz))
  · exact hdisj (hnodes.mem_iff.mp (List.mem_append_left _ hz))

omit [DecidableEq ν] in
/-- An item whose key is common stays. -/
theorem skip (h : Moving key map dest other items s done (x :: rest)) (hx : key x ∈ other.map key) :
    Moving key map dest other items s (done ++ [x]) rest := by
  obtain ⟨hcommon, honly⟩ := common_concat_of_mem done hx
  refine ⟨by rw [h.split]; simp, h.key_eq, ?_, ?_⟩
  · rw [hcommon, List.append_assoc]
    exact h.map
  · rw [honly]
    exact h.dest

/-- **`__cl_qmap_delta_move`** of an item whose key is not common. -/
theorem move (h : Moving key map dest other items s done (x :: rest)) (ha : Apart key map dest items)
    (hx : key x ∉ other.map key) :
    ∃ s', clQmapDeltaMove dest map s x = some (rest.headD map.nil, s') ∧
      Moving key map dest other items s' (done ++ [x]) rest ∧ Outside s s' (map.nodes items ++ dest.nodes []) := by
  have hnodes := h.nodes_perm
  obtain ⟨s₁, r, s₂, hremove, hinsert, hkey, hmap, hout, hplaced⟩ :=
    move_spec h.dest h.map (hnodes.nodup_iff.mpr ha.nodup)
  have hsorted := ha.sorted
  rw [h.split, List.pairwise_append] at hsorted
  have hbefore : ∀ y ∈ only key other done, key y < key x := fun y hy =>
    hsorted.2.2 y (only_sublist.subset hy) x (List.mem_cons_self ..)
  obtain ⟨hcommon, honly⟩ := common_concat_of_not_mem done hx
  have hdest : IsQmap s₂ dest (only key other done ++ [x]) := by
    rw [h.key_eq] at hplaced
    unfold Placed at hplaced
    rw [h.key_eq] at hplaced
    rcases hplaced with ⟨hr, hrkey, -⟩ | ⟨-, cs, es, hsplit, -, hes, hdest⟩
    · exact absurd hrkey (ne_of_lt (hbefore r hr))
    · -- its key is the greatest
      have hes' : es = [] := by
        refine List.eq_nil_iff_forall_not_mem.mpr fun y hy => ?_
        exact lt_asymm (hes y hy) (hbefore y (hsplit ▸ List.mem_append_right _ hy))
      subst hes'
      rw [hsplit, List.append_nil]
      exact hdest
  refine ⟨s₂, ?_, ⟨by rw [h.split]; simp, hkey.trans h.key_eq, ?_, ?_⟩, hout.mono hnodes.subset⟩
  · rw [clQmapDeltaMove, (h.map.links rfl).1, Option.bind_some, hremove, Option.bind_some, hinsert, Option.map_some]
  · rw [hcommon]
    exact hmap
  · rw [honly]
    exact hdest

omit [DecidableEq ν] in
theorem ne_nil (h : Moving key map dest other items s done (x :: rest)) : x ≠ map.nil := by
  rintro rfl
  exact (List.nodup_cons.mp h.map.nodup).1 (by simp)

/-- **The loop on the remainder.** -/
theorem restLoop : ∀ (rest : List ν) {s : Memory ν κ} {done : List ν} {fuel : Nat}, rest.length < fuel →
    Moving key map dest other items s done rest → Apart key map dest items → (∀ x ∈ rest, key x ∉ other.map key) →
    ∃ s', restLoop dest map fuel s (rest.headD map.nil) = some s' ∧ Moving key map dest other items s' items [] ∧
      Outside s s' (map.nodes items ++ dest.nodes [])
  | _, _, _, 0, hfuel, _, _, _ => absurd hfuel (Nat.not_lt_zero _)
  | [], s, done, fuel + 1, _, h, _, _ => by
    have hdone : items = done := h.split.trans (List.append_nil done)
    subst hdone
    exact ⟨s, by rw [List.headD_nil, Qmaps.restLoop, if_neg (not_not.mpr rfl)], h, .refl s _⟩
  | x :: rest, s, done, fuel + 1, hfuel, h, ha, hrest => by
    obtain ⟨s₁, hmove, h₁, hout₁⟩ := h.move ha (hrest x (List.mem_cons_self ..))
    obtain ⟨s', hloop, h', hout'⟩ := restLoop rest (Nat.lt_of_succ_lt_succ hfuel) h₁ ha fun y hy =>
      hrest y (List.mem_cons_of_mem _ hy)
    refine ⟨s', ?_, h', hout₁.trans hout'⟩
    rw [List.headD_cons, Qmaps.restLoop, if_pos h.ne_nil, hmove, Option.bind_some]
    exact hloop

end Moving

omit [DecidableEq ν] in
/-- A key between the items that were seen and those to come is not there. -/
theorem key_not_mem {k : κ} (hsplit : items = done ++ rest) (hdone : ∀ y ∈ done, key y < k)
    (hrest : ∀ y ∈ rest, k < key y) : k ∉ items.map key := by
  rw [hsplit, List.mem_map]
  rintro ⟨y, hy, rfl⟩
  rcases List.mem_append.mp hy with hy | hy
  · exact lt_irrefl _ (hdone y hy)
  · exact lt_irrefl _ (hrest y hy)

omit [DecidableEq ν] in
theorem Apart.later (ha : Apart key map dest items) (hsplit : items = done ++ x :: rest) :
    ∀ y ∈ rest, key x < key y := by
  have hsorted := ha.sorted
  rw [hsplit, List.pairwise_append, List.pairwise_cons] at hsorted
  exact hsorted.2.1.1

omit [DecidableEq ν] in
/-- The first item to come has the least key of them. -/
theorem Apart.first (ha : Apart key map dest items) (hsplit : items = done ++ x :: rest) {k : κ} (hk : k < key x) :
    ∀ y ∈ x :: rest, k < key y := by
  intro y hy
  rcases List.mem_cons.mp hy with rfl | hy
  · exact hk
  · exact lt_trans hk (ha.later hsplit y hy)

omit [DecidableEq ν] in
/-- One more item that was seen. -/
theorem ahead_concat (hdone : ∀ y ∈ done, ∀ z ∈ rest, key y < key z) (hx : ∀ z ∈ rest, key x < key z) :
    ∀ y ∈ done ++ [x], ∀ z ∈ rest, key y < key z := by
  intro y hy
  rcases List.mem_append.mp hy with hy | hy
  · exact hdone y hy
  · rw [List.mem_singleton.mp hy]
    exact hx

/-- **The loop on both maps**: what is left of each has no common key. -/
theorem deltaLoop_spec (ha1 : Apart key map1 old items1) (ha2 : Apart key map2 new items2)
    (hdisj : (map1.nodes items1 ++ old.nodes []).Disjoint (map2.nodes items2 ++ new.nodes [])) :
    ∀ (fuel : Nat) {s : Memory ν κ} {done1 rest1 done2 rest2 : List ν}, rest1.length + rest2.length < fuel →
    Moving key map1 old items2 items1 s done1 rest1 → Moving key map2 new items1 items2 s done2 rest2 →
    (∀ x ∈ done1, ∀ y ∈ rest2, key x < key y) → (∀ y ∈ done2, ∀ x ∈ rest1, key y < key x) →
    ∃ s' done1' rest1' done2' rest2',
      deltaLoop map1 map2 new old fuel s (rest1.headD map1.nil) (rest2.headD map2.nil) =
        some (s', rest1'.headD map1.nil, rest2'.headD map2.nil) ∧
      Moving key map1 old items2 items1 s' done1' rest1' ∧ Moving key map2 new items1 items2 s' done2' rest2' ∧
      (∀ x ∈ rest1', key x ∉ items2.map key) ∧ (∀ y ∈ rest2', key y ∉ items1.map key) ∧
      Outside s s' ((map1.nodes items1 ++ old.nodes []) ++ (map2.nodes items2 ++ new.nodes []))
  | 0, _, _, _, _, _, hfuel, _, _, _, _ => absurd hfuel (Nat.not_lt_zero _)
  | fuel + 1, s, done1, [], done2, rest2, _, h1, h2, hahead1, _ => by
    refine ⟨s, done1, [], done2, rest2, ?_, h1, h2, nofun, fun y hy => ?_, .refl s _⟩
    · rw [deltaLoop, List.headD_nil, if_neg (fun he => he.1 rfl)]
    · exact key_not_mem h1.split (fun x hx => hahead1 x hx y hy) nofun
  | fuel + 1, s, done1, x :: rest1, done2, [], _, h1, h2, _, hahead2 => by
    refine ⟨s, done1, x :: rest1, done2, [], ?_, h1, h2, fun z hz => ?_, nofun, .refl s _⟩
    · rw [deltaLoop, List.headD_nil, if_neg (fun he => he.2 rfl)]
    · exact key_not_mem h2.split (fun y hy => hahead2 y hy z hz) nofun
  | fuel + 1, s, done1, x :: rest1, done2, y :: rest2, hfuel, h1, h2, hahead1, hahead2 => by
    rw [List.length_cons, List.length_cons] at hfuel
    have hgo : x ≠ map1.nil ∧ y ≠ map2.nil := ⟨h1.ne_nil, h2.ne_nil⟩
    rw [List.headD_cons, List.headD_cons, deltaLoop, if_pos hgo, h1.key_eq]
    by_cases hlt : key x < key y
    · -- an old item
      rw [if_pos hlt]
      have hx := key_not_mem h2.split (fun z hz => hahead2 z hz x (List.mem_cons_self ..)) (ha2.first h2.split hlt)
      obtain ⟨s₁, hmove, h1', hout⟩ := h1.move ha1 hx
      have hkey : s₁.key = s.key := h1'.key_eq.trans h1.key_eq.symm
      have h2' := h2.frame hout (List.disjoint_comm.mp hdisj) hkey
      obtain ⟨s', done1', rest1', done2', rest2', hloop, h1'', h2'', hrest1, hrest2, hout'⟩ :=
        deltaLoop_spec ha1 ha2 hdisj fuel (by rw [List.length_cons]; omega) h1' h2'
          (ahead_concat hahead1 (ha2.first h2.split hlt)) fun z hz w hw => hahead2 z hz w (List.mem_cons_of_mem _ hw)
      refine ⟨s', done1', rest1', done2', rest2', ?_, h1'', h2'', hrest1, hrest2,
        (hout.mono (List.subset_append_left ..)).trans hout'⟩
      rw [hmove, Option.bind_some]
      exact hloop
    rw [if_neg hlt]
    by_cases hgt : key y < key x
    · -- a new item
      rw [if_pos hgt]
      have hy := key_not_mem h1.split (fun z hz => hahead1 z hz y (List.mem_cons_self ..)) (ha1.first h1.split hgt)
      obtain ⟨s₁, hmove, h2', hout⟩ := h2.move ha2 hy
      have hkey : s₁.key = s.key := h2'.key_eq.trans h2.key_eq.symm
      have h1' := h1.frame hout hdisj hkey
      obtain ⟨s', done1', rest1', done2', rest2', hloop, h1'', h2'', hrest1, hrest2, hout'⟩ :=
        deltaLoop_spec ha1 ha2 hdisj fuel (by rw [List.length_cons]; omega) h1' h2'
          (fun z hz w hw => hahead1 z hz w (List.mem_cons_of_mem _ hw)) (ahead_concat hahead2 (ha1.first h1.split hgt))
      refine ⟨s', done1', rest1', done2', rest2', ?_, h1'', h2'', hrest1, hrest2,
        (hout.mono (List.subset_append_right ..)).trans hout'⟩
      rw [hmove, Option.bind_some]
      exact hloop
    rw [if_neg hgt]
    -- the keys are the same
    have heq : key x = key y := le_antisymm (not_lt.mp hgt) (not_lt.mp hlt)
    have hx : key x ∈ items2.map key := by
      rw [heq, h2.split]
      exact List.mem_map_of_mem (by simp)
    have hy : key y ∈ items1.map key := by
      rw [← heq, h1.split]
      exact List.mem_map_of_mem (by simp)
    have hahead1' : ∀ z ∈ done1 ++ [x], ∀ w ∈ rest2, key z < key w :=
      ahead_concat (fun z hz w hw => hahead1 z hz w (List.mem_cons_of_mem _ hw)) (heq ▸ ha2.later h2.split)
    have hahead2' : ∀ z ∈ done2 ++ [y], ∀ w ∈ rest1, key z < key w :=
      ahead_concat (fun z hz w hw => hahead2 z hz w (List.mem_cons_of_mem _ hw)) (heq ▸ ha1.later h1.split)
    obtain ⟨s', done1', rest1', done2', rest2', hloop, hend⟩ :=
      deltaLoop_spec ha1 ha2 hdisj fuel (by omega) (h1.skip hx) (h2.skip hy) hahead1' hahead2'
    refine ⟨s', done1', rest1', done2', rest2', ?_, hend⟩
    rw [(h1.map.links rfl).1, Option.bind_some, (h2.map.links rfl).1, Option.bind_some]
    exact hloop

/-- **`cl_qmap_delta`**: the items whose keys are not common are moved. -/
theorem clQmapDelta_spec (h1 : IsQmap s map1 items1) (h2 : IsQmap s map2 items2) (hnew : IsQmap s new [])
    (hold : IsQmap s old [])
    (hnd : ((map1.nodes items1 ++ old.nodes []) ++ (map2.nodes items2 ++ new.nodes [])).Nodup) :
    ∃ s', clQmapDelta s map1 map2 new old = some s' ∧ s'.key = s.key ∧
      IsQmap s' map1 (common s.key items2 items1) ∧ IsQmap s' old (only s.key items2 items1) ∧
      IsQmap s' map2 (common s.key items1 items2) ∧ IsQmap s' new (only s.key items1 items2) ∧
      Outside s s' ((map1.nodes items1 ++ old.nodes []) ++ (map2.nodes items2 ++ new.nodes [])) := by
  obtain ⟨hnd1, hnd2, hdisj⟩ := List.nodup_append'.mp hnd
  have ha1 : Apart s.key map1 old items1 := ⟨hnd1, h1.sorted⟩
  have ha2 : Apart s.key map2 new items2 := ⟨hnd2, h2.sorted⟩
  have hm1 : Moving s.key map1 old items2 items1 s [] items1 := ⟨rfl, rfl, h1, hold⟩
  have hm2 : Moving s.key map2 new items1 items2 s [] items2 := ⟨rfl, rfl, h2, hnew⟩
  have hlen : items1.length + items2.length < s.count map1.nil + s.count map2.nil + 1 := by
    rw [h1.count, h2.count]
    exact Nat.lt_succ_self _
  obtain ⟨s₁, done1, rest1, done2, rest2, hloop, hm1', hm2', hrest1, hrest2, hout₁⟩ :=
    deltaLoop_spec ha1 ha2 hdisj _ hlen hm1 hm2 nofun nofun
  have hlen2 : rest2.length < s.count map2.nil + 1 := by
    rw [h2.count, hm2'.split, List.length_append]
    omega
  obtain ⟨s₂, hrun2, hend2, hout₂⟩ := hm2'.restLoop rest2 hlen2 ha2 hrest2
  have hm1'' := hm1'.frame hout₂ hdisj (hend2.key_eq.trans hm2'.key_eq.symm)
  have hlen1 : rest1.length < s.count map1.nil + 1 := by
    rw [h1.count, hm1'.split, List.length_append]
    omega
  obtain ⟨s₃, hrun1, hend1, hout₃⟩ := hm1''.restLoop rest1 hlen1 ha1 hrest1
  have hend2' := hend2.frame hout₃ (List.disjoint_comm.mp hdisj) (hend1.key_eq.trans hend2.key_eq.symm)
  have hmap1 := hend1.map
  have hmap2 := hend2'.map
  rw [List.append_nil] at hmap1 hmap2
  refine ⟨s₃, ?_, hend1.key_eq, hmap1, hend1.dest, hmap2, hend2'.dest,
    (hout₁.trans (hout₂.mono (List.subset_append_right ..))).trans (hout₃.mono (List.subset_append_left ..))⟩
  rw [clQmapDelta, h1.head, Option.bind_some, h2.head, Option.bind_some, hloop, Option.bind_some, hrun2,
    Option.bind_some]
  exact hrun1

end Delta

/-! ## Partition -/

section Partition

/-- **What a merge leaves.** -/
structure MergeResult (s s' : Memory ν κ) (dest src : ClQmap ν) (ds ss ds' : List ν) : Prop where
  onDest : IsQmap s' dest ds'
  onSrc : IsQmap s' src (common s.key ds ss)
  moved : ds'.Perm (ds ++ only s.key ds ss)
  apart : (dest.nodes ds' ++ src.nodes (common s.key ds ss)).Nodup
  key_eq : s'.key = s.key
  outside : Outside s s' (dest.nodes ds ++ src.nodes ss)

/-- **What a delta leaves.** -/
structure DeltaResult (s s' : Memory ν κ) (map1 map2 new old : ClQmap ν) (items1 items2 : List ν) : Prop where
  onMap1 : IsQmap s' map1 (common s.key items2 items1)
  onMap2 : IsQmap s' map2 (common s.key items1 items2)
  onOld : IsQmap s' old (only s.key items2 items1)
  onNew : IsQmap s' new (only s.key items1 items2)
  kept1 : (common s.key items2 items1 ++ only s.key items2 items1).Perm items1
  kept2 : (common s.key items1 items2 ++ only s.key items1 items2).Perm items2
  apart : ((map1.nodes (common s.key items2 items1) ++ old.nodes (only s.key items2 items1)) ++
    (map2.nodes (common s.key items1 items2) ++ new.nodes (only s.key items1 items2))).Nodup
  key_eq : s'.key = s.key
  outside : Outside s s' ((map1.nodes items1 ++ old.nodes []) ++ (map2.nodes items2 ++ new.nodes []))

/-- The nodes after a merge are those before it. -/
theorem merge_perm {key : ν → κ} {dest src : ClQmap ν} {ds ss ds' : List ν}
    (hmoved : ds'.Perm (ds ++ only key ds ss)) :
    (dest.nodes ds' ++ src.nodes (common key ds ss)).Perm (dest.nodes ds ++ src.nodes ss) := by
  rw [List.perm_iff_count]
  intro z
  have hds := hmoved.count_eq z
  have hss := (common_only_perm key ds ss).count_eq z
  simp only [ClQmap.nodes, List.count_cons, List.count_append] at hds hss ⊢
  omega

/-- The nodes after a delta are those before it. -/
theorem delta_perm (key : ν → κ) (map1 map2 new old : ClQmap ν) (items1 items2 : List ν) :
    ((map1.nodes (common key items2 items1) ++ old.nodes (only key items2 items1)) ++
      (map2.nodes (common key items1 items2) ++ new.nodes (only key items1 items2))).Perm
      ((map1.nodes items1 ++ old.nodes []) ++ (map2.nodes items2 ++ new.nodes [])) := by
  rw [List.perm_iff_count]
  intro z
  have hitems1 := (common_only_perm key items2 items1).count_eq z
  have hitems2 := (common_only_perm key items1 items2).count_eq z
  simp only [ClQmap.nodes, List.count_cons, List.count_append, List.count_nil] at hitems1 hitems2 ⊢
  omega

theorem clQmapMerge_result {s : Memory ν κ} {dest src : ClQmap ν} {ds ss : List ν} (hdest : IsQmap s dest ds)
    (hsrc : IsQmap s src ss) (hnd : (dest.nodes ds ++ src.nodes ss).Nodup) :
    ∃ s' ds', clQmapMerge s dest src = some s' ∧ MergeResult s s' dest src ds ss ds' := by
  obtain ⟨s', ds', hmerge, hkey, hout, hperm, hdest', hsrc'⟩ := clQmapMerge_spec hdest hsrc hnd
  exact ⟨s', ds', hmerge, hdest', hsrc', hperm, (merge_perm hperm).symm.nodup hnd, hkey, hout⟩

theorem clQmapDelta_result {s : Memory ν κ} {map1 map2 new old : ClQmap ν} {items1 items2 : List ν}
    (h1 : IsQmap s map1 items1) (h2 : IsQmap s map2 items2) (hnew : IsQmap s new []) (hold : IsQmap s old [])
    (hnd : ((map1.nodes items1 ++ old.nodes []) ++ (map2.nodes items2 ++ new.nodes [])).Nodup) :
    ∃ s', clQmapDelta s map1 map2 new old = some s' ∧ DeltaResult s s' map1 map2 new old items1 items2 := by
  obtain ⟨s', hdelta, hkey, h1', hold', h2', hnew', hout⟩ := clQmapDelta_spec h1 h2 hnew hold hnd
  exact ⟨s', hdelta, h1', h2', hold', hnew', common_only_perm .., common_only_perm .., (delta_perm ..).symm.nodup hnd,
    hkey, hout⟩

/-- **Merge and delta partition the items** of maps that are stored apart. -/
theorem merge_delta_partition :
    (∀ (s : Memory ν κ) (dest src : ClQmap ν) (ds ss : List ν), IsQmap s dest ds → IsQmap s src ss →
      (dest.nodes ds ++ src.nodes ss).Nodup →
      ∃ s' ds', clQmapMerge s dest src = some s' ∧ MergeResult s s' dest src ds ss ds') ∧
    (∀ (s : Memory ν κ) (map1 map2 new old : ClQmap ν) (items1 items2 : List ν), IsQmap s map1 items1 →
      IsQmap s map2 items2 → IsQmap s new [] → IsQmap s old [] →
      ((map1.nodes items1 ++ old.nodes []) ++ (map2.nodes items2 ++ new.nodes [])).Nodup →
      ∃ s', clQmapDelta s map1 map2 new old = some s' ∧ DeltaResult s s' map1 map2 new old items1 items2) :=
  ⟨fun _ _ _ _ _ hdest hsrc hnd => clQmapMerge_result hdest hsrc hnd,
    fun _ _ _ _ _ _ _ h1 h2 hnew hold hnd => clQmapDelta_result h1 h2 hnew hold hnd⟩

def sampleMap1 : ClQmap Nat := ⟨0, 1, by decide⟩

def sampleMap2 : ClQmap Nat := ⟨2, 3, by decide⟩

def sampleNew : ClQmap Nat := ⟨4, 5, by decide⟩

def sampleOld : ClQmap Nat := ⟨6, 7, by decide⟩

/-- Four maps: the first has an item with the key 1, the second has items with the keys 1 and 2. -/
def sample : Memory Nat Nat where
  tree :=
    { child := fun x d => match x, d with
        | 1, .left => 8
        | 3, .left => 9
        | 9, .right => 10
        | 9, .left => 2
        | 10, _ => 2
        | 5, _ => 4
        | 7, _ => 6
        | _, _ => 0
      up := fun x => match x with
        | 8 => 1
        | 9 => 3
        | 10 => 9
        | x => x
      color := fun x => if x = 10 then .red else .black }
  links := fun x => match x with
    | 0 => ⟨some 8, some 8⟩
    | 8 => ⟨some 0, some 0⟩
    | 2 => ⟨some 9, some 10⟩
    | 9 => ⟨some 10, some 2⟩
    | 10 => ⟨some 2, some 9⟩
    | x => ⟨some x, some x⟩
  key := fun x => if x = 10 then 2 else 1
  count := fun x => match x with
    | 0 => 1
    | 2 => 2
    | _ => 0

theorem sample_isQmap : IsQmap sample sampleMap1 [8] ∧ IsQmap sample sampleMap2 [9, 10] ∧ IsQmap sample sampleNew [] ∧
    IsQmap sample sampleOld [] := by
  refine ⟨⟨⟨.node .black .leaf 8 .leaf, 1, ⟨?_, rfl, by decide⟩, rfl, .black 8 .leaf .leaf⟩, rfl, rfl, rfl, ?_,
    ⟨by decide, rfl, rfl, rfl, rfl⟩, rfl⟩, ⟨⟨.node .black .leaf 9 (.node .red .leaf 10 .leaf), 1, ⟨?_, rfl, by decide⟩,
    rfl, .black 9 .leaf (.red 10 .leaf .leaf)⟩, rfl, rfl, rfl, ?_, ⟨by decide, rfl, rfl, rfl, rfl, rfl, rfl⟩, rfl⟩,
    ⟨⟨.leaf, 0, ⟨trivial, rfl, by decide⟩, rfl, .leaf⟩, rfl, rfl, rfl, .nil, ⟨by decide, rfl, rfl⟩, rfl⟩,
    ⟨⟨.leaf, 0, ⟨trivial, rfl, by decide⟩, rfl, .leaf⟩, rfl, rfl, rfl, .nil, ⟨by decide, rfl, rfl⟩, rfl⟩⟩
  · exact ⟨rfl, rfl, rfl, rfl, trivial, trivial⟩
  · decide
  · exact ⟨rfl, rfl, rfl, rfl, trivial, rfl, rfl, rfl, rfl, trivial, trivial⟩
  · decide

theorem merge_delta_partition_sample :
    (∃ s' ds', clQmapMerge sample sampleMap1 sampleMap2 = some s' ∧
        MergeResult sample s' sampleMap1 sampleMap2 [8] [9, 10] ds') ∧
      ∃ s', clQmapDelta sample sampleMap1 sampleMap2 sampleNew sampleOld = some s' ∧
        DeltaResult sample s' sampleMap1 sampleMap2 sampleNew sampleOld [8] [9, 10] := by
  obtain ⟨h1, h2, hnew, hold⟩ := sample_isQmap
  exact ⟨merge_delta_partition.1 sample sampleMap1 sampleMap2 [8] [9, 10] h1 h2 (by decide),
    merge_delta_partition.2 sample sampleMap1 sampleMap2 sampleNew sampleOld [8] [9, 10] h1 h2 hnew hold (by decide)⟩

end Partition

end MlnxLib.Qmaps
