import MlnxLib.Lib.Runs
import MlnxLib.Complib.QmapRemove

/-!
# Quick maps are finite maps

What each call does to the map from keys to items, and what a run of calls from `cl_qmap_init` does.

* `Op`, `codeStep` — the calls on a map.
* `act M op`, `Answers map M op r` — the same on a map from keys to items, and what the call returns.
* `Represents s map M items` — the items of the map, in the order of their keys, and their keys.
* `clQmapApplyFunc`, `traverse` — the traversals.

Principal results: `Represents.step` — every call that is allowed acts on the map from keys to items;
`qmap_invariant`, `qmap_refines_map` — the same in every state of every run.
-/

set_option autoImplicit false

namespace MlnxLib.Qmaps

open RedBlack RedBlack.ColorTree Runs

variable {ν κ : Type} [DecidableEq ν] [LinearOrder κ]

/-! ## Calls -/

inductive Op (ν κ : Type) where
  | insert (key : κ) (item : ν)
  | get (key : κ)
  | getNext (key : κ)
  | remove (key : κ)
  | removeItem (item : ν)
  deriving DecidableEq, Repr

/-- A call: the item that it returns, and the memory after it. -/
def codeStep (map : ClQmap ν) (s : Memory ν κ) : Op ν κ → Option (ν × Memory ν κ)
  | .insert key item => clQmapInsert s map key item
  | .get key => (clQmapGet s map key).map fun item => (item, s)
  | .getNext key => (clQmapGetNext s map key).map fun item => (item, s)
  | .remove key => clQmapRemove s map key
  | .removeItem item => (clQmapRemoveItem s map item).map fun s => (item, s)

/-- A traversal with one of the links, up to the end of the map. -/
def traverse {σ : Type} (step : ν → Option ν) (nil : ν) (pfnFunc : σ → ν → σ) : Nat → σ → ν → Option σ
  | 0, _, _ => none
  | fuel + 1, context, item =>
    if item ≠ nil then (step item).bind fun next => traverse step nil pfnFunc fuel (pfnFunc context item) next
    else some context

/-- `cl_qmap_apply_func`. -/
def clQmapApplyFunc {σ : Type} (s : Memory ν κ) (map : ClQmap ν) (pfnFunc : σ → ν → σ) (context : σ) : Option σ :=
  (clQmapHead s map).bind fun item =>
    traverse (clQmapNext s) map.nil pfnFunc (s.count map.nil + 1) context item

/-- The same from the tail to the head. -/
def traverseBack {σ : Type} (s : Memory ν κ) (map : ClQmap ν) (pfnFunc : σ → ν → σ) (context : σ) : Option σ :=
  (clQmapTail s map).bind fun item =>
    traverse (clQmapPrev s) map.nil pfnFunc (s.count map.nil + 1) context item

/-! ## Maps from keys to items -/

/-- What a call does to the map. -/
def act (M : κ → Option ν) : Op ν κ → κ → Option ν
  | .insert key item => if M key = none then Function.update M key (some item) else M
  | .get _ => M
  | .getNext _ => M
  | .remove key => Function.update M key none
  | .removeItem item => fun key => if M key = some item then none else M key

/-- The item with the least greater key, or the end. -/
def IsNext (nil : ν) (M : κ → Option ν) (key : κ) (r : ν) : Prop :=
  (r = nil ∧ ∀ k x, M k = some x → k ≤ key) ∨
    ∃ k, M k = some r ∧ key < k ∧ ∀ k' x, M k' = some x → key < k' → k ≤ k'

/-- What a call returns. -/
def Answers (map : ClQmap ν) (M : κ → Option ν) : Op ν κ → ν → Prop
  | .insert key item, r => r = (M key).getD item
  | .get key, r => r = (M key).getD map.nil
  | .getNext key, r => IsNext map.nil M key r
  | .remove key, r => r = (M key).getD map.nil
  | .removeItem item, r => r = item

/-- What the callers see to: an item is not inserted twice, and the item to remove is in the map or the end. -/
def Allowed (map : ClQmap ν) (M : κ → Option ν) : Op ν κ → Prop
  | .insert _ item => item ≠ map.nil ∧ item ≠ map.root ∧ ∀ key, M key ≠ some item
  | .removeItem item => item = map.nil ∨ ∃ key, M key = some item
  | _ => True

/-- **The map has these items** under their keys. -/
structure Represents (s : Memory ν κ) (map : ClQmap ν) (M : κ → Option ν) (items : List ν) : Prop where
  isQmap : IsQmap s map items
  lookup : ∀ key x, M key = some x ↔ x ∈ items ∧ s.key x = key

/-- A call that returns, answers and acts as on the map from keys to items. -/
def Acts (s : Memory ν κ) (map : ClQmap ν) (M : κ → Option ν) (op : Op ν κ) : Prop :=
  ∃ r s' items, codeStep map s op = some (r, s') ∧ Answers map M op r ∧ Represents s' map (act M op) items

section

variable {s s' : Memory ν κ} {map : ClQmap ν} {M : κ → Option ν} {items : List ν} {key : κ} {item x : ν}

namespace Represents

omit [DecidableEq ν] in
theorem get_item (h : Represents s map M items) (hx : x ∈ items) : M (s.key x) = some x := (h.lookup _ x).mpr ⟨hx, rfl⟩

omit [DecidableEq ν] in
theorem get_eq_none (h : Represents s map M items) : M key = none ↔ ∀ x ∈ items, s.key x ≠ key := by
  rw [Option.eq_none_iff_forall_ne_some]
  exact ⟨fun hnone x hx hkey => hnone x ((h.lookup key x).mpr ⟨hx, hkey⟩),
    fun hnone x hx => hnone x ((h.lookup key x).mp hx).1 ((h.lookup key x).mp hx).2⟩

theorem acts_insert (h : Represents s map M items) (hop : Allowed map M (.insert key item)) :
    Acts s map M (.insert key item) := by
  obtain ⟨hnil, hroot, hfresh⟩ := hop
  have hnot : item ∉ items := fun hm => hfresh _ (h.get_item hm)
  have hitem : item ∉ map.nodes items := by
    simp only [ClQmap.nodes, List.mem_cons, not_or]
    exact ⟨hnil, hroot, hnot⟩
  obtain ⟨r, s', hinsert, hkey, -, hplaced⟩ := clQmapInsert_spec h.isQmap key hitem
  have hkeys : ∀ x ∈ items, s'.key x = s.key x := by
    intro x hx
    have hne : x ≠ item := fun he => hnot (he ▸ hx)
    rw [hkey, Function.update_of_ne hne]
  have hself : s'.key item = key := by rw [hkey, Function.update_self]
  rcases hplaced with ⟨hr, hrkey, hmap⟩ | ⟨rfl, as, bs, rfl, has, hbs, hmap⟩
  · have hsome : M key = some r := (h.lookup key r).mpr ⟨hr, hrkey⟩
    refine ⟨r, s', items, hinsert, ?_, hmap, fun k x => ?_⟩
    · rw [Answers, hsome, Option.getD_some]
    · rw [act, if_neg (by simp [hsome]), h.lookup]
      exact and_congr_right fun hx => by rw [hkeys x hx]
  · have hnone : M key = none := by
      refine h.get_eq_none.mpr fun x hx => ?_
      rcases List.mem_append.mp hx with hx | hx
      · exact ne_of_lt (has x hx)
      · exact ne_of_gt (hbs x hx)
    refine ⟨r, s', _, hinsert, ?_, hmap, fun k x => ?_⟩
    · rw [Answers, hnone, Option.getD_none]
    · rw [act, if_pos hnone, List.perm_middle.mem_iff, List.mem_cons]
      by_cases hk : k = key
      · subst hk
        rw [Function.update_self, Option.some.injEq]
        refine ⟨fun he => ⟨Or.inl he.symm, he ▸ hself⟩, ?_⟩
        rintro ⟨rfl | hx, hxk⟩
        · rfl
        · exact absurd ((hkeys x hx).symm.trans hxk) (h.get_eq_none.mp hnone x hx)
      · rw [Function.update_of_ne hk, h.lookup]
        constructor
        · rintro ⟨hx, hxk⟩
          exact ⟨Or.inr hx, (hkeys x hx).trans hxk⟩
        · rintro ⟨rfl | hx, hxk⟩
          · exact absurd (hxk.symm.trans hself) hk
          · exact ⟨hx, (hkeys x hx).symm.trans hxk⟩

theorem acts_get (h : Represents s map M items) (key : κ) : Acts s map M (.get key) := by
  rcases clQmapGet_spec h.isQmap key with ⟨x, hx, hxk, hget⟩ | ⟨hnone, hget⟩
  · refine ⟨x, s, items, by rw [codeStep, hget, Option.map_some], ?_, h⟩
    rw [Answers, (h.lookup key x).mpr ⟨hx, hxk⟩, Option.getD_some]
  · refine ⟨map.nil, s, items, by rw [codeStep, hget, Option.map_some], ?_, h⟩
    rw [Answers, h.get_eq_none.mpr hnone, Option.getD_none]

theorem acts_getNext (h : Represents s map M items) (key : κ) : Acts s map M (.getNext key) := by
  obtain ⟨as, bs, rfl, has, hbs, hget⟩ := clQmapGetNext_spec h.isQmap key
  refine ⟨bs.headD map.nil, s, as ++ bs, by rw [codeStep, hget, Option.map_some], ?_, h⟩
  have hkeys : ∀ k x, M k = some x → key < k → x ∈ bs ∧ s.key x = k := by
    intro k x hx hlt
    obtain ⟨hm, hxk⟩ := (h.lookup k x).mp hx
    refine ⟨(List.mem_append.mp hm).resolve_left fun ha => ?_, hxk⟩
    exact absurd (has x ha) (not_le.mpr (hxk ▸ hlt))
  cases bs with
  | nil => exact Or.inl ⟨rfl, fun k x hx => not_lt.mp fun hlt => absurd (hkeys k x hx hlt).1 List.not_mem_nil⟩
  | cons b bs =>
    have hsorted := h.isQmap.sorted
    rw [List.pairwise_append, List.pairwise_cons] at hsorted
    have hb : b ∈ as ++ b :: bs := by simp
    refine Or.inr ⟨s.key b, h.get_item hb, hbs b (List.mem_cons_self ..), fun k x hx hlt => ?_⟩
    obtain ⟨hm, rfl⟩ := hkeys k x hx hlt
    rcases List.mem_cons.mp hm with rfl | hm
    · exact le_refl _
    · exact (hsorted.2.1.1 x hm).le

/-- An item of the map is removed. -/
theorem remove_split {as bs : List ν} (h : Represents s map M (as ++ item :: bs)) :
    ∃ s', clQmapRemoveItem s map item = some s' ∧ Represents s' map (act M (.removeItem item)) (as ++ bs) := by
  obtain ⟨s', hremove, hmap, hkey, -⟩ := clQmapRemoveItem_spec h.isQmap
  refine ⟨s', hremove, hmap, fun k x => ?_⟩
  have hnd := (List.nodup_cons.mp (List.nodup_cons.mp h.isQmap.nodup).2).2
  rw [List.nodup_middle, List.nodup_cons] at hnd
  rw [hkey]
  dsimp only [act]
  by_cases hk : M k = some item
  · rw [if_pos hk]
    refine ⟨nofun, ?_⟩
    rintro ⟨hx, hxk⟩
    have hx' := (h.lookup k x).mpr ⟨List.perm_middle.mem_iff.mpr (List.mem_cons_of_mem _ hx), hxk⟩
    rw [hk, Option.some.injEq] at hx'
    exact absurd (hx' ▸ hx) hnd.1
  · rw [if_neg hk, h.lookup, List.perm_middle.mem_iff, List.mem_cons]
    constructor
    · rintro ⟨rfl | hx, hxk⟩
      · exact absurd ((h.lookup k x).mpr ⟨by simp, hxk⟩) hk
      · exact ⟨hx, hxk⟩
    · rintro ⟨hx, hxk⟩
      exact ⟨Or.inr hx, hxk⟩

theorem acts_removeItem (h : Represents s map M items) (hop : Allowed map M (.removeItem item)) :
    Acts s map M (.removeItem item) := by
  rcases hop with rfl | ⟨key, hkey⟩
  · -- the end of the map is not removed
    have hsame : act M (.removeItem map.nil) = M := by
      funext k
      dsimp only [act]
      rw [if_neg]
      intro hk
      exact (List.nodup_cons.mp h.isQmap.nodup).1 (List.mem_cons_of_mem _ ((h.lookup k _).mp hk).1)
    refine ⟨map.nil, s, items, by rw [codeStep, clQmapRemoveItem_end, Option.map_some], rfl, ?_⟩
    rw [hsame]
    exact h
  · obtain ⟨as, bs, rfl⟩ := List.append_of_mem ((h.lookup key item).mp hkey).1
    obtain ⟨s', hremove, h'⟩ := h.remove_split
    exact ⟨item, s', as ++ bs, by rw [codeStep, hremove, Option.map_some], rfl, h'⟩

theorem acts_remove (h : Represents s map M items) (key : κ) : Acts s map M (.remove key) := by
  rcases clQmapGet_spec h.isQmap key with ⟨x, hx, hxk, hget⟩ | ⟨hnone, hget⟩
  · have hsome : M key = some x := (h.lookup key x).mpr ⟨hx, hxk⟩
    have hsame : act M (.remove key) = act M (.removeItem x) := by
      funext k
      by_cases hk : k = key
      · subst hk
        simp [act, hsome]
      · have hne : M k ≠ some x := fun he => hk (((h.lookup k x).mp he).2.symm.trans hxk)
        simp [act, hk, hne]
    obtain ⟨as, bs, rfl⟩ := List.append_of_mem hx
    obtain ⟨s', hremove, h'⟩ := h.remove_split
    refine ⟨x, s', as ++ bs, ?_, by rw [Answers, hsome, Option.getD_some], hsame ▸ h'⟩
    rw [codeStep, clQmapRemove, hget, Option.bind_some, hremove, Option.map_some]
  · have hnone' := h.get_eq_none.mpr hnone
    have hsame : act M (.remove key) = M := by
      rw [act, ← hnone', Function.update_eq_self]
    refine ⟨map.nil, s, items, ?_, by rw [Answers, hnone', Option.getD_none], hsame.symm ▸ h⟩
    rw [codeStep, clQmapRemove, hget, Option.bind_some, clQmapRemoveItem_end, Option.map_some]

/-- **Every call acts on the map from keys to items.** -/
theorem step (h : Represents s map M items) {op : Op ν κ} (hop : Allowed map M op) : Acts s map M op := by
  cases op with
  | insert key item => exact h.acts_insert hop
  | get key => exact h.acts_get key
  | getNext key => exact h.acts_getNext key
  | remove key => exact h.acts_remove key
  | removeItem item => exact h.acts_removeItem hop

end Represents

/-! ## Traversals and searches -/

section Traversals

variable {σ : Type} {pfnFunc : σ → ν → σ}

theorem traverse_next (h : IsQmap s map items) : ∀ (as bs : List ν) {fuel : Nat} {context : σ},
    items = as ++ bs → bs.length < fuel →
      traverse (clQmapNext s) map.nil pfnFunc fuel context (bs.headD map.nil) = some (bs.foldl pfnFunc context)
  | _, _, 0, _, _, hfuel => absurd hfuel (Nat.not_lt_zero _)
  | _, [], fuel + 1, context, _, _ => by
    rw [List.headD_nil, traverse, if_neg (not_not.mpr rfl)]
    rfl
  | as, b :: bs, fuel + 1, context, hsplit, hfuel => by
    have hnil : b ≠ map.nil := by
      rintro rfl
      exact (List.nodup_cons.mp h.nodup).1 (by simp [hsplit])
    have hassoc : items = (as ++ [b]) ++ bs := by rw [hsplit]; simp
    rw [List.headD_cons, traverse, if_pos hnil, (h.links hsplit).1, Option.bind_some,
      traverse_next h (as ++ [b]) bs hassoc (Nat.lt_of_succ_lt_succ hfuel)]
    rfl

omit [DecidableEq ν] [LinearOrder κ] in
theorem getLast_reverse (e : ν) (cs : List ν) : (e :: cs.reverse).getLast (List.cons_ne_nil _ _) = cs.headD e := by
  cases cs with
  | nil => rfl
  | cons c cs => simp

theorem traverse_prev (h : IsQmap s map items) : ∀ (cs bs : List ν) {fuel : Nat} {context : σ},
    items = cs.reverse ++ bs → cs.length < fuel →
      traverse (clQmapPrev s) map.nil pfnFunc fuel context (cs.headD map.nil) = some (cs.foldl pfnFunc context)
  | _, _, 0, _, _, hfuel => absurd hfuel (Nat.not_lt_zero _)
  | [], _, fuel + 1, context, _, _ => by
    rw [List.headD_nil, traverse, if_neg (not_not.mpr rfl)]
    rfl
  | c :: cs, bs, fuel + 1, context, hsplit, hfuel => by
    have hnil : c ≠ map.nil := by
      rintro rfl
      exact (List.nodup_cons.mp h.nodup).1 (by simp [hsplit])
    have hassoc : items = cs.reverse ++ c :: bs := by rw [hsplit]; simp
    have hprev := (h.links hassoc).2
    rw [getLast_reverse] at hprev
    rw [List.headD_cons, traverse, if_pos hnil, hprev, Option.bind_some,
      traverse_prev h cs (c :: bs) hassoc (Nat.lt_of_succ_lt_succ hfuel)]
    rfl

/-- **`cl_qmap_apply_func`** goes through the items in their order. -/
theorem clQmapApplyFunc_spec (h : IsQmap s map items) (context : σ) :
    clQmapApplyFunc s map pfnFunc context = some (items.foldl pfnFunc context) := by
  rw [clQmapApplyFunc, h.head, Option.bind_some]
  exact traverse_next h [] items rfl (by rw [h.count]; exact Nat.lt_succ_self _)

theorem traverseBack_spec (h : IsQmap s map items) (context : σ) :
    traverseBack s map pfnFunc context = some (items.reverse.foldl pfnFunc context) := by
  have htail : clQmapTail s map = some (items.reverse.headD map.nil) := by
    have hlast := h.list.2.prev_right
    rw [clQmapTail, ← getLast_reverse]
    simpa using hlast
  rw [traverseBack, htail, Option.bind_some]
  refine traverse_prev h items.reverse [] (by simp) ?_
  rw [h.count, List.length_reverse]
  exact Nat.lt_succ_self _

end Traversals

section Searches

/-- The place after some steps down the tree. -/
def descend (h : Heap ν) (nil : ν) : ν → List Side → ν
  | x, [] => x
  | x, d :: ds => if x = nil then nil else descend h nil (h.child x d) ds

omit [DecidableEq ν] [LinearOrder κ] in
theorem height_child {l r : ColorTree ν} {c : Color} {n : Nat} (hheight : (node c l x r).height ≤ n + 1) :
    l.height ≤ n ∧ r.height ≤ n := by
  rw [height] at hheight
  omega

/-- **The height** bounds the steps to the end of the map. -/
theorem descend_eq_nil {h : Heap ν} {nil : ν} : ∀ {t : ColorTree ν} {up : ν} (ds : List Side), IsTree h nil up t →
    nil ∉ t.items → t.height ≤ ds.length → descend h nil (t.ptr nil) ds = nil
  | leaf, _, [], _, _, _ => rfl
  | leaf, _, _ :: _, _, _, _ => by rw [ptr, descend, if_pos rfl]
  | node c l x r, _, [], _, _, hheight => absurd hheight (by simp [height])
  | node c l x r, _, d :: ds, ht, hnil, hheight => by
    obtain ⟨-, -, hleft, hright, hl, hr⟩ := ht
    obtain ⟨hlh, hrh⟩ := height_child hheight
    rw [ColorTree.items, List.mem_append, List.mem_cons, not_or, not_or] at hnil
    rw [ptr, descend, if_neg (Ne.symm hnil.2.1)]
    cases d with
    | left =>
      rw [hleft]
      exact descend_eq_nil ds hl hnil.1 hlh
    | right =>
      rw [hright]
      exact descend_eq_nil ds hr hnil.2.2 hrh

/-- **The representation invariant**, and the bound on the searches. -/
structure WellFormed (s : Memory ν κ) (map : ClQmap ν) : Prop where
  isQmap : ∃ items, IsQmap s map items
  search : ∀ ds : List Side, 2 * Nat.log 2 (s.count map.nil + 1) ≤ ds.length →
    descend s.tree map.nil (clMapRoot s map) ds = map.nil
  get : ∀ key, getLoop s map key (2 * Nat.log 2 (s.count map.nil + 1) + 1) (clMapRoot s map) = clQmapGet s map key

theorem IsQmap.wellFormed (h : IsQmap s map items) : WellFormed s map := by
  refine ⟨⟨items, h⟩, fun ds hds => ?_, fun key => ?_⟩
  · obtain ⟨t, n, hz, rfl, hb⟩ := h.tree
    have hroot : clMapRoot s map = t.ptr map.nil := hz.path
    have hnil : map.nil ∉ t.items := fun hm =>
      (List.nodup_cons.mp h.nodup).1 (List.mem_cons_of_mem _ hm)
    rw [h.count] at hds
    rw [hroot]
    exact descend_eq_nil ds hz.tree hnil (hb.height_le.trans hds)
  · rw [h.count]
    rcases getLoop_log h key (Nat.lt_succ_self _) with ⟨x, hx, hxk, hloop⟩ | ⟨hnone, hloop⟩
    · rcases clQmapGet_spec h key with ⟨y, hy, hyk, hget⟩ | ⟨hnone, -⟩
      · rw [hloop, hget, h.key_inj hx hy (hxk.trans hyk.symm)]
      · exact absurd hxk (hnone x hx)
    · rcases clQmapGet_spec h key with ⟨y, hy, hyk, -⟩ | ⟨-, hget⟩
      · exact absurd hyk (hnone y hy)
      · rw [hloop, hget]

end Searches

/-! ## Runs -/

/-- A run of calls. -/
def codeRun (map : ClQmap ν) (s : Memory ν κ) (ops : List (Op ν κ)) : Option (Memory ν κ) :=
  run (fun s op => (codeStep map s op).map Prod.snd) s ops

/-- The map without items. -/
def noItems : κ → Option ν := fun _ => none

/-- The callers see to what they have to, in every state of a run. -/
def AllAllowed (map : ClQmap ν) (ops : List (Op ν κ)) : Prop :=
  AllMeet (fun M op => some (act M op)) (Allowed map) noItems ops

/-- `cl_qmap_init` makes a map without items. -/
theorem represents_init (s : Memory ν κ) (map : ClQmap ν) : Represents (clQmapInit s map) map noItems [] :=
  ⟨(isQmap_init s map).1, fun _ _ => ⟨nofun, fun h => absurd h.1 List.not_mem_nil⟩⟩

/-- A run acts on the map from keys to items. -/
theorem Represents.run : ∀ {s : Memory ν κ} {M : κ → Option ν} {items : List ν} (ops : List (Op ν κ)),
    Represents s map M items → AllMeet (fun M op => some (act M op)) (Allowed map) M ops →
    ∃ s' items', codeRun map s ops = some s' ∧ Represents s' map (ops.foldl act M) items'
  | s, M, items, [], h, _ => ⟨s, items, rfl, h⟩
  | s, M, items, op :: ops, h, hops => by
    obtain ⟨hop, hops⟩ := hops
    obtain ⟨r, s₁, items₁, hstep, -, h₁⟩ := h.step hop
    obtain ⟨s', items', hrun, h'⟩ := Represents.run ops h₁ (hops _ rfl)
    refine ⟨s', items', ?_, h'⟩
    unfold codeRun at hrun ⊢
    rw [Runs.run_cons, hstep, Option.map_some, Option.bind_some, hrun]

/-- A run from a map of the code. -/
theorem Represents.throughout : ∀ {s : Memory ν κ} {M : κ → Option ν} {items : List ν} (ops : List (Op ν κ)),
    Represents s map M items → AllMeet (fun M op => some (act M op)) (Allowed map) M ops →
    Throughout (fun s op => (codeStep map s op).map Prod.snd) (fun s => WellFormed s map) s ops
  | s, M, items, [], h, _ => h.isQmap.wellFormed
  | s, M, items, op :: ops, h, hops => by
    obtain ⟨hop, hops⟩ := hops
    refine ⟨h.isQmap.wellFormed, fun s₁ hs₁ => ?_⟩
    obtain ⟨r, s₂, items₂, hstep, -, h₂⟩ := h.step hop
    dsimp only at hs₁
    rw [hstep, Option.map_some, Option.mem_some_iff] at hs₁
    exact hs₁ ▸ Represents.throughout ops h₂ (hops _ rfl)

/-- **The red-black invariant.**  A run from `cl_qmap_init` that its callers are allowed to make returns, and the map
is well formed after every call. -/
theorem qmap_invariant (s : Memory ν κ) (map : ClQmap ν) (ops : List (Op ν κ)) (h : AllAllowed map ops) :
    (∃ s', codeRun map (clQmapInit s map) ops = some s') ∧
      Throughout (fun s op => (codeStep map s op).map Prod.snd) (fun s => WellFormed s map) (clQmapInit s map) ops := by
  have hinit := represents_init s map
  obtain ⟨s', -, hrun, -⟩ := hinit.run ops h
  exact ⟨⟨s', hrun⟩, hinit.throughout ops h⟩

/-- Insertions in a rising order, one of a key that is there, and removals with and without a substitute. -/
def sampleOps : List (Op Nat Nat) :=
  [.insert 10 2, .insert 20 3, .insert 30 4, .insert 20 5, .insert 40 6, .removeItem 3, .remove 10, .remove 70,
    .removeItem 0]

def sampleMap : ClQmap Nat := ⟨0, 1, Nat.zero_ne_one⟩

def blank : Memory Nat Nat :=
  ⟨⟨fun _ _ => 0, fun _ => 0, fun _ => .black⟩, fun _ => Ring.Link.null, fun _ => 0, fun _ => 0⟩

theorem sampleOps_allowed : AllAllowed sampleMap sampleOps := by
  simp only [AllAllowed, sampleOps, AllMeet, Option.mem_some_iff, forall_eq', Allowed, and_true, true_and]
  refine ⟨⟨by decide, by decide, fun key => ?_⟩, ⟨by decide, by decide, fun key => ?_⟩,
    ⟨by decide, by decide, fun key => ?_⟩, ⟨by decide, by decide, fun key => ?_⟩,
    ⟨by decide, by decide, fun key => ?_⟩, Or.inr ⟨20, by decide⟩, Or.inl rfl⟩
  all_goals
    simp [act, noItems, Function.update_apply] <;> grind

theorem qmap_invariant_sample : (∃ s', codeRun sampleMap (clQmapInit blank sampleMap) sampleOps = some s') ∧
    Throughout (fun s op => (codeStep sampleMap s op).map Prod.snd) (fun s => WellFormed s sampleMap)
      (clQmapInit blank sampleMap) sampleOps :=
  qmap_invariant blank sampleMap sampleOps sampleOps_allowed

/-- **Quick maps refine finite maps.**  After every run from `cl_qmap_init` that its callers are allowed to make, the
traversals go through the items in the order of their keys, and every further call that is allowed returns, answers
and acts as on the map from keys to items. -/
theorem qmap_refines_map (s : Memory ν κ) (map : ClQmap ν) (ops : List (Op ν κ)) (h : AllAllowed map ops) :
    ∃ s', ∃ items : List ν, codeRun map (clQmapInit s map) ops = some s' ∧
      items.Pairwise (fun x y => s'.key x < s'.key y) ∧
      (∀ key x, ops.foldl act noItems key = some x ↔ x ∈ items ∧ s'.key x = key) ∧
      (∀ {σ : Type} (pfnFunc : σ → ν → σ) (context : σ),
        clQmapApplyFunc s' map pfnFunc context = some (items.foldl pfnFunc context) ∧
        traverseBack s' map pfnFunc context = some (items.reverse.foldl pfnFunc context)) ∧
      ∀ op, Allowed map (ops.foldl act noItems) op → Acts s' map (ops.foldl act noItems) op := by
  obtain ⟨s', items, hrun, h'⟩ := (represents_init s map).run ops h
  exact ⟨s', items, hrun, h'.isQmap.sorted, h'.lookup, fun pfnFunc context =>
    ⟨clQmapApplyFunc_spec h'.isQmap context, traverseBack_spec h'.isQmap context⟩, fun op hop => h'.step hop⟩

theorem qmap_refines_map_sample :
    ∃ s', ∃ items : List Nat, codeRun sampleMap (clQmapInit blank sampleMap) sampleOps = some s' ∧
      items.Pairwise (fun x y => s'.key x < s'.key y) ∧
      (∀ key x, sampleOps.foldl act noItems key = some x ↔ x ∈ items ∧ s'.key x = key) ∧
      (∀ {σ : Type} (pfnFunc : σ → Nat → σ) (context : σ),
        clQmapApplyFunc s' sampleMap pfnFunc context = some (items.foldl pfnFunc context) ∧
        traverseBack s' sampleMap pfnFunc context = some (items.reverse.foldl pfnFunc context)) ∧
      ∀ op, Allowed sampleMap (sampleOps.foldl act noItems) op → Acts s' sampleMap (sampleOps.foldl act noItems) op :=
  qmap_refines_map blank sampleMap sampleOps sampleOps_allowed

end

end MlnxLib.Qmaps
