import MlnxLib.Complib.QmapBalance

/-!
# The representation of quick maps, and the searches

* `IsQmap s map items` — the map has these items, in the order of their keys: the tree is a red-black tree with
  parent pointers, the list has the items in the same order, and `count` is their number.
* `Outside s s' S` — everything but these nodes is as it was.
* `Between s key p` — the place of a key: greater than the keys before it and less than those after it.

Principal results: `IsQmap.frame`, `isQmap_init`, `clQmapGet_spec`, `clQmapGetNext_spec`, and `IsQmap.links` on the
traversals.
-/

set_option autoImplicit false

namespace MlnxLib.Qmaps

open RedBlack RedBlack.ColorTree

variable {ν κ : Type} [DecidableEq ν] [LinearOrder κ] {s s' : Memory ν κ} {map : ClQmap ν} {items : List ν}

/-! ## Representation -/

/-- **The map has the items**, in the order of their keys. -/
structure IsQmap (s : Memory ν κ) (map : ClQmap ν) (items : List ν) : Prop where
  tree : ∃ t n, IsZip s.tree map.nil map.root t [] ∧ t.items = items ∧ IsRedBlack t .black n
  rootUp : s.tree.up map.root = map.root
  rootColor : s.tree.color map.root = .black
  nilColor : s.tree.color map.nil = .black
  sorted : items.Pairwise fun x y => s.key x < s.key y
  list : Ring.IsRing s.links map.nil items
  count : s.count map.nil = items.length

/-- The nodes of a map. -/
def ClQmap.nodes (map : ClQmap ν) (items : List ν) : List ν := map.nil :: map.root :: items

/-- An item that is the same in two memories. -/
structure SameItem (s s' : Memory ν κ) (x : ν) : Prop where
  tree : SameNode s.tree s'.tree x
  links : s'.links x = s.links x
  key : s'.key x = s.key x
  count : s'.count x = s.count x

/-- **Everything outside** of some nodes is as it was. -/
def Outside (s s' : Memory ν κ) (S : List ν) : Prop := ∀ x, x ∉ S → SameItem s s' x

omit [DecidableEq ν] [LinearOrder κ] in
theorem SameItem.trans {s'' : Memory ν κ} {x : ν} (h₁ : SameItem s s' x) (h₂ : SameItem s' s'' x) : SameItem s s'' x :=
  ⟨h₁.tree.trans h₂.tree, h₂.links.trans h₁.links, h₂.key.trans h₁.key, h₂.count.trans h₁.count⟩

omit [DecidableEq ν] [LinearOrder κ] in
theorem Outside.refl (s : Memory ν κ) (S : List ν) : Outside s s S := fun x _ => ⟨.refl s.tree x, rfl, rfl, rfl⟩

omit [DecidableEq ν] [LinearOrder κ] in
theorem Outside.trans {s'' : Memory ν κ} {S : List ν} (h₁ : Outside s s' S) (h₂ : Outside s' s'' S) :
    Outside s s'' S := fun x hx => (h₁ x hx).trans (h₂ x hx)

omit [DecidableEq ν] [LinearOrder κ] in
theorem Outside.mono {S S' : List ν} (h : Outside s s' S) (hsub : S ⊆ S') : Outside s s' S' :=
  fun x hx => h x fun hm => hx (hsub hm)

namespace IsQmap

omit [DecidableEq ν] in
theorem nodup (h : IsQmap s map items) : (map.nodes items).Nodup := by
  obtain ⟨t, n, hz, rfl, -⟩ := h.tree
  have hnd := hz.nodup
  rw [pathItems, List.append_nil] at hnd
  exact hnd

omit [DecidableEq ν] in
/-- **Frame rule**: a map depends on its own nodes only. -/
theorem frame (h : IsQmap s map items) (hsame : ∀ x ∈ map.nodes items, SameItem s s' x) : IsQmap s' map items := by
  obtain ⟨t, n, hz, rfl, hb⟩ := h.tree
  have hnil := hsame map.nil (List.mem_cons_self ..)
  have hroot := hsame map.root (List.mem_cons_of_mem _ (List.mem_cons_self ..))
  have hitem : ∀ x ∈ t.items, SameItem s s' x := fun x hx =>
    hsame x (List.mem_cons_of_mem _ (List.mem_cons_of_mem _ hx))
  refine ⟨⟨t, n, hz.frame fun x hx => (hsame x ?_).tree, rfl, hb⟩, hroot.tree.up.trans h.rootUp,
    hroot.tree.color.trans h.rootColor, hnil.tree.color.trans h.nilColor, ?_, ?_, hnil.count.trans h.count⟩
  · rw [pathItems, List.append_nil] at hx
    exact List.mem_cons_of_mem _ hx
  · refine h.sorted.imp_of_mem fun hx hy hlt => ?_
    rw [(hitem _ hx).key, (hitem _ hy).key]
    exact hlt
  · refine h.list.frame fun x hx => ?_
    rcases List.mem_cons.mp hx with rfl | hx
    · exact hnil.links
    · exact (hitem x hx).links

omit [DecidableEq ν] in
/-- A map is not disturbed by changes of other nodes. -/
theorem outside {S : List ν} (h : IsQmap s map items) (hout : Outside s s' S) (hdisj : (map.nodes items).Disjoint S) :
    IsQmap s' map items :=
  h.frame fun _ hx => hout _ fun hx' => hdisj hx hx'

omit [DecidableEq ν] in
/-- Keys are unique. -/
theorem key_inj (h : IsQmap s map items) {x y : ν} (hx : x ∈ items) (hy : y ∈ items) (hkey : s.key x = s.key y) :
    x = y := by
  have hnd : (items.map s.key).Nodup := by
    have hp := h.sorted.map (S := fun a b => a < b) s.key fun _ _ hlt => hlt
    exact hp.imp fun hlt => ne_of_lt hlt
  exact List.inj_on_of_nodup_map hnd hx hy hkey

omit [DecidableEq ν] in
/-- **The traversals** go through the items in their order, and back. -/
theorem links (h : IsQmap s map items) {as bs : List ν} {x : ν} (hsplit : items = as ++ x :: bs) :
    clQmapNext s x = some (bs.headD map.nil) ∧
      clQmapPrev s x = some ((map.nil :: as).getLast (List.cons_ne_nil _ _)) := by
  have hlist := h.list
  rw [hsplit] at hlist
  exact hlist.links_of_split

omit [DecidableEq ν] in
theorem head (h : IsQmap s map items) : clQmapHead s map = some (items.headD map.nil) := h.list.next_sentinel

end IsQmap

/-- **`cl_qmap_init`** makes an empty map. -/
theorem isQmap_init (s : Memory ν κ) (map : ClQmap ν) :
    IsQmap (clQmapInit s map) map [] ∧ Outside s (clQmapInit s map) (map.nodes []) := by
  have hne := map.ne
  refine ⟨⟨⟨leaf, 0, ⟨trivial, ?_, ?_⟩, rfl, .leaf⟩, ?_, ?_, ?_, List.Pairwise.nil, Ring.isRing_reset _ _, ?_⟩,
    fun x hx => ?_⟩
  · simp [IsPath, clQmapInit, ptr]
  · simpa [pathItems, items] using hne
  · simp [clQmapInit, hne.symm]
  · simp [clQmapInit]
  · simp [clQmapInit]
  · simp [clQmapInit]
  · simp only [ClQmap.nodes, List.mem_cons, List.not_mem_nil, or_false, not_or] at hx
    refine ⟨⟨fun d => ?_, ?_, ?_⟩, ?_, rfl, ?_⟩
    · simp [clQmapInit, hx.1, hx.2]
    · simp [clQmapInit, hx.1, hx.2]
    · simp [clQmapInit, hx.1, hx.2]
    · exact Ring.reset_of_ne _ hx.1
    · simp [clQmapInit, hx.1]

/-! ## Searches -/

section Search

variable {key : κ} {t : ColorTree ν} {p : TreePath ν}

/-- **The place of a key**: it is greater than the keys before it and less than those after it. -/
structure Between (s : Memory ν κ) (key : κ) (p : TreePath ν) : Prop where
  before : ∀ x ∈ before p, s.key x < key
  after : ∀ x ∈ after p, key < s.key x

omit [DecidableEq ν] in
/-- The keys after an item on the way to the left. -/
theorem after_left {c : Color} {l r : ColorTree ν} {x : ν}
    (hsorted : (plug p (node c l x r)).items.Pairwise fun y z => s.key y < s.key z) (hlt : key < s.key x)
    (hafter : ∀ y ∈ after p, key < s.key y) : ∀ y ∈ after (⟨.left, c, x, r⟩ :: p), key < s.key y := by
  rw [items_plug, items, List.append_assoc, List.cons_append, List.pairwise_append, List.pairwise_append,
    List.pairwise_cons] at hsorted
  obtain ⟨-, ⟨-, ⟨hx, -⟩, -⟩, -⟩ := hsorted
  intro y hy
  simp only [after, List.cons_append, List.mem_cons, List.mem_append] at hy
  rcases hy with rfl | hy | hy
  · exact hlt
  · exact lt_trans hlt (hx y (List.mem_append_left _ hy))
  · exact hafter y hy

omit [DecidableEq ν] in
/-- The keys before an item on the way to the right. -/
theorem before_right {c : Color} {l r : ColorTree ν} {x : ν}
    (hsorted : (plug p (node c l x r)).items.Pairwise fun y z => s.key y < s.key z) {P : κ → Prop} (hx : P (s.key x))
    (hdown : ∀ k, k < s.key x → P k) (hbefore : ∀ y ∈ before p, P (s.key y)) :
    ∀ y ∈ before (⟨.right, c, x, l⟩ :: p), P (s.key y) := by
  rw [items_plug, items, List.append_assoc, List.cons_append, List.pairwise_append, List.pairwise_append] at hsorted
  obtain ⟨-, ⟨-, -, hl⟩, -⟩ := hsorted
  intro y hy
  simp only [before, List.mem_append, List.mem_singleton] at hy
  rcases hy with hy | hy | rfl
  · exact hbefore y hy
  · exact hdown _ (hl y hy x (List.mem_cons_self ..))
  · exact hx

omit [DecidableEq ν] [LinearOrder κ] in
theorem ptr_ne_nil (hz : IsZip s.tree map.nil map.root t p) (hne : t ≠ leaf) : t.ptr map.nil ≠ map.nil := by
  have hnd := hz.nodup
  rw [List.nodup_cons, List.mem_cons, List.mem_append, not_or, not_or] at hnd
  exact fun he => hne ((ptr_eq_nil hnd.1.2.1).mp he)

/-- **The loop of `cl_qmap_get`**: an item with the key, or the place of the key. -/
theorem getLoop_spec : ∀ {t : ColorTree ν} {p : TreePath ν} {fuel : Nat}, IsZip s.tree map.nil map.root t p →
    (plug p t).items.Pairwise (fun x y => s.key x < s.key y) → Between s key p → t.height < fuel →
      (∃ x ∈ t.items, s.key x = key ∧ getLoop s map key fuel (t.ptr map.nil) = some x) ∨
        ((∀ x ∈ (plug p t).items, s.key x ≠ key) ∧ getLoop s map key fuel (t.ptr map.nil) = some map.nil)
  | _, _, 0, _, _, _, hfuel => absurd hfuel (Nat.not_lt_zero _)
  | leaf, p, fuel + 1, hz, _, hb, _ => by
    refine Or.inr ⟨fun x hx => ?_, by rw [ptr, getLoop, if_pos rfl]⟩
    rw [items_plug, items, List.nil_append] at hx
    rcases List.mem_append.mp hx with hx | hx
    · exact ne_of_lt (hb.before x hx)
    · exact (ne_of_lt (hb.after x hx)).symm
  | node c l x r, p, fuel + 1, hz, hsorted, hb, hfuel => by
    obtain ⟨-, -, hleft, hright, -, -⟩ := hz.tree
    have hnil : x ≠ map.nil := ptr_ne_nil hz node_ne_leaf
    rw [height] at hfuel
    have hl : l.height < fuel := by omega
    have hr : r.height < fuel := by omega
    rw [ptr, getLoop, if_neg hnil]
    by_cases heq : key = s.key x
    · rw [if_pos heq]
      exact Or.inl ⟨x, by simp [items], heq.symm, rfl⟩
    rw [if_neg heq]
    by_cases hlt : key < s.key x
    · rw [if_pos hlt, hleft]
      have hz' : IsZip s.tree map.nil map.root l (⟨.left, c, x, r⟩ :: p) := isZip_cons.mpr hz
      rcases getLoop_spec hz' hsorted ⟨hb.before, after_left hsorted hlt hb.after⟩ hl with
        ⟨y, hy, hkey, hloop⟩ | ⟨hnone, hloop⟩
      · exact Or.inl ⟨y, List.mem_append_left _ hy, hkey, hloop⟩
      · exact Or.inr ⟨hnone, hloop⟩
    · rw [if_neg hlt, hright]
      have hgt : s.key x < key := lt_of_le_of_ne (not_lt.mp hlt) fun he => heq he.symm
      have hz' : IsZip s.tree map.nil map.root r (⟨.right, c, x, l⟩ :: p) := isZip_cons.mpr hz
      rcases getLoop_spec hz' hsorted ⟨before_right hsorted hgt (fun k hk => lt_trans hk hgt) hb.before, hb.after⟩
        hr with ⟨y, hy, hkey, hloop⟩ | ⟨hnone, hloop⟩
      · exact Or.inl ⟨y, List.mem_append_right _ (List.mem_cons_of_mem _ hy), hkey, hloop⟩
      · exact Or.inr ⟨hnone, hloop⟩

/-- **The loop of `cl_qmap_get_next`**: the first item with a greater key. -/
theorem getNextLoop_spec : ∀ {t : ColorTree ν} {p : TreePath ν} {fuel : Nat}, IsZip s.tree map.nil map.root t p →
    (plug p t).items.Pairwise (fun x y => s.key x < s.key y) → (∀ x ∈ before p, s.key x ≤ key) →
      (∀ x ∈ after p, key < s.key x) → t.height < fuel → ∃ as bs, (plug p t).items = as ++ bs ∧
        (∀ x ∈ as, s.key x ≤ key) ∧ (∀ x ∈ bs, key < s.key x) ∧
        getNextLoop s map key fuel ((after p).headD map.nil) (t.ptr map.nil) = some (bs.headD map.nil)
  | _, _, 0, _, _, _, _, hfuel => absurd hfuel (Nat.not_lt_zero _)
  | leaf, p, fuel + 1, hz, _, hbefore, hafter, _ =>
    ⟨before p, after p, by rw [items_plug, items, List.nil_append], hbefore, hafter, by
      rw [ptr, getNextLoop, if_pos rfl]⟩
  | node c l x r, p, fuel + 1, hz, hsorted, hbefore, hafter, hfuel => by
    obtain ⟨-, -, hleft, hright, -, -⟩ := hz.tree
    have hnil : x ≠ map.nil := ptr_ne_nil hz node_ne_leaf
    rw [height] at hfuel
    have hl : l.height < fuel := by omega
    have hr : r.height < fuel := by omega
    rw [ptr, getNextLoop, if_neg hnil]
    by_cases hlt : key < s.key x
    · rw [if_pos hlt, hleft]
      have hz' : IsZip s.tree map.nil map.root l (⟨.left, c, x, r⟩ :: p) := isZip_cons.mpr hz
      obtain ⟨as, bs, hitems, has, hbs, hloop⟩ :=
        getNextLoop_spec hz' hsorted hbefore (after_left hsorted hlt hafter) hl
      exact ⟨as, bs, hitems, has, hbs, hloop⟩
    · rw [if_neg hlt, hright]
      have hz' : IsZip s.tree map.nil map.root r (⟨.right, c, x, l⟩ :: p) := isZip_cons.mpr hz
      have hle := not_lt.mp hlt
      obtain ⟨as, bs, hitems, has, hbs, hloop⟩ := getNextLoop_spec hz' hsorted
        (before_right hsorted hle (fun k hk => (lt_of_lt_of_le hk hle).le) hbefore) hafter hr
      exact ⟨as, bs, hitems, has, hbs, hloop⟩

/-- **A search** takes a number of steps that is logarithmic in the number of items. -/
theorem getLoop_log (h : IsQmap s map items) (key : κ) {fuel : Nat}
    (hfuel : 2 * Nat.log 2 (items.length + 1) < fuel) :
    (∃ x ∈ items, s.key x = key ∧ getLoop s map key fuel (clMapRoot s map) = some x) ∨
      ((∀ x ∈ items, s.key x ≠ key) ∧ getLoop s map key fuel (clMapRoot s map) = some map.nil) := by
  obtain ⟨t, n, hz, rfl, hb⟩ := h.tree
  have hroot : clMapRoot s map = t.ptr map.nil := hz.path
  have hheight := hb.height_le
  have hbetween : Between s key [] := ⟨nofun, nofun⟩
  rw [hroot]
  exact getLoop_spec hz h.sorted hbetween (by omega)

/-- **`cl_qmap_get`**: the item with the key, or the end. -/
theorem clQmapGet_spec (h : IsQmap s map items) (key : κ) :
    (∃ x ∈ items, s.key x = key ∧ clQmapGet s map key = some x) ∨
      ((∀ x ∈ items, s.key x ≠ key) ∧ clQmapGet s map key = some map.nil) := by
  obtain ⟨t, n, hz, rfl, -⟩ := h.tree
  have hroot : clMapRoot s map = t.ptr map.nil := hz.path
  have hheight := t.height_le_length
  have hbetween : Between s key [] := ⟨nofun, nofun⟩
  unfold clQmapGet
  rw [hroot, h.count]
  exact getLoop_spec hz h.sorted hbetween (Nat.lt_succ_of_le hheight)

/-- **`cl_qmap_get_next`**: the item with the least greater key, or the end. -/
theorem clQmapGetNext_spec (h : IsQmap s map items) (key : κ) : ∃ as bs, items = as ++ bs ∧
    (∀ x ∈ as, s.key x ≤ key) ∧ (∀ x ∈ bs, key < s.key x) ∧ clQmapGetNext s map key = some (bs.headD map.nil) := by
  obtain ⟨t, n, hz, rfl, -⟩ := h.tree
  have hroot : clMapRoot s map = t.ptr map.nil := hz.path
  have hheight := t.height_le_length
  unfold clQmapGetNext
  rw [hroot, h.count]
  exact getNextLoop_spec (p := []) hz h.sorted nofun nofun (Nat.lt_succ_of_le hheight)

end Search

end MlnxLib.Qmaps
