import Mathlib.Logic.Function.Basic
import MlnxLib.Lib.RedBlack

/-!
# Binary trees over a heap of nodes

A heap gives each node two children, a parent and a colour.  A tree hangs below a sentinel `root`, as its left
child, and a second sentinel `nil` stands for the leaves; the parent of `nil` is of no meaning.

* `Heap.setChild`, `Heap.setUp`, `Heap.setColor` — the writes.
* `IsTree h nil up t` — the subtree `t` with the parent `up`.
* `IsPath h nil root x p` — what is around the subtree at the pointer `x`.
* `IsZip h nil root t p` — both, with distinct nodes.

Principal results: `isZip_cons` (going up and down moves nothing), `IsZip.recolor` (writing a colour),
`IsZip.replace` (another subtree in the place of one), `IsZip.frame` (a tree depends on its own nodes only).
-/

set_option autoImplicit false

namespace RedBlack

open ColorTree

/-- Children, parents and colours. -/
structure Heap (ν : Type) where
  child : ν → Side → ν
  up : ν → ν
  color : ν → Color

variable {ν : Type}

section Writes

variable [DecidableEq ν]

def Heap.setChild (h : Heap ν) (x : ν) (d : Side) (y : ν) : Heap ν :=
  { h with child := Function.update h.child x (Function.update (h.child x) d y) }

def Heap.setUp (h : Heap ν) (x y : ν) : Heap ν := { h with up := Function.update h.up x y }

def Heap.setColor (h : Heap ν) (x : ν) (c : Color) : Heap ν := { h with color := Function.update h.color x c }

variable (h : Heap ν) (x y z : ν) (d d' : Side) (c : Color)

@[simp] theorem Heap.setChild_child :
    (h.setChild x d y).child z d' = if z = x ∧ d' = d then y else h.child z d' := by
  unfold setChild
  by_cases hz : z = x
  · subst hz
    by_cases hd : d' = d
    · subst hd
      simp
    · simp [hd]
  · simp [hz]

@[simp] theorem Heap.setChild_up : (h.setChild x d y).up = h.up := rfl
@[simp] theorem Heap.setChild_color : (h.setChild x d y).color = h.color := rfl
@[simp] theorem Heap.setUp_child : (h.setUp x y).child = h.child := rfl
@[simp] theorem Heap.setUp_color : (h.setUp x y).color = h.color := rfl

@[simp] theorem Heap.setUp_up : (h.setUp x y).up z = if z = x then y else h.up z := by
  simp [setUp, Function.update_apply]

@[simp] theorem Heap.setColor_child : (h.setColor x c).child = h.child := rfl
@[simp] theorem Heap.setColor_up : (h.setColor x c).up = h.up := rfl

@[simp] theorem Heap.setColor_color : (h.setColor x c).color z = if z = x then c else h.color z := by
  simp [setColor, Function.update_apply]

end Writes

/-- A node that is the same in two heaps. -/
structure SameNode (h h' : Heap ν) (x : ν) : Prop where
  child : ∀ d, h'.child x d = h.child x d
  up : h'.up x = h.up x
  color : h'.color x = h.color x

theorem SameNode.refl (h : Heap ν) (x : ν) : SameNode h h x := ⟨fun _ => rfl, rfl, rfl⟩

theorem SameNode.trans {h h' h'' : Heap ν} {x : ν} (h₁ : SameNode h h' x) (h₂ : SameNode h' h'' x) :
    SameNode h h'' x :=
  ⟨fun d => (h₂.child d).trans (h₁.child d), h₂.up.trans h₁.up, h₂.color.trans h₁.color⟩

/-! ## Representation -/

/-- The pointer to a subtree. -/
def ColorTree.ptr (nil : ν) : ColorTree ν → ν
  | leaf => nil
  | node _ _ x _ => x

@[simp] theorem ColorTree.ptr_onSide (nil : ν) (d : Side) (c : Color) (near : ColorTree ν) (x : ν) (far : ColorTree ν) :
    (onSide d c near x far).ptr nil = x := by cases d <;> rfl

@[simp] theorem ColorTree.ptr_setColor (nil : ν) (c : Color) (t : ColorTree ν) :
    (t.setColor c).ptr nil = t.ptr nil := by
  cases t <;> rfl

theorem ColorTree.ptr_mem (nil : ν) {t : ColorTree ν} (h : t ≠ leaf) : t.ptr nil ∈ t.items := by
  cases t with
  | leaf => exact absurd rfl h
  | node c l x r => simp [ColorTree.ptr, items]

theorem ColorTree.ptr_eq_nil {nil : ν} {t : ColorTree ν} (hnil : nil ∉ t.items) : t.ptr nil = nil ↔ t = leaf := by
  constructor
  · intro h
    by_contra hne
    have hmem := ptr_mem nil hne
    rw [h] at hmem
    exact hnil hmem
  · rintro rfl
    rfl

/-- A node that is not in a subtree, and the pointer to it. -/
theorem ColorTree.ne_ptr {nil z : ν} {t : ColorTree ν} (hnil : z ≠ nil) (hz : z ∉ t.items) : z ≠ t.ptr nil := by
  rintro rfl
  cases t with
  | leaf => exact hnil rfl
  | node c l x r => exact hz (ptr_mem _ nofun)

/-- The node above a place. -/
def top (root : ν) : TreePath ν → ν
  | [] => root
  | f :: _ => f.item

/-- The side of the node above that a place is on. -/
def slot : TreePath ν → Side
  | [] => .left
  | f :: _ => f.side

/-- **The subtree `t`** with the parent `up`. -/
def IsTree (h : Heap ν) (nil : ν) : ν → ColorTree ν → Prop
  | _, leaf => True
  | up, node c l x r => h.color x = c ∧ h.up x = up ∧ h.child x .left = l.ptr nil ∧ h.child x .right = r.ptr nil ∧
      IsTree h nil x l ∧ IsTree h nil x r

/-- **What is around** the subtree at `x`. -/
def IsPath (h : Heap ν) (nil root : ν) : ν → TreePath ν → Prop
  | x, [] => h.child root .left = x
  | x, f :: p => h.color f.item = f.color ∧ h.up f.item = top root p ∧ h.child f.item f.side = x ∧
      h.child f.item f.side.other = f.sibling.ptr nil ∧ IsTree h nil f.item f.sibling ∧
      IsPath h nil root f.item p

/-- **The tree with a place in it**: the nodes are distinct, and none of them is a sentinel. -/
structure IsZip (h : Heap ν) (nil root : ν) (t : ColorTree ν) (p : TreePath ν) : Prop where
  tree : IsTree h nil (top root p) t
  path : IsPath h nil root (t.ptr nil) p
  nodup : (nil :: root :: (t.items ++ pathItems p)).Nodup

section

variable {h h' : Heap ν} {nil root x y up : ν} {t t' near far : ColorTree ν} {p : TreePath ν} {f : Frame ν} {d : Side}
  {c : Color}

theorem isTree_onSide : IsTree h nil up (onSide d c near x far) ↔
    h.color x = c ∧ h.up x = up ∧ h.child x d = near.ptr nil ∧ h.child x d.other = far.ptr nil ∧
      IsTree h nil x near ∧ IsTree h nil x far := by
  cases d with
  | left => exact Iff.rfl
  | right =>
    simp only [onSide, IsTree, Side.other]
    tauto

theorem perm_onSide_pathItems (d : Side) (c : Color) (t : ColorTree ν) (x : ν) (s : ColorTree ν) (p : TreePath ν) :
    ((onSide d c t x s).items ++ pathItems p).Perm (t.items ++ pathItems (⟨d, c, x, s⟩ :: p)) := by
  have h₁ := perm_pathItems (⟨d, c, x, s⟩ :: p) t.items
  have h₂ := perm_pathItems p (onSide d c t x s).items
  have hsame : before p ++ ((onSide d c t x s).items ++ after p) =
      before (⟨d, c, x, s⟩ :: p) ++ (t.items ++ after (⟨d, c, x, s⟩ :: p)) := by
    cases d <;> simp [before, after, items_onSide, between]
  rw [hsame] at h₂
  exact h₂.symm.trans h₁

/-- **Going up and down** moves nothing. -/
theorem isZip_cons :
    IsZip h nil root t (f :: p) ↔ IsZip h nil root (onSide f.side f.color t f.item f.sibling) p := by
  have hnd : (nil :: root :: (t.items ++ pathItems (f :: p))).Nodup ↔
      (nil :: root :: ((onSide f.side f.color t f.item f.sibling).items ++ pathItems p)).Nodup :=
    (((perm_onSide_pathItems f.side f.color t f.item f.sibling p).cons root).cons nil).nodup_iff.symm
  constructor
  · rintro ⟨ht, ⟨hcolor, hup, hside, hother, hs, hp⟩, hn⟩
    exact ⟨isTree_onSide.mpr ⟨hcolor, hup, hside, hother, ht, hs⟩, by rw [ptr_onSide]; exact hp, hnd.mp hn⟩
  · rintro ⟨ht, hp, hn⟩
    obtain ⟨hcolor, hup, hside, hother, htree, hs⟩ := isTree_onSide.mp ht
    rw [ptr_onSide] at hp
    exact ⟨htree, ⟨hcolor, hup, hside, hother, hs, hp⟩, hnd.mpr hn⟩

theorem isZip_plug : ∀ {p : TreePath ν} {t : ColorTree ν}, IsZip h nil root t p ↔ IsZip h nil root (plug p t) []
  | [], _ => Iff.rfl
  | f :: p, t => by
    rw [isZip_cons, plug_cons]
    exact isZip_plug

theorem isZip_append : ∀ {q p : TreePath ν} {t : ColorTree ν},
    IsZip h nil root t (q ++ p) ↔ IsZip h nil root (plug q t) p
  | [], _, _ => Iff.rfl
  | f :: q, p, t => by
    rw [List.cons_append, isZip_cons, plug_cons]
    exact isZip_append

namespace IsZip

theorem top_mem (root : ν) (p : TreePath ν) : top root p ∈ root :: pathItems p := by
  cases p with
  | nil => exact List.mem_cons_self ..
  | cons f p => exact List.mem_cons_of_mem _ (List.mem_cons_self ..)

/-- The nodes above a place are not below it. -/
theorem above (hz : IsZip h nil root t p) {z : ν} (hm : z ∈ root :: pathItems p) : z ≠ nil ∧ z ∉ t.items := by
  have hnd := hz.nodup
  rw [List.nodup_cons, List.nodup_cons, List.nodup_append', List.mem_cons, List.mem_append, List.mem_append] at hnd
  obtain ⟨hnil, hroot, -, -, hdisj⟩ := hnd
  rcases List.mem_cons.mp hm with rfl | hm
  · exact ⟨fun he => hnil (Or.inl he.symm), fun ht => hroot (Or.inl ht)⟩
  · exact ⟨fun he => hnil (Or.inr (Or.inr (he ▸ hm))), fun ht => hdisj ht hm⟩

/-- The pointer of the node above. -/
theorem child_top (hz : IsZip h nil root t p) : h.child (top root p) (slot p) = t.ptr nil := by
  cases p with
  | nil => exact hz.path
  | cons f p => exact hz.path.2.2.1

theorem up_ptr (hz : IsZip h nil root t p) (hne : t ≠ leaf) : h.up (t.ptr nil) = top root p := by
  cases t with
  | leaf => exact absurd rfl hne
  | node c l x r => exact hz.tree.2.1

theorem color_ptr (hz : IsZip h nil root t p) (hnil : h.color nil = .black) : h.color (t.ptr nil) = t.color := by
  cases t with
  | leaf => exact hnil
  | node c l x r => exact hz.tree.1

end IsZip

/-! ## Other heaps -/

/-- A subtree depends on its own nodes. -/
theorem IsTree.congr : ∀ {t : ColorTree ν} {up : ν}, IsTree h nil up t → (∀ x ∈ t.items, SameNode h h' x) →
    IsTree h' nil up t
  | leaf, _, _, _ => trivial
  | node c l x r, up, ⟨hcolor, hup, hleft, hright, hl, hr⟩, hsame => by
    have hx : SameNode h h' x := hsame x (List.mem_append_right _ (List.mem_cons_self ..))
    refine ⟨hx.color.trans hcolor, hx.up.trans hup, (hx.child _).trans hleft, (hx.child _).trans hright, ?_, ?_⟩
    · exact hl.congr fun y hy => hsame y (List.mem_append_left _ hy)
    · exact hr.congr fun y hy => hsame y (List.mem_append_right _ (List.mem_cons_of_mem _ hy))

/-- **A subtree below another node**: its root has another parent. -/
theorem IsTree.reparent (ht : IsTree h nil up t) (hnd : t.items.Nodup)
    (hsame : ∀ x ∈ t.items, x ≠ t.ptr nil → SameNode h h' x)
    (hroot : t ≠ leaf → (∀ d, h'.child (t.ptr nil) d = h.child (t.ptr nil) d) ∧
      h'.color (t.ptr nil) = h.color (t.ptr nil) ∧ h'.up (t.ptr nil) = y) : IsTree h' nil y t := by
  cases t with
  | leaf => trivial
  | node c l x r =>
    obtain ⟨hcolor, hup, hleft, hright, hl, hr⟩ := ht
    obtain ⟨hchild', hcolor', hup'⟩ := hroot nofun
    rw [items, List.nodup_append', List.nodup_cons, List.disjoint_cons_right] at hnd
    obtain ⟨-, ⟨hxr, -⟩, hxl, -⟩ := hnd
    refine ⟨hcolor'.trans hcolor, hup', (hchild' _).trans hleft, (hchild' _).trans hright, ?_, ?_⟩
    · refine hl.congr fun z hz => hsame z (List.mem_append_left _ hz) ?_
      rintro rfl
      exact hxl hz
    · refine hr.congr fun z hz => hsame z (List.mem_append_right _ (List.mem_cons_of_mem _ hz)) ?_
      rintro rfl
      exact hxr hz

/-- What is around a place depends on the nodes of the path, but for the pointer to the place. -/
theorem IsPath.refocus (hp : IsPath h nil root x p) (hnd : (root :: pathItems p).Nodup)
    (hsame : ∀ z ∈ root :: pathItems p, z ≠ top root p → SameNode h h' z)
    (htop : p ≠ [] → h'.color (top root p) = h.color (top root p) ∧ h'.up (top root p) = h.up (top root p) ∧
      h'.child (top root p) (slot p).other = h.child (top root p) (slot p).other)
    (hslot : h'.child (top root p) (slot p) = y) : IsPath h' nil root y p := by
  cases p with
  | nil => exact hslot
  | cons f p =>
    obtain ⟨hcolor, hup, hside, hother, hs, hp⟩ := hp
    obtain ⟨hcolor', hup', hother'⟩ := htop (List.cons_ne_nil _ _)
    rw [pathItems, List.nodup_cons, List.nodup_cons, List.mem_cons, not_or] at hnd
    obtain ⟨⟨hrootf, hroot⟩, hf, -⟩ := hnd
    have hrest : ∀ z ∈ root :: pathItems p, SameNode h h' z := by
      intro z hz
      refine hsame z ?_ ?_
      · rcases List.mem_cons.mp hz with rfl | hz
        · exact List.mem_cons_self ..
        · exact List.mem_cons_of_mem _ (List.mem_cons_of_mem _ (List.mem_append_right _ hz))
      · rintro rfl
        rcases List.mem_cons.mp hz with hz | hz
        · exact hrootf hz.symm
        · exact hf (List.mem_append_right _ hz)
    refine ⟨hcolor'.trans hcolor, hup'.trans hup, hslot, hother'.trans hother, ?_, ?_⟩
    · refine hs.congr fun z hz => hsame z ?_ ?_
      · exact List.mem_cons_of_mem _ (List.mem_cons_of_mem _ (List.mem_append_left _ hz))
      · rintro rfl
        exact hf (List.mem_append_left _ hz)
    · have hcongr : ∀ {q : TreePath ν} {x : ν}, (∀ z ∈ root :: pathItems q, SameNode h h' z) →
          IsPath h nil root x q → IsPath h' nil root x q := by
        intro q
        induction q with
        | nil => exact fun hz hq => ((hz root (List.mem_cons_self ..)).child _).trans hq
        | cons g q ih =>
          rintro x hz ⟨hc, hu, hd, ho, hg, hq⟩
          have hitem : SameNode h h' g.item := hz _ (List.mem_cons_of_mem _ (List.mem_cons_self ..))
          refine ⟨hitem.color.trans hc, hitem.up.trans hu, (hitem.child _).trans hd, (hitem.child _).trans ho, ?_, ?_⟩
          · exact hg.congr fun z hm =>
              hz z (List.mem_cons_of_mem _ (List.mem_cons_of_mem _ (List.mem_append_left _ hm)))
          · refine ih (fun z hm => hz z ?_) hq
            rcases List.mem_cons.mp hm with rfl | hm
            · exact List.mem_cons_self ..
            · exact List.mem_cons_of_mem _ (List.mem_cons_of_mem _ (List.mem_append_right _ hm))
      exact hcongr hrest hp

namespace IsZip

/-- **Frame rule.** -/
theorem frame (hz : IsZip h nil root t p) (hsame : ∀ x ∈ root :: (t.items ++ pathItems p), SameNode h h' x) :
    IsZip h' nil root t p := by
  have hnd := hz.nodup
  have hroot : (root :: pathItems p).Nodup :=
    (List.nodup_cons.mp hnd).2.sublist ((List.sublist_append_right t.items (pathItems p)).cons_cons root)
  have hpath : ∀ z ∈ root :: pathItems p, SameNode h h' z := by
    intro z hm
    refine hsame z ?_
    rcases List.mem_cons.mp hm with rfl | hm
    · exact List.mem_cons_self ..
    · exact List.mem_cons_of_mem _ (List.mem_append_right _ hm)
  have htop := hpath _ (top_mem _ p)
  refine ⟨hz.tree.congr fun x hx => hsame x (List.mem_cons_of_mem _ (List.mem_append_left _ hx)), ?_, hnd⟩
  exact hz.path.refocus hroot (fun z hm _ => hpath z hm) (fun _ => ⟨htop.color, htop.up, htop.child _⟩)
    ((htop.child _).trans hz.child_top)

/-- **Another subtree** in the place of one. -/
theorem replace (hz : IsZip h nil root t p) (ht : IsTree h' nil (top root p) t')
    (hnd : (nil :: root :: (t'.items ++ pathItems p)).Nodup)
    (hsame : ∀ z ∈ root :: pathItems p, z ≠ top root p → SameNode h h' z)
    (htop : p ≠ [] → h'.color (top root p) = h.color (top root p) ∧ h'.up (top root p) = h.up (top root p) ∧
      h'.child (top root p) (slot p).other = h.child (top root p) (slot p).other)
    (hslot : h'.child (top root p) (slot p) = t'.ptr nil) : IsZip h' nil root t' p := by
  have hroot : (root :: pathItems p).Nodup :=
    (List.nodup_cons.mp hnd).2.sublist ((List.sublist_append_right t'.items (pathItems p)).cons_cons root)
  exact ⟨ht, hz.path.refocus hroot hsame htop hslot, hnd⟩

/-- **Writing a colour.** -/
theorem recolor [DecidableEq ν] (hz : IsZip h nil root t p) (hne : t ≠ leaf) (c : Color) :
    IsZip (h.setColor (t.ptr nil) c) nil root (t.setColor c) p := by
  have hnd := hz.nodup
  have hsame : ∀ z, z ≠ t.ptr nil → SameNode h (h.setColor (t.ptr nil) c) z := fun z hz =>
    ⟨fun _ => rfl, rfl, by rw [Heap.setColor_color, if_neg hz]⟩
  have houtside : ∀ z ∈ root :: pathItems p, z ≠ t.ptr nil := by
    rintro z hm rfl
    have hmem := ptr_mem nil hne
    rw [List.nodup_cons, List.nodup_cons, List.nodup_append'] at hnd
    rcases List.mem_cons.mp hm with hroot | hm
    · exact hnd.2.1 (List.mem_append_left _ (hroot ▸ hmem))
    · exact hnd.2.2.2.2 hmem hm
  have htop := hsame _ (houtside _ (top_mem _ p))
  refine hz.replace ?_ (by rw [items_setColor]; exact hnd) (fun z hm _ => hsame z (houtside z hm))
    (fun _ => ⟨htop.color, htop.up, htop.child _⟩) ?_
  · cases t with
    | leaf => exact absurd rfl hne
    | node c' l x r =>
      obtain ⟨-, hup, hleft, hright, hl, hr⟩ := hz.tree
      have hitems : (l.items ++ x :: r.items).Nodup :=
        ((List.nodup_cons.mp (List.nodup_cons.mp hnd).2).2).of_append_left
      rw [List.nodup_append', List.nodup_cons, List.disjoint_cons_right] at hitems
      obtain ⟨-, ⟨hxr, -⟩, hxl, -⟩ := hitems
      refine ⟨by rw [Heap.setColor_color]; exact if_pos rfl, hup, hleft, hright, ?_, ?_⟩
      · refine hl.congr fun z hm => hsame z ?_
        rintro rfl
        exact hxl hm
      · refine hr.congr fun z hm => hsame z ?_
        rintro rfl
        exact hxr hm
  · rw [ptr_setColor]
    exact hz.child_top

/-- **A new item** in the place of a leaf. -/
theorem graft [DecidableEq ν] (hz : IsZip h nil root leaf p)
    (hx : x ∉ nil :: root :: pathItems p) (hleft : h.child x .left = nil) (hright : h.child x .right = nil)
    (hred : h.color x = .red) :
    IsZip ((h.setChild (top root p) (slot p) x).setUp x (top root p)) nil root (node .red leaf x leaf) p := by
  have hnd := hz.nodup
  have hxq : x ≠ top root p := by
    rintro rfl
    exact hx (List.mem_cons_of_mem _ (top_mem _ p))
  have hsame : ∀ z, z ≠ x → z ≠ top root p →
      SameNode h ((h.setChild (top root p) (slot p) x).setUp x (top root p)) z := by
    intro z hzx hzq
    exact ⟨fun d => by simp [hzq], by simp [hzx], rfl⟩
  refine hz.replace ⟨hred, by simp, ?_, ?_, trivial, trivial⟩ ?_ (fun z hm hzq => hsame z ?_ hzq)
    (fun _ => ⟨rfl, by simp [hxq.symm], by simp [Side.other_ne]⟩) (by simp [ptr])
  · simp [hxq, hleft, ptr]
  · simp [hxq, hright, ptr]
  · have hperm : (nil :: root :: ((node .red leaf x leaf).items ++ pathItems p)).Perm
        (x :: (nil :: root :: (leaf.items ++ pathItems p))) := by
      simp only [ColorTree.items, List.nil_append, List.singleton_append]
      exact ((List.Perm.swap x root _).cons nil).trans (List.Perm.swap x nil _)
    exact hperm.nodup_iff.mpr (List.nodup_cons.mpr ⟨hx, hnd⟩)
  · rintro rfl
    exact hx (List.mem_cons_of_mem _ hm)

/-- **A subtree** in the place of the node above it, which has no other one. -/
theorem cut [DecidableEq ν] (hz : IsZip h nil root (onSide d c leaf x t) p) :
    IsZip ((h.setUp (t.ptr nil) (top root p)).setChild (top root p) (slot p) (t.ptr nil)) nil root t p := by
  have htop := top_mem root p
  have hsub : ∀ z ∈ t.items, z ∈ (onSide d c leaf x t).items := fun z hm => mem_items_onSide.mpr (Or.inr (Or.inr hm))
  have habove : ∀ z ∈ root :: pathItems p, z ≠ t.ptr nil := fun z hm =>
    ne_ptr (hz.above hm).1 fun ht => (hz.above hm).2 (hsub z ht)
  have hbelow : ∀ z ∈ t.items, z ≠ top root p := by
    rintro z hm rfl
    exact (hz.above htop).2 (hsub _ hm)
  obtain ⟨-, -, -, -, -, ht⟩ := isTree_onSide.mp hz.tree
  have hnd : (nil :: root :: (t.items ++ pathItems p)).Nodup := by
    have hlist : t.items.Sublist (onSide d c leaf x t).items := by
      rw [items_onSide]
      cases d with
      | left => exact List.sublist_cons_self ..
      | right => exact List.sublist_append_left ..
    exact hz.nodup.sublist (((hlist.append_right (pathItems p)).cons_cons root).cons_cons nil)
  have htnd : t.items.Nodup := ((List.nodup_cons.mp (List.nodup_cons.mp hnd).2).2).of_append_left
  refine hz.replace (ht.reparent htnd (fun z hm hne => ⟨fun e => ?_, ?_, rfl⟩) fun hne => ⟨fun e => ?_, rfl, ?_⟩)
    hnd (fun z hm hzt => ⟨fun e => ?_, ?_, rfl⟩) (fun _ => ⟨rfl, ?_, ?_⟩) (by simp)
  · simp [hbelow z hm]
  · simp [hne]
  · simp [hbelow _ (ptr_mem _ hne)]
  · simp
  · simp [hzt]
  · simp [habove z hm]
  · simp [habove _ htop]
  · simp [Side.other_ne]

end IsZip

end

end RedBlack
