import Mathlib.Data.List.Basic
import Mathlib.Data.List.Nodup
import Mathlib.Algebra.Group.Nat.Defs
import Mathlib.Data.Nat.Log

/-!
# Red-black trees and their zippers

Binary trees with coloured nodes, and the places in them.

* `ColorTree.onSide d c near x far` — the node with `near` on the side `d`; with it one statement serves both mirror
  images.
* `TreePath`, `plug` — what is around a subtree, innermost frame first, and the tree that it makes with a subtree.
* `IsRedBlack t c n` — a red-black tree of black height `n` whose root has the colour `c`.
* `IsRedBlackPath p c n` — what is missing of a red-black tree when a subtree of black height `n` is taken out;
  `c` is the colour above the hole.

Principal results: `IsRedBlack.height_le` (a search is logarithmic), `IsRedBlackPath.plug` and `IsRedBlack.unplug`
(taking a subtree out and putting one in), `Short.sides` and its neighbours (what the cases of a deletion leave).
-/

set_option autoImplicit false

namespace RedBlack

inductive Color where
  | red
  | black
  deriving DecidableEq, Repr

inductive Side where
  | left
  | right
  deriving DecidableEq, Repr

def Side.other : Side → Side
  | .left => .right
  | .right => .left

@[simp] theorem Side.other_other (d : Side) : d.other.other = d := by cases d <;> rfl

theorem Side.other_ne (d : Side) : d.other ≠ d := by cases d <;> nofun

theorem Side.eq_other_of_ne {d d' : Side} (h : d ≠ d') : d = d'.other := by
  cases d <;> cases d' <;> first | rfl | exact absurd rfl h

theorem Side.forall {P : Side → Prop} (d : Side) : (∀ d', P d') ↔ P d ∧ P d.other := by
  cases d
  · exact ⟨fun h => ⟨h _, h _⟩, fun h d' => by cases d' <;> simp_all [Side.other]⟩
  · exact ⟨fun h => ⟨h _, h _⟩, fun h d' => by cases d' <;> simp_all [Side.other]⟩

inductive ColorTree (ν : Type) where
  | leaf
  | node (c : Color) (l : ColorTree ν) (x : ν) (r : ColorTree ν)
  deriving DecidableEq, Repr

variable {ν : Type}

namespace ColorTree

/-- Leaves are black. -/
def color : ColorTree ν → Color
  | leaf => .black
  | node c _ _ _ => c

/-- The items, in order. -/
def items : ColorTree ν → List ν
  | leaf => []
  | node _ l x r => l.items ++ x :: r.items

def height : ColorTree ν → Nat
  | leaf => 0
  | node _ l _ r => max l.height r.height + 1

theorem height_le_length : ∀ t : ColorTree ν, t.height ≤ t.items.length
  | leaf => Nat.zero_le _
  | node _ l _ r => by
    have hl := height_le_length l
    have hr := height_le_length r
    rw [height, items, List.length_append, List.length_cons]
    omega

/-- The node with `near` on the side `d` and `far` on the other. -/
def onSide (d : Side) (c : Color) (near : ColorTree ν) (x : ν) (far : ColorTree ν) : ColorTree ν :=
  match d with
  | .left => node c near x far
  | .right => node c far x near

def setColor (c : Color) : ColorTree ν → ColorTree ν
  | leaf => leaf
  | node _ l x r => node c l x r

theorem node_ne_leaf {c : Color} {l r : ColorTree ν} {x : ν} : node c l x r ≠ leaf := nofun

/-- Each node can be seen from either side. -/
theorem exists_onSide (d : Side) {t : ColorTree ν} (h : t ≠ leaf) :
    ∃ near x far, t = onSide d t.color near x far := by
  cases t with
  | leaf => exact absurd rfl h
  | node c l x r =>
    cases d with
    | left => exact ⟨l, x, r, rfl⟩
    | right => exact ⟨r, x, l, rfl⟩

theorem ne_leaf_of_red {t : ColorTree ν} (h : t.color = .red) : t ≠ leaf := by
  rintro rfl
  cases h

section

variable {d : Side} {c c' : Color} {near far : ColorTree ν} {x : ν}

@[simp] theorem color_onSide : (onSide d c near x far).color = c := by cases d <;> rfl

@[simp] theorem setColor_onSide : (onSide d c near x far).setColor c' = onSide d c' near x far := by
  cases d <;> rfl

@[simp] theorem onSide_ne_leaf : onSide d c near x far ≠ leaf := by cases d <;> nofun

theorem onSide_other : onSide d.other c near x far = onSide d c far x near := by cases d <;> rfl

end

@[simp] theorem items_setColor (c : Color) (t : ColorTree ν) : (t.setColor c).items = t.items := by cases t <;> rfl

@[simp] theorem color_setColor_black (t : ColorTree ν) : (t.setColor .black).color = .black := by cases t <;> rfl

theorem setColor_color (t : ColorTree ν) : t.setColor t.color = t := by cases t <;> rfl

end ColorTree

open ColorTree

/-- A list with `near` on the side `d` of an item. -/
def between (d : Side) (near : List ν) (x : ν) (far : List ν) : List ν :=
  match d with
  | .left => near ++ x :: far
  | .right => far ++ x :: near

theorem items_onSide (d : Side) (c : Color) (near : ColorTree ν) (x : ν) (far : ColorTree ν) :
    (onSide d c near x far).items = between d near.items x far.items := by cases d <;> rfl

@[simp] theorem mem_between {d : Side} {near far : List ν} {x y : ν} :
    y ∈ between d near x far ↔ y ∈ near ∨ y = x ∨ y ∈ far := by
  cases d
  · simp only [between, List.mem_append, List.mem_cons]
  · simp only [between, List.mem_append, List.mem_cons]
    tauto

@[simp] theorem mem_items_onSide {d : Side} {c : Color} {near far : ColorTree ν} {x y : ν} :
    y ∈ (onSide d c near x far).items ↔ y ∈ near.items ∨ y = x ∨ y ∈ far.items := by
  rw [items_onSide, mem_between]

theorem nodup_between {d : Side} {near far : List ν} {x : ν} :
    (between d near x far).Nodup ↔
      x ∉ near ∧ x ∉ far ∧ near.Nodup ∧ far.Nodup ∧ List.Disjoint near far := by
  cases d with
  | left =>
    simp only [between, List.nodup_append', List.nodup_cons, List.disjoint_cons_right]
    tauto
  | right =>
    simp only [between, List.nodup_append', List.nodup_cons, List.disjoint_cons_right]
    have hcomm : List.Disjoint far near ↔ List.Disjoint near far := List.disjoint_comm
    tauto

/-- **A rotation** keeps the order. -/
theorem between_rotate (d : Side) (w : List ν) (x : ν) (b : List ν) (y : ν) (z : List ν) :
    between d (between d w x b) y z = between d w x (between d b y z) := by
  cases d <;> simp [between]

/-! ## Paths -/

/-- A node on the way to a subtree: the side that the subtree is on, and what is on the other. -/
structure Frame (ν : Type) where
  side : Side
  color : Color
  item : ν
  sibling : ColorTree ν

/-- The way to a subtree, from its parent up. -/
abbrev TreePath (ν : Type) := List (Frame ν)

/-- The tree that a subtree makes with what is around it. -/
def plug : TreePath ν → ColorTree ν → ColorTree ν
  | [], t => t
  | f :: p, t => plug p (onSide f.side f.color t f.item f.sibling)

/-- The items before a subtree. -/
def before : TreePath ν → List ν
  | [] => []
  | f :: p => match f.side with
    | .left => before p
    | .right => before p ++ (f.sibling.items ++ [f.item])

/-- The items after a subtree. -/
def after : TreePath ν → List ν
  | [] => []
  | f :: p => match f.side with
    | .left => f.item :: f.sibling.items ++ after p
    | .right => after p

theorem items_plug : ∀ (p : TreePath ν) (t : ColorTree ν), (plug p t).items = before p ++ (t.items ++ after p)
  | [], t => by simp [plug, before, after]
  | ⟨d, c, x, s⟩ :: p, t => by
    rw [plug, items_plug p]
    cases d <;> simp [before, after, items_onSide, between]

/-- The items of a path. -/
def pathItems : TreePath ν → List ν
  | [] => []
  | f :: p => f.item :: (f.sibling.items ++ pathItems p)

theorem perm_pathItems : ∀ (p : TreePath ν) (l : List ν), (before p ++ (l ++ after p)).Perm (l ++ pathItems p)
  | [], l => by simp [before, after, pathItems]
  | ⟨d, c, x, s⟩ :: p, l => by
    have hnext := perm_pathItems p (between d l x s.items)
    cases d with
    | left =>
      simp only [before, after, pathItems, between] at hnext ⊢
      simpa using hnext
    | right =>
      have hswap : (s.items ++ x :: l).Perm (l ++ (x :: s.items)) :=
        (List.perm_middle.trans (List.perm_append_comm.cons x)).trans List.perm_middle.symm
      have hall := hswap.append_right (pathItems p)
      simp only [before, after, pathItems, between, List.append_assoc, List.cons_append, List.nil_append]
        at hnext hall ⊢
      exact hnext.trans hall

theorem perm_items_plug (p : TreePath ν) (t : ColorTree ν) : (plug p t).items.Perm (t.items ++ pathItems p) := by
  rw [items_plug]
  exact perm_pathItems p t.items

@[simp] theorem plug_cons (f : Frame ν) (p : TreePath ν) (t : ColorTree ν) :
    plug (f :: p) t = plug p (onSide f.side f.color t f.item f.sibling) := rfl

theorem plug_append : ∀ (q p : TreePath ν) (t : ColorTree ν), plug (q ++ p) t = plug p (plug q t)
  | [], _, _ => rfl
  | f :: q, p, t => by rw [List.cons_append, plug, plug, plug_append q p]

/-- Each item has its place. -/
theorem exists_plug {x : ν} : ∀ {t : ColorTree ν}, x ∈ t.items → ∃ p c l r, t = plug p (node c l x r)
  | leaf, h => absurd h List.not_mem_nil
  | node c l y r, h => by
    rw [items, List.mem_append, List.mem_cons] at h
    rcases h with h | rfl | h
    · obtain ⟨p, c', l', r', rfl⟩ := exists_plug h
      exact ⟨p ++ [⟨.left, c, y, r⟩], c', l', r', by rw [plug_append]; rfl⟩
    · exact ⟨[], c, l, r, rfl⟩
    · obtain ⟨p, c', l', r', rfl⟩ := exists_plug h
      exact ⟨p ++ [⟨.right, c, y, l⟩], c', l', r', by rw [plug_append]; rfl⟩

/-- The first item of a tree is a node without a left subtree. -/
theorem exists_first : ∀ {t : ColorTree ν}, t ≠ leaf → ∃ p c x r, t = plug p (node c leaf x r) ∧ before p = []
  | leaf, h => absurd rfl h
  | node c leaf x r, _ => ⟨[], c, x, r, rfl, rfl⟩
  | node c (node c₁ l₁ x₁ r₁) x r, _ => by
    have hne : node c₁ l₁ x₁ r₁ ≠ leaf := node_ne_leaf
    obtain ⟨p, c', x', r', hplug, hbefore⟩ := exists_first hne
    refine ⟨p ++ [⟨.left, c, x, r⟩], c', x', r', by rw [plug_append, ← hplug]; rfl, ?_⟩
    have happend : ∀ q : TreePath ν, before q = [] → before (q ++ [⟨.left, c, x, r⟩]) = [] := by
      intro q hq
      induction q with
      | nil => rfl
      | cons f q ih =>
        obtain ⟨d, cf, xf, s⟩ := f
        cases d with
        | left => exact ih hq
        | right => simp [before] at hq
    exact happend p hbefore

/-! ## Balance -/

/-- **Red-black trees.** -/
inductive IsRedBlack : ColorTree ν → Color → Nat → Prop
  | leaf : IsRedBlack leaf .black 0
  | red {l r : ColorTree ν} {n : Nat} (x : ν) (hl : IsRedBlack l .black n) (hr : IsRedBlack r .black n) :
      IsRedBlack (node .red l x r) .red n
  | black {l r : ColorTree ν} {c c' : Color} {n : Nat} (x : ν) (hl : IsRedBlack l c n) (hr : IsRedBlack r c' n) :
      IsRedBlack (node .black l x r) .black (n + 1)

namespace IsRedBlack

variable {t near far : ColorTree ν} {c c' : Color} {n m : Nat} {d : Side} {x : ν}

theorem color_eq (h : IsRedBlack t c n) : t.color = c := by cases h <;> rfl

theorem redOn (d : Side) (x : ν) (hn : IsRedBlack near .black n) (hf : IsRedBlack far .black n) :
    IsRedBlack (onSide d .red near x far) .red n := by
  cases d with
  | left => exact .red x hn hf
  | right => exact .red x hf hn

theorem blackOn (d : Side) (x : ν) (hn : IsRedBlack near c n) (hf : IsRedBlack far c' n) :
    IsRedBlack (onSide d .black near x far) .black (n + 1) := by
  cases d with
  | left => exact .black x hn hf
  | right => exact .black x hf hn

theorem of_redOn (h : IsRedBlack (onSide d .red near x far) c n) :
    c = .red ∧ IsRedBlack near .black n ∧ IsRedBlack far .black n := by
  cases d with
  | left => cases h with | red _ hl hr => exact ⟨rfl, hl, hr⟩
  | right => cases h with | red _ hl hr => exact ⟨rfl, hr, hl⟩

theorem of_blackOn (h : IsRedBlack (onSide d .black near x far) c m) :
    ∃ n c₁ c₂, m = n + 1 ∧ c = .black ∧ IsRedBlack near c₁ n ∧ IsRedBlack far c₂ n := by
  cases d with
  | left => cases h with | black _ hl hr => exact ⟨_, _, _, rfl, rfl, hl, hr⟩
  | right => cases h with | black _ hl hr => exact ⟨_, _, _, rfl, rfl, hr, hl⟩

/-- A tree with a black root over the same subtrees. -/
theorem blacken (h : IsRedBlack t c n) : ∃ m, IsRedBlack (t.setColor .black) .black m := by
  cases h with
  | leaf => exact ⟨0, .leaf⟩
  | red x hl hr => exact ⟨_, .black x hl hr⟩
  | black x hl hr => exact ⟨_, .black x hl hr⟩

/-- A black root that is not a leaf has something below it. -/
theorem ne_leaf (h : IsRedBlack t c (n + 1)) : t ≠ ColorTree.leaf := by
  rintro rfl
  cases h

theorem pow_le (h : IsRedBlack t c n) : 2 ^ n ≤ t.items.length + 1 := by
  induction h with
  | leaf => simp [items]
  | red x _ _ hl hr =>
    rw [items, List.length_append, List.length_cons]
    omega
  | black x _ _ hl hr =>
    rw [items, List.length_append, List.length_cons, Nat.pow_succ]
    omega

theorem height_le_double (h : IsRedBlack t c n) : t.height ≤ 2 * n + if c = .red then 1 else 0 := by
  have hle : ∀ c : Color, (if c = .red then 1 else 0) ≤ 1 := fun c => by split <;> omega
  induction h with
  | leaf => simp [height]
  | red x _ _ hl hr =>
    simp only [height, reduceCtorEq, if_false, if_true] at hl hr ⊢
    omega
  | black x _ _ hl hr =>
    have hl' := hl.trans (Nat.add_le_add_left (hle _) _)
    have hr' := hr.trans (Nat.add_le_add_left (hle _) _)
    simp only [height, reduceCtorEq, if_false]
    omega

/-- **The height** of a red-black tree with a black root is logarithmic. -/
theorem height_le (h : IsRedBlack t .black n) : t.height ≤ 2 * Nat.log 2 (t.items.length + 1) := by
  have hdouble := h.height_le_double
  have hlog : n ≤ Nat.log 2 (t.items.length + 1) := Nat.le_log_of_pow_le (by decide) h.pow_le
  simp only [reduceCtorEq, if_false] at hdouble
  omega

end IsRedBlack

/-- **What is around a subtree** of black height `n`: `c` is the colour of its parent, or black at the top.  A red
node is not the root. -/
inductive IsRedBlackPath : TreePath ν → Color → Nat → Prop
  | top (n : Nat) : IsRedBlackPath [] .black n
  | red {s : ColorTree ν} {p : TreePath ν} {n : Nat} (d : Side) (x : ν) (hs : IsRedBlack s .black n)
      (hp : IsRedBlackPath p .black n) (hne : p ≠ []) : IsRedBlackPath (⟨d, .red, x, s⟩ :: p) .red n
  | black {s : ColorTree ν} {p : TreePath ν} {c c' : Color} {n : Nat} (d : Side) (x : ν) (hs : IsRedBlack s c n)
      (hp : IsRedBlackPath p c' (n + 1)) : IsRedBlackPath (⟨d, .black, x, s⟩ :: p) .black n

/-- **Putting a subtree in.**  A red one goes below a black node only. -/
theorem IsRedBlackPath.plug : ∀ {p : TreePath ν} {c c' : Color} {n : Nat} {t : ColorTree ν}, IsRedBlackPath p c n →
    IsRedBlack t c' n → (c' = .red → c = .black ∧ p ≠ []) → ∃ m, IsRedBlack (plug p t) .black m
  | _, _, c', n, t, .top _, ht, hc => by
    cases c' with
    | red => exact absurd rfl (hc rfl).2
    | black => exact ⟨n, ht⟩
  | _, _, c', n, t, .red d x hs hp hne, ht, hc => by
    cases c' with
    | red => cases (hc rfl).1
    | black => exact hp.plug (.redOn d x ht hs) fun _ => ⟨rfl, hne⟩
  | _, _, c', n, t, .black d x hs hp, ht, _ => hp.plug (.blackOn d x ht hs) nofun

/-- **Taking a subtree out.** -/
theorem IsRedBlack.unplug : ∀ {p : TreePath ν} {t : ColorTree ν} {m : Nat}, IsRedBlack (plug p t) .black m →
    ∃ c c' n, IsRedBlackPath p c n ∧ IsRedBlack t c' n ∧ (c' = .red → c = .black ∧ p ≠ [])
  | [], t, m, h => ⟨.black, .black, m, .top m, h, nofun⟩
  | ⟨d, .red, x, s⟩ :: p, t, m, h => by
    have hplug : IsRedBlack (plug p (onSide d .red t x s)) .black m := h
    obtain ⟨c, c', n, hp, ht, hc⟩ := IsRedBlack.unplug hplug
    obtain ⟨rfl, hnear, hfar⟩ := ht.of_redOn
    obtain ⟨rfl, hne⟩ := hc rfl
    exact ⟨.red, .black, n, .red d x hfar hp hne, hnear, nofun⟩
  | ⟨d, .black, x, s⟩ :: p, t, m, h => by
    have hplug : IsRedBlack (plug p (onSide d .black t x s)) .black m := h
    obtain ⟨c, c', n, hp, ht, -⟩ := IsRedBlack.unplug hplug
    obtain ⟨k, c₁, c₂, rfl, rfl, hnear, hfar⟩ := ht.of_blackOn
    exact ⟨.black, c₁, k, .black d x hfar hp, hnear, fun _ => ⟨rfl, List.cons_ne_nil _ _⟩⟩

/-- **Another item** in a node. -/
theorem IsRedBlack.rename {p : TreePath ν} {c : Color} {l r : ColorTree ν} {x : ν} {n : Nat}
    (h : IsRedBlack (RedBlack.plug p (node c l x r)) .black n) (y : ν) :
    ∃ m, IsRedBlack (RedBlack.plug p (node c l y r)) .black m := by
  obtain ⟨c₁, c₂, k, hp, ht, hc⟩ := h.unplug
  refine hp.plug ?_ hc
  cases ht with
  | red _ hl hr => exact .red y hl hr
  | black _ hl hr => exact .black y hl hr

/-! ## After an insertion -/

section Insertion

variable {t s u : ColorTree ν} {p : TreePath ν} {c : Color} {n : Nat} {d : Side} {b g : ν}

/-- A red subtree below a black node, or at the top, once the root is made black. -/
theorem IsRedBlackPath.plug_blacken (hp : IsRedBlackPath p .black n) (ht : IsRedBlack t .red n) :
    ∃ m, IsRedBlack ((RedBlack.plug p t).setColor .black) .black m := by
  cases p with
  | nil => exact ht.blacken
  | cons f p =>
    obtain ⟨m, hm⟩ := hp.plug ht fun _ => ⟨rfl, List.cons_ne_nil _ _⟩
    exact hm.blacken

/-- Above a red node there is a black one. -/
theorem IsRedBlackPath.grandparent (h : IsRedBlackPath p .red n) :
    ∃ d₁ b s d₂ g u p' c₁ c₂, p = ⟨d₁, .red, b, s⟩ :: ⟨d₂, .black, g, u⟩ :: p' ∧ IsRedBlack s .black n ∧
      IsRedBlack u c₁ n ∧ IsRedBlackPath p' c₂ (n + 1) := by
  cases h with
  | red d₁ b hs hp hne =>
    cases hp with
    | top => exact absurd rfl hne
    | black d₂ g hu hp' => exact ⟨_, _, _, _, _, _, _, _, _, rfl, hs, hu, hp'⟩

/-- **A red uncle**: the grandparent becomes red. -/
theorem IsRedBlack.recolour {d₁ d₂ : Side} (ht : IsRedBlack t .red n) (hs : IsRedBlack s .black n)
    (hu : IsRedBlack u .red n) :
    IsRedBlack (onSide d₂ .red (onSide d₁ .black t b s) g (u.setColor .black)) .red (n + 1) := by
  have hblack : IsRedBlack (u.setColor .black) .black (n + 1) := by
    cases hu with
    | red x hl hr => exact .black x hl hr
  exact .redOn d₂ g (.blackOn d₁ b ht hs) hblack

end Insertion

/-! ## After a deletion -/

/-- **A subtree that is one short** of the black height `n + 1` of its place, unless its red root becomes
black. -/
inductive Short : ColorTree ν → Nat → Prop
  | black {t : ColorTree ν} {n : Nat} (ht : IsRedBlack t .black n) : Short t n
  | red {t : ColorTree ν} {n : Nat} (hred : t.color = .red) (ht : IsRedBlack (t.setColor .black) .black (n + 1)) :
    Short t n

namespace Short

variable {t near far : ColorTree ν} {p : TreePath ν} {c c' : Color} {n : Nat} {d : Side} {a w v : ν}

theorem balanced_of_black (h : Short t n) (hblack : t.color = .black) : IsRedBlack t .black n := by
  cases h with
  | black ht => exact ht
  | red hred => rw [hred] at hblack; cases hblack

/-- A subtree below a black node that was taken out. -/
theorem of_balanced (ht : IsRedBlack t c n) : Short t n := by
  cases ht with
  | leaf => exact .black .leaf
  | red x hl hr => exact .red rfl (.black x hl hr)
  | black x hl hr => exact .black (.black x hl hr)

/-- A red root becomes black, and at the top nothing is missing. -/
theorem plug (h : Short t n) (hp : IsRedBlackPath p c (n + 1)) (hend : t.color = .red ∨ p = []) :
    ∃ m, IsRedBlack (RedBlack.plug p (t.setColor .black)) .black m := by
  cases h with
  | black ht =>
    rcases hend with hred | rfl
    · rw [ht.color_eq] at hred
      cases hred
    · exact ht.blacken
  | red hred ht => exact hp.plug ht nofun

/-- The sibling of a subtree that is one short has a node. -/
theorem sibling_ne_leaf {s : ColorTree ν} (hp : IsRedBlackPath (⟨d, c, a, s⟩ :: p) c' (n + 1)) : s ≠ leaf := by
  cases hp with
  | red _ _ hs => exact hs.ne_leaf
  | black _ _ hs => exact hs.ne_leaf

/-- **A red sibling**: after a rotation the sibling is black. -/
theorem red_sibling (hp : IsRedBlackPath (⟨d, c, a, onSide d .red near w far⟩ :: p) c' (n + 1)) :
    c = .black ∧ near.color = .black ∧
      IsRedBlackPath (⟨d, .red, a, near⟩ :: ⟨d, .black, w, far⟩ :: p) .red (n + 1) := by
  cases hp with
  | red _ _ hs =>
    obtain ⟨hc, -⟩ := hs.of_redOn
    cases hc
  | black _ _ hs hp =>
    obtain ⟨-, hnear, hfar⟩ := hs.of_redOn
    exact ⟨rfl, hnear.color_eq, .red d a hnear (.black d w hfar hp) (List.cons_ne_nil _ _)⟩

/-- **A black sibling with black subtrees** becomes red, and the parent's subtree is one short. -/
theorem up (h : IsRedBlack t .black n) (hp : IsRedBlackPath (⟨d, c, a, onSide d .black near w far⟩ :: p) c' (n + 1))
    (hnear : near.color = .black) (hfar : far.color = .black) :
    ∃ c'' k, IsRedBlackPath p c'' (k + 1) ∧ Short (onSide d c t a (onSide d .red near w far)) k := by
  have hred : ∀ {cs : Color}, IsRedBlack (onSide d .black near w far) cs (n + 1) →
      IsRedBlack (onSide d .red near w far) .red n := by
    intro cs hs
    obtain ⟨k, c₁, c₂, hk, -, hn, hf⟩ := hs.of_blackOn
    obtain rfl := Nat.succ.inj hk
    rw [hn.color_eq] at hnear
    rw [hf.color_eq] at hfar
    subst hnear hfar
    exact .redOn d w hn hf
  cases hp with
  | red _ _ hs hp hne =>
    refine ⟨.black, n, hp, .red color_onSide ?_⟩
    rw [setColor_onSide]
    exact .blackOn d a h (hred hs)
  | black _ _ hs hp => exact ⟨_, n + 1, hp, .black (.blackOn d a h (hred hs))⟩

/-- **A black sibling with a red subtree on the near side**: a rotation brings it to the far side. -/
theorem red_near {near₁ near₂ : ColorTree ν}
    (hp : IsRedBlackPath (⟨d, c, a, onSide d .black (onSide d .red near₁ v near₂) w far⟩ :: p) c' (n + 1))
    (hfar : far.color = .black) :
    IsRedBlackPath (⟨d, c, a, onSide d .black near₁ v (onSide d .red near₂ w far)⟩ :: p) c' (n + 1) := by
  have hturn : ∀ {cs : Color}, IsRedBlack (onSide d .black (onSide d .red near₁ v near₂) w far) cs (n + 1) →
      IsRedBlack (onSide d .black near₁ v (onSide d .red near₂ w far)) .black (n + 1) ∧ cs = .black := by
    intro cs hs
    obtain ⟨k, c₁, c₂, hk, hcs, hn, hf⟩ := hs.of_blackOn
    obtain ⟨-, hn₁, hn₂⟩ := hn.of_redOn
    obtain rfl := Nat.succ.inj hk
    rw [hf.color_eq] at hfar
    subst hfar
    exact ⟨.blackOn d v hn₁ (.redOn d w hn₂ hf), hcs⟩
  cases hp with
  | red _ _ hs hp hne => exact .red d a (hturn hs).1 hp hne
  | black _ _ hs hp => exact .black d a (hturn hs).1 hp

/-- **A black sibling with a red subtree on the far side**: a rotation of the parent ends it. -/
theorem red_far (h : IsRedBlack t .black n)
    (hp : IsRedBlackPath (⟨d, c, a, onSide d .black near w far⟩ :: p) c' (n + 1)) (hfar : far.color = .red) :
    ∃ m, IsRedBlack (RedBlack.plug p (onSide d c (onSide d .black t a near) w (far.setColor .black))) .black m := by
  have hparts : ∀ {cs : Color}, IsRedBlack (onSide d .black near w far) cs (n + 1) →
      (∃ c₁, IsRedBlack near c₁ n) ∧ IsRedBlack (far.setColor .black) .black (n + 1) := by
    intro cs hs
    obtain ⟨k, c₁, c₂, hk, -, hn, hf⟩ := hs.of_blackOn
    obtain rfl := Nat.succ.inj hk
    rw [hf.color_eq] at hfar
    subst hfar
    cases hf with
    | red x hl hr => exact ⟨⟨c₁, hn⟩, .black x hl hr⟩
  cases hp with
  | red _ _ hs hp hne =>
    obtain ⟨⟨c₁, hn⟩, hf⟩ := hparts hs
    exact hp.plug (.redOn d w (.blackOn d a h hn) hf) fun _ => ⟨rfl, hne⟩
  | black _ _ hs hp =>
    obtain ⟨⟨c₁, hn⟩, hf⟩ := hparts hs
    exact hp.plug (.blackOn d w (.blackOn d a h hn) hf) nofun

end Short

end RedBlack
