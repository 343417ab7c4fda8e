import Mathlib.Logic.Function.Basic
import Mathlib.Data.List.Basic
import Mathlib.Data.List.Nodup

/-!
# Circular doubly linked lists over a heap of links

A heap of links gives every node a nullable `next` and a nullable `prev` pointer.  A *ring* is
the intrusive representation of a sequence: a sentinel node `e` whose `next` pointers visit the
items in order and come back to `e`, with `prev` the inverse.

* `insertBefore`, `unlink` — the two pointer primitives, write by write.
* `Seg h a xs b` — a doubly linked segment from `a` to `b` with interior `xs`.
* `IsRing h e xs` — the ring with sentinel `e` and items `xs`.

Principal results: `IsRing.insertBefore_split` and `IsRing.unlink` (the primitives act as list
insertion and removal), `IsRing.frame` (a ring only depends on the links of its own nodes),
`IsRing.next_eq_prev_iff` (an item is alone in its ring exactly when its two pointers agree).
-/

set_option autoImplicit false

namespace Ring

/-- The two pointers of a list item; `none` is the null pointer. -/
structure Link (α : Type) where
  next : Option α
  prev : Option α
  deriving DecidableEq, Repr

theorem Link.ext' {α : Type} {l m : Link α} (hn : l.next = m.next) (hp : l.prev = m.prev) :
    l = m := by
  cases l; cases m; simp_all

/-- The null link, as left by clearing an item's memory. -/
def Link.null {α : Type} : Link α := ⟨none, none⟩

abbrev Heap (α : Type) := α → Link α

variable {α : Type}

section Primitives

variable [DecidableEq α]

def setNext (h : Heap α) (a : α) (v : Option α) : Heap α :=
  Function.update h a { h a with next := v }

def setPrev (h : Heap α) (a : α) (v : Option α) : Heap α :=
  Function.update h a { h a with prev := v }

/-- Clear both pointers of an item. -/
def clear (h : Heap α) (a : α) : Heap α := Function.update h a Link.null

/-- Point a sentinel to itself in both directions. -/
def reset (h : Heap α) (e : α) : Heap α := Function.update h e ⟨some e, some e⟩

/-- Put `x` in front of `p`: the four writes in program order. -/
def insertBefore (h : Heap α) (p x : α) : Heap α :=
  let h₁ := setNext h x (some p)
  let h₂ := setPrev h₁ x (h₁ p).prev
  let h₃ := setPrev h₂ p (some x)
  match (h₃ x).prev with
  | some q => setNext h₃ q (some x)
  | none => h₃

/-- Take `x` out of the list it is in: the two writes in program order. -/
def unlink (h : Heap α) (x : α) : Heap α :=
  let h₁ := match (h x).next with
    | some n => setPrev h n (h x).prev
    | none => h
  match (h₁ x).prev with
  | some p => setNext h₁ p (h₁ x).next
  | none => h₁

/-! ## The primitives, pointer by pointer -/

theorem setNext_next (h : Heap α) (a : α) (v : Option α) (n : α) :
    (setNext h a v n).next = if n = a then v else (h n).next := by
  unfold setNext
  by_cases hn : n = a <;> simp [Function.update, hn]

theorem setNext_prev (h : Heap α) (a : α) (v : Option α) (n : α) :
    (setNext h a v n).prev = (h n).prev := by
  unfold setNext
  by_cases hn : n = a <;> simp [Function.update, hn]

theorem setPrev_next (h : Heap α) (a : α) (v : Option α) (n : α) :
    (setPrev h a v n).next = (h n).next := by
  unfold setPrev
  by_cases hn : n = a <;> simp [Function.update, hn]

theorem setPrev_prev (h : Heap α) (a : α) (v : Option α) (n : α) :
    (setPrev h a v n).prev = if n = a then v else (h n).prev := by
  unfold setPrev
  by_cases hn : n = a <;> simp [Function.update, hn]

@[simp] theorem clear_self (h : Heap α) (a : α) : clear h a a = Link.null := by
  simp [clear]

@[simp] theorem clear_of_ne (h : Heap α) {a n : α} (hn : n ≠ a) : clear h a n = h n := by
  simp [clear, hn]

@[simp] theorem reset_self (h : Heap α) (e : α) : reset h e e = ⟨some e, some e⟩ := by
  simp [reset]

@[simp] theorem reset_of_ne (h : Heap α) {e n : α} (hn : n ≠ e) : reset h e n = h n := by
  simp [reset, hn]

/-- All `next` pointers after an insertion in front of `p`, whose predecessor is `q`. -/
theorem insertBefore_next {h : Heap α} {p q x : α} (hq : (h p).prev = some q) (hxp : x ≠ p)
    (n : α) : (insertBefore h p x n).next =
      if n = q then some x else if n = x then some p else (h n).next := by
  have hx : (setPrev (setPrev (setNext h x (some p)) x (setNext h x (some p) p).prev) p (some x)
      x).prev = some q := by
    simp [setPrev_prev, setNext_prev, hq, hxp]
  unfold insertBefore
  simp only [hx, setNext_next, setPrev_next]

/-- All `prev` pointers after an insertion in front of `p`, whose predecessor is `q`. -/
theorem insertBefore_prev {h : Heap α} {p q x : α} (hq : (h p).prev = some q) (hxp : x ≠ p)
    (n : α) : (insertBefore h p x n).prev =
      if n = p then some x else if n = x then some q else (h n).prev := by
  have hx : (setPrev (setPrev (setNext h x (some p)) x (setNext h x (some p) p).prev) p (some x)
      x).prev = some q := by
    simp [setPrev_prev, setNext_prev, hq, hxp]
  unfold insertBefore
  simp only [hx]
  simp only [setNext_prev, setPrev_prev, hq]

theorem unlink_next {h : Heap α} {x p n : α} (hn : (h x).next = some n) (hp : (h x).prev = some p)
    (hnx : n ≠ x) (m : α) : (unlink h x m).next = if m = p then some n else (h m).next := by
  have hx : (setPrev h n (h x).prev x).prev = some p := by
    simp [setPrev_prev, hp, Ne.symm hnx]
  unfold unlink
  simp only [hn, hx, setNext_next, setPrev_next]

theorem unlink_prev {h : Heap α} {x p n : α} (hn : (h x).next = some n) (hp : (h x).prev = some p)
    (hnx : n ≠ x) (m : α) : (unlink h x m).prev = if m = n then some p else (h m).prev := by
  have hx : (setPrev h n (h x).prev x).prev = some p := by
    simp [setPrev_prev, hp, Ne.symm hnx]
  unfold unlink
  simp only [hn, hx]
  simp only [setNext_prev, setPrev_prev, hp]

end Primitives

/-! ## Segments -/

/-- A doubly linked segment from `a` to `b` with interior `xs`. -/
def Seg (h : Heap α) : α → List α → α → Prop
  | a, [], b => (h a).next = some b ∧ (h b).prev = some a
  | a, x :: xs, b => (h a).next = some x ∧ (h x).prev = some a ∧ Seg h x xs b

theorem Seg.append_iff {h : Heap α} {x b : α} {ys : List α} :
    ∀ {xs : List α} {a : α}, Seg h a (xs ++ x :: ys) b ↔ Seg h a xs x ∧ Seg h x ys b
  | [], a => by simp [Seg, and_assoc]
  | y :: xs, a => by
    have ih : Seg h y (xs ++ x :: ys) b ↔ Seg h y xs x ∧ Seg h x ys b := Seg.append_iff
    simp only [List.cons_append, Seg, ih, and_assoc]

/-- A segment only depends on the `next` pointers of its nodes but the last, and on the `prev`
pointers of its nodes but the first. -/
theorem Seg.congr {h h' : Heap α} : ∀ {xs : List α} {a b : α},
    (∀ n ∈ a :: xs, (h' n).next = (h n).next) → (∀ n ∈ xs ++ [b], (h' n).prev = (h n).prev) →
    Seg h a xs b → Seg h' a xs b
  | [], a, b, hn, hp, hs => by
    simp only [Seg] at hs ⊢
    rw [hn a (by simp), hp b (by simp)]
    exact hs
  | x :: xs, a, b, hn, hp, hs => by
    simp only [Seg] at hs ⊢
    refine ⟨?_, ?_, ?_⟩
    · rw [hn a (by simp)]; exact hs.1
    · rw [hp x (by simp)]; exact hs.2.1
    · refine Seg.congr (fun n hmem => hn n ?_) (fun n hmem => hp n ?_) hs.2.2
      · exact List.mem_cons_of_mem _ hmem
      · exact List.mem_cons_of_mem _ hmem

/-- The predecessor of the right end of a segment is its last node. -/
theorem Seg.prev_right {h : Heap α} : ∀ {xs : List α} {a b : α}, Seg h a xs b →
    (h b).prev = some ((a :: xs).getLast (List.cons_ne_nil _ _))
  | [], a, b, hs => by simpa using hs.2
  | x :: xs, a, b, hs => by
    rw [List.getLast_cons (List.cons_ne_nil _ _)]
    exact Seg.prev_right hs.2.2

/-! ## Rings -/

/-- The ring with sentinel `e` represents the sequence `xs`. -/
def IsRing (h : Heap α) (e : α) (xs : List α) : Prop := (e :: xs).Nodup ∧ Seg h e xs e

theorem IsRing.nodup {h : Heap α} {e : α} {xs : List α} (hr : IsRing h e xs) : xs.Nodup :=
  (List.nodup_cons.mp hr.1).2

theorem IsRing.not_mem {h : Heap α} {e : α} {xs : List α} (hr : IsRing h e xs) : e ∉ xs :=
  (List.nodup_cons.mp hr.1).1

/-- **Frame rule**: a ring only depends on the links of its own nodes. -/
theorem IsRing.frame {h h' : Heap α} {e : α} {xs : List α} (hr : IsRing h e xs)
    (he : ∀ n ∈ e :: xs, h' n = h n) : IsRing h' e xs := by
  refine ⟨hr.1, hr.2.congr (fun n hn => by rw [he n hn]) (fun n hn => ?_)⟩
  rw [he n (by simp only [List.mem_append, List.mem_singleton] at hn; simp; tauto)]

theorem Seg.unique {h : Heap α} {xs ys : List α} {a b : α} (hs : Seg h a xs b) (hs' : Seg h a ys b)
    (hx : b ∉ xs) (hy : b ∉ ys) : xs = ys := by
  induction xs generalizing a ys with
  | nil =>
    cases ys with
    | nil => rfl
    | cons y ys =>
      have hby : b = y := Option.some_inj.mp (hs.1.symm.trans hs'.1)
      exact absurd (hby ▸ List.mem_cons_self ..) hy
  | cons x xs ih =>
    cases ys with
    | nil =>
      have hbx : b = x := Option.some_inj.mp (hs'.1.symm.trans hs.1)
      exact absurd (hbx ▸ List.mem_cons_self ..) hx
    | cons y ys =>
      obtain rfl : x = y := Option.some_inj.mp (hs.1.symm.trans hs'.1)
      rw [ih hs.2.2 hs'.2.2 (fun hm => hx (List.mem_cons_of_mem _ hm))
        (fun hm => hy (List.mem_cons_of_mem _ hm))]

/-- **A sentinel has one sequence.** -/
theorem IsRing.unique {h : Heap α} {e : α} {xs ys : List α} (hr : IsRing h e xs) (hr' : IsRing h e ys) :
    xs = ys :=
  hr.2.unique hr'.2 hr.not_mem hr'.not_mem

/-- A link whose pointers are read as those of other nodes. -/
def Link.map {β : Type} (f : α → β) (l : Link α) : Link β := ⟨l.next.map f, l.prev.map f⟩

theorem Seg.map {β : Type} {h : Heap α} {h' : Heap β} {f : α → β} : ∀ {xs : List α} {a b : α}, Seg h a xs b →
    (∀ n ∈ a :: xs, (h' (f n)).next = (h n).next.map f) → (∀ n ∈ xs ++ [b], (h' (f n)).prev = (h n).prev.map f) →
    Seg h' (f a) (xs.map f) (f b)
  | [], a, b, hs, hn, hp => by
    refine ⟨?_, ?_⟩
    · rw [hn a (by simp), hs.1, Option.map_some]
    · rw [hp b (by simp), hs.2, Option.map_some]
  | x :: xs, a, b, hs, hn, hp => by
    refine ⟨?_, ?_, ?_⟩
    · rw [hn a (by simp), hs.1, Option.map_some]
    · rw [hp x (by simp), hs.2.1, Option.map_some]
    · apply Seg.map hs.2.2
      · intro n hmem
        exact hn n (List.mem_cons_of_mem _ hmem)
      · intro n hmem
        exact hp n (List.mem_cons_of_mem _ hmem)

/-- **A ring in another memory**, with its nodes renamed. -/
theorem IsRing.map {β : Type} {h : Heap α} {h' : Heap β} {f : α → β} {e : α} {xs : List α} (hr : IsRing h e xs)
    (hnd : ((e :: xs).map f).Nodup) (hlinks : ∀ n ∈ e :: xs, h' (f n) = (h n).map f) :
    IsRing h' (f e) (xs.map f) := by
  refine ⟨hnd, hr.2.map (fun n hn => ?_) fun n hn => ?_⟩
  · rw [hlinks n hn]
    rfl
  · rw [hlinks n (by simp at hn ⊢; tauto)]
    rfl

/-- Head and tail of a ring, as read through the sentinel. -/
theorem IsRing.next_sentinel {h : Heap α} {e : α} {xs : List α} (hr : IsRing h e xs) :
    (h e).next = some (xs.headD e) := by
  cases xs with
  | nil => simpa using hr.2.1
  | cons x xs => simpa using hr.2.1

/-- The successor and the predecessor of an item. -/
theorem IsRing.links_of_split {h : Heap α} {e x : α} {as bs : List α}
    (hr : IsRing h e (as ++ x :: bs)) :
    (h x).next = some (bs.headD e) ∧ (h x).prev = some ((e :: as).getLast (List.cons_ne_nil _ _)) := by
  obtain ⟨ha, hb⟩ := Seg.append_iff.mp hr.2
  refine ⟨?_, ha.prev_right⟩
  cases bs with
  | nil => simpa using hb.1
  | cons b bs => simpa using hb.1

/-- The predecessor of the node after the items `as`. -/
theorem IsRing.prev_headD {h : Heap α} {e : α} {as bs : List α} (hr : IsRing h e (as ++ bs)) :
    (h (bs.headD e)).prev = some ((e :: as).getLast (List.cons_ne_nil _ _)) := by
  cases bs with
  | nil =>
    rw [List.append_nil] at hr
    exact hr.2.prev_right
  | cons b bs => exact hr.links_of_split.2

theorem IsRing.links_some {h : Heap α} {e x : α} {xs : List α} (hr : IsRing h e xs)
    (hx : x ∈ xs) : ∃ n p, (h x).next = some n ∧ (h x).prev = some p := by
  obtain ⟨as, bs, rfl⟩ := List.append_of_mem hx
  exact ⟨_, _, hr.links_of_split⟩

/-- **The last-item test**: an item's two pointers agree exactly when it is alone in its ring. -/
theorem IsRing.next_eq_prev_iff {h : Heap α} {e x : α} {xs : List α} (hr : IsRing h e xs)
    (hx : x ∈ xs) : (h x).next = (h x).prev ↔ xs = [x] := by
  obtain ⟨as, bs, rfl⟩ := List.append_of_mem hx
  obtain ⟨hn, hp⟩ := hr.links_of_split
  rw [hn, hp, Option.some.injEq]
  have hnd := hr.1
  constructor
  · intro heq
    cases bs with
    | nil =>
      cases as with
      | nil => rfl
      | cons a as =>
        -- the predecessor is an item, the successor is the sentinel
        exfalso
        have hmem : (e :: a :: as).getLast (List.cons_ne_nil _ _) ∈ a :: as := by
          rw [List.getLast_cons (List.cons_ne_nil _ _)]; exact List.getLast_mem _
        simp only [List.headD_nil] at heq
        rw [← heq] at hmem
        exact (List.nodup_cons.mp hnd).1 (List.mem_append_left _ hmem)
    | cons b bs =>
      exfalso
      simp only [List.headD_cons] at heq
      have hmem : b ∈ e :: as := by rw [heq]; exact List.getLast_mem _
      have hnd' : ((e :: as) ++ x :: b :: bs).Nodup := by simpa using hnd
      exact (List.disjoint_of_nodup_append hnd') hmem (by simp)
  · intro heq
    have hlen := congrArg List.length heq
    simp only [List.length_append, List.length_cons, List.length_nil] at hlen
    have ha : as = [] := List.eq_nil_of_length_eq_zero (by omega)
    have hb : bs = [] := List.eq_nil_of_length_eq_zero (by omega)
    subst ha hb
    rfl

theorem IsRing.headD_ne {h : Heap α} {e x : α} {as bs : List α}
    (hr : IsRing h e (as ++ x :: bs)) : bs.headD e ≠ x := by
  cases bs with
  | nil =>
    rintro rfl
    exact hr.not_mem (by simp)
  | cons b bs =>
    rintro rfl
    have := hr.nodup.of_append_right
    simp at this

/-- Extending a segment at its right end, given the new pointers. -/
theorem Seg.extend {h h' : Heap α} {x b : α} : ∀ {xs : List α} {a q : α}, Seg h a xs b →
    (a :: xs).getLast (List.cons_ne_nil _ _) = q → (a :: xs).Nodup → x ∉ a :: xs → b ∉ xs →
    (h' q).next = some x → (h' x).prev = some q → (h' x).next = some b → (h' b).prev = some x →
    (∀ m, m ≠ q → m ≠ x → (h' m).next = (h m).next) →
    (∀ m, m ≠ b → m ≠ x → (h' m).prev = (h m).prev) → Seg h' a (xs ++ [x]) b
  | [], a, q, _, hq, _, _, _, hqn, hxp, hxn, hbp, _, _ => by
    simp only [List.getLast_singleton] at hq
    subst hq
    exact ⟨hqn, hxp, hxn, hbp⟩
  | y :: xs, a, q, hs, hq, hnd, hx, hb, hqn, hxp, hxn, hbp, hn, hp => by
    rw [List.getLast_cons (List.cons_ne_nil _ _)] at hq
    have hqmem : q ∈ y :: xs := by rw [← hq]; exact List.getLast_mem _
    obtain ⟨ha, hnd'⟩ := List.nodup_cons.mp hnd
    have haq : a ≠ q := fun he => ha (he ▸ hqmem)
    have hax : a ≠ x := fun he => hx (by simp [he])
    have hyb : y ≠ b := fun he => hb (by simp [he])
    have hyx : y ≠ x := fun he => hx (by simp [he])
    refine ⟨?_, ?_, ?_⟩
    · rw [hn a haq hax]; exact hs.1
    · rw [hp y hyb hyx]; exact hs.2.1
    · exact Seg.extend hs.2.2 hq hnd' (fun hm => hx (List.mem_cons_of_mem _ hm))
        (fun hm => hb (List.mem_cons_of_mem _ hm)) hqn hxp hxn hbp hn hp

/-- Bridging a segment over one of its nodes, given the new pointers. -/
theorem Seg.bridge {h h' : Heap α} {x b : α} {bs : List α} : ∀ {as : List α} {a q : α},
    Seg h a (as ++ x :: bs) b → (a :: as).getLast (List.cons_ne_nil _ _) = q →
    (a :: (as ++ x :: bs)).Nodup → b ∉ as ++ x :: bs →
    (h' q).next = some (bs.headD b) → (h' (bs.headD b)).prev = some q →
    (∀ m, m ≠ q → (h' m).next = (h m).next) →
    (∀ m, m ≠ bs.headD b → (h' m).prev = (h m).prev) → Seg h' a (as ++ bs) b
  | [], a, q, hs, hq, hnd, hb, hqn, hbp, hn, hp => by
    simp only [List.getLast_singleton] at hq
    subst hq
    cases bs with
    | nil => exact ⟨hqn, hbp⟩
    | cons c cs =>
      simp only [List.headD_cons] at hqn hbp hp
      simp only [List.nil_append, List.nodup_cons, List.mem_cons, not_or] at hnd hb
      refine ⟨hqn, hbp, hs.2.2.2.2.congr (fun m hm => hn m ?_) (fun m hm => hp m ?_)⟩
      · rintro rfl
        rcases List.mem_cons.mp hm with rfl | hm
        · exact hnd.1.2.1 rfl
        · exact hnd.1.2.2 hm
      · rintro rfl
        rcases List.mem_append.mp hm with hm | hm
        · exact hnd.2.2.1 hm
        · exact hb.2.1 (List.mem_singleton.mp hm).symm
  | y :: as, a, q, hs, hq, hnd, hb, hqn, hbp, hn, hp => by
    rw [List.getLast_cons (List.cons_ne_nil _ _)] at hq
    have hqmem : q ∈ y :: as := by rw [← hq]; exact List.getLast_mem _
    obtain ⟨ha, hnd'⟩ := List.nodup_cons.mp hnd
    have haq : a ≠ q := fun he => ha (by
      rw [he]; exact List.mem_append_left (x :: bs) hqmem)
    have hyc : y ≠ bs.headD b := by
      cases bs with
      | nil => exact fun he => hb (by simp [he])
      | cons c cs =>
        rintro rfl
        exact (List.nodup_cons.mp hnd').1 (by simp)
    refine ⟨?_, ?_, ?_⟩
    · rw [hn a haq]; exact hs.1
    · rw [hp y hyc]; exact hs.2.1
    · exact Seg.bridge hs.2.2 hq hnd' (fun hm => hb (List.mem_cons_of_mem _ hm)) hqn hbp hn hp

/-- A segment that gets another right end. -/
theorem Seg.retarget {h h' : Heap α} {b b' : α} : ∀ {xs : List α} {a : α}, Seg h a xs b → (a :: xs).Nodup →
    (h' ((a :: xs).getLast (List.cons_ne_nil _ _))).next = some b' →
    (h' b').prev = some ((a :: xs).getLast (List.cons_ne_nil _ _)) →
    (∀ m ∈ a :: xs, m ≠ (a :: xs).getLast (List.cons_ne_nil _ _) → (h' m).next = (h m).next) →
    (∀ m ∈ xs, (h' m).prev = (h m).prev) → Seg h' a xs b'
  | [], a, _, _, hnext, hprev, _, _ => ⟨hnext, hprev⟩
  | x :: xs, a, hs, hnd, hnext, hprev, hn, hp => by
    rw [List.getLast_cons (List.cons_ne_nil x xs)] at hnext hprev hn
    obtain ⟨ha, hnd'⟩ := List.nodup_cons.mp hnd
    have hal : a ≠ (x :: xs).getLast (List.cons_ne_nil x xs) := fun he => ha (he ▸ List.getLast_mem _)
    refine ⟨?_, ?_, ?_⟩
    · rw [hn a (List.mem_cons_self ..) hal]
      exact hs.1
    · rw [hp x (List.mem_cons_self ..)]
      exact hs.2.1
    · exact Seg.retarget hs.2.2 hnd' hnext hprev (fun m hm => hn m (List.mem_cons_of_mem _ hm))
        fun m hm => hp m (List.mem_cons_of_mem _ hm)

/-- **The items of one ring are spliced into another**, between the items `as` and the items `bs`.  The four
pointers at the seams are new, and the other pointers of both rings, but for those of the second sentinel, are
as before. -/
theorem IsRing.splice {h h' : Heap α} {e e' x : α} {as bs xs : List α} (hr : IsRing h e (as ++ bs))
    (hr' : IsRing h e' (x :: xs)) (hdisj : (e :: (as ++ bs)).Disjoint (x :: xs))
    (hpx : (h' ((e :: as).getLast (List.cons_ne_nil _ _))).next = some x)
    (hxp : (h' x).prev = some ((e :: as).getLast (List.cons_ne_nil _ _)))
    (hlq : (h' ((x :: xs).getLast (List.cons_ne_nil _ _))).next = some (bs.headD e))
    (hql : (h' (bs.headD e)).prev = some ((x :: xs).getLast (List.cons_ne_nil _ _)))
    (hnext : ∀ m, m ≠ (e :: as).getLast (List.cons_ne_nil _ _) →
      m ≠ (x :: xs).getLast (List.cons_ne_nil _ _) → m ≠ e' → (h' m).next = (h m).next)
    (hprev : ∀ m, m ≠ x → m ≠ bs.headD e → m ≠ e' → (h' m).prev = (h m).prev)
    (he' : e' ∉ e :: (as ++ bs)) : IsRing h' e (as ++ x :: (xs ++ bs)) := by
  have hnd : ((e :: as) ++ bs).Nodup := hr.1
  have hndx : (x :: xs).Nodup := hr'.nodup
  have hlast : (e :: as).getLast (List.cons_ne_nil _ _) ∈ e :: as := List.getLast_mem _
  have hlastx : (x :: xs).getLast (List.cons_ne_nil _ _) ∈ x :: xs := List.getLast_mem _
  have hleft : ∀ m ∈ e :: (as ++ bs), m ∉ x :: xs ∧ m ≠ e' := fun m hm =>
    ⟨fun hmx => hdisj hm hmx, fun he => he' (he ▸ hm)⟩
  have hright : ∀ m ∈ x :: xs, m ∉ e :: (as ++ bs) ∧ m ≠ e' := fun m hm =>
    ⟨fun hme => hdisj hme hm, fun he => hr'.not_mem (he ▸ hm)⟩
  have hasub : ∀ m ∈ e :: as, m ∈ e :: (as ++ bs) := fun m hm => List.mem_append_left bs hm
  have hbsub : ∀ m ∈ bs, m ∈ e :: (as ++ bs) := fun m hm => List.mem_append_right (e :: as) hm
  have hq : bs.headD e ∈ e :: (as ++ bs) := by
    cases bs with
    | nil => exact List.mem_cons_self ..
    | cons b bs => exact hbsub b (List.mem_cons_self ..)
  refine ⟨?_, ?_⟩
  · have hperm : ((e :: (as ++ bs)) ++ (x :: xs)).Perm (e :: (as ++ x :: (xs ++ bs))) := by
      have hswap : (bs ++ x :: xs).Perm (x :: xs ++ bs) := List.perm_append_comm
      simpa using (hswap.append_left as).cons e
    exact hperm.nodup_iff.mp (hr.1.append hndx hdisj)
  · refine Seg.append_iff.mpr ⟨?_, ?_⟩
    · -- the items `as`, which now end at `x`
      have hseg : ∃ b, Seg h e as b := by
        cases bs with
        | nil => exact ⟨e, by simpa using hr.2⟩
        | cons b bs => exact ⟨b, (Seg.append_iff.mp hr.2).1⟩
      obtain ⟨b, hseg⟩ := hseg
      refine hseg.retarget hnd.of_append_left hpx hxp (fun m hm hml => ?_) fun m hm => ?_
      · obtain ⟨hmx, hme'⟩ := hleft m (hasub m hm)
        exact hnext m hml (fun he => hmx (he ▸ hlastx)) hme'
      · obtain ⟨hmx, hme'⟩ := hleft m (hasub m (List.mem_cons_of_mem _ hm))
        refine hprev m (fun he => hmx (he ▸ List.mem_cons_self ..)) (fun he => ?_) hme'
        subst he
        cases bs with
        | nil => exact (List.nodup_cons.mp hnd.of_append_left).1 hm
        | cons b bs => exact List.disjoint_of_nodup_append hnd (List.mem_cons_of_mem _ hm) (List.mem_cons_self ..)
    · -- the items of the other ring, up to the next one of `bs`
      have hseg : Seg h' x xs (bs.headD e) := by
        refine hr'.2.2.2.retarget hndx hlq hql (fun m hm hml => ?_) fun m hm => ?_
        · obtain ⟨hme, hme'⟩ := hright m hm
          exact hnext m (fun he => hme (hasub m (he ▸ hlast))) hml hme'
        · obtain ⟨hme, hme'⟩ := hright m (List.mem_cons_of_mem _ hm)
          refine hprev m (fun he => ?_) (fun he => hme (he ▸ hq)) hme'
          exact (List.nodup_cons.mp hndx).1 (he ▸ hm)
      cases bs with
      | nil => simpa using hseg
      | cons b bs =>
        refine Seg.append_iff.mpr ⟨hseg, (Seg.append_iff.mp hr.2).2.congr (fun m hm => ?_) fun m hm => ?_⟩
        · obtain ⟨hmx, hme'⟩ := hleft m (hbsub m hm)
          refine hnext m (fun he => ?_) (fun he => hmx (he ▸ hlastx)) hme'
          exact List.disjoint_of_nodup_append hnd (he ▸ hlast) hm
        · have hmem : m ∈ e :: (as ++ b :: bs) := by
            rcases List.mem_append.mp hm with hm | hm
            · exact hbsub m (List.mem_cons_of_mem _ hm)
            · exact List.mem_singleton.mp hm ▸ List.mem_cons_self ..
          obtain ⟨hmx, hme'⟩ := hleft m hmem
          refine hprev m (fun he => hmx (he ▸ List.mem_cons_self ..)) (fun he => ?_) hme'
          rw [List.headD_cons] at he
          subst he
          rcases List.mem_append.mp hm with hm | hm
          · exact (List.nodup_cons.mp hnd.of_append_right).1 hm
          · have hme := List.mem_singleton.mp hm
            exact List.disjoint_of_nodup_append hnd (hme ▸ List.mem_cons_self ..) (List.mem_cons_self ..)

section Operations

variable [DecidableEq α]

theorem isRing_reset (h : Heap α) (e : α) : IsRing (reset h e) e [] := by
  simp [IsRing, Seg]

/-- **Insertion in front of the sentinel appends to the sequence.** -/
theorem IsRing.insertBefore {h : Heap α} {e x : α} {xs : List α} (hr : IsRing h e xs)
    (hx : x ∉ e :: xs) : IsRing (insertBefore h e x) e (xs ++ [x]) := by
  have hq := hr.2.prev_right
  have hxe : x ≠ e := fun he => hx (by simp [he])
  have hlast : (e :: xs).getLast (List.cons_ne_nil _ _) ∈ e :: xs := List.getLast_mem _
  have hxl : x ≠ (e :: xs).getLast (List.cons_ne_nil _ _) := fun he => hx (he ▸ hlast)
  have hnext := insertBefore_next hq hxe
  have hprev := insertBefore_prev hq hxe
  refine ⟨?_, hr.2.extend rfl hr.1 hx hr.not_mem ?_ ?_ ?_ ?_ ?_ ?_⟩
  · have hdis : List.Disjoint (e :: xs) [x] := by
      simp only [List.disjoint_singleton]; exact hx
    simpa using List.Nodup.append hr.1 (List.nodup_singleton x) hdis
  · rw [hnext, if_pos rfl]
  · rw [hprev, if_neg hxe, if_pos rfl]
  · rw [hnext, if_neg hxl, if_pos rfl]
  · rw [hprev, if_pos rfl]
  · intro m hmq hmx; rw [hnext, if_neg hmq, if_neg hmx]
  · intro m hme hmx; rw [hprev, if_neg hme, if_neg hmx]

/-- **Insertion in front of any node of the ring** inserts there. -/
theorem IsRing.insertBefore_split {h : Heap α} {e x : α} {as bs : List α} (hr : IsRing h e (as ++ bs))
    (hx : x ∉ e :: (as ++ bs)) : IsRing (Ring.insertBefore h (bs.headD e) x) e (as ++ x :: bs) := by
  cases bs with
  | nil =>
    rw [List.append_nil] at hr hx
    exact hr.insertBefore hx
  | cons y ys =>
    obtain ⟨ha, hb⟩ := Seg.append_iff.mp hr.2
    have hnd := hr.1
    rw [← List.cons_append] at hnd hx
    have hq := ha.prev_right
    have hlast : (e :: as).getLast (List.cons_ne_nil _ _) ∈ e :: as := List.getLast_mem _
    have hdis := List.disjoint_of_nodup_append hnd
    have hxa : x ∉ e :: as := fun hm => hx (List.mem_append_left _ hm)
    have hxb : x ∉ y :: ys := fun hm => hx (List.mem_append_right _ hm)
    have hxy : x ≠ y := fun he => hxb (he ▸ List.mem_cons_self ..)
    have hxl : x ≠ (e :: as).getLast (List.cons_ne_nil _ _) := fun he => hxa (he ▸ hlast)
    have hya : y ∉ as := fun hm => hdis (List.mem_cons_of_mem _ hm) (List.mem_cons_self ..)
    have hye : e ≠ y := fun he => hdis (he ▸ List.mem_cons_self ..) (List.mem_cons_self ..)
    have hnext := insertBefore_next hq hxy
    have hprev := insertBefore_prev hq hxy
    rw [List.headD_cons]
    have hleft : Seg (Ring.insertBefore h y x) e (as ++ [x]) y := by
      refine ha.extend rfl hnd.of_append_left hxa hya ?_ ?_ ?_ ?_ ?_ ?_
      · rw [hnext, if_pos rfl]
      · rw [hprev, if_neg hxy, if_pos rfl]
      · rw [hnext, if_neg hxl, if_pos rfl]
      · rw [hprev, if_pos rfl]
      · intro m hmq hmx; rw [hnext, if_neg hmq, if_neg hmx]
      · intro m hmy hmx; rw [hprev, if_neg hmy, if_neg hmx]
    have hright : Seg (Ring.insertBefore h y x) y ys e := by
      refine hb.congr (fun n hn => ?_) (fun n hn => ?_)
      · rw [hnext, if_neg, if_neg]
        · rintro rfl
          exact hxb hn
        · rintro rfl
          exact hdis hlast hn
      · rw [hprev, if_neg, if_neg]
        · rintro rfl
          rcases List.mem_append.mp hn with hn | hn
          · exact hxb (List.mem_cons_of_mem _ hn)
          · exact hxa (List.mem_singleton.mp hn ▸ List.mem_cons_self ..)
        · rintro rfl
          rcases List.mem_append.mp hn with hn | hn
          · exact (List.nodup_cons.mp hnd.of_append_right).1 hn
          · exact hye (List.mem_singleton.mp hn).symm
    refine ⟨?_, ?_⟩
    · have hperm : (e :: (as ++ x :: y :: ys)).Perm (x :: (e :: as ++ y :: ys)) := by
        rw [← List.cons_append]
        exact List.perm_middle
      exact hperm.nodup_iff.mpr (List.nodup_cons.mpr ⟨hx, hnd⟩)
    · have hseg := Seg.append_iff.mpr ⟨hleft, hright⟩
      rwa [List.append_assoc, List.singleton_append] at hseg

/-- The nodes an insertion in front of the sentinel touches are the ring's and the new one. -/
theorem IsRing.insertBefore_frame {h : Heap α} {e x : α} {xs : List α} (hr : IsRing h e xs)
    (hx : x ∉ e :: xs) {n : α} (hn : n ∉ e :: xs) (hnx : n ≠ x) :
    Ring.insertBefore h e x n = h n := by
  have hq := hr.2.prev_right
  have hxe : x ≠ e := fun he => hx (by simp [he])
  have hlast : (e :: xs).getLast (List.cons_ne_nil _ _) ∈ e :: xs := List.getLast_mem _
  apply Link.ext'
  · rw [insertBefore_next hq hxe, if_neg (fun he : n = _ => hn (he ▸ hlast)), if_neg hnx]
  · rw [insertBefore_prev hq hxe, if_neg (fun he : n = e => hn (by simp [he])), if_neg hnx]

/-- The nodes that an insertion in front of any node of the ring touches. -/
theorem IsRing.insertBefore_split_frame {h : Heap α} {e x : α} {as bs : List α} (hr : IsRing h e (as ++ bs))
    (hx : x ∉ e :: (as ++ bs)) {n : α} (hn : n ∉ e :: (as ++ bs)) (hnx : n ≠ x) :
    Ring.insertBefore h (bs.headD e) x n = h n := by
  have hp : bs.headD e ∈ e :: (as ++ bs) := by
    cases bs with
    | nil => exact List.mem_cons_self ..
    | cons b bs => simp
  have hlast : (e :: as).getLast (List.cons_ne_nil _ _) ∈ e :: (as ++ bs) :=
    List.mem_append_left bs (List.getLast_mem _)
  have hq := hr.prev_headD
  have hxp : x ≠ bs.headD e := fun he => hx (he ▸ hp)
  apply Link.ext'
  · rw [insertBefore_next hq hxp, if_neg (fun he : n = _ => hn (he ▸ hlast)), if_neg hnx]
  · rw [insertBefore_prev hq hxp, if_neg (fun he : n = _ => hn (he ▸ hp)), if_neg hnx]

/-- **Unlinking an item removes it from the sequence.** -/
theorem IsRing.unlink {h : Heap α} {e x : α} {as bs : List α}
    (hr : IsRing h e (as ++ x :: bs)) : IsRing (unlink h x) e (as ++ bs) := by
  obtain ⟨hn, hp⟩ := hr.links_of_split
  have hnext := unlink_next hn hp hr.headD_ne
  have hprev := unlink_prev hn hp hr.headD_ne
  refine ⟨?_, hr.2.bridge rfl hr.1 hr.not_mem ?_ ?_ ?_ ?_⟩
  · exact hr.1.sublist (((List.sublist_cons_self x bs).append_left as).cons_cons e)
  · rw [hnext, if_pos rfl]
  · rw [hprev, if_pos rfl]
  · intro m hm; rw [hnext, if_neg hm]
  · intro m hm; rw [hprev, if_neg hm]

/-- Unlinking only touches nodes of the ring. -/
theorem IsRing.unlink_frame {h : Heap α} {e x : α} {as bs : List α}
    (hr : IsRing h e (as ++ x :: bs)) {n : α} (hn : n ∉ e :: (as ++ x :: bs)) :
    Ring.unlink h x n = h n := by
  obtain ⟨hnx, hpx⟩ := hr.links_of_split
  have hlast : (e :: as).getLast (List.cons_ne_nil _ _) ∈ e :: as := List.getLast_mem _
  apply Link.ext'
  · rw [unlink_next hnx hpx hr.headD_ne, if_neg]
    rintro rfl
    exact hn (by simp only [List.mem_cons, List.mem_append] at hlast ⊢; tauto)
  · rw [unlink_prev hnx hpx hr.headD_ne, if_neg]
    rintro rfl
    cases bs with
    | nil => exact hn (by simp)
    | cons b bs => exact hn (by simp)

end Operations

end Ring
