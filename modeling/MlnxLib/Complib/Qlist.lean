import Mathlib.Data.List.Induction
import MlnxLib.Complib.Containers

/-!
# Counted quick lists

Model of the operations of `cl_qlist.h` and `cl_list.c` that use the count of the list or go through it
backwards.  A null link is no item: an operation that would follow one has no result.

* `Qlist` — `cl_qlist_t`: the links of the items and the count.
* `IsQlist q e xs` — the list with end item `e` has the items `xs`.

Principal results: `IsQlist.insertNext`, `IsQlist.insertHead`, `IsQlist.removeItem` — what the operations do to the
items; `IsQlist.findFromTail` — the item found is the last one that matches, or the end item.
-/

set_option autoImplicit false

namespace MlnxLib

/-- `cl_qlist_t`. -/
structure Qlist (α : Type) where
  links : Ring.Heap α
  count : Nat

section

variable {α : Type}

/-- `cl_is_qlist_empty` of a list with less than 2^32 items: the count is tested as a `uint32_t`. -/
def clIsQlistEmpty (list : Qlist α) : Bool := list.count == 0

/-- `cl_qlist_prev`. -/
def clQlistPrev (h : Ring.Heap α) (listItem : α) : Option α := (h listItem).prev

/-- The list with end item `e` has the items `xs`, and counts them. -/
structure IsQlist (list : Qlist α) (e : α) (xs : List α) : Prop where
  ring : Ring.IsRing list.links e xs
  count : list.count = xs.length

variable {list : Qlist α} {e x : α} {xs as bs : List α}

namespace IsQlist

theorem isEmpty_iff (hq : IsQlist list e xs) : clIsQlistEmpty list = true ↔ xs = [] := by
  unfold clIsQlistEmpty
  rw [beq_iff_eq, hq.count, List.length_eq_zero_iff]

theorem head (hq : IsQlist list e xs) : clQlistHead list.links e = some (xs.headD e) :=
  hq.ring.next_sentinel

/-- The node after the items `as`. -/
theorem next_last (hq : IsQlist list e (as ++ bs)) :
    clQlistNext list.links ((e :: as).getLast (List.cons_ne_nil _ _)) = some (bs.headD e) := by
  rcases List.eq_nil_or_concat as with rfl | ⟨as, a, rfl⟩
  · exact hq.head
  · have hr := hq.ring
    rw [List.concat_eq_append, List.append_assoc] at hr
    have hnext := hr.links_of_split.1
    simpa [clQlistNext] using hnext

end IsQlist

variable [DecidableEq α]

/-- `cl_qlist_insert_head`: before the head. -/
def clQlistInsertHead (list : Qlist α) (endItem newItem : α) : Option (Qlist α) :=
  (clQlistHead list.links endItem).map fun head =>
    ⟨clPrimitiveInsert list.links head newItem, list.count + 1⟩

/-- `cl_qlist_insert_next`. -/
def clQlistInsertNext (list : Qlist α) (listItem newItem : α) : Option (Qlist α) :=
  (clQlistNext list.links listItem).map fun next =>
    ⟨clPrimitiveInsert list.links next newItem, list.count + 1⟩

/-- `cl_qlist_remove_item`. -/
def clQlistRemoveItem (list : Qlist α) (endItem listItem : α) : Qlist α :=
  if listItem = endItem then list else ⟨clPrimitiveRemove list.links listItem, list.count - 1⟩

/-- The end of `cl_qlist_remove_head` and `cl_qlist_remove_tail`: the item, or the end item when it is that. -/
def clQlistTake (list : Qlist α) (endItem listItem : α) : α × Qlist α :=
  if listItem = endItem then (listItem, list)
  else (listItem, ⟨clPrimitiveRemove list.links listItem, list.count - 1⟩)

/-- `cl_qlist_remove_head`. -/
def clQlistRemoveHead (list : Qlist α) (endItem : α) : Option (α × Qlist α) :=
  (clQlistHead list.links endItem).map (clQlistTake list endItem)

/-- `cl_qlist_remove_tail`. -/
def clQlistRemoveTail (list : Qlist α) (endItem : α) : Option (α × Qlist α) :=
  (clQlistPrev list.links endItem).map (clQlistTake list endItem)

/-- The loop of `cl_qlist_find_prev`, from `foundItem` on. -/
def findPrev (h : Ring.Heap α) (endItem : α) (pfnFunc : α → Bool) : Nat → α → Option α
  | 0, _ => none
  | fuel + 1, foundItem =>
    if foundItem = endItem then some endItem else
    if pfnFunc foundItem then some foundItem else
    (clQlistPrev h foundItem).bind (findPrev h endItem pfnFunc fuel)

/-- `cl_qlist_find_from_tail`. -/
def clQlistFindFromTail (list : Qlist α) (endItem : α) (pfnFunc : α → Bool) : Option α :=
  (clQlistPrev list.links endItem).bind (findPrev list.links endItem pfnFunc (list.count + 1))

/-- The loop of `cl_qlist_find_next`, from `foundItem` on. -/
def findNext (h : Ring.Heap α) (endItem : α) (pfnFunc : α → Bool) : Nat → α → Option α
  | 0, _ => none
  | fuel + 1, foundItem =>
    if foundItem = endItem then some endItem else
    if pfnFunc foundItem then some foundItem else
    (clQlistNext h foundItem).bind (findNext h endItem pfnFunc fuel)

/-- `cl_qlist_find_from_head`. -/
def clQlistFindFromHead (list : Qlist α) (endItem : α) (pfnFunc : α → Bool) : Option α :=
  (clQlistHead list.links endItem).bind (findNext list.links endItem pfnFunc (list.count + 1))

theorem isQlist_init (h : Ring.Heap α) (e : α) : IsQlist ⟨clQlistInit h e, 0⟩ e [] :=
  ⟨Ring.isRing_reset h e, rfl⟩

namespace IsQlist

/-- An item is inserted in front of the items `bs`. -/
theorem insertBefore (hq : IsQlist list e (as ++ bs)) (hx : x ∉ e :: (as ++ bs)) :
    IsQlist ⟨clPrimitiveInsert list.links (bs.headD e) x, list.count + 1⟩ e (as ++ x :: bs) := by
  refine ⟨hq.ring.insertBefore_split hx, ?_⟩
  have hcount := hq.count
  simp only [List.length_append, List.length_cons] at hcount ⊢
  omega

/-- **An item is inserted after the items `as`.** -/
theorem insertNext (hq : IsQlist list e (as ++ bs)) (hx : x ∉ e :: (as ++ bs)) :
    ∃ list', clQlistInsertNext list ((e :: as).getLast (List.cons_ne_nil _ _)) x = some list' ∧
      IsQlist list' e (as ++ x :: bs) :=
  ⟨_, by rw [clQlistInsertNext, hq.next_last, Option.map_some], hq.insertBefore hx⟩

theorem insertHead (hq : IsQlist list e xs) (hx : x ∉ e :: xs) :
    ∃ list', clQlistInsertHead list e x = some list' ∧ IsQlist list' e (x :: xs) := by
  have hq' : IsQlist list e ([] ++ xs) := hq
  exact hq'.insertNext hx

theorem removeItem (hq : IsQlist list e (as ++ x :: bs)) :
    IsQlist (clQlistRemoveItem list e x) e (as ++ bs) := by
  have hxe : x ≠ e := by
    rintro rfl
    exact hq.ring.not_mem (by simp)
  have hcount := hq.count
  unfold clQlistRemoveItem
  rw [if_neg hxe]
  refine ⟨hq.ring.unlink, ?_⟩
  simp only [List.length_append, List.length_cons] at hcount ⊢
  omega

theorem take (hq : IsQlist list e (as ++ x :: bs)) :
    ∃ list', clQlistTake list e x = (x, list') ∧ IsQlist list' e (as ++ bs) := by
  have hxe : x ≠ e := by
    rintro rfl
    exact hq.ring.not_mem (by simp)
  have hremove := hq.removeItem
  unfold clQlistRemoveItem at hremove
  rw [if_neg hxe] at hremove
  exact ⟨_, if_neg hxe, hremove⟩

/-- **The head of the list is taken out.** -/
theorem removeHead (hq : IsQlist list e (x :: xs)) :
    ∃ list', clQlistRemoveHead list e = some (x, list') ∧ IsQlist list' e xs := by
  have hq' : IsQlist list e ([] ++ x :: xs) := hq
  obtain ⟨list', htake, hlist⟩ := hq'.take
  exact ⟨list', by rw [clQlistRemoveHead, hq.head, List.headD_cons, Option.map_some, htake], hlist⟩

/-- **The tail of the list is taken out.** -/
theorem removeTail (hq : IsQlist list e (xs ++ [x])) :
    ∃ list', clQlistRemoveTail list e = some (x, list') ∧ IsQlist list' e xs := by
  have hprev := hq.ring.2.prev_right
  have hlast : (e :: (xs ++ [x])).getLast (List.cons_ne_nil _ _) = x := by simp
  obtain ⟨list', htake, hlist⟩ := hq.take
  rw [List.append_nil] at hlist
  exact ⟨list', by rw [clQlistRemoveTail, clQlistPrev, hprev, hlast, Option.map_some, htake], hlist⟩

/-- The loop goes back over the items `as`. -/
theorem findPrev_spec (pfnFunc : α → Bool) : ∀ {as bs : List α} {fuel : Nat}, IsQlist list e (as ++ bs) →
    as.length < fuel → ∃ cs ds, as = cs ++ ds ∧ (∀ d ∈ ds, pfnFunc d = false) ∧
      (∀ c ∈ cs.getLast?, pfnFunc c = true) ∧
      findPrev list.links e pfnFunc fuel ((e :: as).getLast (List.cons_ne_nil _ _)) =
        some ((e :: cs).getLast (List.cons_ne_nil _ _)) := by
  intro as
  induction as using List.reverseRecOn with
  | nil =>
    intro bs fuel _ hfuel
    obtain ⟨fuel, rfl⟩ := Nat.exists_eq_add_of_lt hfuel
    exact ⟨[], [], rfl, by simp, by simp, by simp [findPrev]⟩
  | append_singleton as a ih =>
    intro bs fuel hq hfuel
    rw [List.length_append, List.length_singleton] at hfuel
    obtain ⟨fuel, rfl⟩ : ∃ n, fuel = n + 1 := ⟨fuel - 1, by omega⟩
    have hae : a ≠ e := by
      rintro rfl
      exact hq.ring.not_mem (by simp)
    have hlast : (e :: (as ++ [a])).getLast (List.cons_ne_nil _ _) = a := by simp
    rw [hlast, findPrev, if_neg hae]
    by_cases ha : pfnFunc a = true
    · exact ⟨as ++ [a], [], by simp, by simp, by simpa using ha, by rw [if_pos ha, hlast]⟩
    · rw [List.append_assoc, List.singleton_append] at hq
      have hprev := hq.ring.links_of_split.2
      obtain ⟨cs, ds, rfl, hds, hcs, hfind⟩ := ih hq (by omega : as.length < fuel)
      refine ⟨cs, ds ++ [a], by simp, fun d hd => ?_, hcs, ?_⟩
      · rcases List.mem_append.mp hd with hd | hd
        · exact hds d hd
        · rw [List.mem_singleton.mp hd]
          simpa using ha
      · rw [if_neg ha, clQlistPrev, hprev, Option.bind_some, hfind]

/-- **The item found from the tail** is the last one that matches, or the end item when none does. -/
theorem findFromTail (hq : IsQlist list e xs) (pfnFunc : α → Bool) : ∃ as bs, xs = as ++ bs ∧
    (∀ b ∈ bs, pfnFunc b = false) ∧ (∀ a ∈ as.getLast?, pfnFunc a = true) ∧
    clQlistFindFromTail list e pfnFunc = some ((e :: as).getLast (List.cons_ne_nil _ _)) := by
  have hprev := hq.ring.2.prev_right
  have hq' : IsQlist list e (xs ++ []) := by rwa [List.append_nil]
  obtain ⟨as, bs, hxs, hbs, has, hfind⟩ := hq'.findPrev_spec pfnFunc (Nat.lt_succ_of_le hq.count.ge)
  exact ⟨as, bs, hxs, hbs, has, by rw [clQlistFindFromTail, clQlistPrev, hprev, Option.bind_some, hfind]⟩

/-- The loop goes on over the items `bs`. -/
theorem findNext_spec (pfnFunc : α → Bool) : ∀ {as bs : List α} {fuel : Nat}, IsQlist list e (as ++ bs) →
    bs.length < fuel → findNext list.links e pfnFunc fuel (bs.headD e) = some ((bs.find? pfnFunc).getD e)
  | _, _, 0, _, hfuel => absurd hfuel (Nat.not_lt_zero _)
  | as, [], fuel + 1, _, _ => by simp [findNext]
  | as, b :: bs, fuel + 1, hq, hfuel => by
    have hbe : b ≠ e := by
      rintro rfl
      exact hq.ring.not_mem (by simp)
    rw [List.headD_cons, findNext, if_neg hbe]
    by_cases hb : pfnFunc b = true
    · rw [if_pos hb, List.find?_cons_of_pos hb, Option.getD_some]
    · have hnext : clQlistNext list.links b = some (bs.headD e) := hq.ring.links_of_split.1
      have hq' : IsQlist list e ((as ++ [b]) ++ bs) := by simpa using hq
      rw [if_neg hb, hnext, Option.bind_some, findNext_spec pfnFunc hq' (Nat.lt_of_succ_lt_succ hfuel),
        List.find?_cons_of_neg hb]

/-- **The item found from the head** is the first one that matches, or the end item when none does. -/
theorem findFromHead (hq : IsQlist list e xs) (pfnFunc : α → Bool) :
    clQlistFindFromHead list e pfnFunc = some ((xs.find? pfnFunc).getD e) := by
  have hq' : IsQlist list e ([] ++ xs) := hq
  rw [clQlistFindFromHead, hq.head, Option.bind_some, hq'.findNext_spec pfnFunc (Nat.lt_succ_of_le hq.count.ge)]

omit [DecidableEq α] in
/-- A list in another memory, with its items renamed. -/
theorem map {β : Type} {f : α → β} {list' : Qlist β} (hq : IsQlist list e xs) (hnd : ((e :: xs).map f).Nodup)
    (hlinks : ∀ n ∈ e :: xs, list'.links (f n) = (list.links n).map f) (hcount : list'.count = list.count) :
    IsQlist list' (f e) (xs.map f) :=
  ⟨hq.ring.map hnd hlinks, by rw [hcount, hq.count, List.length_map]⟩

end IsQlist

end

end MlnxLib
