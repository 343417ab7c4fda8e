import Mathlib.Data.List.Basic

/-!
# Circular queues

A ring of slots with an index of the next entry to take and one of the next slot to fill, and no count
of its entries: the indices are equal when the ring is empty.

* `RingBuffer` — the slots and the two indices, which lie in the ring.
* `items` — the entries from the first index to the second, the oldest first.
* `Full` — one slot is free; a push would make the indices equal.

Principal results: `items_push`, `items_pop` — while there is room, the ring is a queue.
-/

set_option autoImplicit false

namespace MlnxLib.CircularQueue

variable {α : Type}

/-- A ring of slots. -/
structure RingBuffer (α : Type) where
  slots : List α
  cons : Nat
  prod : Nat
  cons_lt : cons < slots.length
  prod_lt : prod < slots.length
  deriving DecidableEq, Repr

namespace RingBuffer

/-- The number of slots. -/
def size (r : RingBuffer α) : Nat := r.slots.length

theorem size_pos (r : RingBuffer α) : 0 < r.size := Nat.lt_of_le_of_lt (Nat.zero_le _) r.cons_lt

/-- An empty ring. -/
def empty (a : α) (n : Nat) : RingBuffer α := ⟨List.replicate (n + 1) a, 0, 0, by simp, by simp⟩

/-- The entry in a slot, counted around the ring. -/
def entry (r : RingBuffer α) (i : Nat) : α := r.slots.get ⟨i % r.slots.length, Nat.mod_lt _ r.size_pos⟩

/-- The next entry to take. -/
def front (r : RingBuffer α) : α := r.entry r.cons

/-- Fill the next slot. -/
def push (r : RingBuffer α) (a : α) : RingBuffer α where
  slots := r.slots.set r.prod a
  cons := r.cons
  prod := (r.prod + 1) % r.slots.length
  cons_lt := by rw [List.length_set]; exact r.cons_lt
  prod_lt := by rw [List.length_set]; exact Nat.mod_lt _ r.size_pos

/-- Take the next entry. -/
def pop (r : RingBuffer α) : RingBuffer α where
  slots := r.slots
  cons := (r.cons + 1) % r.slots.length
  prod := r.prod
  cons_lt := Nat.mod_lt _ r.size_pos
  prod_lt := r.prod_lt

/-- The number of entries, as the indices tell it. -/
def count (r : RingBuffer α) : Nat := (r.prod + r.size - r.cons) % r.size

/-- The entries, the oldest first. -/
def items (r : RingBuffer α) : List α := (List.range r.count).map fun i => r.entry (r.cons + i)

/-- A push would make the ring look empty. -/
def Full (r : RingBuffer α) : Prop := (r.prod + 1) % r.size = r.cons

instance (r : RingBuffer α) : Decidable r.Full := by
  unfold Full
  infer_instance

@[simp] theorem size_push (r : RingBuffer α) (a : α) : (r.push a).size = r.size := List.length_set

@[simp] theorem size_pop (r : RingBuffer α) : r.pop.size = r.size := rfl

@[simp] theorem size_empty (a : α) (n : Nat) : (empty a n).size = n + 1 := List.length_replicate

/-! ## Indices -/

/-- The index after this one, without a remainder. -/
theorem succ_mod {i n : Nat} (h : i < n) : (i + 1) % n = if i + 1 = n then 0 else i + 1 := by
  split
  · rename_i heq
    rw [heq, Nat.mod_self]
  · exact Nat.mod_eq_of_lt (by omega)

/-- An index some way on, without a remainder. -/
theorem add_mod_of_lt {c i n : Nat} (hc : c < n) (hi : i < n) :
    (c + i) % n = if c + i < n then c + i else c + i - n := by
  split
  · rename_i hlt
    exact Nat.mod_eq_of_lt hlt
  · rw [Nat.mod_eq_sub_mod (by omega)]
    exact Nat.mod_eq_of_lt (by omega)

theorem count_eq (r : RingBuffer α) :
    r.count = if r.cons ≤ r.prod then r.prod - r.cons else r.prod + r.size - r.cons := by
  have hc : r.cons < r.size := r.cons_lt
  have hp : r.prod < r.size := r.prod_lt
  unfold count
  split
  · rw [Nat.mod_eq_sub_mod (by omega), Nat.mod_eq_of_lt (by omega)]
    omega
  · exact Nat.mod_eq_of_lt (by omega)

theorem count_lt (r : RingBuffer α) : r.count < r.size := Nat.mod_lt _ r.size_pos

/-- The slot after the last entry is the next to fill. -/
theorem cons_add_count (r : RingBuffer α) : (r.cons + r.count) % r.size = r.prod := by
  have hc : r.cons < r.size := r.cons_lt
  have hp : r.prod < r.size := r.prod_lt
  have hcount := r.count_eq
  rw [add_mod_of_lt hc r.count_lt]
  split at hcount <;> split <;> omega

/-- No entry lies in the next slot to fill. -/
theorem cons_add_ne {r : RingBuffer α} {i : Nat} (h : i < r.count) : (r.cons + i) % r.size ≠ r.prod := by
  have hc : r.cons < r.size := r.cons_lt
  have hp : r.prod < r.size := r.prod_lt
  have hcount := r.count_eq
  have hlt := r.count_lt
  rw [add_mod_of_lt hc (by omega)]
  split at hcount <;> split <;> omega

theorem count_push {r : RingBuffer α} (a : α) (h : ¬ r.Full) : (r.push a).count = r.count + 1 := by
  have hc : r.cons < r.size := r.cons_lt
  have hp : r.prod < r.size := r.prod_lt
  have hcount := r.count_eq
  have hnext : (r.push a).prod = if r.prod + 1 = r.size then 0 else r.prod + 1 := succ_mod r.prod_lt
  have hfull : ¬ (r.push a).prod = r.cons := h
  have hcount' := (r.push a).count_eq
  rw [size_push] at hcount'
  rw [show (r.push a).cons = r.cons from rfl] at hcount'
  split at hcount <;> split at hnext <;> split at hcount' <;> omega

theorem count_pop {r : RingBuffer α} (h : r.cons ≠ r.prod) : r.count = r.pop.count + 1 := by
  have hc : r.cons < r.size := r.cons_lt
  have hp : r.prod < r.size := r.prod_lt
  have hcount := r.count_eq
  have hnext : r.pop.cons = if r.cons + 1 = r.size then 0 else r.cons + 1 := succ_mod r.cons_lt
  have hcount' := r.pop.count_eq
  rw [size_pop, show r.pop.prod = r.prod from rfl] at hcount'
  split at hcount <;> split at hnext <;> split at hcount' <;> omega

/-! ## The ring as a queue -/

@[simp] theorem length_items (r : RingBuffer α) : r.items.length = r.count := by
  unfold items
  rw [List.length_map, List.length_range]

theorem count_eq_zero_iff (r : RingBuffer α) : r.count = 0 ↔ r.cons = r.prod := by
  have hc : r.cons < r.size := r.cons_lt
  have hcount := r.count_eq
  split at hcount <;> omega

/-- The indices tell whether the ring is empty. -/
theorem items_eq_nil_iff (r : RingBuffer α) : r.items = [] ↔ r.cons = r.prod := by
  rw [← r.count_eq_zero_iff, ← r.length_items, List.length_eq_zero_iff]

@[simp] theorem items_empty (a : α) (n : Nat) : (empty a n).items = [] :=
  (empty a n).items_eq_nil_iff.mpr rfl

theorem full_iff (r : RingBuffer α) : r.Full ↔ r.count + 1 = r.size := by
  have hc : r.cons < r.size := r.cons_lt
  have hp : r.prod < r.size := r.prod_lt
  have hcount := r.count_eq
  unfold Full
  rw [succ_mod (show r.prod < r.size from r.prod_lt)]
  split at hcount <;> split <;> omega

/-- **While there is room, a push adds an entry at the end.** -/
theorem items_push {r : RingBuffer α} (a : α) (h : ¬ r.Full) : (r.push a).items = r.items ++ [a] := by
  have hlast : (r.push a).entry (r.cons + r.count) = a := by
    have hindex : (r.cons + r.count) % (r.slots.set r.prod a).length = r.prod := by
      rw [List.length_set]
      exact r.cons_add_count
    unfold entry
    simp only [push, List.get_eq_getElem, hindex, List.getElem_set_self]
  have hother : ∀ i ∈ List.range r.count, (r.push a).entry (r.cons + i) = r.entry (r.cons + i) := by
    intro i hi
    have hne : r.prod ≠ (r.cons + i) % r.slots.length := (cons_add_ne (List.mem_range.mp hi)).symm
    unfold entry
    simp only [push, List.get_eq_getElem, List.length_set]
    exact List.getElem_set_ne hne _
  unfold items
  rw [count_push a h, List.range_succ, List.map_append, List.map_singleton]
  rw [show (r.push a).cons = r.cons from rfl, hlast, List.map_congr_left hother]

/-- **A pop takes the oldest entry.** -/
theorem items_pop {r : RingBuffer α} (h : r.cons ≠ r.prod) : r.items = r.front :: r.pop.items := by
  have hnext : ∀ i ∈ List.range r.pop.count, r.entry (r.cons + (i + 1)) = r.pop.entry (r.pop.cons + i) := by
    intro i _
    have hindex : (r.pop.cons + i) % r.slots.length = (r.cons + (i + 1)) % r.slots.length := by
      show ((r.cons + 1) % r.slots.length + i) % r.slots.length = _
      rw [Nat.mod_add_mod, Nat.add_assoc, Nat.add_comm 1 i]
    unfold entry
    simp only [pop, List.get_eq_getElem] at hindex ⊢
    simp only [hindex]
  unfold items
  rw [count_pop h, List.range_succ_eq_map, List.map_cons, List.map_map, Nat.add_zero]
  rw [show r.entry r.cons = r.front from rfl, ← List.map_congr_left hnext]
  rfl

end RingBuffer

end MlnxLib.CircularQueue
