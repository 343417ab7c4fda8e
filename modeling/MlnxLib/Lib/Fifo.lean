import Mathlib.Data.List.Forall2

/-!
# Queues with a record

A queue whose items are put in at one end and taken out at the other, beside the record of all that was
put in and the record of what was made of the items that were taken.

* `Queued` — what was put in is what was taken, in order, and then what waits.

Principal results: `Queued.post`, `Queued.take` — the two ends of the queue keep the records;
`Queued.length` — nothing is lost and nothing comes twice.
-/

set_option autoImplicit false

namespace MlnxLib.Fifo

variable {α β γ : Type}

/-- The records `posted` and `taken` are those of a queue in which `waiting` is left: an item of type `α`
waits as its form in `β`, and `R` relates it to what its receiver makes of it. -/
def Queued (form : α → β) (R : α → γ → Prop) (posted : List α) (taken : List γ) (waiting : List β) : Prop :=
  ∃ done pending, posted = done ++ pending ∧ List.Forall₂ R done taken ∧ waiting = pending.map form

section

variable {form : α → β} {R : α → γ → Prop} {posted : List α} {taken : List γ} {waiting : List β}

theorem queued_nil : Queued form R [] [] [] := ⟨[], [], rfl, .nil, rfl⟩

/-- Items that are put in wait behind the others. -/
theorem Queued.post (h : Queued form R posted taken waiting) (items : List α) :
    Queued form R (posted ++ items) taken (waiting ++ items.map form) := by
  obtain ⟨done, pending, rfl, hdone, rfl⟩ := h
  refine ⟨done, pending ++ items, ?_, hdone, ?_⟩
  · rw [List.append_assoc]
  · rw [List.map_append]

/-- The first item that waits is the first that was put in and not taken. -/
theorem Queued.take {b : β} (h : Queued form R posted taken (b :: waiting)) :
    ∃ a ∈ posted, form a = b ∧ ∀ c, R a c → Queued form R posted (taken ++ [c]) waiting := by
  obtain ⟨done, pending, rfl, hdone, hwaiting⟩ := h
  cases pending with
  | nil => cases hwaiting
  | cons a pending =>
    rw [List.map_cons, List.cons.injEq] at hwaiting
    obtain ⟨rfl, rfl⟩ := hwaiting
    refine ⟨a, List.mem_append_right _ (List.mem_cons_self ..), rfl, fun c hc => ?_⟩
    refine ⟨done ++ [a], pending, ?_, ?_, rfl⟩
    · rw [List.append_assoc, List.singleton_append]
    · exact List.rel_append hdone (List.Forall₂.cons hc .nil)

/-- **Nothing is lost, and nothing comes twice.** -/
theorem Queued.length (h : Queued form R posted taken waiting) :
    posted.length = taken.length + waiting.length := by
  obtain ⟨done, pending, rfl, hdone, rfl⟩ := h
  rw [List.length_append, List.length_map, hdone.length_eq]

end

end MlnxLib.Fifo
