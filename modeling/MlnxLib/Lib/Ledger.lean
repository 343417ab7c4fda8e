import Mathlib.Data.List.Count

/-!
# Ledgers of resources

A ledger lists what was done to resources, the latest first.

* `Released` — the resource was destroyed.
* `Clean` — nothing is done to a resource after it was destroyed.

Principal results: `Clean.count_destroy` — each resource is destroyed at most once;
`Clean.not_used_after` — none is used after it was destroyed.
-/

set_option autoImplicit false

namespace MlnxLib.Ledger

variable {R : Type}

inductive Op (R : Type) where
  | create (r : R)
  | use (r : R)
  | destroy (r : R)
  deriving DecidableEq, Repr

def Op.resource : Op R → R
  | .create r => r
  | .use r => r
  | .destroy r => r

/-- The resource was destroyed. -/
def Released (log : List (Op R)) (r : R) : Prop := .destroy r ∈ log

/-- Nothing is done to a resource after it was destroyed. -/
def Clean : List (Op R) → Prop
  | [] => True
  | op :: log => ¬Released log op.resource ∧ Clean log

@[simp] theorem not_released_nil (r : R) : ¬Released [] r := List.not_mem_nil

@[simp] theorem released_create {log : List (Op R)} {r x : R} :
    Released (.create x :: log) r ↔ Released log r := by
  simp [Released]

@[simp] theorem released_use {log : List (Op R)} {r x : R} :
    Released (.use x :: log) r ↔ Released log r := by
  simp [Released]

@[simp] theorem released_destroy {log : List (Op R)} {r x : R} :
    Released (.destroy x :: log) r ↔ r = x ∨ Released log r := by
  simp [Released]

@[simp] theorem clean_nil : Clean ([] : List (Op R)) := trivial

@[simp] theorem clean_cons {log : List (Op R)} {op : Op R} :
    Clean (op :: log) ↔ ¬Released log op.resource ∧ Clean log := Iff.rfl

@[simp] theorem released_uses {log : List (Op R)} {r : R} : ∀ (rs : List R),
    Released (rs.map .use ++ log) r ↔ Released log r
  | [] => Iff.rfl
  | _ :: rs => released_use.trans (released_uses rs)

/-- Uses of resources that are not destroyed. -/
theorem Clean.uses {log : List (Op R)} (h : Clean log) : ∀ (rs : List R),
    (∀ r ∈ rs, ¬Released log r) → Clean (rs.map .use ++ log)
  | [], _ => h
  | r :: rs, hrs => by
    have hr : ¬Released (rs.map .use ++ log) r :=
      fun hrel => hrs r (List.mem_cons_self ..) ((released_uses rs).mp hrel)
    exact ⟨hr, h.uses rs fun x hx => hrs x (List.mem_cons_of_mem r hx)⟩

/-- What was done after a resource was destroyed was done to others. -/
theorem Clean.resource_ne {r : R} {earlier : List (Op R)} : ∀ {later : List (Op R)},
    Clean (later ++ .destroy r :: earlier) → ∀ op ∈ later, op.resource ≠ r
  | [], _, _, hop => absurd hop List.not_mem_nil
  | op :: later, h, op', hop => by
    rcases List.mem_cons.mp hop with rfl | hop
    · rintro rfl
      exact h.1 (List.mem_append_right _ (List.mem_cons_self ..))
    · exact h.2.resource_ne op' hop

/-- **No resource is used after it was destroyed.** -/
theorem Clean.not_used_after {r : R} {earlier later : List (Op R)}
    (h : Clean (later ++ .destroy r :: earlier)) : .use r ∉ later :=
  fun hop => h.resource_ne _ hop rfl

/-- **Each resource is destroyed at most once.** -/
theorem Clean.count_destroy [DecidableEq R] (r : R) : ∀ {log : List (Op R)}, Clean log →
    log.count (.destroy r) ≤ 1
  | [], _ => Nat.zero_le 1
  | op :: log, h => by
    by_cases hop : op = .destroy r
    · subst hop
      have hnone : log.count (.destroy r) = 0 := List.count_eq_zero.mpr h.1
      exact Nat.le_of_eq (by rw [List.count_cons_self, hnone])
    · rw [List.count_cons_of_ne hop]
      exact h.2.count_destroy r

end MlnxLib.Ledger
