import Mathlib.Logic.ExistsUnique
import Mathlib.Logic.Function.Basic

/-!
# Ownership of tokens

Tokens are allocated, held under keys and freed; a log keeps the allocations and the frees.  The
invariant `Owned` says that the holders account for every token: a token that was allocated is held
under one key and was not freed, or it is held under none and was freed once.

Principal results: `Owned.alloc`, `Owned.free` — a fresh token put under an unused key, and a held
token freed as it leaves its key, keep the invariant; `Owned.exactly_one` — what it says of a token.
-/

set_option autoImplicit false

namespace MlnxLib.Ownership

variable {κ τ : Type} [DecidableEq κ] [DecidableEq τ]

/-- An allocation or a free. -/
inductive Call (τ : Type) where
  | alloc (t : τ)
  | free (t : τ)
  deriving DecidableEq, Repr

/-- The holders account for every token of the log. -/
structure Owned (held : κ → Option τ) (log : List (Call τ)) : Prop where
  allocated : ∀ {k t}, held k = some t → .alloc t ∈ log
  live : ∀ {k t}, held k = some t → .free t ∉ log
  unique : ∀ {k k' t}, held k = some t → held k' = some t → k = k'
  accounted : ∀ {t}, .alloc t ∈ log → (∃ k, held k = some t) ∨ log.count (.free t) = 1
  freed : ∀ {t}, .free t ∈ log → .alloc t ∈ log

omit [DecidableEq κ] in
theorem owned_nil : Owned (fun _ : κ => (none : Option τ)) [] := by
  constructor <;> simp

namespace Owned

variable {held : κ → Option τ} {log : List (Call τ)}

/-- **A fresh token goes under an unused key.** -/
theorem alloc (h : Owned held log) {k : κ} {t : τ} (hk : held k = none) (ht : .alloc t ∉ log) :
    Owned (Function.update held k (some t)) (log ++ [.alloc t]) := by
  have hother : ∀ {k' t'}, k' ≠ k → Function.update held k (some t) k' = some t' →
      held k' = some t' := by
    intro k' t' hne hk'
    rwa [Function.update_of_ne hne] at hk'
  have hself : ∀ {t'}, Function.update held k (some t) k = some t' → t' = t := by
    intro t' hk'
    rw [Function.update_self, Option.some.injEq] at hk'
    exact hk'.symm
  refine ⟨?_, ?_, ?_, ?_, ?_⟩
  · intro k' t' hk'
    by_cases hkk : k' = k
    · subst hkk
      rw [hself hk']
      simp
    · exact List.mem_append_left _ (h.allocated (hother hkk hk'))
  · intro k' t' hk' hmem
    have hmem' : .free t' ∈ log := by simpa using hmem
    by_cases hkk : k' = k
    · subst hkk
      rw [hself hk'] at hmem'
      exact ht (h.freed hmem')
    · exact h.live (hother hkk hk') hmem'
  · intro k₁ k₂ t' h₁ h₂
    by_cases hk₁ : k₁ = k
    · subst hk₁
      by_cases hk₂ : k₂ = k₁
      · exact hk₂.symm
      · rw [hself h₁] at h₂
        exact absurd (h.allocated (hother hk₂ h₂)) ht
    · by_cases hk₂ : k₂ = k
      · subst hk₂
        rw [hself h₂] at h₁
        exact absurd (h.allocated (hother hk₁ h₁)) ht
      · exact h.unique (hother hk₁ h₁) (hother hk₂ h₂)
  · intro t' hmem
    rw [List.mem_append, List.mem_singleton, Call.alloc.injEq] at hmem
    obtain hmem | rfl := hmem
    · obtain ⟨k', hk'⟩ | hcount := h.accounted hmem
      · have hkk : k' ≠ k := by
          rintro rfl
          rw [hk] at hk'
          cases hk'
        exact Or.inl ⟨k', by rw [Function.update_of_ne hkk]; exact hk'⟩
      · exact Or.inr (by simp [hcount])
    · exact Or.inl ⟨k, Function.update_self ..⟩
  · intro t' hmem
    have hmem' : .free t' ∈ log := by simpa using hmem
    exact List.mem_append_left _ (h.freed hmem')

/-- **A held token is freed as it leaves its key.** -/
theorem free (h : Owned held log) {k : κ} {t : τ} (hk : held k = some t) :
    Owned (Function.update held k none) (log ++ [.free t]) := by
  have hother : ∀ {k' t'}, Function.update held k none k' = some t' → k' ≠ k ∧ held k' = some t' := by
    intro k' t' hk'
    by_cases hkk : k' = k
    · subst hkk
      simp at hk'
    · rw [Function.update_of_ne hkk] at hk'
      exact ⟨hkk, hk'⟩
  refine ⟨?_, ?_, ?_, ?_, ?_⟩
  · intro k' t' hk'
    exact List.mem_append_left _ (h.allocated (hother hk').2)
  · intro k' t' hk' hmem
    obtain ⟨hkk, hk'⟩ := hother hk'
    rw [List.mem_append, List.mem_singleton, Call.free.injEq] at hmem
    obtain hmem | rfl := hmem
    · exact h.live hk' hmem
    · exact hkk (h.unique hk' hk)
  · intro k₁ k₂ t' h₁ h₂
    exact h.unique (hother h₁).2 (hother h₂).2
  · intro t' hmem
    have hmem' : .alloc t' ∈ log := by simpa using hmem
    by_cases htt : t' = t
    · subst htt
      refine Or.inr ?_
      rw [List.count_append, List.count_eq_zero_of_not_mem (h.live hk)]
      simp
    · obtain ⟨k', hk'⟩ | hcount := h.accounted hmem'
      · have hkk : k' ≠ k := by
          rintro rfl
          rw [hk, Option.some.injEq] at hk'
          exact htt hk'.symm
        exact Or.inl ⟨k', by rw [Function.update_of_ne hkk]; exact hk'⟩
      · refine Or.inr ?_
        rw [List.count_append, hcount]
        simp [Ne.symm htt]
  · intro t' hmem
    rw [List.mem_append, List.mem_singleton, Call.free.injEq] at hmem
    obtain hmem | rfl := hmem
    · exact List.mem_append_left _ (h.freed hmem)
    · exact List.mem_append_left _ (h.allocated hk)

omit [DecidableEq κ] in
/-- **Every allocated token is held once and not freed, or held nowhere and freed once.** -/
theorem exactly_one (h : Owned held log) {t : τ} (ht : .alloc t ∈ log) :
    ((∃! k, held k = some t) ∧ log.count (.free t) = 0) ∨
    ((∀ k, held k ≠ some t) ∧ log.count (.free t) = 1) := by
  by_cases hheld : ∃ k, held k = some t
  · obtain ⟨k, hk⟩ := hheld
    exact Or.inl ⟨⟨k, hk, fun k' hk' => h.unique hk' hk⟩,
      List.count_eq_zero_of_not_mem (h.live hk)⟩
  · refine Or.inr ⟨fun k hk => hheld ⟨k, hk⟩, ?_⟩
    exact (h.accounted ht).resolve_left hheld

end Owned

end MlnxLib.Ownership
