import MlnxLib.Lib.Runs

/-!
# Runs that follow a specification

A system with results, and a specification that says of each step what it may return and how the state of the
specification goes on.

* `Follows` — a run of the specification next to one of the system, with what is observed between the steps.

Principal result: `exists_follows` — a relation between the two that each step keeps, with the steps that are to come,
makes every run of the system return and follow the specification.
-/

set_option autoImplicit false

namespace MlnxLib.Runs

variable {σ ε ρ α : Type}

/-- **A run of the specification** next to one of the system: `Observe` relates the states between the steps, and
`Spec a s e r s' a'` says that in the state `a` the step `e` of the system from `s` to `s'` may return `r`, and leads
to `a'`. -/
def Follows (Observe : α → σ → Prop) (Spec : α → σ → ε → ρ → σ → α → Prop) :
    α → σ → List ε → List (ρ × σ) → Prop
  | a, s, [], [] => Observe a s
  | a, s, e :: es, r :: rs => Observe a s ∧ ∃ a', Spec a s e r.1 r.2 a' ∧ Follows Observe Spec a' r.2 es rs
  | _, _, _, _ => False

section

variable {step : σ → ε → Option (ρ × σ)} {Observe : α → σ → Prop} {Spec : α → σ → ε → ρ → σ → α → Prop}
  {R : List ε → α → σ → Prop}

/-- **A simulation gives runs.**  `R es a s` says that the states are related and that the steps `es` may come. -/
theorem exists_follows (hobserve : ∀ {es a s}, R es a s → Observe a s)
    (hstep : ∀ {e es a s}, R (e :: es) a s → ∃ r s' a', step s e = some (r, s') ∧ Spec a s e r s' a' ∧ R es a' s')
    (es : List ε) : ∀ {a s}, R es a s → ∃ rs, trace step s es = some rs ∧ Follows Observe Spec a s es rs := by
  induction es with
  | nil =>
    intro a s h
    exact ⟨[], rfl, hobserve h⟩
  | cons e es ih =>
    intro a s h
    obtain ⟨r, s', a', hs', hspec, h'⟩ := hstep h
    obtain ⟨rs, hrs, hfollows⟩ := ih h'
    refine ⟨(r, s') :: rs, ?_, hobserve h, a', hspec, hfollows⟩
    rw [trace, hs', Option.bind_some, hrs, Option.map_some]

end

end MlnxLib.Runs
