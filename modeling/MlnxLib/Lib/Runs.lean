import Mathlib.Data.Option.Basic

/-!
# Runs of a system

A system takes steps that may not be enabled; a run is a list of what happens.

* `run` — the state after a run, if every step of it is enabled.
* `AllMeet` — every step of a run meets a condition on the state before it.
* `Throughout` — every state of a run has a property.
* `trace` — what each step of a run returns, with the state after it.

Principal results: `invariant` — what every step that meets the condition keeps holds after every run
whose steps all meet it; `throughout_iff_allMeet`, `throughout_iff_of_exact` — if the condition is exact for
each step, it is exact for runs.
-/

set_option autoImplicit false

namespace MlnxLib.Runs

variable {σ ε : Type}

/-- The state after a run. -/
def run (step : σ → ε → Option σ) : σ → List ε → Option σ
  | s, [] => some s
  | s, e :: es => (step s e).bind fun s' => run step s' es

/-- All steps of a run meet the condition. -/
def AllMeet (step : σ → ε → Option σ) (Meets : σ → ε → Prop) : σ → List ε → Prop
  | _, [] => True
  | s, e :: es => Meets s e ∧ ∀ s' ∈ step s e, AllMeet step Meets s' es

/-- All states of a run have the property. -/
def Throughout (step : σ → ε → Option σ) (P : σ → Prop) : σ → List ε → Prop
  | s, [] => P s
  | s, e :: es => P s ∧ ∀ s' ∈ step s e, Throughout step P s' es

section

variable {step : σ → ε → Option σ} {Meets : σ → ε → Prop} {s s' s'' : σ} {e : ε} {es es' : List ε}

@[simp] theorem run_nil : run step s [] = some s := rfl

theorem run_cons : run step s (e :: es) = (step s e).bind fun s' => run step s' es := rfl

theorem run_cons_some (h : step s e = some s') : run step s (e :: es) = run step s' es := by
  rw [run_cons, h, Option.bind_some]

/-- A run that is not empty begins with a step. -/
theorem exists_of_run_cons (h : run step s (e :: es) = some s'') :
    ∃ s', step s e = some s' ∧ run step s' es = some s'' :=
  Option.bind_eq_some_iff.mp h

theorem run_append : ∀ {s : σ} (es es' : List ε),
    run step s (es ++ es') = (run step s es).bind fun s' => run step s' es'
  | _, [], _ => rfl
  | s, e :: es, es' => by
    rw [List.cons_append, run_cons, run_cons, Option.bind_assoc]
    congr 1
    funext s'
    exact run_append es es'

theorem allMeet_cons (h : step s e = some s') :
    AllMeet step Meets s (e :: es) ↔ Meets s e ∧ AllMeet step Meets s' es := by
  simp [AllMeet, h]

/-- The steps of the first part of a run. -/
theorem AllMeet.of_append : ∀ {s : σ} {es es' : List ε},
    AllMeet step Meets s (es ++ es') → AllMeet step Meets s es
  | _, [], _, _ => trivial
  | _, _ :: _, _, h => ⟨h.1, fun s' hs' => (h.2 s' hs').of_append⟩

/-- **What every step keeps holds after every run.** -/
theorem invariant {I : σ → Prop} (hstep : ∀ {s s' e}, I s → Meets s e → step s e = some s' → I s') :
    ∀ {s s' : σ} (es : List ε), I s → AllMeet step Meets s es → run step s es = some s' → I s'
  | s, s', [], h, _, hrun => by
    cases hrun
    exact h
  | s, s', e :: es, h, hmeet, hrun => by
    obtain ⟨s₁, he, hrun⟩ := exists_of_run_cons hrun
    obtain ⟨hm, hmeet⟩ := (allMeet_cons he).mp hmeet
    exact invariant hstep es (hstep h hm he) hmeet hrun

theorem allMeet_of_forall (h : ∀ s e, Meets s e) : ∀ (s : σ) (es : List ε), AllMeet step Meets s es
  | _, [] => trivial
  | s, e :: es => ⟨h s e, fun s' _ => allMeet_of_forall h s' es⟩

theorem allMeet_of_mem {P : ε → Prop} : ∀ {es : List ε}, (∀ e ∈ es, P e) →
    ∀ s : σ, AllMeet step (fun _ e => P e) s es
  | [], _, _ => trivial
  | e :: _, h, _ => ⟨h e (List.mem_cons_self ..),
    fun s' _ => allMeet_of_mem (fun e' he' => h e' (List.mem_cons_of_mem e he')) s'⟩

/-- What every step keeps, under no condition. -/
theorem invariant_of_step {I : σ → Prop} (hstep : ∀ {s s' e}, I s → step s e = some s' → I s')
    (es : List ε) (h : I s) (hrun : run step s es = some s') : I s' :=
  have hmeet : AllMeet step (fun _ _ => True) s es := allMeet_of_forall (fun _ _ => trivial) s es
  invariant (fun hi _ he => hstep hi he) es h hmeet hrun

/-- A step of a run meets the condition in the state it is taken in. -/
theorem AllMeet.of_run : ∀ {s s' : σ} {es es' : List ε}, AllMeet step Meets s (es ++ e :: es') →
    run step s es = some s' → Meets s' e
  | s, s', [], es', h, hrun => by
    cases hrun
    exact h.1
  | s, s', e₁ :: es, es', h, hrun => by
    obtain ⟨s₁, he, hrun⟩ := exists_of_run_cons hrun
    exact (h.2 s₁ he).of_run hrun

/-- What a condition on steps and an invariant give at each step of a run. -/
theorem AllMeet.of_invariant {I : σ → Prop} {Meets' : σ → ε → Prop}
    (hstep : ∀ {s s' e}, I s → Meets s e → step s e = some s' → I s')
    (hmeets : ∀ s e, I s → Meets s e → Meets' s e) :
    ∀ {s : σ} (es : List ε), I s → AllMeet step Meets s es → AllMeet step Meets' s es
  | _, [], _, _ => trivial
  | s, e :: es, h, hmeet =>
    ⟨hmeets s e h hmeet.1, fun s' hs' => of_invariant hstep hmeets es (hstep h hmeet.1 hs') (hmeet.2 s' hs')⟩

/-- A system that is seen through `f` as another one: a condition on what is seen. -/
theorem allMeet_map {σ' : Type} {step' : σ' → ε → Option σ'} {Meets' : σ' → ε → Prop} {f : σ → σ'}
    (hstep : ∀ s e, step' (f s) e = (step s e).map f) : ∀ (s : σ) (es : List ε),
      AllMeet step' Meets' (f s) es ↔ AllMeet step (fun s e => Meets' (f s) e) s es
  | _, [] => Iff.rfl
  | s, e :: es => by
    refine and_congr_right fun _ => ?_
    rw [hstep]
    constructor
    · intro h s' hs'
      exact (allMeet_map hstep s' es).mp (h (f s') (Option.mem_map_of_mem f hs'))
    · rintro h _ hmap
      obtain ⟨s', hs', rfl⟩ := Option.map_eq_some_iff.mp hmap
      exact (allMeet_map hstep s' es).mpr (h s' hs')

/-- **What every step keeps holds in every state of a run.** -/
theorem throughout_of_step {I P : σ → Prop} (hstep : ∀ {s s' e}, I s → step s e = some s' → I s')
    (himp : ∀ s, I s → P s) : ∀ {s : σ} (es : List ε), I s → Throughout step P s es
  | s, [], h => himp s h
  | s, _ :: es, h => ⟨himp s h, fun _ hs' => throughout_of_step hstep himp es (hstep h hs')⟩

/-- The last state of a run. -/
theorem Throughout.of_run {P : σ → Prop} : ∀ {s s' : σ} {es : List ε}, Throughout step P s es →
    run step s es = some s' → P s'
  | s, s', [], h, hrun => by
    cases hrun
    exact h
  | s, s', e :: es, h, hrun => by
    obtain ⟨s₁, he, hrun⟩ := exists_of_run_cons hrun
    exact (h.2 s₁ he).of_run hrun

/-- **A condition that is exact for each step is exact for runs**, over what all steps keep. -/
theorem throughout_iff_allMeet {J P : σ → Prop} (hkeep : ∀ {s s' e}, J s → step s e = some s' → J s')
    (hexact : ∀ {s s' e}, J s → P s → step s e = some s' → (P s' ↔ Meets s e)) :
    ∀ {s s' : σ} (es : List ε), J s → P s → run step s es = some s' →
      (Throughout step P s es ↔ AllMeet step Meets s es)
  | s, s', [], _, hp, _ => ⟨fun _ => trivial, fun _ => hp⟩
  | s, s', e :: es, hj, hp, hrun => by
    obtain ⟨s₁, he, hrun⟩ := exists_of_run_cons hrun
    have hrest := fun hp₁ => throughout_iff_allMeet hkeep hexact es (hkeep hj he) hp₁ hrun
    rw [allMeet_cons he, ← hexact hj hp he]
    constructor
    · rintro ⟨-, hall⟩
      have h₁ := hall s₁ he
      have hp₁ : P s₁ := by
        cases es with
        | nil => exact h₁
        | cons _ _ => exact h₁.1
      exact ⟨hp₁, (hrest hp₁).mp h₁⟩
    · rintro ⟨hp₁, hmeet⟩
      refine ⟨hp, fun s₂ hs₂ => ?_⟩
      cases Option.some.inj (he.symm.trans hs₂)
      exact (hrest hp₁).mpr hmeet

/-- **What the steps that meet the condition keep holds in every state of a run** whose steps all do. -/
theorem throughout_of_allMeet {I P : σ → Prop} (himp : ∀ s, I s → P s)
    (hkeep : ∀ {s s' e}, I s → Meets s e → step s e = some s' → I s') :
    ∀ {s : σ} (es : List ε), I s → AllMeet step Meets s es → Throughout step P s es
  | s, [], h, _ => himp s h
  | s, _ :: es, h, hmeet =>
    ⟨himp s h, fun s' hs' => throughout_of_allMeet himp hkeep es (hkeep h hmeet.1 hs') (hmeet.2 s' hs')⟩

/-- **A condition that is exact for each step from the good states is exact for runs.** -/
theorem throughout_iff_of_exact {I P : σ → Prop} (himp : ∀ s, I s → P s)
    (hkeep : ∀ {s s' e}, I s → Meets s e → step s e = some s' → I s')
    (hbreak : ∀ {s s' e}, I s → ¬Meets s e → step s e = some s' → ¬P s') :
    ∀ {s s' : σ} (es : List ε), I s → run step s es = some s' →
      (Throughout step P s es ↔ AllMeet step Meets s es)
  | s, _, [], h, _ => ⟨fun _ => trivial, fun _ => himp s h⟩
  | s, s', e :: es, h, hrun => by
    obtain ⟨s₁, he, hrun⟩ := exists_of_run_cons hrun
    rw [allMeet_cons he]
    constructor
    · rintro ⟨-, hall⟩
      have h₁ := hall s₁ he
      have hp₁ : P s₁ := by
        cases es with
        | nil => exact h₁
        | cons _ _ => exact h₁.1
      have hmeet : Meets s e := by
        by_contra hnot
        exact hbreak h hnot he hp₁
      exact ⟨hmeet, (throughout_iff_of_exact himp hkeep hbreak es (hkeep h hmeet he) hrun).mp h₁⟩
    · rintro ⟨hm, hmeet⟩
      exact throughout_of_allMeet himp hkeep (e :: es) h ((allMeet_cons he).mpr ⟨hm, hmeet⟩)

/-- The same for a condition on steps. -/
theorem allMeet_congr {J : σ → Prop} {Meets' : σ → ε → Prop}
    (hkeep : ∀ {s s' e}, J s → step s e = some s' → J s')
    (hexact : ∀ {s s' e}, J s → step s e = some s' → (Meets s e ↔ Meets' s e)) :
    ∀ {s s' : σ} (es : List ε), J s → run step s es = some s' →
      (AllMeet step Meets s es ↔ AllMeet step Meets' s es)
  | _, _, [], _, _ => Iff.rfl
  | s, s', e :: es, hj, hrun => by
    obtain ⟨s₁, he, hrun⟩ := exists_of_run_cons hrun
    rw [allMeet_cons he, allMeet_cons he, hexact hj he,
      allMeet_congr hkeep hexact es (hkeep hj he) hrun]

end

/-! ## Steps with results -/

section

variable {σ' ε' ρ : Type} {step : σ → ε → Option (ρ × σ)} {step' : σ' → ε' → Option (ρ × σ')}

/-- What the steps of a run return, and the states after them. -/
def trace (step : σ → ε → Option (ρ × σ)) : σ → List ε → Option (List (ρ × σ))
  | _, [] => some []
  | s, e :: es => (step s e).bind fun r => (trace step r.2 es).map fun rs => r :: rs

/-- **Lockstep**: a system whose steps are those of another one has the same runs. -/
theorem trace_map {f : σ → σ'} {g : ε → ε'} : ∀ (s : σ) (es : List ε),
    (∀ s, ∀ e ∈ es, step' (f s) (g e) = (step s e).map (Prod.map id f)) →
      trace step' (f s) (es.map g) = (trace step s es).map (List.map (Prod.map id f))
  | _, [], _ => rfl
  | s, e :: es, h => by
    rw [List.map_cons, trace, trace, h s e (List.mem_cons_self ..)]
    cases step s e with
    | none => rfl
    | some r =>
      have hrest : trace step' (f r.2) (es.map g) = _ :=
        trace_map r.2 es fun s e he => h s e (List.mem_cons_of_mem _ he)
      rw [Option.map_some, Option.bind_some, Option.bind_some, Prod.map_snd, hrest, Option.map_map, Option.map_map]
      rfl

/-- **Steps that are enabled in the good states** make a run through good states. -/
theorem exists_trace {I : σ → Prop} {Meets : σ → ε → Prop} : ∀ {s : σ} (es : List ε),
    (∀ s, ∀ e ∈ es, I s → Meets s e → ∃ r, step s e = some r ∧ I r.2) → I s →
    AllMeet (fun s e => (step s e).map Prod.snd) Meets s es → ∃ rs, trace step s es = some rs ∧ ∀ r ∈ rs, I r.2
  | _, [], _, _, _ => ⟨[], rfl, nofun⟩
  | s, e :: es, hstep, h, hmeet => by
    obtain ⟨hm, hmeet⟩ := hmeet
    obtain ⟨r, hr, hI⟩ := hstep s e (List.mem_cons_self ..) h hm
    have hs : r.2 ∈ (step s e).map Prod.snd := by
      rw [hr]
      rfl
    obtain ⟨rs, hrs, hall⟩ := exists_trace es (fun s e he => hstep s e (List.mem_cons_of_mem _ he)) hI (hmeet r.2 hs)
    refine ⟨r :: rs, by rw [trace, hr, Option.bind_some, hrs, Option.map_some], fun r' hr' => ?_⟩
    rcases List.mem_cons.mp hr' with rfl | hr'
    · exact hI
    · exact hall r' hr'

end

instance decidableAllMeet (step : σ → ε → Option σ) (Meets : σ → ε → Prop)
    [∀ s e, Decidable (Meets s e)] : ∀ (s : σ) (es : List ε), Decidable (AllMeet step Meets s es)
  | _, [] => isTrue trivial
  | s, e :: es =>
    match h : step s e with
    | none => decidable_of_iff (Meets s e) (by simp [AllMeet, h])
    | some s' =>
      haveI := decidableAllMeet step Meets s' es
      decidable_of_iff (Meets s e ∧ AllMeet step Meets s' es) (allMeet_cons h).symm

end MlnxLib.Runs
