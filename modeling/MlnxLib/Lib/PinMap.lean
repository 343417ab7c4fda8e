import Mathlib.Logic.Function.Basic

/-!
# Maps with pinned entries, and logs of writes and sweeps

A map whose entries carry a flag: a *free* entry can be erased, a *pinned* one cannot.  A log is a
sequence of writes — each puts a value under a key, or drops the key — and of sweeps, which erase
every free entry that satisfies a predicate.

* `inOrder` — the meaning of a log: its entries one after the other.
* `batched` — all sweeps first, then all writes in one mode: every key written is put, or every
  key written is dropped.

Principal results: `inOrder_free`, `inOrder_pinned`, `batched_free`, `batched_pinned` — what each
leaves at a key, from the last write of that key; `value_eq_iff` — the two agree at a key exactly
when the last write of that key leaves an entry just in case the mode is to put.
-/

set_option autoImplicit false

namespace MlnxLib.PinMap

variable {κ α β : Type}

/-! ## Cells and maps -/

/-- A value and whether it is free, if there is one. -/
abbrev Cell (α : Type) := Option (α × Bool)

namespace Cell

/-- Write a value; a new one is free. -/
def put (c : Cell α) (a : α) : Cell α :=
  match c with
  | some (_, free) => some (a, free)
  | none => some (a, true)

/-- Erase the value if it is free. -/
def drop : Cell α → Cell α
  | some (a, false) => some (a, false)
  | _ => none

/-- Erase the value if it is free and satisfies `P`. -/
def sweep (P : α → Bool) : Cell α → Cell α
  | some (a, true) => if P a then none else some (a, true)
  | c => c

def value (c : Cell α) : Option α := c.map Prod.fst

def pinned : Cell α → Bool
  | some (_, false) => true
  | _ => false

end Cell

abbrev Map (κ α : Type) := κ → Cell α

namespace Map

variable [DecidableEq κ]

def put (M : Map κ α) (k : κ) (a : α) : Map κ α := Function.update M k ((M k).put a)

def drop (M : Map κ α) (k : κ) : Map κ α := Function.update M k (M k).drop

def sweep (M : Map κ α) (P : α → Bool) : Map κ α := fun k => (M k).sweep P

end Map

/-- A drop leaves no value of what is not pinned. -/
theorem Cell.drop_value_eq_none_iff (c : Cell α) : c.drop.value = none ↔ c.pinned = false := by
  obtain _ | ⟨a, _ | _⟩ := c <;> simp [Cell.drop, Cell.value, Cell.pinned]

/-- What is pinned stays. -/
theorem Cell.drop_of_pinned {c : Cell α} (h : c.pinned = true) : c.drop = c := by
  obtain _ | ⟨a, _ | _⟩ := c
  · rfl
  · rfl
  · cases h

theorem Cell.value_ne_none_of_pinned {c : Cell α} (h : c.pinned = true) : c.value ≠ none := by
  obtain _ | ⟨a, b⟩ := c
  · cases h
  · simp [Cell.value]

theorem Cell.drop_drop (c : Cell α) : c.drop.drop = c.drop := by
  obtain _ | ⟨a, _ | _⟩ := c <;> rfl

/-! ## Logs -/

/-- An entry of a log. -/
inductive Entry (κ α : Type) where
  | write (put : Bool) (k : κ) (a : α)
  | sweep (P : α → Bool)

/-! ## Sweeps -/

def sweepStep (M : Map κ α) : Entry κ α → Map κ α
  | .write _ _ _ => M
  | .sweep P => M.sweep P

/-- A sweep of the log takes the value. -/
def swept (a : α) : List (Entry κ α) → Bool
  | [] => false
  | .write _ _ _ :: log => swept a log
  | .sweep P :: log => P a || swept a log

theorem Cell.sweep_pinned (P : α → Bool) (c : Cell α) : (c.sweep P).pinned = c.pinned := by
  unfold Cell.sweep
  split
  · split <;> rfl
  · rfl

theorem Cell.sweep_sweep (P : α → Bool) (c : Cell α) : (c.sweep P).sweep P = c.sweep P := by
  match c with
  | none => rfl
  | some (_, false) => rfl
  | some (a, true) => cases hp : P a <;> simp [Cell.sweep, hp]

theorem sweeps_free {k : κ} : ∀ (log : List (Entry κ α)) {M : Map κ α}, (M k).pinned = false →
    (log.foldl sweepStep M k).pinned = false
  | [], _, h => h
  | .write _ _ _ :: log, _, h => sweeps_free log h
  | .sweep P :: log, M, h => sweeps_free log (by
      show ((M k).sweep P).pinned = false
      rw [Cell.sweep_pinned]
      exact h)

/-- The sweeps of a log act on each key by itself. -/
theorem sweeps_congr {k : κ} : ∀ (log : List (Entry κ α)) {M N : Map κ α}, M k = N k →
    log.foldl sweepStep M k = log.foldl sweepStep N k
  | [], _, _, h => h
  | .write _ _ _ :: log, _, _, h => sweeps_congr log h
  | .sweep P :: log, M, N, h => sweeps_congr log (by
      show (M k).sweep P = (N k).sweep P
      rw [h])

theorem sweeps_none {k : κ} : ∀ (log : List (Entry κ α)) {M : Map κ α}, M k = none →
    log.foldl sweepStep M k = none
  | [], _, h => h
  | .write _ _ _ :: log, _, h => sweeps_none log h
  | .sweep P :: log, M, h => sweeps_none log (by
      show (M k).sweep P = none
      rw [h]
      rfl)

/-- A free value outlives the sweeps that do not take it. -/
theorem sweeps_value {k : κ} {a : α} : ∀ (log : List (Entry κ α)) {M : Map κ α},
    M k = some (a, true) →
      log.foldl sweepStep M k = if swept a log then none else some (a, true)
  | [], _, h => h
  | .write _ _ _ :: log, _, h => sweeps_value log h
  | .sweep P :: log, M, h => by
    have hk : M.sweep P k = if P a then none else some (a, true) := by
      show (M k).sweep P = _
      rw [h]
      rfl
    rw [swept]
    cases hp : P a with
    | true =>
      rw [hp] at hk
      exact sweeps_none log hk
    | false =>
      rw [hp] at hk
      exact sweeps_value log hk

theorem sweeps_pinned {k : κ} {a : α} : ∀ (log : List (Entry κ α)) {M : Map κ α},
    M k = some (a, false) → log.foldl sweepStep M k = some (a, false)
  | [], _, h => h
  | .write _ _ _ :: log, _, h => sweeps_pinned log h
  | .sweep P :: log, M, h => sweeps_pinned log (by
      show (M k).sweep P = _
      rw [h]
      rfl)

/-! ## The two meanings of a log -/

variable [DecidableEq κ]

def step (M : Map κ α) : Entry κ α → Map κ α
  | .write true k a => M.put k a
  | .write false k _ => M.drop k
  | .sweep P => M.sweep P

/-- The entries of a log one after the other. -/
def inOrder (M : Map κ α) (log : List (Entry κ α)) : Map κ α := log.foldl step M

def writeStep (mode : Bool) (M : Map κ α) : Entry κ α → Map κ α
  | .write _ k a => if mode then M.put k a else M.drop k
  | .sweep _ => M

/-- The sweeps of a log, then its writes, all of them in one mode. -/
def batched (mode : Bool) (M : Map κ α) (log : List (Entry κ α)) : Map κ α :=
  log.foldl (writeStep mode) (log.foldl sweepStep M)

/-- The last write of a key, and the entries after it. -/
def lastWrite (k : κ) : List (Entry κ α) → Option (Bool × α × List (Entry κ α))
  | [] => none
  | e :: log =>
    match lastWrite k log with
    | some w => some w
    | none =>
      match e with
      | .write put k' a => if k' = k then some (put, a, log) else none
      | .sweep _ => none

/-- The value of the last put of a key. -/
def lastPut (k : κ) : List (Entry κ α) → Option α
  | [] => none
  | e :: log =>
    match lastPut k log with
    | some a => some a
    | none =>
      match e with
      | .write put k' a => if put = true ∧ k' = k then some a else none
      | .sweep _ => none

theorem lastWrite_sweep (k : κ) (P : α → Bool) (log : List (Entry κ α)) :
    lastWrite k (.sweep P :: log) = lastWrite k log := by
  rw [lastWrite]
  cases lastWrite k log <;> rfl

theorem lastWrite_write (k k' : κ) (put : Bool) (a : α) (log : List (Entry κ α)) :
    lastWrite k (.write put k' a :: log) =
      (lastWrite k log).or (if k' = k then some (put, a, log) else none) := by
  rw [lastWrite]
  cases lastWrite k log <;> rfl

theorem lastPut_sweep (k : κ) (P : α → Bool) (log : List (Entry κ α)) :
    lastPut k (.sweep P :: log) = lastPut k log := by
  rw [lastPut]
  cases lastPut k log <;> rfl

theorem lastPut_write (k k' : κ) (put : Bool) (a : α) (log : List (Entry κ α)) :
    lastPut k (.write put k' a :: log) =
      (lastPut k log).or (if put = true ∧ k' = k then some a else none) := by
  rw [lastPut]
  cases lastPut k log <;> rfl

/-! ## One entry, seen from a key -/

theorem put_apply (M : Map κ α) (k k' : κ) (a : α) :
    M.put k' a k = if k' = k then (M k).put a else M k := by
  unfold Map.put
  by_cases h : k' = k
  · subst h; simp
  · simp [h, Function.update_of_ne (Ne.symm h)]

theorem drop_apply (M : Map κ α) (k k' : κ) :
    M.drop k' k = if k' = k then (M k).drop else M k := by
  unfold Map.drop
  by_cases h : k' = k
  · subst h; simp
  · simp [h, Function.update_of_ne (Ne.symm h)]

theorem Cell.put_free {c : Cell α} (h : c.pinned = false) (a : α) : c.put a = some (a, true) := by
  unfold Cell.pinned at h
  unfold Cell.put
  split at h
  · cases h
  · rename_i hne
    cases c with
    | none => rfl
    | some v =>
      obtain ⟨b, _ | _⟩ := v
      · exact absurd rfl (hne b)
      · rfl

theorem Cell.drop_free {c : Cell α} (h : c.pinned = false) : c.drop = none := by
  unfold Cell.pinned at h
  unfold Cell.drop
  split
  · cases h
  · rfl

theorem step_write_free {M : Map κ α} {k : κ} (h : (M k).pinned = false) (put : Bool) (k' : κ)
    (a : α) : step M (.write put k' a) k =
      if k' = k then (if put then some (a, true) else none) else M k := by
  cases put with
  | true => rw [step, put_apply, Cell.put_free h]; rfl
  | false => rw [step, drop_apply, Cell.drop_free h]; rfl

theorem step_write_pinned {M : Map κ α} {k : κ} {a : α} (h : M k = some (a, false)) (put : Bool)
    (k' : κ) (b : α) :
    step M (.write put k' b) k = some (if put = true ∧ k' = k then b else a, false) := by
  cases put with
  | true =>
    rw [step, put_apply, h]
    by_cases hk : k' = k <;> simp [hk, Cell.put]
  | false =>
    rw [step, drop_apply, h]
    by_cases hk : k' = k <;> simp [hk, Cell.drop]

/-- No entry pins a free key. -/
theorem step_free {M : Map κ α} {k : κ} (h : (M k).pinned = false) (e : Entry κ α) :
    (step M e k).pinned = false := by
  match e with
  | .write put k' a =>
    rw [step_write_free h]
    split
    · split <;> rfl
    · exact h
  | .sweep P =>
    rw [step, Map.sweep, Cell.sweep_pinned]
    exact h

/-! ## In order -/

/-- **In order, at a free key**: the last write decides, and the sweeps after it. -/
theorem inOrder_free {k : κ} : ∀ (log : List (Entry κ α)) {M : Map κ α}, (M k).pinned = false →
    inOrder M log k =
      match lastWrite k log with
      | some (put, a, later) => if put && !swept a later then some (a, true) else none
      | none => log.foldl sweepStep M k
  | [], _, _ => rfl
  | .sweep P :: log, M, h => by
    have hcons : inOrder M (.sweep P :: log) k = inOrder (step M (.sweep P)) log k := rfl
    rw [hcons, inOrder_free log (step_free h _), lastWrite_sweep]
    rfl
  | .write put k' a :: log, M, h => by
    have hcons : inOrder M (.write put k' a :: log) k = inOrder (step M (.write put k' a)) log k := rfl
    have hstep := step_write_free h put k' a
    rw [hcons, inOrder_free log (step_free h _), lastWrite_write]
    cases lastWrite k log with
    | some w => rfl
    | none =>
      simp only [Option.none_or]
      by_cases hk : k' = k
      · rw [if_pos hk] at hstep ⊢
        cases put with
        | true =>
          rw [sweeps_value log hstep]
          cases hs : swept a log <;> simp [hs]
        | false => exact sweeps_none log hstep
      · rw [if_neg hk] at hstep ⊢
        exact sweeps_congr log hstep

/-- **In order, at a pinned key**: only puts count. -/
theorem inOrder_pinned {k : κ} : ∀ (log : List (Entry κ α)) {M : Map κ α} {a : α},
    M k = some (a, false) → inOrder M log k = some ((lastPut k log).getD a, false)
  | [], _, _, h => h
  | .sweep P :: log, M, a, h => by
    have hk : step M (.sweep P) k = some (a, false) := by
      show (M k).sweep P = _
      rw [h]
      rfl
    rw [lastPut_sweep]
    exact inOrder_pinned log hk
  | .write put k' b :: log, M, a, h => by
    have ih := inOrder_pinned log (step_write_pinned h put k' b)
    have hcons : inOrder M (.write put k' b :: log) k = inOrder (step M (.write put k' b)) log k := rfl
    rw [hcons, ih, lastPut_write]
    cases lastPut k log with
    | some c => rfl
    | none => by_cases hkk : put = true ∧ k' = k <;> simp [hkk]

/-! ## Batched -/

/-- The writes of a log in one mode, at a free key. -/
theorem writes_free (mode : Bool) {k : κ} : ∀ (log : List (Entry κ α)) {M : Map κ α},
    (M k).pinned = false → log.foldl (writeStep mode) M k =
      match lastWrite k log with
      | some (_, a, _) => if mode then some (a, true) else none
      | none => M k
  | [], _, _ => rfl
  | .sweep P :: log, M, h => by
    rw [lastWrite_sweep]
    exact writes_free mode log h
  | .write b k' a :: log, M, h => by
    have hstep : writeStep mode M (.write b k' a) k =
        if k' = k then (if mode then some (a, true) else none) else M k := by
      rw [← step_write_free h mode k' a, writeStep]
      cases mode <;> rfl
    have hfree : (writeStep mode M (.write b k' a) k).pinned = false := by
      rw [hstep]
      split
      · split <;> rfl
      · exact h
    rw [List.foldl_cons, writes_free mode log hfree, lastWrite_write]
    cases lastWrite k log with
    | some w => rfl
    | none =>
      simp only [hstep, Option.none_or]
      by_cases hk : k' = k <;> simp [hk]

/-- **Batched, at a free key**: the last write gives the value, the mode decides. -/
theorem batched_free (mode : Bool) {k : κ} (log : List (Entry κ α)) {M : Map κ α}
    (h : (M k).pinned = false) : batched mode M log k =
      match lastWrite k log with
      | some (_, a, _) => if mode then some (a, true) else none
      | none => log.foldl sweepStep M k :=
  writes_free mode log (sweeps_free log h)

theorem writes_pinned (mode : Bool) {k : κ} : ∀ (log : List (Entry κ α)) {M : Map κ α} {a : α},
    M k = some (a, false) → log.foldl (writeStep mode) M k =
      some (if mode then ((lastWrite k log).map fun w => w.2.1).getD a else a, false)
  | [], _, _, h => by
    rw [List.foldl_nil, h]
    cases mode <;> rfl
  | .sweep P :: log, M, a, h => by
    rw [lastWrite_sweep]
    exact writes_pinned mode log h
  | .write b k' c :: log, M, a, h => by
    have hstep : writeStep mode M (.write b k' c) k =
        some (if mode = true ∧ k' = k then c else a, false) := by
      rw [← step_write_pinned h mode k' c, writeStep]
      cases mode <;> rfl
    rw [List.foldl_cons, writes_pinned mode log hstep, lastWrite_write]
    cases mode with
    | false => simp
    | true =>
      cases lastWrite k log with
      | some w => rfl
      | none => by_cases hk : k' = k <;> simp [hk]

/-- **Batched, at a pinned key**: the last write counts in put mode, none in drop mode. -/
theorem batched_pinned (mode : Bool) {k : κ} (log : List (Entry κ α)) {M : Map κ α} {a : α}
    (h : M k = some (a, false)) : batched mode M log k =
      some (if mode then ((lastWrite k log).map fun w => w.2.1).getD a else a, false) :=
  writes_pinned mode log (sweeps_pinned log h)

/-! ## Agreement -/

/-- When the two meanings of a log agree at a key, up to `f` of the values.  At a free key: the
last write leaves an entry — it is a put and no later sweep takes it — just in case the mode is to
put.  At a pinned key the value of the last put and that of the batch have to agree. -/
def Agrees (f : α → β) (mode : Bool) (M : Map κ α) (log : List (Entry κ α)) (k : κ) : Prop :=
  match M k with
  | some (a, false) => f ((lastPut k log).getD a) =
      f (if mode then ((lastWrite k log).map fun w => w.2.1).getD a else a)
  | _ => ∀ put a later, lastWrite k log = some (put, a, later) → (put && !swept a later) = mode

/-- **The two meanings of a log agree at a key exactly when `Agrees` says so.** -/
theorem value_eq_iff (f : α → β) (mode : Bool) (M : Map κ α) (log : List (Entry κ α)) (k : κ) :
    (batched mode M log k).value.map f = (inOrder M log k).value.map f ↔ Agrees f mode M log k := by
  cases hp : (M k).pinned with
  | true =>
    obtain ⟨a, ha⟩ : ∃ a, M k = some (a, false) := by
      unfold Cell.pinned at hp
      split at hp
      · rename_i a ha
        exact ⟨a, ha⟩
      · cases hp
    rw [batched_pinned mode log ha, inOrder_pinned log ha]
    simp only [Agrees, ha, Cell.value, Option.map_some, Option.some.injEq]
    exact eq_comm
  | false =>
    have hagree : Agrees f mode M log k ↔
        ∀ put a later, lastWrite k log = some (put, a, later) → (put && !swept a later) = mode := by
      unfold Agrees
      split
      · rename_i a ha
        rw [ha] at hp
        cases hp
      · rfl
    rw [hagree, batched_free mode log hp, inOrder_free log hp]
    match lastWrite k log with
    | none => simp
    | some (put, a, later) =>
      have hlast : (∀ p b l, some (put, a, later) = some (p, b, l) → (p && !swept b l) = mode) ↔
          (put && !swept a later) = mode := by
        refine ⟨fun h => h put a later rfl, ?_⟩
        rintro h p b l he
        cases he
        exact h
      rw [hlast]
      dsimp only
      generalize (put && !swept a later) = leaves
      cases leaves <;> cases mode <;> simp [Cell.value]

end MlnxLib.PinMap
