import MlnxLib.Lib.Runs

/-!
# Auto-reset events

Model of `cl_event.c`: an event is a flag under a mutex with a condition variable, and any number of threads
signal it and wait on it.

* `ClEvent` — the flag; `clEventWaitOn` — a wait up to its return, or to the condition variable; `wakeStatus`,
  `endWait` — the rest of it, with what `pthread_cond_wait` or `pthread_cond_timedwait` has returned.
* `Waits`, `WaitEvent`, `eventStep` — threads in any order.  A step is what happens under the mutex.  A thread on
  the condition variable may wake up at any time, signalled or not, by its time-out or with an error.
* `SignalsKept` — exactly the waits that succeed have reset the flag, and they are no more than the signals.
* `WakesRight` — a wait without a time-out wakes up to a signal, and one that fails wakes up to none.

The time of a time-out is left out: it may be over at any time.

Principal result: `signals_kept_iff` — signals are kept throughout a run if and only if all threads wake up right.
-/

set_option autoImplicit false

namespace MlnxLib.ClEvents

open Runs

/-- The statuses of `cl_event_wait_on`. -/
inductive ClStatus where
  | success
  | timeout
  | notDone
  | error
  deriving DecidableEq, Repr

/-- `cl_event_t`, between critical sections. -/
structure ClEvent where
  signaled : Bool
  manualReset : Bool
  deriving DecidableEq, Repr

def EVENT_NO_TIMEOUT : UInt32 := 0xFFFFFFFF

/-- `cl_event_init`. -/
def clEventInit (manualReset : Bool) : ClEvent := ⟨false, manualReset⟩

/-- `cl_event_signal`. -/
def clEventSignal (event : ClEvent) : ClEvent := { event with signaled := true }

/-- `if (!p_event->manual_reset) p_event->signaled = FALSE`. -/
def autoReset (event : ClEvent) : ClEvent :=
  if event.manualReset then event else { event with signaled := false }

/-- How a thread waits on the condition variable. -/
inductive Waiter where
  | untimed
  | timed
  deriving DecidableEq, Repr

/-- A wait returns, or gets to the condition variable. -/
inductive Entered where
  | returns (status : ClStatus) (event : ClEvent)
  | waits (waiter : Waiter)
  deriving DecidableEq, Repr

/-- `cl_event_wait_on` up to the condition variable; `clock` says whether `gettimeofday` succeeds. -/
def clEventWaitOn (event : ClEvent) (waitUs : UInt32) (clock : Bool) : Entered :=
  if event.signaled then .returns .success (autoReset event)
  else if waitUs = 0 then .returns .timeout event
  else if waitUs = EVENT_NO_TIMEOUT then .waits .untimed
  else if clock then .waits .timed
  else .returns .error (autoReset event)

/-- What the wait on the condition variable returns. -/
inductive WaitRet where
  | ok
  | timedOut
  | failed
  deriving DecidableEq, Repr

/-- The status after the condition variable; only with a time-out is the flag looked at. -/
def wakeStatus (event : ClEvent) : Waiter → WaitRet → ClStatus
  | .untimed, .ok => .success
  | .untimed, _ => .notDone
  | .timed, .ok => if event.signaled then .success else .notDone
  | .timed, .timedOut => .timeout
  | .timed, .failed => .notDone

/-! ## Threads -/

/-- A wait that has returned, and whether it has reset the flag. -/
structure Return where
  status : ClStatus
  cleared : Bool
  deriving DecidableEq, Repr

/-- The event and the threads that wait on it, with a record of the signals and of the waits. -/
structure Waits where
  event : ClEvent
  waiting : Nat → Option Waiter
  signals : Nat
  returned : List Return

inductive WaitEvent where
  | signal
  | waitOn (thread : Nat) (waitUs : UInt32) (clock : Bool)
  | wake (thread : Nat) (ret : WaitRet)
  deriving DecidableEq, Repr

/-- An event that has been initialized. -/
def startWaits (manualReset : Bool) : Waits := ⟨clEventInit manualReset, fun _ => none, 0, []⟩

/-- A wait returns. -/
def Waits.ret (s : Waits) (status : ClStatus) (event : ClEvent) : Waits :=
  { s with event := event, returned := s.returned ++ [⟨status, s.event.signaled && !event.signaled⟩] }

/-- What a thread does under the mutex. -/
def eventStep (s : Waits) : WaitEvent → Option Waits
  | .signal => some { s with event := clEventSignal s.event, signals := s.signals + 1 }
  | .waitOn thread waitUs clock =>
    if s.waiting thread ≠ none then none else
    match clEventWaitOn s.event waitUs clock with
    | .returns status event => some (s.ret status event)
    | .waits waiter => some { s with waiting := Function.update s.waiting thread (some waiter) }
  | .wake thread ret => (s.waiting thread).bind fun waiter =>
    if waiter = .untimed ∧ ret = .timedOut then none else
    some { s.ret (wakeStatus s.event waiter ret) (autoReset s.event) with
      waiting := Function.update s.waiting thread none }

/-- **Signals are kept**: a wait succeeds exactly if it resets the flag. -/
structure SignalsKept (s : Waits) : Prop where
  each : ∀ r ∈ s.returned, r.cleared = true ↔ r.status = .success
  count : s.returned.countP (·.status = .success) ≤ s.signals

/-- **A thread wakes up right**: to a signal if it waits without a time-out and succeeds, and to none if the wait
on the condition variable fails or its time is over. -/
def WakesRight (s : Waits) : WaitEvent → Prop
  | .signal => True
  | .waitOn _ _ _ => True
  | .wake thread ret => ∀ waiter, s.waiting thread = some waiter →
    if ret = .ok then waiter = .untimed → s.event.signaled = true else s.event.signaled = false

/-- What holds in every run of an auto-reset event. -/
structure Counted (s : Waits) : Prop where
  auto : s.event.manualReset = false
  count : s.returned.countP (·.cleared) + s.event.signaled.toNat ≤ s.signals

section

variable {s s' : Waits} {e : WaitEvent}

theorem autoReset_auto {event : ClEvent} (h : event.manualReset = false) :
    autoReset event = { event with signaled := false } := by
  unfold autoReset
  rw [h, if_neg Bool.false_ne_true]

theorem counted_start : Counted (startWaits false) := ⟨rfl, Nat.le_refl 0⟩

/-- A wait that leaves the flag as it is, or resets it. -/
theorem Counted.ret (h : Counted s) (status : ClStatus) {event : ClEvent}
    (hevent : event = s.event ∨ event = autoReset s.event) : Counted (s.ret status event) := by
  have hcount := h.count
  rcases hevent with rfl | rfl
  · refine ⟨h.auto, ?_⟩
    simp only [Waits.ret, List.countP_append, List.countP_singleton, Bool.and_not_self]
    simpa using hcount
  · rw [autoReset_auto h.auto]
    refine ⟨h.auto, ?_⟩
    simp only [Waits.ret, List.countP_append, List.countP_singleton, Bool.not_false, Bool.and_true]
    cases hs : s.event.signaled <;> simp [hs] at hcount ⊢ <;> omega

/-- **What a step can do**: signal, get to the condition variable, or return from a wait. -/
theorem eventStep_cases (hstep : eventStep s e = some s') :
    (e = .signal ∧ s' = { s with event := clEventSignal s.event, signals := s.signals + 1 }) ∨
    (∃ thread waitUs clock waiter, e = .waitOn thread waitUs clock ∧
      s' = { s with waiting := Function.update s.waiting thread (some waiter) }) ∨
    (∃ thread waitUs clock status event, e = .waitOn thread waitUs clock ∧
      clEventWaitOn s.event waitUs clock = .returns status event ∧ s' = s.ret status event) ∨
    ∃ thread ret waiter, e = .wake thread ret ∧ s.waiting thread = some waiter ∧
      ¬(waiter = .untimed ∧ ret = .timedOut) ∧
      s' = { s.ret (wakeStatus s.event waiter ret) (autoReset s.event) with
        waiting := Function.update s.waiting thread none } := by
  cases e with
  | signal =>
    rw [eventStep] at hstep
    cases hstep
    exact Or.inl ⟨rfl, rfl⟩
  | waitOn thread waitUs clock =>
    rw [eventStep] at hstep
    split at hstep
    · cases hstep
    split at hstep
    · rename_i status event hwait
      cases hstep
      exact Or.inr (Or.inr (Or.inl ⟨thread, waitUs, clock, status, event, rfl, hwait, rfl⟩))
    · rename_i waiter _
      cases hstep
      exact Or.inr (Or.inl ⟨thread, waitUs, clock, waiter, rfl, rfl⟩)
  | wake thread ret =>
    rw [eventStep] at hstep
    obtain ⟨waiter, hwaiter, hstep⟩ := Option.bind_eq_some_iff.mp hstep
    split at hstep
    · cases hstep
    rename_i hret
    cases hstep
    exact Or.inr (Or.inr (Or.inr ⟨thread, ret, waiter, rfl, hwaiter, hret, rfl⟩))

/-- A wait that returns at once has seen a signal, or resets nothing. -/
theorem clEventWaitOn_returns {event event' : ClEvent} {waitUs : UInt32} {clock : Bool} {status : ClStatus}
    (h : clEventWaitOn event waitUs clock = .returns status event') :
    (status = .success ∧ event.signaled = true ∧ event' = autoReset event) ∨
      (status ≠ .success ∧ event.signaled = false ∧ (event' = event ∨ event' = autoReset event)) := by
  unfold clEventWaitOn at h
  split at h
  · rename_i hsignaled
    cases h
    exact Or.inl ⟨rfl, hsignaled, rfl⟩
  rename_i hsignaled
  have hnot : event.signaled = false := by simpa using hsignaled
  refine Or.inr ?_
  split at h
  · cases h
    exact ⟨nofun, hnot, Or.inl rfl⟩
  split at h
  · cases h
  split at h
  · cases h
  · cases h
    exact ⟨nofun, hnot, Or.inr rfl⟩

theorem Counted.step (h : Counted s) (hstep : eventStep s e = some s') : Counted s' := by
  rcases eventStep_cases hstep with ⟨rfl, rfl⟩ | ⟨_, _, _, _, rfl, rfl⟩ |
    ⟨_, _, _, status, event, rfl, hwait, rfl⟩ | ⟨_, ret, waiter, rfl, -, -, rfl⟩
  · have hcount := h.count
    refine ⟨h.auto, ?_⟩
    have hle := Bool.toNat_le s.event.signaled
    simp only [clEventSignal, Bool.toNat_true]
    omega
  · exact ⟨h.auto, h.count⟩
  · rcases clEventWaitOn_returns hwait with ⟨-, -, rfl⟩ | ⟨-, -, hevent⟩
    · exact h.ret status (Or.inr rfl)
    · exact h.ret status hevent
  · have hret := h.ret (wakeStatus s.event waiter ret) (Or.inr rfl)
    exact ⟨hret.auto, hret.count⟩

/-- If all waits are right, those that succeed are those that have reset the flag. -/
theorem SignalsKept.of_each (h : Counted s) (heach : ∀ r ∈ s.returned, r.cleared = true ↔ r.status = .success) :
    SignalsKept s := by
  refine ⟨heach, ?_⟩
  have hsame : s.returned.countP (·.status = .success) = s.returned.countP (·.cleared) :=
    List.countP_congr fun r hr => by simpa using (heach r hr).symm
  have hcount := h.count
  omega

/-- A wait that returns is right, or not. -/
theorem signalsKept_ret_iff (h : Counted s) (hkept : SignalsKept s) {status : ClStatus} {event : ClEvent}
    (hevent : event = s.event ∨ event = autoReset s.event) {waiting : Nat → Option Waiter} :
    SignalsKept { s.ret status event with waiting := waiting } ↔
      ((s.event.signaled && !event.signaled) = true ↔ status = .success) := by
  have hret := h.ret status hevent
  constructor
  · intro h'
    exact h'.each ⟨status, _⟩ (List.mem_append_right _ (List.mem_singleton.mpr rfl))
  · intro hright
    refine .of_each ⟨hret.auto, hret.count⟩ fun r hr => ?_
    rcases List.mem_append.mp hr with hr | hr
    · exact hkept.each r hr
    · rw [List.mem_singleton.mp hr]
      exact hright

/-- **A step keeps the signals** if and only if it is not a thread that wakes up wrong. -/
theorem signalsKept_step_iff (h : Counted s) (hkept : SignalsKept s) (hstep : eventStep s e = some s') :
    SignalsKept s' ↔ WakesRight s e := by
  rcases eventStep_cases hstep with ⟨rfl, rfl⟩ | ⟨_, _, _, _, rfl, rfl⟩ |
    ⟨_, _, _, status, event, rfl, hwait, rfl⟩ | ⟨thread, ret, waiter, rfl, hwaiter, hret, rfl⟩
  · exact iff_of_true ⟨hkept.each, Nat.le_succ_of_le hkept.count⟩ trivial
  · exact iff_of_true ⟨hkept.each, hkept.count⟩ trivial
  · refine iff_of_true ?_ trivial
    rcases clEventWaitOn_returns hwait with ⟨rfl, hsignaled, rfl⟩ | ⟨hstatus, hsignaled, hevent⟩
    · refine (signalsKept_ret_iff h hkept (Or.inr rfl)).mpr ?_
      rw [autoReset_auto h.auto, hsignaled]
      exact iff_of_true rfl rfl
    · refine (signalsKept_ret_iff h hkept hevent).mpr ?_
      rw [hsignaled]
      exact iff_of_false Bool.false_ne_true hstatus
  · rw [signalsKept_ret_iff h hkept (Or.inr rfl), autoReset_auto h.auto]
    have hright : WakesRight s (.wake thread ret) ↔
        if ret = .ok then waiter = .untimed → s.event.signaled = true else s.event.signaled = false := by
      constructor
      · intro hw
        exact hw waiter hwaiter
      · intro hw waiter' hwaiter'
        cases hwaiter.symm.trans hwaiter'
        exact hw
    rw [hright]
    cases hs : s.event.signaled <;> cases waiter <;> cases ret <;> simp_all [wakeStatus]

/-- **Auto-reset events.**  In every run of signals and waits, in any order and by any threads, signals are kept in
every state if and only if every thread that wakes up does so right. -/
theorem signals_kept_iff (es : List WaitEvent) (s' : Waits)
    (hrun : run eventStep (startWaits false) es = some s') :
    Throughout eventStep SignalsKept (startWaits false) es ↔
      AllMeet eventStep WakesRight (startWaits false) es :=
  throughout_iff_allMeet (J := Counted) (P := SignalsKept) (fun h hstep => h.step hstep)
    (fun h hkept hstep => signalsKept_step_iff h hkept hstep) es counted_start
    ⟨by simp [startWaits], Nat.le_refl 0⟩ hrun

end

/-- A thread waits, is signaled and wakes up; another one waits, and its time-out ends it. -/
theorem signals_kept_iff_wakes :
    Throughout eventStep SignalsKept (startWaits false)
        [.waitOn 0 EVENT_NO_TIMEOUT true, .signal, .wake 0 .ok, .waitOn 1 5 true, .wake 1 .timedOut] ↔
      AllMeet eventStep WakesRight (startWaits false)
        [.waitOn 0 EVENT_NO_TIMEOUT true, .signal, .wake 0 .ok, .waitOn 1 5 true, .wake 1 .timedOut] :=
  signals_kept_iff [.waitOn 0 EVENT_NO_TIMEOUT true, .signal, .wake 0 .ok, .waitOn 1 5 true,
    .wake 1 .timedOut] _ rfl

/-- **A wait without a time-out** succeeds when its thread wakes up to nothing. -/
theorem spurious_success :
    ¬∀ (es : List WaitEvent) (s' : Waits), run eventStep (startWaits false) es = some s' → SignalsKept s' := by
  intro h
  have hkept := h [.waitOn 0 EVENT_NO_TIMEOUT true, .wake 0 .ok] _ rfl
  have hcount := hkept.count
  exact absurd hcount (by decide)

end MlnxLib.ClEvents
