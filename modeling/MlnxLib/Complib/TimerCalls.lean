import MlnxLib.Complib.TimerExpiry

/-!
# Stopping and trimming a timer

`cl_timer_stop` and `cl_timer_trim` give the mutex back before they are done: the first in its wait for the
callback, the second before its call of `cl_timer_start`.

* `StopBarrier` — when a stop by a thread returns, the timer is not in the queue and its callback is not running.
* `Watch` — the provider, with a record of the calls: which timers were started while their callbacks were running,
  and for which threads in `cl_timer_stop` the callback has returned.
* `Orderly` — no stop comes to a timer that was started while its callback was running, no wait of a stop ends
  before the callback returns, and no timer is run again before the threads that wait for it go on.
* `TrimPullsIn` — a trim does not make a timeout later, and does nothing if the timeout is earlier than its own.
* `StillLater` — what `cl_timer_trim` has tested still holds when it starts the timer.

Principal results: `stop_barrier_orderly` — in an orderly run every stop is a barrier, and a step that is not
orderly is no barrier itself, or leaves a thread whose stop is not; `trim_pulls_in_iff` — the steps of a run at which
a trim only pulls in; `stop_returns_early`, `trim_makes_later` — runs in which the two do not hold.
-/

set_option autoImplicit false

namespace MlnxLib.Timer

open Runs

section

variable {T A : Type} [DecidableEq T] [DecidableEq A] {s s' : TimerProv T A} {ts : List T} {t : T}
  {e : Event T A}

/-! ## Stopping -/

/-- The timer is in the queue. -/
def InQueue (s : TimerProv T A) (t : T) : Prop :=
  ∃ ts : List T, IsQlist s.queue .queueEnd (ts.map .listItem) ∧ t ∈ ts

/-- A thread's call of `cl_timer_stop` returns in this step. -/
def StopReturns (s : TimerProv T A) (e : Event T A) (t : T) : Prop :=
  ∃ a : A, (e = .stop (some a) t ∧ (s.timer t).timerState ≠ .running) ∨
    (e = .stopped (some a) ∧ s.caller (some a) = .stop t)

/-- **A stop is a barrier.** -/
def StopBarrier (s : TimerProv T A) (e : Event T A) : Prop :=
  ∀ t, StopReturns s e t → ∀ s' ∈ step s e, ¬InQueue s' t ∧ s'.pc ≠ .callback t

/-- The provider, with a record of the calls. -/
structure Watch (T A : Type) where
  prov : TimerProv T A
  /-- The timers that were started while their callbacks were running, which they still are. -/
  restarted : T → Bool
  /-- The threads in `cl_timer_stop` for which the callback that they wait for has returned. -/
  returned : A → Bool

/-- Before any call. -/
def watchInit (clock : Nat) : Watch T A := ⟨provInit clock, fun _ => false, fun _ => false⟩

/-- A start of a timer is recorded while its callback is running. -/
def restartedAfter (s : TimerProv T A) (e : Event T A) (restarted : T → Bool) (t : T) : Bool :=
  e ≠ .callbackDone && (restarted t || (starts s e = some t && s.pc = .callback t))

/-- The return of a callback is recorded for the threads that wait for it. -/
def returnedAfter (s : TimerProv T A) (e : Event T A) (returned : A → Bool) (a : A) : Bool :=
  match e with
  | .stop (some b) _ => a ≠ b && returned a
  | .callbackDone =>
    match s.caller (some a) with
    | .stop t => s.pc = .callback t || returned a
    | _ => returned a
  | _ => returned a

/-- A step, with what is recorded of it. -/
def watchStep (w : Watch T A) (e : Event T A) : Option (Watch T A) :=
  (step w.prov e).map fun s =>
    ⟨s, restartedAfter w.prov e w.restarted, returnedAfter w.prov e w.returned⟩

/-- The provider invokes the callback of a timer in this step. -/
def Invokes (s : TimerProv T A) (e : Event T A) (t : T) : Prop :=
  e = .resume ∧ s.pc = .timedOut t ∧ (s.timer t).timerState = .queued

/-- **An orderly step.** -/
structure Orderly (w : Watch T A) (e : Event T A) : Prop where
  /-- No stop while a callback is running that has started its timer. -/
  stop : ∀ (a : A) (t : T), e = .stop (some a) t → w.restarted t = false
  /-- No wait ends before the callback returns. -/
  stopped : ∀ a : A, e = .stopped (some a) → w.returned a = true
  /-- No timer is run again before the threads that waited for its callback go on. -/
  invokes : ∀ (a : A) (t : T), Invokes w.prov e t → w.prov.caller (some a) ≠ .stop t

omit [DecidableEq T] [DecidableEq A] in
theorem QueueInv.inQueue_iff (h : QueueInv s ts) : InQueue s t ↔ (s.timer t).timerState = .queued := by
  constructor
  · rintro ⟨ts', hlist, hmem⟩
    have hmap := hlist.ring.unique h.queue.list.ring
    have hsame : ts' = ts := List.map_injective_iff.mpr (fun _ _ he => QueueItem.listItem.inj he) hmap
    exact (h.mem t).mp (hsame ▸ hmem)
  · intro ht
    exact ⟨ts, h.queue.list, (h.mem t).mpr ht⟩

omit [DecidableEq A] in
theorem stopQueued_timerState (s : TimerProv T A) (t : T) : ((stopQueued s t).timer t).timerState = .idle := by
  simp [stopQueued, condSignal, removeItem, setTimerState]

omit [DecidableEq A] in
theorem stopQueued_pc (s : TimerProv T A) (t : T) : (stopQueued s t).pc = s.pc.signal := rfl

/-- A stop that returns leaves the timer out of the queue, and the callback as it is. -/
theorem stopReturns_step (hreturns : StopReturns s e t) (hstep : step s e = some s') :
    (s'.timer t).timerState ≠ .queued ∧ (s'.pc = .callback t ↔ s.pc = .callback t) := by
  obtain ⟨a, ⟨rfl, hnot⟩ | ⟨rfl, hcaller⟩⟩ := hreturns
  · rw [step] at hstep
    split at hstep
    · cases hstep
      unfold clTimerStop
      cases ht : (s.timer t).timerState with
      | running => exact absurd ht hnot
      | queued =>
        refine ⟨?_, ?_⟩
        · simp [stopQueued_timerState]
        · simp [stopQueued_pc]
      | idle => exact ⟨by simp [ht], Iff.rfl⟩
    · cases hstep
  · simp only [step, hcaller] at hstep
    cases hstep
    unfold clTimerStopped
    by_cases ht : (s.timer t).timerState = .queued
    · rw [if_pos ht]
      refine ⟨?_, ?_⟩
      · simp [setCaller, stopQueued_timerState]
      · simp [setCaller, stopQueued_pc]
    · rw [if_neg ht]
      exact ⟨ht, Iff.rfl⟩

/-! ### Steps and callbacks -/

/-- What a step does to the callbacks, to the threads that wait in `cl_timer_stop`, and to the state of the timer
whose callback is running. -/
structure Turn (s : TimerProv T A) (e : Event T A) (s' : TimerProv T A) : Prop where
  callback : ∀ t, s'.pc = .callback t ↔ (s.pc = .callback t ∧ e ≠ .callbackDone) ∨ Invokes s e t
  waits : ∀ (a : A) t, s'.caller (some a) = .stop t ↔
    (e = .stop (some a) t ∧ (s.timer t).timerState = .running) ∨
      (s.caller (some a) = .stop t ∧ e ≠ .stopped (some a))
  state : ∀ t, s.pc = .callback t → e ≠ .callbackDone →
    ((s'.timer t).timerState = .running ↔ (s.timer t).timerState = .running ∧ starts s e ≠ some t)
  invoked : ∀ t, Invokes s e t → (s'.timer t).timerState = .running

omit [DecidableEq T] [DecidableEq A] in
/-- A step that is none of the stops and not the provider's. -/
theorem Turn.of_start {u : Option T} (hevent : (∀ a t, e ≠ .stop a t) ∧ (∀ a, e ≠ .stopped a) ∧ e ≠ .resume ∧
      e ≠ .callbackDone) (hu : starts s e = u) (hpc : ∀ t, s'.pc = .callback t ↔ s.pc = .callback t)
    (hcaller : ∀ (a : A) t, s'.caller (some a) = .stop t ↔ s.caller (some a) = .stop t)
    (hstate : ∀ t, (s'.timer t).timerState = .running ↔ (s.timer t).timerState = .running ∧ u ≠ some t) :
    Turn s e s' := by
  obtain ⟨hstop, hstopped, hresume, hdone⟩ := hevent
  refine ⟨fun t => ?_, fun a t => ?_, fun t _ _ => ?_, fun t hinvokes => absurd hinvokes.1 hresume⟩
  · rw [hpc]
    simp [hdone, Invokes, hresume]
  · rw [hcaller]
    simp [hstop, hstopped]
  · rw [hstate, hu]

omit [DecidableEq A] in
/-- A timer that is stopped while it is queued is not running, nor was it. -/
theorem stopQueued_running_iff (ht : (s.timer t).timerState = .queued) (u : T) :
    ((stopQueued s t).timer u).timerState = .running ↔ (s.timer u).timerState = .running := by
  change ((setTimerState s t .idle).timer u).timerState = .running ↔ _
  rw [setTimerState_timerState]
  by_cases hu : u = t
  · simp [hu, ht]
  · simp [hu]

theorem turn_stop (a : Option A) (t : T) (hmay : MayCall s a) : Turn s (.stop a t) (clTimerStop s a t) := by
  have hidle : ∀ (b : A), some b = a → s.caller (some b) = .idle := by
    rintro b rfl
    exact hmay.1
  have hresume : Event.stop a t ≠ .resume := by rintro ⟨⟩
  unfold clTimerStop
  cases ht : (s.timer t).timerState with
  | running =>
    refine ⟨fun u => by simp [setCaller, Invokes], fun b u => ?_, fun u _ _ => by simp [setCaller, starts],
      fun u hinvokes => absurd hinvokes.1 hresume⟩
    by_cases hb : some b = a
    · subst hb
      simp only [setCaller, Function.update_self, hidle b rfl]
      constructor
      · rintro ⟨⟩
        exact Or.inl ⟨rfl, ht⟩
      · rintro (⟨⟨⟩, -⟩ | ⟨⟨⟩, -⟩)
        rfl
    · have hne : Event.stop a t ≠ .stop (some b) u := by
        rintro ⟨⟩
        exact hb rfl
      simp [setCaller, hb, hne]
  | queued =>
    refine ⟨fun u => by simp [stopQueued_pc, Invokes], fun b u => ?_, fun u _ _ => ?_,
      fun u hinvokes => absurd hinvokes.1 hresume⟩
    · have hcaller : (stopQueued s t).caller = s.caller := rfl
      have hnot : ¬(Event.stop a t = .stop (some b) u ∧ (s.timer u).timerState = .running) := by
        rintro ⟨⟨⟩, hrun⟩
        rw [ht] at hrun
        cases hrun
      rw [hcaller, or_iff_right hnot]
      exact (and_iff_left (by rintro ⟨⟩)).symm
    · rw [stopQueued_running_iff ht]
      simp [starts]
  | idle =>
    refine ⟨fun u => by simp [Invokes], fun b u => ?_, fun u _ _ => by simp [starts],
      fun u hinvokes => absurd hinvokes.1 hresume⟩
    have hnot : ¬(Event.stop a t = .stop (some b) u ∧ (s.timer u).timerState = .running) := by
      rintro ⟨⟨⟩, hrun⟩
      rw [ht] at hrun
      cases hrun
    rw [or_iff_right hnot]
    exact (and_iff_left (by rintro ⟨⟩)).symm

theorem turn_stopped {a : Option A} (ha : s.caller a = .stop t) : Turn s (.stopped a) (clTimerStopped s a t) := by
  obtain ⟨s₁, hs₁, hpc, hcaller, hstate⟩ : ∃ s₁ : TimerProv T A,
      s₁ = (if (s.timer t).timerState = .queued then stopQueued s t else s) ∧
        (∀ u, s₁.pc = .callback u ↔ s.pc = .callback u) ∧ s₁.caller = s.caller ∧
        ∀ u, (s₁.timer u).timerState = .running ↔ (s.timer u).timerState = .running := by
    by_cases ht : (s.timer t).timerState = .queued
    · exact ⟨_, (if_pos ht).symm, fun _ => signal_eq_callback, rfl, stopQueued_running_iff ht⟩
    · exact ⟨_, (if_neg ht).symm, fun _ => Iff.rfl, rfl, fun _ => Iff.rfl⟩
  have hresume : Event.stopped a ≠ (.resume : Event T A) := by rintro ⟨⟩
  unfold clTimerStopped
  rw [← hs₁]
  refine ⟨fun u => by simp [setCaller, hpc, Invokes], fun b u => ?_, fun u _ _ => by simp [setCaller, hstate, starts],
    fun u hinvokes => absurd hinvokes.1 hresume⟩
  by_cases hb : some b = a
  · subst hb
    simp [setCaller]
  · have hne : Event.stopped a ≠ (.stopped (some b) : Event T A) := by
      rintro ⟨⟩
      exact hb rfl
    simp [setCaller, hb, hcaller, hne]

omit [DecidableEq T] [DecidableEq A] in
/-- The loop of the provider, after its wait or after a callback. -/
theorem Turn.of_loop {pc : ProvPc T} (hloop : ∀ t, pc ≠ .callback t) (hevent : e = .resume ∨ e = .callbackDone)
    (hpc : ∀ t, s.pc = .callback t → e = .callbackDone) (hnot : ∀ t, ¬Invokes s e t) (hs' : s'.pc = pc)
    (hcaller : s'.caller = s.caller) : Turn s e s' := by
  refine ⟨fun t => ?_, fun a t => ?_, fun t ht he => absurd (hpc t ht) he, fun t hinvokes => absurd hinvokes (hnot t)⟩
  · rw [hs']
    refine iff_of_false (hloop t) ?_
    rintro (⟨ht, he⟩ | hinvokes)
    · exact he (hpc t ht)
    · exact hnot t hinvokes
  · rw [hcaller]
    rcases hevent with rfl | rfl
    · simp
    · simp

/-- The provider goes on behind its wait: it invokes the callback of the timer that it has waited for, or looks for
the next one. -/
theorem QueueInv.turn_resume (h : QueueInv s ts) (henabled : Enabled s (.resume : Event T A))
    (hstep : Timer.step s .resume = some s') : Turn s .resume s' := by
  have hidle : ∀ u, s.pc ≠ .callback u := by
    obtain hpc | ⟨t, hpc⟩ := henabled <;> simp [hpc]
  obtain ⟨pc, hloop, hpc', -⟩ := h.loop fun u hu => hidle u (h.running u hu)
  have hlooped : provLoop s = some s' → (∀ u, ¬Invokes s .resume u) → Turn s .resume s' := by
    intro hs' hnot
    cases hloop.symm.trans hs'
    exact .of_loop (fun u => not_callback_of_loop hpc') (Or.inl rfl) (fun u hu => absurd hu (hidle u)) hnot rfl rfl
  obtain hpc | ⟨t, hpc⟩ := henabled
  · simp only [Timer.step, hpc] at hstep
    exact hlooped hstep (by simp [Invokes, hpc])
  · simp only [Timer.step, hpc, provExpired] at hstep
    split at hstep
    · rename_i hqueued
      cases hstep
      refine ⟨fun u => ?_, fun a u => by simp [removeItem, setTimerState], fun u hu => absurd hu (hidle u),
        fun u hinvokes => ?_⟩
      · simp only [ProvPc.callback.injEq, Invokes, hpc, ProvPc.timedOut.injEq, true_and, reduceCtorEq, false_and,
          false_or]
        exact ⟨fun hu => ⟨hu, hu ▸ hqueued⟩, fun hu => hu.1⟩
      · obtain ⟨-, hu, -⟩ := hinvokes
        cases hpc.symm.trans hu
        simp [removeItem, setTimerState]
    · rename_i hqueued
      refine hlooped hstep ?_
      rintro u ⟨-, hu, hstate⟩
      cases hpc.symm.trans hu
      exact hqueued hstate

/-- **Every step has such a turn.** -/
theorem QueueInv.turn (h : QueueInv s ts) (hstep : Timer.step s e = some s') : Turn s e s' := by
  have henabled := enabled_of_step hstep
  cases e with
  | tick d =>
    cases hstep
    exact .of_start (by simp) rfl (fun _ => Iff.rfl) (fun _ _ => Iff.rfl) (by simp [starts])
  | start a t timeMs =>
    obtain ⟨s₁, -, hs₁, -, hstarted⟩ := h.start t timeMs
    cases ((if_pos henabled).trans hs₁).symm.trans hstep
    refine .of_start (by simp) rfl (fun u => ?_) (fun b u => ?_) (fun u => ?_)
    · rw [hstarted.pc, signal_eq_callback]
    · rw [hstarted.caller]
    · exact hstarted.running_iff
  | trim a t timeMs =>
    cases (if_pos henabled).symm.trans hstep
    unfold clTimerTrim
    dsimp only
    split
    · exact .of_start (by simp) rfl (fun _ => Iff.rfl) (fun _ _ => Iff.rfl) (by simp [starts])
    · refine .of_start (by simp) rfl (fun _ => Iff.rfl) (fun b u => ?_) (by simp [setCaller, starts])
      by_cases hb : some b = a
      · subst hb
        simp [setCaller, henabled.1]
      · simp [setCaller, hb]
  | trimStart a =>
    obtain ⟨t, timeMs, ha⟩ := henabled
    simp only [Timer.step, ha] at hstep
    have hidle : QueueInv (setCaller s a .idle) ts := h.congr rfl rfl fun _ => id
    obtain ⟨s₁, -, hs₁, -, hstarted⟩ := hidle.start t timeMs
    cases hs₁.symm.trans hstep
    refine .of_start (u := some t) (by simp) (by simp only [starts, ha]) (fun u => ?_) (fun b u => ?_) (fun u => ?_)
    · rw [hstarted.pc, signal_eq_callback]
      rfl
    · rw [hstarted.caller]
      by_cases hb : some b = a
      · subst hb
        simp [setCaller, ha]
      · simp [setCaller, hb]
    · exact hstarted.running_iff
  | stop a t =>
    cases (if_pos henabled).symm.trans hstep
    exact turn_stop a t henabled
  | stopped a =>
    obtain ⟨t, ha⟩ := henabled
    simp only [Timer.step, ha, Option.some.injEq] at hstep
    subst hstep
    exact turn_stopped ha
  | destroy =>
    cases hstep
    exact .of_start (by simp) rfl (fun _ => signal_eq_callback) (fun _ _ => Iff.rfl) (by simp [condSignal, starts])
  | wakeUp =>
    obtain hpc | ⟨t, abstime, hpc⟩ := henabled
    · simp only [Timer.step, hpc, Option.some.injEq] at hstep
      subst hstep
      exact .of_start (by simp) rfl (fun _ => by simp [hpc]) (fun _ _ => Iff.rfl) (by simp [starts])
    · simp only [Timer.step, hpc, Option.some.injEq] at hstep
      subst hstep
      exact .of_start (by simp) rfl (fun _ => by simp [hpc]) (fun _ _ => Iff.rfl) (by simp [starts])
  | timeOut =>
    obtain ⟨t, abstime, hpc, hover⟩ := henabled
    simp only [Timer.step, hpc, if_pos hover, Option.some.injEq] at hstep
    subst hstep
    exact .of_start (by simp) rfl (fun _ => by simp [hpc]) (fun _ _ => Iff.rfl) (by simp [starts])
  | resume => exact h.turn_resume henabled hstep
  | callbackDone =>
    obtain ⟨⟨t, hpc⟩, hidle⟩ := henabled
    simp only [Timer.step, hpc, if_pos hidle, provCallbackDone] at hstep
    obtain ⟨hinv, hrunning⟩ := h.idle hpc
    obtain ⟨pc, hloop, hpc', -⟩ := hinv.loop hrunning
    cases hloop.symm.trans hstep
    refine .of_loop (fun u => not_callback_of_loop hpc') (Or.inr rfl) (fun _ _ => rfl) (by simp [Invokes]) rfl ?_
    dsimp only
    split <;> rfl

/-! ### The record -/

/-- **What the record says**: a timer that was started while its callback was running is in another state, one that
was not is running, and a thread whose callback has not returned waits for one that is running. -/
structure WatchInv (w : Watch T A) : Prop where
  queue : ∃ ts, QueueInv w.prov ts
  restarted : ∀ t, w.restarted t = true → w.prov.pc = .callback t ∧ (w.prov.timer t).timerState ≠ .running
  running : ∀ t, w.prov.pc = .callback t → w.restarted t = false → (w.prov.timer t).timerState = .running
  waiting : ∀ (a : A) t, w.prov.caller (some a) = .stop t → w.returned a = false → w.prov.pc = .callback t

/-- The callbacks that have returned are not running again. -/
def NotAgain (w : Watch T A) : Prop :=
  ∀ (a : A) t, w.prov.caller (some a) = .stop t → w.returned a = true → w.prov.pc ≠ .callback t

omit [DecidableEq T] [DecidableEq A] in
theorem watchInv_init [DecidableEq T] (clock : Nat) : WatchInv (watchInit clock : Watch T A) ∧
    NotAgain (watchInit clock : Watch T A) :=
  ⟨⟨⟨[], queueInv_init clock⟩, nofun, nofun, nofun⟩, nofun⟩

section Step

variable {w w' : Watch T A}

/-- What is recorded for a thread that waits. -/
theorem returnedAfter_of_waits {returned : A → Bool} {a : A} (hcaller : s.caller (some a) = .stop t)
    (henabled : Enabled s e) :
    returnedAfter s e returned a = true ↔ returned a = true ∨ (e = .callbackDone ∧ s.pc = .callback t) := by
  cases e with
  | stop b u =>
    cases b with
    | none => simp [returnedAfter]
    | some b =>
      have hne : a ≠ b := by
        rintro rfl
        have hidle := henabled.1
        rw [hcaller] at hidle
        cases hidle
      simp [returnedAfter, hne]
  | callbackDone => simp [returnedAfter, hcaller, or_comm]
  | _ => simp [returnedAfter]

theorem WatchInv.step (h : WatchInv w) (hstep : watchStep w e = some w') : WatchInv w' := by
  obtain ⟨ts, hq⟩ := h.queue
  obtain ⟨s', hs', rfl⟩ := Option.map_eq_some_iff.mp hstep
  have hturn := hq.turn hs'
  refine ⟨hq.step hs', fun t ht => ?_, fun t hpc ht => ?_, fun a t hcaller ht => ?_⟩
  · simp only [restartedAfter, ne_eq, decide_not, Bool.and_eq_true, Bool.not_eq_true', decide_eq_false_iff_not,
      Bool.or_eq_true, decide_eq_true_eq] at ht
    obtain ⟨he, ht⟩ := ht
    have hpc : w.prov.pc = .callback t := ht.elim (fun ht => (h.restarted t ht).1) (·.2)
    refine ⟨(hturn.callback t).mpr (Or.inl ⟨hpc, he⟩), fun hrun => ?_⟩
    obtain ⟨hrunning, hstarts⟩ := (hturn.state t hpc he).mp hrun
    rcases ht with ht | ⟨ht, -⟩
    · exact (h.restarted t ht).2 hrunning
    · exact hstarts ht
  · rcases (hturn.callback t).mp hpc with ⟨hpc, he⟩ | hinvokes
    · simp only [restartedAfter, ne_eq, he, not_false_eq_true, decide_true, Bool.true_and, Bool.or_eq_false_iff,
        hpc, Bool.and_true, decide_eq_false_iff_not] at ht
      exact (hturn.state t hpc he).mpr ⟨h.running t hpc ht.1, ht.2⟩
    · exact hturn.invoked t hinvokes
  · rcases (hturn.waits a t).mp hcaller with ⟨rfl, hrunning⟩ | ⟨hcaller, -⟩
    · exact (hturn.callback t).mpr (Or.inl ⟨hq.running t hrunning, nofun⟩)
    · have hnot := mt (returnedAfter_of_waits hcaller (enabled_of_step hs')).mpr (Bool.not_eq_true _ ▸ ht)
      rw [not_or, not_and, Bool.not_eq_true] at hnot
      have hpc := h.waiting a t hcaller hnot.1
      exact (hturn.callback t).mpr (Or.inl ⟨hpc, fun he => hnot.2 he hpc⟩)

/-- **An orderly step** does not run a callback again for which a thread has waited. -/
theorem NotAgain.step (hn : NotAgain w) (h : WatchInv w) (hmeet : Orderly w e) (hstep : watchStep w e = some w') :
    NotAgain w' := by
  obtain ⟨ts, hq⟩ := h.queue
  obtain ⟨s', hs', rfl⟩ := Option.map_eq_some_iff.mp hstep
  have hturn := hq.turn hs'
  intro a t hcaller ht hpc
  rcases (hturn.waits a t).mp hcaller with ⟨rfl, -⟩ | ⟨hcaller, -⟩
  · simp [returnedAfter] at ht
  · rcases (hturn.callback t).mp hpc with ⟨hpc, he⟩ | hinvokes
    · rcases (returnedAfter_of_waits hcaller (enabled_of_step hs')).mp ht with ht | ⟨hdone, -⟩
      · exact hn a t hcaller ht hpc
      · exact he hdone
    · exact hmeet.invokes a t hinvokes hcaller

/-- **A stop that returns in an orderly step** is a barrier. -/
theorem stopBarrier_of_orderly (h : WatchInv w) (hn : NotAgain w) (hmeet : Orderly w e) : StopBarrier w.prov e := by
  obtain ⟨ts, hq⟩ := h.queue
  intro t hreturns s' hs'
  obtain ⟨hqueue, hpc⟩ := stopReturns_step hreturns hs'
  obtain ⟨ts', hq'⟩ := hq.step hs'
  refine ⟨fun hin => hqueue (hq'.inQueue_iff.mp hin), fun hc => ?_⟩
  rw [hpc] at hc
  obtain ⟨a, ⟨rfl, hnot⟩ | ⟨rfl, hcaller⟩⟩ := hreturns
  · exact hnot (h.running t hc (hmeet.stop a t rfl))
  · exact hn a t hcaller (hmeet.stopped a rfl) hc

/-- A stop that returns while the callback is running. -/
theorem not_stopBarrier (hreturns : StopReturns s e t) (hstep : step s e = some s') (hpc : s.pc = .callback t) :
    ¬StopBarrier s e :=
  fun hbarrier => (hbarrier t hreturns s' hstep).2 ((stopReturns_step hreturns hstep).2.mpr hpc)

/-- **A step that is not orderly** is no barrier, or leaves a thread whose stop is none. -/
theorem not_stopBarrier_of_not_orderly (h : WatchInv w) (hstep : watchStep w e = some w') (hnot : ¬Orderly w e) :
    ¬StopBarrier w.prov e ∨ ∃ a, ¬StopBarrier w'.prov (.stopped (some a)) := by
  obtain ⟨ts, hq⟩ := h.queue
  obtain ⟨s', hs', rfl⟩ := Option.map_eq_some_iff.mp hstep
  have hturn := hq.turn hs'
  by_contra hall
  rw [not_or, not_not, not_exists] at hall
  refine hnot ⟨?_, ?_, ?_⟩
  · rintro a t rfl
    by_contra ht
    obtain ⟨hpc, hstate⟩ := h.restarted t ((Bool.not_eq_false _).mp ht)
    exact not_stopBarrier ⟨a, Or.inl ⟨rfl, hstate⟩⟩ hs' hpc hall.1
  · rintro a rfl
    by_contra ht
    obtain ⟨t, hcaller⟩ := enabled_of_step hs'
    have hpc := h.waiting a t hcaller ((Bool.not_eq_true _).mp ht)
    exact not_stopBarrier ⟨a, Or.inr ⟨rfl, hcaller⟩⟩ hs' hpc hall.1
  · intro a t hinvokes hcaller
    have hpc := (hturn.callback t).mpr (Or.inr hinvokes)
    have hresume : e ≠ .stopped (some a) := by
      rw [hinvokes.1]
      nofun
    have hwaits := (hturn.waits a t).mpr (Or.inr ⟨hcaller, hresume⟩)
    have hreturn : step s' (.stopped (some a)) = some (clTimerStopped s' (some a) t) := by
      simp only [step, hwaits]
    exact hall.2 a (not_stopBarrier ⟨a, Or.inr ⟨rfl, hwaits⟩⟩ hreturn hpc)

end Step

/-- **`cl_timer_stop` as a barrier.**  In every run whose steps are all orderly every stop by a thread is a barrier
when it returns; and in every state of every run a step that is not orderly breaks this, or the next return of a
thread does. -/
theorem stop_barrier_orderly (clock : Nat) (es : List (Event T A)) :
    (AllMeet watchStep Orderly (watchInit clock : Watch T A) es →
      AllMeet step StopBarrier (provInit clock : TimerProv T A) es) ∧
    ∀ w : Watch T A, run watchStep (watchInit clock) es = some w →
      ∀ e w', watchStep w e = some w' → ¬Orderly w e →
        ¬StopBarrier w.prov e ∨ ∃ a, ¬StopBarrier w'.prov (.stopped (some a)) := by
  obtain ⟨hinit, hagain⟩ := watchInv_init (T := T) (A := A) clock
  refine ⟨fun hmeet => ?_, fun w hrun e w' hstep hnot => ?_⟩
  · have hsees : ∀ (w : Watch T A) e, step w.prov e = (watchStep w e).map Watch.prov := by
      intro w e
      rw [watchStep, Option.map_map]
      exact Option.map_id'.symm
    refine (allMeet_map hsees (watchInit clock) es).mpr ?_
    refine AllMeet.of_invariant (I := fun w => WatchInv w ∧ NotAgain w) ?_ ?_ es ⟨hinit, hagain⟩ hmeet
    · exact fun ⟨h, hn⟩ hmeet hstep => ⟨h.step hstep, hn.step h hmeet hstep⟩
    · exact fun w e ⟨h, hn⟩ hmeet => stopBarrier_of_orderly h hn hmeet
  · exact not_stopBarrier_of_not_orderly (invariant_of_step (fun h hs => h.step hs) es hinit hrun) hstep hnot

/-! ## Trimming -/

/-- **A trim only pulls in**: it does nothing if the timeout is earlier than its own, and the start of a timer
that is queued does not make the timeout later. -/
def TrimPullsIn (s : TimerProv T A) : Event T A → Prop
  | .trim a t timeMs => (s.timer t).timerState = .queued →
    clTimerIsEarlier (s.timer t).timeout (clTimerCalculate s.clock timeMs) = true →
    ∀ s' ∈ step s (.trim a t timeMs), s' = s
  | .trimStart a => ∀ t timeMs, s.caller a = .trim t timeMs → (s.timer t).timerState = .queued →
    ∀ s' ∈ step s (.trimStart a), clTimerIsEarlier (s.timer t).timeout (s'.timer t).timeout = false
  | _ => True

/-- **The test of `cl_timer_trim` still fails** when `cl_timer_start` has the mutex: the timer is not queued any
more, or its timeout is not earlier than the interval from now on. -/
def StillLater (s : TimerProv T A) : Event T A → Prop
  | .trimStart a => ∀ t timeMs, s.caller a = .trim t timeMs → (s.timer t).timerState = .queued →
    clTimerIsEarlier (s.timer t).timeout (clTimerCalculate s.clock timeMs) = false
  | _ => True

/-- **One step.** -/
theorem trimPullsIn_iff (h : QueueInv s ts) (hstep : step s e = some s') : TrimPullsIn s e ↔ StillLater s e := by
  cases e with
  | trim a t timeMs =>
    refine iff_of_true (fun hqueued hearlier s₁ hs₁ => ?_) trivial
    rw [step] at hs₁
    split at hs₁
    · have hsame : clTimerTrim s a t timeMs = s := by
        unfold clTimerTrim
        simp [hqueued, hearlier]
      rw [hsame] at hs₁
      exact (Option.some.inj hs₁).symm
    · cases hs₁
  | trimStart a =>
    have hnew : ∀ t timeMs, s.caller a = .trim t timeMs →
        (s'.timer t).timeout = clTimerCalculate s.clock timeMs := by
      intro t timeMs hcaller
      simp only [step, hcaller] at hstep
      have hidle : QueueInv (setCaller s a .idle) ts := h.congr rfl rfl fun _ => id
      obtain ⟨s₁, ts', hs₁, -, hstarted⟩ := hidle.start t timeMs
      cases hs₁.symm.trans hstep
      rw [hstarted.timer, Function.update_self]
      rfl
    constructor
    · intro hall t timeMs hcaller hqueued
      rw [← hnew t timeMs hcaller]
      exact hall t timeMs hcaller hqueued s' hstep
    · intro hlater t timeMs hcaller hqueued s₁ hs₁
      cases hstep.symm.trans hs₁
      rw [hnew t timeMs hcaller]
      exact hlater t timeMs hcaller hqueued
  | _ => exact Iff.rfl

/-- **`cl_timer_trim` only pulls in.**  In every run, with any clock and any other calls, trims only pull in if and
only if, whenever a trim starts its timer, what it has tested still holds. -/
theorem trim_pulls_in_iff (clock : Nat) (es : List (Event T A)) (s' : TimerProv T A)
    (hrun : run step (provInit clock) es = some s') :
    AllMeet step TrimPullsIn (provInit clock : TimerProv T A) es ↔
      AllMeet step StillLater (provInit clock : TimerProv T A) es :=
  allMeet_congr (J := fun s => ∃ ts, QueueInv s ts) (fun ⟨_, h⟩ hstep => h.step hstep)
    (fun ⟨_, h⟩ hstep => trimPullsIn_iff h hstep) es ⟨[], queueInv_init clock⟩ hrun

end

/-! ## Samples -/

instance (s : TimerProv Unit Unit) (e : Event Unit Unit) (t : Unit) : Decidable (Invokes s e t) :=
  inferInstanceAs (Decidable (_ ∧ _ ∧ _))

/-- A thread stops a timer while its callback is running; the callback starts the timer again and returns, and then
the thread has the mutex. -/
def stoppedCallback : List (Event Unit Unit) :=
  [.start (some ()) () 0, .resume, .timeOut, .resume, .stop (some ()) (), .start none () 0, .callbackDone,
    .stopped (some ())]

theorem orderly_iff (w : Watch Unit Unit) (e : Event Unit Unit) : Orderly w e ↔
    (e = .stop (some ()) () → w.restarted () = false) ∧ (e = .stopped (some ()) → w.returned () = true) ∧
      (Invokes w.prov e () → w.prov.caller (some ()) ≠ .stop ()) :=
  ⟨fun h => ⟨h.stop () (), h.stopped (), h.invokes () ()⟩, fun h => ⟨fun _ _ => h.1, fun _ => h.2.1, fun _ _ => h.2.2⟩⟩

instance (w : Watch Unit Unit) (e : Event Unit Unit) : Decidable (Orderly w e) :=
  decidable_of_iff' _ (orderly_iff w e)

/-- A stop that waits for a callback, which starts its timer again. -/
theorem stop_barrier_orderly_waits :
    (run step (provInit 0) stoppedCallback).map (fun s => ((s.timer ()).timerState, s.caller (some ()))) =
      some (.idle, .idle) ∧
    AllMeet step StopBarrier (provInit 0) stoppedCallback :=
  ⟨by decide +kernel, (stop_barrier_orderly 0 stoppedCallback).1 (by decide +kernel)⟩

theorem trim_pulls_in_iff_sample :
    AllMeet step TrimPullsIn (provInit 0 : TimerProv Unit Unit)
        [.start (some ()) () 10, .trim (some ()) () 5, .trimStart (some ())] ↔
      AllMeet step StillLater (provInit 0 : TimerProv Unit Unit)
        [.start (some ()) () 10, .trim (some ()) () 5, .trimStart (some ())] :=
  trim_pulls_in_iff 0 [.start (some ()) () 10, .trim (some ()) () 5, .trimStart (some ())] _ rfl

/-- **A timer that is restarted from its callback** is stopped while the callback is running. -/
theorem stop_returns_early :
    ¬∀ (clock : Nat) (before es : List (Event Unit Unit)) (s s' : TimerProv Unit Unit),
      run step (provInit clock) before = some s → run step s es = some s' →
      (∀ a t timeMs, .start (some a) t timeMs ∉ es ∧ .trim (some a) t timeMs ∉ es ∧ .trimStart (some a) ∉ es) →
      AllMeet step StopBarrier s es := by
  intro h
  have hall := h 0 [.start (some ()) () 0, .resume, .timeOut, .resume] [.start none () 0, .stop (some ()) ()] _ _
    rfl rfl (by simp)
  have hbarrier := hall.2 _ rfl
  have hright := hbarrier.1 () ⟨(), Or.inl ⟨rfl, by decide +kernel⟩⟩ _ rfl
  exact hright.2 rfl

/-- **A trim that is delayed** makes the timeout later. -/
theorem trim_makes_later :
    ¬∀ (clock : Nat) (es : List (Event Unit Unit)) (s' : TimerProv Unit Unit),
      run step (provInit clock) es = some s' → AllMeet step TrimPullsIn (provInit clock) es := by
  intro h
  have hall := h 0 [.start (some ()) () 10, .trim (some ()) () 10, .tick 1000000, .trimStart (some ())] _ rfl
  have htrim := (((hall.2 _ rfl).2 _ rfl).2 _ rfl).1
  have hpulls := htrim () 10 rfl rfl _ rfl
  exact absurd hpulls (by decide +kernel)

end MlnxLib.Timer
