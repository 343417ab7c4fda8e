import MlnxLib.Complib.Timer

/-!
# When timers expire

The provider waits for the timeout of the head of the queue and acts on the head it remembers.  As long as it
waits, a start or a stop signals it, so the remembered timer is the head still.  After the time-out a signal
comes too late: a timer that is started again before the provider has the mutex is queued with a new timeout,
and the provider, which looks at the state and not at the timeout, invokes its callback.

* `Timely s t` — the timer is queued, its timeout has come and no other timer comes first.
* `NotRestarted s e` — the step does not start the timer whose time-out the provider is about to act on.

Principal results: `expires_in_time` — in every run without such a start every callback is timely;
`expires_early` — a run in which a callback comes a second early.
-/

set_option autoImplicit false

namespace MlnxLib.Timer

open Runs

/-! ## Computed timeouts -/

/-- A timeout as `__cl_timer_calculate` computes it: whole microseconds, less than a second. -/
def Timespec.Valid (timeout : Timespec) : Prop := timeout.tvNsec < 1000000000 ∧ 1000 ∣ timeout.tvNsec

theorem clTimerCalculate_valid (clock : Nat) (timeMs : UInt32) : (clTimerCalculate clock timeMs).Valid := by
  have hnow : clock % 1000000000 / 1000 < 1000000 := by omega
  have hdelta : timeMs.toNat % 1000 * 1000 < 1000000 := by omega
  unfold clTimerCalculate timeradd gettimeofday Timespec.Valid
  dsimp only
  split
  · dsimp only
    omega
  · dsimp only
    omega

/-- **A timeout that has come is not later than one computed now.** -/
theorem not_earlier_calculate {clock : Nat} (timeMs : UInt32) {timeout : Timespec} (hvalid : timeout.Valid)
    (hreached : timeout.reached clock) : clTimerIsEarlier (clTimerCalculate clock timeMs) timeout = false := by
  obtain ⟨hlt, n, hn⟩ := hvalid
  unfold Timespec.reached at hreached
  rw [not_earlier_iff]
  unfold clTimerCalculate timeradd gettimeofday
  dsimp only
  split
  · dsimp only
    omega
  · dsimp only
    omega

/-! ## Timely callbacks -/

section

variable {T A : Type} {s s' : TimerProv T A} {ts : List T} {t : T}

/-- No queued timer has an earlier timeout. -/
def First (s : TimerProv T A) (t : T) : Prop :=
  ∀ u, (s.timer u).timerState = .queued → clTimerIsEarlier (s.timer u).timeout (s.timer t).timeout = false

/-- The callback of a timer may be invoked: it is queued, its timeout has come and it is the first. -/
structure Timely (s : TimerProv T A) (t : T) : Prop where
  queued : (s.timer t).timerState = .queued
  reached : (s.timer t).timeout.reached s.clock
  first : First s t

/-- What the provider knows of the timer it remembers. -/
structure ExpiryInv (s : TimerProv T A) : Prop where
  valid : ∀ t, (s.timer t).timerState = .queued → (s.timer t).timeout.Valid
  wait : ∀ t abstime, s.pc = .waitTimer t abstime →
    abstime = (s.timer t).timeout ∧ (s.timer t).timerState = .queued ∧ First s t
  expired : ∀ t, s.pc = .timedOut t → (s.timer t).timerState = .queued → Timely s t

/-- The queued timers are among those that were, with their timeouts, and no time passes. -/
structure Shrinks (s s' : TimerProv T A) : Prop where
  sub : ∀ u, (s'.timer u).timerState = .queued →
    (s.timer u).timerState = .queued ∧ (s'.timer u).timeout = (s.timer u).timeout
  clock : s'.clock = s.clock

theorem Shrinks.of_eq (htimer : s'.timer = s.timer) (hclock : s'.clock = s.clock) : Shrinks s s' := by
  refine ⟨?_, hclock⟩
  rw [htimer]
  exact fun u hu => ⟨hu, rfl⟩

/-- A timer gets a state that is not queued. -/
theorem Shrinks.setTimerState [DecidableEq T] (s : TimerProv T A) (t : T) {st : ClTimerState} (hst : st ≠ .queued) :
    Shrinks s (setTimerState s t st) := by
  refine ⟨fun u hu => ?_, rfl⟩
  rw [setTimerState_timerState] at hu
  split at hu
  · exact absurd hu hst
  · exact ⟨hu, setTimerState_timeout s t u st⟩

theorem Shrinks.stopQueued [DecidableEq T] (s : TimerProv T A) (t : T) : Shrinks s (stopQueued s t) :=
  ⟨(Shrinks.setTimerState s t (by simp : ClTimerState.idle ≠ .queued)).sub, rfl⟩

namespace ExpiryInv

/-- Fewer timers are queued, and the provider does not wait for one. -/
theorem mono (h : ExpiryInv s) (hs : Shrinks s s') (hwait : ∀ t abstime, s'.pc ≠ .waitTimer t abstime)
    (hexpired : ∀ t, s'.pc = .timedOut t → s.pc = .timedOut t) : ExpiryInv s' := by
  refine ⟨fun t ht => ?_, fun t abstime ht => absurd ht (hwait t abstime), fun t hpc ht => ?_⟩
  · obtain ⟨hq, htime⟩ := hs.sub t ht
    rw [htime]
    exact h.valid t hq
  · obtain ⟨hq, htime⟩ := hs.sub t ht
    obtain ⟨-, hreached, hfirst⟩ := h.expired t (hexpired t hpc) hq
    refine ⟨ht, ?_, fun u hu => ?_⟩
    · rw [htime, hs.clock]
      exact hreached
    · obtain ⟨hu, hutime⟩ := hs.sub u hu
      rw [htime, hutime]
      exact hfirst u hu

/-- Time passes, and the callers go on. -/
theorem congr (h : ExpiryInv s) (htimer : s'.timer = s.timer) (hpc : s'.pc = s.pc)
    (hclock : s.clock ≤ s'.clock) : ExpiryInv s' := by
  refine ⟨?_, ?_, ?_⟩
  · rw [htimer]
    exact h.valid
  · unfold First
    rw [htimer, hpc]
    exact h.wait
  · rw [htimer, hpc]
    intro t ht hq
    obtain ⟨-, hreached, hfirst⟩ := h.expired t ht hq
    refine ⟨?_, ?_, ?_⟩
    · rw [htimer]
      exact hq
    · rw [htimer]
      exact hreached.trans hclock
    · unfold First
      rw [htimer]
      exact hfirst

/-- The provider goes through its loop. -/
theorem loop (h : ExpiryInv s) (hq : QueueInv s ts) {pc : ProvPc T} (hpc : LoopPc s.timer ts pc) :
    ExpiryInv { s with pc := pc } := by
  refine ⟨h.valid, fun t abstime ht => ?_, fun t ht => ?_⟩
  · cases hpc with
    | exited => cases ht
    | waitEmpty => cases ht
    | waitTimer =>
      cases ht
      refine ⟨rfl, (hq.mem t).mp (List.mem_cons_self ..), fun u hu => ?_⟩
      rcases List.mem_cons.mp ((hq.mem u).mpr hu) with rfl | hu
      · exact not_earlier_self _
      · exact (List.pairwise_cons.mp hq.queue.sorted).1 u hu
  · cases hpc with
    | exited => cases ht
    | waitEmpty => cases ht
    | waitTimer => cases ht

variable [DecidableEq T]

/-- **A start** of a timer other than the one that timed out. -/
theorem start (h : ExpiryInv s) (hpc : s.pc ≠ .timedOut t) {timeMs : UInt32} (hs : Started s t timeMs s') :
    ExpiryInv s' := by
  refine ⟨fun u hu => ?_, fun u abstime hu => ?_, fun x hx hqueued => ?_⟩
  · rw [hs.timer] at hu ⊢
    by_cases hut : u = t
    · subst hut
      rw [Function.update_self]
      exact clTimerCalculate_valid _ _
    · rw [Function.update_of_ne hut] at hu ⊢
      exact h.valid u hu
  · rw [hs.pc] at hu
    exact absurd hu (signal_ne_waitTimer _ _ _)
  · rw [hs.pc, signal_eq_timedOut] at hx
    have hxt : x ≠ t := by
      rintro rfl
      exact hpc hx
    have hsame : s'.timer x = s.timer x := by rw [hs.timer, Function.update_of_ne hxt]
    rw [hsame] at hqueued
    obtain ⟨-, hreached, hfirst⟩ := h.expired x hx hqueued
    refine ⟨?_, ?_, fun u hu => ?_⟩
    · rw [hsame]
      exact hqueued
    · rw [hsame, hs.clock]
      exact hreached
    · rw [hsame]
      by_cases hut : u = t
      · subst hut
        rw [hs.timer, Function.update_self]
        exact not_earlier_calculate _ (h.valid x hqueued) hreached
      · rw [hs.timer, Function.update_of_ne hut] at hu ⊢
        exact hfirst u hu

end ExpiryInv

/-! ## Every run -/

theorem not_callback_of_loop {pc : ProvPc T} (hpc : LoopPc s.timer ts pc) : pc ≠ .callback t := by
  cases hpc with
  | exited => simp
  | waitEmpty => simp
  | waitTimer => simp

variable [DecidableEq T]

theorem expiryInv_init (clock : Nat) : ExpiryInv (provInit clock : TimerProv T A) := by
  refine ⟨fun t ht => ?_, fun t abstime ht => ?_, fun t ht => ?_⟩
  · simp [provInit, clTimerInit] at ht
  · cases ht
  · cases ht

variable [DecidableEq A]

/-- The timer that a step starts. -/
def starts (s : TimerProv T A) : Event T A → Option T
  | .start _ t _ => some t
  | .trimStart a =>
    match s.caller a with
    | .trim t _ => some t
    | _ => none
  | _ => none

/-- A step does not start the timer whose wait has timed out, while the provider has not acted on it yet. -/
def NotRestarted (s : TimerProv T A) (e : Event T A) : Prop :=
  match starts s e with
  | some t => s.pc ≠ .timedOut t
  | none => True

instance (s : TimerProv T A) (e : Event T A) : Decidable (NotRestarted s e) := by
  unfold NotRestarted
  split <;> infer_instance

/-- The callbacks that a step invokes are timely. -/
def InTime (s : TimerProv T A) (e : Event T A) : Prop :=
  ∀ t s', step s e = some s' → s'.pc = .callback t → s.pc ≠ .callback t → Timely s t

/-- What a step does to the timers and to the provider. -/
inductive Effect (s : TimerProv T A) (e : Event T A) (s' : TimerProv T A) : Prop where
  /-- Time passes, or a caller goes on. -/
  | apart (timer : s'.timer = s.timer) (pc : s'.pc = s.pc) (clock : s.clock ≤ s'.clock)
  /-- A timer is started, by a caller that has gone on. -/
  | started (s₁ : TimerProv T A) (t : T) (timeMs : UInt32) (starts : starts s e = some t)
      (timer : s₁.timer = s.timer) (pc : s₁.pc = s.pc) (clock : s₁.clock = s.clock)
      (started : Started s₁ t timeMs s')
  /-- The provider's wait ends, if it waits, and timers may leave the queue. -/
  | signalled (shrinks : Shrinks s s') (pc : s'.pc = s.pc.signal)
  | timedOut (t : T) (abstime : Timespec) (wait : s.pc = .waitTimer t abstime)
      (ended : timedWaitOver s.clock abstime) (eq : s' = { s with pc := .timedOut t })
  /-- The callback of a timer is invoked. -/
  | invoked (t : T) (wait : s.pc = .timedOut t) (queued : (s.timer t).timerState = .queued)
      (shrinks : Shrinks s s') (pc : s'.pc = .callback t)
  /-- The provider goes through its loop. -/
  | looped (s₁ : TimerProv T A) (ts : List T) (wait : ∀ t abstime, s.pc ≠ .waitTimer t abstime)
      (shrinks : Shrinks s s₁) (same : s₁.pc = s.pc) (inv : QueueInv s₁ ts) (pc : ProvPc T)
      (loop : LoopPc s₁.timer ts pc) (eq : s' = { s₁ with pc := pc })

omit [DecidableEq A] in
/-- The loop of the provider after a wait. -/
theorem QueueInv.looped (h : QueueInv s ts) {e : Event T A} (hpc : ∀ t, s.pc ≠ .callback t)
    (hwait : ∀ t abstime, s.pc ≠ .waitTimer t abstime) (hstep : provLoop s = some s') : Effect s e s' := by
  obtain ⟨pc, hloop, hpc', -⟩ := h.loop fun u hu => hpc u (h.running u hu)
  exact .looped s ts hwait (.of_eq rfl rfl) rfl h pc hpc' (Option.some.inj (hloop.symm.trans hstep)).symm

/-- **Every step has one of these effects.** -/
theorem QueueInv.effect (hq : QueueInv s ts) {e : Event T A} (hstep : Timer.step s e = some s') : Effect s e s' := by
  have henabled := enabled_of_step hstep
  cases e with
  | tick d =>
    cases hstep
    exact .apart rfl rfl (Nat.le_add_right _ _)
  | start a t timeMs =>
    obtain ⟨s₁, -, hs₁, -, hstarted⟩ := hq.start t timeMs
    cases ((if_pos henabled).trans hs₁).symm.trans hstep
    exact .started s t timeMs rfl rfl rfl rfl hstarted
  | trim a t timeMs =>
    cases (if_pos henabled).symm.trans hstep
    unfold clTimerTrim
    dsimp only
    split
    · exact .apart rfl rfl (Nat.le_refl _)
    · exact .apart rfl rfl (Nat.le_refl _)
  | trimStart a =>
    obtain ⟨t, timeMs, ha⟩ := henabled
    simp only [Timer.step, ha] at hstep
    have hq' : QueueInv (setCaller s a .idle) ts := hq.congr rfl rfl fun _ => id
    obtain ⟨s₁, -, hs₁, -, hstarted⟩ := hq'.start t timeMs
    cases hs₁.symm.trans hstep
    exact .started (setCaller s a .idle) t timeMs (by simp only [starts, ha]) rfl rfl rfl hstarted
  | stop a t =>
    cases (if_pos henabled).symm.trans hstep
    unfold clTimerStop
    split
    · exact .apart rfl rfl (Nat.le_refl _)
    · exact .signalled (.stopQueued s t) rfl
    · exact .apart rfl rfl (Nat.le_refl _)
  | stopped a =>
    obtain ⟨t, ha⟩ := henabled
    simp only [Timer.step, ha, Option.some.injEq] at hstep
    subst hstep
    unfold clTimerStopped
    split
    · exact .signalled ⟨(Shrinks.stopQueued s t).sub, rfl⟩ rfl
    · exact .apart rfl rfl (Nat.le_refl _)
  | destroy =>
    cases hstep
    exact .signalled (.of_eq rfl rfl) rfl
  | wakeUp =>
    obtain hpc | ⟨t, abstime, hpc⟩ := henabled
    · simp only [Timer.step, hpc, Option.some.injEq] at hstep
      subst hstep
      exact .signalled (.of_eq rfl rfl) (by rw [hpc]; rfl)
    · simp only [Timer.step, hpc, Option.some.injEq] at hstep
      subst hstep
      exact .signalled (.of_eq rfl rfl) (by rw [hpc]; rfl)
  | timeOut =>
    obtain ⟨t, abstime, hpc, hover⟩ := henabled
    simp only [Timer.step, hpc, if_pos hover, Option.some.injEq] at hstep
    exact .timedOut t abstime hpc hover hstep.symm
  | resume =>
    obtain hpc | ⟨t, hpc⟩ := henabled
    · simp only [Timer.step, hpc] at hstep
      exact hq.looped (by simp [hpc]) (by simp [hpc]) hstep
    · simp only [Timer.step, hpc, provExpired] at hstep
      split at hstep
      · rename_i hqueued
        have hne : ClTimerState.running ≠ .queued := by simp
        cases hstep
        exact .invoked t hpc hqueued ⟨(Shrinks.setTimerState s t hne).sub, rfl⟩ rfl
      · exact hq.looped (by simp [hpc]) (by simp [hpc]) hstep
  | callbackDone =>
    obtain ⟨⟨t, hpc⟩, hidle⟩ := henabled
    simp only [Timer.step, hpc, if_pos hidle, provCallbackDone] at hstep
    obtain ⟨hinv, hrunning⟩ := hq.idle hpc
    obtain ⟨pc, hloop, hpc', -⟩ := hinv.loop hrunning
    refine .looped _ ts (by simp [hpc]) ?_ ?_ hinv pc hpc' (Option.some.inj (hloop.symm.trans hstep)).symm
    · split
      · exact .setTimerState s t (by simp)
      · exact .of_eq rfl rfl
    · split <;> rfl

theorem ExpiryInv.step (h : ExpiryInv s) (hq : QueueInv s ts) {e : Event T A} (hmeet : NotRestarted s e)
    (hstep : step s e = some s') : ExpiryInv s' := by
  cases hq.effect hstep with
  | apart timer pc clock => exact h.congr timer pc clock
  | started s₁ t timeMs hstarts timer pc clock started =>
    have h₁ : ExpiryInv s₁ := h.congr timer pc (Nat.le_of_eq clock.symm)
    rw [NotRestarted, hstarts, ← pc] at hmeet
    exact h₁.start hmeet started
  | signalled shrinks pc =>
    refine h.mono shrinks ?_ ?_
    · rw [pc]
      exact fun _ _ => signal_ne_waitTimer _ _ _
    · rw [pc]
      exact fun _ => signal_eq_timedOut.mp
  | timedOut t abstime wait ended eq =>
    subst eq
    obtain ⟨rfl, hqueued, hfirst⟩ := h.wait t abstime wait
    refine ⟨h.valid, by simp, fun u hu _ => ?_⟩
    cases hu
    -- a timeout is a time of the clock, so the wait is over because it has come
    have hvalid := (h.valid t hqueued).1
    exact ⟨hqueued, ended.resolve_left (by omega), hfirst⟩
  | invoked t wait queued shrinks pc => exact h.mono shrinks (by simp [pc]) (by simp [pc])
  | looped s₁ ts₁ wait shrinks same inv pc loop eq =>
    subst eq
    have h₁ : ExpiryInv s₁ := h.mono shrinks (by rw [same]; exact wait) (by rw [same]; exact fun _ => id)
    exact h₁.loop inv loop

/-- **A callback is invoked by the provider alone**, after a time-out, and for a timer that is queued. -/
theorem invokes_of_step (hq : QueueInv s ts) {e : Event T A} (hstep : step s e = some s')
    (hpc' : s'.pc = .callback t) (hpc : s.pc ≠ .callback t) :
    s.pc = .timedOut t ∧ (s.timer t).timerState = .queued := by
  cases hq.effect hstep with
  | apart timer pc clock => exact absurd (pc.symm.trans hpc') hpc
  | started s₁ u timeMs hstarts timer pc clock started =>
    rw [started.pc, signal_eq_callback, pc] at hpc'
    exact absurd hpc' hpc
  | signalled shrinks pc =>
    rw [pc, signal_eq_callback] at hpc'
    exact absurd hpc' hpc
  | timedOut u abstime wait ended eq =>
    subst eq
    cases hpc'
  | invoked u wait queued shrinks pc =>
    cases pc.symm.trans hpc'
    exact ⟨wait, queued⟩
  | looped s₁ ts₁ wait shrinks same inv pc loop eq =>
    subst eq
    exact absurd hpc' (not_callback_of_loop loop)

/-- **Timers do not expire early** in a run in which no timer is started between the time-out of the provider's
wait for it and the provider's next step: each callback is invoked for a queued timer, when the timeout of its
last start has come, and no queued timer has an earlier timeout. -/
theorem expires_in_time (clock : Nat) (es : List (Event T A))
    (hmeet : AllMeet step NotRestarted (provInit clock : TimerProv T A) es) :
    AllMeet step InTime (provInit clock : TimerProv T A) es := by
  refine AllMeet.of_invariant (I := fun s => (∃ ts, QueueInv s ts) ∧ ExpiryInv s) ?_ ?_ es
    ⟨⟨[], queueInv_init clock⟩, expiryInv_init clock⟩ hmeet
  · rintro s s' e ⟨⟨ts, hq⟩, h⟩ hmeet hstep
    exact ⟨hq.step hstep, h.step hq hmeet hstep⟩
  · rintro s e ⟨⟨ts, hq⟩, h⟩ - t s' hstep hpc' hpc
    obtain ⟨hexpired, hqueued⟩ := invokes_of_step hq hstep hpc' hpc
    exact h.expired t hexpired hqueued

end

/-- A timer is started and expires after a millisecond. -/
theorem expires_in_time_once : AllMeet step InTime (provInit 0 : TimerProv Unit Unit)
    [.start (some ()) () 1, .resume, .tick 1000000, .timeOut, .resume, .callbackDone] :=
  expires_in_time 0 _ (by decide)

/-- A timer is started for a millisecond, the wait of the provider is over, and it is started anew for a
second. -/
def startedAnew : List (Event Unit Unit) :=
  [.start (some ()) () 1, .resume, .tick 1000000, .timeOut, .start (some ()) () 1000]

/-- **A timer expires early**: the provider invokes its callback although it has been started anew. -/
theorem expires_early : ¬ ∀ (clock : Nat) (es : List (Event Unit Unit)),
    AllMeet step InTime (provInit clock : TimerProv Unit Unit) es := by
  intro hall
  have hmeet : AllMeet step InTime (provInit 0 : TimerProv Unit Unit) (startedAnew ++ [.resume]) := hall 0 _
  have hrun : run step (provInit 0 : TimerProv Unit Unit) startedAnew = some _ := rfl
  have htimely := hmeet.of_run hrun () _ rfl rfl (by decide)
  have hreached := htimely.reached
  revert hreached
  decide

end MlnxLib.Timer
