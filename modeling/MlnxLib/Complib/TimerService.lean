import MlnxLib.Complib.TimerExpiry

/-!
# What the provider makes of due timers

The callers leave the timers alone for a while, and no callback calls the library: then the steps that are left are
those of the provider thread.  It goes on until its next wait is not over.

* `provNext` — the next step of the provider, unless it waits.
* `provRun` — its steps up to such a wait, with the callbacks that it invokes.
* `Due s t` — the timer is queued and its timeout has come.
* `Served s s' fired` — the callbacks are those of the due timers, and the provider waits for the other ones.
* `Awake s` — the provider sleeps without a timeout only while no timer is queued.

Principal result: `due_timers_fire` — no wake-up is lost and no timer is forgotten: after any calls, the provider
invokes the callback of each due timer, once, in the order of the timeouts.
-/

set_option autoImplicit false

namespace MlnxLib.Timer

open Runs

section

variable {T A : Type} [DecidableEq T] [DecidableEq A]

/-- The next step of the provider, if its wait is over; a callback returns. -/
def provNext (s : TimerProv T A) : Option (Event T A) :=
  match s.pc with
  | .ready => some .resume
  | .waitEmpty => none
  | .waitTimer _ abstime => if timedWaitOver s.clock abstime then some .timeOut else none
  | .timedOut _ => some .resume
  | .callback _ => some .callbackDone
  | .exited => none

/-- The callback that a step from `s` to `s'` invokes. -/
def invoked (s s' : TimerProv T A) : List T :=
  match s.pc, s'.pc with
  | .timedOut t, .callback _ => [t]
  | _, _ => []

/-- The steps of the provider up to a wait that is not over: the callbacks it invokes, and the state it waits in. -/
def provRun : Nat → TimerProv T A → Option (List T × TimerProv T A)
  | 0, _ => none
  | fuel + 1, s =>
    match provNext s with
    | none => some ([], s)
    | some e => (step s e).bind fun s' => (provRun fuel s').map fun r => (invoked s s' ++ r.1, r.2)

end

section

variable {T A : Type} {s s' s'' : TimerProv T A} {ts : List T} {t : T}

/-- The timer is queued, and its timeout has come. -/
def Due (s : TimerProv T A) (t : T) : Prop :=
  (s.timer t).timerState = .queued ∧ (s.timer t).timeout.reached s.clock

/-- The provider waits for the first of the timers that are queued. -/
def Waits (s : TimerProv T A) : Prop :=
  (s.pc = .waitEmpty ∧ ∀ t, (s.timer t).timerState ≠ .queued) ∨
    ∃ t, s.pc = .waitTimer t (s.timer t).timeout ∧ (s.timer t).timerState = .queued ∧ First s t

/-- **The due timers are served.** -/
structure Served (s s' : TimerProv T A) (fired : List T) : Prop where
  /-- The callback of each due timer is invoked once, and of no other timer. -/
  once : fired.Nodup
  due : ∀ t, t ∈ fired ↔ Due s t
  /-- They come in the order of the timeouts. -/
  order : fired.Pairwise fun t u => clTimerIsEarlier (s.timer u).timeout (s.timer t).timeout = false
  /-- The other timers are queued as they were. -/
  queued : ∀ t, (s'.timer t).timerState = .queued ↔ (s.timer t).timerState = .queued ∧ ¬Due s t
  timeout : ∀ t, (s'.timer t).timeout = (s.timer t).timeout
  clock : s'.clock = s.clock
  waits : Waits s'

/-- The provider has not left its loop without being told to, and sleeps without a timeout only while there is no
timer to wait for. -/
structure Awake (s : TimerProv T A) : Prop where
  exited : s.pc = .exited → s.exit = true
  empty : s.pc = .waitEmpty → ∀ t, (s.timer t).timerState ≠ .queued

/-! ## The provider is awake -/

theorem signal_ne_waitEmpty (pc : ProvPc T) : pc.signal ≠ .waitEmpty := by
  cases pc <;> simp [ProvPc.signal]

@[simp] theorem signal_eq_exited {pc : ProvPc T} : pc.signal = .exited ↔ pc = .exited := by
  cases pc <;> simp [ProvPc.signal]

/-- The loop of the provider ends only when it is told to. -/
theorem provLoop_exited (hloop : provLoop s = some s') (hpc : s'.pc = .exited) : s'.exit = true := by
  unfold provLoop at hloop
  split at hloop
  · cases hloop
    assumption
  · split at hloop
    · cases hloop
      cases hpc
    · split at hloop
      · cases hloop
        cases hpc
      · cases hloop

/-- A call that only signals the provider. -/
theorem exited_of_signal (h : s.pc = .exited → s.exit = true) (hexit : s'.exit = s.exit)
    (hpc : s'.pc = s.pc ∨ s'.pc = s.pc.signal) (hpc' : s'.pc = .exited) : s'.exit = true := by
  rw [hexit]
  apply h
  rcases hpc with hpc | hpc
  · exact hpc.symm.trans hpc'
  · exact signal_eq_exited.mp (hpc.symm.trans hpc')

variable [DecidableEq T] [DecidableEq A]

/-- **No step ends the provider** unless it is told to. -/
theorem exited_of_step (hq : QueueInv s ts) (h : s.pc = .exited → s.exit = true) {e : Event T A}
    (hstep : step s e = some s') (hpc' : s'.pc = .exited) : s'.exit = true := by
  have henabled := enabled_of_step hstep
  cases e with
  | tick d =>
    cases hstep
    exact h hpc'
  | start a t timeMs =>
    obtain ⟨s₁, -, hs₁, -, hstarted⟩ := hq.start t timeMs
    cases ((if_pos henabled).trans hs₁).symm.trans hstep
    exact exited_of_signal h hstarted.exit (.inr hstarted.pc) hpc'
  | trim a t timeMs =>
    cases (if_pos henabled).symm.trans hstep
    unfold clTimerTrim at hpc' ⊢
    dsimp only at hpc' ⊢
    split at hpc'
    · rw [if_pos (by assumption)]
      exact h hpc'
    · rw [if_neg (by assumption)]
      exact h hpc'
  | trimStart a =>
    obtain ⟨t, timeMs, ha⟩ := henabled
    simp only [Timer.step, ha] at hstep
    have hq' : QueueInv (setCaller s a .idle) ts := hq.congr rfl rfl fun _ => id
    obtain ⟨s₁, -, hs₁, -, hstarted⟩ := hq'.start t timeMs
    cases hs₁.symm.trans hstep
    exact exited_of_signal h hstarted.exit (.inr hstarted.pc) hpc'
  | stop a t =>
    cases (if_pos henabled).symm.trans hstep
    unfold clTimerStop at hpc' ⊢
    split at hpc'
    · exact h hpc'
    · exact exited_of_signal h rfl (.inr rfl) hpc'
    · exact h hpc'
  | stopped a =>
    obtain ⟨t, ha⟩ := henabled
    simp only [Timer.step, ha, Option.some.injEq] at hstep
    subst hstep
    unfold clTimerStopped at hpc' ⊢
    by_cases hqueued : (s.timer t).timerState = .queued
    · rw [if_pos hqueued] at hpc' ⊢
      exact exited_of_signal h rfl (.inr rfl) hpc'
    · rw [if_neg hqueued] at hpc' ⊢
      exact h hpc'
  | destroy =>
    cases hstep
    rfl
  | wakeUp =>
    obtain hpc | ⟨t, abstime, hpc⟩ := henabled
    · simp only [Timer.step, hpc, Option.some.injEq] at hstep
      subst hstep
      cases hpc'
    · simp only [Timer.step, hpc, Option.some.injEq] at hstep
      subst hstep
      cases hpc'
  | timeOut =>
    obtain ⟨t, abstime, hpc, hover⟩ := henabled
    simp only [Timer.step, hpc, if_pos hover, Option.some.injEq] at hstep
    subst hstep
    cases hpc'
  | resume =>
    obtain hpc | ⟨t, hpc⟩ := henabled
    · simp only [Timer.step, hpc] at hstep
      exact provLoop_exited hstep hpc'
    · simp only [Timer.step, hpc, provExpired] at hstep
      split at hstep
      · cases hstep
        cases hpc'
      · exact provLoop_exited hstep hpc'
  | callbackDone =>
    obtain ⟨⟨t, hpc⟩, hidle⟩ := henabled
    simp only [Timer.step, hpc, if_pos hidle, provCallbackDone] at hstep
    exact provLoop_exited hstep hpc'

/-- **Every step leaves the provider awake**: who queues a timer wakes it up. -/
theorem Awake.step (h : Awake s) (hq : QueueInv s ts) {e : Event T A} (hstep : step s e = some s') : Awake s' := by
  refine ⟨exited_of_step hq h.exited hstep, fun hpc' => ?_⟩
  cases hq.effect hstep with
  | apart timer pc clock =>
    rw [timer]
    exact h.empty (pc.symm.trans hpc')
  | started s₁ u timeMs hstarts timer pc clock started =>
    exact absurd (started.pc.symm.trans hpc') (signal_ne_waitEmpty _)
  | signalled shrinks pc => exact absurd (pc.symm.trans hpc') (signal_ne_waitEmpty _)
  | timedOut u abstime wait ended eq =>
    subst eq
    cases hpc'
  | invoked u wait queued shrinks pc => cases pc.symm.trans hpc'
  | looped s₁ ts₁ wait shrinks same inv pc loop eq =>
    subst eq
    cases hpc'
    cases loop
    exact fun t ht => List.not_mem_nil ((inv.mem t).mpr ht)

omit [DecidableEq A] in
theorem awake_init (clock : Nat) : Awake (provInit clock : TimerProv T A) := by
  constructor
  · intro hpc
    cases hpc
  · intro hpc
    cases hpc

/-! ## The provider alone -/

/-- What holds between two steps of a run in which no timer is started too late. -/
structure ServiceInv (s : TimerProv T A) (ts : List T) : Prop where
  queue : QueueInv s ts
  expiry : ExpiryInv s
  awake : Awake s

theorem ServiceInv.step (h : ServiceInv s ts) {e : Event T A} (hmeet : NotRestarted s e)
    (hstep : step s e = some s') : ∃ ts', ServiceInv s' ts' := by
  obtain ⟨ts', hq⟩ := h.queue.step hstep
  exact ⟨ts', hq, h.expiry.step h.queue hmeet hstep, h.awake.step h.queue hstep⟩

omit [DecidableEq A] in
theorem serviceInv_init (clock : Nat) : ServiceInv (provInit clock : TimerProv T A) [] :=
  ⟨queueInv_init clock, expiryInv_init clock, awake_init clock⟩

/-- The provider is back in a wait, with these timers. -/
structure Back (s s' : TimerProv T A) (timer : T → ClTimer) (n : Nat) : Prop where
  inv : ∃ ts : List T, ServiceInv s' ts ∧ ts.length = n
  timer : s'.timer = timer
  clock : s'.clock = s.clock
  exit : s'.exit = s.exit
  caller : s'.caller = s.caller
  waits : Waits s'

omit [DecidableEq T] [DecidableEq A] in
theorem LoopPc.waits {pc : ProvPc T} (hq : QueueInv s ts) (hloop : LoopPc s.timer ts pc) (hpc : pc ≠ .exited) :
    Waits { s with pc := pc } := by
  cases hloop with
  | exited => exact absurd rfl hpc
  | waitEmpty => exact .inl ⟨rfl, fun t ht => List.not_mem_nil ((hq.mem t).mpr ht)⟩
  | waitTimer =>
    rename_i t ts
    refine .inr ⟨t, rfl, (hq.mem t).mp (List.mem_cons_self ..), fun u hu => ?_⟩
    rcases List.mem_cons.mp ((hq.mem u).mpr hu) with rfl | hu
    · exact not_earlier_self _
    · exact (List.pairwise_cons.mp hq.queue.sorted).1 u hu

omit [DecidableEq T] [DecidableEq A] in
theorem notRestarted_of_next {e : Event T A} (hnext : provNext s = some e) : NotRestarted s e := by
  unfold provNext at hnext
  split at hnext
  · cases hnext
    trivial
  · cases hnext
  · split at hnext
    · cases hnext
      trivial
    · cases hnext
  · cases hnext
    trivial
  · cases hnext
    trivial
  · cases hnext

/-- **The loop of the provider** goes back into a wait. -/
theorem provLoop_back {s₁ : TimerProv T A} {ts₁ : List T} (h : ServiceInv s ts) {e : Event T A}
    (hnext : provNext s = some e) (hstep : step s e = provLoop s₁) (hq : QueueInv s₁ ts₁)
    (hidle : ∀ u, (s₁.timer u).timerState ≠ .running) (hexit : s₁.exit = false) :
    ∃ s', step s e = some s' ∧ Back s₁ s' s₁.timer ts₁.length ∧ ∀ t, s'.pc ≠ .callback t := by
  obtain ⟨pc, hloop, hpc, hinv⟩ := hq.loop hidle
  rw [hloop] at hstep
  obtain ⟨ts', hservice⟩ := h.step (notRestarted_of_next hnext) hstep
  have hne : pc ≠ .exited := by
    intro hpc'
    have hexit' := hservice.awake.exited hpc'
    rw [hexit] at hexit'
    cases hexit'
  refine ⟨_, hstep, ⟨⟨ts₁, ⟨hinv, hservice.expiry, hservice.awake⟩, rfl⟩, rfl, rfl, rfl, rfl, hpc.waits hq hne⟩, ?_⟩
  exact fun t => not_callback_of_loop hpc

/-- **A callback returns**, and the provider goes back into a wait. -/
theorem callback_back (h : ServiceInv s ts) (hpc : s.pc = .callback t) (hexit : s.exit = false)
    (hcaller : s.caller none = .idle) :
    ∃ s', step s .callbackDone = some s' ∧ (∀ u, s'.pc ≠ .callback u) ∧
      Back s s' (if (s.timer t).timerState = .running then setTimerState s t .idle else s).timer ts.length := by
  have hnext : provNext s = some .callbackDone := by
    rw [provNext, hpc]
  have hstep : step s .callbackDone =
      provLoop (if (s.timer t).timerState = .running then setTimerState s t .idle else s) := by
    simp only [Timer.step, hpc, if_pos hcaller, provCallbackDone]
  obtain ⟨hinv, hidle⟩ := h.queue.idle hpc
  generalize hs₁ : (if (s.timer t).timerState = .running then setTimerState s t .idle else s) = s₁ at hstep hinv hidle
  have hsame : s₁.clock = s.clock ∧ s₁.exit = s.exit ∧ s₁.caller = s.caller := by
    rw [← hs₁]
    split
    · exact ⟨rfl, rfl, rfl⟩
    · exact ⟨rfl, rfl, rfl⟩
  obtain ⟨hclock, hexit₁, hcaller₁⟩ := hsame
  obtain ⟨s', hs', hback, hne⟩ := provLoop_back h hnext hstep hinv hidle (hexit₁.trans hexit)
  exact ⟨s', hs', hne, hback.inv, hback.timer, hback.clock.trans hclock, hback.exit.trans hexit₁,
    hback.caller.trans hcaller₁, hback.waits⟩

/-- **The callback of a timer whose wait has timed out** is invoked and returns. -/
theorem serve_one (h : ServiceInv s ts) (hpc : s.pc = .timedOut t) (hqueued : (s.timer t).timerState = .queued)
    (hexit : s.exit = false) (hcaller : s.caller none = .idle) :
    ∃ s₁ s₂, step s .resume = some s₁ ∧ s₁.pc = .callback t ∧ step s₁ .callbackDone = some s₂ ∧
      (∀ u, s₂.pc ≠ .callback u) ∧
      Back s s₂ (Function.update s.timer t ⟨.idle, (s.timer t).timeout⟩) (ts.length - 1) := by
  have hresume : step s .resume = some { removeItem (setTimerState s t .running) t with pc := .callback t } := by
    simp only [Timer.step, hpc, provExpired, if_pos hqueued]
  have hnext : provNext s = some .resume := by
    rw [provNext, hpc]
  obtain ⟨ts₁, h₁⟩ := h.step (notRestarted_of_next hnext) hresume
  have hq₁ : QueueInv { removeItem (setTimerState s t .running) t with pc := .callback t } (ts.erase t) := by
    refine h.queue.leave hqueued (by simp) fun u hu => ?_
    by_cases hut : u = t
    · rw [hut]
    · rw [if_neg hut] at hu
      cases hpc.symm.trans (h.queue.running u hu)
  obtain ⟨s₂, hdone, hne, hback⟩ := callback_back ⟨hq₁, h₁.expiry, h₁.awake⟩ rfl hexit hcaller
  refine ⟨_, s₂, hresume, rfl, hdone, hne, ?_⟩
  have htimer : (if ((removeItem (setTimerState s t .running) t).timer t).timerState = .running then
      setTimerState { removeItem (setTimerState s t .running) t with pc := .callback t } t .idle
      else { removeItem (setTimerState s t .running) t with pc := .callback t }).timer =
      Function.update s.timer t ⟨.idle, (s.timer t).timeout⟩ := by
    simp [removeItem, setTimerState]
  rw [← List.length_erase_of_mem ((h.queue.mem t).mpr hqueued)]
  exact ⟨hback.inv, hback.timer.trans htimer, hback.clock, hback.exit, hback.caller, hback.waits⟩

/-! ## What is served -/

omit [DecidableEq T] [DecidableEq A] in
/-- A time of an earlier second, of `n` parts. -/
theorem time_le {n sec part sec' part' clock : Nat} (hpart : part < n) (hsec : sec < sec')
    (hle : sec' * n + part' ≤ clock) : sec * n + part ≤ clock := by
  have hmul : (sec + 1) * n ≤ sec' * n := Nat.mul_le_mul_right n hsec
  rw [Nat.succ_mul] at hmul
  omega

omit [DecidableEq T] [DecidableEq A] in
/-- A timeout that is not later than one that has come has come. -/
theorem reached_of_not_earlier {clock : Nat} {u v : Timespec} (hvalid : u.Valid)
    (hle : clTimerIsEarlier v u = false) (hreached : v.reached clock) : u.reached clock := by
  rw [not_earlier_iff] at hle
  unfold Timespec.reached at hreached ⊢
  rcases hle with hle | ⟨heq, hle⟩
  · exact time_le hvalid.1 hle hreached
  · rw [heq]
    exact (Nat.add_le_add_left hle _).trans hreached

omit [DecidableEq T] [DecidableEq A] in
/-- Nothing is due. -/
theorem served_nil (hwaits : Waits s) (hdue : ∀ t, ¬Due s t) : Served s s [] := by
  refine ⟨.nil, fun t => ?_, .nil, fun t => ?_, fun _ => rfl, rfl, hwaits⟩
  · simp [hdue t]
  · simp [hdue t]

omit [DecidableEq T] [DecidableEq A] in
/-- The timers are the same, as far as they are queued. -/
theorem Served.congr {fired : List T} (h : Served s s' fired)
    (hqueued : ∀ t, (s.timer t).timerState = .queued ↔ (s''.timer t).timerState = .queued)
    (htimeout : ∀ t, (s.timer t).timeout = (s''.timer t).timeout) (hclock : s.clock = s''.clock) :
    Served s'' s' fired := by
  have hdue : ∀ t, Due s t ↔ Due s'' t := by
    intro t
    unfold Due
    rw [hqueued, htimeout, hclock]
  refine ⟨h.once, fun t => (h.due t).trans (hdue t), ?_, fun t => ?_, fun t => ?_, h.clock.trans hclock, h.waits⟩
  · have horder := h.order
    simp only [htimeout] at horder
    exact horder
  · rw [h.queued, hqueued, hdue]
  · rw [h.timeout, htimeout]

omit [DecidableEq A] in
/-- **One timer is served, and then the other ones.** -/
theorem Served.cons {s₂ : TimerProv T A} {fired : List T} (hdue : Due s t) (hfirst : First s t)
    (htimer : s₂.timer = Function.update s.timer t ⟨.idle, (s.timer t).timeout⟩) (hclock : s₂.clock = s.clock)
    (h : Served s₂ s' fired) : Served s s' (t :: fired) := by
  have hstate : ∀ u, (s₂.timer u).timerState = .queued ↔ u ≠ t ∧ (s.timer u).timerState = .queued := by
    intro u
    rw [htimer]
    by_cases hu : u = t
    · simp [hu]
    · simp [hu]
  have htimeout : ∀ u, (s₂.timer u).timeout = (s.timer u).timeout := by
    intro u
    rw [htimer]
    by_cases hu : u = t
    · simp [hu]
    · simp [hu]
  have hdue₂ : ∀ u, Due s₂ u ↔ u ≠ t ∧ Due s u := by
    intro u
    unfold Due
    rw [hstate, htimeout, hclock, and_assoc]
  constructor
  case once =>
    rw [List.nodup_cons, h.due, hdue₂]
    exact ⟨fun hu => hu.1 rfl, h.once⟩
  case due =>
    intro u
    rw [List.mem_cons, h.due, hdue₂]
    by_cases hu : u = t
    · simp [hu, hdue]
    · simp [hu]
  case order =>
    rw [List.pairwise_cons]
    constructor
    · intro u hu
      rw [h.due, hdue₂] at hu
      exact hfirst u hu.2.1
    · have horder := h.order
      simp only [htimeout] at horder
      exact horder
  case queued =>
    intro u
    rw [h.queued, hstate, hdue₂]
    by_cases hu : u = t
    · simp [hu, hdue]
    · simp [hu]
  case timeout =>
    intro u
    rw [h.timeout, htimeout]
  case clock => exact h.clock.trans hclock
  case waits => exact h.waits

/-! ## Every due timer -/

omit [DecidableEq T] [DecidableEq A] in
theorem invoked_nil (hpc' : ∀ u, s'.pc ≠ .callback u) : invoked s s' = [] := by
  unfold invoked
  split
  · rename_i hpc
    exact absurd hpc (hpc' _)
  · rfl

/-- One step of the provider before the others. -/
theorem provRun_step {fuel : Nat} {e : Event T A} {fired : List T} (hnext : provNext s = some e)
    (hstep : step s e = some s') (hrun : provRun fuel s' = some (fired, s'')) :
    provRun (fuel + 1) s = some (invoked s s' ++ fired, s'') := by
  simp only [provRun, hnext, hstep, Option.bind_some, hrun, Option.map_some]

/-- The provider goes back into a wait, with the same timers queued, and serves what is due there. -/
theorem serve_after {s₁ : TimerProv T A} {timer : T → ClTimer} {n fuel : Nat} {e : Event T A}
    (hnext : provNext s = some e) (hstep : step s e = some s₁) (hne : ∀ u, s₁.pc ≠ .callback u)
    (hback : Back s s₁ timer n)
    (htimer : ∀ u, ((timer u).timerState = .queued ↔ (s.timer u).timerState = .queued) ∧
      (timer u).timeout = (s.timer u).timeout)
    (hrest : ∃ fired s', provRun fuel s₁ = some (fired, s') ∧ Served s₁ s' fired) :
    ∃ fired s', provRun (fuel + 1) s = some (fired, s') ∧ Served s s' fired := by
  obtain ⟨fired, s', hrun, hserved⟩ := hrest
  have hall := provRun_step hnext hstep hrun
  rw [invoked_nil hne, List.nil_append] at hall
  refine ⟨fired, s', hall, hserved.congr (fun u => ?_) (fun u => ?_) hback.clock⟩
  · rw [hback.timer]
    exact (htimer u).1
  · rw [hback.timer]
    exact (htimer u).2

/-- **The first timer is served**, and what is due then. -/
theorem serve_timedOut (h : ServiceInv s ts) (hpc : s.pc = .timedOut t) (htimely : Timely s t)
    (hexit : s.exit = false) (hcaller : s.caller none = .idle) {fuel : Nat}
    (hrest : ∀ {s₂ : TimerProv T A} {ts₂ : List T}, ServiceInv s₂ ts₂ → ts₂.length = ts.length - 1 → Waits s₂ →
      s₂.exit = false → s₂.caller none = .idle → ∃ fired s', provRun fuel s₂ = some (fired, s') ∧ Served s₂ s' fired) :
    ∃ fired s', provRun (fuel + 2) s = some (fired, s') ∧ Served s s' fired := by
  obtain ⟨hqueued, hreached, hfirst⟩ := htimely
  obtain ⟨s₁, s₂, hresume, hpc₁, hdone, hne, hback⟩ := serve_one h hpc hqueued hexit hcaller
  obtain ⟨ts₂, h₂, hlen⟩ := hback.inv
  have hcaller₂ : s₂.caller none = .idle := by
    rw [hback.caller]
    exact hcaller
  obtain ⟨fired, s', hrun, hserved⟩ := hrest h₂ hlen hback.waits (hback.exit.trans hexit) hcaller₂
  have hnext : provNext s = some .resume := by
    rw [provNext, hpc]
  have hnext₁ : provNext s₁ = some .callbackDone := by
    rw [provNext, hpc₁]
  have hall := provRun_step hnext hresume (provRun_step hnext₁ hdone hrun)
  have hfired : invoked s s₁ = [t] := by
    simp only [invoked, hpc, hpc₁]
  rw [hfired, invoked_nil hne, List.nil_append] at hall
  exact ⟨_, s', hall, hserved.cons ⟨hqueued, hreached⟩ hfirst hback.timer hback.clock⟩

/-- **The provider in a wait** serves what is due. -/
theorem serve_waiting : ∀ (n : Nat) {s : TimerProv T A} {ts : List T}, ServiceInv s ts → ts.length = n → Waits s →
    s.exit = false → s.caller none = .idle → ∀ {fuel : Nat}, 3 * n < fuel →
      ∃ fired s', provRun fuel s = some (fired, s') ∧ Served s s' fired
  | _, _, _, _, _, _, _, _, 0, hfuel => absurd hfuel (Nat.not_lt_zero _)
  | n, s, ts, h, hn, hwaits, hexit, hcaller, fuel + 1, hfuel => by
    rcases id hwaits with ⟨hpc, hempty⟩ | ⟨t, hpc, hqueued, hfirst⟩
    · -- no timer is queued
      have hnext : provNext s = none := by
        rw [provNext, hpc]
      refine ⟨[], s, ?_, served_nil hwaits fun t ht => hempty t ht.1⟩
      simp only [provRun, hnext]
    · have hvalid := h.expiry.valid t hqueued
      by_cases hover : timedWaitOver s.clock (s.timer t).timeout
      · -- the wait for the first timer is over
        have hreached : (s.timer t).timeout.reached s.clock := by
          apply hover.resolve_left
          exact Nat.not_le_of_lt hvalid.1
        have hnext : provNext s = some .timeOut := by
          rw [provNext, hpc]
          exact if_pos hover
        have htimeOut : step s .timeOut = some { s with pc := .timedOut t } := by
          simp only [Timer.step, hpc, if_pos hover]
        obtain ⟨ts₁, h₁⟩ := h.step (notRestarted_of_next hnext) htimeOut
        have hq₁ : QueueInv { s with pc := .timedOut t } ts := by
          refine h.queue.congr rfl rfl fun u hu => ?_
          rw [hpc] at hu
          cases hu
        have hpos : 0 < ts.length := List.length_pos_of_mem ((h.queue.mem t).mpr hqueued)
        have hlt : ts.length - 1 < n := by omega
        obtain ⟨fuel, rfl⟩ : ∃ k, fuel = k + 2 := ⟨fuel - 2, by omega⟩
        have hfuel₁ : 3 * (ts.length - 1) < fuel := by omega
        obtain ⟨fired, s', hrun, hserved⟩ := serve_timedOut (t := t) ⟨hq₁, h₁.expiry, h₁.awake⟩ rfl
          ⟨hqueued, hreached, hfirst⟩ hexit hcaller fun h₂ hlen hwaits hexit hcaller =>
            serve_waiting (ts.length - 1) h₂ hlen hwaits hexit hcaller hfuel₁
        have hall := provRun_step hnext htimeOut hrun
        rw [invoked_nil (by simp), List.nil_append] at hall
        exact ⟨fired, s', hall, hserved.congr (fun _ => Iff.rfl) (fun _ => rfl) rfl⟩
      · -- nothing is due
        have hnext : provNext s = none := by
          rw [provNext, hpc]
          exact if_neg hover
        refine ⟨[], s, ?_, served_nil hwaits fun u hu => hover (.inr ?_)⟩
        · simp only [provRun, hnext]
        · exact reached_of_not_earlier hvalid (hfirst u hu.1) hu.2
termination_by n => n

/-- The provider at the head of its loop. -/
theorem serve_loop (h : ServiceInv s ts) (hnext : provNext s = some .resume) (hstep : step s .resume = provLoop s)
    (hpc : ∀ t, s.pc ≠ .callback t) (hexit : s.exit = false) (hcaller : s.caller none = .idle) {fuel : Nat}
    (hfuel : 3 * ts.length < fuel) : ∃ fired s', provRun (fuel + 1) s = some (fired, s') ∧ Served s s' fired := by
  have hidle : ∀ u, (s.timer u).timerState ≠ .running := fun u hu => hpc u (h.queue.running u hu)
  obtain ⟨s₁, hs₁, hback, hne⟩ := provLoop_back h hnext hstep h.queue hidle hexit
  obtain ⟨ts₁, h₁, hlen⟩ := hback.inv
  apply serve_after hnext hs₁ hne hback fun u => ⟨Iff.rfl, rfl⟩
  apply serve_waiting _ h₁ hlen hback.waits (hback.exit.trans hexit) _ hfuel
  rw [hback.caller]
  exact hcaller

/-- **The provider serves what is due**, wherever it stands. -/
theorem serve_spec (h : ServiceInv s ts) (hexit : s.exit = false) (hcaller : s.caller none = .idle) {fuel : Nat}
    (hfuel : 3 * ts.length + 2 < fuel) : ∃ fired s', provRun fuel s = some (fired, s') ∧ Served s s' fired := by
  obtain ⟨fuel, rfl⟩ : ∃ k, fuel = k + 2 := ⟨fuel - 2, by omega⟩
  have hwaits := fun hw : Waits s => serve_waiting _ h rfl hw hexit hcaller (by omega : 3 * ts.length < fuel + 2)
  cases hpc : s.pc with
  | ready =>
    have hnext : provNext s = some .resume := by
      rw [provNext, hpc]
    have hstep : step s .resume = provLoop s := by
      simp only [Timer.step, hpc]
    apply serve_loop h hnext hstep _ hexit hcaller
    · omega
    · simp [hpc]
  | waitEmpty => exact hwaits (.inl ⟨hpc, h.awake.empty hpc⟩)
  | waitTimer t abstime =>
    obtain ⟨rfl, hqueued, hfirst⟩ := h.expiry.wait t abstime hpc
    exact hwaits (.inr ⟨t, hpc, hqueued, hfirst⟩)
  | timedOut t =>
    by_cases hqueued : (s.timer t).timerState = .queued
    · apply serve_timedOut h hpc (h.expiry.expired t hpc hqueued) hexit hcaller
      intro s₂ ts₂ h₂ hlen hwaits hexit hcaller
      apply serve_waiting _ h₂ hlen hwaits hexit hcaller
      omega
    · have hnext : provNext s = some .resume := by
        rw [provNext, hpc]
      have hstep : step s .resume = provLoop s := by
        simp only [Timer.step, hpc, provExpired, if_neg hqueued]
      apply serve_loop h hnext hstep _ hexit hcaller
      · omega
      · simp [hpc]
  | callback t =>
    have hnext : provNext s = some .callbackDone := by
      rw [provNext, hpc]
    obtain ⟨s₁, hdone, hne, hback⟩ := callback_back h hpc hexit hcaller
    obtain ⟨ts₁, h₁, hlen⟩ := hback.inv
    apply serve_after hnext hdone hne hback
    · intro u
      split
      · rename_i hrunning
        rw [setTimerState_timerState]
        by_cases hut : u = t
        · simp [hut, hrunning, setTimerState]
        · simp [hut, setTimerState]
      · exact ⟨Iff.rfl, rfl⟩
    · apply serve_waiting _ h₁ hlen hback.waits (hback.exit.trans hexit)
      · rw [hback.caller]
        exact hcaller
      · omega
  | exited =>
    have hexit' := h.awake.exited hpc
    rw [hexit] at hexit'
    cases hexit'

/-- **Due timers fire.**  Whatever the callers did before, if no timer was started too late for the provider to see
it, the provider on its own invokes the callback of each timer that is due, once and in the order of the timeouts,
and of no other timer; then it waits for the first of the timers that are left. -/
theorem due_timers_fire (clock : Nat) (es : List (Event T A)) (s : TimerProv T A)
    (hmeet : AllMeet step NotRestarted (provInit clock) es) (hrun : run step (provInit clock) es = some s)
    (hexit : s.exit = false) (hcaller : s.caller none = .idle) :
    ∃ fired s', provRun (3 * s.queue.count + 3) s = some (fired, s') ∧ Served s s' fired := by
  obtain ⟨ts, h⟩ : ∃ ts, ServiceInv s ts :=
    invariant (I := fun s => ∃ ts, ServiceInv s ts) (fun ⟨_, h⟩ hmeet hstep => h.step hmeet hstep) es
      ⟨[], serviceInv_init clock⟩ hmeet hrun
  have hcount : s.queue.count = ts.length := by
    rw [h.queue.queue.list.count, List.length_map]
  apply serve_spec h hexit hcaller
  omega

end

/-- Three timers, one of which is stopped; the wait for the first one was cut short by the start of an earlier one. -/
def threeTimers : List (Event (Fin 3) Unit) :=
  [.resume, .start (some ()) 0 20, .resume, .start (some ()) 1 10, .resume, .start (some ()) 2 15, .stop (some ()) 2,
    .start (some ()) 2 500, .tick 30000000]

theorem due_timers_fire_three : ∃ s, run step (provInit 0 : TimerProv (Fin 3) Unit) threeTimers = some s ∧
    ∃ fired s', provRun (3 * s.queue.count + 3) s = some (fired, s') ∧ Served s s' fired := by
  have hsome : ∃ s, run step (provInit 0 : TimerProv (Fin 3) Unit) threeTimers = some s ∧ s.exit = false ∧
      s.caller none = .idle := by
    refine ⟨_, rfl, ?_⟩
    decide +kernel
  obtain ⟨s, hrun, hexit, hcaller⟩ := hsome
  exact ⟨s, hrun, due_timers_fire 0 threeTimers s (by decide +kernel) hrun hexit hcaller⟩

end MlnxLib.Timer
