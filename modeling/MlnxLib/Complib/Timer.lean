import MlnxLib.Lib.Runs
import MlnxLib.Complib.Qlist

/-!
# Timers

Model of `cl_timer.c`: the timers, the queue of the provider, the provider thread `__cl_timer_prov_cb` and any
number of other threads.

* `ClTimer`, `TimerProv` — the timers and the provider, with the clock.
* `ProvPc`, `CallerPc` — where the provider thread and the callers stand while the mutex is free.
* `Event`, `step` — what happens while the mutex is held, up to where it is given back: a call of another thread
  or of a callback, an iteration of the provider, a wake-up of its wait, the passing of time.

A condition wait ends when it is signalled, at any time of its own accord, and a timed one when the time given
to it has come; the mutex is acquired some time after that, and other threads may come first.

Principal results: `timer_queue_sorted` — in every state of every run the queue is sorted by timeout and holds
the timers in state `CL_TIMER_QUEUED`, each once, at most one timer is `CL_TIMER_RUNNING`, and no step
follows a link to nowhere.
-/

set_option autoImplicit false

namespace MlnxLib.Timer

open Runs

/-! ## Time -/

/-- `struct timeval`. -/
structure Timeval where
  tvSec : Nat
  tvUsec : Nat
  deriving DecidableEq, Repr

/-- `struct timespec`. -/
structure Timespec where
  tvSec : Nat
  tvNsec : Nat
  deriving DecidableEq, Repr

/-- `gettimeofday`, with the clock in nanoseconds. -/
def gettimeofday (clock : Nat) : Timeval := ⟨clock / 1000000000, clock % 1000000000 / 1000⟩

/-- `timeradd`. -/
def timeradd (a b : Timeval) : Timeval :=
  let tvSec := a.tvSec + b.tvSec
  let tvUsec := a.tvUsec + b.tvUsec
  if 1000000 ≤ tvUsec then ⟨tvSec + 1, tvUsec - 1000000⟩ else ⟨tvSec, tvUsec⟩

/-- `__cl_timer_calculate`. -/
def clTimerCalculate (clock : Nat) (timeMs : UInt32) : Timespec :=
  let curtime := gettimeofday clock
  let deltatime := ⟨timeMs.toNat / 1000, timeMs.toNat % 1000 * 1000⟩
  let endtime := timeradd curtime deltatime
  ⟨endtime.tvSec, endtime.tvUsec * 1000⟩

/-- `__cl_timer_is_earlier`. -/
def clTimerIsEarlier (timeout₁ timeout₂ : Timespec) : Bool :=
  decide (timeout₁.tvSec < timeout₂.tvSec) ||
    (decide (timeout₁.tvSec = timeout₂.tvSec) && decide (timeout₁.tvNsec < timeout₂.tvNsec))

/-- The clock has reached a time. -/
def Timespec.reached (clock : Nat) (timeout : Timespec) : Prop :=
  timeout.tvSec * 1000000000 + timeout.tvNsec ≤ clock

instance (clock : Nat) (timeout : Timespec) : Decidable (timeout.reached clock) :=
  inferInstanceAs (Decidable (_ ≤ _))

theorem clTimerIsEarlier_iff {t u : Timespec} : clTimerIsEarlier t u = true ↔
    t.tvSec < u.tvSec ∨ (t.tvSec = u.tvSec ∧ t.tvNsec < u.tvNsec) := by
  simp [clTimerIsEarlier]

theorem not_earlier_iff {t u : Timespec} : clTimerIsEarlier t u = false ↔
    u.tvSec < t.tvSec ∨ (u.tvSec = t.tvSec ∧ u.tvNsec ≤ t.tvNsec) := by
  rw [Bool.eq_false_iff, ne_eq, clTimerIsEarlier_iff]
  omega

theorem not_earlier_self (t : Timespec) : clTimerIsEarlier t t = false :=
  not_earlier_iff.mpr (Or.inr ⟨rfl, Nat.le_refl _⟩)

theorem not_earlier_of_earlier {t u : Timespec} (h : clTimerIsEarlier t u = true) :
    clTimerIsEarlier u t = false := by
  rw [clTimerIsEarlier_iff] at h
  rw [not_earlier_iff]
  omega

theorem not_earlier_trans {t u v : Timespec} (h : clTimerIsEarlier u t = false)
    (h' : clTimerIsEarlier v u = false) : clTimerIsEarlier v t = false := by
  rw [not_earlier_iff] at h h' ⊢
  omega

/-! ## The provider -/

/-- `cl_timer_state_t`. -/
inductive ClTimerState where
  | idle
  | queued
  | running
  deriving DecidableEq, Repr

/-- The fields of `cl_timer_t` that change. -/
structure ClTimer where
  timerState : ClTimerState
  timeout : Timespec
  deriving DecidableEq, Repr

/-- A timer after `cl_timer_init`. -/
def clTimerInit : ClTimer := ⟨.idle, ⟨0, 0⟩⟩

/-- The nodes of the queue of the provider. -/
inductive QueueItem (T : Type) where
  | queueEnd
  | listItem (t : T)
  deriving DecidableEq, Repr

/-- Where the provider thread stands while the mutex is free. -/
inductive ProvPc (T : Type) where
  /-- About to go into its loop: it has been started, or its wait ended other than by a time-out. -/
  | ready
  /-- In `pthread_cond_wait`. -/
  | waitEmpty
  /-- In `pthread_cond_timedwait` on the timeout of `t`. -/
  | waitTimer (t : T) (abstime : Timespec)
  /-- The timed wait is over with `ETIMEDOUT` or `EINVAL`, and the mutex is not acquired yet. -/
  | timedOut (t : T)
  | callback (t : T)
  | exited
  deriving DecidableEq, Repr

/-- Where a caller stands while the mutex is free. -/
inductive CallerPc (T : Type) where
  | idle
  /-- In `cl_timer_trim`, before its call of `cl_timer_start`. -/
  | trim (t : T) (timeMs : UInt32)
  /-- In `cl_timer_stop`, in the wait for the callback to complete. -/
  | stop (t : T)
  deriving DecidableEq, Repr

/-- The provider with its timers `T`, the clock and the callers: `none` is the callback of a timer, and
`some a` another thread. -/
structure TimerProv (T A : Type) where
  clock : Nat
  timer : T → ClTimer
  queue : Qlist (QueueItem T)
  exit : Bool
  pc : ProvPc T
  caller : Option A → CallerPc T

section

variable {T A : Type} [DecidableEq T] [DecidableEq A]

/-- The state after `__cl_timer_prov_create` and `cl_timer_init` of every timer. -/
def provInit (clock : Nat) : TimerProv T A where
  clock := clock
  timer := fun _ => clTimerInit
  queue := ⟨clQlistInit (fun _ => Ring.Link.null) .queueEnd, 0⟩
  exit := false
  pc := .ready
  caller := fun _ => .idle

/-- A signal ends a wait of the provider. -/
def ProvPc.signal : ProvPc T → ProvPc T
  | .waitEmpty => .ready
  | .waitTimer _ _ => .ready
  | pc => pc

/-- `pthread_cond_signal` on the condition of the provider, which alone waits for it. -/
def condSignal (s : TimerProv T A) : TimerProv T A := { s with pc := s.pc.signal }

def setTimerState (s : TimerProv T A) (t : T) (timerState : ClTimerState) : TimerProv T A :=
  { s with timer := Function.update s.timer t { s.timer t with timerState := timerState } }

def setTimeout (s : TimerProv T A) (t : T) (timeout : Timespec) : TimerProv T A :=
  { s with timer := Function.update s.timer t { s.timer t with timeout := timeout } }

def removeItem (s : TimerProv T A) (t : T) : TimerProv T A :=
  { s with queue := clQlistRemoveItem s.queue .queueEnd (.listItem t) }

def setCaller (s : TimerProv T A) (a : Option A) (pc : CallerPc T) : TimerProv T A :=
  { s with caller := Function.update s.caller a pc }

/-- `__cl_timer_find`. -/
def clTimerFind (timeout : T → Timespec) (new : T) : QueueItem T → Bool
  | .listItem t => clTimerIsEarlier (timeout t) (timeout new)
  | .queueEnd => false

/-- The insertion into the queue in `cl_timer_start`. -/
def insertTimer (timeout : T → Timespec) (queue : Qlist (QueueItem T)) (t : T) :
    Option (Qlist (QueueItem T)) :=
  if clIsQlistEmpty queue then clQlistInsertHead queue .queueEnd (.listItem t)
  else (clQlistFindFromTail queue .queueEnd (clTimerFind timeout t)).bind fun listItem =>
    clQlistInsertNext queue listItem (.listItem t)

/-- `cl_timer_start`. -/
def clTimerStart (s : TimerProv T A) (t : T) (timeMs : UInt32) : Option (TimerProv T A) :=
  let s := condSignal s
  let s := if (s.timer t).timerState = .queued then removeItem s t else s
  let s := setTimeout s t (clTimerCalculate s.clock timeMs)
  (insertTimer (fun u => (s.timer u).timeout) s.queue t).map fun queue =>
    setTimerState { s with queue := queue } t .queued

/-- The case `CL_TIMER_QUEUED` of `cl_timer_stop`. -/
def stopQueued (s : TimerProv T A) (t : T) : TimerProv T A :=
  condSignal (removeItem (setTimerState s t .idle) t)

/-- `cl_timer_stop`, up to the wait for the callback. -/
def clTimerStop (s : TimerProv T A) (a : Option A) (t : T) : TimerProv T A :=
  match (s.timer t).timerState with
  | .running => setCaller s a (.stop t)
  | .queued => stopQueued s t
  | .idle => s

/-- `cl_timer_stop` after the wait for the callback. -/
def clTimerStopped (s : TimerProv T A) (a : Option A) (t : T) : TimerProv T A :=
  setCaller (if (s.timer t).timerState = .queued then stopQueued s t else s) a .idle

/-- `cl_timer_trim`, up to its call of `cl_timer_start`. -/
def clTimerTrim (s : TimerProv T A) (a : Option A) (t : T) (timeMs : UInt32) : TimerProv T A :=
  let newtime := clTimerCalculate s.clock timeMs
  if (s.timer t).timerState = .queued && clTimerIsEarlier (s.timer t).timeout newtime then s
  else setCaller s a (.trim t timeMs)

/-- The loop of `__cl_timer_prov_cb` from its test up to a wait. -/
def provLoop (s : TimerProv T A) : Option (TimerProv T A) :=
  if s.exit then some { s with pc := .exited } else
  if clIsQlistEmpty s.queue then some { s with pc := .waitEmpty } else
  match clQlistHead s.queue.links .queueEnd with
  | some (.listItem t) => some { s with pc := .waitTimer t (s.timer t).timeout }
  | _ => none

/-- What the timed wait waits for: a time of no clock (`EINVAL`), or a time that has come (`ETIMEDOUT`). -/
def timedWaitOver (clock : Nat) (abstime : Timespec) : Prop :=
  1000000000 ≤ abstime.tvNsec ∨ abstime.reached clock

instance (clock : Nat) (abstime : Timespec) : Decidable (timedWaitOver clock abstime) :=
  inferInstanceAs (Decidable (_ ∨ _))

/-- `__cl_timer_prov_cb` after a time-out, up to the callback or the next wait. -/
def provExpired (s : TimerProv T A) (t : T) : Option (TimerProv T A) :=
  if (s.timer t).timerState = .queued then
    some { removeItem (setTimerState s t .running) t with pc := .callback t }
  else provLoop s

/-- `__cl_timer_prov_cb` after the callback. -/
def provCallbackDone (s : TimerProv T A) (t : T) : Option (TimerProv T A) :=
  provLoop (if (s.timer t).timerState = .running then setTimerState s t .idle else s)

/-! ## Steps -/

inductive Event (T A : Type) where
  | tick (d : Nat)
  | start (a : Option A) (t : T) (timeMs : UInt32)
  | trim (a : Option A) (t : T) (timeMs : UInt32)
  /-- `cl_timer_trim` calls `cl_timer_start`. -/
  | trimStart (a : Option A)
  | stop (a : Option A) (t : T)
  /-- The wait of `cl_timer_stop` ends, signalled or not. -/
  | stopped (a : Option A)
  /-- `__cl_timer_prov_destroy` sets `exit`. -/
  | destroy
  /-- The wait of the provider ends of its own accord. -/
  | wakeUp
  /-- The timed wait of the provider is over. -/
  | timeOut
  /-- The provider acquires the mutex after a wait. -/
  | resume
  /-- The callback returns, and the provider acquires the mutex. -/
  | callbackDone
  deriving DecidableEq, Repr

/-- A caller is in no call; a callback makes calls while it runs. -/
def MayCall (s : TimerProv T A) (a : Option A) : Prop :=
  s.caller a = .idle ∧ (a = none → ∃ t, s.pc = .callback t)

instance (s : TimerProv T A) : ∀ a : Option A, Decidable (MayCall s a)
  | some a => decidable_of_iff (s.caller (some a) = .idle) (by simp [MayCall])
  | none =>
    match h : s.pc with
    | .callback t => decidable_of_iff (s.caller none = .idle) (by simp [MayCall, h])
    | .ready => isFalse (by simp [MayCall, h])
    | .waitEmpty => isFalse (by simp [MayCall, h])
    | .waitTimer _ _ => isFalse (by simp [MayCall, h])
    | .timedOut _ => isFalse (by simp [MayCall, h])
    | .exited => isFalse (by simp [MayCall, h])

/-- One step; `none` if it is not enabled, or would follow a link to nowhere. -/
def step (s : TimerProv T A) : Event T A → Option (TimerProv T A)
  | .tick d => some { s with clock := s.clock + d }
  | .start a t timeMs => if MayCall s a then clTimerStart s t timeMs else none
  | .trim a t timeMs => if MayCall s a then some (clTimerTrim s a t timeMs) else none
  | .trimStart a =>
    match s.caller a with
    | .trim t timeMs => clTimerStart (setCaller s a .idle) t timeMs
    | _ => none
  | .stop a t => if MayCall s a then some (clTimerStop s a t) else none
  | .stopped a =>
    match s.caller a with
    | .stop t => some (clTimerStopped s a t)
    | _ => none
  | .destroy => some (condSignal { s with exit := true })
  | .wakeUp =>
    match s.pc with
    | .waitEmpty => some { s with pc := .ready }
    | .waitTimer _ _ => some { s with pc := .ready }
    | _ => none
  | .timeOut =>
    match s.pc with
    | .waitTimer t abstime =>
      if timedWaitOver s.clock abstime then some { s with pc := .timedOut t } else none
    | _ => none
  | .resume =>
    match s.pc with
    | .ready => provLoop s
    | .timedOut t => provExpired s t
    | _ => none
  | .callbackDone =>
    match s.pc with
    | .callback t => if s.caller none = .idle then provCallbackDone s t else none
    | _ => none

end

/-! ## The queue -/

section

variable {T : Type} {timeout timeout' : T → Timespec} {queue : Qlist (QueueItem T)} {ts : List T} {t : T}

/-- The queue holds the timers `ts`, in the order of their timeouts. -/
structure SortedQueue (timeout : T → Timespec) (queue : Qlist (QueueItem T)) (ts : List T) : Prop where
  list : IsQlist queue .queueEnd (ts.map .listItem)
  sorted : ts.Pairwise fun t u => clTimerIsEarlier (timeout u) (timeout t) = false

namespace SortedQueue

theorem nodup (h : SortedQueue timeout queue ts) : ts.Nodup := List.Nodup.of_map _ h.list.ring.nodup

theorem congr (h : SortedQueue timeout queue ts) (heq : ∀ u ∈ ts, timeout' u = timeout u) :
    SortedQueue timeout' queue ts := by
  refine ⟨h.list, h.sorted.imp_of_mem fun {u v} hu hv hle => ?_⟩
  rw [heq u hu, heq v hv]
  exact hle

theorem isEmpty_iff (h : SortedQueue timeout queue ts) : clIsQlistEmpty queue = true ↔ ts = [] := by
  rw [h.list.isEmpty_iff, List.map_eq_nil_iff]

/-- The last of the timers that are earlier than a time bounds all of them. -/
theorem not_earlier_of_getLast {as : List T} {time : Timespec}
    (hsorted : as.Pairwise fun t u => clTimerIsEarlier (timeout u) (timeout t) = false)
    (hlast : ∀ a ∈ as.getLast?, clTimerIsEarlier (timeout a) time = true) {a : T} (ha : a ∈ as) :
    clTimerIsEarlier time (timeout a) = false := by
  rcases List.eq_nil_or_concat as with rfl | ⟨as, l, rfl⟩
  · cases ha
  · rw [List.concat_eq_append] at hsorted hlast ha
    have hl := not_earlier_of_earlier (hlast l (by simp))
    rcases List.mem_append.mp ha with ha | ha
    · have hal := (List.pairwise_append.mp hsorted).2.2 a ha l (by simp)
      exact not_earlier_trans hal hl
    · rw [List.mem_singleton.mp ha]
      exact hl

variable [DecidableEq T]

/-- **A timer is taken out of the queue.** -/
theorem remove (h : SortedQueue timeout queue ts) (ht : t ∈ ts) :
    SortedQueue timeout (clQlistRemoveItem queue .queueEnd (.listItem t)) (ts.erase t) := by
  obtain ⟨as, bs, rfl⟩ := List.append_of_mem ht
  have hnot : t ∉ as := fun hm => List.disjoint_of_nodup_append h.nodup hm (List.mem_cons_self ..)
  have hlist := h.list
  rw [List.map_append, List.map_cons] at hlist
  refine ⟨?_, h.sorted.sublist (List.erase_sublist ..)⟩
  rw [List.erase_append_right _ hnot, List.erase_cons_head, List.map_append]
  exact hlist.removeItem

/-- **A timer is put into the queue**, after the last timer that is earlier. -/
theorem insert (h : SortedQueue timeout queue ts) (ht : t ∉ ts) : ∃ queue' as bs,
    insertTimer timeout queue t = some queue' ∧ ts = as ++ bs ∧
      SortedQueue timeout queue' (as ++ t :: bs) := by
  have hnot : .listItem t ∉ .queueEnd :: ts.map (QueueItem.listItem) := by simpa using ht
  by_cases hempty : clIsQlistEmpty queue = true
  · obtain ⟨queue', hins, hlist⟩ := h.list.insertHead hnot
    obtain rfl := h.isEmpty_iff.mp hempty
    refine ⟨queue', [], [], ?_, rfl, hlist, List.pairwise_singleton _ _⟩
    rw [insertTimer, if_pos hempty, hins]
  · obtain ⟨cs, ds, hts, hds, hcs, hfind⟩ := h.list.findFromTail (clTimerFind timeout t)
    obtain ⟨as, bs, rfl, rfl, rfl⟩ := List.map_eq_append_iff.mp hts
    rw [List.map_append] at hnot
    have hlist := h.list
    rw [List.map_append] at hlist
    obtain ⟨queue', hins, hlist'⟩ := hlist.insertNext hnot
    obtain ⟨has, hbs, hcross⟩ := List.pairwise_append.mp h.sorted
    have hearlier : ∀ a ∈ as.getLast?, clTimerIsEarlier (timeout a) (timeout t) = true := by
      intro a ha
      refine hcs (.listItem a) ?_
      rw [List.getLast?_map, Option.mem_def.mp ha]
      rfl
    have hlater : ∀ b ∈ bs, clTimerIsEarlier (timeout b) (timeout t) = false :=
      fun b hb => hds (.listItem b) (List.mem_map_of_mem hb)
    refine ⟨queue', as, bs, ?_, rfl, ?_, ?_⟩
    · rw [insertTimer, if_neg hempty, hfind, Option.bind_some, hins]
    · rw [List.map_append, List.map_cons]
      exact hlist'
    · rw [List.pairwise_append, List.pairwise_cons]
      refine ⟨has, ⟨hlater, hbs⟩, fun a ha b hb => ?_⟩
      rcases List.mem_cons.mp hb with rfl | hb
      · exact not_earlier_of_getLast has hearlier ha
      · exact hcross a ha b hb

end SortedQueue

end

/-! ## The invariant of the queue -/

section

variable {T A : Type} {s s' : TimerProv T A} {ts : List T} {t : T}

/-- The queue holds the timers `ts`, which are those that are queued; a timer is running in its callback. -/
structure QueueInv (s : TimerProv T A) (ts : List T) : Prop where
  queue : SortedQueue (fun t => (s.timer t).timeout) s.queue ts
  mem : ∀ t, t ∈ ts ↔ (s.timer t).timerState = .queued
  running : ∀ t, (s.timer t).timerState = .running → s.pc = .callback t

@[simp] theorem signal_eq_callback {pc : ProvPc T} : pc.signal = .callback t ↔ pc = .callback t := by
  cases pc <;> simp [ProvPc.signal]

@[simp] theorem signal_eq_timedOut {pc : ProvPc T} : pc.signal = .timedOut t ↔ pc = .timedOut t := by
  cases pc <;> simp [ProvPc.signal]

theorem signal_ne_waitTimer (pc : ProvPc T) (t : T) (abstime : Timespec) :
    pc.signal ≠ .waitTimer t abstime := by
  cases pc <;> simp [ProvPc.signal]

theorem QueueInv.congr (h : QueueInv s ts) (htimer : s'.timer = s.timer) (hqueue : s'.queue = s.queue)
    (hpc : ∀ t, s.pc = .callback t → s'.pc = .callback t) : QueueInv s' ts := by
  refine ⟨?_, ?_, ?_⟩
  · rw [htimer, hqueue]
    exact h.queue
  · rw [htimer]
    exact h.mem
  · rw [htimer]
    exact fun t ht => hpc t (h.running t ht)

/-- Where the loop of the provider stops. -/
inductive LoopPc (timer : T → ClTimer) : List T → ProvPc T → Prop where
  | exited {ts : List T} : LoopPc timer ts .exited
  | waitEmpty : LoopPc timer [] .waitEmpty
  | waitTimer {t : T} {ts : List T} : LoopPc timer (t :: ts) (.waitTimer t (timer t).timeout)

/-- **The loop of the provider** waits for the head of the queue. -/
theorem QueueInv.loop (h : QueueInv s ts) (hidle : ∀ t, (s.timer t).timerState ≠ .running) :
    ∃ pc, provLoop s = some { s with pc := pc } ∧ LoopPc s.timer ts pc ∧
      QueueInv { s with pc := pc } ts := by
  have hinv : ∀ pc, QueueInv { s with pc := pc } ts :=
    fun pc => ⟨h.queue, h.mem, fun t ht => absurd ht (hidle t)⟩
  unfold provLoop
  by_cases hexit : s.exit = true
  · exact ⟨_, if_pos hexit, .exited, hinv _⟩
  · rw [if_neg hexit]
    by_cases hempty : clIsQlistEmpty s.queue = true
    · obtain rfl := h.queue.isEmpty_iff.mp hempty
      exact ⟨_, if_pos hempty, .waitEmpty, hinv _⟩
    · rw [if_neg hempty, h.queue.list.head]
      cases ts with
      | nil => exact absurd (h.queue.isEmpty_iff.mpr rfl) hempty
      | cons t ts => exact ⟨_, rfl, .waitTimer, hinv _⟩

theorem QueueInv.trim [DecidableEq A] (h : QueueInv s ts) (a : Option A) (t : T) (timeMs : UInt32) :
    QueueInv (clTimerTrim s a t timeMs) ts := by
  unfold clTimerTrim
  dsimp only
  split
  · exact h
  · exact h.congr rfl rfl fun _ => id

variable [DecidableEq T]

theorem queueInv_init (clock : Nat) : QueueInv (provInit clock : TimerProv T A) [] := by
  refine ⟨⟨isQlist_init _ _, List.Pairwise.nil⟩, fun t => ?_, fun t ht => ?_⟩
  · simp [provInit, clTimerInit]
  · simp [provInit, clTimerInit] at ht

theorem setTimerState_timeout (s : TimerProv T A) (t u : T) (st : ClTimerState) :
    ((setTimerState s t st).timer u).timeout = (s.timer u).timeout := by
  by_cases hu : u = t
  · subst hu
    simp [setTimerState]
  · simp [setTimerState, hu]

theorem setTimerState_timerState (s : TimerProv T A) (t u : T) (st : ClTimerState) :
    ((setTimerState s t st).timer u).timerState = if u = t then st else (s.timer u).timerState := by
  by_cases hu : u = t
  · subst hu
    simp [setTimerState]
  · simp [setTimerState, hu]

/-- **A queued timer leaves the queue** with another state. -/
theorem QueueInv.leave (h : QueueInv s ts) (ht : (s.timer t).timerState = .queued) {st : ClTimerState}
    (hst : st ≠ .queued) {pc : ProvPc T}
    (hpc : ∀ u, (if u = t then st else (s.timer u).timerState) = .running → pc = .callback u) :
    QueueInv { removeItem (setTimerState s t st) t with pc := pc } (ts.erase t) := by
  refine ⟨?_, fun u => ?_, fun u hu => ?_⟩
  · refine (h.queue.remove ((h.mem t).mpr ht)).congr fun u _ => ?_
    exact setTimerState_timeout s t u st
  · rw [h.queue.nodup.mem_erase_iff, h.mem]
    change _ ↔ ((setTimerState s t st).timer u).timerState = .queued
    rw [setTimerState_timerState]
    by_cases hu : u = t
    · simp [hu, hst]
    · simp [hu]
  · change ((setTimerState s t st).timer u).timerState = .running at hu
    rw [setTimerState_timerState] at hu
    exact hpc u hu

theorem QueueInv.stopQueued (h : QueueInv s ts) (ht : (s.timer t).timerState = .queued) :
    QueueInv (stopQueued s t) (ts.erase t) := by
  refine h.leave ht (by simp) fun u hu => ?_
  by_cases hut : u = t
  · simp [hut] at hu
  · rw [if_neg hut] at hu
    exact signal_eq_callback.mpr (h.running u hu)

/-- What `cl_timer_start` leaves: the timer is queued with its new timeout. -/
structure Started (s : TimerProv T A) (t : T) (timeMs : UInt32) (s' : TimerProv T A) : Prop where
  timer : s'.timer = Function.update s.timer t ⟨.queued, clTimerCalculate s.clock timeMs⟩
  pc : s'.pc = s.pc.signal
  clock : s'.clock = s.clock
  exit : s'.exit = s.exit
  caller : s'.caller = s.caller

/-- A start leaves the other timers as they are. -/
theorem Started.running_iff {timeMs : UInt32} (h : Started s t timeMs s') {u : T} :
    (s'.timer u).timerState = .running ↔ (s.timer u).timerState = .running ∧ some t ≠ some u := by
  rw [h.timer]
  by_cases hu : u = t
  · simp [hu]
  · simp [hu, Ne.symm hu]

/-- **`cl_timer_start`** queues the timer. -/
theorem QueueInv.start (h : QueueInv s ts) (t : T) (timeMs : UInt32) :
    ∃ s' ts', clTimerStart s t timeMs = some s' ∧ QueueInv s' ts' ∧ Started s t timeMs s' := by
  -- the queue without the timer
  have hout : SortedQueue (fun u => (s.timer u).timeout)
      (if (s.timer t).timerState = .queued then removeItem (condSignal s) t else condSignal s).queue
      (ts.erase t) := by
    by_cases ht : (s.timer t).timerState = .queued
    · rw [if_pos ht]
      exact h.queue.remove ((h.mem t).mpr ht)
    · rw [if_neg ht, List.erase_of_not_mem fun hm => ht ((h.mem t).mp hm)]
      exact h.queue
  have hnot : t ∉ ts.erase t := h.queue.nodup.not_mem_erase
  generalize hs₁ : (if (s.timer t).timerState = .queued then removeItem (condSignal s) t
    else condSignal s) = s₁ at hout
  have hsame : s₁.timer = s.timer ∧ s₁.pc = s.pc.signal ∧ s₁.clock = s.clock ∧ s₁.exit = s.exit ∧
      s₁.caller = s.caller := by
    rw [← hs₁]
    split
    · exact ⟨rfl, rfl, rfl, rfl, rfl⟩
    · exact ⟨rfl, rfl, rfl, rfl, rfl⟩
  obtain ⟨htimer, hpc, hclock, hexit, hcaller⟩ := hsame
  have htimeout : ∀ u ∈ ts.erase t, ((setTimeout s₁ t (clTimerCalculate s₁.clock timeMs)).timer u).timeout =
      (s.timer u).timeout := by
    intro u hu
    have hut : u ≠ t := by
      rintro rfl
      exact hnot hu
    simp [setTimeout, hut, htimer]
  obtain ⟨queue', as, bs, hins, hts, hqueue⟩ := (hout.congr htimeout).insert hnot
  have htimer' : (setTimerState { setTimeout s₁ t (clTimerCalculate s₁.clock timeMs) with queue := queue' }
      t .queued).timer = Function.update s.timer t ⟨.queued, clTimerCalculate s.clock timeMs⟩ := by
    simp [setTimerState, setTimeout, htimer, hclock]
  refine ⟨_, as ++ t :: bs, ?_, ⟨?_, fun u => ?_, fun u hu => ?_⟩, htimer', hpc, hclock, hexit, hcaller⟩
  · unfold clTimerStart
    dsimp only
    rw [show ((condSignal s).timer t).timerState = (s.timer t).timerState from rfl, hs₁]
    change (insertTimer _ s₁.queue t).map _ = _
    rw [hins, Option.map_some]
  · exact hqueue.congr fun u _ => setTimerState_timeout _ t u .queued
  · have hmem : u ∈ as ++ t :: bs ↔ u = t ∨ u ∈ ts.erase t := by
      rw [hts]
      simp only [List.mem_append, List.mem_cons]
      tauto
    rw [hmem, htimer', h.queue.nodup.mem_erase_iff, h.mem]
    by_cases hu : u = t
    · simp [hu]
    · simp [hu]
  · rw [htimer'] at hu
    change s₁.pc = _
    by_cases hut : u = t
    · simp [hut] at hu
    · rw [Function.update_of_ne hut] at hu
      rw [hpc]
      exact signal_eq_callback.mpr (h.running u hu)

/-- After a time-out the provider runs the timer, or goes on when it is not queued any more. -/
theorem QueueInv.expired (h : QueueInv s ts) (hpc : s.pc = .timedOut t) :
    ∃ s' ts', provExpired s t = some s' ∧ QueueInv s' ts' := by
  have hidle : ∀ u, (s.timer u).timerState ≠ .running := by
    intro u hu
    have hcallback := h.running u hu
    rw [hpc] at hcallback
    cases hcallback
  unfold provExpired
  by_cases ht : (s.timer t).timerState = .queued
  · refine ⟨_, _, if_pos ht, h.leave ht (by simp) fun u hu => ?_⟩
    by_cases hut : u = t
    · rw [hut]
    · rw [if_neg hut] at hu
      exact absurd hu (hidle u)
  · rw [if_neg ht]
    obtain ⟨pc, hloop, -, hinv⟩ := h.loop hidle
    exact ⟨_, _, hloop, hinv⟩

/-- After the callback no timer is running. -/
theorem QueueInv.idle (h : QueueInv s ts) (hpc : s.pc = .callback t) :
    QueueInv (if (s.timer t).timerState = .running then setTimerState s t .idle else s) ts ∧
    ∀ u, ((if (s.timer t).timerState = .running then setTimerState s t .idle else s).timer u).timerState ≠
      .running := by
  have honly : ∀ u, (s.timer u).timerState = .running → u = t := by
    intro u hu
    have hcallback := h.running u hu
    rw [hpc] at hcallback
    cases hcallback
    rfl
  by_cases ht : (s.timer t).timerState = .running
  · rw [if_pos ht]
    have hidle : ∀ u, ((setTimerState s t .idle).timer u).timerState ≠ .running := by
      intro u
      rw [setTimerState_timerState]
      by_cases hut : u = t
      · simp [hut]
      · rw [if_neg hut]
        exact fun hu => hut (honly u hu)
    refine ⟨⟨h.queue.congr fun u _ => setTimerState_timeout s t u .idle, fun u => ?_,
      fun u hu => absurd hu (hidle u)⟩, hidle⟩
    rw [setTimerState_timerState, h.mem]
    by_cases hut : u = t
    · simp [hut, ht]
    · rw [if_neg hut]
  · rw [if_neg ht]
    exact ⟨h, fun u hu => ht (honly u hu ▸ hu)⟩

theorem QueueInv.callbackDone (h : QueueInv s ts) (hpc : s.pc = .callback t) :
    ∃ s' ts', provCallbackDone s t = some s' ∧ QueueInv s' ts' := by
  obtain ⟨hinv, hidle⟩ := h.idle hpc
  obtain ⟨pc, hloop, -, hinv'⟩ := hinv.loop hidle
  exact ⟨_, _, hloop, hinv'⟩

theorem QueueInv.stop [DecidableEq A] (h : QueueInv s ts) (a : Option A) (t : T) :
    ∃ ts', QueueInv (clTimerStop s a t) ts' := by
  unfold clTimerStop
  split
  · exact ⟨ts, h.congr rfl rfl fun _ => id⟩
  · rename_i ht
    exact ⟨_, h.stopQueued ht⟩
  · exact ⟨ts, h⟩

theorem QueueInv.stopped [DecidableEq A] (h : QueueInv s ts) (a : Option A) (t : T) :
    ∃ ts', QueueInv (clTimerStopped s a t) ts' := by
  unfold clTimerStopped
  by_cases ht : (s.timer t).timerState = .queued
  · rw [if_pos ht]
    exact ⟨_, (h.stopQueued ht).congr rfl rfl fun _ => id⟩
  · rw [if_neg ht]
    exact ⟨ts, h.congr rfl rfl fun _ => id⟩

/-! ## Every run -/

variable [DecidableEq A]

/-- What may happen in a state. -/
def Enabled (s : TimerProv T A) : Event T A → Prop
  | .start a _ _ => MayCall s a
  | .trim a _ _ => MayCall s a
  | .trimStart a => ∃ t timeMs, s.caller a = .trim t timeMs
  | .stop a _ => MayCall s a
  | .stopped a => ∃ t, s.caller a = .stop t
  | .wakeUp => s.pc = .waitEmpty ∨ ∃ t abstime, s.pc = .waitTimer t abstime
  | .timeOut => ∃ t abstime, s.pc = .waitTimer t abstime ∧ timedWaitOver s.clock abstime
  | .resume => s.pc = .ready ∨ ∃ t, s.pc = .timedOut t
  | .callbackDone => (∃ t, s.pc = .callback t) ∧ s.caller none = .idle
  | _ => True

/-- **A step that may happen follows no link to nowhere, and keeps the invariant.** -/
theorem QueueInv.step_of_enabled (h : QueueInv s ts) {e : Event T A} (he : Enabled s e) :
    ∃ s' ts', step s e = some s' ∧ QueueInv s' ts' := by
  cases e with
  | tick d => exact ⟨_, ts, rfl, h.congr rfl rfl fun _ => id⟩
  | start a t timeMs =>
    obtain ⟨s', ts', hs', hinv, -⟩ := h.start t timeMs
    exact ⟨s', ts', (if_pos he).trans hs', hinv⟩
  | trim a t timeMs => exact ⟨_, ts, if_pos he, h.trim a t timeMs⟩
  | trimStart a =>
    obtain ⟨t, timeMs, ha⟩ := he
    have hidle : QueueInv (setCaller s a .idle) ts := h.congr rfl rfl fun _ => id
    obtain ⟨s', ts', hs', hinv, -⟩ := hidle.start t timeMs
    exact ⟨s', ts', by simp only [step, ha, hs'], hinv⟩
  | stop a t =>
    obtain ⟨ts', hinv⟩ := h.stop a t
    exact ⟨_, ts', if_pos he, hinv⟩
  | stopped a =>
    obtain ⟨t, ha⟩ := he
    obtain ⟨ts', hinv⟩ := h.stopped a t
    exact ⟨_, ts', by simp only [step, ha], hinv⟩
  | destroy => exact ⟨_, ts, rfl, h.congr rfl rfl fun _ => signal_eq_callback.mpr⟩
  | wakeUp =>
    obtain hpc | ⟨t, abstime, hpc⟩ := he
    · exact ⟨{ s with pc := .ready }, ts, by simp only [step, hpc],
        h.congr rfl rfl fun t ht => by rw [hpc] at ht; cases ht⟩
    · exact ⟨{ s with pc := .ready }, ts, by simp only [step, hpc],
        h.congr rfl rfl fun t ht => by rw [hpc] at ht; cases ht⟩
  | timeOut =>
    obtain ⟨t, abstime, hpc, hover⟩ := he
    exact ⟨{ s with pc := .timedOut t }, ts, by simp only [step, hpc, if_pos hover],
      h.congr rfl rfl fun t ht => by rw [hpc] at ht; cases ht⟩
  | resume =>
    obtain hpc | ⟨t, hpc⟩ := he
    · obtain ⟨pc, hloop, -, hinv⟩ := h.loop fun t ht => by
        have hcallback := h.running t ht
        rw [hpc] at hcallback
        cases hcallback
      exact ⟨_, ts, by simp only [step, hpc, hloop], hinv⟩
    · obtain ⟨s', ts', hs', hinv⟩ := h.expired hpc
      exact ⟨s', ts', by simp only [step, hpc, hs'], hinv⟩
  | callbackDone =>
    obtain ⟨⟨t, hpc⟩, hidle⟩ := he
    obtain ⟨s', ts', hs', hinv⟩ := h.callbackDone hpc
    exact ⟨s', ts', by simp only [step, hpc, if_pos hidle, hs'], hinv⟩

/-- A step that is taken may happen. -/
theorem enabled_of_step {e : Event T A} (hstep : step s e = some s') : Enabled s e := by
  cases e with
  | tick d => trivial
  | destroy => trivial
  | start a t timeMs =>
    simp only [step, Option.ite_none_right_eq_some] at hstep
    exact hstep.1
  | trim a t timeMs =>
    simp only [step, Option.ite_none_right_eq_some] at hstep
    exact hstep.1
  | stop a t =>
    simp only [step, Option.ite_none_right_eq_some] at hstep
    exact hstep.1
  | trimStart a =>
    simp only [step] at hstep
    split at hstep
    · exact ⟨_, _, by assumption⟩
    · cases hstep
  | stopped a =>
    simp only [step] at hstep
    split at hstep
    · exact ⟨_, by assumption⟩
    · cases hstep
  | wakeUp =>
    simp only [step] at hstep
    split at hstep
    · exact Or.inl (by assumption)
    · exact Or.inr ⟨_, _, by assumption⟩
    · cases hstep
  | timeOut =>
    simp only [step] at hstep
    split at hstep
    · rw [Option.ite_none_right_eq_some] at hstep
      exact ⟨_, _, by assumption, hstep.1⟩
    · cases hstep
  | resume =>
    simp only [step] at hstep
    split at hstep
    · exact Or.inl (by assumption)
    · exact Or.inr ⟨_, by assumption⟩
    · cases hstep
  | callbackDone =>
    simp only [step] at hstep
    split at hstep
    · rw [Option.ite_none_right_eq_some] at hstep
      exact ⟨⟨_, by assumption⟩, hstep.1⟩
    · cases hstep

theorem QueueInv.step (h : QueueInv s ts) {e : Event T A} (hstep : step s e = some s') :
    ∃ ts', QueueInv s' ts' := by
  obtain ⟨s₁, ts', hs₁, hinv⟩ := h.step_of_enabled (enabled_of_step hstep)
  cases Option.some.inj (hs₁.symm.trans hstep)
  exact ⟨ts', hinv⟩

/-- What the queue of the provider is for. -/
structure QueueOk (s : TimerProv T A) : Prop where
  /-- The queue is sorted by timeout, and holds the timers that are queued, each once. -/
  queue : ∃ ts : List T, IsQlist s.queue .queueEnd (ts.map .listItem) ∧ ts.Nodup ∧
    (ts.Pairwise fun t u => clTimerIsEarlier (s.timer u).timeout (s.timer t).timeout = false) ∧
    ∀ t, t ∈ ts ↔ (s.timer t).timerState = .queued
  running : ∀ t u, (s.timer t).timerState = .running → (s.timer u).timerState = .running → t = u
  /-- What may happen next goes through. -/
  next : ∀ e, Enabled s e → (Timer.step s e).isSome = true

theorem QueueInv.ok (h : QueueInv s ts) : QueueOk s := by
  refine ⟨⟨ts, h.queue.list, h.queue.nodup, h.queue.sorted, h.mem⟩, fun t u ht hu => ?_, fun e he => ?_⟩
  · have heq := (h.running t ht).symm.trans (h.running u hu)
    exact ProvPc.callback.inj heq
  · obtain ⟨s', -, hs', -⟩ := h.step_of_enabled he
    rw [hs']
    rfl

/-- **The queue of the timers.**  Whatever threads and callbacks start, stop and trim timers, and however the
provider is woken, in every state in which the mutex is free the queue is sorted by timeout and holds exactly
the queued timers, each once, and at most one timer is running. -/
theorem timer_queue_sorted (clock : Nat) (es : List (Event T A)) :
    Throughout Timer.step QueueOk (provInit clock : TimerProv T A) es :=
  throughout_of_step (I := fun s => ∃ ts, QueueInv s ts) (fun ⟨_, h⟩ hstep => h.step hstep)
    (fun _ ⟨_, h⟩ => h.ok) es ⟨[], queueInv_init clock⟩

end

end MlnxLib.Timer
