import MlnxLib.CtrlLearn.LifeCycle

/-!
# What the life cycle keeps

In the runs of the life cycle nothing is destroyed before a deinit has joined the thread, and after
that no thread is left.

* `Meets` — the condition on a step; it leaves out an init whose thread is not created, an init after a
  deinit that left the stop signal set, calls that come after a deinit and touch what it destroyed, and a
  deinit that leaves a thread of an earlier init.
* `Inv` — the ledger, the phase of the life cycle, the calls that returned, and the call on its way.

Principal result: `threadStep_inv` — a step of a thread keeps the invariant.
-/

set_option autoImplicit false

namespace MlnxLib.CtrlLearn.LifeCycle

open Ledger Runs

/-! ## The condition -/

/-- The thread runs. -/
def Alive (threads : Nat → Option Pc) (k : Nat) : Prop := (threads k).any (· != .exited) = true

instance (threads : Nat → Option Pc) (k : Nat) : Decidable (Alive threads k) :=
  inferInstanceAs (Decidable (_ = true))

theorem alive_iff {threads : Nat → Option Pc} {k : Nat} :
    Alive threads k ↔ ∃ pc, threads k = some pc ∧ pc ≠ .exited := by
  simp [Alive, Option.any_eq_true]

theorem alive_update {threads : Nat → Option Pc} {j k : Nat} {pc : Option Pc}
    (h : Alive (Function.update threads j pc) k) : k = j ∨ Alive threads k := by
  by_cases hk : k = j
  · exact .inl hk
  · rw [Alive, Function.update_of_ne hk] at h
    exact .inr h

/-- A deinit has joined the thread. -/
def State.isDown (s : State) : Bool := s.isCtrlLearnInitialized && !s.ctrlLearnThread.live

/-- The action that comes next. -/
def State.next (s : State) : Option Action := s.caller.bind fun c => c.pending.head?

/-- **The condition on a step.**  After a deinit has joined the thread, a start or a stop finds what
it touches created again, and there is no second deinit.  The thread is created when an init asks for
it, and no deinit has left the stop signal set.  When a deinit joins the thread, the threads of
earlier inits have ended. -/
def Meets (s : State) : Event → Prop
  | .call .init => True
  | .call .start => s.isDown = true → s.waitForStartEvent.live = true
  | .call .stop => s.isDown = true →
    (if s.isCtrlLearnStart then (s.pipes .quit).live else s.waitForStartEvent.live) = true
  | .call .deinit => s.isDown = false
  | .caller ok =>
    (s.next = some .threadInit → ok = true ∧ (s.deinitSince = true → s.ctrlLearnStopSignal = false)) ∧
    (s.next = some .threadDestroy → ∀ k ≤ s.inits, k ≠ s.ctrlLearnThread.gen → ¬Alive s.threads k)
  | .thread _ _ => True

instance : ∀ (s : State) (e : Event), Decidable (Meets s e)
  | _, .call .init => isTrue trivial
  | _, .call .start => inferInstanceAs (Decidable (_ → _))
  | _, .call .stop => inferInstanceAs (Decidable (_ → _))
  | _, .call .deinit => inferInstanceAs (Decidable (_ = _))
  | _, .caller _ => inferInstanceAs (Decidable ((_ → _) ∧ (_ → _)))
  | _, .thread _ _ => isTrue trivial

/-! ## The invariant -/

def Resource.gen : Resource → Nat
  | .fd _ _ gen => gen
  | .thread gen => gen
  | .event gen => gen
  | .lock gen => gen

/-- The ledger, and the variables: what they hold is not destroyed while it is `live`. -/
structure Ledgered (log : List (Op Resource)) (inits : Nat) (event lock thread : Holder)
    (pipes : Pipe → Holder) : Prop where
  clean : Clean log
  bound : ∀ r, Released log r → r.gen ≤ inits
  event : event.gen ≤ inits ∧ (event.live = true → ¬Released log (.event event.gen))
  lock : lock.gen ≤ inits ∧ (lock.live = true → ¬Released log (.lock lock.gen))
  pipe : ∀ p, (pipes p).gen ≤ inits ∧
    ((pipes p).live = true → ∀ e, ¬Released log (.fd p e (pipes p).gen))
  thread : thread.gen ≤ inits

/-- Nothing is destroyed before the thread is joined, and then no thread runs. -/
structure Phase (log : List (Op Resource)) (inits : Nat) (isDown stopSignal : Bool)
    (threads : Nat → Option Pc) : Prop where
  released : ∀ r, Released log r → isDown = true
  quiet : isDown = true → stopSignal = true ∧ ∀ k, ¬Alive threads k
  born : ∀ k, Alive threads k → k ≤ inits

/-- The calls that returned, and what is left of a deinit. -/
structure History (returns : List Return) (isDown stopSignal deinitSince restarted deiniting : Bool) :
    Prop where
  returns : ∀ x ∈ returns, x.call = .init → x.threadCreated = false → x.err ≠ 0
  restarted : restarted = true → stopSignal = false
  down : isDown = true → deinitSince = true ∨ deiniting = true

/-- What an action of a call needs. -/
def OkIn (s : State) : Action → Prop
  | .eventInit => ¬Released s.log (.event s.inits)
  | .pipe p => ∀ e, ¬Released s.log (.fd p e s.inits)
  | .spinlockInit => ¬Released s.log (.lock s.inits)
  | .threadInit => ¬Released s.log (.thread s.inits)
  | .signal => ¬Released s.log (.event s.waitForStartEvent.gen)
  | .stop => (s.isCtrlLearnStart = true → ¬Released s.log (.fd .quit .write (s.pipes .quit).gen)) ∧
    (s.isCtrlLearnStart = false → ¬Released s.log (.event s.waitForStartEvent.gen))
  | .stopBranch => (s.isCtrlLearnStart = true → ¬Released s.log (.fd .quit .write (s.pipes .quit).gen)) ∧
    (s.isCtrlLearnStart = false → ¬Released s.log (.event s.waitForStartEvent.gen))
  | .writeQuit => ¬Released s.log (.fd .quit .write (s.pipes .quit).gen)
  | .deinit => s.isCtrlLearnInitialized = true → s.ctrlLearnThread.live = true
  | .threadDestroy => s.isCtrlLearnInitialized = true ∧ s.ctrlLearnThread.live = true
  | .close p e => ¬Released s.log (.fd p e (s.pipes p).gen)
  | _ => True

/-- The actions that destroy, but for the join of the thread. -/
def Action.isRelease : Action → Bool
  | .eventDestroy | .close _ _ | .spinlockDestroy => true
  | _ => false

/-- The actions with which a call begins to decide what to do. -/
def Action.isEntry : Action → Bool
  | .stop | .stopBranch | .deinit => true
  | _ => false

def Action.ofInit : Action → Bool
  | .eventInit | .fdbUcDbInit | .pipe _ | .spinlockInit | .threadInit | .setInitialized => true
  | _ => false

/-- The order of the actions of a call: those that decide are first, and after the join all others
destroy, each something else. -/
def Follows (a b : Action) : Prop :=
  b.isEntry = false ∧ a ≠ .setInitialized ∧ a ≠ .deinit ∧
    (a.isRelease = true ∨ a = .threadDestroy → (b.isRelease = true ∨ b = .fdbUcDbDeinit) ∧ a ≠ b)

instance (a b : Action) : Decidable (Follows a b) := inferInstanceAs (Decidable (_ ∧ _ ∧ _ ∧ _))

/-- The call on its way. -/
structure CallerOk (s : State) (c : Caller) : Prop where
  ok : ∀ a ∈ c.pending, OkIn s a
  order : c.pending.Pairwise Follows
  kind : ∀ a ∈ c.pending, a.ofInit = (c.call == .init)
  deinits : ∀ a ∈ c.pending, a = .deinit ∨ a = .threadDestroy → c.call = .deinit
  created : c.call = .init → c.threadCreated = false → c.err ≠ 0 ∨ .threadInit ∈ c.pending
  running : c.pending ≠ [] → c.err = 0
  live : c.threadCreated = true → c.call = .init ∧ s.ctrlLearnThread.live = true
  signal : .threadDestroy ∈ c.pending → .stop ∈ c.pending ∨ s.ctrlLearnStopSignal = true
  releases : ∀ a ∈ c.pending, a.isRelease = true → .threadDestroy ∈ c.pending ∨ s.isDown = true
  restarted : c.call ≠ .init → s.restarted = false

def State.deiniting (s : State) : Bool := s.caller.any fun c => c.call == .deinit

structure Inv (s : State) : Prop where
  ledgered : Ledgered s.log s.inits s.waitForStartEvent s.ctrlLearnFdbLock s.ctrlLearnThread s.pipes
  phase : Phase s.log s.inits s.isDown s.ctrlLearnStopSignal s.threads
  history : History s.returns s.isDown s.ctrlLearnStopSignal s.deinitSince s.restarted s.deiniting
  caller : ∀ c, s.caller = some c → CallerOk s c

/-- Before the thread is joined, nothing is destroyed. -/
theorem Inv.up {s : State} (h : Inv s) (hdown : s.isDown = false) (r : Resource) : ¬Released s.log r :=
  fun hr => absurd (h.phase.released r hr) (by rw [hdown]; decide)

theorem inv_initial : Inv .initial where
  ledgered := ⟨trivial, fun _ h => absurd h (not_released_nil _), ⟨Nat.le_refl 0, Bool.noConfusion⟩,
    ⟨Nat.le_refl 0, Bool.noConfusion⟩, fun _ => ⟨Nat.le_refl 0, Bool.noConfusion⟩, Nat.le_refl 0⟩
  phase := ⟨fun _ h => absurd h (not_released_nil _), Bool.noConfusion, fun _ h => nomatch h⟩
  history := ⟨fun _ hx => absurd hx List.not_mem_nil, Bool.noConfusion, Bool.noConfusion⟩
  caller := fun _ h => nomatch h

/-! ## Steps of a thread -/

/-- What a step of a thread does: it uses resources and changes three variables. -/
inductive ThreadEffect (s : State) : State → Prop where
  | intro (rs : List Resource) (start signaled : Bool) (writes : Nat) :
    ThreadEffect s { s with
      log := rs.map .use ++ s.log
      isCtrlLearnStart := start
      signaled := signaled
      quitWrites := writes }

theorem ThreadEffect.trans {s s' s'' : State} (h : ThreadEffect s s') (h' : ThreadEffect s' s'') :
    ThreadEffect s s'' := by
  obtain ⟨rs⟩ := h
  obtain ⟨rs', start, signaled, writes⟩ := h'
  have e := ThreadEffect.intro (s := s) (rs' ++ rs) start signaled writes
  rw [List.map_append, List.append_assoc] at e
  exact e

theorem selectStep_effect {s s' : State} {quit simulate : Nat} {pc' : Pc} {input : ThreadInput}
    (h : selectStep s quit simulate input = some (s', pc')) : ThreadEffect s s' := by
  unfold selectStep at h
  split at h
  · cases h
    exact .intro [] ..
  · split at h
    · cases h
      exact .intro [_] ..
    · split at h
      · cases h
        exact .intro [_] ..
      · cases h
        exact .intro [] ..
      · split at h
        · cases h
          exact .intro [_, _] ..
        · cases h
          exact .intro [] ..
      · cases h

theorem pcStep_effect {s s' : State} {pc pc' : Pc} {input : ThreadInput}
    (h : pcStep s pc input = some (s', pc')) : pc ≠ .exited ∧ ThreadEffect s s' := by
  have hsame : ThreadEffect s s := .intro [] ..
  cases pc
  case exited => cases input <;> cases h
  case select quit simulate =>
    have hfds : ThreadEffect s ((s.useFd .quit .read quit).useFd .simulate .read simulate) :=
      .intro [_, _] ..
    exact ⟨nofun, hfds.trans (selectStep_effect h)⟩
  case waitStart =>
    have htaken : ThreadEffect s s.eventTaken := .intro [_] ..
    cases input
    case ok =>
      change (if s.signaled then some (s.eventTaken, Pc.checkStop) else none) = _ at h
      split at h <;> cases h
      exact ⟨nofun, htaken⟩
    all_goals
      cases h
      try exact ⟨nofun, htaken⟩
  case setStart =>
    cases input <;> cases h
    exact ⟨nofun, .intro [] ..⟩
  all_goals
    cases input <;> cases h <;> exact ⟨nofun, hsame⟩

/-- While nothing is destroyed, an action needs only what a join does. -/
theorem OkIn.of_up {s s' : State} {a : Action} (h : OkIn s a) (hnone : ∀ r, ¬Released s'.log r)
    (hinit : s'.isCtrlLearnInitialized = s.isCtrlLearnInitialized)
    (hthread : s'.ctrlLearnThread = s.ctrlLearnThread) : OkIn s' a := by
  cases a
  case deinit => exact fun hi => hthread ▸ h (hinit ▸ hi)
  case threadDestroy => exact ⟨hinit ▸ h.1, hthread ▸ h.2⟩
  case stop | stopBranch => exact ⟨fun _ => hnone _, fun _ => hnone _⟩
  case pipe => exact fun _ => hnone _
  case eventInit | spinlockInit | threadInit | signal | writeQuit | close => exact hnone _
  all_goals trivial

/-- **A step of a thread keeps the invariant**: it runs, so nothing is destroyed. -/
theorem threadStep_inv {s s' : State} {k : Nat} {input : ThreadInput} (hinv : Inv s)
    (h : threadStep s k input = some s') : Inv s' := by
  obtain ⟨pc, hpc, h⟩ := Option.bind_eq_some_iff.mp h
  obtain ⟨⟨s₁, pc'⟩, hstep, rfl⟩ := Option.map_eq_some_iff.mp h
  obtain ⟨hrun, ⟨rs, start, signaled, writes⟩⟩ := pcStep_effect hstep
  have hk : Alive s.threads k := alive_iff.mpr ⟨pc, hpc, hrun⟩
  have hup : s.isDown = false := by
    cases hdown : s.isDown
    · rfl
    · exact absurd hk ((hinv.phase.quiet hdown).2 k)
  have hnone : ∀ r, ¬Released (rs.map .use ++ s.log) r :=
    fun r hr => hinv.up hup r ((released_uses rs).mp hr)
  have halive : ∀ j, Alive (Function.update s.threads k (some pc')) j → Alive s.threads j := by
    intro j hj
    rcases alive_update hj with rfl | hj
    · exact hk
    · exact hj
  refine ⟨?_, ?_, hinv.history, fun c hc => ?_⟩
  · have hl := hinv.ledgered
    exact ⟨hl.clean.uses rs fun r _ => hinv.up hup r, fun r hr => absurd hr (hnone r),
      ⟨hl.event.1, fun _ => hnone _⟩, ⟨hl.lock.1, fun _ => hnone _⟩,
      fun p => ⟨(hl.pipe p).1, fun _ e => hnone _⟩, hl.thread⟩
  · exact ⟨fun r hr => absurd hr (hnone r), fun hdown => absurd (hup.symm.trans hdown) (by decide),
      fun j hj => hinv.phase.born j (halive j hj)⟩
  · have hc := hinv.caller c hc
    exact ⟨fun a ha => (hc.ok a ha).of_up hnone rfl rfl, hc.order, hc.kind, hc.deinits,
      hc.created, hc.running, hc.live, hc.signal, hc.releases, hc.restarted⟩

end MlnxLib.CtrlLearn.LifeCycle
