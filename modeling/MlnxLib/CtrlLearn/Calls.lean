import MlnxLib.CtrlLearn.Shutdown

/-!
# What the calls keep

The actions of `ctrl_learn_init`, `ctrl_learn_start`, `ctrl_learn_stop` and `ctrl_learn_deinit` one by
one, and from them the runs of the life cycle.

* `Turn` — the call on its way comes to an action.
* `Frame` — what most actions leave as it is.

Principal results: `exec_inv` — an action of a call keeps the invariant; `orderly_run` — what holds after
every run whose steps meet the condition; `lifeCycle_broken` — the three ways in which it fails.
-/

set_option autoImplicit false

namespace MlnxLib.CtrlLearn.LifeCycle

open Ledger Runs

/-! ## What an action does to the ledger -/

section

variable {log : List (Op Resource)} {inits : Nat} {event lock thread : Holder} {pipes : Pipe → Holder}

/-- A record that destroys nothing. -/
theorem Ledgered.recorded (h : Ledgered log inits event lock thread pipes) {op : Op Resource}
    (hkeep : ∀ r, Released (op :: log) r ↔ Released log r) (hop : ¬Released log op.resource) :
    Ledgered (op :: log) inits event lock thread pipes :=
  ⟨⟨hop, h.clean⟩, fun r hr => h.bound r ((hkeep r).mp hr),
    ⟨h.event.1, fun hl hr => h.event.2 hl ((hkeep _).mp hr)⟩,
    ⟨h.lock.1, fun hl hr => h.lock.2 hl ((hkeep _).mp hr)⟩,
    fun p => ⟨(h.pipe p).1, fun hl e hr => (h.pipe p).2 hl e ((hkeep _).mp hr)⟩, h.thread⟩

theorem Ledgered.used (h : Ledgered log inits event lock thread pipes) {r : Resource}
    (hr : ¬Released log r) : Ledgered (.use r :: log) inits event lock thread pipes :=
  h.recorded (fun _ => released_use) hr

theorem Ledgered.created (h : Ledgered log inits event lock thread pipes) {r : Resource}
    (hr : ¬Released log r) : Ledgered (.create r :: log) inits event lock thread pipes :=
  h.recorded (fun _ => released_create) hr

theorem Ledgered.destroyed (h : Ledgered log inits event lock thread pipes) {r : Resource}
    (hr : ¬Released log r) (hgen : r.gen ≤ inits)
    (hevent : event.live = true → .event event.gen ≠ r) (hlock : lock.live = true → .lock lock.gen ≠ r)
    (hpipe : ∀ p, (pipes p).live = true → ∀ e, .fd p e (pipes p).gen ≠ r) :
    Ledgered (.destroy r :: log) inits event lock thread pipes where
  clean := ⟨hr, h.clean⟩
  bound := fun x hx => by
    rcases released_destroy.mp hx with rfl | hx
    · exact hgen
    · exact h.bound x hx
  event := ⟨h.event.1, fun hl hx => (released_destroy.mp hx).elim (hevent hl) (h.event.2 hl)⟩
  lock := ⟨h.lock.1, fun hl hx => (released_destroy.mp hx).elim (hlock hl) (h.lock.2 hl)⟩
  pipe := fun p => ⟨(h.pipe p).1, fun hl e hx =>
    (released_destroy.mp hx).elim (hpipe p hl e) ((h.pipe p).2 hl e)⟩
  thread := h.thread

theorem Ledgered.setEvent (h : Ledgered log inits event lock thread pipes) (event' : Holder)
    (hgen : event'.gen ≤ inits) (hlive : event'.live = true → ¬Released log (.event event'.gen)) :
    Ledgered log inits event' lock thread pipes :=
  ⟨h.clean, h.bound, ⟨hgen, hlive⟩, h.lock, h.pipe, h.thread⟩

theorem Ledgered.setLock (h : Ledgered log inits event lock thread pipes) (lock' : Holder)
    (hgen : lock'.gen ≤ inits) (hlive : lock'.live = true → ¬Released log (.lock lock'.gen)) :
    Ledgered log inits event lock' thread pipes :=
  ⟨h.clean, h.bound, h.event, ⟨hgen, hlive⟩, h.pipe, h.thread⟩

theorem Ledgered.setThread (h : Ledgered log inits event lock thread pipes) (thread' : Holder)
    (hgen : thread'.gen ≤ inits) : Ledgered log inits event lock thread' pipes :=
  ⟨h.clean, h.bound, h.event, h.lock, h.pipe, hgen⟩

theorem Ledgered.setPipe (h : Ledgered log inits event lock thread pipes) (p : Pipe) (holder : Holder)
    (hgen : holder.gen ≤ inits)
    (hlive : holder.live = true → ∀ e, ¬Released log (.fd p e holder.gen)) :
    Ledgered log inits event lock thread (Function.update pipes p holder) := by
  refine ⟨h.clean, h.bound, h.event, h.lock, fun q => ?_, h.thread⟩
  by_cases hq : q = p
  · subst hq
    rw [Function.update_self]
    exact ⟨hgen, hlive⟩
  · rw [Function.update_of_ne hq]
    exact h.pipe q

/-- The variable of a closed pipe keeps the number. -/
theorem update_dead_gen (pipes : Pipe → Holder) (p q : Pipe) :
    (Function.update pipes p (pipes p).dead q).gen = (pipes q).gen := by
  by_cases hq : q = p
  · rw [hq, Function.update_self]
    rfl
  · rw [Function.update_of_ne hq]

/-- The variable of a destroyed event does not hold it. -/
theorem Ledgered.eventDestroyed (h : Ledgered log inits event lock thread pipes)
    (hlive : event.live = true) :
    Ledgered (.destroy (.event event.gen) :: log) inits event.dead lock thread pipes :=
  (h.setEvent event.dead h.event.1 Bool.noConfusion).destroyed (h.event.2 hlive) h.event.1
    Bool.noConfusion (fun _ => nofun) fun _ _ _ => nofun

theorem Ledgered.lockDestroyed (h : Ledgered log inits event lock thread pipes)
    (hlive : lock.live = true) :
    Ledgered (.destroy (.lock lock.gen) :: log) inits event lock.dead thread pipes :=
  (h.setLock lock.dead h.lock.1 Bool.noConfusion).destroyed (h.lock.2 hlive) h.lock.1
    (fun _ => nofun) Bool.noConfusion fun _ _ _ => nofun

theorem Ledgered.threadDestroyed (h : Ledgered log inits event lock thread pipes)
    (hr : ¬Released log (.thread thread.gen)) :
    Ledgered (.destroy (.thread thread.gen) :: log) inits event lock thread.dead pipes :=
  (h.setThread thread.dead h.thread).destroyed hr h.thread (fun _ => nofun)
    (fun _ => nofun) fun _ _ _ => nofun

theorem Ledgered.closed (h : Ledgered log inits event lock thread pipes) {p : Pipe} {e : PipeEnd}
    (hr : ¬Released log (.fd p e (pipes p).gen)) :
    Ledgered (.destroy (.fd p e (pipes p).gen) :: log) inits event lock thread
      (Function.update pipes p (pipes p).dead) := by
  refine (h.setPipe p (pipes p).dead (h.pipe p).1 Bool.noConfusion).destroyed hr (h.pipe p).1
    (fun _ => nofun) (fun _ => nofun) fun q hl e' heq => ?_
  have hq : q = p := (Resource.fd.inj heq).1
  subst hq
  rw [Function.update_self] at hl
  cases hl

end

/-! ## What the actions that are left need -/

/-- The actions of an init need only that nothing of the new number is destroyed. -/
theorem OkIn.of_init {s s' : State} {b : Action} (h : OkIn s b) (hb : b.ofInit = true)
    (hinits : s'.inits = s.inits) (hlog : ∀ r, Released s'.log r ↔ Released s.log r) : OkIn s' b := by
  cases b <;> cases hb
  case eventInit | spinlockInit | threadInit =>
    intro hr
    rw [hinits] at hr
    exact h ((hlog _).mp hr)
  case pipe p =>
    intro e hr
    rw [hinits] at hr
    exact h e ((hlog _).mp hr)
  all_goals trivial

/-- After an action that only uses what there is, the others need nothing new. -/
theorem OkIn.of_use {s s' : State} {b : Action} (h : OkIn s b) (hb : b.isEntry = false)
    (hinits : s'.inits = s.inits) (hlog : ∀ r, Released s'.log r ↔ Released s.log r)
    (hevent : s'.waitForStartEvent = s.waitForStartEvent) (hpipes : s'.pipes = s.pipes)
    (hinit : s'.isCtrlLearnInitialized = s.isCtrlLearnInitialized)
    (hthread : s'.ctrlLearnThread = s.ctrlLearnThread) : OkIn s' b := by
  cases b <;> cases hb
  case eventInit | spinlockInit | threadInit | pipe => exact h.of_init rfl hinits hlog
  case signal =>
    intro hr
    rw [hevent] at hr
    exact h ((hlog _).mp hr)
  case writeQuit | close =>
    intro hr
    rw [hpipes] at hr
    exact h ((hlog _).mp hr)
  case threadDestroy => exact ⟨hinit ▸ h.1, hthread ▸ h.2⟩
  all_goals trivial

/-- What comes after the join needs only that the descriptors it closes are open. -/
theorem OkIn.of_release {s' : State} {b : Action} (hb : b.isRelease = true ∨ b = .fdbUcDbDeinit)
    (hfd : ∀ p e, b = .close p e → ¬Released s'.log (.fd p e (s'.pipes p).gen)) : OkIn s' b := by
  cases b <;> simp only [Action.isRelease, reduceCtorEq, or_self, Bool.false_eq_true] at hb
  case close p e => exact hfd p e rfl
  all_goals trivial

/-- A call goes on with the actions it chose and those that were left. -/
theorem CallerOk.goesOn {s s' : State} {c : Caller} {a : Action} {rest : List Action}
    (h : CallerOk s c) (hpending : c.pending = a :: rest) (more : List Action)
    (hok : ∀ b ∈ more ++ rest, OkIn s' b) (horder : (more ++ rest).Pairwise Follows)
    (hkind : ∀ b ∈ more, b.ofInit = a.ofInit)
    (hdeinits : ∀ b ∈ more, b = .deinit ∨ b = .threadDestroy → c.call = .deinit) (ha : a ≠ .threadInit)
    (hlive : c.threadCreated = true → s'.ctrlLearnThread.live = s.ctrlLearnThread.live)
    (hsignal : .threadDestroy ∈ more ++ rest → .stop ∈ more ++ rest ∨ s'.ctrlLearnStopSignal = true)
    (hreleases : ∀ b ∈ more ++ rest, b.isRelease = true →
      .threadDestroy ∈ more ++ rest ∨ s'.isDown = true)
    (hrestarted : s'.restarted = s.restarted) :
    CallerOk s' (({ c with pending := rest } : Caller).andThen more) where
  ok := hok
  order := horder
  kind := by
    intro b hb
    rcases List.mem_append.mp hb with hb | hb
    · rw [hkind b hb]
      exact h.kind a (by simp [hpending])
    · exact h.kind b (by simp [hpending, hb])
  deinits := by
    intro b hb
    rcases List.mem_append.mp hb with hb | hb
    · exact hdeinits b hb
    · exact h.deinits b (by simp [hpending, hb])
  created := fun hc ht => by
    refine (h.created hc ht).imp_right fun hmem => List.mem_append_right _ ?_
    rw [hpending] at hmem
    exact (List.mem_cons.mp hmem).resolve_left (Ne.symm ha)
  running := fun _ => h.running (by simp [hpending])
  live := fun ht => ⟨(h.live ht).1, (hlive ht).trans (h.live ht).2⟩
  signal := hsignal
  releases := hreleases
  restarted := fun hc => hrestarted.trans (h.restarted hc)

/-- A call that fails. -/
theorem CallerOk.fails {s s' : State} {c : Caller} {rest : List Action} {err : Int} (h : CallerOk s c)
    (herr : err ≠ 0) (hlive : c.threadCreated = true → s'.ctrlLearnThread.live = s.ctrlLearnThread.live)
    (hrestarted : s'.restarted = s.restarted) :
    CallerOk s' (({ c with pending := rest } : Caller).fail err) where
  ok := fun _ ha => absurd ha List.not_mem_nil
  order := .nil
  kind := fun _ ha => absurd ha List.not_mem_nil
  deinits := fun _ ha => absurd ha List.not_mem_nil
  created := fun _ _ => .inl herr
  running := fun hne => absurd rfl hne
  live := fun ht => ⟨(h.live ht).1, (hlive ht).trans (h.live ht).2⟩
  signal := fun ha => absurd ha List.not_mem_nil
  releases := fun _ ha => absurd ha List.not_mem_nil
  restarted := fun hc => hrestarted.trans (h.restarted hc)

/-- A join that is left comes after the stop. -/
theorem CallerOk.signal_rest {s : State} {c : Caller} {a : Action} {rest : List Action}
    (h : CallerOk s c) (hpending : c.pending = a :: rest)
    (hstop : a = .stop → s.isCtrlLearnInitialized = false) (hjoin : .threadDestroy ∈ rest) :
    .stop ∈ rest ∨ s.ctrlLearnStopSignal = true := by
  have hmem : .threadDestroy ∈ c.pending := by simp [hpending, hjoin]
  refine (h.signal hmem).imp_left fun hs => ?_
  rw [hpending] at hs
  refine (List.mem_cons.mp hs).resolve_left fun hs => ?_
  have hinit := (h.ok _ hmem).1
  rw [hstop hs.symm] at hinit
  cases hinit

/-- What is left to destroy comes after the join. -/
theorem CallerOk.releases_rest {s : State} {c : Caller} {a b : Action} {rest : List Action}
    (h : CallerOk s c) (hpending : c.pending = a :: rest) (hjoin : a ≠ .threadDestroy) (hb : b ∈ rest)
    (hr : b.isRelease = true) : .threadDestroy ∈ rest ∨ s.isDown = true := by
  refine (h.releases b (by simp [hpending, hb]) hr).imp_left fun hd => ?_
  rw [hpending] at hd
  exact (List.mem_cons.mp hd).resolve_left (Ne.symm hjoin)

/-- A call goes on with what was left. -/
theorem CallerOk.drops {s s' : State} {c : Caller} {a : Action} {rest : List Action}
    (h : CallerOk s c) (hpending : c.pending = a :: rest) (hok : ∀ b ∈ rest, OkIn s' b)
    (ha : a ≠ .threadInit) (hstop : a = .stop → s.isCtrlLearnInitialized = false)
    (hjoin : a ≠ .threadDestroy) (hlive : s'.ctrlLearnThread.live = s.ctrlLearnThread.live)
    (hstopSignal : s'.ctrlLearnStopSignal = s.ctrlLearnStopSignal) (hdown : s'.isDown = s.isDown)
    (hrestarted : s'.restarted = s.restarted) :
    CallerOk s' { c with pending := rest } := by
  have horder := h.order
  rw [hpending] at horder
  refine h.goesOn hpending [] hok horder.of_cons (fun _ hb => absurd hb List.not_mem_nil)
    (fun _ hb => absurd hb List.not_mem_nil) ha (fun _ => hlive) (fun hmore => ?_) (fun b hb hr => ?_)
    hrestarted
  · exact hstopSignal ▸ h.signal_rest hpending hstop hmore
  · exact hdown ▸ h.releases_rest hpending hjoin hb hr

/-- The invariant after an action of a call. -/
theorem Inv.goesOn {s s' : State} {c c' : Caller} (h : Inv s) (hc : s.caller = some c)
    (hcall : c'.call = c.call)
    (hledgered : Ledgered s'.log s'.inits s'.waitForStartEvent s'.ctrlLearnFdbLock s'.ctrlLearnThread
      s'.pipes)
    (hphase : Phase s'.log s'.inits s'.isDown s'.ctrlLearnStopSignal s'.threads)
    (hreturns : s'.returns = s.returns)
    (hrestarted : s'.restarted = true → s'.ctrlLearnStopSignal = false)
    (hdown : s'.isDown = true → s'.deinitSince = s.deinitSince ∧ (s.isDown = true ∨ c.call = .deinit))
    (hcaller : CallerOk s' c') : Inv { s' with caller := some c' } where
  ledgered := hledgered
  phase := hphase
  history := {
    returns := fun x hx => h.history.returns x (hreturns ▸ hx)
    restarted := hrestarted
    down := fun hd => by
      have hdeiniting : State.deiniting { s' with caller := some c' } = (c.call == .deinit) := by
        simp [State.deiniting, hcall]
      obtain ⟨hsince, hd | hd⟩ := hdown hd
      · have hold := h.history.down hd
        simp only [State.deiniting, hc, Option.any_some] at hold
        rw [hdeiniting]
        exact hold.imp_left fun hs => hsince.trans hs
      · right
        rw [hdeiniting, hd]
        rfl }
  caller := fun c'' hc'' => by
    cases hc''
    exact ⟨hcaller.ok, hcaller.order, hcaller.kind, hcaller.deinits, hcaller.created, hcaller.running,
      hcaller.live, hcaller.signal, hcaller.releases, hcaller.restarted⟩

/-! ## The turn of an action -/

/-- The call on its way comes to an action. -/
structure Turn (s : State) (c : Caller) (a : Action) (rest : List Action) : Prop where
  inv : Inv s
  caller : s.caller = some c
  pending : c.pending = a :: rest

/-- What most actions do not change. -/
structure Frame (s s' : State) : Prop where
  inits : s'.inits = s.inits
  threads : s'.threads = s.threads
  threadLive : s'.ctrlLearnThread.live = s.ctrlLearnThread.live
  stopSignal : s'.ctrlLearnStopSignal = s.ctrlLearnStopSignal
  initialized : s'.isCtrlLearnInitialized = s.isCtrlLearnInitialized
  returns : s'.returns = s.returns
  deinitSince : s'.deinitSince = s.deinitSince
  restarted : s'.restarted = s.restarted

theorem Frame.isDown {s s' : State} (h : Frame s s') : s'.isDown = s.isDown := by
  rw [State.isDown, State.isDown, h.initialized, h.threadLive]

section

variable {s s' : State} {c : Caller} {a : Action} {rest : List Action}

theorem Turn.callerOk (t : Turn s c a rest) : CallerOk s c := t.inv.caller c t.caller

theorem Turn.mem (t : Turn s c a rest) {b : Action} (hb : b ∈ rest) : b ∈ c.pending := by
  simp [t.pending, hb]

theorem Turn.ok (t : Turn s c a rest) : OkIn s a := t.callerOk.ok a (by simp [t.pending])

theorem Turn.okRest (t : Turn s c a rest) {b : Action} (hb : b ∈ rest) : OkIn s b :=
  t.callerOk.ok b (t.mem hb)

theorem Turn.order (t : Turn s c a rest) : (a :: rest).Pairwise Follows :=
  t.pending ▸ t.callerOk.order

theorem Turn.follows (t : Turn s c a rest) {b : Action} (hb : b ∈ rest) : Follows a b :=
  List.rel_of_pairwise_cons t.order hb

theorem Turn.ofCall (t : Turn s c a rest) : a.ofInit = (c.call == .init) :=
  t.callerOk.kind a (by simp [t.pending])

theorem Turn.kind (t : Turn s c a rest) {b : Action} (hb : b ∈ rest) : b.ofInit = a.ofInit :=
  (t.callerOk.kind b (t.mem hb)).trans t.ofCall.symm

theorem Turn.isInit (t : Turn s c a rest) (ha : a.ofInit = true) : c.call = .init := by
  simpa [ha] using t.ofCall

theorem Turn.notInit (t : Turn s c a rest) (ha : a.ofInit = false) : c.call ≠ .init := by
  simpa [ha] using t.ofCall

theorem Turn.err (t : Turn s c a rest) : c.err = 0 := t.callerOk.running (by simp [t.pending])

/-- An action that leaves the thread and the flags as they are. -/
theorem Turn.framed (t : Turn s c a rest) {c' : Caller} (hcall : c'.call = c.call)
    (hframe : Frame s s')
    (hledgered : Ledgered s'.log s'.inits s'.waitForStartEvent s'.ctrlLearnFdbLock s'.ctrlLearnThread
      s'.pipes)
    (hlog : ∀ r, Released s'.log r → Released s.log r ∨ s.isDown = true) (hcaller : CallerOk s' c') :
    Inv { s' with caller := some c' } := by
  refine t.inv.goesOn t.caller hcall hledgered ⟨?_, ?_, ?_⟩ hframe.returns ?_ ?_ hcaller
  · intro r hr
    rw [hframe.isDown]
    exact (hlog r hr).elim (t.inv.phase.released r) id
  · rw [hframe.isDown, hframe.stopSignal, hframe.threads]
    exact t.inv.phase.quiet
  · rw [hframe.threads, hframe.inits]
    exact t.inv.phase.born
  · rw [hframe.restarted, hframe.stopSignal]
    exact t.inv.history.restarted
  · rw [hframe.isDown]
    exact fun hd => ⟨hframe.deinitSince, .inl hd⟩

theorem Turn.goesOn (t : Turn s c a rest) (hframe : Frame s s')
    (hledgered : Ledgered s'.log s'.inits s'.waitForStartEvent s'.ctrlLearnFdbLock s'.ctrlLearnThread
      s'.pipes)
    (hlog : ∀ r, Released s'.log r → Released s.log r ∨ s.isDown = true)
    (hok : ∀ b ∈ rest, OkIn s' b) (ha : a ≠ .threadInit)
    (hstop : a = .stop → s.isCtrlLearnInitialized = false) (hjoin : a ≠ .threadDestroy) :
    Inv { s' with caller := some { c with pending := rest } } :=
  t.framed rfl hframe hledgered hlog (t.callerOk.drops t.pending hok ha hstop hjoin hframe.threadLive
    hframe.stopSignal hframe.isDown hframe.restarted)

/-- An action with which the call fails. -/
theorem Turn.fails (t : Turn s c a rest) {err : Int} (herr : err ≠ 0) (hframe : Frame s s')
    (hledgered : Ledgered s'.log s'.inits s'.waitForStartEvent s'.ctrlLearnFdbLock s'.ctrlLearnThread
      s'.pipes)
    (hlog : ∀ r, Released s'.log r → Released s.log r) :
    Inv { s' with caller := some (({ c with pending := rest } : Caller).fail err) } :=
  t.framed rfl hframe hledgered (fun r hr => .inl (hlog r hr))
    (t.callerOk.fails herr (fun _ => hframe.threadLive) hframe.restarted)

end

theorem Frame.refl (s : State) : Frame s s := ⟨rfl, rfl, rfl, rfl, rfl, rfl, rfl, rfl⟩

/-! ## The actions of an init -/

section

variable {s : State} {c : Caller} {ok : Bool} {rest : List Action} {r : State × Caller}

/-- The other actions of an init need nothing new while nothing is destroyed. -/
theorem Turn.okInit {a : Action} (t : Turn s c a rest) (ha : a.ofInit = true) {s' : State}
    (hinits : s'.inits = s.inits) (hlog : ∀ r, Released s'.log r ↔ Released s.log r) :
    ∀ b ∈ rest, OkIn s' b :=
  fun _ hb => (t.okRest hb).of_init ((t.kind hb).trans ha) hinits hlog

theorem exec_eventInit (t : Turn s c .eventInit rest)
    (h : exec s { c with pending := rest } ok .eventInit = some r) :
    Inv { r.1 with caller := some r.2 } := by
  have hl := t.inv.ledgered
  have hr : ¬Released s.log (.event s.inits) := t.ok
  simp only [exec] at h
  split at h <;> cases h
  · have hnew : ¬Released (.create (.event s.inits) :: s.log) (.event s.inits) :=
      fun hc => hr (released_create.mp hc)
    exact t.goesOn ⟨rfl, rfl, rfl, rfl, rfl, rfl, rfl, rfl⟩
      ((hl.created hr).setEvent _ (Nat.le_refl _) fun _ => hnew) (fun _ hx => .inl (released_create.mp hx))
      (t.okInit rfl rfl fun _ => released_create) nofun nofun nofun
  · exact t.fails (by decide) ⟨rfl, rfl, rfl, rfl, rfl, rfl, rfl, rfl⟩
      (hl.setEvent _ hl.event.1 Bool.noConfusion) fun _ hx => hx

theorem exec_fdbUcDbInit (t : Turn s c .fdbUcDbInit rest)
    (h : exec s { c with pending := rest } ok .fdbUcDbInit = some r) :
    Inv { r.1 with caller := some r.2 } := by
  have hok : ∀ b ∈ rest, OkIn s b := fun b hb => t.okRest hb
  simp only [exec] at h
  split at h
  · cases h
    exact t.goesOn (.refl s) t.inv.ledgered (fun _ hx => .inl hx) hok nofun nofun nofun
  · split at h <;> cases h
    · exact t.goesOn ⟨rfl, rfl, rfl, rfl, rfl, rfl, rfl, rfl⟩ t.inv.ledgered (fun _ hx => .inl hx)
        (t.okInit rfl rfl fun _ => Iff.rfl) nofun nofun nofun
    · exact t.fails (by decide) (.refl s) t.inv.ledgered fun _ hx => hx

theorem exec_pipe {p : Pipe} (t : Turn s c (.pipe p) rest)
    (h : exec s { c with pending := rest } ok (.pipe p) = some r) :
    Inv { r.1 with caller := some r.2 } := by
  have hl := t.inv.ledgered
  have hr : ∀ e, ¬Released s.log (.fd p e s.inits) := t.ok
  have hkeep : ∀ x, Released (.create (.fd p .write s.inits) :: .create (.fd p .read s.inits) :: s.log) x
      ↔ Released s.log x := fun _ => released_create.trans released_create
  simp only [exec] at h
  split at h <;> cases h
  · have hread := hl.created (hr .read)
    have hwrite := hread.created fun hc => hr .write (released_create.mp hc)
    exact t.goesOn ⟨rfl, rfl, rfl, rfl, rfl, rfl, rfl, rfl⟩
      (hwrite.setPipe p _ (Nat.le_refl _) fun _ e hc => hr e ((hkeep _).mp hc))
      (fun _ hx => .inl ((hkeep _).mp hx)) (t.okInit rfl rfl hkeep) nofun nofun nofun
  · exact t.fails (by decide) (.refl s) hl fun _ hx => hx

theorem exec_spinlockInit (t : Turn s c .spinlockInit rest)
    (h : exec s { c with pending := rest } ok .spinlockInit = some r) :
    Inv { r.1 with caller := some r.2 } := by
  have hl := t.inv.ledgered
  have hr : ¬Released s.log (.lock s.inits) := t.ok
  simp only [exec] at h
  split at h <;> cases h
  · have hnew : ¬Released (.create (.lock s.inits) :: s.log) (.lock s.inits) :=
      fun hc => hr (released_create.mp hc)
    exact t.goesOn ⟨rfl, rfl, rfl, rfl, rfl, rfl, rfl, rfl⟩
      ((hl.created hr).setLock _ (Nat.le_refl _) fun _ => hnew) (fun _ hx => .inl (released_create.mp hx))
      (t.okInit rfl rfl fun _ => released_create) nofun nofun nofun
  · exact t.goesOn ⟨rfl, rfl, rfl, rfl, rfl, rfl, rfl, rfl⟩ (hl.setLock _ hl.lock.1 Bool.noConfusion)
      (fun _ hx => .inl hx) (t.okInit rfl rfl fun _ => Iff.rfl) nofun nofun nofun

/-- An init that meets the condition creates its thread before any deinit has joined one. -/
theorem Turn.up_of_threadInit (t : Turn s c .threadInit rest)
    (hstop : s.deinitSince = true → s.ctrlLearnStopSignal = false) : s.isDown = false := by
  cases hdown : s.isDown
  · rfl
  · have hdeiniting : s.deiniting = false := by
      simp [State.deiniting, t.caller, t.isInit rfl]
    have hsince := (t.inv.history.down hdown).resolve_right (by simp [hdeiniting])
    have hset := (t.inv.phase.quiet hdown).1
    rw [hstop hsince] at hset
    cases hset

theorem exec_threadInit (t : Turn s c .threadInit rest)
    (hstop : s.deinitSince = true → s.ctrlLearnStopSignal = false)
    (h : exec s { c with pending := rest } true .threadInit = some r) :
    Inv { r.1 with caller := some r.2 } := by
  have hup := t.up_of_threadInit hstop
  have hnone : ∀ x, ¬Released (.create (.thread s.inits) :: s.log) x :=
    fun x hx => t.inv.up hup x (released_create.mp hx)
  cases h
  refine t.inv.goesOn t.caller rfl ?_ ⟨fun x hx => absurd hx (hnone x), fun hd => ?_, fun k hk => ?_⟩ rfl
    hstop (fun hd => ?_) ?_
  · exact (t.inv.ledgered.created t.ok).setThread _ (Nat.le_refl _)
  · simp [State.isDown, State.record] at hd
  · exact (alive_update hk).elim Nat.le_of_eq (t.inv.phase.born k)
  · simp [State.isDown, State.record] at hd
  · have hpending : ∀ b ∈ rest, b.ofInit = true := fun b hb => t.kind hb
    exact {
      ok := t.okInit rfl rfl fun _ => released_create
      order := t.order.of_cons
      kind := fun b hb => (t.kind hb).trans t.ofCall
      deinits := fun b hb hd => by
        have hi := hpending b hb
        rcases hd with rfl | rfl <;> cases hi
      created := fun _ hc => Bool.noConfusion hc
      running := fun _ => t.err
      live := fun _ => ⟨t.isInit rfl, rfl⟩
      signal := fun hb => Bool.noConfusion (hpending _ hb)
      releases := fun b hb hr => by
        have hi := hpending b hb
        cases b <;> simp [Action.isRelease, Action.ofInit] at hr hi
      restarted := fun hc => absurd (t.isInit rfl) hc }

theorem exec_setInitialized (t : Turn s c .setInitialized rest)
    (h : exec s { c with pending := rest } ok .setInitialized = some r) :
    Inv { r.1 with caller := some r.2 } := by
  have hrest : rest = [] :=
    List.eq_nil_iff_forall_not_mem.mpr fun b hb => (t.follows hb).2.1 rfl
  have hcreated : c.threadCreated = true := by
    cases hc : c.threadCreated
    · rcases t.callerOk.created (t.isInit rfl) hc with herr | hmem
      · exact absurd t.err herr
      · simp [t.pending, hrest] at hmem
    · rfl
  have hlive := (t.callerOk.live hcreated).2
  have hup : s.isDown = false := by simp [State.isDown, hlive]
  have hup' : State.isDown { s with isCtrlLearnInitialized := true } = false := by
    simp [State.isDown, hlive]
  cases h
  refine t.inv.goesOn t.caller rfl t.inv.ledgered ⟨fun x hx => absurd hx (t.inv.up hup x), ?_, ?_⟩ rfl
    t.inv.history.restarted ?_ ?_
  · exact fun hd => absurd (hup'.symm.trans hd) (by decide)
  · exact t.inv.phase.born
  · exact fun hd => absurd (hup'.symm.trans hd) (by decide)
  · subst hrest
    exact {
      ok := fun _ hb => absurd hb List.not_mem_nil
      order := .nil
      kind := fun _ hb => absurd hb List.not_mem_nil
      deinits := fun _ hb => absurd hb List.not_mem_nil
      created := fun _ hc => absurd (hcreated.symm.trans hc) (by decide)
      running := fun _ => rfl
      live := fun _ => ⟨t.isInit rfl, hlive⟩
      signal := fun hb => absurd hb List.not_mem_nil
      releases := fun _ hb => absurd hb List.not_mem_nil
      restarted := fun hc => absurd (t.isInit rfl) hc }

end

/-! ## The actions of a start and a stop -/

section

variable {s : State} {c : Caller} {ok : Bool} {rest : List Action} {r : State × Caller}

/-- After an action that destroys nothing, what is left needs nothing new. -/
theorem Turn.okUse {a : Action} (t : Turn s c a rest) {s' : State}
    (hinits : s'.inits = s.inits) (hlog : ∀ r, Released s'.log r ↔ Released s.log r)
    (hevent : s'.waitForStartEvent = s.waitForStartEvent) (hpipes : s'.pipes = s.pipes)
    (hinit : s'.isCtrlLearnInitialized = s.isCtrlLearnInitialized)
    (hthread : s'.ctrlLearnThread = s.ctrlLearnThread) : ∀ b ∈ rest, OkIn s' b :=
  fun _ hb => (t.okRest hb).of_use (t.follows hb).1 hinits hlog hevent hpipes hinit hthread

theorem exec_signal (t : Turn s c .signal rest)
    (h : exec s { c with pending := rest } ok .signal = some r) :
    Inv { r.1 with caller := some r.2 } := by
  cases h
  exact t.goesOn ⟨rfl, rfl, rfl, rfl, rfl, rfl, rfl, rfl⟩ (t.inv.ledgered.used t.ok)
    (fun _ hx => .inl (released_use.mp hx))
    (t.okUse rfl (fun _ => released_use) rfl rfl rfl rfl) nofun nofun nofun

theorem exec_writeQuit (t : Turn s c .writeQuit rest)
    (h : exec s { c with pending := rest } ok .writeQuit = some r) :
    Inv { r.1 with caller := some r.2 } := by
  have hl := t.inv.ledgered.used t.ok
  simp only [exec] at h
  split at h <;> cases h
  · exact t.goesOn ⟨rfl, rfl, rfl, rfl, rfl, rfl, rfl, rfl⟩ hl (fun _ hx => .inl (released_use.mp hx))
      (t.okUse rfl (fun _ => released_use) rfl rfl rfl rfl) nofun nofun nofun
  · exact t.fails (by decide) ⟨rfl, rfl, rfl, rfl, rfl, rfl, rfl, rfl⟩ hl
      fun _ hx => released_use.mp hx

theorem exec_clearStart (t : Turn s c .clearStart rest)
    (h : exec s { c with pending := rest } ok .clearStart = some r) :
    Inv { r.1 with caller := some r.2 } := by
  cases h
  exact t.goesOn ⟨rfl, rfl, rfl, rfl, rfl, rfl, rfl, rfl⟩ t.inv.ledgered (fun _ hx => .inl hx)
    (t.okUse rfl (fun _ => Iff.rfl) rfl rfl rfl rfl) nofun nofun nofun

/-- What a stop goes on with. -/
def Action.ofStop : Action → Bool
  | .stopBranch | .signal | .writeQuit | .clearStart => true
  | _ => false

/-- A stop goes on with one of its branches, and then with what is left of the call. -/
theorem Turn.branches {a : Action} (t : Turn s c a rest) {s' : State} {more : List Action}
    (ha : a = .stop ∨ a = .stopBranch) (hmore : ∀ b ∈ more, b.ofStop = true)
    (horder : more.Pairwise Follows) (hok : ∀ b ∈ more ++ rest, OkIn s' b)
    (hlive : s'.ctrlLearnThread.live = s.ctrlLearnThread.live)
    (hstop : s'.ctrlLearnStopSignal = true ∨ (a ≠ .stop ∧ s'.ctrlLearnStopSignal = s.ctrlLearnStopSignal))
    (hdown : s'.isDown = s.isDown) (hrestarted : s'.restarted = s.restarted) :
    CallerOk s' (({ c with pending := rest } : Caller).andThen more) := by
  have hinit : a.ofInit = false := by rcases ha with rfl | rfl <;> rfl
  have hjoin : a ≠ .threadDestroy := by rcases ha with rfl | rfl <;> nofun
  refine t.callerOk.goesOn t.pending more hok ?_ ?_ ?_ ?_ (fun _ => hlive) ?_ ?_ hrestarted
  · refine List.pairwise_append.mpr ⟨horder, t.order.of_cons, fun b hb x hx => ?_⟩
    have hb' := hmore b hb
    cases b <;> cases hb' <;> exact ⟨(t.follows hx).1, nofun, nofun, nofun⟩
  · intro b hb
    have hb' := hmore b hb
    cases b <;> cases hb' <;> exact hinit.symm
  · intro b hb
    have hb' := hmore b hb
    rintro (rfl | rfl) <;> cases hb'
  · rcases ha with rfl | rfl <;> nofun
  · intro hmem
    rcases hstop with hstop | ⟨hne, hsame⟩
    · exact .inr hstop
    · rcases List.mem_append.mp hmem with hm | hm
      · exact absurd (hmore _ hm) (by decide)
      · have hsignal := t.callerOk.signal_rest t.pending (fun he => absurd he hne) hm
        exact hsame ▸ hsignal.imp_left (List.mem_append_right _)
  · intro b hb hr
    rcases List.mem_append.mp hb with hm | hm
    · have hb' := hmore b hm
      cases b <;> cases hb' <;> cases hr
    · exact hdown ▸ (t.callerOk.releases_rest t.pending hjoin hm hr).imp_left (List.mem_append_right _)

theorem exec_stopBranch (t : Turn s c .stopBranch rest)
    (h : exec s { c with pending := rest } ok .stopBranch = some r) :
    Inv { r.1 with caller := some r.2 } := by
  have hok : ∀ b ∈ (if s.isCtrlLearnStart then [Action.writeQuit, .clearStart] else [.signal]) ++ rest,
      OkIn s b := by
    intro b hb
    rcases List.mem_append.mp hb with hb | hb
    · obtain ⟨hquit, hevent⟩ := t.ok
      cases hstart : s.isCtrlLearnStart <;> rw [hstart] at hb
      · cases List.mem_singleton.mp hb
        exact hevent hstart
      · rcases List.mem_cons.mp hb with rfl | hb
        · exact hquit hstart
        · cases List.mem_singleton.mp hb
          trivial
    · exact t.okRest hb
  cases h
  refine t.framed rfl (.refl s) t.inv.ledgered (fun _ hx => .inl hx)
    (t.branches (.inr rfl) ?_ ?_ hok rfl (.inr ⟨nofun, rfl⟩) rfl rfl)
  · cases s.isCtrlLearnStart <;> decide
  · cases s.isCtrlLearnStart <;> decide

theorem exec_stop (t : Turn s c .stop rest) (h : exec s { c with pending := rest } ok .stop = some r) :
    Inv { r.1 with caller := some r.2 } := by
  simp only [exec] at h
  split at h <;> rename_i hinit <;> cases h
  · have hrestarted : s.restarted = false := t.callerOk.restarted (t.notInit rfl)
    refine t.inv.goesOn t.caller rfl t.inv.ledgered
      ⟨t.inv.phase.released, fun hd => ⟨rfl, (t.inv.phase.quiet hd).2⟩, t.inv.phase.born⟩ rfl
      (fun hr => absurd (hrestarted.symm.trans hr) (by decide)) (fun hd => ⟨rfl, .inl hd⟩)
      (t.branches (.inl rfl) (by decide) (by decide) ?_ rfl (.inl rfl) rfl rfl)
    intro b hb
    rcases List.mem_cons.mp hb with rfl | hb
    · exact t.ok
    · exact t.okUse rfl (fun _ => Iff.rfl) rfl rfl rfl rfl b hb
  · exact t.goesOn (.refl s) t.inv.ledgered (fun _ hx => .inl hx) (fun b hb => t.okRest hb) nofun
      (fun _ => eq_false_of_ne_true hinit) nofun

end

/-! ## The actions of a deinit -/

section

variable {s s' : State} {c : Caller} {ok : Bool} {a : Action} {rest : List Action} {r : State × Caller}

/-- A deinit that finds the library initialized begins before any deinit has joined the thread. -/
theorem exec_deinit (t : Turn s c .deinit rest)
    (h : exec s { c with pending := rest } ok .deinit = some r) :
    Inv { r.1 with caller := some r.2 } := by
  have hrest : rest = [] :=
    List.eq_nil_iff_forall_not_mem.mpr fun b hb => (t.follows hb).2.2.1 rfl
  subst hrest
  have hcall : c.call = .deinit := t.callerOk.deinits .deinit (by simp [t.pending]) (.inl rfl)
  simp only [exec] at h
  split at h <;> rename_i hinit <;> cases h
  · have hlive : s.ctrlLearnThread.live = true := t.ok hinit
    have hup : s.isDown = false := by simp [State.isDown, hlive]
    have hok : ∀ b ∈ Action.stop :: deinitActions, OkIn s b := by
      simp only [deinitActions, closeActions, List.cons_append, List.nil_append, List.forall_mem_cons]
      have hnone := t.inv.up hup
      exact ⟨⟨fun _ => hnone _, fun _ => hnone _⟩, ⟨hinit, hlive⟩, trivial, hnone _, hnone _, hnone _,
        hnone _, trivial, trivial, fun _ hb => absurd hb List.not_mem_nil⟩
    have hkind : ∀ b ∈ Action.stop :: deinitActions, b.ofInit = false := by decide
    refine t.framed rfl (.refl s) t.inv.ledgered (fun _ hx => .inl hx)
      (t.callerOk.goesOn t.pending _ ?_ ?_ ?_ (fun _ _ _ => hcall) nofun (fun _ => rfl)
        ?_ ?_ rfl) <;> cases hsignal : s.ctrlLearnStopSignal
    · exact fun b hb => hok b (by simpa using hb)
    · exact fun b hb => hok b (List.mem_cons_of_mem _ (by simpa using hb))
    · decide
    · decide
    · exact hkind
    · exact fun b hb => hkind b (List.mem_cons_of_mem _ hb)
    · exact fun _ => .inl (by decide)
    · exact fun _ => .inr rfl
    · exact fun _ _ _ => .inl (by decide)
    · exact fun _ _ _ => .inl (by decide)
  · exact t.goesOn (.refl s) t.inv.ledgered (fun _ hx => .inl hx)
      (fun _ hb => absurd hb List.not_mem_nil) nofun nofun nofun

/-- What comes after the join destroys. -/
theorem Turn.releaseRest (t : Turn s c a rest) (ha : a.isRelease = true ∨ a = .threadDestroy)
    {b : Action} (hb : b ∈ rest) : (b.isRelease = true ∨ b = .fdbUcDbDeinit) ∧ a ≠ b :=
  (t.follows hb).2.2.2 ha

/-- What is left to be destroyed is not the resource that was. -/
theorem Turn.okRelease (t : Turn s c a rest) (ha : a.isRelease = true ∨ a = .threadDestroy)
    {x : Resource} (hlog : ∀ y, Released s'.log y → y = x ∨ Released s.log y)
    (hgen : ∀ p, (s'.pipes p).gen = (s.pipes p).gen)
    (hx : ∀ p e, .fd p e (s.pipes p).gen = x → a = .close p e) : ∀ b ∈ rest, OkIn s' b := by
  intro b hb
  obtain ⟨hrelease, hne⟩ := t.releaseRest ha hb
  refine .of_release hrelease fun p e hclose hr => ?_
  subst hclose
  rw [hgen] at hr
  rcases hlog _ hr with heq | hr
  · exact hne (hx p e heq)
  · exact t.okRest hb hr

theorem exec_threadDestroy (t : Turn s c .threadDestroy rest)
    (hothers : ∀ k ≤ s.inits, k ≠ s.ctrlLearnThread.gen → ¬Alive s.threads k)
    (h : exec s { c with pending := rest } ok .threadDestroy = some r) :
    Inv { r.1 with caller := some r.2 } := by
  obtain ⟨hinit, hlive⟩ := t.ok
  have hmem : .threadDestroy ∈ c.pending := by simp [t.pending]
  have hcall : c.call = .deinit := t.callerOk.deinits _ hmem (.inr rfl)
  have hup : s.isDown = false := by simp [State.isDown, hlive]
  have hsignal : s.ctrlLearnStopSignal = true := by
    refine (t.callerOk.signal hmem).resolve_left fun hs => ?_
    rw [t.pending] at hs
    exact absurd (t.follows ((List.mem_cons.mp hs).resolve_left nofun)).1 (by decide)
  simp only [exec] at h
  rw [if_pos hlive] at h
  split at h <;> rename_i hexited <;> cases h
  have hdown : State.isDown { s.record (.destroy (.thread s.ctrlLearnThread.gen)) with
      ctrlLearnThread := s.ctrlLearnThread.dead } = true := by
    simp [State.isDown, State.record, Holder.dead, hinit]
  have hquiet : ∀ k, ¬Alive s.threads k := by
    intro k hk
    by_cases hgen : k = s.ctrlLearnThread.gen
    · obtain ⟨pc, hpc, hne⟩ := alive_iff.mp hk
      rw [hgen, hexited] at hpc
      exact hne (Option.some.inj hpc).symm
    · exact hothers k (t.inv.phase.born k hk) hgen hk
  refine t.inv.goesOn t.caller rfl (t.inv.ledgered.threadDestroyed (t.inv.up hup _))
    ⟨fun _ _ => hdown, fun _ => ⟨hsignal, hquiet⟩, t.inv.phase.born⟩ rfl t.inv.history.restarted
    (fun _ => ⟨rfl, .inr hcall⟩) ?_
  refine t.callerOk.goesOn t.pending [] ?_ t.order.of_cons (fun _ hb => absurd hb List.not_mem_nil)
    (fun _ hb => absurd hb List.not_mem_nil) nofun (fun hc => ?_) ?_ ?_ rfl
  · exact t.okRelease (.inr rfl) (fun _ => released_destroy.mp) (fun _ => rfl) (fun _ _ => nofun)
  · have hcreated := (t.callerOk.live hc).1
    rw [hcall] at hcreated
    cases hcreated
  · exact fun _ => .inr hsignal
  · exact fun _ _ _ => .inr hdown

/-- The other resources are destroyed after the join. -/
theorem Turn.down (t : Turn s c a rest) (ha : a.isRelease = true) : s.isDown = true := by
  refine (t.callerOk.releases a (by simp [t.pending]) ha).resolve_left fun hd => ?_
  rw [t.pending] at hd
  rcases List.mem_cons.mp hd with rfl | hd
  · cases ha
  · have hrelease := (t.releaseRest (.inl ha) hd).1
    simp [Action.isRelease] at hrelease

theorem Turn.releases (t : Turn s c a rest) (ha : a.isRelease = true) (hframe : Frame s s')
    (hledgered : Ledgered s'.log s'.inits s'.waitForStartEvent s'.ctrlLearnFdbLock s'.ctrlLearnThread
      s'.pipes)
    {x : Resource} (hlog : ∀ y, Released s'.log y → y = x ∨ Released s.log y)
    (hgen : ∀ p, (s'.pipes p).gen = (s.pipes p).gen)
    (hx : ∀ p e, .fd p e (s.pipes p).gen = x → a = .close p e) :
    Inv { s' with caller := some { c with pending := rest } } :=
  t.goesOn hframe hledgered (fun _ _ => .inr (t.down ha)) (t.okRelease (.inl ha) hlog hgen hx)
    (by rintro rfl; cases ha) (by rintro rfl; cases ha) (by rintro rfl; cases ha)

theorem exec_eventDestroy (t : Turn s c .eventDestroy rest)
    (h : exec s { c with pending := rest } ok .eventDestroy = some r) :
    Inv { r.1 with caller := some r.2 } := by
  simp only [exec] at h
  split at h <;> rename_i hlive <;> cases h
  · exact t.releases rfl ⟨rfl, rfl, rfl, rfl, rfl, rfl, rfl, rfl⟩ (t.inv.ledgered.eventDestroyed hlive)
      (fun _ => released_destroy.mp) (fun _ => rfl) (fun _ _ => nofun)
  · exact t.goesOn (.refl s) t.inv.ledgered (fun _ hx => .inl hx) (fun b hb => t.okRest hb) nofun nofun
      nofun

theorem exec_spinlockDestroy (t : Turn s c .spinlockDestroy rest)
    (h : exec s { c with pending := rest } ok .spinlockDestroy = some r) :
    Inv { r.1 with caller := some r.2 } := by
  simp only [exec] at h
  split at h <;> rename_i hlive <;> cases h
  · exact t.releases rfl ⟨rfl, rfl, rfl, rfl, rfl, rfl, rfl, rfl⟩ (t.inv.ledgered.lockDestroyed hlive)
      (fun _ => released_destroy.mp) (fun _ => rfl) (fun _ _ => nofun)
  · exact t.goesOn (.refl s) t.inv.ledgered (fun _ hx => .inl hx) (fun b hb => t.okRest hb) nofun nofun
      nofun

theorem exec_close {p : Pipe} {e : PipeEnd} (t : Turn s c (.close p e) rest)
    (h : exec s { c with pending := rest } ok (.close p e) = some r) :
    Inv { r.1 with caller := some r.2 } := by
  cases h
  refine t.releases rfl ⟨rfl, rfl, rfl, rfl, rfl, rfl, rfl, rfl⟩ (t.inv.ledgered.closed t.ok)
    (fun _ => released_destroy.mp) (fun q => update_dead_gen s.pipes p q) (fun q e' heq => ?_)
  obtain ⟨hp, he, -⟩ := Resource.fd.inj heq
  rw [hp, he]

theorem exec_fdbUcDbDeinit (t : Turn s c .fdbUcDbDeinit rest)
    (h : exec s { c with pending := rest } ok .fdbUcDbDeinit = some r) :
    Inv { r.1 with caller := some r.2 } := by
  simp only [exec] at h
  split at h <;> cases h
  · exact t.goesOn ⟨rfl, rfl, rfl, rfl, rfl, rfl, rfl, rfl⟩ t.inv.ledgered (fun _ hx => .inl hx)
      (t.okUse rfl (fun _ => Iff.rfl) rfl rfl rfl rfl) nofun nofun nofun
  · exact t.fails (by decide) (.refl s) t.inv.ledgered fun _ hx => hx

end

/-- **An action of a call keeps the invariant.** -/
theorem exec_inv {s : State} {c : Caller} {a : Action} {rest : List Action} {ok : Bool}
    {r : State × Caller} (t : Turn s c a rest) (hmeet : Meets s (.caller ok))
    (h : exec s { c with pending := rest } ok a = some r) : Inv { r.1 with caller := some r.2 } := by
  have hnext : s.next = some a := by simp [State.next, t.caller, t.pending]
  cases a with
  | eventInit => exact exec_eventInit t h
  | fdbUcDbInit => exact exec_fdbUcDbInit t h
  | pipe p => exact exec_pipe t h
  | spinlockInit => exact exec_spinlockInit t h
  | threadInit =>
    obtain ⟨rfl, hstop⟩ := hmeet.1 hnext
    exact exec_threadInit t hstop h
  | setInitialized => exact exec_setInitialized t h
  | signal => exact exec_signal t h
  | stop => exact exec_stop t h
  | stopBranch => exact exec_stopBranch t h
  | writeQuit => exact exec_writeQuit t h
  | clearStart => exact exec_clearStart t h
  | deinit => exact exec_deinit t h
  | threadDestroy => exact exec_threadDestroy t (hmeet.2 hnext) h
  | eventDestroy => exact exec_eventDestroy t h
  | close p e => exact exec_close t h
  | spinlockDestroy => exact exec_spinlockDestroy t h
  | fdbUcDbDeinit => exact exec_fdbUcDbDeinit t h

/-! ## A call begins and returns -/

theorem Ledgered.mono {log : List (Op Resource)} {inits inits' : Nat} {event lock thread : Holder}
    {pipes : Pipe → Holder} (h : Ledgered log inits event lock thread pipes) (hle : inits ≤ inits') :
    Ledgered log inits' event lock thread pipes :=
  ⟨h.clean, fun r hr => Nat.le_trans (h.bound r hr) hle, ⟨Nat.le_trans h.event.1 hle, h.event.2⟩,
    ⟨Nat.le_trans h.lock.1 hle, h.lock.2⟩, fun p => ⟨Nat.le_trans (h.pipe p).1 hle, (h.pipe p).2⟩,
    Nat.le_trans h.thread hle⟩

/-- A call has what its first actions need. -/
theorem okIn_actions {s : State} {call : Call} (hinv : Inv s) (hmeet : Meets s (.call call)) :
    ∀ a ∈ call.actions, OkIn (s.beginCall call) a := by
  have hl := hinv.ledgered
  have hevent : (s.isDown = true → s.waitForStartEvent.live = true) →
      ¬Released s.log (.event s.waitForStartEvent.gen) := by
    intro h hr
    exact hl.event.2 (h (hinv.phase.released _ hr)) hr
  cases call with
  | init =>
    have hnew : ∀ r : Resource, r.gen = s.inits + 1 → ¬Released s.log r :=
      fun r hgen hr => absurd (hl.bound r hr) (by omega)
    simp only [Call.actions, initActions, List.forall_mem_cons]
    exact ⟨hnew _ rfl, trivial, fun _ => hnew _ rfl, fun _ => hnew _ rfl, hnew _ rfl, hnew _ rfl, trivial,
      fun _ h => absurd h List.not_mem_nil⟩
  | start =>
    intro a ha
    cases List.mem_singleton.mp ha
    exact hevent hmeet
  | stop =>
    intro a ha
    cases List.mem_singleton.mp ha
    refine ⟨fun hstart hr => ?_, fun hstart => hevent fun hd => ?_⟩
    · have hopen := hmeet (hinv.phase.released _ hr)
      change s.isCtrlLearnStart = true at hstart
      rw [if_pos hstart] at hopen
      exact (hl.pipe .quit).2 hopen .write hr
    · have hopen := hmeet hd
      change s.isCtrlLearnStart = false at hstart
      rwa [if_neg (by simp [hstart])] at hopen
  | deinit =>
    intro a ha
    cases List.mem_singleton.mp ha
    intro hinit
    change s.isCtrlLearnInitialized = true at hinit
    have hup : (s.isCtrlLearnInitialized && !s.ctrlLearnThread.live) = false := hmeet
    change s.ctrlLearnThread.live = true
    simpa [hinit] using hup

/-- What a call does first. -/
theorem actions_ordered (call : Call) : call.actions.Pairwise Follows ∧
    (∀ a ∈ call.actions, a.ofInit = (call == .init) ∧ a.isRelease = false ∧ a ≠ .threadDestroy ∧
      (a = .deinit → call = .deinit)) := by
  cases call <;> decide

theorem beginCall_inv {s : State} {call : Call} (hinv : Inv s) (hidle : s.caller = none)
    (hmeet : Meets s (.call call)) : Inv (s.beginCall call) := by
  have hle : s.inits ≤ (s.beginCall call).inits := by
    change s.inits ≤ if call = .init then s.inits + 1 else s.inits
    split <;> omega
  have hordered := actions_ordered call
  refine ⟨hinv.ledgered.mono hle,
    ⟨hinv.phase.released, hinv.phase.quiet, fun k hk => Nat.le_trans (hinv.phase.born k hk) hle⟩,
    ⟨hinv.history.returns, nofun, fun hd => ?_⟩, fun c hc => ?_⟩
  · refine .inl ((hinv.history.down hd).resolve_right ?_)
    simp [State.deiniting, hidle]
  · cases hc
    exact {
      ok := okIn_actions hinv hmeet
      order := hordered.1
      kind := fun a ha => (hordered.2 a ha).1
      deinits := fun a ha h => by
        obtain ⟨-, -, hjoin, hdeinit⟩ := hordered.2 a ha
        exact h.elim hdeinit fun h => absurd h hjoin
      created := fun h _ => by
        cases h
        exact .inr (by decide)
      running := fun _ => rfl
      live := nofun
      signal := fun h => absurd rfl (hordered.2 _ h).2.2.1
      releases := fun a ha h => absurd ((hordered.2 a ha).2.1.symm.trans h) (by decide)
      restarted := fun _ => rfl }

theorem endCall_inv {s : State} {c : Caller} (hinv : Inv s) (hc : s.caller = some c)
    (hpending : c.pending = []) : Inv (s.endCall c) := by
  refine ⟨hinv.ledgered, hinv.phase, ⟨fun x hx => ?_, hinv.history.restarted, fun hd => .inl ?_⟩, nofun⟩
  · rcases List.mem_cons.mp hx with rfl | hx
    · intro hinit hcreated
      refine ((hinv.caller c hc).created hinit hcreated).resolve_right ?_
      rw [hpending]
      exact List.not_mem_nil
    · exact hinv.history.returns x hx
  · have hdown := hinv.history.down hd
    change (s.deinitSince || c.call == .deinit) = true
    simpa [State.deiniting, hc, Bool.or_eq_true] using hdown

/-- **Every step that meets the condition keeps the invariant.** -/
theorem step_inv {s s' : State} {e : Event} (hinv : Inv s) (hmeet : Meets s e)
    (h : step s e = some s') : Inv s' := by
  cases e with
  | call call =>
    simp only [step] at h
    split at h <;> rename_i hidle <;> cases h
    exact beginCall_inv hinv (Option.isNone_iff_eq_none.mp hidle) hmeet
  | caller ok =>
    obtain ⟨c, hc, h⟩ := Option.bind_eq_some_iff.mp h
    unfold callerStep at h
    split at h
    next hpending =>
      cases h
      exact endCall_inv hinv hc hpending
    next a rest hpending =>
      obtain ⟨r, hexec, rfl⟩ := Option.map_eq_some_iff.mp h
      exact exec_inv ⟨hinv, hc, hpending⟩ hmeet hexec
  | thread k input => exact threadStep_inv hinv h

/-! ## The runs -/

/-- A start signals the event. -/
theorem run_start {s : State} (hidle : s.caller = none) :
    ∃ s', Runs.run step s [.call .start, .caller true, .caller true] = some s' ∧
      s'.threads = s.threads ∧ s'.ctrlLearnStopSignal = s.ctrlLearnStopSignal ∧ s'.signaled = true := by
  have hcall : step s (.call .start) = some (s.beginCall .start) := by
    rw [step, hidle]
    rfl
  rw [Runs.run_cons_some hcall]
  exact ⟨_, rfl, rfl, rfl, rfl⟩

/-- The thread goes on from one place to the next. -/
theorem step_thread {s s₁ : State} {k : Nat} {pc pc' : Pc} (hpc : s.threads k = some pc)
    (h : pcStep s pc .ok = some (s₁, pc')) :
    ∃ s', step s (.thread k .ok) = some s' ∧ s'.threads k = some pc' ∧
      s'.ctrlLearnStopSignal = s₁.ctrlLearnStopSignal := by
  refine ⟨{ s₁ with threads := Function.update s₁.threads k (some pc') }, ?_, Function.update_self .., rfl⟩
  rw [step, threadStep, hpc, Option.bind_some, h]
  rfl

/-- A start that finds the thread waiting and no stop signal brings it to its `select`. -/
theorem comesUp_of_waitStart {s : State} (hidle : s.caller = none) (hstop : s.ctrlLearnStopSignal = false)
    (hwait : s.threads s.ctrlLearnThread.gen = some .waitStart) : s.comesUp = true := by
  unfold State.comesUp startRun
  generalize s.ctrlLearnThread.gen = k at *
  obtain ⟨s₁, hrun, hthreads, hstop₁, hsignaled⟩ := run_start hidle
  rw [Runs.run_append, hrun, Option.bind_some]
  have hwoken : pcStep s₁ .waitStart .ok = some (s₁.eventTaken, .checkStop) := if_pos hsignaled
  obtain ⟨s₂, h₂, hpc₂, hstop₂⟩ := step_thread ((congrFun hthreads k).trans hwait) hwoken
  have hclear : s₂.ctrlLearnStopSignal = false := hstop₂.trans (hstop₁.trans hstop)
  have hgoes : pcStep s₂ .checkStop .ok = some (s₂, .eventFdSet) := by
    simp [pcStep, hclear]
  obtain ⟨s₃, h₃, hpc₃, -⟩ := step_thread hpc₂ hgoes
  obtain ⟨s₄, h₄, hpc₄, -⟩ := step_thread hpc₃ rfl
  obtain ⟨s₅, h₅, hpc₅, -⟩ := step_thread hpc₄ rfl
  obtain ⟨s₆, h₆, hpc₆, -⟩ := step_thread hpc₅ rfl
  obtain ⟨s₇, h₇, hpc₇, -⟩ := step_thread hpc₆ rfl
  obtain ⟨s₈, h₈, hpc₈, -⟩ := step_thread hpc₇ rfl
  simp [List.replicate, Runs.run_cons, h₂, h₃, h₄, h₅, h₆, h₇, h₈, State.inSelect, hpc₈]

theorem Inv.orderly {s : State} (h : Inv s) : Orderly s where
  destroyedOnce := fun r => h.ledgered.clean.count_destroy r
  notUsedAfter := fun r later earlier hlog => by
    have hclean := h.ledgered.clean
    rw [hlog] at hclean
    exact hclean.not_used_after
  initReturns := h.history.returns
  restarts := fun hidle hr hwait => comesUp_of_waitStart hidle (h.history.restarted hr) hwait

/-- **In every run whose steps meet the condition, the life cycle keeps what it is to keep.** -/
theorem orderly_run {s : State} (events : List Event) (hmeet : AllMeet step Meets .initial events)
    (hrun : Runs.run step .initial events = some s) : Orderly s :=
  (Runs.invariant step_inv events inv_initial hmeet hrun).orderly

/-- The next actions of the call on its way, each with a good answer. -/
def goOn (n : Nat) : List Event := List.replicate n (.caller true)

/-- An init that creates its thread. -/
def initRun : List Event := .call .init :: goOn 8

/-- A deinit after a stop, from its first action to its return. -/
def deinitRun : List Event := .call .deinit :: goOn 10

/-- A start, an event that the thread handles, a stop and the end of the thread. -/
def serveRun (k : Nat) : List Event :=
  startRun k ++ [.thread k (.oesEvent true), .thread k .ok, .call .stop] ++ goOn 5 ++ [.thread k .ok]

/-- One life of the library. -/
theorem orderly_run_once : ∃ s, Runs.run step .initial (initRun ++ serveRun 1 ++ deinitRun) = some s ∧
    Orderly s :=
  ⟨_, rfl, orderly_run (initRun ++ serveRun 1 ++ deinitRun) (by decide +kernel) rfl⟩

/-- A deinit that finds the thread waiting for the start: it stops it first. -/
def stopAndDeinitRun : List Event :=
  .call .deinit :: goOn 4 ++ [.thread 1 .ok, .thread 1 .ok] ++ goOn 9

/-- **The life cycle is broken**: an init whose thread is not created returns 0; a second deinit closes
the descriptors again; and the thread of an init after a deinit does not come to its `select`. -/
theorem lifeCycle_broken :
    (∃ s, Runs.run step .initial (.call .init :: goOn 5 ++ [.caller false] ++ goOn 7) = some s ∧
      s.returns = [⟨.init, false, 0⟩] ∧ ¬Orderly s) ∧
    (∃ s, Runs.run step .initial (initRun ++ stopAndDeinitRun ++ .call .deinit :: goOn 10) = some s ∧
      s.log.count (.destroy (.fd .quit .read 1)) = 2 ∧ ¬Orderly s) ∧
    (∃ s, Runs.run step .initial (initRun ++ stopAndDeinitRun ++ initRun) = some s ∧
      s.threads 2 = some .waitStart ∧ s.comesUp = false ∧ ¬Orderly s) := by
  refine ⟨⟨_, rfl, rfl, fun h => ?_⟩, ⟨_, rfl, ?_, fun h => ?_⟩, ⟨_, rfl, rfl, ?_, fun h => ?_⟩⟩
  · exact h.initReturns ⟨.init, false, 0⟩ (by decide) rfl rfl rfl
  · decide +kernel
  · exact absurd (h.destroyedOnce (.fd .quit .read 1)) (by decide +kernel)
  · decide +kernel
  · exact absurd (h.restarts rfl rfl rfl) (by decide +kernel)

end MlnxLib.CtrlLearn.LifeCycle
