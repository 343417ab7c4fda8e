import MlnxLib.Lib.Ledger
import MlnxLib.Lib.Runs
import MlnxLib.CtrlLearn.Defs

/-!
# The life cycle of control learning

Model of `ctrl_learn_init`, `ctrl_learn_start`, `ctrl_learn_stop`, `ctrl_learn_deinit` and of
`ctrl_learn_thread_routine`, with the parts of `cl_event.c`, `cl_thread.c` and `cl_spinlock.c` they
use.  A call is a list of actions, and the steps of the threads come between them in any order.

* `exec` — one action of a call, with what the system answers.
* `pcStep` — one step of a thread.
* `step` — a call, an action of the call on its way, or a step of a thread.
* `Orderly` — what the life cycle is to keep.

What is done to the descriptors, threads, events and locks is kept in a ledger, where each of them
has the number of the init that created it; a descriptor number that the kernel uses again is not
told from the old one.  Steps are sequentially consistent.  Null pointers, logging and the callbacks
are left out.
-/

set_option autoImplicit false

namespace MlnxLib.CtrlLearn.LifeCycle

open Ledger Runs

/-! ## What an init creates -/

inductive Pipe where
  | quit
  | simulate
  deriving DecidableEq, Repr

inductive PipeEnd where
  | read
  | write
  deriving DecidableEq, Repr

/-- A resource and the number of the init that created it. -/
inductive Resource where
  | fd (pipe : Pipe) (e : PipeEnd) (gen : Nat)
  | thread (gen : Nat)
  | event (gen : Nat)
  | lock (gen : Nat)
  deriving DecidableEq, Repr

/-- A variable for a resource: the init it is from, and whether it is `CL_INITIALIZED` or, for a pipe,
whether its descriptors are open. -/
structure Holder where
  gen : Nat
  live : Bool
  deriving DecidableEq, Repr

/-! ## The state -/

/-- Where a thread is in `ctrl_learn_thread_routine`; `select` has the descriptors that were put into
its set. -/
inductive Pc where
  | waitStart
  | checkStop
  | eventFdSet
  | eventRegisterSet
  | learnModeSet
  | setStart
  | loop
  | select (quit simulate : Nat)
  | exited
  deriving DecidableEq, Repr

inductive Call where
  | init
  | start
  | stop
  | deinit
  deriving DecidableEq, Repr

/-- The actions of the calls between which a thread may run. -/
inductive Action where
  | eventInit
  | fdbUcDbInit
  | pipe (p : Pipe)
  | spinlockInit
  | threadInit
  | setInitialized
  | signal
  /-- The body of `ctrl_learn_stop`. -/
  | stop
  /-- Its branch on `is_ctrl_learn_start`. -/
  | stopBranch
  | writeQuit
  | clearStart
  /-- The body of `ctrl_learn_deinit`. -/
  | deinit
  | threadDestroy
  | eventDestroy
  | close (p : Pipe) (e : PipeEnd)
  | spinlockDestroy
  | fdbUcDbDeinit
  deriving DecidableEq, Repr

/-- A call on its way: its actions that are left, whether it created the thread, and `err`. -/
structure Caller where
  call : Call
  pending : List Action
  threadCreated : Bool
  err : Int
  deriving DecidableEq, Repr

/-- A call that returned. -/
structure Return where
  call : Call
  threadCreated : Bool
  err : Int
  deriving DecidableEq, Repr

/-- The variables of the library, the threads, the call on its way, and the history: the ledger, the
calls that returned, whether a deinit has returned since the last thread was created, and whether the
last call was an init that created a thread after such a deinit. -/
structure State where
  isCtrlLearnInitialized : Bool
  isCtrlLearnStart : Bool
  ctrlLearnStopSignal : Bool
  fdbInitiated : Bool
  waitForStartEvent : Holder
  signaled : Bool
  ctrlLearnFdbLock : Holder
  ctrlLearnThread : Holder
  pipes : Pipe → Holder
  quitWrites : Nat
  threads : Nat → Option Pc
  inits : Nat
  caller : Option Caller
  log : List (Op Resource)
  returns : List Return
  deinitSince : Bool
  restarted : Bool

/-- The static variables at the start. -/
def State.initial : State :=
  ⟨false, false, false, false, ⟨0, false⟩, false, ⟨0, false⟩, ⟨0, false⟩, fun _ => ⟨0, false⟩, 0,
    fun _ => none, 0, none, [], [], false, false⟩

def State.record (s : State) (op : Op Resource) : State := { s with log := op :: s.log }

/-! ## The thread -/

/-- What the system does for a step of a thread. -/
inductive ThreadInput where
  | ok
  | fail
  /-- `pthread_cond_wait` returns without a signal; the code does not test for that. -/
  | spurious
  /-- `select` finds an event; `oes_api_event_recv` succeeds or fails. -/
  | oesEvent (received : Bool)
  | simulateEvent
  deriving DecidableEq, Repr

/-- `cl_event_wait_on` returns: the event resets itself. -/
def State.eventTaken (s : State) : State :=
  { s.record (.use (.event s.waitForStartEvent.gen)) with signaled := false }

def State.useFd (s : State) (p : Pipe) (e : PipeEnd) (gen : Nat) : State :=
  s.record (.use (.fd p e gen))

/-- `ctrl_learn_handle_oes_event`, of which only the lock matters here. -/
def State.handleOesEvent (s : State) : State := s.record (.use (.lock s.ctrlLearnFdbLock.gen))

/-- What follows `select` on a set with the given descriptors.  The quit pipe is tested first; a
descriptor is in the set if its variable has not changed since.  With nothing to read, `select` does
not return. -/
def selectStep (s : State) (quit simulate : Nat) : ThreadInput → Option (State × Pc)
  | .fail => some (s, .exited)
  | input =>
    if quit = (s.pipes .quit).gen ∧ 0 < s.quitWrites then
      some ({ s.useFd .quit .read quit with quitWrites := s.quitWrites - 1 }, .exited)
    else match input with
      | .oesEvent true => some (s.handleOesEvent, .loop)
      | .oesEvent false => some (s, .exited)
      | .simulateEvent =>
        if simulate = (s.pipes .simulate).gen then
          some ((s.useFd .simulate .read simulate).handleOesEvent, .loop)
        else some (s, .loop)
      | _ => none

/-- One step of `ctrl_learn_thread_routine`. -/
def pcStep (s : State) : Pc → ThreadInput → Option (State × Pc)
  | .waitStart, .ok => if s.signaled then some (s.eventTaken, .checkStop) else none
  | .waitStart, .spurious => some (s.eventTaken, .checkStop)
  | .waitStart, .fail => some (s.eventTaken, .exited)
  | .checkStop, .ok => some (s, if s.ctrlLearnStopSignal then .exited else .eventFdSet)
  | .eventFdSet, .ok => some (s, .eventRegisterSet)
  | .eventFdSet, .fail => some (s, .exited)
  | .eventRegisterSet, .ok => some (s, .learnModeSet)
  | .eventRegisterSet, .fail => some (s, .exited)
  | .learnModeSet, .ok => some (s, .setStart)
  | .learnModeSet, .fail => some (s, .exited)
  | .setStart, .ok => some ({ s with isCtrlLearnStart := true }, .loop)
  | .loop, .ok => some (s, .select (s.pipes .quit).gen (s.pipes .simulate).gen)
  | .select quit simulate, input =>
    selectStep ((s.useFd .quit .read quit).useFd .simulate .read simulate) quit simulate input
  | _, _ => none

def threadStep (s : State) (k : Nat) (input : ThreadInput) : Option State :=
  (s.threads k).bind fun pc =>
    (pcStep s pc input).map fun r => { r.1 with threads := Function.update r.1.threads k (some r.2) }

/-! ## The calls -/

def initActions : List Action :=
  [.eventInit, .fdbUcDbInit, .pipe .quit, .pipe .simulate, .spinlockInit, .threadInit, .setInitialized]

def closeActions : List Action :=
  [.close .quit .read, .close .quit .write, .close .simulate .read, .close .simulate .write]

/-- From the label `out_pipe` on; it falls through to `out`. -/
def outPipeActions : List Action := closeActions ++ [.spinlockDestroy, .setInitialized]

/-- `ctrl_learn_deinit` after the stop. -/
def deinitActions : List Action :=
  [.threadDestroy, .eventDestroy] ++ closeActions ++ [.spinlockDestroy, .fdbUcDbDeinit]

def Call.actions : Call → List Action
  | .init => initActions
  | .start => [.signal]
  | .stop => [.stop]
  | .deinit => [.deinit]

/-- The call returns with an error. -/
def Caller.fail (c : Caller) (err : Int) : Caller := { c with pending := [], err := err }

/-- The call goes on with these actions. -/
def Caller.andThen (c : Caller) (actions : List Action) : Caller :=
  { c with pending := actions ++ c.pending }

/-- The variable after `cl_event_construct` and the like, or after the object was destroyed. -/
def Holder.dead (h : Holder) : Holder := { h with live := false }

/-- One action of a call, with the answer of the system.  `pthread_join` waits for the thread to end;
destroying an event, a thread or a lock does nothing unless it is `CL_INITIALIZED`, while `close` is
always called. -/
def exec (s : State) (c : Caller) (ok : Bool) : Action → Option (State × Caller)
  | .eventInit =>
    if ok then some ({ s.record (.create (.event s.inits)) with
      waitForStartEvent := ⟨s.inits, true⟩, signaled := false }, c)
    else some ({ s with waitForStartEvent := s.waitForStartEvent.dead }, c.fail (-ENOMEM))
  | .fdbUcDbInit =>
    if s.fdbInitiated then some (s, c) else
    if ok then some ({ s with fdbInitiated := true }, c) else some (s, c.fail (-EPERM))
  | .pipe p =>
    if ok then some ({ (s.record (.create (.fd p .read s.inits))).record (.create (.fd p .write s.inits)) with
      pipes := Function.update s.pipes p ⟨s.inits, true⟩
      quitWrites := if p = .quit then 0 else s.quitWrites }, c)
    else some (s, c.fail (-EPERM))
  | .spinlockInit =>
    if ok then some ({ s.record (.create (.lock s.inits)) with ctrlLearnFdbLock := ⟨s.inits, true⟩ }, c)
    else some ({ s with ctrlLearnFdbLock := s.ctrlLearnFdbLock.dead }, c)
  | .threadInit =>
    if ok then some ({ s.record (.create (.thread s.inits)) with
      ctrlLearnThread := ⟨s.inits, true⟩
      threads := Function.update s.threads s.inits (some .waitStart)
      restarted := s.deinitSince
      deinitSince := false }, { c with threadCreated := true })
    else some ({ s with ctrlLearnThread := s.ctrlLearnThread.dead }, { c with pending := outPipeActions })
  -- `return 0`, also after `out_pipe`
  | .setInitialized => some ({ s with isCtrlLearnInitialized := true }, { c with err := 0 })
  | .signal => some ({ s.record (.use (.event s.waitForStartEvent.gen)) with signaled := true }, c)
  | .stop =>
    if s.isCtrlLearnInitialized then some ({ s with ctrlLearnStopSignal := true }, c.andThen [.stopBranch])
    else some (s, c)
  | .stopBranch =>
    some (s, c.andThen (if s.isCtrlLearnStart then [.writeQuit, .clearStart] else [.signal]))
  | .writeQuit =>
    let s := s.useFd .quit .write (s.pipes .quit).gen
    if ok then some ({ s with quitWrites := s.quitWrites + 1 }, c) else some (s, c.fail (-EPERM))
  | .clearStart => some ({ s with isCtrlLearnStart := false }, c)
  | .deinit =>
    if s.isCtrlLearnInitialized then
      some (s, c.andThen (if s.ctrlLearnStopSignal then deinitActions else .stop :: deinitActions))
    else some (s, c)
  | .threadDestroy =>
    if s.ctrlLearnThread.live then
      if s.threads s.ctrlLearnThread.gen = some .exited then
        some ({ s.record (.destroy (.thread s.ctrlLearnThread.gen)) with
          ctrlLearnThread := s.ctrlLearnThread.dead }, c)
      else none
    else some (s, c)
  | .eventDestroy =>
    if s.waitForStartEvent.live then
      some ({ s.record (.destroy (.event s.waitForStartEvent.gen)) with
        waitForStartEvent := s.waitForStartEvent.dead }, c)
    else some (s, c)
  | .close p e =>
    some ({ s.record (.destroy (.fd p e (s.pipes p).gen)) with
      pipes := Function.update s.pipes p (s.pipes p).dead }, c)
  | .spinlockDestroy =>
    if s.ctrlLearnFdbLock.live then
      some ({ s.record (.destroy (.lock s.ctrlLearnFdbLock.gen)) with
        ctrlLearnFdbLock := s.ctrlLearnFdbLock.dead }, c)
    else some (s, c)
  | .fdbUcDbDeinit =>
    if s.fdbInitiated ∧ ok then some ({ s with fdbInitiated := false }, c) else some (s, c.fail (-EPERM))

/-! ## Runs -/

inductive Event where
  /-- The application calls the library. -/
  | call (c : Call)
  /-- The next action of the call, or its return. -/
  | caller (ok : Bool)
  | thread (k : Nat) (input : ThreadInput)
  deriving DecidableEq, Repr

/-- A call begins, when none is on its way. -/
def State.beginCall (s : State) (c : Call) : State :=
  { s with
    caller := some ⟨c, c.actions, false, 0⟩
    inits := if c = .init then s.inits + 1 else s.inits
    restarted := false }

/-- A call returns. -/
def State.endCall (s : State) (c : Caller) : State :=
  { s with
    caller := none
    returns := ⟨c.call, c.threadCreated, c.err⟩ :: s.returns
    deinitSince := s.deinitSince || c.call == .deinit }

def callerStep (s : State) (c : Caller) (ok : Bool) : Option State :=
  match c.pending with
  | [] => some (s.endCall c)
  | a :: rest => (exec s { c with pending := rest } ok a).map fun r => { r.1 with caller := some r.2 }

def step (s : State) : Event → Option State
  | .call c => if s.caller.isNone then some (s.beginCall c) else none
  | .caller ok => s.caller.bind fun c => callerStep s c ok
  | .thread k input => threadStep s k input

/-- A call of `ctrl_learn_start`, and the thread running up to its `select`. -/
def startRun (k : Nat) : List Event :=
  [.call .start, .caller true, .caller true] ++ List.replicate 7 (.thread k .ok)

def State.inSelect (s : State) (k : Nat) : Bool :=
  match s.threads k with
  | some (.select _ _) => true
  | _ => false

/-- A start brings the thread to its `select`. -/
def State.comesUp (s : State) : Bool :=
  (Runs.run step s (startRun s.ctrlLearnThread.gen)).any (State.inSelect · s.ctrlLearnThread.gen)

/-- **What the life cycle is to keep**: every resource is destroyed at most once and not used after
that; an init that created no thread returns an error; after a deinit, an init and a start bring the
thread, if it waits for the start, to its `select`. -/
structure Orderly (s : State) : Prop where
  destroyedOnce : ∀ r, s.log.count (.destroy r) ≤ 1
  notUsedAfter : ∀ r later earlier, s.log = later ++ .destroy r :: earlier → .use r ∉ later
  initReturns : ∀ x ∈ s.returns, x.call = .init → x.threadCreated = false → x.err ≠ 0
  restarts : s.caller = none → s.restarted = true →
    s.threads s.ctrlLearnThread.gen = some .waitStart → s.comesUp = true

end MlnxLib.CtrlLearn.LifeCycle
