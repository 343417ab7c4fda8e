import MlnxLib.Lib.CircularQueue
import MlnxLib.Lib.Runs
import MlnxLib.SxRpc.Defs

/-!
# The work queues of the RPC server

Model of the three ring buffers of `sx_rpc_common.c`, of the event that goes with them and of the loop
of `sx_rpc_worker_thread`.

* `ClEvent` — `cl_event_t` of `cl_event.c`; each operation is one step under its mutex, and a wait is
  two: up to the wait for the condition, and after it.
* `WorkerPc` — where the worker thread stands.
* `step` — one step of a producer (the push of `sx_rpc_client_handler`, then its signal) or of the
  worker.  A condition wait returns at any time; a push is made only while its ring has room.

Principal result: `no_lost_wakeup` — while the worker waits and the event is not signalled, the rings
are empty or a producer is about to signal.
-/

set_option autoImplicit false

namespace MlnxLib.SxRpc

open CircularQueue Runs

/-! ## Events -/

/-- `cl_event_t`. -/
structure ClEvent where
  signaled : Bool
  manualReset : Bool
  deriving DecidableEq, Repr

/-- `cl_event_init`. -/
def clEventInit (manualReset : Bool) : ClEvent := ⟨false, manualReset⟩

/-- `cl_event_signal`. -/
def clEventSignal (event : ClEvent) : ClEvent := { event with signaled := true }

/-- The end of `cl_event_wait_on`: the event is reset, unless that is done by hand. -/
def clEventReset (event : ClEvent) : ClEvent :=
  if event.manualReset then event else { event with signaled := false }

/-! ## The rings -/

/-- `work_queue_size` of the ring of each priority. -/
def workQueueSize : CmdPriority → Nat
  | .high => 20
  | .medium => 50
  | .low => 20

/-- The rings after `sx_rpc_open_sx_worker_td`; their slots hold something that is not used. -/
def openRings {α : Type} (unused : α) (b : CmdPriority) : RingBuffer α :=
  RingBuffer.empty unused (workQueueSize b - 1)

theorem size_openRings {α : Type} (unused : α) (b : CmdPriority) :
    (openRings unused b).size = workQueueSize b := by
  unfold openRings
  rw [RingBuffer.size_empty]
  cases b <;> rfl

/-! ## Producers and worker -/

/-- Where the worker thread stands. -/
inductive WorkerPc where
  /-- Before `cl_event_wait_on`. -/
  | wait
  /-- In the condition wait of `cl_event_wait_on`. -/
  | blocked
  /-- In the loop over the rings, before the test of this one. -/
  | check (b : CmdPriority)
  /-- With an entry of this ring, up to the update of `work_queue_cons`. -/
  | dispatch (b : CmdPriority)
  deriving DecidableEq, Repr

/-- The state that producers and worker share. -/
structure WorkQueues (α : Type) where
  rings : CmdPriority → RingBuffer α
  event : ClEvent
  worker : WorkerPc
  /-- The producers that have pushed and not yet signalled. -/
  pending : List Nat

/-- The steps. -/
inductive WorkAction (α : Type) where
  | push (producer : Nat) (b : CmdPriority) (entry : α)
  | signal (producer : Nat)
  /-- The next step of the worker, unless it waits for the condition. -/
  | worker
  /-- The condition wait returns, signalled or not. -/
  | wake
  deriving DecidableEq, Repr

section

variable {α : Type}

/-- The ring that the loop of the worker tests after this one. -/
def nextCheck : CmdPriority → WorkerPc
  | .high => .check .medium
  | .medium => .check .low
  | .low => .wait

/-- A step of the worker. -/
def workerStep (w : WorkQueues α) : Option (WorkQueues α) :=
  match w.worker with
  | .wait =>
    if w.event.signaled then some { w with event := clEventReset w.event, worker := .check .high }
    else some { w with worker := .blocked }
  | .blocked => none
  | .check b =>
    if (w.rings b).cons ≠ (w.rings b).prod then some { w with worker := .dispatch b }
    else some { w with worker := nextCheck b }
  | .dispatch b =>
    some { w with rings := Function.update w.rings b (w.rings b).pop, worker := .check .high }

/-- A step of a producer or of the worker. -/
def workStep (w : WorkQueues α) : WorkAction α → Option (WorkQueues α)
  | .push producer b entry =>
    if producer ∈ w.pending ∨ (w.rings b).Full then none else
    some { w with
      rings := Function.update w.rings b ((w.rings b).push entry)
      pending := producer :: w.pending }
  | .signal producer =>
    if producer ∈ w.pending then
      some { w with event := clEventSignal w.event, pending := w.pending.erase producer }
    else none
  | .worker => workerStep w
  | .wake =>
    if w.worker = .blocked then
      some { w with event := clEventReset w.event, worker := .check .high }
    else none

/-- The server after its start. -/
def openWorkQueues (unused : α) : WorkQueues α := ⟨openRings unused, clEventInit false, .wait, []⟩

/-! ## The invariant -/

/-- The rings that the worker has found empty since it last took an entry or returned from a wait. -/
def scanned : WorkerPc → List CmdPriority
  | .wait | .blocked => [.high, .medium, .low]
  | .check .high => []
  | .check .medium => [.high]
  | .check .low => [.high, .medium]
  | .dispatch _ => []

/-- An entry in a ring that the worker has passed is announced: the event is signalled, or a producer is
about to signal it. -/
def Announced (w : WorkQueues α) : Prop :=
  w.event.signaled = true ∨ w.pending ≠ [] ∨ ∀ b ∈ scanned w.worker, (w.rings b).items = []

theorem announced_open (unused : α) : Announced (openWorkQueues unused) :=
  Or.inr (Or.inr fun b _ => RingBuffer.items_empty unused (workQueueSize b - 1))

/-- The worker has passed no ring. -/
theorem announced_of_scanned_nil {w : WorkQueues α} (h : scanned w.worker = []) : Announced w := by
  refine Or.inr (Or.inr ?_)
  rw [h]
  intro b hb
  cases hb

/-- A ring that the worker passes is one it has found empty. -/
theorem mem_scanned_next {b b' : CmdPriority} (h : b' ∈ scanned (nextCheck b)) :
    b' ∈ scanned (.check b) ∨ b' = b := by
  revert h
  cases b <;> cases b' <;> decide

theorem workerStep_announced {w w' : WorkQueues α} (h : Announced w) (hstep : workerStep w = some w') :
    Announced w' := by
  unfold workerStep at hstep
  split at hstep
  · -- it enters the wait
    rename_i hpc
    split at hstep
    · cases hstep
      exact announced_of_scanned_nil rfl
    · cases hstep
      unfold Announced at h ⊢
      rw [hpc] at h
      exact h
  · cases hstep
  · rename_i b hpc
    split at hstep
    · cases hstep
      exact announced_of_scanned_nil rfl
    · -- it passes a ring, which is empty at this moment
      rename_i hempty
      cases hstep
      have hitems := (w.rings b).items_eq_nil_iff.mpr (not_not.mp hempty)
      unfold Announced at h ⊢
      rw [hpc] at h
      rcases h with hsignaled | hpending | hscanned
      · exact Or.inl hsignaled
      · exact Or.inr (Or.inl hpending)
      · refine Or.inr (Or.inr ?_)
        intro b' hb'
        rcases mem_scanned_next hb' with hb' | rfl
        · exact hscanned b' hb'
        · exact hitems
  · cases hstep
    exact announced_of_scanned_nil rfl

/-- **Each step keeps the entries announced.** -/
theorem workStep_announced {w w' : WorkQueues α} {a : WorkAction α} (h : Announced w)
    (hstep : workStep w a = some w') : Announced w' := by
  cases a with
  | push producer b entry =>
    rw [workStep] at hstep
    split at hstep
    · cases hstep
    · cases hstep
      exact Or.inr (Or.inl (List.cons_ne_nil _ _))
  | signal producer =>
    rw [workStep] at hstep
    split at hstep
    · cases hstep
      exact Or.inl rfl
    · cases hstep
  | worker => exact workerStep_announced h hstep
  | wake =>
    rw [workStep] at hstep
    split at hstep
    · cases hstep
      exact announced_of_scanned_nil rfl
    · cases hstep

/-- **No wake-up is lost**: in every run, while the worker is in its wait and the event is not signalled,
the rings are empty or a producer has pushed and not yet signalled. -/
theorem no_lost_wakeup (unused : α) (actions : List (WorkAction α)) (w : WorkQueues α)
    (hrun : run workStep (openWorkQueues unused) actions = some w) (hblocked : w.worker = .blocked)
    (hsignaled : w.event.signaled = false) :
    (∀ b, (w.rings b).items = []) ∨ ∃ producer, producer ∈ w.pending := by
  have h : Announced w := invariant_of_step workStep_announced actions (announced_open unused) hrun
  unfold Announced at h
  rw [hblocked] at h
  rcases h with hs | hpending | hscanned
  · rw [hsignaled] at hs
    cases hs
  · exact Or.inr (List.exists_mem_of_ne_nil _ hpending)
  · refine Or.inl ?_
    intro b
    apply hscanned
    cases b <;> decide

end

/-- The worker waits, and a producer has pushed. -/
theorem no_lost_wakeup_pushed : ∃ w, run workStep (openWorkQueues 0) [.worker, .push 4 .low 7] = some w ∧
    ((∀ b, (w.rings b).items = []) ∨ ∃ producer, producer ∈ w.pending) :=
  ⟨_, rfl, no_lost_wakeup 0 [.worker, .push 4 .low 7] _ rfl rfl rfl⟩

end MlnxLib.SxRpc
