import MlnxLib.Lib.Runs
import MlnxLib.Commu.ReturnCodes

/-!
# A stopped server

A stop judges from `listener_status` whether the thread of a server runs.  The thread sets that
status itself, some time after the start has returned, so a stop that comes earlier returns 0 and
leaves the thread.  An error of a `close` after the join is lost as well.

* `step` — a step of the thread or of the stop.
* `ReallyStopped v` — the thread has exited, and nothing of the server is left in the tables.
* `Meets` — the stop finds the status up, and closes every client.

Principal result: `reallyStopped_iff` — in every interleaving in which the stop returns 0, the server is
really stopped exactly when the steps of the stop meet the condition.
-/

set_option autoImplicit false

namespace MlnxLib.Commu

open SlotTable Runs

/-! ## Runs -/

/-- The server after its start. -/
def Server.started (lib : CommLib) (r : SessionStart) (args : ListenerThreadArgs) : Server :=
  ⟨{ lib with db := r.db }, args, .listen, 0, .check, 0, []⟩

inductive ServerEvent where
  | thread (input : ListenerStep)
  | stop (input : StopStep)

def serverStep (v : Server) : ServerEvent → Option Server
  | .thread input => (listenerMainThread v.args v.lib.db v.exitEvents v.thread input).map fun r =>
    { v.setDb r.1 with exitEvents := r.2.1, thread := r.2.2 }
  | .stop input => stopStep v v.stop input

def Server.id (v : Server) : ServerId := v.args.serverId

def Server.status (v : Server) : ServerStatus := v.lib.db.serverStatusSt v.id

/-- **A server that is really stopped.** -/
structure ReallyStopped (v : Server) : Prop where
  exited : v.thread = .exited
  thread : v.lib.db.listenerThreads v.id = 0
  table : ∀ i, v.lib.db.serverHandles v.id i = INVALID_HANDLE_ID
  status : ∀ i, v.lib.db.statusHandles v.id i = INVALID_HANDLE_ID
  clients : v.status.clientsNum = 0

/-- **The condition on a step.**  When the stop reads the status of the listener it is up, and every
client is closed without an error. -/
def Meets (v : Server) : ServerEvent → Prop
  | .stop .ok => v.stop = .readStatus → v.status.listenerStatus = .up
  | .stop (.closes close) => v.stop = .cleanUp →
    ∀ i, v.lib.db.statusHandles v.id i ≠ INVALID_HANDLE_ID → close (v.lib.db.statusHandles v.id i) = none
  | _ => True

/-! ## What the steps keep -/

theorem acceptConnection_threads (db : Db) (handle : Handle) (a : Accepted) :
    (acceptConnection db handle a).2.listenerThreads = db.listenerThreads := by
  have hset : ∀ db' : Db, (libCummoDbServerStatusClientSet db' handle a.peerInfo a.sIpv4Addr a.sPort
      a.serverId).2.listenerThreads = db'.listenerThreads := by
    intro db'
    unfold libCummoDbServerStatusClientSet
    split <;> rfl
  have hinfo : (handleInfoSet db .tcpServerHandle a.serverId handle a.newInfo).2.listenerThreads =
      db.listenerThreads := by
    obtain ⟨-, hspec⟩ | ⟨loc, -, hspec⟩ := handleInfoSet_spec db .tcpServerHandle a.serverId handle a.newInfo
    · rw [hspec]
    · rw [hspec]
      cases loc <;> rfl
  rw [acceptConnection_eq]
  split
  · exact hinfo
  · rw [hset, hinfo]

/-- A step of the thread leaves the array of the threads. -/
theorem listenerMainThread_threads {args : ListenerThreadArgs} {db db' : Db} {n n' : Nat}
    {pc pc' : ListenerPc} {input : ListenerStep}
    (h : listenerMainThread args db n pc input = some (db', n', pc')) :
    pc ≠ .exited ∧ db'.listenerThreads = db.listenerThreads := by
  cases pc <;> cases input <;> simp only [listenerMainThread, reduceCtorEq] at h
  case loop.accept handle peer localMagic =>
    cases h
    exact ⟨nofun, acceptConnection_threads db handle _⟩
  case loop.exitEvent =>
    split at h <;> cases h
    exact ⟨nofun, rfl⟩
  all_goals
    cases h
    exact ⟨nofun, rfl⟩

theorem statusGetLoop_threads (s : ServerId) (peer : Handle → PeerAnswer) : ∀ (is : List Slot) (db : Db),
    (statusGetLoop s peer is db).2.listenerThreads = db.listenerThreads
  | [], _ => rfl
  | i :: is, db => by
    unfold statusGetLoop
    dsimp only
    split
    · exact statusGetLoop_threads s peer is db
    · split
      · exact statusGetLoop_threads s peer is _
      · exact statusGetLoop_threads s peer is _
      · rfl

/-- The loop over the clients has no error exactly when each of them is closed. -/
theorem closeClients_zero_iff (db : Db) (s : ServerId) (close : Handle → Option Errno) (n : Nat) :
    ∀ (is : List Slot) (closed : List Handle), (closeClients db s close n is closed).1 = 0 ↔
      ∀ i ∈ is, db.statusHandles s i ≠ INVALID_HANDLE_ID → close (db.statusHandles s i) = none
  | [], _ => by simp [closeClients]
  | i :: is, closed => by
    have hhandle : ((db.serverStatusSt s).clientStatus i).handle = db.statusHandles s i := rfl
    unfold closeClients
    dsimp only
    rw [hhandle, List.forall_mem_cons]
    split
    · rename_i hfree
      rw [closeClients_zero_iff db s close n is closed]
      exact (and_iff_right fun hne => absurd hfree hne).symm
    · rename_i hused
      split
      · rename_i e he
        have hpos := e.2
        refine iff_of_false (fun h0 : e.1 = 0 => by omega) fun hall => ?_
        rw [hall.1 hused] at he
        cases he
      · rename_i hclosed
        rw [closeClients_zero_iff db s close n is _]
        exact (and_iff_right fun _ => hclosed).symm

/-- The stop has not returned, and the slot of the thread is still taken. -/
structure Running (v : Server) : Prop where
  thread : v.lib.db.listenerThreads v.id ≠ 0
  joined : v.stop = .cleanUp → v.thread = .exited
  stop : ∀ err, v.stop ≠ .returned err

/-- After the return of the stop, nothing decides any more whether the server is stopped. -/
structure Settled (v : Server) : Prop where
  stop : ∃ err, v.stop = .returned err
  final : v.thread = .exited ∨ v.lib.db.listenerThreads v.id ≠ 0

/-- A step of the thread keeps the slot of its thread, and the stop where it is. -/
theorem threadStep_spec {v v' : Server} {input : ListenerStep}
    (h : serverStep v (.thread input) = some v') : v.thread ≠ .exited ∧ v'.id = v.id ∧
      v'.lib.db.listenerThreads = v.lib.db.listenerThreads ∧ v'.stop = v.stop := by
  obtain ⟨⟨db', n', pc'⟩, hstep, rfl⟩ := Option.map_eq_some_iff.mp h
  obtain ⟨hpc, hthreads⟩ := listenerMainThread_threads hstep
  exact ⟨hpc, rfl, hthreads, rfl⟩

/-- **The end of a stop**: the thread has exited, and the tables are empty exactly when every client
was closed. -/
theorem cleanUp_spec {v : Server} (hexit : v.thread = .exited) (close : Handle → Option Errno) :
    (stopCleanUp v close).stop = .returned 0 ∧ (stopCleanUp v close).thread = .exited ∧
    (ReallyStopped (stopCleanUp v close) ↔ ∀ i, v.lib.db.statusHandles v.id i ≠ INVALID_HANDLE_ID →
      close (v.lib.db.statusHandles v.id i) = none) := by
  refine ⟨rfl, hexit, ?_⟩
  have hzero := closeClients_zero_iff (v.lib.db.setListenerThread v.id 0) v.id close v.handleArrayLen
    (List.finRange TCP_HANDLE_ARR_LENGTH) []
  have hloop : (closeClients (v.lib.db.setListenerThread v.id 0) v.id close v.handleArrayLen
      (List.finRange TCP_HANDLE_ARR_LENGTH) []).1 = 0 ↔ ∀ i,
      v.lib.db.statusHandles v.id i ≠ INVALID_HANDLE_ID → close (v.lib.db.statusHandles v.id i) = none :=
    hzero.trans ⟨fun h i => h i (List.mem_finRange i), fun h i _ => h i⟩
  rw [← hloop]
  by_cases hclosed : (closeClients (v.lib.db.setListenerThread v.id 0) v.id close v.handleArrayLen
      (List.finRange TCP_HANDLE_ARR_LENGTH) []).1 = 0
  · refine iff_of_true ?_ hclosed
    have hdb : (stopCleanUp v close).lib.db =
        (libCommuDbTcpSessionDbDeinit (v.lib.db.setListenerThread v.id 0) v.id).2 :=
      if_neg (not_not.mpr hclosed)
    have htable := deinit_table (v.lib.db.setListenerThread v.id 0) v.id v.id
    have hstatus := deinit_status (v.lib.db.setListenerThread v.id 0) v.id v.id
    rw [if_pos rfl] at htable hstatus
    have hid : (stopCleanUp v close).id = v.id := rfl
    constructor
    · exact hexit
    · rw [hdb, hid]
      exact Function.update_self ..
    · intro i
      rw [hdb, hid, Db.serverHandles, Function.comp_apply, htable]
      rfl
    · intro i
      rw [hdb, hid, Db.statusHandles, Function.comp_apply, hstatus]
      rfl
    · rw [Server.status, hdb, hid, hstatus]
      rfl
  · refine iff_of_false (fun hstop => hclosed ?_) hclosed
    -- the tables are as they were, and a client that was not closed is in them
    have hdb : (stopCleanUp v close).lib.db = v.lib.db.setListenerThread v.id 0 := if_pos hclosed
    have hempty := hstop.status
    rw [hdb] at hempty
    exact hloop.mpr fun i hi => absurd (hempty i) hi

/-- **A step while the stop is on its way**: it goes on, or it returns, and if it returns 0 the server
is really stopped exactly when the step meets the condition. -/
theorem serverStep_cases {v v' : Server} {e : ServerEvent} (h : Running v)
    (hstep : serverStep v e = some v') :
    (Running v' ∧ Meets v e) ∨
    (Settled v' ∧ (v'.stop = .returned 0 → (ReallyStopped v' ↔ Meets v e))) := by
  cases e with
  | thread input =>
    obtain ⟨hpc, hid, hthreads, hstop⟩ := threadStep_spec hstep
    refine Or.inl ⟨⟨?_, ?_, ?_⟩, trivial⟩
    · rw [hthreads, hid]
      exact h.thread
    · rw [hstop]
      exact fun hc => absurd (h.joined hc) hpc
    · rw [hstop]
      exact h.stop
  | stop input =>
    have hsettled : ∀ err, Settled { v with stop := .returned err } :=
      fun err => ⟨⟨err, rfl⟩, Or.inr h.thread⟩
    have hpos : ∀ (e : Errno) {P : Prop}, StopPc.returned (-e.1) = .returned 0 → P := by
      intro e P he
      have hpos := e.2
      have hzero := StopPc.returned.inj he
      omega
    change stopStep v v.stop input = some v' at hstep
    cases hpc : v.stop <;> cases input <;> rw [hpc] at hstep <;>
      simp only [stopStep, reduceCtorEq] at hstep
    case check.args handleArray n =>
      split at hstep
      · cases hstep
        exact Or.inr ⟨hsettled _, fun he => absurd (StopPc.returned.inj he) (by decide)⟩
      split at hstep
      · cases hstep
        exact Or.inr ⟨hsettled _, fun he => absurd (StopPc.returned.inj he) (by decide)⟩
      split at hstep
      · cases hstep
        exact Or.inr ⟨hsettled _, fun he => absurd (StopPc.returned.inj he) (by decide)⟩
      · cases hstep
        exact Or.inl ⟨⟨h.thread, nofun, nofun⟩, trivial⟩
    case statusGet.peers peer =>
      cases hstep
      have hthreads : (libCommuDbTcpServerStatusGet v.lib.db v.args.serverId peer).2.listenerThreads =
          v.lib.db.listenerThreads := statusGetLoop_threads ..
      have hkept : (libCommuDbTcpServerStatusGet v.lib.db v.args.serverId peer).2.listenerThreads v.id ≠
          0 := by
        rw [hthreads]
        exact h.thread
      by_cases herr : (libCommuDbTcpServerStatusGet v.lib.db v.args.serverId peer).1 = 0
      · rw [if_neg (not_not.mpr herr)]
        exact Or.inl ⟨⟨hkept, nofun, nofun⟩, trivial⟩
      · rw [if_pos herr]
        refine Or.inr ⟨⟨⟨_, rfl⟩, Or.inr hkept⟩, fun he => ?_⟩
        have hzero := StopPc.returned.inj he
        exact absurd (by omega) herr
    case readStatus.ok =>
      cases hstep
      by_cases hdown : (v.lib.db.serverStatusSt v.args.serverId).listenerStatus = .down
      · rw [if_pos hdown]
        refine Or.inr ⟨hsettled 0, fun _ => iff_of_false (fun hr => h.thread hr.thread) fun hm => ?_⟩
        exact absurd (hdown.symm.trans (hm hpc)) (by decide)
      · rw [if_neg hdown]
        refine Or.inl ⟨⟨h.thread, nofun, nofun⟩, fun _ => ?_⟩
        show (v.lib.db.serverStatusSt v.args.serverId).listenerStatus = .up
        cases hs : (v.lib.db.serverStatusSt v.args.serverId).listenerStatus
        · exact absurd hs hdown
        · rfl
    case exitServerThread.ok =>
      cases hstep
      exact Or.inl ⟨⟨h.thread, nofun, nofun⟩, fun hr => absurd (hpc.symm.trans hr) nofun⟩
    case exitServerThread.fail e =>
      cases hstep
      exact Or.inr ⟨hsettled _, hpos e⟩
    case join.ok =>
      split at hstep
      · rename_i hexit
        cases hstep
        exact Or.inl ⟨⟨h.thread, fun _ => hexit, nofun⟩, fun hr => absurd (hpc.symm.trans hr) nofun⟩
      · cases hstep
    case join.fail e =>
      cases hstep
      exact Or.inr ⟨hsettled _, hpos e⟩
    case cleanUp.closes close =>
      cases hstep
      obtain ⟨hret, hexit, hiff⟩ := cleanUp_spec (h.joined hpc) close
      refine Or.inr ⟨⟨⟨0, hret⟩, Or.inl hexit⟩, fun _ => hiff.trans ?_⟩
      exact ⟨fun hc _ => hc, fun hc => hc hpc⟩

/-- After the stop has returned, only the thread takes steps. -/
theorem settled_step {v v' : Server} {e : ServerEvent} (h : Settled v)
    (hstep : serverStep v e = some v') :
    Settled v' ∧ v'.stop = v.stop ∧ Meets v e ∧ (ReallyStopped v' ↔ ReallyStopped v) := by
  obtain ⟨⟨err, hret⟩, hfinal⟩ := h
  cases e with
  | thread input =>
    obtain ⟨hpc, hid, hthreads, hstop⟩ := threadStep_spec hstep
    have hslot := hfinal.resolve_left hpc
    refine ⟨⟨⟨err, hstop.trans hret⟩, Or.inr ?_⟩, hstop, trivial,
      iff_of_false (fun hr => hslot ?_) fun hr => hslot hr.thread⟩
    · rw [hthreads, hid]
      exact hslot
    · have hzero := hr.thread
      rw [hthreads, hid] at hzero
      exact hzero
  | stop input =>
    change stopStep v v.stop input = some v' at hstep
    rw [hret] at hstep
    cases input <;> cases hstep

theorem settled_run : ∀ {v v' : Server} (es : List ServerEvent), Settled v →
    run serverStep v es = some v' → AllMeet serverStep Meets v es ∧ v'.stop = v.stop ∧
      (ReallyStopped v' ↔ ReallyStopped v)
  | v, v', [], _, hrun => by
    cases hrun
    exact ⟨trivial, rfl, Iff.rfl⟩
  | v, v', e :: es, h, hrun => by
    obtain ⟨v₁, he, hrun⟩ := exists_of_run_cons hrun
    obtain ⟨h₁, hstop, hmeets, hiff⟩ := settled_step h he
    obtain ⟨hall, hstop', hiff'⟩ := settled_run es h₁ hrun
    exact ⟨(allMeet_cons he).mpr ⟨hmeets, hall⟩, hstop'.trans hstop, hiff'.trans hiff⟩

theorem running_run : ∀ {v v' : Server} (es : List ServerEvent), Running v →
    run serverStep v es = some v' → v'.stop = .returned 0 →
      (ReallyStopped v' ↔ AllMeet serverStep Meets v es)
  | v, v', [], h, hrun, hret => by
    cases hrun
    exact absurd hret (h.stop 0)
  | v, v', e :: es, h, hrun, hret => by
    obtain ⟨v₁, he, hrun⟩ := exists_of_run_cons hrun
    rw [allMeet_cons he]
    obtain ⟨h₁, hmeets⟩ | ⟨h₁, hiff⟩ := serverStep_cases h he
    · rw [running_run es h₁ hrun hret]
      exact (and_iff_right hmeets).symm
    · obtain ⟨hall, hstop, hsame⟩ := settled_run es h₁ hrun
      rw [hsame, hiff (hstop.symm.trans hret)]
      exact (and_iff_left hall).symm

/-! ## The result -/

/-- The slot of a thread that was created is taken. -/
theorem locked_created {db : Db} {params : SessionParams} {sys : StartSystem} {listener : Handle}
    {a : ListenerThreadArgs} : (sessionStartLocked db params sys listener).thread = some a →
    (sessionStartLocked db params sys listener).db.listenerThreads a.serverId ≠ 0 := by
  unfold sessionStartLocked
  split
  · intro h
    cases h
  split
  · intro h
    cases h
  split
  · intro h
    cases h
  split
  · intro h
    cases h
  · rename_i tid _
    intro h
    cases h
    have hslot : ∀ (d : Db) (s : ServerId), (d.setListenerThread s tid.1).listenerThreads s = tid.1 :=
      fun d s => Function.update_self ..
    rw [hslot]
    exact Nat.pos_iff_ne_zero.mp tid.2

theorem started_running {lib : CommLib} {args : StartArgs} {sys : StartSystem} {a : ListenerThreadArgs}
    (h : (commLibTcpServerSessionStart lib args sys).thread = some a) :
    Running (Server.started lib (commLibTcpServerSessionStart lib args sys) a) := by
  refine ⟨?_, nofun, nofun⟩
  show (commLibTcpServerSessionStart lib args sys).db.listenerThreads a.serverId ≠ 0
  by_cases hearly : StartFailsEarly lib args sys
  · rw [(sessionStart_early hearly).2.1] at h
    cases h
  · obtain ⟨listener, hlocked⟩ := sessionStart_locked hearly
    rw [hlocked] at h ⊢
    exact locked_created h

/-- **A stopped server.**  For every start that created a thread, from any tables, and every
interleaving of the thread with a stop that returned 0, the thread has exited, its slot is free and the
tables of the server are empty if and only if the stop found the status of the listener up and closed
every client without an error. -/
theorem reallyStopped_iff (lib : CommLib) (args : StartArgs) (sys : StartSystem)
    (a : ListenerThreadArgs) (hstart : (commLibTcpServerSessionStart lib args sys).thread = some a)
    (es : List ServerEvent) (v : Server)
    (hrun : run serverStep (Server.started lib (commLibTcpServerSessionStart lib args sys) a) es = some v)
    (hret : v.stop = .returned 0) :
    ReallyStopped v ↔
      AllMeet serverStep Meets (Server.started lib (commLibTcpServerSessionStart lib args sys) a) es :=
  running_run es (started_running hstart) hrun hret

/-- A start of a server, with an application that has no other threads. -/
def sampleSystem : StartSystem := ⟨.ok 4, none, none, .ok 5, true, .ok ⟨1, by decide⟩⟩

def sampleArgs : StartArgs := ⟨⟨7, 80, 1⟩, true, true, true⟩

/-- The thread that it creates. -/
def sampleThread : ListenerThreadArgs := ⟨5, ServerId.first, ServerId.first, 4, ⟨7, 80, 1⟩⟩

/-- The thread accepts a client before the stop. -/
def orderlyStop : List ServerEvent :=
  [.thread .ok, .thread .ok, .thread (.accept 6 ⟨81, 9⟩ 10), .stop (.args true 16),
    .stop (.peers fun _ => .connected), .stop .ok, .stop .ok, .thread .exitEvent, .stop .ok,
    .stop (.closes fun _ => none)]

theorem reallyStopped_iff_orderly : ∃ v,
    run serverStep (Server.started ⟨true, libCommuDbInit Db.zero⟩
      (commLibTcpServerSessionStart ⟨true, libCommuDbInit Db.zero⟩ sampleArgs sampleSystem) sampleThread)
      orderlyStop = some v ∧ v.stop = .returned 0 ∧
    (ReallyStopped v ↔ AllMeet serverStep Meets (Server.started ⟨true, libCommuDbInit Db.zero⟩
      (commLibTcpServerSessionStart ⟨true, libCommuDbInit Db.zero⟩ sampleArgs sampleSystem) sampleThread)
      orderlyStop) :=
  ⟨_, rfl, rfl, reallyStopped_iff ⟨true, libCommuDbInit Db.zero⟩ sampleArgs sampleSystem sampleThread
    rfl orderlyStop _ rfl rfl⟩

/-- **A stop that comes before the thread has set its status** returns 0 and leaves the thread. -/
theorem stop_overtakes_thread : ¬∀ (lib : CommLib) (args : StartArgs) (sys : StartSystem)
    (a : ListenerThreadArgs), (commLibTcpServerSessionStart lib args sys).thread = some a →
    ∀ (es : List ServerEvent) (v : Server),
    run serverStep (Server.started lib (commLibTcpServerSessionStart lib args sys) a) es = some v →
    v.stop = .returned 0 → ReallyStopped v := by
  intro h
  have hstop := h ⟨true, libCommuDbInit Db.zero⟩ sampleArgs sampleSystem sampleThread rfl
    [.stop (.args true 16), .stop (.peers fun _ => .connected), .stop .ok] _ rfl rfl
  exact absurd hstop.exited (by decide)

end MlnxLib.Commu
