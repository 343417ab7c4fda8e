import MlnxLib.Commu.Sessions

/-!
# Return codes

The functions that insert into the handle tables, the delete and the start of a server leave their
locked part through a label that also unlocks, and there the result of the unlock replaces their
error.

* `Call` — the five functions with their arguments.
* `Call.Truthful` — 0 is returned exactly when the effect took place, and else a documented error,
  with the tables unchanged.
* `Call.HoldsWhen` — no step under the lock fails.

Principal result: `truthful_iff` — for every state of the tables and every argument, a call is
truthful exactly when no step under its lock fails.
-/

set_option autoImplicit false

namespace MlnxLib.Commu

open SlotTable

/-! ## Tables -/

/-- A table of handles. -/
inductive HandleTable where
  | udp
  | client
  | server (s : ServerId)
  deriving DecidableEq, Repr

def HandleTable.loc : HandleTable → Slot → InfoLoc
  | .udp, i => .udp i
  | .client, i => .client i
  | .server s, i => .server s i

/-- The table of a location, and its slot there. -/
def InfoLoc.table : InfoLoc → HandleTable
  | .client _ => .client
  | .server s _ => .server s
  | .udp _ => .udp

def InfoLoc.slot : InfoLoc → Slot
  | .client i => i
  | .server _ i => i
  | .udp i => i

/-- The handle is in the table. -/
def HandleTable.Holds (t : HandleTable) (db : Db) (handle : Handle) : Prop :=
  ∃ i, (db.info (t.loc i)).handle = handle

@[simp] theorem table_loc_slot (loc : InfoLoc) : loc.table.loc loc.slot = loc := by
  cases loc <;> rfl

theorem loc_eq_iff {t : HandleTable} {i : Slot} {loc : InfoLoc} :
    t.loc i = loc ↔ t = loc.table ∧ i = loc.slot := by
  constructor
  · rintro rfl
    cases t <;> exact ⟨rfl, rfl⟩
  · rintro ⟨rfl, rfl⟩
    exact table_loc_slot loc

/-! ## What the calls are to do -/

/-- A slot of the table that was free has taken the handle, and nothing else has changed. -/
def Recorded (t : HandleTable) (handle : Handle) (db db' : Db) : Prop :=
  ∃ i x, (db.info (t.loc i)).handle = INVALID_HANDLE_ID ∧ x.handle = handle ∧
    db' = db.setInfo (t.loc i) x

/-- The handle was in a table of the kind and is no longer in it. -/
def Deleted (handle : Handle) (db db' : Db) : Prop :=
  ∃ t : HandleTable, t ≠ .udp ∧ t.Holds db handle ∧ ¬t.Holds db' handle

/-- A thread was created in the slot `*server_id`, which was free. -/
def Started (db : Db) (r : SessionStart) : Prop :=
  ∃ s a, ∃ tid : ThreadId, r.serverId = some s ∧ r.thread = some a ∧ a.threadIdx = s ∧
    db.listenerThreads s = 0 ∧ r.db = db.setListenerThread s tid.1

/-- The return code tells the truth. -/
def TellsTruth (err : Int) (done documented unchanged : Prop) : Prop :=
  (err = 0 ↔ done) ∧ (err ≠ 0 → documented ∧ unchanged)

/-- A function that returns 0. -/
theorem tellsTruth_zero {done documented unchanged : Prop} :
    TellsTruth 0 done documented unchanged ↔ done := by
  simp [TellsTruth]

/-- A function that returns an error and does nothing. -/
theorem tellsTruth_error {err : Int} {done documented unchanged : Prop} (herr : err ≠ 0)
    (hdone : ¬done) (hdoc : documented) (hsame : unchanged) :
    TellsTruth err done documented unchanged :=
  ⟨⟨fun h => absurd h herr, fun h => absurd h hdone⟩, fun _ => ⟨hdoc, hsame⟩⟩

/-- The documented errors of a start: those of its own checks, or the one of a call of the system. -/
def StartDocumented (sys : StartSystem) (err : Int) : Prop :=
  err = -EINVAL ∨ err = -EPERM ∨ err = -ENOMEM ∨ ∃ e : Errno, err = -e.1 ∧
    (sys.socket = .error e ∨ sys.setsockopt = some e ∨ sys.bind = some e ∨
      sys.eventSocket = .error e ∨ sys.pthreadCreate = .error e)

/-- The calls whose return codes are told. -/
inductive Call where
  | udpSet (handle : Handle) (port msgType : UInt16) (isSinglePeer : UInt8) (localMagic : UInt32)
  | clientSet (handle : Handle) (msgType : UInt8) (localInfo peerInfo : AddrInfo) (localMagic : UInt32)
  | serverSet (serverId : ServerId) (handle : Handle) (msgType : UInt8) (localInfo peerInfo : AddrInfo)
    (localMagic : UInt32)
  | delete (handle : Handle)
  | sessionStart (args : StartArgs) (sys : StartSystem)

def Call.Truthful (lib : CommLib) : Call → Prop
  | .udpSet handle port msgType isSinglePeer localMagic =>
    let r := libCommuDbUdpHandleInfoSet lib.db handle port msgType isSinglePeer localMagic
    TellsTruth r.1 (Recorded .udp handle lib.db r.2) (r.1 ∈ [ENOBUFS, EPERM]) (r.2 = lib.db)
  | .clientSet handle msgType localInfo peerInfo localMagic =>
    let r := libCommuDbTcpClientHandleInfoSet lib.db handle msgType localInfo peerInfo localMagic
    TellsTruth r.1 (Recorded .client handle lib.db r.2) (r.1 ∈ [ENOBUFS, EPERM]) (r.2 = lib.db)
  | .serverSet s handle msgType localInfo peerInfo localMagic =>
    let r := libCommuDbTcpServerHandleInfoSet lib.db s handle msgType localInfo peerInfo localMagic
    TellsTruth r.1 (Recorded (.server s) handle lib.db r.2) (r.1 ∈ [ENOBUFS, EPERM]) (r.2 = lib.db)
  | .delete handle =>
    let r := libCommuDbTcpHandleInfoDelete lib.db handle
    TellsTruth r.1 (Deleted handle lib.db r.2) (r.1 ∈ [ENOKEY, EINVAL, EPERM]) (r.2 = lib.db)
  | .sessionStart args sys =>
    let r := commLibTcpServerSessionStart lib args sys
    TellsTruth r.err (Started lib.db r) (StartDocumented sys r.err) (r.db = lib.db)

/-- The start fails before it takes the lock. -/
def StartFailsEarly (lib : CommLib) (args : StartArgs) (sys : StartSystem) : Prop :=
  args.clbkSt = false ∨ args.clbkNotifyFunc = false ∨ args.serverId = false ∨ lib.initDone = false ∨
    (∃ e, sys.socket = .error e) ∨ (∃ e, sys.setsockopt = some e) ∨ ∃ e, sys.bind = some e

/-- **No step under the lock fails.**  An insertion finds a free slot.  A delete finds the handle, a
valid one, in a TCP table that holds it once, before the searches of other tables find it.  A start
fails before the lock, or finds a free slot for its thread, and the event socket, the memory and the
thread are created. -/
def Call.HoldsWhen (lib : CommLib) : Call → Prop
  | .udpSet _ _ _ _ _ => HandleTable.udp.Holds lib.db INVALID_HANDLE_ID
  | .clientSet _ _ _ _ _ => HandleTable.client.Holds lib.db INVALID_HANDLE_ID
  | .serverSet s _ _ _ _ _ => (HandleTable.server s).Holds lib.db INVALID_HANDLE_ID
  | .delete handle => handle ≠ INVALID_HANDLE_ID ∧ ∃ loc, lib.db.find handle = some loc ∧
    loc.table ≠ .udp ∧ ∀ i, (lib.db.info (loc.table.loc i)).handle = handle → i = loc.slot
  | .sessionStart args sys => StartFailsEarly lib args sys ∨
    (∃ s, lib.db.listenerThreads s = 0) ∧ (∃ fd, sys.eventSocket = .ok fd) ∧ sys.malloc = true ∧
      ∃ tid, sys.pthreadCreate = .ok tid

/-! ## Insertions -/

def HandleTable.dbType : HandleTable → DbType
  | .udp => .udpHandle
  | .client => .tcpClientHandle
  | .server _ => .tcpServerHandle

/-- The server that the search for a free slot is told; the other tables do not use it. -/
def HandleTable.serverIdx : HandleTable → ServerId
  | .server s => s
  | _ => noServer

/-- The search for a free slot of a table. -/
theorem freeLoc_table (db : Db) (t : HandleTable) : freeLoc db t.dbType t.serverIdx =
    (firstWith (fun i => (db.info (t.loc i)).handle) INVALID_HANDLE_ID).map t.loc := by
  cases t <;> rfl

/-- **An insertion tells the truth exactly when the table has a free slot.** -/
theorem handleInfoSet_truthful_iff (db : Db) (t : HandleTable) (handle : Handle) (n : NewInfo) :
    TellsTruth (handleInfoSet db t.dbType t.serverIdx handle n).1
      (Recorded t handle db (handleInfoSet db t.dbType t.serverIdx handle n).2)
      ((handleInfoSet db t.dbType t.serverIdx handle n).1 ∈ [ENOBUFS, EPERM])
      ((handleInfoSet db t.dbType t.serverIdx handle n).2 = db) ↔ t.Holds db INVALID_HANDLE_ID := by
  have hfree := freeLoc_table db t
  obtain ⟨hnone, hset⟩ | ⟨loc, hsome, hset⟩ := handleInfoSet_spec db t.dbType t.serverIdx handle n
  · rw [hnone, eq_comm, Option.map_eq_none_iff, firstWith_eq_none_iff] at hfree
    rw [hset, tellsTruth_zero]
    constructor
    · rintro ⟨i, -, hi, -⟩
      exact absurd hi (hfree i)
    · rintro ⟨i, hi⟩
      exact absurd hi (hfree i)
  · rw [hsome, eq_comm, Option.map_eq_some_iff] at hfree
    obtain ⟨i, hi, rfl⟩ := hfree
    have hi : (db.info (t.loc i)).handle = INVALID_HANDLE_ID := apply_of_firstWith hi
    rw [hset, tellsTruth_zero]
    exact ⟨fun _ => ⟨i, hi⟩, fun _ => ⟨i, _, hi, rfl, rfl⟩⟩

/-! ## The delete -/

/-- The delete always returns 0; the records are those before, but for the one found. -/
theorem tcpDelete_info (db : Db) (handle : Handle) :
    (libCommuDbTcpHandleInfoDelete db handle).1 = 0 ∧
    ∀ loc, (libCommuDbTcpHandleInfoDelete db handle).2.info loc =
      if db.find handle = some loc ∧ loc.table ≠ .udp then .empty else db.info loc := by
  refine ⟨rfl, fun loc => ?_⟩
  show (tcpHandleInfoDeleteLocked db handle).2.info loc = _
  cases hf : db.find handle with
  | none => simp [tcpDelete_none hf]
  | some found =>
    cases found with
    | client i =>
      rw [tcpDelete_client hf, info_setInfo]
      by_cases hloc : loc = .client i
      · simp [hloc, InfoLoc.table]
      · rw [if_neg hloc, if_neg (fun h => hloc (Option.some.inj h.1).symm)]
    | udp i =>
      rw [tcpDelete_udp hf, if_neg]
      rintro ⟨hloc, hudp⟩
      exact hudp (by rw [← Option.some.inj hloc]; rfl)
    | server s i =>
      -- the work on the status does not touch the records
      have hstatus : ∀ db', (deleteClientStatus db' s handle).2.info loc = db'.info loc := by
        intro db'
        unfold deleteClientStatus
        dsimp only
        split
        · split <;> simp
        · rfl
      have hdel : (tcpHandleInfoDeleteLocked db handle).2.info loc =
          (db.setInfo (.server s i) .empty).info loc := by
        unfold tcpHandleInfoDeleteLocked
        rw [hanldeInfoGet_any, hf, locOr_some]
        exact hstatus _
      rw [hdel, info_setInfo]
      by_cases hloc : loc = .server s i
      · simp [hloc, InfoLoc.table]
      · rw [if_neg hloc, if_neg (fun h => hloc (Option.some.inj h.1).symm)]

/-- The search finds the handle where it says. -/
theorem handle_of_find {db : Db} {handle : Handle} {loc : InfoLoc} (h : db.find handle = some loc) :
    (db.info loc).handle = handle := by
  unfold Db.find at h
  rw [Option.or_eq_some_iff, Option.or_eq_some_iff] at h
  obtain (h | ⟨-, h⟩) | ⟨-, h⟩ := h
  · obtain ⟨i, hi, rfl⟩ := Option.map_eq_some_iff.mp h
    exact apply_of_firstWith hi
  · obtain ⟨s, hs, -⟩ := Fin.findSome?_eq_some_iff.mp h
    unfold searchServer at hs
    split at hs
    · obtain ⟨i, hi, rfl⟩ := Option.map_eq_some_iff.mp hs
      exact apply_of_firstWith hi
    · cases hs
  · obtain ⟨i, hi, rfl⟩ := Option.map_eq_some_iff.mp h
    exact apply_of_firstWith hi

/-- **A delete tells the truth exactly when it takes out the only entry of a handle.** -/
theorem tcpDelete_truthful_iff (db : Db) (handle : Handle) :
    TellsTruth (libCommuDbTcpHandleInfoDelete db handle).1
      (Deleted handle db (libCommuDbTcpHandleInfoDelete db handle).2)
      ((libCommuDbTcpHandleInfoDelete db handle).1 ∈ [ENOKEY, EINVAL, EPERM])
      ((libCommuDbTcpHandleInfoDelete db handle).2 = db) ↔
    handle ≠ INVALID_HANDLE_ID ∧ ∃ loc, db.find handle = some loc ∧ loc.table ≠ .udp ∧
      ∀ i, (db.info (loc.table.loc i)).handle = handle → i = loc.slot := by
  obtain ⟨hzero, hinfo⟩ := tcpDelete_info db handle
  rw [hzero, tellsTruth_zero]
  constructor
  · rintro ⟨t, htcp, ⟨i, hi⟩, hgone⟩
    -- the record that held the handle has changed, so the search has found it
    have hchanged : db.find handle = some (t.loc i) ∧ (t.loc i).table ≠ .udp := by
      by_contra hne
      exact hgone ⟨i, by rw [hinfo, if_neg hne, hi]⟩
    obtain ⟨ht, hslot⟩ := loc_eq_iff.mp (rfl : t.loc i = t.loc i)
    refine ⟨?_, t.loc i, hchanged.1, hchanged.2, fun j hj => ?_⟩
    · rintro rfl
      exact hgone ⟨i, by rw [hinfo, if_pos hchanged]; rfl⟩
    · rw [← ht] at hj
      by_contra hji
      have hne : t.loc i ≠ t.loc j := by
        intro he
        exact hji ((loc_eq_iff.mp he.symm).2)
      refine hgone ⟨j, ?_⟩
      rw [hinfo, if_neg (fun hj' => hne (Option.some.inj (hchanged.1.symm.trans hj'.1))), hj]
  · rintro ⟨hh, loc, hfind, htcp, honly⟩
    refine ⟨loc.table, htcp, ⟨loc.slot, by rw [table_loc_slot, handle_of_find hfind]⟩, ?_⟩
    rintro ⟨j, hj⟩
    rw [hinfo] at hj
    split at hj
    · exact hh hj.symm
    · rename_i hne
      have hslot := honly j hj
      rw [hslot, table_loc_slot] at hne
      exact hne ⟨hfind, htcp⟩

/-! ## The start -/

/-- An early failure is reported. -/
theorem sessionStart_early {lib : CommLib} {args : StartArgs} {sys : StartSystem}
    (h : StartFailsEarly lib args sys) :
    (commLibTcpServerSessionStart lib args sys).err ≠ 0 ∧
    (commLibTcpServerSessionStart lib args sys).thread = none ∧
    (commLibTcpServerSessionStart lib args sys).db = lib.db ∧
    StartDocumented sys (commLibTcpServerSessionStart lib args sys).err := by
  have hneg : ∀ e : Errno, -e.1 ≠ 0 := fun e => by
    have := e.2
    omega
  unfold commLibTcpServerSessionStart
  split
  · have hcode : -EINVAL ≠ 0 := by decide
    exact ⟨hcode, rfl, rfl, Or.inl rfl⟩
  rename_i hargs
  split
  · have hcode : -EPERM ≠ 0 := by decide
    exact ⟨hcode, rfl, rfl, Or.inr (Or.inl rfl)⟩
  rename_i hinit
  split
  · rename_i e he
    exact ⟨hneg e, rfl, rfl, Or.inr (Or.inr (Or.inr ⟨e, rfl, Or.inl he⟩))⟩
  rename_i listener hsocket
  split
  · rename_i e he
    exact ⟨hneg e, rfl, rfl, Or.inr (Or.inr (Or.inr ⟨e, rfl, Or.inr (Or.inl he)⟩))⟩
  rename_i hopt
  split
  · rename_i e he
    exact ⟨hneg e, rfl, rfl, Or.inr (Or.inr (Or.inr ⟨e, rfl, Or.inr (Or.inr (Or.inl he))⟩))⟩
  rename_i hbind
  -- nothing has failed early
  simp [StartFailsEarly, hsocket, hopt, hbind] at h
  simp at hargs hinit
  simp [hargs, hinit] at h

/-- Without an early failure, the locked part is run and its error is lost. -/
theorem sessionStart_locked {lib : CommLib} {args : StartArgs} {sys : StartSystem}
    (h : ¬StartFailsEarly lib args sys) : ∃ listener, commLibTcpServerSessionStart lib args sys =
      { sessionStartLocked lib.db args.params sys listener with err := 0 } := by
  simp only [StartFailsEarly, not_or, Bool.not_eq_false, not_exists] at h
  obtain ⟨hclbk, hfunc, hid, hinit, hsocket, hopt, hbind⟩ := h
  unfold commLibTcpServerSessionStart
  rw [if_neg (by simp [hclbk, hfunc, hid]), if_neg (by simp [hinit])]
  cases hs : sys.socket with
  | error e => exact absurd hs (hsocket e)
  | ok listener =>
    cases ho : sys.setsockopt with
    | some e => exact absurd ho (hopt e)
    | none =>
      cases hb : sys.bind with
      | some e => exact absurd hb (hbind e)
      | none => exact ⟨listener, rfl⟩

/-- The locked part creates the thread exactly when none of its steps fails. -/
theorem started_locked_iff (db : Db) (params : SessionParams) (sys : StartSystem) (listener : Handle) :
    Started db { sessionStartLocked db params sys listener with err := 0 } ↔
      (∃ s, db.listenerThreads s = 0) ∧ (∃ fd, sys.eventSocket = .ok fd) ∧ sys.malloc = true ∧
        ∃ tid, sys.pthreadCreate = .ok tid := by
  unfold sessionStartLocked
  rw [findEmptySlot_thread]
  cases hfree : firstWith db.listenerThreads 0 with
  | none =>
    have hfull := firstWith_eq_none_iff.mp hfree
    rw [slotOr_none]
    constructor
    · rintro ⟨s, a, tid, hs, -⟩
      cases hs
    · rintro ⟨⟨s, hs⟩, -⟩
      exact absurd hs (hfull s)
  | some idx =>
    have hidx := apply_of_firstWith hfree
    rw [slotOr_some]
    dsimp only
    cases hev : sys.eventSocket with
    | error e => simp [Started]
    | ok fd =>
      cases hm : sys.malloc with
      | false => simp [Started]
      | true =>
        cases ht : sys.pthreadCreate with
        | error e => simp [Started]
        | ok tid =>
          refine ⟨fun _ => ⟨⟨idx, hidx⟩, ⟨fd, rfl⟩, rfl, tid, rfl⟩, fun _ => ?_⟩
          exact ⟨idx, _, tid, rfl, rfl, rfl, hidx, rfl⟩

/-- **A start tells the truth exactly when it fails early or not at all.** -/
theorem sessionStart_truthful_iff (lib : CommLib) (args : StartArgs) (sys : StartSystem) :
    (Call.sessionStart args sys).Truthful lib ↔ (Call.sessionStart args sys).HoldsWhen lib := by
  by_cases hearly : StartFailsEarly lib args sys
  · obtain ⟨herr, hthread, hdb, hdoc⟩ := sessionStart_early hearly
    refine iff_of_true (tellsTruth_error herr ?_ hdoc hdb) (Or.inl hearly)
    rintro ⟨s, a, tid, -, ha, -⟩
    rw [hthread] at ha
    cases ha
  · obtain ⟨listener, hstart⟩ := sessionStart_locked hearly
    unfold Call.Truthful Call.HoldsWhen
    dsimp only
    rw [hstart]
    dsimp only
    rw [tellsTruth_zero, started_locked_iff, or_iff_right hearly]

/-! ## All calls -/

/-- **Return codes.**  For every state of the tables and every argument, a call returns 0 exactly when
its effect took place, and else a documented error with the tables unchanged, if and only if no step
under its lock fails. -/
theorem truthful_iff (lib : CommLib) (call : Call) : call.Truthful lib ↔ call.HoldsWhen lib := by
  cases call with
  | udpSet handle port msgType isSinglePeer localMagic =>
    exact handleInfoSet_truthful_iff lib.db .udp handle _
  | clientSet handle msgType localInfo peerInfo localMagic =>
    exact handleInfoSet_truthful_iff lib.db .client handle _
  | serverSet s handle msgType localInfo peerInfo localMagic =>
    exact handleInfoSet_truthful_iff lib.db (.server s) handle _
  | delete handle => exact tcpDelete_truthful_iff lib.db handle
  | sessionStart args sys => exact sessionStart_truthful_iff lib args sys

/-- **A delete of a handle that is in no table** returns 0. -/
theorem delete_missing_untruthful :
    ¬∀ (lib : CommLib) (call : Call), call.Truthful lib := by
  intro h
  obtain ⟨-, loc, hfind, -⟩ :=
    (tcpDelete_truthful_iff (libCommuDbInit Db.zero) 5).mp (h ⟨true, libCommuDbInit Db.zero⟩ (.delete 5))
  have hnone : (libCommuDbInit Db.zero).find 5 = none := by decide +kernel
  rw [hnone] at hfind
  cases hfind

end MlnxLib.Commu
