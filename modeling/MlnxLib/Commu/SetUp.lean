import MlnxLib.Commu.Reuse
import MlnxLib.Commu.Sessions

/-!
# Setting up a connection

The accept path of `listener_main_thread`, and `client_connect_thread` with
`handle_new_non_blocking_client`: a chain of calls on a new socket, each of which may fail.  The clean-up at
the end closes the socket that the user did not take, and does not look at the tables.

* `SetUp` — what a set-up leaves: the tables, and how often the library closed the new socket.
* `NoDangling` — if the library closed the socket, nothing of it is left in the tables.
* `SetUpCall.Fits` — a set-up that fails before it fills a slot, for a descriptor that is in no table.

Principal result: `no_dangling_iff` — a set-up leaves nothing of a socket it closed exactly when it fits: it fails
to clean up when the callback of the user does not take the socket, and when the descriptor was stale before.

The callback is its return value; it does not call the library.
-/

set_option autoImplicit false

namespace MlnxLib.Commu

open SlotTable

def EINPROGRESS : Int := 115

/-! ## The accept path -/

/-- A descriptor as the system gives it out. -/
abbrev Fd := { handle : Handle // 0 ≤ handle }

/-- What a set-up leaves: its error code, the tables, the number of times the library closed the new socket, and
the handles and return codes that the callback was called with. -/
structure SetUp where
  err : Int
  db : Db
  closes : Nat
  notified : List (Handle × Int)

/-- What the calls of the accept path return after `accept`. -/
structure AcceptSystem where
  setSockBufferSize : Int
  setSockPriority : Int
  setSockKa : Int
  pseudoRandom : Int
  localMagic : UInt32
  clbkNotifyFunc : Int
  deriving DecidableEq, Repr

/-- The accept path of `listener_main_thread`, and what follows `bail`. -/
def acceptPath (args : ListenerThreadArgs) (db : Db) (newSock : Fd) (peer : AddrInfo) (sys : AcceptSystem) :
    SetUp :=
  let bail (err : Int) (db : Db) (notified : List (Handle × Int)) : SetUp := ⟨err, db, 1, notified⟩
  if sys.setSockBufferSize ≠ 0 then bail sys.setSockBufferSize db [] else
  if sys.setSockPriority ≠ 0 then bail sys.setSockPriority db [] else
  if sys.setSockKa ≠ 0 then bail sys.setSockKa db [] else
  if sys.pseudoRandom ≠ 0 then bail sys.pseudoRandom db [] else
  let r := acceptConnection db newSock.1 (args.accepted peer sys.localMagic)
  if r.1 ≠ 0 then bail r.1 r.2 [] else
  if sys.clbkNotifyFunc ≠ 0 then bail sys.clbkNotifyFunc r.2 [(newSock.1, 0)] else
  ⟨0, r.2, 0, [(newSock.1, 0)]⟩

/-! ## The connect thread -/

/-- What `select` returns to the loop of `client_connect_thread`: an error other than `EINTR`, nothing that is
ready, the socket with what `getsockopt` says about its error, or the exit event. -/
inductive SelectResult where
  | fail (err : Errno)
  | idle
  | writable (soErrVal : Except Errno Int)
  | exitEvent

/-- What the calls of `client_connect_thread` and `handle_new_non_blocking_client` return. -/
structure ConnectSystem where
  getFlags : Option Errno
  setNonBlocking : Option Errno
  connect : Option Errno
  selects : List SelectResult
  setFlags : Option Errno
  pseudoRandom : Int
  localMagic : UInt32
  clbkNotifyFunc : Int

/-- How the loop ends. -/
inductive LoopEnd where
  | established
  | bail (err : Int)
  deriving DecidableEq, Repr

/-- The loop of `client_connect_thread`; `none` while it waits.  The exit event leaves the -1 that `connect`
returned in `err`. -/
def connectLoop : List SelectResult → Option LoopEnd
  | [] => none
  | .idle :: rest => connectLoop rest
  | .fail err :: _ => some (.bail err.1)
  | .writable (.error err) :: _ => some (.bail err.1)
  | .writable (.ok soErrVal) :: _ => some (if soErrVal = 0 then .established else .bail soErrVal)
  | .exitEvent :: _ => some (.bail (-1))

/-- `handle_new_non_blocking_client`. -/
def handleNewNonBlockingClient (db : Db) (clientFd : Handle) (connInfo : ConnectionInfo) (sys : ConnectSystem) :
    Int × Db × List (Handle × Int) :=
  if clientFd = INVALID_HANDLE_ID then (EPERM, db, []) else
  match sys.setFlags with
  | some err => (err.1, db, [])
  | none =>
    if sys.pseudoRandom ≠ 0 then (sys.pseudoRandom, db, []) else
    let r := libCommuDbTcpClientHandleInfoSet db clientFd connInfo.msgType.toUInt8 ⟨0, 0⟩
      ⟨connInfo.dPort, connInfo.dIpv4Addr⟩ sys.localMagic
    if r.1 ≠ 0 then (r.1, r.2, []) else
    if sys.clbkNotifyFunc ≠ 0 then (sys.clbkNotifyFunc, r.2, [(clientFd, 0)]) else (0, r.2, [(clientFd, 0)])

/-- What follows `bail` in `client_connect_thread`.  A set-up that failed reports to the callback; the error of
that call is only logged. -/
def connectBail (clientFd : Handle) (err : Int) (db : Db) (closes : Nat) (notified : List (Handle × Int)) : SetUp :=
  if err ≠ 0 ∧ clientFd ≠ INVALID_HANDLE_ID then
    ⟨-err, db, closes + 1, notified ++ [(INVALID_HANDLE_ID, -err)]⟩
  else ⟨err, db, closes, notified⟩

/-- `client_connect_thread`; `none` while it waits for the connection. -/
def clientConnectThread (db : Db) (clientFd : Fd) (connInfo : ConnectionInfo) (sys : ConnectSystem) :
    Option SetUp :=
  let handleNew :=
    let r := handleNewNonBlockingClient db clientFd.1 connInfo sys
    connectBail clientFd.1 r.1 r.2.1 0 r.2.2
  if clientFd.1 = 0 then some (connectBail clientFd.1 EINVAL db 0 []) else
  match sys.getFlags with
  | some err => some (connectBail clientFd.1 err.1 db 0 [])
  | none =>
    match sys.setNonBlocking with
    -- closed here, and once more after `bail`
    | some err => some (connectBail clientFd.1 err.1 db 1 [])
    | none =>
      match sys.connect with
      | none => some handleNew
      | some err =>
        if err.1 ≠ EINPROGRESS then some (connectBail clientFd.1 err.1 db 0 []) else
        (connectLoop sys.selects).map fun
          | .bail err => connectBail clientFd.1 err db 0 []
          | .established => handleNew

/-! ## What a set-up has to leave -/

/-- A set-up of a connection on a new descriptor. -/
inductive SetUpCall where
  | accept (args : ListenerThreadArgs) (newSock : Fd) (peer : AddrInfo) (sys : AcceptSystem)
  | connect (clientFd : Fd) (connInfo : ConnectionInfo) (sys : ConnectSystem)

def SetUpCall.handle : SetUpCall → Handle
  | .accept _ newSock _ _ => newSock.1
  | .connect clientFd _ _ => clientFd.1

def SetUpCall.run (db : Db) : SetUpCall → Option SetUp
  | .accept args newSock peer sys => some (acceptPath args db newSock peer sys)
  | .connect clientFd connInfo sys => clientConnectThread db clientFd connInfo sys

/-- **No dangling handle**: if the library closed the new socket, no table has an entry of it, and the servers have
the clients they had. -/
def NoDangling (db : Db) (handle : Handle) (r : SetUp) : Prop :=
  r.closes ≠ 0 → r.db.Absent handle ∧
    ∀ s, (r.db.serverStatusSt s).clientsNum = (db.serverStatusSt s).clientsNum

/-- The calls before the tables all succeed. -/
def AcceptSystem.Ready (sys : AcceptSystem) : Prop :=
  sys.setSockBufferSize = 0 ∧ sys.setSockPriority = 0 ∧ sys.setSockKa = 0 ∧ sys.pseudoRandom = 0

instance : DecidablePred AcceptSystem.Ready := fun sys =>
  inferInstanceAs (Decidable (sys.setSockBufferSize = 0 ∧ sys.setSockPriority = 0 ∧ sys.setSockKa = 0 ∧
    sys.pseudoRandom = 0))

/-- The connection is established, and the calls before the table all succeed. -/
def ConnectSystem.Ready (sys : ConnectSystem) : Prop :=
  sys.getFlags = none ∧ sys.setNonBlocking = none ∧
    (∀ err, sys.connect = some err → err.1 = EINPROGRESS ∧ connectLoop sys.selects = some .established) ∧
    sys.setFlags = none ∧ sys.pseudoRandom = 0

/-- A set-up whose calls succeed and that finds a free slot is taken by the user; any other has a descriptor that
is in no table.  A connect that finds its table full goes on without an entry. -/
def SetUpCall.Fits (db : Db) : SetUpCall → Prop
  | .accept args newSock _ sys =>
    (sys.Ready ∧ (freeLoc db .tcpServerHandle args.serverId).isSome → sys.clbkNotifyFunc = 0) ∧
    (¬ (sys.Ready ∧ (freeLoc db .tcpServerHandle args.serverId).isSome) → db.Absent newSock.1)
  | .connect clientFd _ sys =>
    (clientFd.1 ≠ 0 ∧ sys.Ready ∧ (freeLoc db .tcpClientHandle noServer).isSome → sys.clbkNotifyFunc = 0) ∧
    (¬ (clientFd.1 ≠ 0 ∧ sys.Ready ∧
      ((freeLoc db .tcpClientHandle noServer).isSome ∨ sys.clbkNotifyFunc = 0)) → db.Absent clientFd.1)

/-! ## The tables of the servers stay aligned -/

section Aligned

variable {db : Db}

theorem Aligned.handleInfoSet (h : Aligned db) {type : DbType} (htype : type ≠ .tcpServerHandle) (s : ServerId)
    (handle : Handle) (n : NewInfo) : Aligned (handleInfoSet db type s handle n).2 := by
  obtain ⟨-, hset⟩ | ⟨loc, hloc, hset⟩ := handleInfoSet_spec db type s handle n
  · rw [hset]
    exact h
  · rw [hset]
    cases loc with
    | client i | udp i => exact h
    | server s' i =>
      cases type with
      | tcpServerHandle => exact absurd rfl htype
      | udpHandle | tcpClientHandle =>
        obtain ⟨j, -, hj⟩ := Option.map_eq_some_iff.mp hloc
        cases hj
      | _ => cases hloc

theorem Aligned.deinit (h : Aligned db) (s : ServerId) : Aligned (libCommuDbTcpSessionDbDeinit db s).2 := by
  intro s'
  by_cases hs : s' = s
  · subst hs
    exact (handles_empty (by rw [deinit_table, if_pos rfl]) (by rw [deinit_status, if_pos rfl])).1
  · unfold Db.statusHandles Db.serverHandles
    rw [deinit_table, deinit_status, if_neg hs, if_neg hs]
    exact h s'

/-- **Every operation**, with whatever handle, keeps the two tables of a server aligned. -/
theorem Aligned.step (h : Aligned db) (op : DbOp) : Aligned (op.step db) := by
  cases op with
  | accept handle a =>
    rw [DbOp.step]
    obtain ⟨-, hacc⟩ | ⟨i, -, hacc⟩ := accept_spec h handle a
    · rw [hacc]
      exact h
    · rw [hacc]
      exact h.setBoth rfl _
  | connect handle msgType localInfo peerInfo localMagic =>
    have htype : DbType.tcpClientHandle ≠ .tcpServerHandle := nofun
    exact h.handleInfoSet htype noServer handle _
  | udpStart handle port msgType isSinglePeer localMagic =>
    have htype : DbType.udpHandle ≠ .tcpServerHandle := nofun
    exact h.handleInfoSet htype noServer handle _
  | delete handle => exact (remove_spec h handle .tcpPeerStop).2.1
  | udpDelete handle => exact (remove_spec h handle .udpSessionStop).2.1
  | sessionDeinit serverId => exact h.deinit serverId

theorem Aligned.run (ops : List DbOp) {db : Db} (h : Aligned db) : Aligned (runDb db ops) := by
  induction ops generalizing db with
  | nil => exact h
  | cons op ops ih => exact ih (h.step op)

end Aligned

/-! ## What a set-up does -/

section Calls

variable {db : Db} {handle : Handle} {r : SetUp}

/-- A set-up that leaves the tables as they were. -/
theorem noDangling_same (hdb : r.db = db) : NoDangling db handle r ↔ (r.closes ≠ 0 → db.Absent handle) := by
  unfold NoDangling
  rw [hdb]
  simp

/-- A set-up that leaves an entry of the socket. -/
theorem noDangling_entry {loc : InfoLoc} (hloc : (r.db.info loc).handle = handle) :
    NoDangling db handle r ↔ r.closes = 0 := by
  constructor
  · intro h
    by_contra hne
    exact (h hne).1.info loc hloc
  · exact fun hzero hne => absurd hzero hne

/-- **The accept path** closes the socket and leaves the tables as they were, or fills a slot and closes the
socket if the callback does not take it. -/
theorem acceptPath_spec (h : Aligned db) (args : ListenerThreadArgs) (newSock : Fd) (peer : AddrInfo)
    (sys : AcceptSystem) :
    (¬ (sys.Ready ∧ (freeLoc db .tcpServerHandle args.serverId).isSome) ∧
      (acceptPath args db newSock peer sys).closes = 1 ∧ (acceptPath args db newSock peer sys).db = db) ∨
    (sys.Ready ∧ (freeLoc db .tcpServerHandle args.serverId).isSome ∧
      (∃ loc, ((acceptPath args db newSock peer sys).db.info loc).handle = newSock.1) ∧
      (acceptPath args db newSock peer sys).closes = if sys.clbkNotifyFunc = 0 then 0 else 1) := by
  unfold acceptPath AcceptSystem.Ready
  dsimp only
  by_cases hbuffer : sys.setSockBufferSize = 0
  swap
  · rw [if_pos hbuffer]
    exact Or.inl ⟨fun hc => hbuffer hc.1.1, rfl, rfl⟩
  by_cases hpriority : sys.setSockPriority = 0
  swap
  · rw [if_neg (not_not_intro hbuffer), if_pos hpriority]
    exact Or.inl ⟨fun hc => hpriority hc.1.2.1, rfl, rfl⟩
  by_cases hka : sys.setSockKa = 0
  swap
  · rw [if_neg (not_not_intro hbuffer), if_neg (not_not_intro hpriority), if_pos hka]
    exact Or.inl ⟨fun hc => hka hc.1.2.2.1, rfl, rfl⟩
  by_cases hrandom : sys.pseudoRandom = 0
  swap
  · rw [if_neg (not_not_intro hbuffer), if_neg (not_not_intro hpriority), if_neg (not_not_intro hka), if_pos hrandom]
    exact Or.inl ⟨fun hc => hrandom hc.1.2.2.2, rfl, rfl⟩
  rw [if_neg (not_not_intro hbuffer), if_neg (not_not_intro hpriority), if_neg (not_not_intro hka),
    if_neg (not_not_intro hrandom)]
  obtain ⟨hfree, hacc⟩ | ⟨i, hfree, hacc⟩ := accept_spec h newSock.1 (args.accepted peer sys.localMagic)
  · have hne : ENOBUFS ≠ 0 := by decide
    rw [hacc, if_pos hne]
    refine Or.inl ⟨fun hc => ?_, rfl, rfl⟩
    have hsome := hc.2
    rw [show freeLoc db .tcpServerHandle args.serverId = none from hfree] at hsome
    cases hsome
  · rw [hacc, if_neg (by simp)]
    refine Or.inr ⟨⟨hbuffer, hpriority, hka, hrandom⟩, Option.isSome_iff_exists.mpr ⟨_, hfree⟩,
      ⟨.server args.serverId i, ?_⟩, ?_⟩
    · have hentry : ((accepted db newSock.1 (args.accepted peer sys.localMagic) i).info
          (.server args.serverId i)).handle = newSock.1 := by
        rw [accepted, info_setStatus]
        exact congrArg HandleInfo.handle ((info_setInfo ..).trans (if_pos rfl))
      split <;> exact hentry
    · by_cases hnotify : sys.clbkNotifyFunc = 0
      · rw [if_neg (not_not_intro hnotify), if_pos hnotify]
      · rw [if_pos hnotify, if_neg hnotify]

theorem Fd.ne_invalid (fd : Fd) : fd.1 ≠ INVALID_HANDLE_ID := by
  intro hinvalid
  have hpos := fd.2
  rw [hinvalid] at hpos
  exact absurd hpos (by decide)

theorem connectBail_fail (clientFd : Fd) {err : Int} (herr : err ≠ 0) (db : Db) (closes : Nat)
    (notified : List (Handle × Int)) :
    (connectBail clientFd.1 err db closes notified).closes = closes + 1 ∧
    (connectBail clientFd.1 err db closes notified).db = db := by
  rw [connectBail, if_pos ⟨herr, clientFd.ne_invalid⟩]
  exact ⟨rfl, rfl⟩

theorem connectBail_ok (clientFd : Fd) (db : Db) (closes : Nat) (notified : List (Handle × Int)) :
    connectBail clientFd.1 0 db closes notified = ⟨0, db, closes, notified⟩ := by
  rw [connectBail, if_neg (by simp)]

/-- The loop ends with an error, or the connection is there. -/
theorem connectLoop_bail {selects : List SelectResult} {err : Int}
    (h : connectLoop selects = some (.bail err)) : err ≠ 0 := by
  induction selects with
  | nil => cases h
  | cons x rest ih =>
    cases x with
    | idle => exact ih h
    | fail e =>
      cases h
      exact e.2.ne'
    | exitEvent =>
      cases h
      decide
    | writable soErrVal =>
      cases soErrVal with
      | error e =>
        cases h
        exact e.2.ne'
      | ok v =>
        rw [connectLoop] at h
        split at h
        · cases h
        · rename_i hv
          cases h
          exact hv

/-- **The new client** is put into its table and shown to the callback, unless a call before fails. -/
theorem handleNew_spec (db : Db) (clientFd : Fd) (connInfo : ConnectionInfo) (sys : ConnectSystem) :
    let q := handleNewNonBlockingClient db clientFd.1 connInfo sys
    (¬ (sys.setFlags = none ∧ sys.pseudoRandom = 0) ∧ q.1 ≠ 0 ∧ q.2.1 = db) ∨
    (sys.setFlags = none ∧ sys.pseudoRandom = 0 ∧ q.1 = sys.clbkNotifyFunc ∧
      ((freeLoc db .tcpClientHandle noServer = none ∧ q.2.1 = db) ∨
        (freeLoc db .tcpClientHandle noServer).isSome ∧ ∃ loc, (q.2.1.info loc).handle = clientFd.1)) := by
  unfold handleNewNonBlockingClient
  rw [if_neg clientFd.ne_invalid]
  cases hflags : sys.setFlags with
  | some err => exact Or.inl ⟨nofun, err.2.ne', rfl⟩
  | none =>
    dsimp only
    by_cases hrandom : sys.pseudoRandom = 0
    swap
    · rw [if_pos hrandom]
      exact Or.inl ⟨fun hc => hrandom hc.2, hrandom, rfl⟩
    rw [if_neg (not_not_intro hrandom)]
    unfold libCommuDbTcpClientHandleInfoSet
    generalize NewInfo.mk .. = info
    refine Or.inr ⟨rfl, hrandom, ?_⟩
    obtain ⟨hfree, hset⟩ | ⟨loc, hfree, hset⟩ := handleInfoSet_spec db .tcpClientHandle noServer clientFd.1 info
    · rw [hset, if_neg (by simp)]
      split
      · exact ⟨rfl, Or.inl ⟨hfree, rfl⟩⟩
      · rename_i hzero
        exact ⟨(not_not.mp hzero).symm, Or.inl ⟨hfree, rfl⟩⟩
    · have hentry : ((db.setInfo loc (info.fill clientFd.1 (db.info loc))).info loc).handle = clientFd.1 := by
        rw [info_setInfo, if_pos rfl]
        rfl
      have hsome : (freeLoc db .tcpClientHandle noServer).isSome := Option.isSome_iff_exists.mpr ⟨loc, hfree⟩
      rw [hset, if_neg (by simp)]
      split
      · exact ⟨rfl, Or.inr ⟨hsome, loc, hentry⟩⟩
      · rename_i hzero
        exact ⟨(not_not.mp hzero).symm, Or.inr ⟨hsome, loc, hentry⟩⟩

/-- What the connect thread leaves when it has the connection. -/
theorem handleNew_bail (db : Db) (clientFd : Fd) (connInfo : ConnectionInfo) (sys : ConnectSystem)
    (hr : connectBail clientFd.1 (handleNewNonBlockingClient db clientFd.1 connInfo sys).1
      (handleNewNonBlockingClient db clientFd.1 connInfo sys).2.1 0
      (handleNewNonBlockingClient db clientFd.1 connInfo sys).2.2 = r) :
    (¬ (sys.setFlags = none ∧ sys.pseudoRandom = 0) ∧ r.closes ≠ 0 ∧ r.db = db) ∨
    (sys.setFlags = none ∧ sys.pseudoRandom = 0 ∧ (r.closes = if sys.clbkNotifyFunc = 0 then 0 else 1) ∧
      ((freeLoc db .tcpClientHandle noServer = none ∧ r.db = db) ∨
        (freeLoc db .tcpClientHandle noServer).isSome ∧ ∃ loc, (r.db.info loc).handle = clientFd.1)) := by
  have hspec := handleNew_spec db clientFd connInfo sys
  generalize handleNewNonBlockingClient db clientFd.1 connInfo sys = q at hspec hr
  obtain ⟨hnot, herr, hdb⟩ | ⟨hflags, hrandom, herr, hentry⟩ := hspec
  · obtain ⟨hcloses, hdb'⟩ := connectBail_fail clientFd herr q.2.1 0 q.2.2
    rw [hr] at hcloses hdb'
    exact Or.inl ⟨hnot, by omega, hdb'.trans hdb⟩
  · refine Or.inr ⟨hflags, hrandom, ?_⟩
    rw [herr] at hr
    by_cases hnotify : sys.clbkNotifyFunc = 0
    · rw [hnotify, connectBail_ok] at hr
      rw [if_pos hnotify, ← hr]
      exact ⟨rfl, hentry⟩
    · obtain ⟨hcloses, hdb'⟩ := connectBail_fail clientFd hnotify q.2.1 0 q.2.2
      rw [hr] at hcloses hdb'
      rw [if_neg hnotify, hdb']
      exact ⟨hcloses, hentry⟩

/-- **The connect thread** closes the socket and leaves the tables as they were, or has shown the connection to
the callback, with an entry of it unless the table was full. -/
theorem clientConnectThread_spec (clientFd : Fd) (connInfo : ConnectionInfo) (sys : ConnectSystem)
    (hr : clientConnectThread db clientFd connInfo sys = some r) :
    (¬ (clientFd.1 ≠ 0 ∧ sys.Ready) ∧ r.closes ≠ 0 ∧ r.db = db) ∨
    (clientFd.1 ≠ 0 ∧ sys.Ready ∧ (r.closes = if sys.clbkNotifyFunc = 0 then 0 else 1) ∧
      ((freeLoc db .tcpClientHandle noServer = none ∧ r.db = db) ∨
        (freeLoc db .tcpClientHandle noServer).isSome ∧ ∃ loc, (r.db.info loc).handle = clientFd.1)) := by
  unfold clientConnectThread at hr
  dsimp only at hr
  -- a call that fails before the connection is there
  have hfail : ∀ {err : Int} {n : Nat}, err ≠ 0 → ¬ (clientFd.1 ≠ 0 ∧ sys.Ready) →
      some (connectBail clientFd.1 err db n []) = some r →
      ¬ (clientFd.1 ≠ 0 ∧ sys.Ready) ∧ r.closes ≠ 0 ∧ r.db = db := by
    intro err n herr hnot hsome
    cases hsome
    obtain ⟨hcloses, hdb⟩ := connectBail_fail clientFd herr db n []
    exact ⟨hnot, by omega, hdb⟩
  by_cases hzero : clientFd.1 = 0
  · rw [if_pos hzero] at hr
    exact Or.inl (hfail (by decide) (fun hc => hc.1 hzero) hr)
  rw [if_neg hzero] at hr
  cases hget : sys.getFlags with
  | some err =>
    rw [hget] at hr
    refine Or.inl (hfail err.2.ne' (fun hc => ?_) hr)
    rw [hc.2.1] at hget
    cases hget
  | none =>
  rw [hget] at hr
  cases hset : sys.setNonBlocking with
  | some err =>
    rw [hset] at hr
    refine Or.inl (hfail err.2.ne' (fun hc => ?_) hr)
    rw [hc.2.2.1] at hset
    cases hset
  | none =>
  rw [hset] at hr
  -- the connection is there
  have hnew : (∀ err, sys.connect = some err →
        err.1 = EINPROGRESS ∧ connectLoop sys.selects = some .established) →
      connectBail clientFd.1 (handleNewNonBlockingClient db clientFd.1 connInfo sys).1
        (handleNewNonBlockingClient db clientFd.1 connInfo sys).2.1 0
        (handleNewNonBlockingClient db clientFd.1 connInfo sys).2.2 = r →
      (¬ (clientFd.1 ≠ 0 ∧ sys.Ready) ∧ r.closes ≠ 0 ∧ r.db = db) ∨
      (clientFd.1 ≠ 0 ∧ sys.Ready ∧ (r.closes = if sys.clbkNotifyFunc = 0 then 0 else 1) ∧
        ((freeLoc db .tcpClientHandle noServer = none ∧ r.db = db) ∨
          (freeLoc db .tcpClientHandle noServer).isSome ∧ ∃ loc, (r.db.info loc).handle = clientFd.1)) := by
    intro hconn hbail
    obtain ⟨hnot, hleft⟩ | ⟨hflags, hrandom, hshown⟩ := handleNew_bail db clientFd connInfo sys hbail
    · exact Or.inl ⟨fun hc => hnot ⟨hc.2.2.2.2.1, hc.2.2.2.2.2⟩, hleft⟩
    · exact Or.inr ⟨hzero, ⟨hget, hset, hconn, hflags, hrandom⟩, hshown⟩
  cases hconnect : sys.connect with
  | none =>
    rw [hconnect] at hr
    exact hnew (fun err he => by rw [hconnect] at he; cases he) (Option.some_inj.mp hr)
  | some err =>
    rw [hconnect] at hr
    dsimp only at hr
    by_cases hprogress : err.1 = EINPROGRESS
    swap
    · rw [if_pos hprogress] at hr
      exact Or.inl (hfail err.2.ne' (fun hc => hprogress (hc.2.2.2.1 err hconnect).1) hr)
    rw [if_neg (not_not_intro hprogress)] at hr
    obtain ⟨e, hloop, he⟩ := Option.map_eq_some_iff.mp hr
    cases e with
    | established =>
      refine hnew (fun err' he' => ?_) he
      rw [hconnect] at he'
      cases he'
      exact ⟨hprogress, hloop⟩
    | bail err' =>
      refine Or.inl (hfail (connectLoop_bail hloop) (fun hc => ?_) (congrArg some he))
      have hest := (hc.2.2.2.1 err hconnect).2
      rw [hloop] at hest
      cases hest

end Calls

/-! ## Which set-ups clean up -/

/-- **No dangling handle**, exactly when a set-up fits: nothing of the new socket is left after the library closed
it, if the callback took every connection that got a slot, and the descriptor was in no table before. -/
theorem no_dangling_iff (db₀ : Db) (ops : List DbOp) (call : SetUpCall) (r : SetUp)
    (hr : call.run (runDb (libCommuDbInit db₀) ops) = some r) :
    NoDangling (runDb (libCommuDbInit db₀) ops) call.handle r ↔ call.Fits (runDb (libCommuDbInit db₀) ops) := by
  have h : Aligned (runDb (libCommuDbInit db₀) ops) := Aligned.run ops (dbInv_init db₀).aligned
  generalize runDb (libCommuDbInit db₀) ops = db at h hr ⊢
  cases call with
  | accept args newSock peer sys =>
    cases hr
    simp only [SetUpCall.Fits, SetUpCall.handle]
    obtain ⟨hnot, hcloses, hdb⟩ | ⟨hready, hfree, ⟨loc, hloc⟩, hcloses⟩ := acceptPath_spec h args newSock peer sys
    · rw [noDangling_same hdb, hcloses, and_iff_right (fun hc => absurd hc hnot)]
      simp [hnot]
    · have hyes : sys.Ready ∧ (freeLoc db .tcpServerHandle args.serverId).isSome := ⟨hready, hfree⟩
      rw [noDangling_entry hloc, hcloses, and_iff_left (fun hc => absurd hyes hc)]
      simp [hyes]
  | connect clientFd connInfo sys =>
    simp only [SetUpCall.Fits, SetUpCall.handle]
    obtain ⟨hnot, hcloses, hdb⟩ | ⟨hfd, hready, hcloses, ⟨hfull, hdb⟩ | ⟨hfree, loc, hloc⟩⟩ :=
      clientConnectThread_spec clientFd connInfo sys hr
    · rw [noDangling_same hdb, and_iff_right (fun hc => absurd ⟨hc.1, hc.2.1⟩ hnot)]
      refine ⟨fun hc _ => hc hcloses, fun hc _ => hc fun hyes => hnot ⟨hyes.1, hyes.2.1⟩⟩
    · rw [noDangling_same hdb, hcloses]
      simp [hfull, hfd, hready]
    · rw [noDangling_entry hloc, hcloses]
      simp [hfree, hfd, hready]

/-- The thread of the first server. -/
def firstThread : ListenerThreadArgs := ⟨5, ServerId.first, ServerId.first, 4, ⟨7, 80, 1⟩⟩

/-- An accept on descriptor 9, of which one call and the callback may fail. -/
def firstAccept (setSockBufferSize clbkNotifyFunc : Int) : SetUpCall :=
  .accept firstThread ⟨9, by decide⟩ ⟨81, 8⟩ ⟨setSockBufferSize, 0, 0, 0, 10, clbkNotifyFunc⟩

/-- A socket option fails, and nothing is left. -/
theorem no_dangling_iff_option : ∃ r,
    (firstAccept 22 0).run (runDb (libCommuDbInit Db.zero) []) = some r ∧ r.closes = 1 ∧
    (NoDangling (runDb (libCommuDbInit Db.zero) []) (firstAccept 22 0).handle r ↔
      (firstAccept 22 0).Fits (runDb (libCommuDbInit Db.zero) [])) :=
  ⟨_, rfl, rfl, no_dangling_iff Db.zero [] (firstAccept 22 0) _ rfl⟩

/-- **The callback does not take the connection**: the library closes the socket and leaves it in both tables of
the server. -/
theorem refused_connection_stays : ¬ ∀ (db₀ : Db) (ops : List DbOp), AllowedRun (libCommuDbInit db₀) ops →
    ∀ (call : SetUpCall) (r : SetUp), call.run (runDb (libCommuDbInit db₀) ops) = some r →
    (runDb (libCommuDbInit db₀) ops).Absent call.handle →
    NoDangling (runDb (libCommuDbInit db₀) ops) call.handle r := by
  intro hall
  have habs : (runDb (libCommuDbInit Db.zero) []).Absent 9 := by decide +kernel
  obtain ⟨r, hrun, hcloses, hentry⟩ : ∃ r, (firstAccept 0 1).run (runDb (libCommuDbInit Db.zero) []) = some r ∧
      r.closes ≠ 0 ∧ (r.db.info (.server ServerId.first 0)).handle = 9 :=
    ⟨_, rfl, by decide +kernel, by decide +kernel⟩
  have h := hall Db.zero [] trivial (firstAccept 0 1) r hrun habs
  exact (h hcloses).1.info _ hentry

end MlnxLib.Commu
