import MlnxLib.Commu.SetUp
import MlnxLib.Commu.Udp

/-!
# Sessions that the application starts

Model of `comm_lib_udp_session_start`, `comm_lib_udp_session_stop`, `comm_lib_tcp_client_blocking_start` and
`comm_lib_tcp_peer_stop` of `lib_commu.c`: a start is a chain of calls on a new socket, which is closed when one of
them fails.

* `Host` — the library, and the descriptors of its process that are open.
* `commLibUdpSessionStart`, `commLibTcpClientBlockingStart` — the starts, with what the system answers.
* `commLibUdpSessionStop`, `commLibTcpPeerStop` — the stops.
* `HostCall`, `hostStep` — the calls of an application: the starts, the stops, and the datagrams.

The kernel closes every descriptor that is open, and gives out one that is not.  Logging is left out, and so are the
socket options themselves.

Principal results: `udpStart_spec`, `clientStart_spec` — a start leaves a socket that is put into the tables, or
everything as it was.
-/

set_option autoImplicit false

namespace MlnxLib.Commu

open SlotTable

def EBADF : Int := 9
def EKEYREJECTED : Int := 129

/-! ## Descriptors -/

/-- The library, and the open descriptors of the process. -/
structure Host where
  lib : CommLib
  fds : Finset Handle

def Host.setDb (s : Host) (db : Db) : Host := { s with lib := { s.lib with db := db } }

/-- `close_socket_wrapper`. -/
def closeSocketWrapper (s : Host) (handle : Handle) : Int × Host :=
  if handle = INVALID_HANDLE_ID then (EINVAL, s) else
  if handle ∈ s.fds then (0, { s with fds := s.fds.erase handle }) else (EBADF, s)

/-- `pseudo_random_uint32_get`, with what `rand` returns. -/
def pseudoRandomUint32Get (rand : UInt32) : UInt32 := rand % 0xFFFFFFFF

/-! ## Starts -/

/-- What a start leaves: its return code, and the handle if it was written. -/
structure StartResult where
  err : Int
  handle : Option Handle
  host : Host

/-- The end of a start after `bail`. -/
def bailStart (s : Host) (sockfd : Handle) (handle : Option Handle) (err : Int) : StartResult :=
  ⟨-err, handle, if err ≠ 0 ∧ sockfd ≠ INVALID_HANDLE_ID then (closeSocketWrapper s sockfd).2 else s⟩

/-- The first answer of the system that is an error. -/
def firstError : List (Option Errno) → Option Errno
  | [] => none
  | answer :: answers => answer.or (firstError answers)

inductive UdpRole where
  | connServer
  | connClient
  deriving DecidableEq, Repr

/-- `enum udp_type`, and the values that are not of it. -/
inductive UdpType where
  | connTypeUdpIpUc
  | other
  deriving DecidableEq, Repr

structure IpUdpParams where
  sessionParams : SessionParams
  connectionRole : UdpRole
  isSinglePeer : UInt16
  deriving DecidableEq, Repr

structure UdpParams where
  type : UdpType
  ipUdpParams : IpUdpParams
  deriving DecidableEq, Repr

/-- What the system answers to the calls of `comm_lib_udp_session_start`. -/
structure UdpStartSystem where
  socket : Except Errno Fd
  setSockPriority : Option Errno
  bind : Option Errno
  rand : UInt32

/-- `comm_lib_udp_session_start`; `handle` says whether the pointer to it is not `NULL`. -/
def commLibUdpSessionStart (s : Host) (handle : Bool) (params : Option UdpParams) (sys : UdpStartSystem) :
    StartResult :=
  if !handle then bailStart s INVALID_HANDLE_ID none EINVAL else
  match params with
  | none => bailStart s INVALID_HANDLE_ID none EINVAL
  | some params =>
    if !s.lib.initDone then bailStart s INVALID_HANDLE_ID none EPERM else
    match sys.socket with
    | .error err => bailStart s INVALID_HANDLE_ID (some 0) err.1
    | .ok sockfd =>
      let s := { s with fds := insert sockfd.1 s.fds }
      match sys.setSockPriority with
      | some err => bailStart s sockfd.1 (some 0) err.1
      | none =>
        if params.type ≠ .connTypeUdpIpUc then bailStart s sockfd.1 (some 0) EKEYREJECTED else
        match if params.ipUdpParams.connectionRole = .connServer then sys.bind else none with
        | some err => bailStart s sockfd.1 (some 0) err.1
        | none =>
          let r := libCommuDbUdpHandleInfoSet s.lib.db sockfd.1 params.ipUdpParams.sessionParams.port
            params.ipUdpParams.sessionParams.msgType params.ipUdpParams.isSinglePeer.toUInt8
            (pseudoRandomUint32Get sys.rand)
          if r.1 ≠ 0 then bailStart (s.setDb r.2) sockfd.1 (some 0) r.1
          else ⟨0, some sockfd.1, s.setDb r.2⟩

/-- What the system answers to the calls of `comm_lib_tcp_client_blocking_start`. -/
structure ClientStartSystem where
  socket : Except Errno Fd
  setSockBufferSize : Option Errno
  setSockPriority : Option Errno
  setSockKa : Option Errno
  connect : Option Errno
  rand : UInt32

/-- `comm_lib_tcp_client_blocking_start`; `clientHandle` says whether the pointer to it is not `NULL`. -/
def commLibTcpClientBlockingStart (s : Host) (connInfo : Option ConnectionInfo) (clientHandle : Bool)
    (sys : ClientStartSystem) : StartResult :=
  if !s.lib.initDone then bailStart s INVALID_HANDLE_ID none EPERM else
  if !clientHandle then bailStart s INVALID_HANDLE_ID none EINVAL else
  match connInfo with
  | none => bailStart s INVALID_HANDLE_ID none EINVAL
  | some connInfo =>
    match sys.socket with
    | .error err => bailStart s INVALID_HANDLE_ID (some 0) err.1
    | .ok sockFd =>
      let s := { s with fds := insert sockFd.1 s.fds }
      match firstError [sys.setSockBufferSize, sys.setSockPriority, sys.setSockKa, sys.connect] with
      | some err => bailStart s sockFd.1 (some 0) err.1
      | none =>
        let r := libCommuDbTcpClientHandleInfoSet s.lib.db sockFd.1 connInfo.msgType.toUInt8 ⟨0, 0⟩
          ⟨connInfo.dPort, connInfo.dIpv4Addr⟩ (pseudoRandomUint32Get sys.rand)
        if r.1 ≠ 0 then bailStart (s.setDb r.2) sockFd.1 (some 0) r.1
        else ⟨0, some sockFd.1, s.setDb r.2⟩

/-! ## Stops -/

/-- What both stops share: the descriptor is closed, and then the handle is deleted. -/
def stopBy (delete : Db → Handle → Int × Db) (s : Host) (handle : Handle) : Int × Host :=
  if !s.lib.initDone then (-EPERM, s) else
  let c := closeSocketWrapper s handle
  if c.1 ≠ 0 then (-c.1, c.2) else
  let r := delete c.2.lib.db handle
  (-r.1, c.2.setDb r.2)

/-- `comm_lib_udp_session_stop`. -/
def commLibUdpSessionStop : Host → Handle → Int × Host := stopBy libCommuDbUdpHandleInfoDelete

/-- `comm_lib_tcp_peer_stop`. -/
def commLibTcpPeerStop : Host → Handle → Int × Host := stopBy libCommuDbTcpHandleInfoDelete

/-! ## Calls -/

/-- A call of an application, with what the system answers; `recipient` and `addresserSt` are the address that a
datagram goes to, and the memory for that of its sender. -/
inductive HostCall where
  | udpSessionStart (handle : Bool) (params : Option UdpParams) (sys : UdpStartSystem)
  | udpSessionStop (handle : Handle)
  | tcpClientBlockingStart (connInfo : Option ConnectionInfo) (clientHandle : Bool) (sys : ClientStartSystem)
  | tcpPeerStop (handle : Handle)
  | udpSend (handle : Handle) (recipient : AddrInfo) (payload : List UInt8) (answer : IoResult)
  | udpRecv (handle : Handle) (addresserSt : AddrInfo) (payloadLen : Nat) (beyond : Nat → UInt8)
      (answer : RecvfromResult)

/-- What a call returns. -/
inductive HostReply where
  | started (err : Int) (handle : Option Handle)
  | stopped (err : Int)
  | sent (err : Int) (payloadLen : Nat) (calls : List IoResult)
  | received (err : Int) (addresserSt : AddrInfo) (payload : List UInt8) (payloadLen : Nat)
      (calls : List RecvfromResult)
  deriving DecidableEq, Repr

/-- A call. -/
def hostStep (s : Host) : HostCall → HostReply × Host
  | .udpSessionStart handle params sys =>
    let r := commLibUdpSessionStart s handle params sys
    (.started r.err r.handle, r.host)
  | .udpSessionStop handle =>
    let r := commLibUdpSessionStop s handle
    (.stopped r.1, r.2)
  | .tcpClientBlockingStart connInfo clientHandle sys =>
    let r := commLibTcpClientBlockingStart s connInfo clientHandle sys
    (.started r.err r.handle, r.host)
  | .tcpPeerStop handle =>
    let r := commLibTcpPeerStop s handle
    (.stopped r.1, r.2)
  | .udpSend handle _ payload answer =>
    let r := commLibUdpSend s.lib handle payload answer
    (.sent r.err r.payloadLen r.calls, { s with lib := r.lib })
  | .udpRecv handle addresserSt payloadLen beyond answer =>
    let r := commLibUdpRecv s.lib handle addresserSt payloadLen beyond answer
    (.received r.err r.addresserSt r.payload r.payloadLen r.calls, { s with lib := r.lib })

/-! ## What a start does -/

/-- What is stored of a new UDP session. -/
def IpUdpParams.newInfo (p : IpUdpParams) (rand : UInt32) : NewInfo :=
  ⟨p.sessionParams.msgType.toUInt8, ⟨p.sessionParams.port, p.sessionParams.port.toUInt32⟩, ⟨0, 0⟩,
    p.isSinglePeer.toUInt8, pseudoRandomUint32Get rand⟩

/-- What is stored of a new client. -/
def ConnectionInfo.newInfo (c : ConnectionInfo) (rand : UInt32) : NewInfo :=
  ⟨c.msgType.toUInt8, ⟨0, 0⟩, ⟨c.dPort, c.dIpv4Addr⟩, 1, pseudoRandomUint32Get rand⟩

/-- The start of a UDP session goes through, with this descriptor and these settings. -/
structure UdpOpens (s : Host) (handle : Bool) (params : Option UdpParams) (sys : UdpStartSystem) (fd : Fd)
    (n : NewInfo) : Prop where
  handle : handle = true
  ready : s.lib.initDone = true
  socket : sys.socket = .ok fd
  priority : sys.setSockPriority = none
  params : ∃ p, params = some ⟨.connTypeUdpIpUc, p⟩ ∧ (p.connectionRole = .connServer → sys.bind = none) ∧
    n = p.newInfo sys.rand

/-- The start of a client goes through, with this descriptor and these settings. -/
structure ClientOpens (s : Host) (connInfo : Option ConnectionInfo) (clientHandle : Bool) (sys : ClientStartSystem)
    (fd : Fd) (n : NewInfo) : Prop where
  ready : s.lib.initDone = true
  handle : clientHandle = true
  socket : sys.socket = .ok fd
  options : sys.setSockBufferSize = none ∧ sys.setSockPriority = none ∧ sys.setSockKa = none
  connect : sys.connect = none
  connInfo : ∃ c, connInfo = some c ∧ n = c.newInfo sys.rand

/-- The host with a new descriptor. -/
def Host.opened (s : Host) (fd : Fd) : Host := { s with fds := insert fd.1 s.fds }

/-- **A start** that goes through puts a new socket into a table, if there is room; every other one fails and leaves
the host as it was. -/
structure StartSpec (s : Host) (type : DbType) (Opens : Fd → NewInfo → Prop) (r : StartResult) : Prop where
  opens : ∀ fd n, Opens fd n →
    r = ⟨0, some fd.1, (s.opened fd).setDb (handleInfoSet s.lib.db type noServer fd.1 n).2⟩
  fails : (∀ fd n, ¬Opens fd n) → r.err ≠ 0 ∧ r.host = s

section

variable {s : Host} {type : DbType} {Opens : Fd → NewInfo → Prop}

/-- A magic is not the mark of an unknown one. -/
theorem pseudoRandom_ne_invalid (rand : UInt32) : pseudoRandomUint32Get rand ≠ INVALID_MAGIC := by
  have hlt : (pseudoRandomUint32Get rand).toNat < 4294967295 := by
    rw [pseudoRandomUint32Get, UInt32.toNat_mod]
    exact Nat.mod_lt _ (by decide)
  intro heq
  rw [heq] at hlt
  exact absurd hlt (by decide)

/-- A full table is not reported. -/
theorem udpHandleInfoSet_err (db : Db) (handle : Handle) (port msgType : UInt16) (isSinglePeer : UInt8)
    (localMagic : UInt32) : (libCommuDbUdpHandleInfoSet db handle port msgType isSinglePeer localMagic).1 = 0 := rfl

theorem tcpClientHandleInfoSet_err (db : Db) (handle : Handle) (msgType : UInt8) (localInfo peerInfo : AddrInfo)
    (localMagic : UInt32) :
    (libCommuDbTcpClientHandleInfoSet db handle msgType localInfo peerInfo localMagic).1 = 0 := rfl

theorem StartSpec.of_fails {r : StartResult} (hno : ∀ fd n, ¬Opens fd n) (herr : r.err ≠ 0) (hhost : r.host = s) :
    StartSpec s type Opens r :=
  ⟨fun fd n h => absurd h (hno fd n), fun _ => ⟨herr, hhost⟩⟩

/-- Before there is a socket, nothing is closed. -/
theorem bailStart_early (s : Host) (handle : Option Handle) {err : Int} (herr : err ≠ 0) :
    (bailStart s INVALID_HANDLE_ID handle err).err ≠ 0 ∧ (bailStart s INVALID_HANDLE_ID handle err).host = s := by
  refine ⟨show -err ≠ 0 by omega, ?_⟩
  unfold bailStart
  exact if_neg fun h => h.2 rfl

/-- A new socket is closed again. -/
theorem bailStart_opened (s : Host) (fd : Fd) (handle : Option Handle) {err : Int} (herr : err ≠ 0)
    (hnew : fd.1 ∉ s.fds) :
    (bailStart (s.opened fd) fd.1 handle err).err ≠ 0 ∧ (bailStart (s.opened fd) fd.1 handle err).host = s := by
  refine ⟨show -err ≠ 0 by omega, ?_⟩
  unfold bailStart closeSocketWrapper Host.opened
  dsimp only
  rw [if_pos ⟨herr, fd.ne_invalid⟩, if_neg fd.ne_invalid, if_pos (Finset.mem_insert_self ..),
    Finset.erase_insert hnew]

theorem StartSpec.early (hno : ∀ fd n, ¬Opens fd n) (handle : Option Handle) {err : Int} (herr : err ≠ 0) :
    StartSpec s type Opens (bailStart s INVALID_HANDLE_ID handle err) :=
  .of_fails hno (bailStart_early s handle herr).1 (bailStart_early s handle herr).2

theorem StartSpec.closed (hno : ∀ fd n, ¬Opens fd n) (fd : Fd) (handle : Option Handle) {err : Int} (herr : err ≠ 0)
    (hnew : fd.1 ∉ s.fds) : StartSpec s type Opens (bailStart (s.opened fd) fd.1 handle err) :=
  .of_fails hno (bailStart_opened s fd handle herr hnew).1 (bailStart_opened s fd handle herr hnew).2

theorem Errno.ne_zero (err : Errno) : err.1 ≠ 0 := fun h => absurd err.2 (by omega)

/-- **The start of a UDP session.** -/
theorem udpStart_spec (s : Host) (handle : Bool) (params : Option UdpParams) (sys : UdpStartSystem)
    (hnew : ∀ fd, sys.socket = .ok fd → fd.1 ∉ s.fds) :
    StartSpec s .udpHandle (UdpOpens s handle params sys) (commLibUdpSessionStart s handle params sys) := by
  unfold commLibUdpSessionStart
  split
  · rename_i hnull
    exact .early (fun fd n h => by simp [h.handle] at hnull) none (by decide)
  rename_i hhandle
  split
  · exact .early (fun fd n h => by obtain ⟨p, hp, -⟩ := h.params; cases hp) none (by decide)
  rename_i params
  split
  · rename_i hready
    exact .early (fun fd n h => by simp [h.ready] at hready) none (by decide)
  rename_i hready
  split
  · rename_i err hsocket
    exact .early (fun fd n h => by cases hsocket.symm.trans h.socket) _ err.ne_zero
  rename_i sockfd hsocket
  have hfd : sockfd.1 ∉ s.fds := hnew sockfd hsocket
  dsimp only
  split
  · rename_i err hpriority
    exact .closed (fun fd n h => by cases hpriority.symm.trans h.priority) sockfd _ err.ne_zero hfd
  rename_i hpriority
  split
  · rename_i htype
    refine .closed (fun fd n h => ?_) sockfd _ (by decide) hfd
    obtain ⟨p, hp, -⟩ := h.params
    cases hp
    exact htype rfl
  rename_i htype
  split
  · rename_i err hbind
    refine .closed (fun fd n h => ?_) sockfd _ err.ne_zero hfd
    obtain ⟨p, hp, hserver, -⟩ := h.params
    cases hp
    split at hbind
    · rename_i hrole
      cases hbind.symm.trans (hserver hrole)
    · cases hbind
  rename_i hbind
  rw [if_neg (not_not.mpr (udpHandleInfoSet_err ..))]
  have hopens : UdpOpens s handle (some params) sys sockfd (params.ipUdpParams.newInfo sys.rand) := by
    refine ⟨by simpa using hhandle, by simpa using hready, hsocket, hpriority, params.ipUdpParams, ?_, ?_, rfl⟩
    · rw [← not_not.mp htype]
    · intro hrole
      rwa [if_pos hrole] at hbind
  refine ⟨fun fd n h => ?_, fun hno => absurd hopens (hno _ _)⟩
  obtain ⟨p, hp, -, rfl⟩ := h.params
  cases hp
  cases Except.ok.inj (h.socket.symm.trans hsocket)
  rfl

/-- **The start of a client.** -/
theorem clientStart_spec (s : Host) (connInfo : Option ConnectionInfo) (clientHandle : Bool) (sys : ClientStartSystem)
    (hnew : ∀ fd, sys.socket = .ok fd → fd.1 ∉ s.fds) :
    StartSpec s .tcpClientHandle (ClientOpens s connInfo clientHandle sys)
      (commLibTcpClientBlockingStart s connInfo clientHandle sys) := by
  unfold commLibTcpClientBlockingStart
  split
  · rename_i hready
    exact .early (fun fd n h => by simp [h.ready] at hready) none (by decide)
  rename_i hready
  split
  · rename_i hnull
    exact .early (fun fd n h => by simp [h.handle] at hnull) none (by decide)
  rename_i hhandle
  split
  · exact .early (fun fd n h => by obtain ⟨c, hc, -⟩ := h.connInfo; cases hc) none (by decide)
  rename_i connInfo
  split
  · rename_i err hsocket
    exact .early (fun fd n h => by cases hsocket.symm.trans h.socket) _ err.ne_zero
  rename_i sockFd hsocket
  have hfd : sockFd.1 ∉ s.fds := hnew sockFd hsocket
  dsimp only
  split
  · rename_i err hfirst
    refine .closed (fun fd n h => ?_) sockFd _ err.ne_zero hfd
    obtain ⟨hsize, hpriority, hka⟩ := h.options
    rw [hsize, hpriority, hka, h.connect] at hfirst
    cases hfirst
  rename_i hfirst
  rw [if_neg (not_not.mpr (tcpClientHandleInfoSet_err ..))]
  have hopens : ClientOpens s (some connInfo) clientHandle sys sockFd (connInfo.newInfo sys.rand) := by
    simp only [firstError, Option.or_eq_none_iff] at hfirst
    exact ⟨by simpa using hready, by simpa using hhandle, hsocket, ⟨hfirst.1, hfirst.2.1, hfirst.2.2.1⟩,
      hfirst.2.2.2.1, connInfo, rfl, rfl⟩
  refine ⟨fun fd n h => ?_, fun hno => absurd hopens (hno _ _)⟩
  obtain ⟨c, hc, rfl⟩ := h.connInfo
  cases hc
  cases Except.ok.inj (h.socket.symm.trans hsocket)
  rfl

end

end MlnxLib.Commu
