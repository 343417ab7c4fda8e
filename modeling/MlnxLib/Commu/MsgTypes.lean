import MlnxLib.Commu.PeerMagic
import MlnxLib.Commu.Sessions

/-!
# Message types

The message type of a session is 16 bits wide where the user gives it and where it is stored, and 8 bits
wide on the way into the tables and in a header.

* `SessionOpen` — the ways to open a session, and `openSession` — what each of them stores.
* `Session msgType` — the records of the sessions that were opened with a message type, at any later time.

Principal results: `Session.msgType` — a session keeps the low byte of its message type;
`isolated_iff` — when a message of one session is rejected on another.
-/

set_option autoImplicit false

namespace MlnxLib.Commu

open SlotTable

/-! ## Opening a session -/

/-- The ways to open a session, with the arguments other than the message type.  A client is opened by
the blocking and the non-blocking start alike. -/
inductive SessionOpen where
  | udp (port isSinglePeer : UInt16) (localMagic : UInt32)
  | tcpServer (args : ListenerThreadArgs) (peer : AddrInfo) (localMagic : UInt32)
  | tcpClient (connInfo : ConnectionInfo) (localMagic : UInt32)
  deriving DecidableEq, Repr

/-- The insertion of a new session; its message type is a field of `struct session_params` or of
`struct connection_info`. -/
def openSession (db : Db) (handle : Handle) (msgType : UInt16) : SessionOpen → Int × Db
  | .udp port isSinglePeer localMagic =>
    libCommuDbUdpHandleInfoSet db handle port msgType isSinglePeer.toUInt8 localMagic
  | .tcpServer args peer localMagic => acceptConnection db handle
      (({ args with params := { args.params with msgType := msgType } } : ListenerThreadArgs).accepted peer
        localMagic)
  | .tcpClient connInfo localMagic => libCommuDbTcpClientHandleInfoSet db handle msgType.toUInt8 ⟨0, 0⟩
      ⟨connInfo.dPort, connInfo.dIpv4Addr⟩ localMagic

/-- The slot that a new session is put into. -/
def SessionOpen.slot (db : Db) : SessionOpen → Option InfoLoc
  | .udp _ _ _ => freeLoc db .udpHandle noServer
  | .tcpServer args _ _ => freeLoc db .tcpServerHandle args.serverId
  | .tcpClient _ _ => freeLoc db .tcpClientHandle noServer

/-- The record of a session that was opened with a message type: what the insertion stored in its slot,
after any messages received and any bytes counted. -/
inductive Session (msgType : UInt16) : HandleInfo → Prop where
  | opened (db : Db) (handle : Handle) (how : SessionOpen) {loc : InfoLoc} (hslot : how.slot db = some loc) :
      Session msgType ((openSession db handle msgType how).2.info loc)
  | received {info : HandleInfo} (h : Session msgType info) (x : Incoming) :
      Session msgType (x.validate info).2
  | counted {info : HandleInfo} (h : Session msgType info) (rx tx : UInt64) :
      Session msgType { info with socektInfo := { info.socektInfo with
        totalSumBytesRx := rx
        totalSumBytesTx := tx } }

/-- The record that `handle_info_set` leaves in the slot it fills. -/
theorem info_handleInfoSet {db : Db} {type : DbType} {s : ServerId} {loc : InfoLoc}
    (hslot : freeLoc db type s = some loc) (handle : Handle) (n : NewInfo) :
    (handleInfoSet db type s handle n).2.info loc = n.fill handle (db.info loc) := by
  obtain ⟨hnone, -⟩ | ⟨loc', hsome, hset⟩ := handleInfoSet_spec db type s handle n
  · rw [hslot] at hnone
    cases hnone
  · cases Option.some.inj (hslot.symm.trans hsome)
    rw [hset, info_setInfo, if_pos rfl]

/-- The status of a server has none of the records. -/
theorem info_clientSet (db : Db) (handle : Handle) (clientaddr : AddrInfo) (sIpv4Addr : UInt32)
    (sPort : UInt16) (s : ServerId) (loc : InfoLoc) :
    (libCummoDbServerStatusClientSet db handle clientaddr sIpv4Addr sPort s).2.info loc = db.info loc := by
  unfold libCummoDbServerStatusClientSet
  split
  · rfl
  · exact info_setStatus ..

/-- **A new session** stores the low byte of its message type, whatever way it is opened. -/
theorem openSession_msgType {db : Db} {handle : Handle} {msgType : UInt16} {how : SessionOpen} {loc : InfoLoc}
    (hslot : how.slot db = some loc) :
    ((openSession db handle msgType how).2.info loc).connInfo.msgType = msgType.toUInt8.toUInt16 := by
  cases how with
  | udp port isSinglePeer localMagic =>
    have hfree : freeLoc db .udpHandle noServer = some loc := hslot
    exact congrArg (fun info : HandleInfo => info.connInfo.msgType) (info_handleInfoSet hfree handle _)
  | tcpClient connInfo localMagic =>
    have hfree : freeLoc db .tcpClientHandle noServer = some loc := hslot
    exact congrArg (fun info : HandleInfo => info.connInfo.msgType) (info_handleInfoSet hfree handle _)
  | tcpServer args peer localMagic =>
    have hfree : freeLoc db .tcpServerHandle args.serverId = some loc := hslot
    have hset := fun n => congrArg (fun info : HandleInfo => info.connInfo.msgType)
      (info_handleInfoSet hfree handle n)
    simp only [openSession]
    rw [acceptConnection_eq]
    split
    · exact hset _
    · rw [info_clientSet]
      exact hset _

/-! ## Isolation -/

/-- **A session keeps the low byte of its message type.** -/
theorem Session.msgType {t : UInt16} {info : HandleInfo} (h : Session t info) :
    info.connInfo.msgType = t.toUInt8.toUInt16 := by
  induction h with
  | opened db handle how hslot => exact openSession_msgType hslot
  | received h x ih =>
    rw [validate_snd]
    split
    · exact ih
    · exact ih
  | counted h rx tx ih => exact ih

theorem toUInt16_inj {a b : UInt8} : a.toUInt16 = b.toUInt16 ↔ a = b := by
  constructor
  · intro h
    have hback := congrArg UInt16.toUInt8 h
    rwa [UInt8.toUInt8_toUInt16, UInt8.toUInt8_toUInt16] at hback
  · rintro rfl
    rfl

/-- The header of a message of a session, as it comes to a receiver. -/
def headerOf (sender : HandleInfo) (payload : List UInt8) (maxPaylodSize : Nat) : Incoming :=
  ⟨metadataSet MSG_VERSION payload.length sender, maxPaylodSize⟩

/-- **Isolation by message type.**  A message of a session is rejected on a session of another message
type, exactly when the types differ in their low byte or the header fails another check: its size or the
magic of its sender. -/
theorem isolated_iff {a b : UInt16} {sender receiver : HandleInfo} (hsender : Session a sender)
    (hreceiver : Session b receiver) (payload : List UInt8) (maxPaylodSize : Nat) :
    ((headerOf sender payload maxPaylodSize).validate receiver).1 ≠ 0 ↔
      a.toUInt8 ≠ b.toUInt8 ∨ ¬(headerOf sender payload maxPaylodSize).Checked ∨
        ¬receiver.Trusts sender.socektInfo.localMagic := by
  have htype : (headerOf sender payload maxPaylodSize).metadata.msgType = a.toUInt8 := by
    show sender.connInfo.msgType.toUInt8 = _
    rw [hsender.msgType, UInt8.toUInt8_toUInt16]
  have htrailer : (headerOf sender payload maxPaylodSize).metadata.trailer = sender.socektInfo.localMagic := rfl
  rw [ne_eq, validate_err_iff, htrailer]
  unfold Incoming.Fits
  rw [htype, hreceiver.msgType, toUInt16_inj]
  tauto

/-- A session of a client, on handle 7. -/
def sampleSession (msgType : UInt16) : HandleInfo :=
  (openSession (libCommuDbInit .zero) 7 msgType (.tcpClient ⟨0, 0, 2, 81, msgType⟩ 11)).2.info (.client ⟨0, by decide⟩)

theorem sampleSession_session (msgType : UInt16) : Session msgType (sampleSession msgType) :=
  .opened (libCommuDbInit .zero) 7 (.tcpClient ⟨0, 0, 2, 81, msgType⟩ 11)
    (show freeLoc (libCommuDbInit .zero) .tcpClientHandle noServer = some (.client ⟨0, by decide⟩) by decide +kernel)

/-- Types 1 and 2, which differ in their low byte. -/
theorem isolated_iff_sample :
    ((headerOf (sampleSession 1) [9] 100).validate (sampleSession 2)).1 ≠ 0 ↔
      (1 : UInt16).toUInt8 ≠ (2 : UInt16).toUInt8 ∨ ¬(headerOf (sampleSession 1) [9] 100).Checked ∨
        ¬(sampleSession 2).Trusts (sampleSession 1).socektInfo.localMagic :=
  isolated_iff (sampleSession_session 1) (sampleSession_session 2) [9] 100

/-- **Types 1 and 257 are not isolated.** -/
theorem low_byte_not_isolated :
    ¬∀ (a b : UInt16), a ≠ b → ∀ (sender receiver : HandleInfo), Session a sender → Session b receiver →
      ∀ (payload : List UInt8) (maxPaylodSize : Nat),
        ((headerOf sender payload maxPaylodSize).validate receiver).1 ≠ 0 := by
  intro h
  have hrejected := h 1 257 (by decide) (sampleSession 1) (sampleSession 257) (sampleSession_session 1)
    (sampleSession_session 257) [9] 100
  exact hrejected (by decide +kernel)

end MlnxLib.Commu
