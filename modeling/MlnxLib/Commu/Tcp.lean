import MlnxLib.Lib.Bytes
import MlnxLib.Commu.Db

/-!
# Messages over TCP

Model of the blocking send and receive of `lib_commu.c`: a packed header in network order and the
payload are each moved by a loop over `send` or `recv`, at most 500 calls long.

* `commLibTcpSendBlocking`, `commLibTcpRecvBlocking` — the two functions of the API.
* `commLibTcpLlSendBlocking`, `commLibTcpLlRecvBlocking` — their loops and the byte counters.
* `metadataSet`, `validateMetadataInfo` — the header.

What the kernel does is an input: the list of the results of the calls that follow.  A `send` hands
the first bytes of its buffer to the connection; a `recv` takes the first bytes of the stream that
the peer sent.  A function returns `none` where the list ends, that is, where a call blocks for
ever.  Pointers are not `NULL`, and logging is left out.
-/

set_option autoImplicit false

namespace MlnxLib.Commu

open Bytes

/-! ## Constants -/

def EIO : Int := 5
def EBADE : Int := 52
def EOVERFLOW : Int := 75
def ECONNRESET : Int := 104

def MSG_VERSION : UInt8 := 1
def SEND_REPEAT_NUM : Nat := 500
def RECV_REPEAT_NUM : Nat := 500
def MAX_TCP_PAYLOAD : Nat := 4094
def MAX_JUMBO_TCP_PAYLOAD : Nat := 1024 * 1600

abbrev MAX_MSGS : Nat := 20

/-- The result of a call of `send` or `recv`: the number of bytes, or `-1` with `errno`. -/
inductive IoResult where
  | bytes (n : Nat)
  | error (errno : Int)
  deriving DecidableEq, Repr

/-! ## The header -/

/-- `struct msg_metadata`, its words in host order. -/
structure MsgMetadata where
  payloadSize : UInt32
  trailer : UInt32
  version : UInt8
  msgType : UInt8
  deriving DecidableEq, Repr

/-- `sizeof(struct msg_metadata)`, which is packed. -/
def METADATA_SIZE : Nat := 10

/-- The memory of the header, after `htonl` of its words. -/
def MsgMetadata.bytes (m : MsgMetadata) : List UInt8 :=
  net32 m.payloadSize ++ net32 m.trailer ++ [m.version, m.msgType]

/-- The header in a memory of its size, after `ntohl` of its words. -/
def MsgMetadata.ofBytes : List UInt8 → MsgMetadata
  | [b₀, b₁, b₂, b₃, t₀, t₁, t₂, t₃, version, msgType] =>
    ⟨ofNet32 b₀ b₁ b₂ b₃, ofNet32 t₀ t₁ t₂ t₃, version, msgType⟩
  | _ => ⟨0, 0, 0, 0⟩

/-- `metadata_set`; the message type of a connection is 16 bits wide, that of a header 8. -/
def metadataSet (version : UInt8) (payloadSize : Nat) (info : HandleInfo) : MsgMetadata :=
  ⟨UInt32.ofNat payloadSize, info.socektInfo.localMagic, version, info.connInfo.msgType.toUInt8⟩

/-- The last check of `validate_metadata_info`. -/
def validateMsgType (m : MsgMetadata) (info : HandleInfo) : Int × HandleInfo :=
  if m.msgType.toUInt16 ≠ info.connInfo.msgType then (EBADE, info) else (0, info)

/-- `validate_metadata_info`: the error code and the connection, whose peer magic is set by the
first message. -/
def validateMetadataInfo (m : MsgMetadata) (maxPaylodSize : Nat) (info : HandleInfo) : Int × HandleInfo :=
  if m.version ≠ MSG_VERSION then ( EIO, info) else
  if maxPaylodSize < m.payloadSize.toNat ∨ m.payloadSize = 0 then (EOVERFLOW, info) else
  if info.socektInfo.peerMagic = INVALID_MAGIC then
    validateMsgType m { info with socektInfo := { info.socektInfo with peerMagic := m.trailer } }
  else if info.socektInfo.isSinglePeer ≠ 0 ∧ info.socektInfo.peerMagic ≠ m.trailer then (EBADE, info)
  else validateMsgType m info

/-! ## Sending -/

/-- What the loop over `send` leaves: the error code, `*buffer_len`, the number of bytes, the bytes
handed to the connection, and the results that are left. -/
structure LlSend where
  err : Int
  bufferLen : Nat
  totalBytes : Nat
  sent : List UInt8
  results : List IoResult

def sendLoop (buffer : List UInt8) : List IoResult → Nat → Nat → List UInt8 → Option LlSend
  | results, repeatTimes, totalBytes, sent =>
    if totalBytes < buffer.length then
      if repeatTimes = SEND_REPEAT_NUM then some ⟨ EIO, totalBytes, totalBytes, sent, results⟩ else
      match results with
      | [] => none
      | .error errno :: rs => some ⟨errno, 0, totalBytes, sent, rs⟩
      | .bytes n :: rs =>
        sendLoop buffer rs (repeatTimes + 1) (totalBytes + n) (sent ++ (buffer.drop totalBytes).take n)
    else some ⟨0, totalBytes, totalBytes, sent, results⟩

/-- `comm_lib_tcp_ll_send_blocking`. -/
def commLibTcpLlSendBlocking (db : Db) (handle : Handle) (buffer : List UInt8) (handleDbType : DbType)
    (results : List IoResult) : Option (LlSend × Db) :=
  (sendLoop buffer results 0 0 []).map fun r =>
    if 0 < r.totalBytes then
      let u := handleTotalTxUpdate db handle handleDbType (UInt64.ofNat r.totalBytes)
      (if u.1 ≠ 0 ∧ r.err = 0 then { r with err := u.1 } else r, u.2)
    else (r, db)

/-- The library: `g_lib_commu_init_done` and the handle database. -/
structure CommLib where
  initDone : Bool
  db : Db

/-- What a send leaves. -/
structure SendResult where
  err : Int
  lib : CommLib
  payloadLen : Nat
  sent : List UInt8
  results : List IoResult

/-- `comm_lib_tcp_send_blocking`. -/
def commLibTcpSendBlocking (lib : CommLib) (handle : Handle) (payload : List UInt8)
    (results : List IoResult) : Option SendResult :=
  if !lib.initDone then some ⟨-EPERM, lib, payload.length, [], results⟩ else
  if MAX_JUMBO_TCP_PAYLOAD - METADATA_SIZE < payload.length then
    some ⟨-EOVERFLOW, lib, payload.length, [], results⟩ else
  match libCommuDbHanldeInfoGet lib.db handle .any with
  | (err, none) => some ⟨-err, lib, payload.length, [], results⟩
  | (_, some loc) =>
    let metadata := metadataSet MSG_VERSION payload.length (lib.db.info loc)
    (commLibTcpLlSendBlocking lib.db handle metadata.bytes loc.dbType results).bind fun h =>
      if h.1.err ≠ 0 then
        some ⟨-h.1.err, { lib with db := h.2 }, payload.length, h.1.sent, h.1.results⟩ else
      (commLibTcpLlSendBlocking h.2 handle payload loc.dbType h.1.results).map fun p =>
        ⟨-p.1.err, { lib with db := p.2 }, p.1.bufferLen, h.1.sent ++ p.1.sent, p.1.results⟩

/-! ## Receiving -/

/-- What the loop over `recv` leaves, with the bytes it wrote and the stream that is left. -/
structure LlRecv where
  err : Int
  bufferLen : Nat
  totalBytes : Nat
  received : List UInt8
  stream : List UInt8
  results : List IoResult

def recvLoop (bufferLen : Nat) : List IoResult → Nat → Nat → List UInt8 → List UInt8 → Option LlRecv
  | results, repeatTimes, totalBytes, received, stream =>
    if totalBytes ≠ bufferLen then
      if repeatTimes = RECV_REPEAT_NUM then
        some ⟨ EIO, totalBytes, totalBytes, received, stream, results⟩ else
      match results with
      | [] => none
      | .error errno :: rs => some ⟨errno, 0, totalBytes, received, stream, rs⟩
      | .bytes n :: rs =>
        if n = 0 then some ⟨ECONNRESET, 0, totalBytes, received, stream, rs⟩ else
        recvLoop bufferLen rs (repeatTimes + 1) (totalBytes + n) (received ++ stream.take n)
          (stream.drop n)
    else some ⟨0, totalBytes, totalBytes, received, stream, results⟩

/-- `comm_lib_tcp_ll_recv_blocking`. -/
def commLibTcpLlRecvBlocking (db : Db) (handle : Handle) (bufferLen : Nat) (stream : List UInt8)
    (results : List IoResult) : Option (LlRecv × Db) :=
  (recvLoop bufferLen results 0 0 [] stream).map fun r =>
    if 0 < r.totalBytes then
      let u := handleTotalRxUpdate db handle .any (UInt64.ofNat r.totalBytes)
      (if u.1 ≠ 0 ∧ r.err = 0 then { r with err := u.1 } else r, u.2)
    else (r, db)

/-- `struct recv_payload_data`; the payloads are the contents of its arrays. -/
structure RecvPayloadData where
  msgNumRecv : UInt32
  msgType : Fin MAX_MSGS → UInt8
  payload : Fin MAX_MSGS → List UInt8
  payloadLen : Fin MAX_MSGS → Nat
  jumboPayload : List UInt8
  jumboPayloadLen : Nat
  jumboMsgType : UInt8

/-- The first bytes of an array overwritten. -/
def overwrite (array bytes : List UInt8) : List UInt8 := bytes ++ array.drop bytes.length

/-- What a receive leaves. -/
structure RecvResult where
  err : Int
  lib : CommLib
  addresserSt : AddrInfo
  payloadData : RecvPayloadData
  stream : List UInt8
  results : List IoResult

/-- The part of `comm_lib_tcp_recv_blocking` that gets the message. -/
def recvMessage (lib : CommLib) (handle : Handle) (addresserSt : AddrInfo)
    (data : RecvPayloadData) (m : MsgMetadata) (stream : List UInt8) (results : List IoResult) :
    Option RecvResult :=
  (commLibTcpLlRecvBlocking lib.db handle m.payloadSize.toNat stream results).map fun p =>
    let lib := { lib with db := p.2 }
    if m.payloadSize.toNat ≤ MAX_TCP_PAYLOAD then
      let data := { data with
        payload := Function.update data.payload 0 (overwrite (data.payload 0) p.1.received) }
      if p.1.err ≠ 0 then ⟨-p.1.err, lib, addresserSt, data, p.1.stream, p.1.results⟩ else
      ⟨0, lib, addresserSt, { data with
        payloadLen := Function.update data.payloadLen 0 p.1.bufferLen
        msgType := Function.update data.msgType 0 m.msgType
        msgNumRecv := data.msgNumRecv + 1 }, p.1.stream, p.1.results⟩
    else
      let data := { data with jumboPayload := overwrite data.jumboPayload p.1.received }
      if p.1.err ≠ 0 then ⟨-p.1.err, lib, addresserSt, data, p.1.stream, p.1.results⟩ else
      ⟨0, lib, addresserSt, { data with
        jumboPayloadLen := p.1.bufferLen
        jumboMsgType := m.msgType
        msgNumRecv := data.msgNumRecv + 1 }, p.1.stream, p.1.results⟩

/-- `comm_lib_tcp_recv_blocking`. -/
def commLibTcpRecvBlocking (lib : CommLib) (handle : Handle) (addresserSt : AddrInfo)
    (payloadData : RecvPayloadData) (maxMsgsToRecv : Nat) (stream : List UInt8)
    (results : List IoResult) : Option RecvResult :=
  if !lib.initDone then some ⟨-EPERM, lib, addresserSt, payloadData, stream, results⟩ else
  let data := { payloadData with msgNumRecv := 0, payloadLen := fun _ => 0, jumboPayloadLen := 0 }
  if maxMsgsToRecv = 0 then some ⟨-EINVAL, lib, addresserSt, data, stream, results⟩ else
  if 1 < maxMsgsToRecv then some ⟨-EPERM, lib, addresserSt, data, stream, results⟩ else
  match libCommuDbHanldeInfoGet lib.db handle .any with
  | (err, none) => some ⟨-err, lib, addresserSt, data, stream, results⟩
  | (_, some loc) =>
    if loc.dbType ≠ .tcpClientHandle ∧ loc.dbType ≠ .tcpServerHandle then
      some ⟨-EINVAL, lib, addresserSt, data, stream, results⟩ else
    let addr : AddrInfo := ⟨(lib.db.info loc).connInfo.dPort, (lib.db.info loc).connInfo.dIpv4Addr⟩
    (commLibTcpLlRecvBlocking lib.db handle METADATA_SIZE stream results).bind fun h =>
      if h.1.err ≠ 0 then
        some ⟨-h.1.err, { lib with db := h.2 }, addr, data, h.1.stream, h.1.results⟩ else
      if h.1.bufferLen < METADATA_SIZE then
        some ⟨- EIO, { lib with db := h.2 }, addr, data, h.1.stream, h.1.results⟩ else
      let m := MsgMetadata.ofBytes h.1.received
      let v := validateMetadataInfo m MAX_JUMBO_TCP_PAYLOAD (h.2.info loc)
      let lib := { lib with db := h.2.setInfo loc v.2 }
      if v.1 ≠ 0 then some ⟨-v.1, lib, addr, data, h.1.stream, h.1.results⟩ else
      recvMessage lib handle addr data m h.1.stream h.1.results

end MlnxLib.Commu
