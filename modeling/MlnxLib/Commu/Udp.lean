import MlnxLib.Commu.PeerMagic
import MlnxLib.Commu.Lookup

/-!
# Messages over UDP

Model of the UDP send and receive of `lib_commu.c`: the header and the payload are one datagram, put
together and taken apart in a local buffer of `MAX_MTU` bytes.

* `commLibUdpSend`, `commLibUdpRecv` — the two functions of the API.
* `commLibUdpLlSend`, `commLibUdpLlRecv` — their calls of the kernel and the byte counters.
* `stackByte` — the memory that a copy from the local buffer reads, inside of it or beyond.

What the kernel answers is an input, and each function records the answers it used.  Pointers are not
`NULL`, and logging is left out.

Principal result: `udp_recv_iff` — a receive delivers only received bytes, exactly when the header that it
accepts claims no more than that.
-/

set_option autoImplicit false

namespace MlnxLib.Commu

open Bytes

def MAX_MTU : Nat := 1500

/-- `MAX_MTU - MAX_IPV4_HEADER_SIZE - UDP_HEADER_SIZE`. -/
def MAX_UDP_MSG_SIZE : Nat := 1500 - 60 - 8

/-! ## Sending -/

/-- What `comm_lib_udp_ll_send` leaves: the error code and `*buffer_len`. -/
structure UdpLlSend where
  err : Int
  bufferLen : Nat
  db : Db

/-- `comm_lib_udp_ll_send`, with the answer of `sendto`. -/
def commLibUdpLlSend (db : Db) (handle : Handle) (buffer : List UInt8) : IoResult → UdpLlSend
  | .error errno => ⟨errno, 0, db⟩
  | .bytes n =>
    let err := if n ≠ buffer.length then EIO else 0
    if 0 < n then
      let u := handleTotalTxUpdate db handle .udpHandle (UInt64.ofNat n)
      ⟨if u.1 ≠ 0 ∧ err = 0 then u.1 else err, n, u.2⟩
    else ⟨err, n, db⟩

/-- What a send leaves, with the answers of `sendto` that it used. -/
structure UdpSend where
  err : Int
  lib : CommLib
  payloadLen : Nat
  calls : List IoResult

/-- `comm_lib_udp_send`. -/
def commLibUdpSend (lib : CommLib) (handle : Handle) (payload : List UInt8) (answer : IoResult) : UdpSend :=
  if !lib.initDone then ⟨-EPERM, lib, payload.length, []⟩ else
  if MAX_UDP_MSG_SIZE - METADATA_SIZE < payload.length then ⟨-EOVERFLOW, lib, payload.length, []⟩ else
  match libCommuDbHanldeInfoGet lib.db handle .udpHandle with
  | (err, none) => ⟨-err, lib, payload.length, []⟩
  | (_, some loc) =>
    let metadata := metadataSet MSG_VERSION payload.length (lib.db.info loc)
    let r := commLibUdpLlSend lib.db handle (metadata.bytes ++ payload) answer
    if r.err ≠ 0 then
      ⟨- EIO, { lib with db := r.db },
        if METADATA_SIZE < r.bufferLen then r.bufferLen - METADATA_SIZE else 0, [answer]⟩
    else ⟨0, { lib with db := r.db }, payload.length, [answer]⟩

/-! ## Receiving -/

/-- The answer of `recvfrom`: a datagram with its sender, or `-1` with `errno`. -/
inductive RecvfromResult where
  | datagram (bytes : List UInt8) (addresser : AddrInfo)
  | error (errno : Int)
  deriving DecidableEq, Repr

/-- What `recvfrom` writes into a buffer of this size; the rest of the datagram is lost. -/
def RecvfromResult.received (size : Nat) : RecvfromResult → List UInt8
  | .datagram bytes _ => bytes.take size
  | .error _ => []

/-- What `comm_lib_udp_ll_recv` leaves; `*payload_size` is the number of bytes received. -/
structure UdpLlRecv where
  err : Int
  received : List UInt8
  addresserSt : AddrInfo
  db : Db

/-- `comm_lib_udp_ll_recv` into a buffer of `payloadSize` bytes. -/
def commLibUdpLlRecv (db : Db) (handle : Handle) (payloadSize : Nat) (addresserSt : AddrInfo)
    (answer : RecvfromResult) : UdpLlRecv :=
  match answer with
  | .error errno => ⟨errno, [], addresserSt, db⟩
  | .datagram _ addresser =>
    let received := answer.received payloadSize
    if 0 < received.length then
      let u := handleTotalRxUpdate db handle .udpHandle (UInt64.ofNat received.length)
      ⟨u.1, received, addresser, u.2⟩
    else ⟨0, received, addresser, db⟩

/-- The local buffer, which was cleared before the receive. -/
def localBuffer (received : List UInt8) : List UInt8 :=
  received ++ List.replicate (MAX_MTU - received.length) 0

/-- The memory from the local buffer on: its bytes, and then what follows it on the stack. -/
def stackByte (received : List UInt8) (beyond : Nat → UInt8) (i : Nat) : UInt8 :=
  if i < MAX_MTU then (localBuffer received).getD i 0 else beyond (i - MAX_MTU)

/-- The copy of `size` bytes that follow the header in the local buffer. -/
def payloadCopy (received : List UInt8) (beyond : Nat → UInt8) (size : Nat) : List UInt8 :=
  (List.range size).map fun k => stackByte received beyond (METADATA_SIZE + k)

/-- What a receive leaves, with the bytes copied to the user and the answers of `recvfrom` that it
used. -/
structure UdpRecv where
  err : Int
  lib : CommLib
  addresserSt : AddrInfo
  payload : List UInt8
  payloadLen : Nat
  calls : List RecvfromResult

/-- A receive that fails; `*payload_len` is cleared after `bail`. -/
def udpRecvFails (err : Int) (lib : CommLib) (addresserSt : AddrInfo) (calls : List RecvfromResult) : UdpRecv :=
  ⟨-err, lib, addresserSt, [], 0, calls⟩

/-- `comm_lib_udp_recv`; `beyond` is what follows the local buffer in memory. -/
def commLibUdpRecv (lib : CommLib) (handle : Handle) (addresserSt : AddrInfo) (payloadLen : Nat)
    (beyond : Nat → UInt8) (answer : RecvfromResult) : UdpRecv :=
  if !lib.initDone then udpRecvFails EPERM lib addresserSt [] else
  if payloadLen = 0 then udpRecvFails EINVAL lib addresserSt [] else
  match libCommuDbHanldeInfoGet lib.db handle .udpHandle with
  | (err, none) => udpRecvFails err lib addresserSt []
  | (_, some loc) =>
    let r := commLibUdpLlRecv lib.db handle MAX_MTU addresserSt answer
    if r.err ≠ 0 then udpRecvFails r.err { lib with db := r.db } r.addresserSt [answer] else
    if r.received.length < METADATA_SIZE then
      udpRecvFails EIO { lib with db := r.db } r.addresserSt [answer] else
    let m := MsgMetadata.ofBytes ((localBuffer r.received).take METADATA_SIZE)
    let v := validateMetadataInfo m payloadLen (r.db.info loc)
    let lib := { lib with db := r.db.setInfo loc v.2 }
    if v.1 ≠ 0 then udpRecvFails v.1 lib r.addresserSt [answer] else
    ⟨0, lib, r.addresserSt, payloadCopy r.received beyond m.payloadSize.toNat, m.payloadSize.toNat, [answer]⟩

/-! ## What is delivered -/

/-- The payload is what follows the header in the received bytes, as long as the receiver is told. -/
structure OnlyReceived (r : UdpRecv) (received : List UInt8) : Prop where
  within : METADATA_SIZE + r.payloadLen ≤ received.length
  payload : r.payload = (received.drop METADATA_SIZE).take r.payloadLen

/-- The header of a datagram, for a receiver with room for `payloadLen` bytes. -/
def datagramHeader (received : List UInt8) (payloadLen : Nat) : Incoming :=
  ⟨MsgMetadata.ofBytes (received.take METADATA_SIZE), payloadLen⟩

/-- The datagram passes the checks of the receive: the library is initialised, the handle is that of a UDP
session, the datagram has a header, and the header is one that the session takes. -/
def UdpAccepts (lib : CommLib) (handle : Handle) (payloadLen : Nat) (received : List UInt8) : Prop :=
  lib.initDone = true ∧ METADATA_SIZE ≤ received.length ∧
    ∃ loc, libCommuDbHanldeInfoGet lib.db handle .udpHandle = (0, some loc) ∧
      (datagramHeader received payloadLen).Fits (lib.db.info loc).connInfo.msgType ∧
      (lib.db.info loc).Trusts (datagramHeader received payloadLen).metadata.trailer

theorem length_received (size : Nat) (answer : RecvfromResult) : (answer.received size).length ≤ size := by
  cases answer with
  | datagram bytes addresser => exact List.length_take_le ..
  | error errno => exact Nat.zero_le size

/-- **A copy that stays within the received bytes** reads nothing else. -/
theorem payloadCopy_eq {received : List UInt8} {size : Nat} (beyond : Nat → UInt8)
    (hmtu : received.length ≤ MAX_MTU) (hsize : METADATA_SIZE + size ≤ received.length) :
    payloadCopy received beyond size = (received.drop METADATA_SIZE).take size := by
  have hlength : ((received.drop METADATA_SIZE).take size).length = size := by
    rw [List.length_take, List.length_drop]
    omega
  unfold payloadCopy
  apply List.ext_getElem
  · rw [hlength, List.length_map, List.length_range]
  · intro k hk _
    have hk : k < size := by simpa using hk
    have hin : METADATA_SIZE + k < received.length := by omega
    rw [List.getElem_map, List.getElem_range, List.getElem_take, List.getElem_drop]
    unfold stackByte localBuffer
    rw [if_pos (by omega), List.getD_eq_getElem?_getD, List.getElem?_append_left hin,
      List.getElem?_eq_getElem hin, Option.getD_some]

/-- The header of a datagram is in the local buffer. -/
theorem header_localBuffer {received : List UInt8} (h : METADATA_SIZE ≤ received.length) :
    (localBuffer received).take METADATA_SIZE = received.take METADATA_SIZE :=
  List.take_append_of_le_length h

/-- An update of a counter of a handle that is found. -/
theorem rxUpdate_of_found {db : Db} {handle : Handle} {t : DbType} {loc : InfoLoc}
    (h : libCommuDbHanldeInfoGet db handle t = (0, some loc)) (n : UInt64) :
    handleTotalRxUpdate db handle t n = (0, db.setInfo loc { db.info loc with
      socektInfo := { (db.info loc).socektInfo with
        totalSumBytesRx := (db.info loc).socektInfo.totalSumBytesRx + n } }) := by
  unfold handleTotalRxUpdate
  rw [h]

section

variable {lib : CommLib} {handle : Handle} {loc : InfoLoc} {answer : RecvfromResult}

/-- The call of the kernel for a UDP session: it fails, or what it received is counted. -/
theorem udpLlRecv_cases (h : libCommuDbHanldeInfoGet lib.db handle .udpHandle = (0, some loc))
    (addresserSt : AddrInfo) (answer : RecvfromResult) :
    (commLibUdpLlRecv lib.db handle MAX_MTU addresserSt answer).received = answer.received MAX_MTU ∧
    (0 < (answer.received MAX_MTU).length →
      (commLibUdpLlRecv lib.db handle MAX_MTU addresserSt answer).err = 0) ∧
    ((commLibUdpLlRecv lib.db handle MAX_MTU addresserSt answer).db = lib.db ∨
      ∃ rx, (commLibUdpLlRecv lib.db handle MAX_MTU addresserSt answer).db =
        lib.db.setInfo loc { lib.db.info loc with socektInfo := { (lib.db.info loc).socektInfo with
          totalSumBytesRx := rx } }) := by
  cases answer with
  | error errno => exact ⟨rfl, fun hpos => absurd hpos (Nat.lt_irrefl 0), Or.inl rfl⟩
  | datagram bytes addresser =>
    unfold commLibUdpLlRecv
    dsimp only
    split
    · rw [rxUpdate_of_found h]
      exact ⟨rfl, fun _ => rfl, Or.inr ⟨_, rfl⟩⟩
    · exact ⟨rfl, fun _ => rfl, Or.inl rfl⟩

/-- A counter says nothing about a header. -/
theorem validate_counted (x : Incoming) (db : Db) (loc : InfoLoc) {db' : Db}
    (h : db' = db ∨ ∃ rx, db' = db.setInfo loc { db.info loc with socektInfo := { (db.info loc).socektInfo with
      totalSumBytesRx := rx } }) :
    (x.validate (db'.info loc)).1 = 0 ↔
      x.Fits (db.info loc).connInfo.msgType ∧ (db.info loc).Trusts x.metadata.trailer := by
  rw [validate_err_iff]
  obtain rfl | ⟨rx, rfl⟩ := h
  · exact Iff.rfl
  · rw [info_setInfo, if_pos rfl]
    exact Iff.rfl

/-- **A receive that succeeds** has accepted the datagram, and copies as many bytes as its header says. -/
theorem udpRecv_cases (lib : CommLib) (handle : Handle) (addresserSt : AddrInfo) (payloadLen : Nat)
    (beyond : Nat → UInt8) (answer : RecvfromResult) :
    (UdpAccepts lib handle payloadLen (answer.received MAX_MTU) ∧
      (commLibUdpRecv lib handle addresserSt payloadLen beyond answer).err = 0 ∧
      (commLibUdpRecv lib handle addresserSt payloadLen beyond answer).payloadLen =
        (datagramHeader (answer.received MAX_MTU) payloadLen).metadata.payloadSize.toNat ∧
      (commLibUdpRecv lib handle addresserSt payloadLen beyond answer).payload =
        payloadCopy (answer.received MAX_MTU) beyond
          (datagramHeader (answer.received MAX_MTU) payloadLen).metadata.payloadSize.toNat) ∨
    (¬UdpAccepts lib handle payloadLen (answer.received MAX_MTU) ∧
      (commLibUdpRecv lib handle addresserSt payloadLen beyond answer).err ≠ 0) := by
  have hfails : ∀ {err : Int} {lib : CommLib} {addr : AddrInfo} {calls : List RecvfromResult}, err ≠ 0 →
      (udpRecvFails err lib addr calls).err ≠ 0 := fun h => by
      show -_ ≠ (0 : Int)
      omega
  unfold commLibUdpRecv
  split
  · rename_i hinit
    refine Or.inr ⟨fun h => ?_, hfails (by decide)⟩
    rw [h.1] at hinit
    cases hinit
  rename_i hinit
  split
  · -- a header that passes the checks claims a byte, and there is no room for it
    rename_i hempty
    refine Or.inr ⟨?_, hfails (by decide)⟩
    rintro ⟨-, -, loc, -, ⟨hchecked, -⟩, -⟩
    have hnone : (datagramHeader (answer.received MAX_MTU) payloadLen).metadata.payloadSize.toNat = 0 :=
      Nat.le_zero.mp (hempty ▸ hchecked.fits)
    exact hchecked.nonempty (UInt32.toNat_inj.mp hnone)
  obtain ⟨loc, hget⟩ | ⟨err, herr, hget⟩ := hanldeInfoGet_result lib.db handle .udpHandle
  · obtain ⟨hreceived, hok, hdb⟩ := udpLlRecv_cases hget addresserSt answer
    rw [hget]
    dsimp only
    rw [hreceived]
    have hlong : METADATA_SIZE ≤ (answer.received MAX_MTU).length →
        (commLibUdpLlRecv lib.db handle MAX_MTU addresserSt answer).err = 0 :=
      fun h => hok (Nat.lt_of_lt_of_le (by decide) h)
    have hloc : ∀ {loc'}, libCommuDbHanldeInfoGet lib.db handle .udpHandle = (0, some loc') → loc' = loc :=
      fun h => Option.some.inj (congrArg Prod.snd (h.symm.trans hget))
    split
    · rename_i hbad
      exact Or.inr ⟨fun h => hbad (hlong h.2.1), hfails hbad⟩
    split
    · rename_i hshort
      exact Or.inr ⟨fun h => absurd h.2.1 (Nat.not_le.mpr hshort), hfails (by decide)⟩
    rename_i hshort
    rw [header_localBuffer (Nat.not_lt.mp hshort)]
    have hiff := validate_counted (datagramHeader (answer.received MAX_MTU) payloadLen) lib.db loc hdb
    split
    · rename_i hrefused
      refine Or.inr ⟨fun ⟨_, _, loc', hget', hheader⟩ => hrefused (hiff.mpr ?_), hfails hrefused⟩
      rw [← hloc hget']
      exact hheader
    · rename_i haccepted
      have hinit : lib.initDone = true := by simpa using hinit
      exact Or.inl ⟨⟨hinit, Nat.not_lt.mp hshort, loc, hget, hiff.mp (not_not.mp haccepted)⟩, rfl, rfl, rfl⟩
  · rw [hget]
    refine Or.inr ⟨fun ⟨_, _, loc, hget', _⟩ => ?_, hfails herr⟩
    cases hget.symm.trans hget'

/-- **UDP receive.**  A receive that returns 0 has delivered only bytes that were received, exactly when
the header of a datagram that it accepts claims no more than what follows it. -/
theorem udp_recv_iff (lib : CommLib) (handle : Handle) (addresserSt : AddrInfo) (payloadLen : Nat)
    (beyond : Nat → UInt8) (answer : RecvfromResult) :
    ((commLibUdpRecv lib handle addresserSt payloadLen beyond answer).err = 0 →
      OnlyReceived (commLibUdpRecv lib handle addresserSt payloadLen beyond answer)
        (answer.received MAX_MTU)) ↔
    (UdpAccepts lib handle payloadLen (answer.received MAX_MTU) →
      METADATA_SIZE + (datagramHeader (answer.received MAX_MTU) payloadLen).metadata.payloadSize.toNat ≤
        (answer.received MAX_MTU).length) := by
  obtain ⟨haccepts, herr, hlen, hpayload⟩ | ⟨hrefuses, herr⟩ :=
    udpRecv_cases lib handle addresserSt payloadLen beyond answer
  · constructor
    · intro h _
      have hwithin := (h herr).within
      rw [hlen] at hwithin
      exact hwithin
    · intro h _
      refine ⟨by rw [hlen]; exact h haccepts, ?_⟩
      rw [hpayload, hlen]
      exact payloadCopy_eq beyond (length_received ..) (h haccepts)
  · exact iff_of_true (fun hok => absurd hok herr) (fun haccepts => absurd haccepts hrefuses)

end

/-- A library with one UDP session, for messages of type 3. -/
def sampleUdpLib : CommLib :=
  ⟨true, (libCommuDbUdpHandleInfoSet (libCommuDbInit Db.zero) 7 80 3 1 11).2⟩

/-- A datagram of a header that claims four bytes, and one byte. -/
def shortDatagram : RecvfromResult :=
  .datagram ((⟨4, 5, MSG_VERSION, 3⟩ : MsgMetadata).bytes ++ [1]) ⟨90, 8⟩

/-- **A header that claims more than was received** makes the copy read bytes that were not. -/
theorem udp_recv_stale_bytes :
    ¬∀ (lib : CommLib) (handle : Handle) (addresserSt : AddrInfo) (payloadLen : Nat) (beyond : Nat → UInt8)
      (answer : RecvfromResult), 1 ≤ payloadLen →
      (commLibUdpRecv lib handle addresserSt payloadLen beyond answer).err = 0 →
      OnlyReceived (commLibUdpRecv lib handle addresserSt payloadLen beyond answer)
        (answer.received MAX_MTU) := by
  intro h
  have hwithin := (h sampleUdpLib 7 ⟨0, 0⟩ 100 (fun _ => 0) shortDatagram (by decide) (by decide +kernel)).within
  exact absurd hwithin (by decide +kernel)

end MlnxLib.Commu
