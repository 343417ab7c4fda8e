import MlnxLib.Commu.Servers
import MlnxLib.Commu.Tcp

/-!
# Framing of TCP messages

A message is sent as a header with its size and then its bytes, and received as a header and then as
many bytes; the kernel may split both in any way.  A receive that starts at a header ends at the end
of that message, so the two ends stay in step.

* `Splits n parts` — results of calls that move `n` bytes.
* `frame` — the bytes of a message.

Principal results: `sendLoop_spec`, `recvLoop_spec` — the loops, for every split; `send_spec`,
`recv_spec` — one message; `framing_round_trip` — any messages, in their order and each in its
buffer.
-/

set_option autoImplicit false

namespace MlnxLib.Commu

open Bytes SlotTable

/-! ## Splits -/

/-- The results of the calls that move `n` bytes: none is larger than what is left, and the last one
ends it. -/
def Splits : Nat → List Nat → Prop
  | n, [] => n = 0
  | n, p :: ps => 0 < n ∧ p ≤ n ∧ Splits (n - p) ps

instance decidableSplits : ∀ (n : Nat) (ps : List Nat), Decidable (Splits n ps)
  | n, [] => inferInstanceAs (Decidable (n = 0))
  | n, p :: ps =>
    haveI := decidableSplits (n - p) ps
    inferInstanceAs (Decidable (0 < n ∧ p ≤ n ∧ Splits (n - p) ps))

/-- **The loop over `send`** hands over the rest of the buffer, however it is split. -/
theorem sendLoop_spec (buffer : List UInt8) (rs : List IoResult) : ∀ (ps : List Nat)
    (repeatTimes totalBytes : Nat) (sent : List UInt8), totalBytes ≤ buffer.length →
    Splits (buffer.length - totalBytes) ps → repeatTimes + ps.length ≤ SEND_REPEAT_NUM →
    sendLoop buffer (ps.map .bytes ++ rs) repeatTimes totalBytes sent =
      some ⟨0, buffer.length, buffer.length, sent ++ buffer.drop totalBytes, rs⟩
  | [], repeatTimes, totalBytes, sent, hle, hsplit, _ => by
    have htotal : totalBytes = buffer.length := by
      unfold Splits at hsplit
      omega
    unfold sendLoop
    rw [if_neg (by omega), htotal]
    simp
  | p :: ps, repeatTimes, totalBytes, sent, hle, ⟨hpos, hp, hsplit⟩, hrep => by
    rw [List.length_cons] at hrep
    have hrest : buffer.length - (totalBytes + p) = buffer.length - totalBytes - p := by omega
    have ih := sendLoop_spec buffer rs ps (repeatTimes + 1) (totalBytes + p)
      (sent ++ (buffer.drop totalBytes).take p) (by omega) (by rw [hrest]; exact hsplit) (by omega)
    unfold sendLoop
    rw [if_pos (by omega), if_neg (by omega)]
    show sendLoop buffer (ps.map .bytes ++ rs) _ _ _ = _
    rw [ih, List.append_assoc, ← List.drop_drop, List.take_append_drop]

/-- **The loop over `recv`** takes as many bytes from the stream as it is asked for. -/
theorem recvLoop_spec (bufferLen : Nat) (rs : List IoResult) (rest : List UInt8) : ∀ (ps : List Nat)
    (repeatTimes totalBytes : Nat) (received bytes : List UInt8),
    totalBytes + bytes.length = bufferLen → Splits bytes.length ps → (∀ p ∈ ps, 0 < p) →
    repeatTimes + ps.length ≤ RECV_REPEAT_NUM →
    recvLoop bufferLen (ps.map .bytes ++ rs) repeatTimes totalBytes received (bytes ++ rest) =
      some ⟨0, bufferLen, bufferLen, received ++ bytes, rest, rs⟩
  | [], repeatTimes, totalBytes, received, bytes, hlen, hsplit, _, _ => by
    have hnil : bytes = [] := List.length_eq_zero_iff.mp hsplit
    subst hnil
    unfold recvLoop
    rw [if_neg (by simpa using hlen), ← hlen]
    simp
  | p :: ps, repeatTimes, totalBytes, received, bytes, hlen, ⟨hpos, hp, hsplit⟩, hps, hrep => by
    rw [List.length_cons] at hrep
    have hp0 : 0 < p := hps p (List.mem_cons_self ..)
    have htake : (bytes ++ rest).take p = bytes.take p := List.take_append_of_le_length hp
    have hdrop : (bytes ++ rest).drop p = bytes.drop p ++ rest := List.drop_append_of_le_length hp
    have ih := recvLoop_spec bufferLen rs rest ps (repeatTimes + 1) (totalBytes + p)
      (received ++ bytes.take p) (bytes.drop p) (by rw [List.length_drop]; omega)
      (by rw [List.length_drop]; exact hsplit) (fun q hq => hps q (List.mem_cons_of_mem _ hq)) (by omega)
    unfold recvLoop
    rw [if_pos (by omega), if_neg (by omega)]
    show (if p = 0 then _ else recvLoop bufferLen (ps.map .bytes ++ rs) _ _ _ _) = _
    rw [if_neg (by omega), htake, hdrop, ih, List.append_assoc, List.take_append_drop]

/-! ## One end of a connection -/

/-- The library is initialised, and it finds the handle at `loc`. -/
structure Endpoint (lib : CommLib) (handle : Handle) (loc : InfoLoc) : Prop where
  ready : lib.initDone = true
  found : lib.db.find handle = some loc

section Endpoint

variable {lib : CommLib} {handle : Handle} {loc : InfoLoc}

/-- An update that keeps the handle of a record is not seen by the search. -/
theorem find_setInfo {db : Db} {x : HandleInfo} (hx : x.handle = (db.info loc).handle) :
    (db.setInfo loc x).find handle = db.find handle := by
  have hcol : ∀ l, ((db.setInfo loc x).info l).handle = (db.info l).handle := by
    intro l
    rw [info_setInfo]
    split
    · rename_i hl
      rw [hl, hx]
    · rfl
  have hclient : (db.setInfo loc x).clientHandles = db.clientHandles := funext fun i => hcol (.client i)
  have hserver : (db.setInfo loc x).serverHandles = db.serverHandles :=
    funext fun s => funext fun i => hcol (.server s i)
  have hudp : (db.setInfo loc x).udpHandles = db.udpHandles := funext fun i => hcol (.udp i)
  unfold Db.find searchClient searchServers searchUdp
  rw [hclient, hudp]
  unfold searchServer
  rw [hserver, status_setInfo]

theorem Endpoint.setInfo (h : Endpoint lib handle loc) {x : HandleInfo}
    (hx : x.handle = (lib.db.info loc).handle) :
    Endpoint { lib with db := lib.db.setInfo loc x } handle loc :=
  ⟨h.ready, (find_setInfo hx).trans h.found⟩

theorem searchServers_server {db : Db} (h : searchServers db handle = some loc) :
    ∃ s i, loc = .server s i := by
  obtain ⟨s, hs, -⟩ := Fin.findSome?_eq_some_iff.mp h
  unfold searchServer at hs
  split at hs
  · obtain ⟨i, -, rfl⟩ := Option.map_eq_some_iff.mp hs
    exact ⟨s, i, rfl⟩
  · cases hs

/-- The search in the table where the handle was found. -/
theorem Endpoint.get_dbType (h : Endpoint lib handle loc) :
    libCommuDbHanldeInfoGet lib.db handle loc.dbType = (0, some loc) := by
  have hf := h.found
  unfold Db.find at hf
  rw [Option.or_eq_some_iff, Option.or_eq_some_iff] at hf
  unfold libCommuDbHanldeInfoGet
  obtain (hc | ⟨-, hs⟩) | ⟨-, hu⟩ := hf
  · obtain ⟨i, -, rfl⟩ := Option.map_eq_some_iff.mp hc
    exact congrArg (locOr ENOKEY) hc
  · obtain ⟨s, i, rfl⟩ := searchServers_server hs
    exact congrArg (locOr ENOKEY) hs
  · obtain ⟨i, -, rfl⟩ := Option.map_eq_some_iff.mp hu
    exact congrArg (locOr ENOKEY) hu

theorem Endpoint.get_any (h : Endpoint lib handle loc) :
    libCommuDbHanldeInfoGet lib.db handle .any = (0, some loc) := by
  rw [hanldeInfoGet_any, h.found, locOr_some]

end Endpoint

/-- What of a connection its counters do not change. -/
structure SameConnection (info info' : HandleInfo) : Prop where
  handle : info'.handle = info.handle
  connInfo : info'.connInfo = info.connInfo
  localMagic : info'.socektInfo.localMagic = info.socektInfo.localMagic
  peerMagic : info'.socektInfo.peerMagic = info.socektInfo.peerMagic

theorem SameConnection.refl (info : HandleInfo) : SameConnection info info := ⟨rfl, rfl, rfl, rfl⟩

theorem SameConnection.trans {a b c : HandleInfo} (h : SameConnection a b) (h' : SameConnection b c) :
    SameConnection a c :=
  ⟨h'.handle.trans h.handle, h'.connInfo.trans h.connInfo, h'.localMagic.trans h.localMagic,
    h'.peerMagic.trans h.peerMagic⟩

/-- After a call, the library still finds the handle, and its connection is the same. -/
structure Keeps (lib : CommLib) (handle : Handle) (loc : InfoLoc) (db : Db) : Prop where
  endpoint : Endpoint { lib with db := db } handle loc
  same : SameConnection (lib.db.info loc) (db.info loc)

section Calls

variable {lib : CommLib} {handle : Handle} {loc : InfoLoc}

theorem Keeps.refl (h : Endpoint lib handle loc) : Keeps lib handle loc lib.db := ⟨h, .refl _⟩

theorem Keeps.trans {db db' : Db} (h : Keeps lib handle loc db)
    (h' : Keeps { lib with db := db } handle loc db') : Keeps lib handle loc db' :=
  ⟨h'.endpoint, h.same.trans h'.same⟩

theorem Endpoint.keeps_setInfo (h : Endpoint lib handle loc) {x : HandleInfo}
    (hx : SameConnection (lib.db.info loc) x) : Keeps lib handle loc (lib.db.setInfo loc x) := by
  refine ⟨h.setInfo hx.handle, ?_⟩
  rw [info_setInfo, if_pos rfl]
  exact hx

theorem txUpdate_spec (h : Endpoint lib handle loc) (n : UInt64) :
    ∃ db', handleTotalTxUpdate lib.db handle loc.dbType n = (0, db') ∧ Keeps lib handle loc db' := by
  unfold handleTotalTxUpdate
  rw [h.get_dbType]
  exact ⟨_, rfl, h.keeps_setInfo ⟨rfl, rfl, rfl, rfl⟩⟩

theorem rxUpdate_spec (h : Endpoint lib handle loc) (n : UInt64) :
    ∃ db', handleTotalRxUpdate lib.db handle .any n = (0, db') ∧ Keeps lib handle loc db' := by
  unfold handleTotalRxUpdate
  rw [h.get_any]
  exact ⟨_, rfl, h.keeps_setInfo ⟨rfl, rfl, rfl, rfl⟩⟩

/-- **A buffer is sent as a whole**, and the counter is updated. -/
theorem llSend_spec (h : Endpoint lib handle loc) (buffer : List UInt8) {ps : List Nat}
    (rs : List IoResult) (hsplit : Splits buffer.length ps) (hps : ps.length ≤ SEND_REPEAT_NUM) :
    ∃ db', commLibTcpLlSendBlocking lib.db handle buffer loc.dbType (ps.map .bytes ++ rs) =
        some (⟨0, buffer.length, buffer.length, buffer, rs⟩, db') ∧ Keeps lib handle loc db' := by
  have hloop := sendLoop_spec buffer rs ps 0 0 [] (Nat.zero_le _) hsplit (by omega)
  obtain ⟨db', htx, hkeeps⟩ := txUpdate_spec h (UInt64.ofNat buffer.length)
  unfold commLibTcpLlSendBlocking
  rw [hloop, Option.map_some, htx]
  by_cases hpos : 0 < buffer.length
  · refine ⟨db', ?_, hkeeps⟩
    simp [hpos]
  · refine ⟨lib.db, ?_, .refl h⟩
    simp [hpos]

/-- **A buffer is received as a whole**, and the counter is updated. -/
theorem llRecv_spec (h : Endpoint lib handle loc) (bytes rest : List UInt8) {ps : List Nat}
    (rs : List IoResult) (hsplit : Splits bytes.length ps)
    (hpos : ∀ p ∈ ps, 0 < p) (hps : ps.length ≤ RECV_REPEAT_NUM) :
    ∃ db', commLibTcpLlRecvBlocking lib.db handle bytes.length (bytes ++ rest) (ps.map .bytes ++ rs) =
        some (⟨0, bytes.length, bytes.length, bytes, rest, rs⟩, db') ∧ Keeps lib handle loc db' := by
  have hloop := recvLoop_spec bytes.length rs rest ps 0 0 [] bytes (Nat.zero_add _) hsplit hpos (by omega)
  obtain ⟨db', hrx, hkeeps⟩ := rxUpdate_spec h (UInt64.ofNat bytes.length)
  unfold commLibTcpLlRecvBlocking
  rw [hloop, Option.map_some, hrx]
  by_cases hlen : 0 < bytes.length
  · refine ⟨db', ?_, hkeeps⟩
    simp [hlen]
  · refine ⟨lib.db, ?_, .refl h⟩
    simp [hlen]

end Calls

/-! ## One message -/

/-- The header of a message of `len` bytes. -/
def header (magic : UInt32) (t : UInt8) (len : Nat) : MsgMetadata :=
  ⟨UInt32.ofNat len, magic, MSG_VERSION, t⟩

/-- The bytes of a message on the connection. -/
def frame (magic : UInt32) (t : UInt8) (payload : List UInt8) : List UInt8 :=
  (header magic t payload.length).bytes ++ payload

theorem bytes_length (m : MsgMetadata) : m.bytes.length = METADATA_SIZE := rfl

/-- **A header is read back from its bytes.** -/
theorem ofBytes_bytes (m : MsgMetadata) : MsgMetadata.ofBytes m.bytes = m := by
  show (⟨ofNet32 _ _ _ _, ofNet32 _ _ _ _, m.version, m.msgType⟩ : MsgMetadata) = m
  rw [ofNet32_net32, ofNet32_net32]

/-- A connection with the type of the message. -/
theorem metadataSet_eq {info : HandleInfo} {t : UInt8} (ht : info.connInfo.msgType = t.toUInt16)
    (len : Nat) : metadataSet MSG_VERSION len info = header info.socektInfo.localMagic t len := by
  unfold metadataSet header
  rw [ht, UInt8.toUInt8_toUInt16]

/-- The connection takes messages of type `t` from a peer with this magic. -/
structure Accepts (info : HandleInfo) (t : UInt8) (magic : UInt32) : Prop where
  msgType : info.connInfo.msgType = t.toUInt16
  peerMagic : info.socektInfo.peerMagic = INVALID_MAGIC ∨ info.socektInfo.peerMagic = magic

theorem SameConnection.accepts {info info' : HandleInfo} (h : SameConnection info info') {t : UInt8}
    {magic : UInt32} (ha : Accepts info t magic) : Accepts info' t magic :=
  ⟨by rw [h.connInfo, ha.msgType], by rw [h.peerMagic]; exact ha.peerMagic⟩

theorem payloadSize_header (magic : UInt32) (t : UInt8) {len : Nat}
    (hlen : len ≤ MAX_JUMBO_TCP_PAYLOAD) : (header magic t len).payloadSize.toNat = len := by
  show (UInt32.ofNat len).toNat = len
  rw [UInt32.toNat_ofNat']
  unfold MAX_JUMBO_TCP_PAYLOAD at hlen
  exact Nat.mod_eq_of_lt (by omega)

theorem validateMsgType_header {info : HandleInfo} {t : UInt8} (ht : info.connInfo.msgType = t.toUInt16)
    (magic : UInt32) (len : Nat) : validateMsgType (header magic t len) info = (0, info) := by
  unfold validateMsgType
  rw [ht]
  exact if_neg fun hne => hne rfl

/-- **A header of the peer passes the checks**, and the magic it leaves is the peer's. -/
theorem validate_spec {info : HandleInfo} {t : UInt8} {magic : UInt32} (h : Accepts info t magic)
    {len : Nat} (hpos : 0 < len) (hlen : len ≤ MAX_JUMBO_TCP_PAYLOAD) :
    ∃ info', validateMetadataInfo (header magic t len) MAX_JUMBO_TCP_PAYLOAD info = (0, info') ∧
      info'.handle = info.handle ∧ Accepts info' t magic := by
  have hsize := payloadSize_header magic t hlen
  have hsizeOk : ¬(MAX_JUMBO_TCP_PAYLOAD < (header magic t len).payloadSize.toNat ∨
      (header magic t len).payloadSize = 0) := by
    rintro (hlt | hzero)
    · omega
    · rw [hzero] at hsize
      exact absurd hsize (Nat.ne_of_lt hpos)
  unfold validateMetadataInfo
  rw [if_neg fun hne => hne rfl, if_neg hsizeOk]
  by_cases hunset : info.socektInfo.peerMagic = INVALID_MAGIC
  · -- the first message sets the magic
    rw [if_pos hunset]
    refine ⟨_, validateMsgType_header ?_ .., rfl, ?_⟩
    · exact h.msgType
    · exact ⟨h.msgType, .inr rfl⟩
  · have hmagic := h.peerMagic.resolve_left hunset
    rw [if_neg hunset, if_neg fun hne => hne.2 hmagic]
    exact ⟨info, validateMsgType_header h.msgType .., rfl, h⟩

/-- What the calls for one message do at each end: how the kernel splits its header and its bytes,
and the buffers the receive is given. -/
structure Transfer where
  payload : List UInt8
  sendHeader : List Nat
  sendBody : List Nat
  recvHeader : List Nat
  recvBody : List Nat
  addresserSt : AddrInfo
  payloadData : RecvPayloadData

/-- A message that may be sent, and calls of `send` and `recv` that move it: without errors, and not
more of them than the loops make.  A `recv` of no bytes is the end of the stream. -/
structure Transfer.Valid (x : Transfer) : Prop where
  nonempty : 0 < x.payload.length
  fits : x.payload.length ≤ MAX_JUMBO_TCP_PAYLOAD - METADATA_SIZE
  sendHeader : Splits METADATA_SIZE x.sendHeader ∧ x.sendHeader.length ≤ SEND_REPEAT_NUM
  sendBody : Splits x.payload.length x.sendBody ∧ x.sendBody.length ≤ SEND_REPEAT_NUM
  recvHeader : Splits METADATA_SIZE x.recvHeader ∧ x.recvHeader.length ≤ RECV_REPEAT_NUM ∧
    ∀ p ∈ x.recvHeader, 0 < p
  recvBody : Splits x.payload.length x.recvBody ∧ x.recvBody.length ≤ RECV_REPEAT_NUM ∧
    ∀ p ∈ x.recvBody, 0 < p

/-- The results of the calls of `send` for one message. -/
def Transfer.sends (x : Transfer) : List IoResult := x.sendHeader.map .bytes ++ x.sendBody.map .bytes

def Transfer.recvs (x : Transfer) : List IoResult := x.recvHeader.map .bytes ++ x.recvBody.map .bytes

/-- The message is in the buffer for its size, with its length; the other buffer is as it was and
its length is 0. -/
structure Delivered (old new : RecvPayloadData) (t : UInt8) (payload : List UInt8) : Prop where
  msgNumRecv : new.msgNumRecv = 1
  small : payload.length ≤ MAX_TCP_PAYLOAD →
    (new.payload 0).take (new.payloadLen 0) = payload ∧ new.payloadLen 0 = payload.length ∧
    new.msgType 0 = t ∧ new.jumboPayload = old.jumboPayload ∧ new.jumboPayloadLen = 0
  jumbo : MAX_TCP_PAYLOAD < payload.length →
    new.jumboPayload.take new.jumboPayloadLen = payload ∧ new.jumboPayloadLen = payload.length ∧
    new.jumboMsgType = t ∧ new.payload = old.payload ∧ new.payloadLen = fun _ => 0
  others : ∀ i, i ≠ 0 → new.payload i = old.payload i ∧ new.payloadLen i = 0

section Message

variable {lib : CommLib} {handle : Handle} {loc : InfoLoc}

/-- **A send** puts the frame of its payload on the connection. -/
theorem send_spec (h : Endpoint lib handle loc) {x : Transfer} (hx : x.Valid) {t : UInt8}
    (ht : (lib.db.info loc).connInfo.msgType = t.toUInt16) (rs : List IoResult) :
    ∃ db', commLibTcpSendBlocking lib handle x.payload (x.sends ++ rs) =
        some ⟨0, { lib with db := db' }, x.payload.length,
          frame (lib.db.info loc).socektInfo.localMagic t x.payload, rs⟩ ∧
      Keeps lib handle loc db' := by
  have hhead := metadataSet_eq ht x.payload.length
  obtain ⟨db₁, h1, hk1⟩ := llSend_spec h (metadataSet MSG_VERSION x.payload.length
    (lib.db.info loc)).bytes (x.sendBody.map .bytes ++ rs) hx.sendHeader.1 hx.sendHeader.2
  obtain ⟨db₂, h2, hk2⟩ := llSend_spec hk1.endpoint x.payload rs hx.sendBody.1 hx.sendBody.2
  refine ⟨db₂, ?_, hk1.trans hk2⟩
  unfold commLibTcpSendBlocking
  rw [if_neg (by simp [h.ready]), if_neg (Nat.not_lt.mpr hx.fits), h.get_any]
  simp only [Transfer.sends, List.append_assoc]
  rw [h1, Option.bind_some]
  simp only [ne_eq, not_true_eq_false, if_false]
  rw [h2, Option.map_some, hhead]
  rfl

/-- The arrays after a receive cleared the counts of its buffers. -/
def RecvPayloadData.cleared (data : RecvPayloadData) : RecvPayloadData :=
  { data with msgNumRecv := 0, payloadLen := fun _ => 0, jumboPayloadLen := 0 }

theorem take_overwrite (array bytes : List UInt8) : (overwrite array bytes).take bytes.length = bytes :=
  List.take_left ..

/-- The bytes that follow the header end in their buffer. -/
theorem recvMessage_spec (h : Endpoint lib handle loc) {x : Transfer} (hx : x.Valid) (magic : UInt32)
    (t : UInt8) (addr : AddrInfo) (rest : List UInt8) (rs : List IoResult) :
    ∃ db' data', recvMessage lib handle addr x.payloadData.cleared (header magic t x.payload.length)
        (x.payload ++ rest) (x.recvBody.map .bytes ++ rs) =
        some ⟨0, { lib with db := db' }, addr, data', rest, rs⟩ ∧
      Delivered x.payloadData data' t x.payload ∧ Keeps lib handle loc db' := by
  have hfits := hx.fits
  obtain ⟨hsplit, hcalls, hpos⟩ := hx.recvBody
  obtain ⟨db', hrecv, hkeeps⟩ := llRecv_spec h x.payload rest rs hsplit hpos hcalls
  have hsize := payloadSize_header magic t (show x.payload.length ≤ MAX_JUMBO_TCP_PAYLOAD by omega)
  unfold recvMessage
  rw [hsize, hrecv, Option.map_some]
  by_cases hsmall : x.payload.length ≤ MAX_TCP_PAYLOAD
  · rw [if_pos hsmall]
    refine ⟨db', _, rfl, ?_, hkeeps⟩
    refine ⟨rfl, fun _ => ⟨?_, ?_, ?_, rfl, rfl⟩, fun hlt => ?_, fun i hi => ?_⟩
    · simp [take_overwrite]
    · simp
    · simp [header]
    · omega
    · simp [RecvPayloadData.cleared, hi]
  · rw [if_neg hsmall]
    refine ⟨db', _, rfl, ?_, hkeeps⟩
    refine ⟨rfl, fun hle => ?_, fun _ => ⟨take_overwrite .., rfl, rfl, rfl, rfl⟩, fun i _ => ⟨rfl, rfl⟩⟩
    omega

/-- The address a receive reports. -/
def HandleInfo.peerAddr (info : HandleInfo) : AddrInfo := ⟨info.connInfo.dPort, info.connInfo.dIpv4Addr⟩

/-- **A receive** at the start of a frame takes the frame and delivers its payload. -/
theorem recv_spec (h : Endpoint lib handle loc) (htcp : loc.isTcp) {x : Transfer} (hx : x.Valid)
    {t : UInt8} {magic : UInt32} (ha : Accepts (lib.db.info loc) t magic) (rest : List UInt8)
    (rs : List IoResult) :
    ∃ db' data', commLibTcpRecvBlocking lib handle x.addresserSt x.payloadData 1
        (frame magic t x.payload ++ rest) (x.recvs ++ rs) =
        some ⟨0, { lib with db := db' }, (lib.db.info loc).peerAddr, data', rest, rs⟩ ∧
      Delivered x.payloadData data' t x.payload ∧ Endpoint { lib with db := db' } handle loc ∧
      Accepts (db'.info loc) t magic := by
  have hfits := hx.fits
  obtain ⟨hsplit, hcalls, hpos⟩ := hx.recvHeader
  obtain ⟨db₁, h1, hk1⟩ := llRecv_spec h (header magic t x.payload.length).bytes
    (x.payload ++ rest) (x.recvBody.map .bytes ++ rs) hsplit hpos hcalls
  obtain ⟨info, hval, hhandle, hacc⟩ := validate_spec (hk1.same.accepts ha) hx.nonempty (by omega)
  have hend := hk1.endpoint.setInfo hhandle
  obtain ⟨db₂, data', h2, hdata, hk2⟩ :=
    recvMessage_spec hend hx magic t (lib.db.info loc).peerAddr rest rs
  refine ⟨db₂, data', ?_, hdata, hk2.endpoint, hk2.same.accepts ?_⟩
  · have htype : ¬(loc.dbType ≠ .tcpClientHandle ∧ loc.dbType ≠ .tcpServerHandle) := by
      cases loc <;> simp_all [InfoLoc.isTcp, InfoLoc.dbType]
    unfold commLibTcpRecvBlocking
    rw [if_neg (by simp [h.ready]), h.get_any]
    simp only [frame, Transfer.recvs, List.append_assoc, if_neg htype]
    rw [bytes_length] at h1
    rw [if_neg (by decide), if_neg (by decide), h1, Option.bind_some]
    simp only [ne_eq, not_true_eq_false, if_false, Nat.lt_irrefl, ofBytes_bytes, hval]
    exact h2
  · rw [info_setInfo, if_pos rfl]
    exact hacc

end Message

/-! ## Any number of messages -/

/-- Successive sends: their results and the bytes handed to the connection. -/
def sendAll (handle : Handle) : CommLib → List (List UInt8) → List IoResult →
    Option (List Int × List UInt8)
  | _, [], _ => some ([], [])
  | lib, payload :: ps, results =>
    (commLibTcpSendBlocking lib handle payload results).bind fun r =>
      (sendAll handle r.lib ps r.results).map fun rest => (r.err :: rest.1, r.sent ++ rest.2)

/-- Successive receives of one message, each into its own buffers: what they leave, and the stream
that is left. -/
def recvAll (handle : Handle) : CommLib → List (AddrInfo × RecvPayloadData) → List UInt8 →
    List IoResult → Option (List RecvResult × List UInt8)
  | _, [], stream, _ => some ([], stream)
  | lib, (addresserSt, payloadData) :: bs, stream, results =>
    (commLibTcpRecvBlocking lib handle addresserSt payloadData 1 stream results).bind fun r =>
      (recvAll handle r.lib bs r.stream r.results).map fun rest => (r :: rest.1, rest.2)

/-- The sends put the frames on the connection one after the other. -/
theorem sendAll_spec {handle : Handle} {loc : InfoLoc} {t : UInt8} {magic : UInt32} :
    ∀ {lib : CommLib} (xs : List Transfer), Endpoint lib handle loc →
    (lib.db.info loc).connInfo.msgType = t.toUInt16 →
    (lib.db.info loc).socektInfo.localMagic = magic → (∀ x ∈ xs, x.Valid) →
    sendAll handle lib (xs.map Transfer.payload) (xs.flatMap Transfer.sends) =
      some (xs.map fun _ => 0, xs.flatMap fun x => frame magic t x.payload)
  | _, [], _, _, _, _ => rfl
  | lib, x :: xs, h, ht, hm, hxs => by
    obtain ⟨db', hsend, hkeeps⟩ :=
      send_spec h (hxs x (List.mem_cons_self ..)) ht (xs.flatMap Transfer.sends)
    have ih := sendAll_spec xs hkeeps.endpoint (by rw [hkeeps.same.connInfo, ht])
      (by rw [hkeeps.same.localMagic, hm]) fun y hy => hxs y (List.mem_cons_of_mem x hy)
    rw [hm] at hsend
    rw [List.map_cons, List.flatMap_cons, sendAll, hsend, Option.bind_some, ih]
    rfl

/-- The receives take the frames one after the other: each starts at a header. -/
theorem recvAll_spec {handle : Handle} {loc : InfoLoc} {t : UInt8} {magic : UInt32}
    (htcp : loc.isTcp) (rest : List UInt8) : ∀ {lib : CommLib} (xs : List Transfer),
    Endpoint lib handle loc → Accepts (lib.db.info loc) t magic → (∀ x ∈ xs, x.Valid) →
    ∃ received, recvAll handle lib (xs.map fun x => (x.addresserSt, x.payloadData))
        ((xs.flatMap fun x => frame magic t x.payload) ++ rest) (xs.flatMap Transfer.recvs) =
        some (received, rest) ∧
      List.Forall₂ (fun x r => r.err = 0 ∧ Delivered x.payloadData r.payloadData t x.payload) xs received
  | _, [], _, _, _ => ⟨[], rfl, .nil⟩
  | lib, x :: xs, h, ha, hxs => by
    obtain ⟨db', data', hrecv, hdata, hend, hacc⟩ := recv_spec h htcp (hxs x (List.mem_cons_self ..)) ha
      ((xs.flatMap fun x => frame magic t x.payload) ++ rest) (xs.flatMap Transfer.recvs)
    obtain ⟨received, hall, hmatch⟩ :=
      recvAll_spec htcp rest xs hend hacc fun y hy => hxs y (List.mem_cons_of_mem x hy)
    rw [List.map_cons, List.flatMap_cons, List.flatMap_cons, List.append_assoc, recvAll, hrecv,
      Option.bind_some, hall]
    exact ⟨_, rfl, .cons ⟨rfl, hdata⟩ hmatch⟩

/-- **Framing round trip.**  Messages sent on one end of a connection are received on the other, for
every split of the stream: all calls return 0, the receives deliver the payloads in their order, each
in the buffer for its size, and what follows the messages on the stream is left on it. -/
theorem framing_round_trip {sender receiver : CommLib} {handle peer : Handle} {loc peerLoc : InfoLoc}
    {t : UInt8} (hsender : Endpoint sender handle loc) (hreceiver : Endpoint receiver peer peerLoc)
    (htcp : peerLoc.isTcp) (htype : (sender.db.info loc).connInfo.msgType = t.toUInt16)
    (haccepts : Accepts (receiver.db.info peerLoc) t (sender.db.info loc).socektInfo.localMagic)
    (xs : List Transfer) (hxs : ∀ x ∈ xs, x.Valid) (rest : List UInt8) :
    ∃ bytes received,
      sendAll handle sender (xs.map Transfer.payload) (xs.flatMap Transfer.sends) =
        some (xs.map fun _ => 0, bytes) ∧
      recvAll peer receiver (xs.map fun x => (x.addresserSt, x.payloadData)) (bytes ++ rest)
        (xs.flatMap Transfer.recvs) = some (received, rest) ∧
      List.Forall₂ (fun x r => r.err = 0 ∧ Delivered x.payloadData r.payloadData t x.payload) xs
        received := by
  have hsent := sendAll_spec xs hsender htype rfl hxs
  obtain ⟨received, hrecv, hmatch⟩ := recvAll_spec htcp rest xs hreceiver haccepts hxs
  exact ⟨_, received, hsent, hrecv, hmatch⟩

/-- A library with one connection to a server, on handle 7. -/
def sampleClient : CommLib :=
  ⟨true, (libCommuDbTcpClientHandleInfoSet (libCommuDbInit .zero) 7 3 ⟨80, 1⟩ ⟨81, 2⟩ 11).2⟩

/-- A library with one client, on handle 4. -/
def sampleServer : CommLib :=
  let db := (libCommuDbTcpServerHandleInfoSet (libCommuDbInit .zero) ServerId.first 4 3 ⟨81, 2⟩ ⟨80, 1⟩ 12).2
  ⟨true, (libCummoDbServerStatusClientSet db 4 ⟨80, 1⟩ 2 81 ServerId.first).2⟩

/-- Buffers that hold other bytes. -/
def sampleBuffers : RecvPayloadData :=
  ⟨5, fun _ => 9, fun _ => List.replicate MAX_TCP_PAYLOAD 9, fun _ => 9,
    List.replicate MAX_JUMBO_TCP_PAYLOAD 9, 9, 9⟩

/-- A short message, its header split, and a jumbo message sent in two parts. -/
def sampleTransfers : List Transfer :=
  [⟨[1, 2, 3], [4, 6], [3], [1, 9], [2, 1], ⟨0, 0⟩, sampleBuffers⟩,
    ⟨List.replicate 5000 1, [10], [4000, 0, 1000], [10], [100, 4900], ⟨0, 0⟩, sampleBuffers⟩]

theorem sampleTransfers_valid : ∀ x ∈ sampleTransfers, x.Valid := by
  intro x hx
  rcases List.mem_pair.mp hx with rfl | rfl
  · exact ⟨by decide, by decide, by decide, by decide, by decide, by decide⟩
  · refine ⟨?_, ?_, ?_, ?_, ?_, ?_⟩ <;> simp only [List.length_replicate] <;> decide

/-- Two messages, of both size classes. -/
theorem framing_round_trip_sample : ∃ bytes received,
    sendAll 7 sampleClient (sampleTransfers.map Transfer.payload)
      (sampleTransfers.flatMap Transfer.sends) = some ([0, 0], bytes) ∧
    recvAll 4 sampleServer (sampleTransfers.map fun x => (x.addresserSt, x.payloadData)) (bytes ++ [])
      (sampleTransfers.flatMap Transfer.recvs) = some (received, []) ∧
    List.Forall₂ (fun x r => r.err = 0 ∧ Delivered x.payloadData r.payloadData 3 x.payload)
      sampleTransfers received := by
  have hclient : Endpoint sampleClient 7 (.client 0) := ⟨rfl, by decide +kernel⟩
  have hserver : Endpoint sampleServer 4 (.server 0 0) := ⟨rfl, by decide +kernel⟩
  exact framing_round_trip hclient hserver rfl (by decide +kernel)
    ⟨by decide +kernel, .inl (by decide +kernel)⟩ sampleTransfers sampleTransfers_valid []

end MlnxLib.Commu
