import MlnxLib.Lib.Simulation
import MlnxLib.Commu.Accounting
import MlnxLib.Commu.Framing
import MlnxLib.Commu.Servers

/-!
# Sessions between any hosts

A network of hosts that each run the library: every TCP session joins two ends, on the same host or on two, and a host
may have many sessions.  Sends and receives on all of them are interleaved in any way, and the kernel splits what it
moves in any way.

* `Network` — the ends of the sessions: host, handle, place in the database, and the other end.
* `NetState` — the library of each host, and the bytes on their way to each end.
* `NetCall`, `netStep` — a send or a receive at an end.
* `Log` — the messages sent to each end, and how many it received.
* `InStep` — the bytes on their way to an end are the frames of the messages that it has not received, and the byte
  counters are those of the messages sent and received.

Principal result: `sessions_deliver` — in every run no message is lost, made up, doubled, reordered or delivered to
another session.
-/

set_option autoImplicit false

namespace MlnxLib.Commu

open Runs

/-! ## What a receive leaves as it was -/

/-- The settings of all records, but for the magic of the peer, are as they were. -/
def SameLocal (db db' : Db) : Prop :=
  ∀ loc, (db'.info loc).connInfo = (db.info loc).connInfo ∧
    (db'.info loc).socektInfo.localMagic = (db.info loc).socektInfo.localMagic

section

variable {db db' db'' : Db} {handle : Handle} {t : DbType}

theorem SameLocal.refl (db : Db) : SameLocal db db := fun _ => ⟨rfl, rfl⟩

theorem SameLocal.trans (h : SameLocal db db') (h' : SameLocal db' db'') : SameLocal db db'' := fun loc =>
  ⟨(h' loc).1.trans (h loc).1, (h' loc).2.trans (h loc).2⟩

theorem sameLocal_setInfo {loc : InfoLoc} {x : HandleInfo} (hconn : x.connInfo = (db.info loc).connInfo)
    (hmagic : x.socektInfo.localMagic = (db.info loc).socektInfo.localMagic) : SameLocal db (db.setInfo loc x) := by
  intro loc'
  rw [info_setInfo]
  split
  · rename_i heq
    rw [heq]
    exact ⟨hconn, hmagic⟩
  · exact ⟨rfl, rfl⟩

theorem rxUpdate_sameLocal (n : UInt64) : SameLocal db (handleTotalRxUpdate db handle t n).2 := by
  unfold handleTotalRxUpdate
  split
  · exact .refl db
  · exact sameLocal_setInfo rfl rfl

theorem llRecv_sameLocal {bufferLen : Nat} {stream : List UInt8} {results : List IoResult} {r : LlRecv}
    (hr : commLibTcpLlRecvBlocking db handle bufferLen stream results = some (r, db')) : SameLocal db db' := by
  obtain ⟨r', -, heq⟩ := Option.map_eq_some_iff.mp hr
  split at heq
  · cases heq
    exact rxUpdate_sameLocal _
  · cases heq
    exact .refl db

theorem validate_same (m : MsgMetadata) (size : Nat) (info : HandleInfo) :
    (validateMetadataInfo m size info).2.connInfo = info.connInfo ∧
      (validateMetadataInfo m size info).2.socektInfo.localMagic = info.socektInfo.localMagic := by
  unfold validateMetadataInfo
  split
  · exact ⟨rfl, rfl⟩
  split
  · exact ⟨rfl, rfl⟩
  split
  · rw [validateMsgType_snd]
    exact ⟨rfl, rfl⟩
  split
  · exact ⟨rfl, rfl⟩
  · rw [validateMsgType_snd]
    exact ⟨rfl, rfl⟩

theorem validate_sameLocal (m : MsgMetadata) (size : Nat) (db : Db) (loc : InfoLoc) :
    SameLocal db (db.setInfo loc (validateMetadataInfo m size (db.info loc)).2) :=
  sameLocal_setInfo (validate_same m size _).1 (validate_same m size _).2

/-- **`comm_lib_tcp_recv_blocking`** changes no record but for its counters and the magic of the peer. -/
theorem tcpRecv_sameLocal {lib : CommLib} {addresserSt : AddrInfo} {data : RecvPayloadData} {maxMsgs : Nat}
    {stream : List UInt8} {results : List IoResult} {r : RecvResult}
    (hr : commLibTcpRecvBlocking lib handle addresserSt data maxMsgs stream results = some r) :
    SameLocal lib.db r.lib.db := by
  unfold commLibTcpRecvBlocking at hr
  split at hr
  · exact Option.some.inj hr ▸ .refl lib.db
  dsimp only at hr
  split at hr
  · exact Option.some.inj hr ▸ .refl lib.db
  split at hr
  · exact Option.some.inj hr ▸ .refl lib.db
  split at hr
  · exact Option.some.inj hr ▸ .refl lib.db
  split at hr
  · exact Option.some.inj hr ▸ .refl lib.db
  obtain ⟨h, hh, hr⟩ := Option.bind_eq_some_iff.mp hr
  have hhead := llRecv_sameLocal hh
  split at hr
  · exact Option.some.inj hr ▸ hhead
  split at hr
  · exact Option.some.inj hr ▸ hhead
  split at hr
  · cases Option.some.inj hr
    exact hhead.trans (validate_sameLocal _ _ _ _)
  · obtain ⟨p, hp, -⟩ := recvMessage_ll hr
    exact (hhead.trans (validate_sameLocal _ _ _ _)).trans (llRecv_sameLocal hp)

/-- The searches see the handles of the records and the states of the servers only. -/
theorem find_congr (hhandles : ∀ loc, (db'.info loc).handle = (db.info loc).handle)
    (hstatus : db'.serverStatusSt = db.serverStatusSt) (handle : Handle) : db'.find handle = db.find handle := by
  have hclient : db'.clientHandles = db.clientHandles := funext fun i => hhandles (.client i)
  have hserver : db'.serverHandles = db.serverHandles := funext fun s => funext fun i => hhandles (.server s i)
  have hudp : db'.udpHandles = db.udpHandles := funext fun i => hhandles (.udp i)
  unfold Db.find searchClient searchServers searchUdp
  rw [hclient, hudp]
  unfold searchServer
  rw [hserver, hstatus]

theorem Counted.handlesOnce {loc : InfoLoc} {sent received : Nat} (h : Counted db db' loc sent received)
    (honce : HandlesOnce db) : HandlesOnce db' := by
  intro loc₁ loc₂ hvalid heq
  rw [h.handles] at hvalid heq
  rw [h.handles] at heq
  exact honce hvalid heq

end

/-! ## The network -/

/-- The ends `ε` of TCP sessions on the hosts `η`. -/
structure Network (η ε : Type) where
  host : ε → η
  handle : ε → Handle
  loc : ε → InfoLoc
  peer : ε → ε
  msgType : ε → UInt8
  tcp : ∀ e, (loc e).isTcp
  peer_peer : ∀ e, peer (peer e) = e
  peer_type : ∀ e, msgType (peer e) = msgType e
  apart : ∀ e e', host e = host e' → loc e = loc e' → e = e'

/-- The library of each host, and the bytes on their way to each end. -/
structure NetState (η ε : Type) where
  lib : η → CommLib
  wire : ε → List UInt8

/-- A message that is sent, and how the kernel splits its header and its bytes. -/
structure Sending where
  payload : List UInt8
  header : List Nat
  body : List Nat

/-- A receive into these buffers, and how the kernel splits the header and the bytes of the message. -/
structure Receiving where
  header : List Nat
  body : List Nat
  addresserSt : AddrInfo
  payloadData : RecvPayloadData

/-- The results of the calls of the kernel. -/
def kernelResults (header body : List Nat) : List IoResult := header.map .bytes ++ body.map .bytes

/-- A message that may be sent, moved by calls without errors, and not more of them than the loops make. -/
structure Sending.Valid (x : Sending) : Prop where
  nonempty : 0 < x.payload.length
  fits : x.payload.length ≤ MAX_JUMBO_TCP_PAYLOAD - METADATA_SIZE
  header : Splits METADATA_SIZE x.header ∧ x.header.length ≤ SEND_REPEAT_NUM
  body : Splits x.payload.length x.body ∧ x.body.length ≤ SEND_REPEAT_NUM

/-- The kernel moves a message of `len` bytes, without errors or the end of the stream. -/
structure Receiving.Valid (x : Receiving) (len : Nat) : Prop where
  header : Splits METADATA_SIZE x.header ∧ x.header.length ≤ RECV_REPEAT_NUM ∧ ∀ p ∈ x.header, 0 < p
  body : Splits len x.body ∧ x.body.length ≤ RECV_REPEAT_NUM ∧ ∀ p ∈ x.body, 0 < p

/-- A send or a receive at an end. -/
inductive NetCall (ε : Type) where
  | send (e : ε) (x : Sending)
  | recv (e : ε) (x : Receiving)

/-- What a call returned. -/
structure NetReply where
  err : Int
  payloadData : Option RecvPayloadData

/-- The messages sent to each end, and how many of them it received. -/
structure Log (ε : Type) where
  sent : ε → List (List UInt8)
  received : ε → Nat

section

variable {η ε : Type} [DecidableEq η] [DecidableEq ε]

/-- A call at an end: a send puts bytes on their way to the other end, a receive takes those that came. -/
def netStep (net : Network η ε) (s : NetState η ε) : NetCall ε → Option (NetReply × NetState η ε)
  | .send e x =>
    (commLibTcpSendBlocking (s.lib (net.host e)) (net.handle e) x.payload (kernelResults x.header x.body)).map fun r =>
      (⟨r.err, none⟩, ⟨Function.update s.lib (net.host e) r.lib,
        Function.update s.wire (net.peer e) (s.wire (net.peer e) ++ r.sent)⟩)
  | .recv e x =>
    (commLibTcpRecvBlocking (s.lib (net.host e)) (net.handle e) x.addresserSt x.payloadData 1 (s.wire e)
      (kernelResults x.header x.body)).map fun r =>
      (⟨r.err, some r.payloadData⟩, ⟨Function.update s.lib (net.host e) r.lib, Function.update s.wire e r.stream⟩)

/-- What a call adds to the log. -/
def Log.next (net : Network η ε) (log : Log ε) : NetCall ε → Log ε
  | .send e x => { log with sent := Function.update log.sent (net.peer e) (log.sent (net.peer e) ++ [x.payload]) }
  | .recv e _ => { log with received := Function.update log.received e (log.received e + 1) }

/-- What the callers and the kernel see to: a message fits, and a receive finds one that has been sent. -/
def NetMeets (log : Log ε) : NetCall ε → Prop
  | .send _ x => x.Valid
  | .recv e x => ∃ payload, (log.sent e)[log.received e]? = some payload ∧ x.Valid payload.length

/-- No message has been sent. -/
def Log.empty : Log ε := ⟨fun _ => [], fun _ => 0⟩

/-- The bytes of messages with their headers. -/
def frameBytes (payloads : List (List UInt8)) : Nat := (payloads.map fun p => METADATA_SIZE + p.length).sum

/-- The magic of an end. -/
def NetState.magic (net : Network η ε) (s : NetState η ε) (e : ε) : UInt32 :=
  ((s.lib (net.host e)).db.info (net.loc e)).socektInfo.localMagic

/-- The counters of an end. -/
def NetState.counters (net : Network η ε) (s : NetState η ε) (e : ε) : SocketConnectionInfo :=
  ((s.lib (net.host e)).db.info (net.loc e)).socektInfo

/-- An end of a session that is set up: its host finds the handle, it takes messages of the type of the session from
its peer, and no handle is stored twice. -/
structure Established (net : Network η ε) (s : NetState η ε) (e : ε) : Prop where
  endpoint : Endpoint (s.lib (net.host e)) (net.handle e) (net.loc e)
  once : HandlesOnce (s.lib (net.host e)).db
  live : Live (s.lib (net.host e)).db (net.handle e) (net.loc e)
  accepts : Accepts ((s.lib (net.host e)).db.info (net.loc e)) (net.msgType e) (s.magic net (net.peer e))

/-- **The network is in step with the log**, since it was in the state `s₀`: each end has received a prefix of the
messages sent to it, the frames of the other ones are on their way, and the counters are those of the messages. -/
structure InStep (net : Network η ε) (s₀ s : NetState η ε) (log : Log ε) : Prop where
  prefix_le : ∀ e, log.received e ≤ (log.sent e).length
  wire : ∀ e, s.wire e =
    ((log.sent e).drop (log.received e)).flatMap (frame (s₀.magic net (net.peer e)) (net.msgType e))
  tx : ∀ e, (s.counters net e).totalSumBytesTx =
    (s₀.counters net e).totalSumBytesTx + UInt64.ofNat (frameBytes (log.sent (net.peer e)))
  rx : ∀ e, (s.counters net e).totalSumBytesRx =
    (s₀.counters net e).totalSumBytesRx + UInt64.ofNat (frameBytes ((log.sent e).take (log.received e)))

/-- What a call returns: 0, and a receive puts the next message for its end into its buffers. -/
def Returns (net : Network η ε) (log : Log ε) : NetCall ε → NetReply → Prop
  | .send _ _, r => r.err = 0
  | .recv e x, r => r.err = 0 ∧ ∃ payload data, (log.sent e)[log.received e]? = some payload ∧
      r.payloadData = some data ∧ Delivered x.payloadData data (net.msgType e) payload

/-- **The calls of a run deliver**: each returns what it should, and the network is in step with the log before and
after it. -/
def Delivers (net : Network η ε) (s₀ s : NetState η ε) (log : Log ε) :
    List (NetCall ε) → List (NetReply × NetState η ε) → Prop :=
  Follows (fun log s => InStep net s₀ s log)
    (fun log _ call r _ log' => Returns net log call r ∧ log' = log.next net call) log s

/-! ## Bytes -/

theorem bytesMoved_append (as bs : List IoResult) : bytesMoved (as ++ bs) = bytesMoved as + bytesMoved bs := by
  unfold bytesMoved
  rw [List.map_append, List.sum_append]

theorem bytesMoved_splits : ∀ {n : Nat} {ps : List Nat}, Splits n ps → bytesMoved (ps.map .bytes) = n
  | n, [], h => h.symm
  | n, p :: ps, ⟨_, hp, hsplit⟩ => by
    have ih := bytesMoved_splits hsplit
    rw [List.map_cons, bytesMoved_cons, ih]
    exact Nat.add_sub_cancel' hp

theorem bytesMoved_kernelResults {header body : List Nat} {len : Nat} (hheader : Splits METADATA_SIZE header)
    (hbody : Splits len body) : bytesMoved (kernelResults header body) = METADATA_SIZE + len := by
  rw [kernelResults, bytesMoved_append, bytesMoved_splits hheader, bytesMoved_splits hbody]

theorem CallAccount.bytes {db db' : Db} {loc : InfoLoc} {header body : List Nat} {hs bs : List IoResult}
    {len sent received : Nat}
    (h : CallAccount db db' loc (kernelResults header body) [] hs bs sent received)
    (hheader : Splits METADATA_SIZE header) (hbody : Splits len body) :
    bytesMoved hs + bytesMoved bs = METADATA_SIZE + len := by
  rw [← bytesMoved_append, ← bytesMoved_kernelResults hheader hbody, h.split, List.append_nil]

theorem frameBytes_concat (payloads : List (List UInt8)) (p : List UInt8) :
    frameBytes (payloads ++ [p]) = frameBytes payloads + (METADATA_SIZE + p.length) := by
  unfold frameBytes
  rw [List.map_append, List.sum_append, List.map_singleton, List.sum_singleton]

/-- A split of a message into its header and its body, each in one piece. -/
theorem splits_whole {n : Nat} (hn : 0 < n) : Splits n [n] := ⟨hn, le_refl n, Nat.sub_self n⟩

/-! ## The steps -/

/-- The network is set up, the magics are those of the start, and all messages fit. -/
structure NetInv (net : Network η ε) (s₀ s : NetState η ε) (log : Log ε) : Prop where
  established : ∀ e, Established net s e
  magic : ∀ e, s.magic net e = s₀.magic net e
  fits : ∀ e, ∀ p ∈ log.sent e, 0 < p.length ∧ p.length ≤ MAX_JUMBO_TCP_PAYLOAD - METADATA_SIZE
  inStep : InStep net s₀ s log

variable {net : Network η ε} {s₀ s : NetState η ε} {log : Log ε} {e : ε} {db' : Db} {sent received : Nat}

/-- The state after a call at an end. -/
def NetState.after (net : Network η ε) (s : NetState η ε) (e : ε) (db : Db) (wire : ε → List UInt8) : NetState η ε :=
  ⟨Function.update s.lib (net.host e) { s.lib (net.host e) with db := db }, wire⟩

omit [DecidableEq ε] in
/-- **The other ends** do not see a call. -/
theorem info_after_of_ne (hcounted : Counted (s.lib (net.host e)).db db' (net.loc e) sent received)
    (wire : ε → List UInt8) {e' : ε} (hne : e' ≠ e) :
    ((s.after net e db' wire).lib (net.host e')).db.info (net.loc e') =
      (s.lib (net.host e')).db.info (net.loc e') := by
  unfold NetState.after
  by_cases hhost : net.host e' = net.host e
  · have hloc : net.loc e' ≠ net.loc e := fun hl => hne (net.apart e' e hhost hl)
    dsimp only
    rw [hhost, Function.update_self]
    exact hcounted.others _ hloc
  · dsimp only
    rw [Function.update_of_ne hhost]

omit [DecidableEq ε] in
theorem info_after_self (wire : ε → List UInt8) :
    ((s.after net e db' wire).lib (net.host e)).db.info (net.loc e) = db'.info (net.loc e) := by
  unfold NetState.after
  dsimp only
  rw [Function.update_self]

theorem magic_after (hcounted : Counted (s.lib (net.host e)).db db' (net.loc e) sent received)
    (hlocal : SameLocal (s.lib (net.host e)).db db') (wire : ε → List UInt8) (e' : ε) :
    (s.after net e db' wire).magic net e' = s.magic net e' := by
  by_cases he : e' = e
  · rw [he]
    unfold NetState.magic
    rw [info_after_self]
    exact (hlocal _).2
  · unfold NetState.magic
    rw [info_after_of_ne hcounted wire he]

omit [DecidableEq ε] in
theorem counters_after_of_ne (hcounted : Counted (s.lib (net.host e)).db db' (net.loc e) sent received)
    (wire : ε → List UInt8) {e' : ε} (hne : e' ≠ e) :
    (s.after net e db' wire).counters net e' = s.counters net e' := by
  unfold NetState.counters
  rw [info_after_of_ne hcounted wire hne]

/-- **All ends are set up** after a call. -/
theorem established_after (h : ∀ e, Established net s e)
    (hcounted : Counted (s.lib (net.host e)).db db' (net.loc e) sent received)
    (hlocal : SameLocal (s.lib (net.host e)).db db')
    (haccepts : Accepts (db'.info (net.loc e)) (net.msgType e) (s.magic net (net.peer e))) (wire : ε → List UInt8)
    (e' : ε) : Established net (s.after net e db' wire) e' := by
  have hmagic := magic_after hcounted hlocal wire (net.peer e')
  obtain ⟨hend, honce, hlive, hacc⟩ := h e'
  have haccepts' : Accepts (((s.after net e db' wire).lib (net.host e')).db.info (net.loc e')) (net.msgType e')
      ((s.after net e db' wire).magic net (net.peer e')) := by
    rw [hmagic]
    by_cases he : e' = e
    · rw [he, info_after_self]
      exact haccepts
    · rw [info_after_of_ne hcounted wire he]
      exact hacc
  by_cases hhost : net.host e' = net.host e
  · have hlib : (s.after net e db' wire).lib (net.host e') = { s.lib (net.host e) with db := db' } := by
      unfold NetState.after
      rw [hhost]
      exact Function.update_self ..
    rw [hhost] at hend honce hlive
    refine ⟨?_, ?_, ?_, haccepts'⟩
    · rw [hlib]
      exact ⟨hend.ready, (find_congr hcounted.handles hcounted.status _).trans hend.found⟩
    · rw [hlib]
      exact hcounted.handlesOnce honce
    · rw [hlib]
      exact ⟨hlive.1, (hcounted.handles _).trans hlive.2⟩
  · have hlib : (s.after net e db' wire).lib (net.host e') = s.lib (net.host e') := Function.update_of_ne hhost ..
    refine ⟨?_, ?_, ?_, haccepts'⟩
    · rw [hlib]
      exact hend
    · rw [hlib]
      exact honce
    · rw [hlib]
      exact hlive

/-- **A send** puts the frame of its message on the way to the other end. -/
theorem NetInv.send (h : NetInv net s₀ s log) {x : Sending} (hx : x.Valid) :
    ∃ r s', netStep net s (.send e x) = some (r, s') ∧ r.err = 0 ∧ NetInv net s₀ s' (log.next net (.send e x)) := by
  obtain ⟨hend, honce, hlive, hacc⟩ := h.established e
  have hhead : Splits METADATA_SIZE [METADATA_SIZE] ∧ [METADATA_SIZE].length ≤ RECV_REPEAT_NUM ∧
      ∀ p ∈ [METADATA_SIZE], 0 < p := by decide
  have hvalid : (Transfer.mk x.payload x.header x.body [METADATA_SIZE] [x.payload.length] ⟨0, 0⟩
      ⟨0, fun _ => 0, fun _ => [], fun _ => 0, [], 0, 0⟩).Valid :=
    ⟨hx.nonempty, hx.fits, hx.header, hx.body, hhead, splits_whole hx.nonempty, by simp [RECV_REPEAT_NUM],
      by simpa using hx.nonempty⟩
  obtain ⟨db', hsend, hkeeps⟩ := send_spec hend hvalid hacc.msgType []
  rw [List.append_nil] at hsend
  obtain ⟨hs, bs, haccount⟩ := tcpSend_account honce hlive hsend
  have hbytes := haccount.bytes hx.header.1 hx.body.1
  have hcounted := haccount.counted
  rw [hbytes] at hcounted
  have hlocal : SameLocal (s.lib (net.host e)).db db' := by
    intro loc
    by_cases hloc : loc = net.loc e
    · rw [hloc]
      exact ⟨hkeeps.same.connInfo, hkeeps.same.localMagic⟩
    · rw [hcounted.others loc hloc]
      exact ⟨rfl, rfl⟩
  have hpeer : ∀ e', net.peer e' = net.peer e ↔ e' = e := by
    intro e'
    constructor
    · intro he
      rw [← net.peer_peer e', he, net.peer_peer]
    · rintro rfl
      rfl
  refine ⟨⟨0, none⟩, s.after net e db' (Function.update s.wire (net.peer e) (s.wire (net.peer e) ++
    frame (s.magic net e) (net.msgType e) x.payload)), ?_, rfl, ?_⟩
  · have hcall : commLibTcpSendBlocking (s.lib (net.host e)) (net.handle e) x.payload
        (kernelResults x.header x.body) = _ := hsend
    rw [netStep, hcall, Option.map_some]
    rfl
  refine ⟨established_after h.established hcounted hlocal (hkeeps.same.accepts hacc) _, fun e' => ?_,
    fun e' p hp => ?_, ?_⟩
  · rw [magic_after hcounted hlocal, h.magic]
  · dsimp only [Log.next] at hp
    rw [Function.update_apply] at hp
    split at hp
    · rcases List.mem_append.mp hp with hp | hp
      · exact h.fits _ p hp
      · exact List.mem_singleton.mp hp ▸ ⟨hx.nonempty, hx.fits⟩
    · exact h.fits e' p hp
  · refine ⟨fun e' => ?_, fun e' => ?_, fun e' => ?_, fun e' => ?_⟩
    · have hle := h.inStep.prefix_le e'
      dsimp only [Log.next]
      rw [Function.update_apply]
      split
      · rename_i he
        rw [← he, List.length_append]
        omega
      · exact hle
    · dsimp only [Log.next, NetState.after]
      rw [Function.update_apply, Function.update_apply]
      split
      · rename_i he
        have hle := h.inStep.prefix_le e'
        rw [he] at hle ⊢
        rw [List.drop_append_of_le_length hle, List.flatMap_append, ← h.inStep.wire, List.flatMap_singleton,
          net.peer_peer, net.peer_type, h.magic]
      · exact h.inStep.wire e'
    · dsimp only [Log.next]
      rw [Function.update_apply]
      by_cases he : e' = e
      · rw [he, if_pos rfl, frameBytes_concat, UInt64.ofNat_add, ← UInt64.add_assoc, ← h.inStep.tx e]
        unfold NetState.counters
        rw [info_after_self]
        exact hcounted.tx
      · rw [if_neg (mt (hpeer e').mp he), counters_after_of_ne hcounted _ he]
        exact h.inStep.tx e'
    · have hle := h.inStep.prefix_le e'
      have hrx : ((s.after net e db' (Function.update s.wire (net.peer e) (s.wire (net.peer e) ++
          frame (s.magic net e) (net.msgType e) x.payload))).counters net e').totalSumBytesRx =
          (s.counters net e').totalSumBytesRx := by
        by_cases he : e' = e
        · rw [he]
          unfold NetState.counters
          rw [info_after_self, hcounted.rx]
          exact UInt64.add_zero _
        · rw [counters_after_of_ne hcounted _ he]
      rw [hrx, h.inStep.rx]
      dsimp only [Log.next]
      rw [Function.update_apply]
      split
      · rename_i he
        rw [he] at hle ⊢
        rw [List.take_append_of_le_length hle]
      · rfl

/-- **A receive** takes the next frame for its end, and delivers its message. -/
theorem NetInv.recv (h : NetInv net s₀ s log) {x : Receiving} {payload : List UInt8}
    (hnext : (log.sent e)[log.received e]? = some payload) (hx : x.Valid payload.length) :
    ∃ r s' data, netStep net s (.recv e x) = some (r, s') ∧ r.err = 0 ∧ r.payloadData = some data ∧
      Delivered x.payloadData data (net.msgType e) payload ∧ NetInv net s₀ s' (log.next net (.recv e x)) := by
  obtain ⟨hend, honce, hlive, hacc⟩ := h.established e
  obtain ⟨hk, hpayload⟩ := List.getElem?_eq_some_iff.mp hnext
  obtain ⟨hpos, hfits⟩ := h.fits e payload (List.mem_of_getElem? hnext)
  have hdrop : (log.sent e).drop (log.received e) = payload :: (log.sent e).drop (log.received e + 1) := by
    rw [List.drop_eq_getElem_cons hk, hpayload]
  have htake : (log.sent e).take (log.received e + 1) = (log.sent e).take (log.received e) ++ [payload] := by
    rw [← List.take_concat_get' _ _ hk, hpayload]
  have hvalid : (Transfer.mk payload [METADATA_SIZE] [payload.length] x.header x.body x.addresserSt
      x.payloadData).Valid := by
    have hhead : Splits METADATA_SIZE [METADATA_SIZE] ∧ [METADATA_SIZE].length ≤ SEND_REPEAT_NUM := by decide
    exact ⟨hpos, hfits, hhead, ⟨splits_whole hpos, by simp [SEND_REPEAT_NUM]⟩, hx.header, hx.body⟩
  have hwire : s.wire e = frame (s.magic net (net.peer e)) (net.msgType e) payload ++
      ((log.sent e).drop (log.received e + 1)).flatMap (frame (s₀.magic net (net.peer e)) (net.msgType e)) := by
    rw [h.inStep.wire, hdrop, List.flatMap_cons, h.magic]
  obtain ⟨db', data, hrecv, hdata, -, hacc'⟩ := recv_spec hend (net.tcp e) hvalid hacc
    (((log.sent e).drop (log.received e + 1)).flatMap (frame (s₀.magic net (net.peer e)) (net.msgType e))) []
  rw [List.append_nil, ← hwire] at hrecv
  obtain ⟨hs, bs, haccount⟩ := tcpRecv_account honce hlive hrecv
  have hcounted := haccount.counted
  rw [haccount.bytes hx.header.1 hx.body.1] at hcounted
  have hlocal : SameLocal (s.lib (net.host e)).db db' := tcpRecv_sameLocal hrecv
  refine ⟨⟨0, some data⟩, s.after net e db' (Function.update s.wire e (((log.sent e).drop
    (log.received e + 1)).flatMap (frame (s₀.magic net (net.peer e)) (net.msgType e)))), data, ?_, rfl, rfl, hdata, ?_⟩
  · have hcall : commLibTcpRecvBlocking (s.lib (net.host e)) (net.handle e) x.addresserSt x.payloadData 1 (s.wire e)
        (kernelResults x.header x.body) = _ := hrecv
    rw [netStep, hcall, Option.map_some]
    rfl
  refine ⟨established_after h.established hcounted hlocal hacc' _, fun e' => ?_, h.fits, ?_⟩
  · rw [magic_after hcounted hlocal, h.magic]
  · refine ⟨fun e' => ?_, fun e' => ?_, fun e' => ?_, fun e' => ?_⟩
    · dsimp only [Log.next]
      rw [Function.update_apply]
      split
      · rename_i he
        rw [he]
        exact hk
      · exact h.inStep.prefix_le e'
    · dsimp only [Log.next, NetState.after]
      rw [Function.update_apply, Function.update_apply]
      split
      · rename_i he
        rw [he]
      · exact h.inStep.wire e'
    · have htx : ((s.after net e db' (Function.update s.wire e (((log.sent e).drop
          (log.received e + 1)).flatMap (frame (s₀.magic net (net.peer e)) (net.msgType e))))).counters net
            e').totalSumBytesTx = (s.counters net e').totalSumBytesTx := by
        by_cases he : e' = e
        · rw [he]
          unfold NetState.counters
          rw [info_after_self, hcounted.tx]
          exact UInt64.add_zero _
        · rw [counters_after_of_ne hcounted _ he]
      rw [htx]
      exact h.inStep.tx e'
    · dsimp only [Log.next]
      rw [Function.update_apply]
      by_cases he : e' = e
      · rw [he, if_pos rfl, htake, frameBytes_concat, UInt64.ofNat_add, ← UInt64.add_assoc, ← h.inStep.rx e]
        unfold NetState.counters
        rw [info_after_self]
        exact hcounted.rx
      · rw [if_neg he, counters_after_of_ne hcounted _ he]
        exact h.inStep.rx e'

omit [DecidableEq η] [DecidableEq ε] in
/-- The invariant at the start. -/
theorem netInv_init (hestablished : ∀ e, Established net s e) (hwire : ∀ e, s.wire e = []) : NetInv net s s .empty := by
  refine ⟨hestablished, fun _ => rfl, fun _ _ hp => absurd hp List.not_mem_nil, ⟨fun _ => Nat.le_refl 0, hwire, ?_, ?_⟩⟩
  · exact fun e => (UInt64.add_zero _).symm
  · exact fun e => (UInt64.add_zero _).symm

/-- **A call** returns what it should, and keeps the invariant. -/
theorem NetInv.step (h : NetInv net s₀ s log) {call : NetCall ε} (hmeet : NetMeets log call) :
    ∃ r s', netStep net s call = some (r, s') ∧ Returns net log call r ∧ NetInv net s₀ s' (log.next net call) := by
  cases call with
  | send e x => exact h.send hmeet
  | recv e x =>
    obtain ⟨payload, hpayload, hx⟩ := hmeet
    obtain ⟨r, s', data, hstep, herr, hdata, hdelivered, hnext⟩ := h.recv hpayload hx
    exact ⟨r, s', hstep, ⟨herr, payload, data, hpayload, hdata, hdelivered⟩, hnext⟩

/-- **Sessions deliver.**  Once all sessions are set up, every interleaving of sends and receives on all hosts returns
0 at every call: each receive puts the next message sent to its end into its buffers, and after each call exactly the
frames of the messages that are not received are on their way, each to the end it was sent to, and the counters of
every end are the bytes of its messages. -/
theorem sessions_deliver (net : Network η ε) (s : NetState η ε) (hestablished : ∀ e, Established net s e)
    (hwire : ∀ e, s.wire e = []) (calls : List (NetCall ε))
    (hmeet : AllMeet (fun log call => some (log.next net call)) NetMeets .empty calls) :
    ∃ rs, trace (netStep net) s calls = some rs ∧ Delivers net s s .empty calls rs := by
  apply exists_follows (R := fun calls log s' => NetInv net s s' log ∧
    AllMeet (fun log call => some (log.next net call)) NetMeets log calls)
  · intro calls log s' h
    exact h.1.inStep
  · intro call calls log s' h
    obtain ⟨h, hmeet, hrest⟩ := h
    obtain ⟨r, s'', hstep, hreturns, hnext⟩ := h.step hmeet
    exact ⟨r, s'', _, hstep, ⟨hreturns, rfl⟩, hnext, hrest _ rfl⟩
  · exact ⟨netInv_init hestablished hwire, hmeet⟩

end

/-- The operations by which a client opened two sessions, and those by which their server accepted them. -/
def sampleOps : Bool → List DbOp
  | false => [.connect 7 3 ⟨80, 1⟩ ⟨81, 2⟩ 11, .connect 8 3 ⟨82, 1⟩ ⟨81, 2⟩ 13]
  | true => [.accept 4 ⟨ServerId.first, 3, ⟨81, 2⟩, ⟨80, 1⟩, 12, 2, 81⟩,
      .accept 5 ⟨ServerId.first, 3, ⟨81, 2⟩, ⟨82, 1⟩, 14, 2, 81⟩]

theorem one_lt_length : 1 < TCP_HANDLE_ARR_LENGTH := by decide

/-- The slot of a session. -/
def sampleSlot (session : Bool) : Slot := if session then ⟨1, one_lt_length⟩ else ServerId.first

/-- An end is a session and a side of it. -/
def sampleLoc (e : Bool × Bool) : InfoLoc :=
  if e.2 then .server ServerId.first (sampleSlot e.1) else .client (sampleSlot e.1)

def samplePeer (e : Bool × Bool) : Bool × Bool := (e.1, !e.2)

theorem sampleLoc_tcp (e : Bool × Bool) : (sampleLoc e).isTcp := by
  obtain ⟨session, side⟩ := e
  revert session side
  decide

theorem samplePeer_peer (e : Bool × Bool) : samplePeer (samplePeer e) = e := Prod.ext rfl (Bool.not_not e.2)

theorem sampleLoc_apart (e e' : Bool × Bool) (hside : e.2 = e'.2) (hloc : sampleLoc e = sampleLoc e') : e = e' := by
  obtain ⟨session, side⟩ := e
  obtain ⟨session', side'⟩ := e'
  revert session side session' side'
  decide

theorem sampleType_peer (e : Bool × Bool) : (fun _ => 3 : Bool × Bool → UInt8) (samplePeer e) = 3 := rfl

/-- The two sessions. -/
def sampleNetwork : Network Bool (Bool × Bool) where
  host e := e.2
  handle e := if e.2 then (if e.1 then 5 else 4) else if e.1 then 8 else 7
  loc := sampleLoc
  peer := samplePeer
  msgType _ := 3
  tcp := sampleLoc_tcp
  peer_peer := samplePeer_peer
  peer_type := sampleType_peer
  apart := sampleLoc_apart

def sampleNetState : NetState Bool (Bool × Bool) where
  lib host := ⟨true, runDb (libCommuDbInit .zero) (sampleOps host)⟩
  wire _ := []

theorem sampleOps_once (host : Bool) : HandlesOnce (runDb (libCommuDbInit .zero) (sampleOps host)) :=
  (DbInv.run (sampleOps host) (dbInv_init Db.zero) (by revert host; decide +kernel)).unique

theorem sample_established : ∀ e, Established sampleNetwork sampleNetState e := by
  rintro ⟨session, side⟩
  have hfound : (sampleNetState.lib side).db.find (sampleNetwork.handle (session, side)) =
      some (sampleNetwork.loc (session, side)) := by
    revert session side
    decide +kernel
  have hlive : sampleNetwork.handle (session, side) ≠ INVALID_HANDLE_ID ∧
      ((sampleNetState.lib side).db.info (sampleNetwork.loc (session, side))).handle =
        sampleNetwork.handle (session, side) := by
    revert session side
    decide +kernel
  have haccepts : ((sampleNetState.lib side).db.info (sampleNetwork.loc (session, side))).connInfo.msgType =
        UInt8.toUInt16 3 ∧
      ((sampleNetState.lib side).db.info (sampleNetwork.loc (session, side))).socektInfo.peerMagic =
        INVALID_MAGIC := by
    revert session side
    decide +kernel
  exact ⟨⟨rfl, hfound⟩, sampleOps_once side, hlive, haccepts.1, .inl haccepts.2⟩

/-- The client writes on both sessions, and the server reads the second one first and answers on it. -/
def sampleCalls : List (NetCall (Bool × Bool)) :=
  [.send (false, false) ⟨[1, 2, 3], [4, 6], [3]⟩, .send (true, false) ⟨[4, 5], [10], [1, 1]⟩,
    .recv (true, true) ⟨[3, 7], [2], ⟨0, 0⟩, sampleBuffers⟩, .send (true, true) ⟨[6], [10], [1]⟩,
    .recv (false, true) ⟨[10], [2, 1], ⟨0, 0⟩, sampleBuffers⟩, .recv (true, false) ⟨[10], [1], ⟨0, 0⟩, sampleBuffers⟩]

theorem sampleCalls_meet :
    AllMeet (fun log call => some (log.next sampleNetwork call)) NetMeets .empty sampleCalls := by
  have hsend : ∀ x ∈ [Sending.mk [1, 2, 3] [4, 6] [3], ⟨[4, 5], [10], [1, 1]⟩, ⟨[6], [10], [1]⟩], x.Valid := by
    simp only [List.forall_mem_cons]
    exact ⟨⟨by decide, by decide, by decide, by decide⟩, ⟨by decide, by decide, by decide, by decide⟩,
      ⟨by decide, by decide, by decide, by decide⟩, nofun⟩
  refine ⟨hsend _ (by simp), ?_⟩
  rintro _ ⟨⟩
  refine ⟨hsend _ (by simp), ?_⟩
  rintro _ ⟨⟩
  refine ⟨⟨[4, 5], rfl, by decide, by decide⟩, ?_⟩
  rintro _ ⟨⟩
  refine ⟨hsend _ (by simp), ?_⟩
  rintro _ ⟨⟩
  refine ⟨⟨[1, 2, 3], rfl, by decide, by decide⟩, ?_⟩
  rintro _ ⟨⟩
  refine ⟨⟨[6], rfl, by decide, by decide⟩, ?_⟩
  rintro _ ⟨⟩
  trivial

/-- Two sessions of a client and a server. -/
theorem sessions_deliver_sample : ∃ rs, trace (netStep sampleNetwork) sampleNetState sampleCalls = some rs ∧
    Delivers sampleNetwork sampleNetState sampleNetState .empty sampleCalls rs :=
  sessions_deliver sampleNetwork sampleNetState sample_established (fun _ => rfl) sampleCalls sampleCalls_meet

end MlnxLib.Commu
