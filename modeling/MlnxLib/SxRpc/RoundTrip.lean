import MlnxLib.SxRpc.Dispatch
import MlnxLib.SxRpc.Receive

/-!
# The round trip of an RPC command

Model of `sx_rpc_receive_message` and `sx_rpc_send_command_decoupled` of `sx_rpc_common.c`, with the
server at the other end of the connection: `sx_rpc_client_handler` while there is something to receive,
and the worker thread for each command that is complete.

* `Session` — one connection: the handle of the client, the event source of the server, the bytes under
  way in both directions and what the kernel answers on both sides.
* `serve` — the server, up to the next wait for the client.
* `Session.Ready` — a session between two commands.

The answers of the kernel split both streams in any way, so it does not matter here how far the server
is while the client still sends.

Principal result: `sxRpcSendCommandDecoupled_roundTrip` — a command that is registered and is not the
internal one to close the connection comes back with the result and the reply of its callback, or makes
the handle invalid when the reply does not fit.
-/

set_option autoImplicit false

namespace MlnxLib.SxRpc

open Bytes Complib

/-! ## The server -/

/-- The set-up of the server. -/
structure Server where
  maxBufferSize : Nat
  commands : Commands
  callbacks : Callbacks

/-- A connection between a client and the server. -/
structure Session where
  /-- `ctxt->valid`, `ctxt->commchnl.pid`. -/
  valid : Bool
  pid : Int32
  clientAnswers : List IoAnswer
  serverAnswers : List IoAnswer
  /-- The event source of the server. -/
  buffer : List UInt8
  pos : Nat
  closed : Bool
  toServer : List UInt8
  toClient : List UInt8
  /-- The callbacks called so far, with the bodies they were given. -/
  calls : List (Int32 × List UInt8)
  deriving DecidableEq, Repr

/-- What happens to the command in the buffer: the rest of `sx_rpc_client_handler` and, if the command
gets into a queue, the dispatch of the worker thread, which closes the connection unless it succeeds. -/
def handleCommand (server : Server) (s : Session) : Option Session :=
  match queuePriority server.commands (CommandHead.ofBytes s.buffer).opcode with
  | none => (sxRpcApiSendReplyWrapper 1 none 0 s.serverAnswers).map fun m =>
      { s with toClient := s.toClient ++ m.sent, serverAnswers := m.answers }
  | some priority =>
    (sxRpcCoreApiDispatch server.commands server.callbacks s.buffer priority s.serverAnswers).map fun d =>
      { s with
        calls := s.calls ++ d.called.toList
        toClient := s.toClient ++ d.sent
        serverAnswers := d.answers
        closed := decide (d.err ≠ STATUS_SUCCESS) }

/-- The server while there is something to receive; the fuel is the number of bytes. -/
def serve (server : Server) : Nat → Session → Option Session
  | 0, s => some s
  | fuel + 1, s =>
    if s.toServer = [] ∨ s.closed = true then some s else
    (sxRpcApiReceiveCommand server.maxBufferSize
        ⟨STATUS_SUCCESS, s.buffer, s.pos, s.toServer, s.serverAnswers⟩).bind fun r =>
      let s := { s with buffer := r.buffer, pos := r.pos, toServer := r.stream, serverAnswers := r.answers }
      if r.status = STATUS_CMD_INCOMPLETE then serve server fuel s else
      (handleCommand server
        (if r.status ≠ STATUS_SUCCESS then { s with buffer := putCloseCommand s.buffer } else s)).bind
        fun s => serve server fuel s

/-! ## The client -/

/-- What `sx_rpc_receive_message` leaves in the memory of its caller and on the connection. -/
structure Message where
  status : Int32
  replyHead : ReplyHead
  replyBody : List UInt8
  stream : List UInt8
  answers : List IoAnswer
  deriving DecidableEq, Repr

/-- `sx_rpc_receive_message`. -/
def sxRpcReceiveMessage (replyHead : ReplyHead) (replyBody : List UInt8) (replyBodySize : UInt32)
    (stream : List UInt8) (answers : List IoAnswer) : Option Message :=
  (clCommchnlRecv true REPLY_HEAD_SIZE stream answers).bind fun o =>
    let head := ReplyHead.ofBytes (writeAt replyHead.bytes 0 o.received)
    if o.status ≠ .success then some ⟨STATUS_ERROR, head, replyBody, o.stream, o.answers⟩ else
    let bufferSize := head.msgSize - headSize REPLY_HEAD_SIZE
    if bufferSize = 0 then some ⟨STATUS_SUCCESS, head, replyBody, o.stream, o.answers⟩
    else if replyBodySize < bufferSize then some ⟨STATUS_ERROR, head, replyBody, o.stream, o.answers⟩
    else
      (clCommchnlRecv true bufferSize.toNat o.stream o.answers).map fun b =>
        ⟨if b.status ≠ .success then STATUS_ERROR else STATUS_SUCCESS, head,
          writeAt replyBody 0 b.received, b.stream, b.answers⟩

/-- What a call of `sx_rpc_send_command_decoupled` returns and leaves. -/
structure Called where
  status : Int32
  replyHead : ReplyHead
  replyBody : List UInt8
  session : Session
  deriving DecidableEq, Repr

/-- What the kernel answers to the client: 0 from the end of a connection that the server has closed.  While the
select thread of the server is in `select` with the socket, the client waits for this answer. -/
def Session.recvAnswers (s : Session) : List IoAnswer :=
  if s.closed = true ∧ s.toClient = [] then .zero :: s.clientAnswers else s.clientAnswers

/-- `sx_rpc_send_command_decoupled` of a handle that is not null. -/
def sxRpcSendCommandDecoupled (server : Server) (s : Session) (cmdHead : CommandHead)
    (cmdBody : Option (List UInt8)) (replyHead : ReplyHead) (replyBody : List UInt8)
    (replyBodySize : UInt32) : Option Called :=
  if s.valid = false then some ⟨STATUS_INVALID_HANDLE, replyHead, replyBody, s⟩ else
  (rpcSendMessage ({ cmdHead with pid := s.pid } : CommandHead).bytes cmdBody
      (cmdHead.msgSize - headSize COMMAND_HEAD_SIZE) s.clientAnswers).bind fun m =>
    let s := { s with toServer := s.toServer ++ m.sent, clientAnswers := m.answers }
    if m.status ≠ STATUS_SUCCESS then
      some ⟨m.status, replyHead, replyBody, { s with valid := false }⟩
    else
    (serve server s.toServer.length s).bind fun s =>
      (sxRpcReceiveMessage replyHead replyBody replyBodySize s.toClient s.recvAnswers).map fun r =>
        let s := { s with toClient := r.stream, clientAnswers := r.answers }
        if r.status ≠ STATUS_SUCCESS then
          ⟨r.status, r.replyHead, r.replyBody, { s with valid := false }⟩
        else ⟨r.replyHead.retcode.toInt32, r.replyHead, r.replyBody, s⟩

/-! ## Specifications of the parts -/

/-- A session between two commands. -/
structure Session.Ready (server : Server) (s : Session) : Prop where
  valid : s.valid = true
  open_ : s.closed = false
  toServer : s.toServer = []
  toClient : s.toClient = []
  pos : s.pos = 0
  length_buffer : s.buffer.length = server.maxBufferSize

/-- What the event source of a session has received. -/
def Session.received (s : Session) : Received :=
  ⟨STATUS_SUCCESS, s.buffer, s.pos, s.toServer, s.serverAnswers⟩

/-- **The server receives the whole command** before it handles it; by induction on the bytes left. -/
theorem serve_spec {server : Server} {cmd : List UInt8} {n : Nat}
    (hcmd : IsCommand server.maxBufferSize cmd) : ∀ (fuel : Nat) (s : Session), s.closed = false →
    Partly server.maxBufferSize n cmd [] s.received → s.pos < cmd.length → s.toServer.length ≤ fuel →
    ∃ fuel' buffer answers, serve server fuel s =
        (handleCommand server { s with
          buffer := buffer, pos := 0, toServer := [], serverAnswers := answers }).bind (serve server fuel') ∧
      buffer.take cmd.length = cmd ∧ buffer.length = server.maxBufferSize ∧ Flows n answers := by
  intro fuel
  induction fuel with
  | zero =>
    intro s _ h hpos hfuel
    have hstream : s.toServer = cmd.drop s.pos ++ [] := h.stream_eq
    rw [hstream, List.length_append, List.length_drop] at hfuel
    omega
  | succ fuel ih =>
    intro s hopen h hpos hfuel
    have hstream : s.toServer = cmd.drop s.pos ++ [] := h.stream_eq
    have hlength : s.toServer.length = cmd.length - s.pos := by
      rw [hstream, List.append_nil, List.length_drop]
    have hgo : ¬ (s.toServer = [] ∨ s.closed = true) := by
      rintro (hnil | hclosed)
      · rw [hnil, List.length_nil] at hlength
        omega
      · rw [hopen] at hclosed
        cases hclosed
    obtain ⟨r, hcall, hresult⟩ := sxRpcApiReceiveCommand_spec hcmd h
    rw [serve]
    unfold Session.received at hcall
    rw [if_neg hgo, hcall, Option.bind_some]
    dsimp only
    cases hresult with
    | incomplete status partly more short =>
      rw [if_pos status]
      obtain ⟨status', buffer', pos', stream', answers'⟩ := r
      have hless : stream'.length = cmd.length - pos' := by
        have hs : stream' = cmd.drop pos' ++ [] := partly.stream_eq
        rw [hs, List.append_nil, List.length_drop]
      have hmore : s.pos < pos' := more
      obtain ⟨fuel', buffer, answers, hserve, hrest⟩ := ih
        { s with buffer := buffer', pos := pos', toServer := stream', serverAnswers := answers' } hopen
        ⟨partly.pos_le, partly.length_buffer, partly.take_buffer, partly.stream_eq, partly.flows⟩ short
        (by dsimp only; omega)
      exact ⟨fuel', buffer, answers, hserve, hrest⟩
    | complete status pos buffer stream length flows =>
      rw [if_neg (by rw [status]; exact incomplete_ne_success.symm), if_neg (not_not.mpr status), pos, stream]
      refine ⟨fuel, r.buffer, r.answers, rfl, buffer, length, ?_⟩
      rw [stream] at flows
      exact flows.le (Nat.le_add_left _ _)

/-- A server with nothing to receive waits. -/
theorem serve_done {server : Server} {s : Session} (fuel : Nat) (h : s.toServer = []) :
    serve server fuel s = some s := by
  cases fuel with
  | zero => rfl
  | succ fuel => exact if_pos (Or.inl h)

/-- **A reply that fits**, or has no body, is received whole. -/
theorem sxRpcReceiveMessage_fits (replyHead : ReplyHead) (replyBody : List UInt8) (replyBodySize : UInt32)
    (head : ReplyHead) (body : List UInt8) {answers : List IoAnswer} {n : Nat}
    (hsize : body.length = (head.msgSize - headSize REPLY_HEAD_SIZE).toNat)
    (hfits : head.msgSize - headSize REPLY_HEAD_SIZE ≤ replyBodySize)
    (h : Flows (REPLY_HEAD_SIZE + (body.length + n)) answers) :
    ∃ replyBody' answers', sxRpcReceiveMessage replyHead replyBody replyBodySize (head.bytes ++ body) answers =
        some ⟨STATUS_SUCCESS, head, replyBody', [], answers'⟩ ∧ replyBody'.take body.length = body := by
  obtain ⟨answers₁, hrecv, h₁⟩ := clCommchnlRecv_all head.bytes body (Nat.succ_pos 15) h
  have hhead : ReplyHead.ofBytes (writeAt replyHead.bytes 0 head.bytes) = head :=
    ReplyHead.ofBytes_bytes head _
  unfold sxRpcReceiveMessage
  rw [ReplyHead.length_bytes] at hrecv
  rw [hrecv, Option.bind_some]
  dsimp only
  rw [hhead, if_neg (not_not.mpr rfl)]
  by_cases hzero : head.msgSize - headSize REPLY_HEAD_SIZE = 0
  · rw [hzero] at hsize
    have hnil : body = [] := List.eq_nil_of_length_eq_zero hsize
    subst hnil
    rw [if_pos hzero]
    exact ⟨replyBody, answers₁, rfl, rfl⟩
  · have hpos : 0 < body.length := by
      rw [hsize]
      exact Nat.pos_of_ne_zero fun h0 => hzero (UInt32.toNat_inj.mp h0)
    obtain ⟨answers₂, hbody, h₂⟩ := clCommchnlRecv_all body [] hpos h₁
    rw [List.append_nil] at hbody
    rw [if_neg hzero, if_neg (UInt32.not_lt.mpr hfits), ← hsize, hbody, Option.map_some]
    refine ⟨_, answers₂, rfl, ?_⟩
    have htake := take_writeAt replyBody body 0 (Nat.zero_le _)
    rwa [Nat.zero_add, List.take_zero, List.nil_append] at htake

/-- **A reply that does not fit** is an error. -/
theorem sxRpcReceiveMessage_overflow (replyHead : ReplyHead) (replyBody : List UInt8) (replyBodySize : UInt32)
    (head : ReplyHead) (body : List UInt8) {answers : List IoAnswer} {n : Nat}
    (hover : replyBodySize < head.msgSize - headSize REPLY_HEAD_SIZE)
    (h : Flows (REPLY_HEAD_SIZE + n) answers) :
    ∃ answers', sxRpcReceiveMessage replyHead replyBody replyBodySize (head.bytes ++ body) answers =
        some ⟨STATUS_ERROR, head, replyBody, body, answers'⟩ := by
  obtain ⟨answers₁, hrecv, -⟩ := clCommchnlRecv_all head.bytes body (Nat.succ_pos 15) h
  have hhead : ReplyHead.ofBytes (writeAt replyHead.bytes 0 head.bytes) = head :=
    ReplyHead.ofBytes_bytes head _
  have hne : head.msgSize - headSize REPLY_HEAD_SIZE ≠ 0 := by
    intro hzero
    rw [hzero] at hover
    exact UInt32.not_lt_zero hover
  unfold sxRpcReceiveMessage
  rw [ReplyHead.length_bytes] at hrecv
  rw [hrecv, Option.bind_some]
  dsimp only
  rw [hhead, if_neg (not_not.mpr rfl), if_neg hne, if_pos hover]
  exact ⟨answers₁, rfl⟩

/-! ## The round trip -/

/-- The message that a client sends. -/
def commandBytes (s : Session) (cmdHead : CommandHead) (cmdBody : Option (List UInt8)) : List UInt8 :=
  ({ cmdHead with pid := s.pid } : CommandHead).bytes ++ cmdBody.getD []

/-- The body of a command that the buffer begins with. -/
theorem commandBody_of_take {buffer : List UInt8} {head : CommandHead} {body : List UInt8}
    (htake : buffer.take (head.bytes ++ body).length = head.bytes ++ body)
    (hsize : (head.msgSize - headSize COMMAND_HEAD_SIZE).toNat = body.length) :
    CommandHead.ofBytes buffer = head ∧ commandBody buffer = body := by
  have hlength : (head.bytes ++ body).length = COMMAND_HEAD_SIZE + body.length := by
    rw [List.length_append, CommandHead.length_bytes]
  have hhead : CommandHead.ofBytes buffer = head := by
    have hcongr : buffer.take (head.bytes ++ body).length =
        (head.bytes ++ body).take (head.bytes ++ body).length := by rw [htake, List.take_length]
    rw [CommandHead.ofBytes_congr hcongr (by omega), CommandHead.ofBytes_bytes]
  refine ⟨hhead, ?_⟩
  unfold commandBody
  rw [hhead, hsize, List.take_drop, ← hlength, htake]
  show (head.bytes ++ body).drop head.bytes.length = body
  exact List.drop_left

/-- **The server handles the command once** and sends the reply of its callback. -/
theorem serve_command {server : Server} (s : Session) (head : CommandHead) (body : List UInt8)
    {priority : CmdPriority} {reply : Reply} {n : Nat}
    (hopen : s.closed = false) (hpos : s.pos = 0) (hbuffer : s.buffer.length = server.maxBufferSize)
    (hstream : s.toServer = head.bytes ++ body)
    (hcommand : server.commands head.opcode.toInt32 = some priority)
    (hopcode : head.opcode ≠ CMD_CLOSE_EVENT_SRC)
    (hsize : head.msgSize.toNat = COMMAND_HEAD_SIZE + body.length)
    (hmax : head.msgSize.toNat ≤ server.maxBufferSize)
    (hreply : server.callbacks head.opcode.toInt32 body = reply) (hwf : reply.WellFormed)
    (h : Flows (head.msgSize.toNat + (reply.bound + n)) s.serverAnswers) :
    ∃ buffer answers, serve server s.toServer.length s = some { s with
        buffer := buffer, toServer := [], serverAnswers := answers
        toClient := s.toClient ++ reply.bytes
        calls := s.calls ++ [(head.opcode.toInt32, body)] } ∧
      buffer.length = server.maxBufferSize := by
  have hlength : (head.bytes ++ body).length = head.msgSize.toNat := by
    rw [List.length_append, CommandHead.length_bytes, hsize]
  have hcmd : IsCommand server.maxBufferSize (head.bytes ++ body) := by
    refine ⟨?_, by omega, by omega⟩
    rw [CommandHead.ofBytes_bytes, hlength]
  have hbody : (head.msgSize - headSize COMMAND_HEAD_SIZE).toNat = body.length := by
    have hle : headSize COMMAND_HEAD_SIZE ≤ head.msgSize := by
      rw [UInt32.le_iff_toNat_le, hsize]
      exact Nat.le_add_right _ _
    rw [UInt32.toNat_sub_of_le _ _ hle, hsize]
    exact Nat.add_sub_cancel_left ..
  have hpartly : Partly server.maxBufferSize (reply.bound + n) (head.bytes ++ body) [] s.received := by
    refine ⟨?_, hbuffer, ?_, ?_, ?_⟩
    · show s.pos ≤ _
      omega
    · show s.buffer.take s.pos = (head.bytes ++ body).take s.pos
      rw [hpos]
      rfl
    · show s.toServer = (head.bytes ++ body).drop s.pos ++ []
      rw [hpos, hstream, List.append_nil]
      rfl
    · show Flows (s.toServer.length + (reply.bound + n)) s.serverAnswers
      rw [hstream, hlength]
      exact h
  have hhead_pos : 0 < COMMAND_HEAD_SIZE := by decide
  obtain ⟨fuel, buffer, answers, hserve, htake, hbuf, hflows⟩ :=
    serve_spec hcmd s.toServer.length s hopen hpartly (by omega) (Nat.le_refl _)
  obtain ⟨hhead, hcbody⟩ := commandBody_of_take htake hbody
  have hqueue : queuePriority server.commands (CommandHead.ofBytes buffer).opcode = some priority := by
    unfold queuePriority
    rw [hhead, if_pos hopcode, hcommand]
  obtain ⟨answers', hdispatch, -⟩ := sxRpcCoreApiDispatch_spec priority
    (by rw [hhead]; exact hopcode) (by rw [hhead]; exact hcommand) (by rw [hhead, hcbody]; exact hreply)
    hwf hflows
  refine ⟨buffer, answers', ?_, hbuf⟩
  rw [hserve]
  unfold handleCommand
  dsimp only
  rw [hqueue]
  dsimp only
  rw [hdispatch, Option.map_some, Option.bind_some, serve_done _ rfl, hhead, hcbody]
  obtain ⟨valid, pid, clientAnswers, serverAnswers, sbuffer, pos, closed, toServer, toClient, calls⟩ := s
  dsimp only at hopen hpos
  subst hopen
  subst hpos
  rfl

/-- A handle that is not valid refuses every command, and leaves the connection as it is. -/
theorem sxRpcSendCommandDecoupled_invalid {server : Server} {s : Session} (h : s.valid = false)
    (cmdHead : CommandHead) (cmdBody : Option (List UInt8)) (replyHead : ReplyHead) (replyBody : List UInt8)
    (replyBodySize : UInt32) :
    sxRpcSendCommandDecoupled server s cmdHead cmdBody replyHead replyBody replyBodySize =
      some ⟨STATUS_INVALID_HANDLE, replyHead, replyBody, s⟩ :=
  if_pos h

theorem error_ne_success : STATUS_ERROR ≠ STATUS_SUCCESS := by decide

/-- The session after a command that the server has handled, with this call of a callback. -/
def Session.after (s : Session) (call : Int32 × List UInt8) (buffer : List UInt8)
    (serverAnswers : List IoAnswer) (r : Message) : Session :=
  { s with
    calls := s.calls ++ [call], buffer := buffer, serverAnswers := serverAnswers
    toClient := r.stream, clientAnswers := r.answers }

section

variable {server : Server} {s : Session} {cmdHead : CommandHead} {cmdBody : Option (List UInt8)}
  {replyHead : ReplyHead} {replyBody : List UInt8} {replyBodySize : UInt32} {priority : CmdPriority}
  {reply : Reply}

theorem Session.Ready.after {call : Int32 × List UInt8} {buffer : List UInt8} {serverAnswers : List IoAnswer}
    {r : Message} (h : s.Ready server) (hbuffer : buffer.length = server.maxBufferSize)
    (hstream : r.stream = []) : (s.after call buffer serverAnswers r).Ready server :=
  ⟨h.valid, h.open_, h.toServer, hstream, h.pos, hbuffer⟩

/-- A command up to its reply: what the client makes of the bytes of the reply decides the call. -/
theorem sxRpcSendCommandDecoupled_eq (replyHead : ReplyHead) (replyBody : List UInt8) (replyBodySize : UInt32)
    (hready : s.Ready server)
    (hcommand : server.commands cmdHead.opcode.toInt32 = some priority)
    (hopcode : cmdHead.opcode ≠ CMD_CLOSE_EVENT_SRC)
    (hsize : cmdHead.msgSize.toNat = COMMAND_HEAD_SIZE + (cmdBody.getD []).length)
    (hmax : cmdHead.msgSize.toNat ≤ server.maxBufferSize)
    (hreply : server.callbacks cmdHead.opcode.toInt32 (cmdBody.getD []) = reply) (hwf : reply.WellFormed)
    (hclient : Flows (cmdHead.msgSize.toNat + reply.bound) s.clientAnswers)
    (hserver : Flows (cmdHead.msgSize.toNat + reply.bound) s.serverAnswers) :
    ∃ buffer answers answers', buffer.length = server.maxBufferSize ∧ Flows reply.bound answers ∧
      ∀ r, sxRpcReceiveMessage replyHead replyBody replyBodySize reply.bytes answers = some r →
        sxRpcSendCommandDecoupled server s cmdHead cmdBody replyHead replyBody replyBodySize =
          some (if r.status ≠ STATUS_SUCCESS then
            ⟨r.status, r.replyHead, r.replyBody, { s.after (cmdHead.opcode.toInt32, cmdBody.getD [])
              buffer answers' r with valid := false }⟩
          else ⟨r.replyHead.retcode.toInt32, r.replyHead, r.replyBody,
            s.after (cmdHead.opcode.toInt32, cmdBody.getD []) buffer answers' r⟩) := by
  obtain ⟨hvalid, hopen, htoServer, htoClient, hpos, hbuffer⟩ := hready
  -- the client sends its message
  have hbody : (cmdBody.getD []).length = (cmdHead.msgSize - headSize COMMAND_HEAD_SIZE).toNat := by
    have hle : headSize COMMAND_HEAD_SIZE ≤ cmdHead.msgSize := by
      rw [UInt32.le_iff_toNat_le, hsize]
      exact Nat.le_add_right _ _
    rw [UInt32.toNat_sub_of_le _ _ hle, hsize]
    exact (Nat.add_sub_cancel_left ..).symm
  have hflows : Flows (({ cmdHead with pid := s.pid } : CommandHead).bytes.length +
      ((cmdHead.msgSize - headSize COMMAND_HEAD_SIZE).toNat + reply.bound)) s.clientAnswers := by
    rw [CommandHead.length_bytes, ← hbody, ← Nat.add_assoc, ← hsize]
    exact hclient
  obtain ⟨answers, hsend, hflows⟩ := rpcSendMessage_spec hbody hflows
  -- the server receives it, and handles it once
  obtain ⟨buffer, answers', hserve, hbuffer'⟩ := serve_command (n := 0)
    { s with toServer := s.toServer ++ commandBytes s cmdHead cmdBody, clientAnswers := answers }
    { cmdHead with pid := s.pid } (cmdBody.getD []) hopen hpos hbuffer
    (by dsimp only; rw [htoServer]; rfl) hcommand hopcode hsize hmax hreply hwf hserver
  refine ⟨buffer, answers, answers', hbuffer', hflows, ?_⟩
  intro r hr
  unfold sxRpcSendCommandDecoupled
  rw [if_neg (by rw [hvalid]; exact Bool.noConfusion), hsend, Option.bind_some]
  dsimp only
  unfold commandBytes at hserve
  rw [if_neg (not_not.mpr rfl), hserve, Option.bind_some]
  unfold Session.recvAnswers Session.after
  dsimp only
  rw [hopen, htoClient, List.nil_append, if_neg (fun h => Bool.noConfusion h.1), hr, Option.map_some,
    htoServer]

/-- The size in the head of a reply is that of its body, whatever the sum wraps to. -/
theorem headSize_add_sub (size : UInt32) :
    headSize REPLY_HEAD_SIZE + size - headSize REPLY_HEAD_SIZE = size := by
  rw [UInt32.add_comm, UInt32.add_sub_cancel]

/-- A reply without an error, and with room for it. -/
theorem receiveReply_fits {answers : List IoAnswer} (hok : reply.retcode = STATUS_SUCCESS)
    (hwf : reply.WellFormed) (hfits : reply.size ≤ replyBodySize) (h : Flows reply.bound answers) :
    ∃ r, sxRpcReceiveMessage replyHead replyBody replyBodySize reply.bytes answers = some r ∧
      r.status = STATUS_SUCCESS ∧ r.replyHead.retcode.toInt32 = reply.retcode ∧ r.stream = [] ∧
      r.replyBody.take (r.replyHead.msgSize - headSize REPLY_HEAD_SIZE).toNat = reply.body.getD [] := by
  have hbytes : reply.bytes = (⟨reply.retcode.toUInt32, 0, headSize REPLY_HEAD_SIZE + reply.size, 0⟩ :
      ReplyHead).bytes ++ reply.body.getD [] := if_pos hok
  obtain ⟨replyBody', answers', hrecv, htake⟩ := sxRpcReceiveMessage_fits (n := 0) replyHead replyBody
    replyBodySize ⟨reply.retcode.toUInt32, 0, headSize REPLY_HEAD_SIZE + reply.size, 0⟩ (reply.body.getD [])
    (by rw [headSize_add_sub]; exact hwf hok)
    (by rw [headSize_add_sub]; exact hfits) (by rw [hwf hok]; exact h)
  rw [← hbytes] at hrecv
  refine ⟨_, hrecv, rfl, Int32.toInt32_toUInt32 _, rfl, ?_⟩
  dsimp only
  rw [headSize_add_sub, ← hwf hok]
  exact htake

/-- A reply that says how its callback has failed. -/
theorem receiveReply_failed {answers : List IoAnswer} (hfail : reply.retcode ≠ STATUS_SUCCESS)
    (h : Flows reply.bound answers) :
    ∃ r, sxRpcReceiveMessage replyHead replyBody replyBodySize reply.bytes answers = some r ∧
      r.status = STATUS_SUCCESS ∧ r.replyHead.retcode.toInt32 = reply.retcode ∧ r.stream = [] := by
  have hbytes : reply.bytes = (⟨reply.retcode.toUInt32, 0, headSize REPLY_HEAD_SIZE + 0, 0⟩ :
      ReplyHead).bytes ++ [] := by
    rw [List.append_nil]
    exact if_neg hfail
  obtain ⟨replyBody', answers', hrecv, -⟩ := sxRpcReceiveMessage_fits (n := 0) replyHead replyBody
    replyBodySize ⟨reply.retcode.toUInt32, 0, headSize REPLY_HEAD_SIZE + 0, 0⟩ [] (by rw [headSize_add_sub]; rfl)
    (by rw [headSize_add_sub]; exact UInt32.zero_le) (h.le (Nat.add_le_add_left (Nat.zero_le _) _))
  rw [← hbytes] at hrecv
  exact ⟨_, hrecv, rfl, Int32.toInt32_toUInt32 _, rfl⟩

/-- A reply without an error, but too long. -/
theorem receiveReply_overflow {answers : List IoAnswer} (hok : reply.retcode = STATUS_SUCCESS)
    (hover : replyBodySize < reply.size) (h : Flows reply.bound answers) :
    ∃ r, sxRpcReceiveMessage replyHead replyBody replyBodySize reply.bytes answers = some r ∧
      r.status = STATUS_ERROR := by
  have hbytes : reply.bytes = (⟨reply.retcode.toUInt32, 0, headSize REPLY_HEAD_SIZE + reply.size, 0⟩ :
      ReplyHead).bytes ++ reply.body.getD [] := if_pos hok
  obtain ⟨answers', hrecv⟩ := sxRpcReceiveMessage_overflow (n := reply.size.toNat) replyHead
    replyBody replyBodySize ⟨reply.retcode.toUInt32, 0, headSize REPLY_HEAD_SIZE + reply.size, 0⟩
    (reply.body.getD []) (by rw [headSize_add_sub]; exact hover) h
  rw [← hbytes] at hrecv
  exact ⟨_, hrecv, rfl⟩

end

/-- **The round trip** of a command that is registered and is not the one to close the connection, over
a channel without errors on both sides: its callback is called once, with its body.  If the callback
fails its result comes back; if it succeeds and the reply fits, the result and the reply come back, and
the session is ready for the next command in both cases.  If the reply does not fit, the handle is
invalid from then on. -/
theorem sxRpcSendCommandDecoupled_roundTrip (server : Server) (s : Session) (cmdHead : CommandHead)
    (cmdBody : Option (List UInt8)) (replyHead : ReplyHead) (replyBody : List UInt8)
    (replyBodySize : UInt32) (priority : CmdPriority) (reply : Reply) (hready : s.Ready server)
    (hcommand : server.commands cmdHead.opcode.toInt32 = some priority)
    (hopcode : cmdHead.opcode ≠ CMD_CLOSE_EVENT_SRC)
    (hsize : cmdHead.msgSize.toNat = COMMAND_HEAD_SIZE + (cmdBody.getD []).length)
    (hmax : cmdHead.msgSize.toNat ≤ server.maxBufferSize)
    (hreply : server.callbacks cmdHead.opcode.toInt32 (cmdBody.getD []) = reply) (hwf : reply.WellFormed)
    (hclient : Flows (cmdHead.msgSize.toNat + reply.bound) s.clientAnswers)
    (hserver : Flows (cmdHead.msgSize.toNat + reply.bound) s.serverAnswers) :
    ∃ c, sxRpcSendCommandDecoupled server s cmdHead cmdBody replyHead replyBody replyBodySize = some c ∧
      c.session.calls = s.calls ++ [(cmdHead.opcode.toInt32, cmdBody.getD [])] ∧
      (reply.retcode ≠ STATUS_SUCCESS → c.status = reply.retcode ∧ c.session.Ready server) ∧
      (reply.retcode = STATUS_SUCCESS → reply.size ≤ replyBodySize →
        c.status = reply.retcode ∧
        c.replyBody.take (c.replyHead.msgSize - headSize REPLY_HEAD_SIZE).toNat = reply.body.getD [] ∧
        c.session.Ready server) ∧
      (reply.retcode = STATUS_SUCCESS → replyBodySize < reply.size →
        c.status = STATUS_ERROR ∧ c.session.valid = false ∧
        ∀ cmdHead' cmdBody' replyHead' replyBody' replyBodySize',
          sxRpcSendCommandDecoupled server c.session cmdHead' cmdBody' replyHead' replyBody' replyBodySize' =
            some ⟨STATUS_INVALID_HANDLE, replyHead', replyBody', c.session⟩) := by
  obtain ⟨buffer, answers, answers', hbuffer, hflows, hcall⟩ := sxRpcSendCommandDecoupled_eq replyHead
    replyBody replyBodySize hready hcommand hopcode hsize hmax hreply hwf hclient hserver
  by_cases hok : reply.retcode = STATUS_SUCCESS
  · by_cases hfits : reply.size ≤ replyBodySize
    · obtain ⟨r, hrecv, hs, hret, hstream, htake⟩ := receiveReply_fits hok hwf hfits hflows
      refine ⟨_, hcall r hrecv, ?_, fun hne => absurd hok hne, fun _ _ => ?_,
        fun _ hover => absurd hover (UInt32.not_lt.mpr hfits)⟩
      · rw [if_neg (not_not.mpr hs)]
        rfl
      · rw [if_neg (not_not.mpr hs)]
        exact ⟨hret, htake, hready.after hbuffer hstream⟩
    · have hover : replyBodySize < reply.size := UInt32.not_le.mp hfits
      obtain ⟨r, hrecv, hs⟩ := receiveReply_overflow hok hover hflows
      have hne : r.status ≠ STATUS_SUCCESS := by
        rw [hs]
        exact error_ne_success
      refine ⟨_, hcall r hrecv, ?_, fun hne => absurd hok hne, fun _ hfit => absurd hfit hfits,
        fun _ _ => ?_⟩
      · rw [if_pos hne]
        rfl
      · rw [if_pos hne]
        exact ⟨hs, rfl, sxRpcSendCommandDecoupled_invalid rfl⟩
  · obtain ⟨r, hrecv, hs, hret, hstream⟩ := receiveReply_failed hok hflows
    refine ⟨_, hcall r hrecv, ?_, fun _ => ?_, fun h => absurd h hok, fun h => absurd h hok⟩
    · rw [if_neg (not_not.mpr hs)]
      rfl
    · rw [if_neg (not_not.mpr hs)]
      exact ⟨hret, hready.after hbuffer hstream⟩

/-- A server whose callbacks send back what they are given; all opcodes are registered. -/
def echoServer : Server := ⟨32, fun _ => some .low, fun _ body => ⟨0, some body, UInt32.ofNat body.length⟩⟩

/-- A new connection, over which the kernel moves at most three bytes at a time. -/
def echoSession : Session :=
  ⟨true, 77, flowing (List.replicate 60 2), flowing (List.replicate 60 2), List.replicate 32 0, 0, false,
    [], [], []⟩

theorem echoSession_ready : echoSession.Ready echoServer := ⟨rfl, rfl, rfl, rfl, rfl, rfl⟩

theorem echoSession_flows {n : Nat} (h : n ≤ 60) : Flows n (flowing (List.replicate 60 2)) :=
  ⟨List.replicate 60 2, rfl, h⟩

theorem sxRpcSendCommandDecoupled_roundTrip_echo :
    ∃ c, sxRpcSendCommandDecoupled echoServer echoSession ⟨7, 0, 23, 0, 0⟩ (some [1, 2, 3]) ⟨0, 0, 0, 0⟩
        (List.replicate 8 0) 8 = some c ∧ c.status = STATUS_SUCCESS ∧ c.session.Ready echoServer := by
  obtain ⟨c, hcall, -, -, hfits, -⟩ := sxRpcSendCommandDecoupled_roundTrip echoServer echoSession
    ⟨7, 0, 23, 0, 0⟩ (some [1, 2, 3]) ⟨0, 0, 0, 0⟩ (List.replicate 8 0) 8 .low ⟨0, some [1, 2, 3], 3⟩
    echoSession_ready rfl (by decide) (by decide) (by decide) (by decide) (by decide)
    (echoSession_flows (by decide)) (echoSession_flows (by decide))
  obtain ⟨hstatus, -, hready⟩ := hfits (by decide) (by decide)
  exact ⟨c, hcall, hstatus, hready⟩

/-- A command that is registered under the opcode `SX_RPC_API_CMD_CLOSE_EVENT_SRC` closes the connection:
its callback would succeed, but it is not called, and the client gets an error.  A command that is longer
than the buffer of the server meets an assertion there. -/
theorem sxRpcSendCommandDecoupled_close : echoSession.Ready echoServer ∧
    echoServer.commands CMD_CLOSE_EVENT_SRC.toInt32 = some .low ∧
    echoServer.callbacks CMD_CLOSE_EVENT_SRC.toInt32 [] = ⟨STATUS_SUCCESS, some [], 0⟩ ∧
    (sxRpcSendCommandDecoupled echoServer echoSession ⟨CMD_CLOSE_EVENT_SRC, 0, 20, 0, 0⟩ none ⟨0, 0, 0, 0⟩
        [] 0).map (fun c => (c.status, c.session.valid, c.session.calls)) =
      some (STATUS_ERROR, false, []) ∧
    sxRpcSendCommandDecoupled echoServer echoSession ⟨7, 0, 33, 0, 0⟩ (some (List.replicate 13 5))
      ⟨0, 0, 0, 0⟩ (List.replicate 13 0) 13 = none :=
  ⟨echoSession_ready, by decide, by decide, by decide +kernel, by decide +kernel⟩

end MlnxLib.SxRpc
