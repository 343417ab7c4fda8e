import MlnxLib.Lib.Simulation
import MlnxLib.SxRpc.RoundTrip

/-!
# Conversations of a client with the server

A client opens a handle with `sx_rpc_open` and sends commands over it with `sx_rpc_send_command_decoupled`:
commands that are registered and commands that are not, with replies that fit and replies that do not.  It does not
send the internal command to close the connection: whether its end of the connection then sees that the server has
closed the other one depends on where the select thread of the server is.

* `sxRpcOpen` — the handle, with the contexts and the sockets of the client that stay in use.
* `Request` — the arguments of one send, and `callStep` — the call.
* `answer`, `result` — what a service makes of a request, without a connection: the reply of its callback, and what
  the caller gets of it.
* `Answered` — what a call returns, with the callbacks called.

Principal result: `conversation_served` — every conversation is one with the service itself: each call returns what
the service answers, until a call that breaks the handle; from then on no call gets to the server.
-/

set_option autoImplicit false

namespace MlnxLib.SxRpc

open Bytes Complib Runs

/-! ## Handles -/

/-- `sizeof(sx_rpc_api_sx_sdk_versions_t)`. -/
def VERSIONS_SIZE : Nat := 60

/-- What an open gets from its system. -/
structure OpenAnswers where
  malloc : Bool
  socket : Bool
  connect : Bool
  spinlock : Bool
  deriving DecidableEq, Repr

/-- What an open returns, its handle, and the contexts and sockets that it leaves in use. -/
structure Opened where
  status : Int32
  handle : Option Session
  contexts : Nat
  sockets : Nat
  deriving DecidableEq, Repr

/-- `sx_rpc_open` on a connection; a socket that is not connected is not closed. -/
def sxRpcOpen (sys : OpenAnswers) (s : Session) : Option Opened :=
  if sys.malloc = false then some ⟨STATUS_ERROR, none, 0, 0⟩ else
  if sys.socket = false then some ⟨STATUS_ERROR, none, 0, 0⟩ else
  if sys.connect = false then some ⟨STATUS_ERROR, none, 0, 1⟩ else
  if sys.spinlock = false then some ⟨STATUS_ERROR, none, 0, 0⟩ else
  (clCommchnlRecv true VERSIONS_SIZE s.toClient s.recvAnswers).map fun o =>
    if o.status ≠ .success then ⟨STATUS_ERROR, none, 0, 0⟩
    else ⟨STATUS_SUCCESS, some { s with valid := true, toClient := o.stream, clientAnswers := o.answers }, 1, 1⟩

/-- The connection of a client that the server has accepted: its versions are on their way. -/
structure Accepted (server : Server) (versions : List UInt8) (s : Session) : Prop where
  open_ : s.closed = false
  toServer : s.toServer = []
  toClient : s.toClient = versions
  versions : versions.length = VERSIONS_SIZE
  pos : s.pos = 0
  length_buffer : s.buffer.length = server.maxBufferSize

/-! ## Requests -/

/-- The arguments of `sx_rpc_send_command_decoupled`. -/
structure Request where
  cmdHead : CommandHead
  cmdBody : Option (List UInt8)
  replyHead : ReplyHead
  replyBody : List UInt8
  replyBodySize : UInt32
  deriving DecidableEq, Repr

/-- A call, and the session after it. -/
def callStep (server : Server) (s : Session) (q : Request) : Option (Called × Session) :=
  (sxRpcSendCommandDecoupled server s q.cmdHead q.cmdBody q.replyHead q.replyBody q.replyBodySize).map fun c =>
    (c, c.session)

/-- The reply to a request: the one of its callback, or an error for a command that is not registered. -/
def answer (server : Server) (q : Request) : Reply :=
  match server.commands q.cmdHead.opcode.toInt32 with
  | none => ⟨STATUS_ERROR, none, 0⟩
  | some _ => server.callbacks q.cmdHead.opcode.toInt32 (q.cmdBody.getD [])

/-- The callback that a request calls, with its body. -/
def invocation (server : Server) (q : Request) : List (Int32 × List UInt8) :=
  match server.commands q.cmdHead.opcode.toInt32 with
  | none => []
  | some _ => [(q.cmdHead.opcode.toInt32, q.cmdBody.getD [])]

/-- What the caller gets: the result of the service with the body of its reply, or `none` if that breaks the handle. -/
def result (server : Server) (q : Request) : Option (Int32 × List UInt8) :=
  let reply := answer server q
  if reply.retcode ≠ STATUS_SUCCESS then some (reply.retcode, []) else
  if reply.size ≤ q.replyBodySize then some (STATUS_SUCCESS, reply.body.getD []) else none

/-- A request that does not close the connection, says its own size, and fits the server; a callback that succeeds
says the size of its reply. -/
structure Request.Valid (server : Server) (q : Request) : Prop where
  opcode : q.cmdHead.opcode ≠ CMD_CLOSE_EVENT_SRC
  size : q.cmdHead.msgSize.toNat = COMMAND_HEAD_SIZE + (q.cmdBody.getD []).length
  max : q.cmdHead.msgSize.toNat ≤ server.maxBufferSize
  reply : (answer server q).WellFormed

/-- The bytes that a call moves at most on either side. -/
def cost (server : Server) (q : Request) : Nat :=
  q.cmdHead.msgSize.toNat + (answer server q).bound

/-- **What a call returns**, while the handle is `valid` and when it is not, and whether it is afterwards. -/
def Answered (server : Server) (valid : Bool) (s : Session) (q : Request) (c : Called) (s' : Session)
    (valid' : Bool) : Prop :=
  if valid then
    s'.calls = s.calls ++ invocation server q ∧ valid' = (result server q).isSome ∧
      match result server q with
      | none => c.status = STATUS_ERROR
      | some (retcode, body) => c.status = retcode ∧
          (retcode = STATUS_SUCCESS → c.replyBody.take (c.replyHead.msgSize - headSize REPLY_HEAD_SIZE).toNat = body)
  else c = ⟨STATUS_INVALID_HANDLE, q.replyHead, q.replyBody, s⟩ ∧ s' = s ∧ valid' = false

/-! ## The server -/

section

variable {server : Server} {s : Session} {q : Request} {n : Nat}

/-- The server receives the whole command, and handles it. -/
theorem serve_handle (s : Session) (head : CommandHead) (body : List UInt8) (hopen : s.closed = false)
    (hpos : s.pos = 0) (hbuffer : s.buffer.length = server.maxBufferSize) (hstream : s.toServer = head.bytes ++ body)
    (hsize : head.msgSize.toNat = COMMAND_HEAD_SIZE + body.length) (hmax : head.msgSize.toNat ≤ server.maxBufferSize)
    (h : Flows (head.msgSize.toNat + n) s.serverAnswers) :
    ∃ fuel buffer answers, serve server s.toServer.length s =
        (handleCommand server { s with
          buffer := buffer, pos := 0, toServer := [], serverAnswers := answers }).bind (serve server fuel) ∧
      CommandHead.ofBytes buffer = head ∧ commandBody buffer = body ∧ buffer.length = server.maxBufferSize ∧
      Flows n answers := by
  have hlength : (head.bytes ++ body).length = head.msgSize.toNat := by
    rw [List.length_append, CommandHead.length_bytes, hsize]
  have hcmd : IsCommand server.maxBufferSize (head.bytes ++ body) := by
    refine ⟨?_, by omega, by omega⟩
    rw [CommandHead.ofBytes_bytes, hlength]
  have hbody : (head.msgSize - headSize COMMAND_HEAD_SIZE).toNat = body.length := by
    have hle : headSize COMMAND_HEAD_SIZE ≤ head.msgSize := by
      rw [UInt32.le_iff_toNat_le, hsize]
      exact Nat.le_add_right _ _
    rw [UInt32.toNat_sub_of_le _ _ hle, hsize]
    exact Nat.add_sub_cancel_left ..
  have hpartly : Partly server.maxBufferSize n (head.bytes ++ body) [] s.received := by
    constructor
    · show s.pos ≤ _
      omega
    · exact hbuffer
    · show s.buffer.take s.pos = (head.bytes ++ body).take s.pos
      rw [hpos]
      rfl
    · show s.toServer = (head.bytes ++ body).drop s.pos ++ []
      rw [hpos, hstream, List.append_nil]
      rfl
    · show Flows (s.toServer.length + n) s.serverAnswers
      rw [hstream, hlength]
      exact h
  have hhead_pos : 0 < COMMAND_HEAD_SIZE := by decide
  obtain ⟨fuel, buffer, answers, hserve, htake, hbuf, hflows⟩ :=
    serve_spec hcmd s.toServer.length s hopen hpartly (by omega) (Nat.le_refl _)
  obtain ⟨hhead, hcbody⟩ := commandBody_of_take htake hbody
  exact ⟨fuel, buffer, answers, hserve, hhead, hcbody, hbuf, hflows⟩

/-- What the server leaves of a session. -/
structure Handled (server : Server) (s s' : Session) (q : Request) : Prop where
  calls : s'.calls = s.calls ++ invocation server q
  toClient : s'.toClient = s.toClient ++ (answer server q).bytes
  closed : s'.closed = false
  toServer : s'.toServer = []
  pos : s'.pos = 0
  length_buffer : s'.buffer.length = server.maxBufferSize
  valid : s'.valid = s.valid
  pid : s'.pid = s.pid
  clientAnswers : s'.clientAnswers = s.clientAnswers

/-- **The server handles a request**: it calls its callback once, if there is one, and sends the reply. -/
theorem serve_request (s : Session) (hopen : s.closed = false) (hpos : s.pos = 0)
    (hbuffer : s.buffer.length = server.maxBufferSize)
    (hstream : s.toServer = ({ q.cmdHead with pid := s.pid } : CommandHead).bytes ++ q.cmdBody.getD [])
    (hq : q.Valid server) (h : Flows (cost server q + n) s.serverAnswers) :
    ∃ s', serve server s.toServer.length s = some s' ∧ Handled server s s' q ∧ Flows n s'.serverAnswers := by
  unfold cost at h
  rw [Nat.add_assoc] at h
  obtain ⟨fuel, buffer, answers, hserve, hhead, hbody, hbuf, hflows⟩ :=
    serve_handle s { q.cmdHead with pid := s.pid } (q.cmdBody.getD []) hopen hpos hbuffer hstream hq.size hq.max h
  have hwf := hq.reply
  rw [hserve]
  unfold handleCommand queuePriority
  dsimp only
  rw [hhead]
  rw [if_pos hq.opcode]
  cases hcommand : server.commands q.cmdHead.opcode.toInt32 with
  | none =>
    -- the select thread refuses the command
    have hanswer : answer server q = ⟨STATUS_ERROR, none, 0⟩ := by
      unfold answer
      rw [hcommand]
    have hinvocation : invocation server q = [] := by
      unfold invocation
      rw [hcommand]
    have hflows' : Flows (REPLY_HEAD_SIZE + ((0 : UInt32).toNat + n)) answers := by
      rw [hanswer] at hflows
      rw [← Nat.add_assoc]
      exact hflows
    obtain ⟨answers', hsend, hleft⟩ := sxRpcApiSendReplyWrapper_spec (n := n) STATUS_ERROR none 0 rfl hflows'
    have hsend' : sxRpcApiSendReplyWrapper 1 none 0 answers = _ := hsend
    dsimp only
    rw [hsend', Option.map_some, Option.bind_some, serve_done _ rfl]
    refine ⟨_, rfl, ⟨?_, ?_, hopen, rfl, rfl, hbuf, rfl, rfl, rfl⟩, hleft⟩
    · rw [hinvocation, List.append_nil]
    · rw [hanswer]
      rfl
  | some priority =>
    have hanswer : answer server q = server.callbacks q.cmdHead.opcode.toInt32 (q.cmdBody.getD []) := by
      unfold answer
      rw [hcommand]
    have hinvocation : invocation server q = [(q.cmdHead.opcode.toInt32, q.cmdBody.getD [])] := by
      unfold invocation
      rw [hcommand]
    rw [hanswer] at hflows hwf
    obtain ⟨answers', hdispatch, hleft⟩ := sxRpcCoreApiDispatch_spec (n := n) priority
      (hhead ▸ hq.opcode : (CommandHead.ofBytes buffer).opcode ≠ CMD_CLOSE_EVENT_SRC)
      (by rw [hhead]; exact hcommand) rfl (by rw [hhead, hbody]; exact hwf)
      (by rw [hhead, hbody]; exact hflows)
    dsimp only
    rw [hdispatch, Option.map_some, Option.bind_some, serve_done _ rfl, hhead, hbody]
    refine ⟨_, rfl, ⟨?_, ?_, rfl, rfl, rfl, hbuf, rfl, rfl, rfl⟩, hleft⟩
    · rw [hinvocation]
      rfl
    · rw [hanswer]

/-! ## The client -/

/-- **A reply that fits** is received whole, and no more. -/
theorem receive_whole {answers : List IoAnswer} (q : Request) (head : ReplyHead) (body : List UInt8)
    (hsize : body.length = (head.msgSize - headSize REPLY_HEAD_SIZE).toNat)
    (hfits : head.msgSize - headSize REPLY_HEAD_SIZE ≤ q.replyBodySize)
    (h : Flows (REPLY_HEAD_SIZE + (body.length + n)) answers) :
    ∃ r, sxRpcReceiveMessage q.replyHead q.replyBody q.replyBodySize (head.bytes ++ body) answers = some r ∧
      r.status = STATUS_SUCCESS ∧ r.replyHead = head ∧ r.replyBody.take body.length = body ∧ r.stream = [] ∧
      Flows n r.answers := by
  obtain ⟨answers₁, hrecv, h₁⟩ := clCommchnlRecv_all head.bytes body (Nat.succ_pos 15) h
  have hhead : ReplyHead.ofBytes (writeAt q.replyHead.bytes 0 head.bytes) = head := ReplyHead.ofBytes_bytes head _
  unfold sxRpcReceiveMessage
  rw [ReplyHead.length_bytes] at hrecv
  rw [hrecv, Option.bind_some]
  dsimp only
  rw [hhead, if_neg (not_not.mpr rfl)]
  by_cases hzero : head.msgSize - headSize REPLY_HEAD_SIZE = 0
  · rw [hzero] at hsize
    have hnil : body = [] := List.eq_nil_of_length_eq_zero hsize
    subst hnil
    rw [if_pos hzero]
    exact ⟨_, rfl, rfl, rfl, rfl, rfl, h₁.le (Nat.le_add_left ..)⟩
  · have hpos : 0 < body.length := by
      rw [hsize]
      exact Nat.pos_of_ne_zero fun h0 => hzero (UInt32.toNat_inj.mp h0)
    obtain ⟨answers₂, hbody, h₂⟩ := clCommchnlRecv_all body [] hpos h₁
    rw [List.append_nil] at hbody
    rw [if_neg hzero, if_neg (UInt32.not_lt.mpr hfits), ← hsize, hbody, Option.map_some]
    refine ⟨_, rfl, rfl, rfl, ?_, rfl, h₂⟩
    have htake := take_writeAt q.replyBody body 0 (Nat.zero_le _)
    rwa [Nat.zero_add, List.take_zero, List.nil_append] at htake

/-- What the client makes of a reply. -/
theorem receive_reply {answers : List IoAnswer} (hwf : (answer server q).WellFormed)
    (h : Flows ((answer server q).bound + n) answers) :
    ∃ r, sxRpcReceiveMessage q.replyHead q.replyBody q.replyBodySize (answer server q).bytes answers = some r ∧
      match result server q with
      | none => r.status = STATUS_ERROR
      | some (retcode, body) => r.status = STATUS_SUCCESS ∧ r.replyHead.retcode.toInt32 = retcode ∧
          (retcode = STATUS_SUCCESS → r.replyBody.take (r.replyHead.msgSize - headSize REPLY_HEAD_SIZE).toNat = body) ∧
          r.stream = [] ∧ Flows n r.answers := by
  generalize hreply : answer server q = reply at hwf h ⊢
  have hresult : result server q = if reply.retcode ≠ STATUS_SUCCESS then some (reply.retcode, []) else
      if reply.size ≤ q.replyBodySize then some (STATUS_SUCCESS, reply.body.getD []) else none := by
    unfold result
    rw [hreply]
  unfold Reply.bound at h
  rw [Nat.add_assoc] at h
  by_cases hok : reply.retcode = STATUS_SUCCESS
  · have hbytes : reply.bytes = (⟨reply.retcode.toUInt32, 0, headSize REPLY_HEAD_SIZE + reply.size, 0⟩ :
        ReplyHead).bytes ++ reply.body.getD [] := if_pos hok
    rw [hresult, if_neg (not_not.mpr hok)]
    by_cases hfits : reply.size ≤ q.replyBodySize
    · obtain ⟨r, hrecv, hs, hhead, htake, hstream, hleft⟩ := receive_whole (n := n) q
        ⟨reply.retcode.toUInt32, 0, headSize REPLY_HEAD_SIZE + reply.size, 0⟩ (reply.body.getD [])
        (by rw [headSize_add_sub]; exact hwf hok) (by rw [headSize_add_sub]; exact hfits) (by rw [hwf hok]; exact h)
      rw [← hbytes] at hrecv
      rw [if_pos hfits]
      refine ⟨r, hrecv, hs, ?_, fun _ => ?_, hstream, hleft⟩
      · rw [hhead, ← hok]
        exact Int32.toInt32_toUInt32 _
      · rw [hhead]
        dsimp only
        rw [headSize_add_sub, ← hwf hok]
        exact htake
    · rw [if_neg hfits]
      exact receiveReply_overflow hok (UInt32.not_le.mp hfits) (h.le (by unfold Reply.bound; omega))
  · have hbytes : reply.bytes = (⟨reply.retcode.toUInt32, 0, headSize REPLY_HEAD_SIZE + 0, 0⟩ :
        ReplyHead).bytes ++ [] := by
      rw [List.append_nil]
      exact if_neg hok
    obtain ⟨r, hrecv, hs, hhead, -, hstream, hleft⟩ := receive_whole (n := n) q
      ⟨reply.retcode.toUInt32, 0, headSize REPLY_HEAD_SIZE + 0, 0⟩ []
      (by rw [headSize_add_sub]; rfl) (by rw [headSize_add_sub]; exact UInt32.zero_le)
      (h.le (Nat.add_le_add_left (Nat.add_le_add_right (Nat.zero_le _) n) _))
    rw [← hbytes] at hrecv
    rw [hresult, if_pos hok]
    refine ⟨r, hrecv, hs, ?_, fun he => absurd he hok, hstream, hleft⟩
    rw [hhead]
    exact Int32.toInt32_toUInt32 _

/-! ## Calls -/

/-- A session that is ready, with as many answers of the kernel as the calls to come may need. -/
structure Serving (server : Server) (n : Nat) (s : Session) : Prop where
  ready : s.Ready server
  client : Flows n s.clientAnswers
  server : Flows n s.serverAnswers

/-- **A call over a handle that is valid**: the caller gets what the service answers. -/
theorem callStep_valid (h : Serving server (cost server q + n) s) (hq : q.Valid server) :
    ∃ c s', callStep server s q = some (c, s') ∧ Answered server true s q c s' (result server q).isSome ∧
      if (result server q).isSome then Serving server n s' else s'.valid = false := by
  obtain ⟨⟨hvalid, hopen, htoServer, htoClient, hpos, hbuffer⟩, hclient, hserver⟩ := h
  -- the client sends its message
  have hbody : (q.cmdBody.getD []).length = (q.cmdHead.msgSize - headSize COMMAND_HEAD_SIZE).toNat := by
    have hle : headSize COMMAND_HEAD_SIZE ≤ q.cmdHead.msgSize := by
      rw [UInt32.le_iff_toNat_le, hq.size]
      exact Nat.le_add_right _ _
    rw [UInt32.toNat_sub_of_le _ _ hle, hq.size]
    exact (Nat.add_sub_cancel_left ..).symm
  have hflows : Flows (({ q.cmdHead with pid := s.pid } : CommandHead).bytes.length +
      ((q.cmdHead.msgSize - headSize COMMAND_HEAD_SIZE).toNat +
        ((answer server q).bound + n))) s.clientAnswers := by
    rw [CommandHead.length_bytes, ← hbody, ← Nat.add_assoc, ← hq.size, ← Nat.add_assoc]
    exact hclient
  obtain ⟨answers, hsend, hleft⟩ := rpcSendMessage_spec hbody hflows
  -- the server handles it
  obtain ⟨s₁, hserve, hhandled, hserver₁⟩ := serve_request (n := n)
    { s with
      toServer := s.toServer ++ (({ q.cmdHead with pid := s.pid } : CommandHead).bytes ++ q.cmdBody.getD [])
      clientAnswers := answers } hopen hpos hbuffer (by dsimp only; rw [htoServer]; rfl) hq hserver
  have hcalls : s₁.calls = s.calls ++ invocation server q := hhandled.calls
  have hstream : s₁.toClient = (answer server q).bytes := by
    rw [hhandled.toClient, htoClient, List.nil_append]
  have hrecv : s₁.recvAnswers = answers := by
    unfold Session.recvAnswers
    rw [if_neg, hhandled.clientAnswers]
    rw [hhandled.closed]
    exact fun hc => Bool.noConfusion hc.1
  -- the client makes of the reply what it can
  obtain ⟨r, hr, hresult⟩ := receive_reply (n := n) hq.reply hleft
  have hsent : sxRpcSendCommandDecoupled server s q.cmdHead q.cmdBody q.replyHead q.replyBody q.replyBodySize =
      some (if r.status ≠ STATUS_SUCCESS then ⟨r.status, r.replyHead, r.replyBody,
          { s₁ with toClient := r.stream, clientAnswers := r.answers, valid := false }⟩
        else ⟨r.replyHead.retcode.toInt32, r.replyHead, r.replyBody,
          { s₁ with toClient := r.stream, clientAnswers := r.answers }⟩) := by
    unfold sxRpcSendCommandDecoupled
    rw [if_neg (by rw [hvalid]; exact Bool.noConfusion), hsend, Option.bind_some]
    dsimp only
    rw [if_neg (not_not.mpr rfl), hserve, Option.bind_some, hstream, hrecv, hr, Option.map_some]
  unfold callStep Answered
  cases hres : result server q with
  | none =>
    rw [hres] at hresult
    have hfails : r.status ≠ STATUS_SUCCESS := by
      rw [hresult]
      exact error_ne_success
    rw [if_pos hfails] at hsent
    rw [hsent, Option.map_some]
    exact ⟨_, _, rfl, ⟨hcalls, rfl, hresult⟩, rfl⟩
  | some res =>
    obtain ⟨retcode, body⟩ := res
    rw [hres] at hresult
    obtain ⟨hs, hretcode, hbody, hend, hleft₁⟩ := hresult
    rw [if_neg (not_not.mpr hs)] at hsent
    rw [hsent, Option.map_some]
    exact ⟨_, _, rfl, ⟨hcalls, rfl, hretcode, hbody⟩, ⟨⟨hhandled.valid.trans hvalid, hhandled.closed,
      hhandled.toServer, hend, hhandled.pos, hhandled.length_buffer⟩, hleft₁, hserver₁⟩⟩

/-- **A call over a handle that is not valid** does not get to the server. -/
theorem callStep_invalid (h : s.valid = false) (q : Request) :
    ∃ c, callStep server s q = some (c, s) ∧ Answered server false s q c s false := by
  unfold callStep
  rw [sxRpcSendCommandDecoupled_invalid h, Option.map_some]
  exact ⟨_, rfl, rfl, rfl, rfl⟩

/-! ## Conversations -/

/-- **An open** of a connection that is accepted returns a handle. -/
theorem sxRpcOpen_spec {versions : List UInt8} {sys : OpenAnswers} (hs : Accepted server versions s)
    (hsys : sys = ⟨true, true, true, true⟩) (hclient : Flows (VERSIONS_SIZE + n) s.clientAnswers)
    (hserver : Flows n s.serverAnswers) :
    ∃ s₁, sxRpcOpen sys s = some ⟨STATUS_SUCCESS, some s₁, 1, 1⟩ ∧ Serving server n s₁ ∧ s₁.calls = s.calls := by
  obtain ⟨hopen, htoServer, htoClient, hversions, hpos, hbuffer⟩ := hs
  have hpositive : 0 < versions.length := by
    rw [hversions]
    decide
  rw [← hversions] at hclient
  obtain ⟨answers, hrecv, hleft⟩ := clCommchnlRecv_all versions [] hpositive hclient
  rw [List.append_nil, hversions] at hrecv
  have hanswers : s.recvAnswers = s.clientAnswers := by
    unfold Session.recvAnswers
    rw [if_neg]
    rw [hopen]
    exact fun hc => Bool.noConfusion hc.1
  subst hsys
  unfold sxRpcOpen
  simp only [Bool.true_eq_false, if_false]
  rw [htoClient, hanswers, hrecv, Option.map_some, if_neg (not_not.mpr rfl)]
  exact ⟨_, rfl, ⟨⟨rfl, hopen, htoServer, rfl, hpos, hbuffer⟩, hleft, hserver⟩, rfl⟩

/-- **A conversation is one with the service.**  A client opens a handle and makes any calls over it that do not close
the connection, while the kernel splits the streams in any way.  Each call returns the result and the reply of the
callback of its command, which is called once with the body of the command; a command that is not registered returns
an error.  The first reply that does not fit breaks the handle: that call returns an error, all later ones
`SX_RPC_STATUS_INVALID_HANDLE`, and no callback is called any more. -/
theorem conversation_served (server : Server) (versions : List UInt8) (s : Session) (requests : List Request)
    (hs : Accepted server versions s) (hvalid : ∀ q ∈ requests, q.Valid server)
    (hclient : Flows (VERSIONS_SIZE + (requests.map (cost server)).sum) s.clientAnswers)
    (hserver : Flows (requests.map (cost server)).sum s.serverAnswers) :
    ∃ s₁ rs, sxRpcOpen ⟨true, true, true, true⟩ s = some ⟨STATUS_SUCCESS, some s₁, 1, 1⟩ ∧ s₁.calls = s.calls ∧
      trace (callStep server) s₁ requests = some rs ∧
      Follows (fun valid s => s.valid = valid) (Answered server) true s₁ requests rs := by
  obtain ⟨s₁, hopen, hserving, hcalls⟩ := sxRpcOpen_spec hs rfl hclient hserver
  obtain ⟨rs, hrs, hfollows⟩ : ∃ rs, trace (callStep server) s₁ requests = some rs ∧
      Follows (fun valid s => s.valid = valid) (Answered server) true s₁ requests rs := by
    apply exists_follows (R := fun requests valid s => (∀ q ∈ requests, q.Valid server) ∧
      if valid then Serving server (requests.map (cost server)).sum s else s.valid = false)
    · intro requests valid s h
      cases valid with
      | true => exact h.2.ready.valid
      | false => exact h.2
    · intro q requests valid s h
      obtain ⟨hall, h⟩ := h
      have hrest : ∀ q ∈ requests, q.Valid server := fun q hq => hall q (List.mem_cons_of_mem _ hq)
      cases valid with
      | true =>
        rw [List.map_cons, List.sum_cons] at h
        obtain ⟨c, s', hstep, hanswered, hnext⟩ := callStep_valid h (hall q (List.mem_cons_self ..))
        exact ⟨c, s', _, hstep, hanswered, hrest, hnext⟩
      | false =>
        obtain ⟨c, hstep, hanswered⟩ := callStep_invalid h q
        exact ⟨c, s, false, hstep, hanswered, hrest, h⟩
    · exact ⟨hvalid, hserving⟩
  exact ⟨s₁, rs, hopen, hcalls, hrs, hfollows⟩

end

/-- A server with one command, which sends back what it is given. -/
def oneCommandServer : Server :=
  ⟨32, fun opcode => if opcode = 7 then some .low else none, fun _ body => ⟨0, some body, UInt32.ofNat body.length⟩⟩

/-- A connection that has been accepted, over which the kernel moves at most three bytes at a time. -/
def acceptedSession : Session :=
  ⟨false, 77, flowing (List.replicate 300 2), flowing (List.replicate 300 2), List.replicate 32 0, 0, false, [],
    List.replicate 60 65, []⟩

/-- A command, one that is not registered, one whose reply does not fit, and one more. -/
def sampleRequests : List Request :=
  [⟨⟨7, 0, 23, 0, 0⟩, some [1, 2, 3], ⟨0, 0, 0, 0⟩, List.replicate 8 0, 8⟩,
    ⟨⟨9, 0, 20, 0, 0⟩, none, ⟨0, 0, 0, 0⟩, [], 0⟩,
    ⟨⟨7, 0, 22, 0, 0⟩, some [4, 5], ⟨0, 0, 0, 0⟩, [0], 1⟩, ⟨⟨7, 0, 21, 0, 0⟩, some [6], ⟨0, 0, 0, 0⟩, [0], 1⟩]

theorem sampleRequests_valid : ∀ q ∈ sampleRequests, q.Valid oneCommandServer := by
  have hall : ∀ q ∈ sampleRequests, q.cmdHead.opcode ≠ CMD_CLOSE_EVENT_SRC ∧
      q.cmdHead.msgSize.toNat = COMMAND_HEAD_SIZE + (q.cmdBody.getD []).length ∧
      q.cmdHead.msgSize.toNat ≤ oneCommandServer.maxBufferSize ∧ (answer oneCommandServer q).WellFormed := by
    decide
  intro q hq
  obtain ⟨hopcode, hsize, hmax, hreply⟩ := hall q hq
  exact ⟨hopcode, hsize, hmax, hreply⟩

theorem conversation_served_sample : ∃ s₁ rs,
    sxRpcOpen ⟨true, true, true, true⟩ acceptedSession = some ⟨STATUS_SUCCESS, some s₁, 1, 1⟩ ∧
      s₁.calls = acceptedSession.calls ∧ trace (callStep oneCommandServer) s₁ sampleRequests = some rs ∧
      Follows (fun valid s => s.valid = valid) (Answered oneCommandServer) true s₁ sampleRequests rs :=
  conversation_served oneCommandServer (List.replicate 60 65) acceptedSession sampleRequests
    ⟨rfl, rfl, rfl, by decide, rfl, by decide⟩ sampleRequests_valid
    ⟨List.replicate 300 2, rfl, by rw [List.length_replicate]; decide⟩
    ⟨List.replicate 300 2, rfl, by rw [List.length_replicate]; decide⟩

end MlnxLib.SxRpc
