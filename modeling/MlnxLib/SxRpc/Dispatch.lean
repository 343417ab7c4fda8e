import MlnxLib.Complib.CommChnl
import MlnxLib.SxRpc.Defs

/-!
# Sending messages and dispatching commands

Model of `rpc_send_message`, `sx_rpc_api_send_reply`, `sx_rpc_api_send_reply_wrapper` and
`sx_rpc_core_api_dispatch` of `sx_rpc_common.c`.

* `Commands` — the command table: the priority of each registered command.
* `Reply` — what a registered callback returns and leaves in `*snd_body` and `*snd_len`; a callback is a
  function of the body it is given.
* `Dispatched` — the result of a dispatch, with the call of a callback and the bytes sent.

Principal results: `rpcSendMessage_spec` — a message goes out whole; `sxRpcCoreApiDispatch_spec` — the
callback of the command is called once with the body of the command, and its reply is sent.
-/

set_option autoImplicit false

namespace MlnxLib.SxRpc

open Bytes Complib

/-! ## Messages -/

/-- What `rpc_send_message` leaves. -/
structure Sent where
  status : Int32
  sent : List UInt8
  answers : List IoAnswer
  deriving DecidableEq, Repr

/-- `rpc_send_message`; `body = none` is the null pointer. -/
def rpcSendMessage (header : List UInt8) (body : Option (List UInt8)) (bodySize : UInt32)
    (answers : List IoAnswer) : Option Sent :=
  (clCommchnlSend header answers).bind fun h =>
    if h.status ≠ .success then some ⟨STATUS_ERROR, h.sent, h.answers⟩ else
    match body with
    | none => some ⟨STATUS_SUCCESS, h.sent, h.answers⟩
    | some body =>
      (clCommchnlSend (body.take bodySize.toNat) h.answers).map fun b =>
        ⟨if b.status ≠ .success then STATUS_ERROR else STATUS_SUCCESS, h.sent ++ b.sent, b.answers⟩

/-- `sizeof` of a head, in the arithmetic of the size fields. -/
def headSize (size : Nat) : UInt32 := UInt32.ofNat size

/-- `sx_rpc_api_send_reply_wrapper` and the `sx_rpc_api_send_reply` it calls. -/
def sxRpcApiSendReplyWrapper (retcode : Int32) (replyBody : Option (List UInt8)) (replyBodySize : UInt32)
    (answers : List IoAnswer) : Option Sent :=
  let head : ReplyHead := ⟨retcode.toUInt32, 0, headSize REPLY_HEAD_SIZE + replyBodySize, 0⟩
  rpcSendMessage head.bytes replyBody (head.msgSize - headSize REPLY_HEAD_SIZE) answers

/-- **A message goes out whole** over a channel without errors. -/
theorem rpcSendMessage_spec {header : List UInt8} {body : Option (List UInt8)} {bodySize : UInt32}
    {n : Nat} {answers : List IoAnswer} (hsize : (body.getD []).length = bodySize.toNat)
    (h : Flows (header.length + (bodySize.toNat + n)) answers) :
    ∃ answers', rpcSendMessage header body bodySize answers =
        some ⟨STATUS_SUCCESS, header ++ body.getD [], answers'⟩ ∧ Flows n answers' := by
  obtain ⟨answers₁, hhead, h₁⟩ := clCommchnlSend_spec header h
  unfold rpcSendMessage
  rw [hhead, Option.bind_some, if_neg (not_not.mpr rfl)]
  cases body with
  | none =>
    refine ⟨answers₁, ?_, h₁.le (Nat.le_add_left _ _)⟩
    rw [Option.getD_none, List.append_nil]
  | some body =>
    rw [Option.getD_some] at hsize
    rw [← hsize] at h₁
    obtain ⟨answers₂, hbody, h₂⟩ := clCommchnlSend_spec body h₁
    refine ⟨answers₂, ?_, h₂⟩
    show (clCommchnlSend (body.take bodySize.toNat) answers₁).map _ = _
    rw [← hsize, List.take_length, hbody, Option.map_some, if_neg (not_not.mpr rfl), Option.getD_some]

/-! ## Dispatch -/

/-- The command table, `cmd_map`: the priority of each command that is registered. -/
abbrev Commands := Int32 → Option CmdPriority

/-- What a callback returns, and what it leaves in `*snd_body` and `*snd_len`. -/
structure Reply where
  retcode : Int32
  body : Option (List UInt8)
  size : UInt32
  deriving DecidableEq, Repr

/-- A callback that succeeds leaves a body of the size it says, which may be null when it is empty. -/
def Reply.WellFormed (reply : Reply) : Prop :=
  reply.retcode = STATUS_SUCCESS → (reply.body.getD []).length = reply.size.toNat

instance (reply : Reply) : Decidable reply.WellFormed := by
  unfold Reply.WellFormed
  infer_instance

/-- The callbacks, by command. -/
abbrev Callbacks := Int32 → List UInt8 → Reply

/-- What `sx_rpc_core_api_dispatch` leaves: its result, the callback it called with the body it gave
it, the bytes it sent and the answers that are left. -/
structure Dispatched where
  err : Int32
  called : Option (Int32 × List UInt8)
  sent : List UInt8
  answers : List IoAnswer
  deriving DecidableEq, Repr

/-- The result of a dispatch is that of its last send. -/
def Sent.dispatched (called : Option (Int32 × List UInt8)) (s : Sent) : Dispatched :=
  ⟨s.status, called, s.sent, s.answers⟩

/-- The body of the command in a buffer. -/
def commandBody (buffer : List UInt8) : List UInt8 :=
  (buffer.drop COMMAND_HEAD_SIZE).take
    ((CommandHead.ofBytes buffer).msgSize - headSize COMMAND_HEAD_SIZE).toNat

/-- `sx_rpc_core_api_dispatch` of the command in a buffer, from the queue of some priority. -/
def sxRpcCoreApiDispatch (commands : Commands) (callbacks : Callbacks) (buffer : List UInt8)
    (bufferType : CmdPriority) (answers : List IoAnswer) : Option Dispatched :=
  let head := CommandHead.ofBytes buffer
  if bufferType = .high ∧ head.opcode = CMD_CLOSE_EVENT_SRC then
    some ⟨STATUS_INT_COMM_CLOSE, none, [], answers⟩
  else
    match commands head.opcode.toInt32 with
    | none => (sxRpcApiSendReplyWrapper STATUS_ERROR none 0 answers).map (Sent.dispatched none)
    | some _ =>
      let reply := callbacks head.opcode.toInt32 (commandBody buffer)
      (if reply.retcode = STATUS_SUCCESS then
          sxRpcApiSendReplyWrapper reply.retcode reply.body reply.size answers
        else sxRpcApiSendReplyWrapper reply.retcode none 0 answers).map
        (Sent.dispatched (some (head.opcode.toInt32, commandBody buffer)))

/-- The priority of the queue that `sx_rpc_client_handler` puts a command in. -/
def queuePriority (commands : Commands) (opcode : UInt32) : Option CmdPriority :=
  if opcode ≠ CMD_CLOSE_EVENT_SRC then commands opcode.toInt32 else some .high

/-- The command to close its event source, which `sx_rpc_client_handler` writes into the buffer when a
receive fails. -/
def putCloseCommand (buffer : List UInt8) : List UInt8 :=
  writeAt (writeAt (writeAt buffer 0 (le32 CMD_CLOSE_EVENT_SRC)) 8 (le32 (headSize COMMAND_HEAD_SIZE))) 12
    (le32 0)

theorem opcode_putCloseCommand (buffer : List UInt8) :
    (CommandHead.ofBytes (putCloseCommand buffer)).opcode = CMD_CLOSE_EVENT_SRC := by
  have hfirst : 4 ≤ (writeAt buffer 0 (le32 CMD_CLOSE_EVENT_SRC)).length := by
    show 4 ≤ (le32 CMD_CLOSE_EVENT_SRC ++ buffer.drop 4).length
    rw [List.length_append]
    exact Nat.le_add_right _ _
  have hsecond := Nat.le_trans hfirst (length_le_writeAt _ (le32 (headSize COMMAND_HEAD_SIZE)) 8)
  show wordAt (putCloseCommand buffer) 0 = _
  unfold putCloseCommand
  -- the first write is the opcode, and the later ones are behind it
  rw [wordAt_writeAt_of_le (by decide) hsecond, wordAt_writeAt_of_le (by decide) hfirst,
    wordAt_writeAt_self _ (Nat.zero_le _)]

theorem length_putCloseCommand {buffer : List UInt8} (h : COMMAND_HEAD_SIZE ≤ buffer.length) :
    (putCloseCommand buffer).length = buffer.length := by
  have hsize : 20 ≤ buffer.length := h
  have hle : ∀ x : UInt32, (le32 x).length = 4 := fun _ => rfl
  unfold putCloseCommand
  have h₁ : (writeAt buffer 0 (le32 CMD_CLOSE_EVENT_SRC)).length = buffer.length :=
    length_writeAt (by rw [hle]; omega)
  have h₂ : (writeAt (writeAt buffer 0 (le32 CMD_CLOSE_EVENT_SRC)) 8 (le32 (headSize COMMAND_HEAD_SIZE))).length =
      (writeAt buffer 0 (le32 CMD_CLOSE_EVENT_SRC)).length :=
    length_writeAt (by rw [hle]; omega)
  rw [length_writeAt (by rw [hle]; omega), h₂, h₁]

/-- The command to close has no body. -/
theorem msgSize_putCloseCommand {buffer : List UInt8} (h : COMMAND_HEAD_SIZE ≤ buffer.length) :
    (CommandHead.ofBytes (putCloseCommand buffer)).msgSize = headSize COMMAND_HEAD_SIZE := by
  have hsize : 20 ≤ buffer.length := h
  have hfirst := Nat.le_trans hsize (length_le_writeAt buffer (le32 CMD_CLOSE_EVENT_SRC) 0)
  have hsecond := Nat.le_trans hfirst (length_le_writeAt _ (le32 (headSize COMMAND_HEAD_SIZE)) 8)
  show wordAt (putCloseCommand buffer) 8 = _
  unfold putCloseCommand
  -- the last write is behind the size
  rw [wordAt_writeAt_of_le (by decide) (by omega), wordAt_writeAt_self _ (by omega)]

/-- The bytes of a reply, its head first; only a callback that succeeds has a body. -/
def Reply.bytes (reply : Reply) : List UInt8 :=
  if reply.retcode = STATUS_SUCCESS then
    (⟨reply.retcode.toUInt32, 0, headSize REPLY_HEAD_SIZE + reply.size, 0⟩ : ReplyHead).bytes ++
      reply.body.getD []
  else (⟨reply.retcode.toUInt32, 0, headSize REPLY_HEAD_SIZE + 0, 0⟩ : ReplyHead).bytes

/-- The number of bytes that a reply needs at most. -/
def Reply.bound (reply : Reply) : Nat := REPLY_HEAD_SIZE + reply.size.toNat

theorem sxRpcApiSendReplyWrapper_spec (retcode : Int32) (body : Option (List UInt8)) (size : UInt32) {n : Nat}
    {answers : List IoAnswer} (hsize : (body.getD []).length = size.toNat)
    (h : Flows (REPLY_HEAD_SIZE + (size.toNat + n)) answers) :
    ∃ answers', sxRpcApiSendReplyWrapper retcode body size answers =
        some ⟨STATUS_SUCCESS, (⟨retcode.toUInt32, 0, headSize REPLY_HEAD_SIZE + size, 0⟩ : ReplyHead).bytes ++
          body.getD [], answers'⟩ ∧ Flows n answers' := by
  unfold sxRpcApiSendReplyWrapper
  -- the size of the body comes back, whatever the sum wraps to
  have hwrap : headSize REPLY_HEAD_SIZE + size - headSize REPLY_HEAD_SIZE = size := by
    rw [UInt32.add_comm, UInt32.add_sub_cancel]
  dsimp only
  rw [hwrap]
  exact rpcSendMessage_spec hsize h

/-- **A dispatch** calls the callback of its command once, with the body of the command, and sends what
it returns. -/
theorem sxRpcCoreApiDispatch_spec (bufferType : CmdPriority) {commands : Commands} {callbacks : Callbacks}
    {buffer : List UInt8} {priority : CmdPriority} {n : Nat} {answers : List IoAnswer} {reply : Reply}
    (hopcode : (CommandHead.ofBytes buffer).opcode ≠ CMD_CLOSE_EVENT_SRC)
    (hcommand : commands (CommandHead.ofBytes buffer).opcode.toInt32 = some priority)
    (hreply : callbacks (CommandHead.ofBytes buffer).opcode.toInt32 (commandBody buffer) = reply)
    (hwf : reply.WellFormed) (h : Flows (reply.bound + n) answers) :
    ∃ answers', sxRpcCoreApiDispatch commands callbacks buffer bufferType answers =
        some ⟨STATUS_SUCCESS, some ((CommandHead.ofBytes buffer).opcode.toInt32, commandBody buffer),
          reply.bytes, answers'⟩ ∧ Flows n answers' := by
  unfold sxRpcCoreApiDispatch Reply.bytes
  unfold Reply.bound at h
  rw [Nat.add_assoc] at h
  dsimp only
  rw [if_neg fun hclose => hopcode hclose.2, hcommand]
  dsimp only
  rw [hreply]
  by_cases hok : reply.retcode = STATUS_SUCCESS
  · obtain ⟨answers', hsend, hflows⟩ := sxRpcApiSendReplyWrapper_spec reply.retcode reply.body reply.size
      (hwf hok) h
    rw [if_pos hok, if_pos hok, hsend]
    exact ⟨answers', rfl, hflows⟩
  · obtain ⟨answers', hsend, hflows⟩ := sxRpcApiSendReplyWrapper_spec reply.retcode none 0 rfl
      (h.le (Nat.add_le_add_left (Nat.add_le_add_right (Nat.zero_le _) n) _))
    rw [if_neg hok, if_neg hok, hsend, Option.getD_none, List.append_nil]
    exact ⟨answers', rfl, hflows⟩

end MlnxLib.SxRpc
