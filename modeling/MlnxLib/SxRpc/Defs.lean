import MlnxLib.Lib.Bytes

/-!
# The RPC of complib: status codes and message heads

* the status codes, priorities and the internal opcode of `sx_rpc.h`; a C `int` is an `Int32`;
* `CommandHead`, `ReplyHead` — the heads that go before the body of a command and of a reply, and
  their bytes in memory, the lowest byte of a word first.

Principal results: `CommandHead.ofBytes_bytes`, `ReplyHead.ofBytes_bytes` — a head is read back from
its bytes.
-/

set_option autoImplicit false

namespace MlnxLib.SxRpc

open Bytes

/-! ## Constants -/

/-- `SX_RPC_STATUS_SUCCESS`. -/
def STATUS_SUCCESS : Int32 := 0

/-- `SX_RPC_STATUS_ERROR`. -/
def STATUS_ERROR : Int32 := 1

/-- `SX_RPC_STATUS_CMD_INCOMPLETE`. -/
def STATUS_CMD_INCOMPLETE : Int32 := 4

/-- `SX_RPC_STATUS_INT_COMM_CLOSE`. -/
def STATUS_INT_COMM_CLOSE : Int32 := 6

/-- `SX_RPC_STATUS_INVALID_HANDLE`. -/
def STATUS_INVALID_HANDLE : Int32 := 7

/-- `SX_RPC_API_CMD_CLOSE_EVENT_SRC`, the opcode of the command to close an event source. -/
def CMD_CLOSE_EVENT_SRC : UInt32 := 1

/-- `sx_rpc_cmd_priority_t`; the ring buffers of the worker thread have the same numbers. -/
inductive CmdPriority where
  | low
  | medium
  | high
  deriving DecidableEq, Repr

/-! ## Message heads -/

/-- `sx_rpc_api_command_head_t`. -/
structure CommandHead where
  opcode : UInt32
  version : UInt32
  msgSize : UInt32
  listSize : UInt32
  pid : Int32
  deriving DecidableEq, Repr

/-- `sx_rpc_api_reply_head_t`. -/
structure ReplyHead where
  retcode : UInt32
  version : UInt32
  msgSize : UInt32
  listSize : UInt32
  deriving DecidableEq, Repr

/-- `sizeof(sx_rpc_api_command_head_t)`. -/
def COMMAND_HEAD_SIZE : Nat := 20

/-- `sizeof(sx_rpc_api_reply_head_t)`. -/
def REPLY_HEAD_SIZE : Nat := 16

/-- A command head in memory. -/
def CommandHead.bytes (head : CommandHead) : List UInt8 :=
  le32 head.opcode ++ (le32 head.version ++ (le32 head.msgSize ++ (le32 head.listSize ++
    le32 head.pid.toUInt32)))

/-- The command head at the start of a buffer. -/
def CommandHead.ofBytes (buffer : List UInt8) : CommandHead :=
  ⟨wordAt buffer 0, wordAt buffer 4, wordAt buffer 8, wordAt buffer 12, (wordAt buffer 16).toInt32⟩

/-- A reply head in memory. -/
def ReplyHead.bytes (head : ReplyHead) : List UInt8 :=
  le32 head.retcode ++ (le32 head.version ++ (le32 head.msgSize ++ le32 head.listSize))

/-- The reply head at the start of a buffer. -/
def ReplyHead.ofBytes (buffer : List UInt8) : ReplyHead :=
  ⟨wordAt buffer 0, wordAt buffer 4, wordAt buffer 8, wordAt buffer 12⟩

@[simp] theorem CommandHead.length_bytes (head : CommandHead) : head.bytes.length = COMMAND_HEAD_SIZE := rfl

@[simp] theorem ReplyHead.length_bytes (head : ReplyHead) : head.bytes.length = REPLY_HEAD_SIZE := rfl

/-- A word after the first one. -/
theorem wordAt_le32_append (x : UInt32) (memory : List UInt8) {offset : Nat} (h : 4 ≤ offset) :
    wordAt (le32 x ++ memory) offset = wordAt memory (offset - 4) := by
  have happend := wordAt_append (le32 x) memory (offset - 4)
  rwa [show (le32 x).length + (offset - 4) = offset from Nat.add_sub_cancel' h] at happend

/-- **A command head is read back from its bytes.** -/
theorem CommandHead.ofBytes_bytes (head : CommandHead) (body : List UInt8) :
    CommandHead.ofBytes (head.bytes ++ body) = head := by
  obtain ⟨opcode, version, msgSize, listSize, pid⟩ := head
  unfold CommandHead.ofBytes CommandHead.bytes
  simp only [List.append_assoc, wordAt_le32, wordAt_le32_append, Nat.reduceLeDiff, Nat.reduceSub,
    Int32.toInt32_toUInt32]

/-- **A reply head is read back from its bytes.** -/
theorem ReplyHead.ofBytes_bytes (head : ReplyHead) (body : List UInt8) :
    ReplyHead.ofBytes (head.bytes ++ body) = head := by
  obtain ⟨retcode, version, msgSize, listSize⟩ := head
  unfold ReplyHead.ofBytes ReplyHead.bytes
  simp only [List.append_assoc, wordAt_le32, wordAt_le32_append, Nat.reduceLeDiff, Nat.reduceSub]

/-- The head of a buffer is decided by its first bytes. -/
theorem CommandHead.ofBytes_congr {buffer buffer' : List UInt8} {n : Nat}
    (h : buffer.take n = buffer'.take n) (hn : COMMAND_HEAD_SIZE ≤ n) :
    CommandHead.ofBytes buffer = CommandHead.ofBytes buffer' := by
  have hsize : 20 ≤ n := hn
  unfold CommandHead.ofBytes
  rw [wordAt_congr h (by omega), wordAt_congr h (by omega), wordAt_congr h (by omega),
    wordAt_congr h (by omega), wordAt_congr h (by omega)]

end MlnxLib.SxRpc
