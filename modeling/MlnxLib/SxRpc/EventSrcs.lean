import MlnxLib.Lib.Runs
import MlnxLib.SxRpc.Dispatch
import MlnxLib.SxRpc.Receive
import MlnxLib.SxRpc.WorkQueue

/-!
# The event sources of the RPC server

Model of the threads of `sx_rpc_common.c` that share the event sources: the select thread
(`sx_rpc_select_event`, `sx_rpc_client_handler`, `sx_rpc_accept_connection`, `sx_rpc_add_event_src`) and
the worker thread (`sx_rpc_worker_thread`, `sx_rpc_core_api_dispatch`, `close_event_src`), with any
number of clients and the descriptors of the kernel.

* `EventSrc`, `Conn` — an event source of the server, and a connection as its client sees it.
* `SelectPc`, `DispatchPc` — where the two threads stand; each access to what they share is a step.
* `Rpc` — the state of all of them, with a record of what has been pushed, taken, answered and closed.
* `RpcEvent`, `rpcStep` — what happens next, and whether it can.

Event source 0 is the one of the listening socket and stays active; it is left out of the table.  The
event that the worker waits for is left out too: the wait may return at any time, and the worker then
only looks into the rings again.

Principal result: `sxRpcCoreApiDispatch_called` — what the worker does with a command here is what
`sx_rpc_core_api_dispatch` does.
-/

set_option autoImplicit false

namespace MlnxLib.SxRpc

open Bytes CircularQueue Complib

/-! ## State -/

/-- `sx_rpc_event_src_state_t`. -/
inductive EventSrcState where
  | notActive
  | terminating
  | active
  deriving DecidableEq, Repr

/-- `sx_rpc_core_td_event_src_t`, with the socket of its channel and whether the channel is initialised. -/
structure EventSrc where
  state : EventSrcState
  buffer : List UInt8
  pos : Nat
  socket : Nat
  inited : Bool
  deriving DecidableEq, Repr

/-- A command, as its callback gets it. -/
abbrev Command := Int32 × List UInt8

/-- The command in a message. -/
def commandOf (message : List UInt8) : Command :=
  ((CommandHead.ofBytes message).opcode.toInt32, commandBody message)

/-- A connection. -/
structure Conn where
  /-- The client has not disconnected. -/
  up : Bool
  /-- The client waits for a reply. -/
  awaiting : Bool
  /-- The bytes under way to the server. -/
  stream : List UInt8
  /-- The server has closed the connection. -/
  closed : Bool
  /-- The server has closed the connection at once, without room for it. -/
  refused : Bool
  /-- The requests that the client has sent. -/
  sent : List (List UInt8)
  /-- The commands that the server has received on it. -/
  received : List Command
  /-- The callbacks called for it. -/
  handled : List Command
  deriving DecidableEq, Repr

/-- A new connection. -/
def newConn : Conn := ⟨true, false, [], false, false, [], [], []⟩

/-- Where the select thread stands. -/
inductive SelectPc where
  /-- In `select`, or in the loop over the event sources. -/
  | idle
  /-- The handler of this event source is called. -/
  | handling (i : Nat)
  /-- `sx_rpc_client_handler` has a command, or the one to close, in the buffer. -/
  | queue (i : Nat) (origin : Option Nat)
  /-- `sx_rpc_accept_connection` is about to send the versions. -/
  | handshake (socket : Nat)
  deriving DecidableEq, Repr

/-- Where the worker thread stands. -/
inductive DispatchPc where
  /-- Before the test of this ring. -/
  | check (b : CmdPriority)
  /-- `event` is taken from this ring, and not looked at yet. -/
  | taken (b : CmdPriority) (i : Nat)
  /-- The command has been looked at; a reply is due for this connection. -/
  | replying (b : CmdPriority) (i : Nat) (origin : Option Nat)
  /-- Before `close_event_src`. -/
  | closing (b : CmdPriority) (i : Nat)
  /-- Before the update of `work_queue_cons`. -/
  | finishing (b : CmdPriority)
  deriving DecidableEq, Repr

/-- The server, its clients and the kernel. -/
structure Rpc where
  srcs : Nat → EventSrc
  /-- The connections of the open descriptors. -/
  fds : Nat → Option Nat
  conns : Nat → Conn
  numConns : Nat
  /-- The connections that wait to be accepted. -/
  backlog : List Nat
  rings : CmdPriority → RingBuffer Nat
  select : SelectPc
  worker : DispatchPc
  /-- The event sources pushed into and taken from each ring so far. -/
  pushed : CmdPriority → List Nat
  taken : CmdPriority → List Nat
  /-- For each reply, the connection that it answers and the one that it went to. -/
  replies : List (Option Nat × Nat)
  /-- The callbacks called for no connection. -/
  stray : List Command

/-- The server after its start, with what `cl_malloc` left in the buffers. -/
def openRpc (buffers : Nat → List UInt8) : Rpc where
  srcs i := ⟨.notActive, buffers i, 0, 0, false⟩
  fds _ := none
  conns _ := newConn
  numConns := 0
  backlog := []
  rings := openRings 0
  select := .idle
  worker := .check .high
  pushed _ := []
  taken _ := []
  replies := []
  stray := []

/-- Change an event source. -/
def Rpc.setSrc (s : Rpc) (i : Nat) (src : EventSrc) : Rpc :=
  { s with srcs := Function.update s.srcs i src }

/-- Change a connection. -/
def Rpc.setConn (s : Rpc) (c : Nat) (conn : Conn) : Rpc :=
  { s with conns := Function.update s.conns c conn }

/-! ## The select thread -/

/-- A failed receive: the event source is terminating, and its buffer has the command to close it. -/
def terminate (s : Rpc) (i : Nat) (origin : Option Nat) : Rpc :=
  { s.setSrc i { s.srcs i with
      state := .terminating
      buffer := putCloseCommand (s.srcs i).buffer } with
    select := .queue i origin }

/-- What a receive leaves in its event source and on its connection. -/
def receivedOn (s : Rpc) (i c : Nat) (r : Received) : Rpc :=
  (s.setSrc i { s.srcs i with buffer := r.buffer, pos := r.pos }).setConn c
    { s.conns c with stream := r.stream }

/-- `sx_rpc_client_handler` up to the command in its buffer.  A receive fails only if the client has
disconnected or the descriptor is not open. -/
def clientReceive (maxBufferSize : Nat) (s : Rpc) (i : Nat) (answers : List IoAnswer) : Option Rpc :=
  match s.fds (s.srcs i).socket with
  | none => if answers = [.error] then some (terminate s i none) else none
  | some c =>
    if (s.conns c).up = true ∧ ¬ ∀ a ∈ answers, a.moves = true then none else
    (sxRpcApiReceiveCommand maxBufferSize
        ⟨STATUS_SUCCESS, (s.srcs i).buffer, (s.srcs i).pos, (s.conns c).stream, answers⟩).map fun r =>
      if r.status = STATUS_CMD_INCOMPLETE then { receivedOn s i c r with select := .idle }
      else if r.status ≠ STATUS_SUCCESS then terminate (receivedOn s i c r) i (some c)
      else
        { (receivedOn s i c r).setConn c { s.conns c with
            stream := r.stream
            received := (s.conns c).received ++ [commandOf r.buffer] } with
          select := .queue i (some c) }

/-- A message to the channel of an event source, as an answer to some connection.  A send fails only if
the client has disconnected or the descriptor is not open. -/
def sendReply (s : Rpc) (i : Nat) (origin : Option Nat) (ok : Bool) : Option Rpc :=
  match s.fds (s.srcs i).socket with
  | none => if ok = true then none else some s
  | some c =>
    if ok = true then
      some { s.setConn c { s.conns c with awaiting := false } with replies := s.replies ++ [(origin, c)] }
    else if (s.conns c).up = true then none else some s

/-- The rest of `sx_rpc_client_handler`: the event source is pushed, or the command is refused. -/
def clientQueue (commands : Commands) (s : Rpc) (i : Nat) (origin : Option Nat) (ok : Bool) : Option Rpc :=
  match queuePriority commands (CommandHead.ofBytes (s.srcs i).buffer).opcode with
  | none => (sendReply s i origin ok).map fun s => { s with select := .idle }
  | some b => some { s with
      rings := Function.update s.rings b ((s.rings b).push i)
      pushed := Function.update s.pushed b (s.pushed b ++ [i])
      select := .idle }

/-- The number of event sources, `SX_RPC_CORE_HIGH_PRIO_BUFFER_SIZE`. -/
def EVENT_SRC_NUM : Nat := 20

/-- The first event source that `sx_rpc_add_event_src` may use. -/
def freeEventSrc (s : Rpc) : Option Nat :=
  (List.range' 1 (EVENT_SRC_NUM - 1)).find? fun i => (s.srcs i).state = .notActive

/-- `sx_rpc_accept_connection` up to the handshake, with the descriptor that the kernel gives. -/
def acceptConnection (s : Rpc) (socket : Nat) : Option Rpc :=
  match s.backlog with
  | [] => none
  | c :: backlog =>
    if s.fds socket ≠ none then none else
    match freeEventSrc s with
    | none => some { s.setConn c { s.conns c with closed := true, refused := true } with
        backlog := backlog
        select := .idle }
    | some i => some { s.setSrc i { s.srcs i with
          state := .active, pos := 0, socket := socket, inited := true } with
        fds := Function.update s.fds socket (some c)
        backlog := backlog
        select := .handshake socket }

/-- A descriptor is closed, and with it the connection. -/
def closeSocket (s : Rpc) (socket : Nat) : Rpc :=
  match s.fds socket with
  | none => s
  | some c => { s.setConn c { s.conns c with closed := true } with
      fds := Function.update s.fds socket none }

/-- The handshake; if it fails, the channel of the caller is destroyed, and the event source is left. -/
def handshake (s : Rpc) (socket : Nat) (ok : Bool) : Option Rpc :=
  match s.fds socket with
  | none => if ok = true then none else some { s with select := .idle }
  | some c =>
    if ok = true then some { s with select := .idle }
    else if (s.conns c).up = true then none
    else some { closeSocket s socket with select := .idle }

/-! ## The worker thread -/

/-- What `sx_rpc_core_api_dispatch` finds in a buffer. -/
inductive Dispatch where
  | close
  | unsupported
  | call (command : Command)
  deriving DecidableEq, Repr

/-- The command in a buffer, from the queue of some priority. -/
def dispatchOf (commands : Commands) (buffer : List UInt8) (bufferType : CmdPriority) : Dispatch :=
  if bufferType = .high ∧ (CommandHead.ofBytes buffer).opcode = CMD_CLOSE_EVENT_SRC then .close else
  match commands (CommandHead.ofBytes buffer).opcode.toInt32 with
  | none => .unsupported
  | some _ => .call (commandOf buffer)

/-- A callback is called, for the connection of its event source. -/
def callCallback (s : Rpc) (origin : Option Nat) (command : Command) : Rpc :=
  match origin with
  | none => { s with stray := s.stray ++ [command] }
  | some c => s.setConn c { s.conns c with handled := (s.conns c).handled ++ [command] }

/-- `close_event_src`. -/
def closeEventSrc (s : Rpc) (i : Nat) : Rpc :=
  if (s.srcs i).state = .notActive then s else
  (if (s.srcs i).inited then closeSocket s (s.srcs i).socket else s).setSrc i
    { s.srcs i with state := .notActive, inited := false }

/-- The next ring of the loop of the worker, which begins again after the last one. -/
def nextRing : CmdPriority → CmdPriority
  | .high => .medium
  | .medium => .low
  | .low => .high

/-- A step of the worker other than a reply. -/
def dispatchStep (commands : Commands) (s : Rpc) : Option Rpc :=
  match s.worker with
  | .check b =>
    if (s.rings b).cons ≠ (s.rings b).prod then
      some { s with
        worker := .taken b (s.rings b).front
        taken := Function.update s.taken b (s.taken b ++ [(s.rings b).front]) }
    else some { s with worker := .check (nextRing b) }
  | .taken b i =>
    let origin := s.fds (s.srcs i).socket
    match dispatchOf commands (s.srcs i).buffer b with
    | .close => some { s with worker := .closing b i }
    | .unsupported => some { s with worker := .replying b i origin }
    | .call command => some { callCallback s origin command with worker := .replying b i origin }
  | .replying _ _ _ => none
  | .closing b i => some { closeEventSrc s i with worker := .finishing b }
  | .finishing b => some { s with
      rings := Function.update s.rings b (s.rings b).pop
      worker := .check .high }

/-- The reply of the worker; it closes the event source if that fails. -/
def dispatchReply (s : Rpc) (ok : Bool) : Option Rpc :=
  match s.worker with
  | .replying b i origin => (sendReply s i origin ok).map fun s =>
      { s with worker := if ok then .finishing b else .closing b i }
  | _ => none

/-! ## Steps -/

/-- What happens next. -/
inductive RpcEvent where
  /-- A client connects. -/
  | connect
  /-- A client sends a request; it has none under way. -/
  | send (c : Nat) (request : List UInt8)
  /-- A client disconnects; this many bytes of what it has sent still come through. -/
  | disconnect (c keep : Nat)
  /-- The select thread finds an event source readable. -/
  | select (i : Nat)
  | receive (answers : List IoAnswer)
  | queue (ok : Bool)
  | accept (socket : Nat)
  | handshake (ok : Bool)
  | worker
  | reply (ok : Bool)
  deriving DecidableEq, Repr

instance (maxBufferSize : Nat) (cmd : List UInt8) : Decidable (IsCommand maxBufferSize cmd) :=
  decidable_of_iff ((CommandHead.ofBytes cmd).msgSize.toNat = cmd.length ∧ COMMAND_HEAD_SIZE ≤ cmd.length ∧
    cmd.length ≤ maxBufferSize) ⟨fun h => ⟨h.1, h.2.1, h.2.2⟩, fun h => ⟨h.size, h.head_le, h.le_max⟩⟩

/-- One step. -/
def rpcStep (maxBufferSize : Nat) (commands : Commands) (s : Rpc) : RpcEvent → Option Rpc
  | .connect => some { s with numConns := s.numConns + 1, backlog := s.backlog ++ [s.numConns] }
  | .send c request =>
    if c < s.numConns ∧ (s.conns c).up = true ∧ (s.conns c).awaiting = false ∧
        (s.conns c).closed = false ∧ IsCommand maxBufferSize request then
      some (s.setConn c { s.conns c with
        awaiting := true
        stream := (s.conns c).stream ++ request
        sent := (s.conns c).sent ++ [request] })
    else none
  | .disconnect c keep =>
    if c < s.numConns ∧ (s.conns c).up = true then
      some (s.setConn c { s.conns c with up := false, stream := (s.conns c).stream.take keep })
    else none
  | .select i =>
    if s.select = .idle ∧ (i = 0 ∨ i < EVENT_SRC_NUM ∧ (s.srcs i).state = .active) then
      some { s with select := .handling i }
    else none
  | .receive answers =>
    match s.select with
    | .handling i => if i = 0 then none else clientReceive maxBufferSize s i answers
    | _ => none
  | .queue ok =>
    match s.select with
    | .queue i origin => clientQueue commands s i origin ok
    | _ => none
  | .accept socket => if s.select = .handling 0 then acceptConnection s socket else none
  | .handshake ok =>
    match s.select with
    | .handshake socket => handshake s socket ok
    | _ => none
  | .worker => dispatchStep commands s
  | .reply ok => dispatchReply s ok

/-- **The dispatch of the worker is `sx_rpc_core_api_dispatch`**: it closes, or calls a callback, on the
same commands. -/
theorem sxRpcCoreApiDispatch_called {commands : Commands} {callbacks : Callbacks} {buffer : List UInt8}
    {bufferType : CmdPriority} {answers : List IoAnswer} {d : Dispatched}
    (h : sxRpcCoreApiDispatch commands callbacks buffer bufferType answers = some d) :
    d.called = (match dispatchOf commands buffer bufferType with
      | .call command => some command
      | _ => none) ∧
    (dispatchOf commands buffer bufferType = .close → d.err = STATUS_INT_COMM_CLOSE) := by
  unfold sxRpcCoreApiDispatch at h
  unfold dispatchOf
  dsimp only at h
  split at h
  · rename_i hclose
    cases h
    rw [if_pos hclose]
    exact ⟨rfl, fun _ => rfl⟩
  · rename_i hopen
    rw [if_neg hopen]
    cases hcommand : commands (CommandHead.ofBytes buffer).opcode.toInt32 with
    | none =>
      rw [hcommand] at h
      obtain ⟨sent, -, rfl⟩ := Option.map_eq_some_iff.mp h
      exact ⟨rfl, fun h => Dispatch.noConfusion h⟩
    | some b =>
      rw [hcommand] at h
      obtain ⟨sent, -, rfl⟩ := Option.map_eq_some_iff.mp h
      exact ⟨rfl, fun h => Dispatch.noConfusion h⟩

end MlnxLib.SxRpc
