import MlnxLib.Lib.Stages
import MlnxLib.SxRpc.WorkerFifo

/-!
# Event sources in custody

A ring holds pointers to event sources, and an event source has one buffer: for the request that waits,
for the next bytes of the client, and for the command to close that a failed receive writes there.

* `Stage`, `heldBy` — the event sources under way: in the hands of a thread or waiting in a ring.
* `FreeSrc`, `Phase` — what holds of an event source that is not under way, and of one at each stage, in
  terms of the event source itself and the connection it is linked to.
* `RpcInv` — the invariant: no event source is under way twice, each is as its stage says, and the
  descriptors link event sources and connections one to one.

Principal results: `StagesOf.setConn`, `StagesOf.select`, `StagesOf.move`, `StagesOf.remove` — what a
change of one connection or one event source leaves of the stages; `LinksInv.setConn` — of the links.
-/

set_option autoImplicit false

namespace MlnxLib.SxRpc

open Bytes CircularQueue Complib Runs Stages

/-- A callback is registered for the command. -/
def registered (commands : Commands) (command : Command) : Bool := (commands command.1).isSome

/-! ## Event sources under way -/

/-- What an event source is held for. -/
inductive Stage where
  | queue (origin : Option Nat)
  | waiting (b : CmdPriority)
  | replying (origin : Option Nat)
  | closing
  deriving DecidableEq, Repr

/-- The event source in the hands of the select thread. -/
def selectHeld : SelectPc → List (Nat × Stage)
  | .queue i origin => [(i, .queue origin)]
  | _ => []

/-- The event source in the hands of the worker. -/
def workerHeld : DispatchPc → List (Nat × Stage)
  | .check _ => []
  | .taken b i => [(i, .waiting b)]
  | .replying _ i origin => [(i, .replying origin)]
  | .closing _ i => [(i, .closing)]
  | .finishing _ => []

/-- The event sources that wait in a ring. -/
def ringHeld (s : Rpc) (b : CmdPriority) : List (Nat × Stage) := (waiting s b).map (·, .waiting b)

/-- The event sources under way. -/
def heldBy (s : Rpc) : List (Nat × Stage) :=
  selectHeld s.select ++ (workerHeld s.worker ++
    (ringHeld s .high ++ (ringHeld s .medium ++ ringHeld s .low)))

/-- The connection that an event source is linked to. -/
def link (s : Rpc) (i : Nat) : Option (Nat × Conn) :=
  if (s.srcs i).inited then (s.fds (s.srcs i).socket).map fun c => (c, s.conns c) else none

theorem link_eq_some {s : Rpc} {i c : Nat} {conn : Conn} : link s i = some (c, conn) ↔
    (s.srcs i).inited = true ∧ s.fds (s.srcs i).socket = some c ∧ conn = s.conns c := by
  unfold link
  split
  · rename_i hinited
    rw [Option.map_eq_some_iff]
    constructor
    · rintro ⟨c', hc', heq⟩
      cases heq
      exact ⟨hinited, hc', rfl⟩
    · rintro ⟨-, hc, rfl⟩
      exact ⟨c, hc, rfl⟩
  · rename_i hinited
    constructor
    · intro h
      cases h
    · rintro ⟨h, -⟩
      exact absurd h hinited

/-! ## What holds at each stage -/

/-- Descriptors link event sources and connections one to one. -/
structure SocketsInv (s : Rpc) : Prop where
  socket_open : ∀ i, (s.srcs i).inited = true → ∃ c, s.fds (s.srcs i).socket = some c
  socket_inj : ∀ i j, (s.srcs i).inited = true → (s.srcs j).inited = true →
    (s.srcs i).socket = (s.srcs j).socket → i = j
  fds_inj : ∀ f f' c, s.fds f = some c → s.fds f' = some c → f = f'
  fds_src : ∀ f c, s.fds f = some c → ∃ i, (s.srcs i).inited = true ∧ (s.srcs i).socket = f

section

variable (maxBufferSize : Nat) (commands : Commands)

/-- All registered commands received on the connection have been handled. -/
def Caught (conn : Conn) : Prop := conn.received.filter (registered commands) = conn.handled

/-- All requests sent have been received, but for one at most. -/
def Sound (conn : Conn) : Prop :=
  ∃ rest, conn.sent.map commandOf = conn.received ++ rest ∧ rest.length ≤ 1

/-- Nothing is under way on the connection, or the buffer holds a first part of the current request. -/
def Receiving (conn : Conn) (buffer : List UInt8) (pos : Nat) : Prop :=
  (pos = 0 ∧ conn.stream = [] ∧ conn.sent.map commandOf = conn.received ∧
    (conn.awaiting = true → conn.up = false)) ∨
  ∃ before cmd, conn.sent = before ++ [cmd] ∧ IsCommand maxBufferSize cmd ∧
    (CommandHead.ofBytes cmd).opcode ≠ CMD_CLOSE_EVENT_SRC ∧ conn.received = before.map commandOf ∧
    conn.awaiting = true ∧ buffer.take pos = cmd.take pos ∧ pos < cmd.length ∧
    conn.stream <+: cmd.drop pos

/-- An event source that is not under way. -/
def FreeSrc (src : EventSrc) (link : Option (Nat × Conn)) : Prop :=
  (src.state = .notActive ∧ src.inited = false) ∨
  (src.state = .active ∧ ∃ c conn, link = some (c, conn) ∧ Caught commands conn ∧
    Receiving maxBufferSize conn src.buffer src.pos)

/-- A request is complete in the buffer, and has not been looked at. -/
def Pending (src : EventSrc) (conn : Conn) : Prop :=
  src.state = .active ∧ src.pos = 0 ∧ (CommandHead.ofBytes src.buffer).opcode ≠ CMD_CLOSE_EVENT_SRC ∧
    conn.stream = [] ∧ conn.awaiting = true ∧ conn.sent.map commandOf = conn.received ∧
    ∃ before, conn.received = before ++ [commandOf src.buffer] ∧
      before.filter (registered commands) = conn.handled

/-- The connection is not needed any more. -/
def Settled (link : Option (Nat × Conn)) : Prop :=
  ∀ c conn, link = some (c, conn) → conn.up = false ∧ Caught commands conn ∧ Sound conn

/-- The command to close is in the buffer, of a connection whose client has disconnected. -/
def Doomed (src : EventSrc) (link : Option (Nat × Conn)) : Prop :=
  src.state = .terminating ∧ (CommandHead.ofBytes src.buffer).opcode = CMD_CLOSE_EVENT_SRC ∧
    Settled commands link

/-- The request in the buffer has been handled, and its reply is due. -/
def Answering (src : EventSrc) (conn : Conn) : Prop :=
  src.state = .active ∧ src.pos = 0 ∧ conn.stream = [] ∧ conn.awaiting = true ∧
    conn.sent.map commandOf = conn.received ∧ Caught commands conn

/-- An event source at some stage. -/
def Phase (st : Stage) (src : EventSrc) (link : Option (Nat × Conn)) : Prop :=
  match st with
  | .queue origin => Doomed commands src link ∨
      ∃ c conn, link = some (c, conn) ∧ origin = some c ∧ Pending commands src conn
  | .waiting b => b = .high ∧ Doomed commands src link ∨
      ∃ c conn, link = some (c, conn) ∧ Pending commands src conn ∧
        commands (CommandHead.ofBytes src.buffer).opcode.toInt32 = some b
  | .replying origin => ∃ c conn, link = some (c, conn) ∧ origin = some c ∧ Answering commands src conn
  | .closing => src.state ≠ .notActive ∧ Settled commands link ∧
      (src.state = .active → src.pos = 0 ∧ ∃ c conn, link = some (c, conn) ∧ conn.stream = [])

/-- The stages of all event sources. -/
def StagesOf (s : Rpc) : Prop :=
  Staged (heldBy s) (fun i => FreeSrc maxBufferSize commands (s.srcs i) (link s i))
    (fun st i => Phase commands st (s.srcs i) (link s i))

/-- What is known of the connections that are not linked to an event source. -/
structure LinksInv (s : Rpc) : Prop where
  sockets : SocketsInv s
  fds_known : ∀ f c, s.fds f = some c → c < s.numConns ∧ c ∉ s.backlog ∧ (s.conns c).closed = false
  backlog_nodup : s.backlog.Nodup
  /-- A connection that is not accepted yet. -/
  backlog : ∀ c ∈ s.backlog, c < s.numConns ∧ (s.conns c).closed = false ∧ Caught commands (s.conns c) ∧
    ∀ buffer, Receiving maxBufferSize (s.conns c) buffer 0
  fresh : ∀ c, s.numConns ≤ c → s.conns c = newConn
  /-- A connection that is neither open nor in the backlog. -/
  gone : ∀ c, c < s.numConns → c ∉ s.backlog → (∀ f, s.fds f ≠ some c) → (s.conns c).closed = true ∧
    ((s.conns c).up = false ∨ (s.conns c).refused = true) ∧ Caught commands (s.conns c) ∧ Sound (s.conns c)

/-- The invariant. -/
structure RpcInv (s : Rpc) : Prop where
  queues : QueuesInv s
  stages : StagesOf maxBufferSize commands s
  links : LinksInv maxBufferSize commands s
  length_buffer : COMMAND_HEAD_SIZE ≤ maxBufferSize → ∀ i, (s.srcs i).buffer.length = maxBufferSize
  /-- The event source that the select thread handles may have been closed meanwhile. -/
  handling : ∀ i, s.select = .handling i → i = 0 ∨ (s.srcs i).state = .active ∨
    ((s.srcs i).state = .notActive ∧ s.fds (s.srcs i).socket = none)
  stray : s.stray = []
  replies : ∀ p ∈ s.replies, p.1 = some p.2

end

/-! ## Which event sources are under way -/

section

variable {s s' : Rpc} {b : CmdPriority} {i : Nat}

/-- The event sources that wait in the rings. -/
def ringsHeld (s : Rpc) : List (Nat × Stage) :=
  ringHeld s .high ++ (ringHeld s .medium ++ ringHeld s .low)

theorem waiting_same (h : QueuesInv s) (h' : QueuesInv s') (hpushed : s'.pushed b = s.pushed b)
    (htaken : s'.taken b = s.taken b) : waiting s' b = waiting s b := by
  have horder := h'.order b
  rw [hpushed, htaken, h.order b] at horder
  exact (List.append_cancel_left horder).symm

theorem waiting_push (h : QueuesInv s) (h' : QueuesInv s') (hpushed : s'.pushed b = s.pushed b ++ [i])
    (htaken : s'.taken b = s.taken b) : waiting s' b = waiting s b ++ [i] := by
  have horder := h'.order b
  rw [hpushed, htaken, h.order b, List.append_assoc] at horder
  exact (List.append_cancel_left horder).symm

theorem waiting_take (h : QueuesInv s) (h' : QueuesInv s') (hpushed : s'.pushed b = s.pushed b)
    (htaken : s'.taken b = s.taken b ++ [i]) : waiting s b = i :: waiting s' b := by
  have horder := h'.order b
  rw [hpushed, htaken, h.order b, List.append_assoc] at horder
  exact List.append_cancel_left horder

/-- One more entry in one ring. -/
theorem ringsHeld_perm (hb : (waiting s' b).Perm (i :: waiting s b))
    (hother : ∀ b', b' ≠ b → waiting s' b' = waiting s b') :
    (ringsHeld s').Perm ((i, .waiting b) :: ringsHeld s) := by
  have hring : (ringHeld s' b).Perm ((i, .waiting b) :: ringHeld s b) := hb.map (·, Stage.waiting b)
  have hsame : ∀ b', b' ≠ b → ringHeld s' b' = ringHeld s b' := by
    intro b' hne
    unfold ringHeld
    rw [hother b' hne]
  unfold ringsHeld
  cases b with
  | high =>
    rw [hsame .medium (by decide), hsame .low (by decide)]
    exact hring.append_right _
  | medium =>
    rw [hsame .high (by decide), hsame .low (by decide)]
    exact ((hring.append_right _).append_left _).trans List.perm_middle
  | low =>
    rw [hsame .high (by decide), hsame .medium (by decide)]
    exact ((hring.append_left _).append_left _).trans
      ((List.perm_middle.append_left _).trans List.perm_middle)

theorem heldBy_eq (s : Rpc) : heldBy s = selectHeld s.select ++ (workerHeld s.worker ++ ringsHeld s) := rfl

/-- The rings hold the same, as the record of them is the same. -/
theorem ringsHeld_same (h : QueuesInv s) (h' : QueuesInv s') (hpushed : s'.pushed = s.pushed)
    (htaken : s'.taken = s.taken) : ringsHeld s' = ringsHeld s := by
  have hsame : ∀ b, waiting s' b = waiting s b :=
    fun b => waiting_same h h' (congrFun hpushed b) (congrFun htaken b)
  unfold ringsHeld ringHeld
  rw [hsame, hsame, hsame]

/-! ## What a change of one connection or event source leaves -/

/-- An event source whose connection and descriptor are as before. -/
theorem link_congr (hsrc : s'.srcs i = s.srcs i)
    (hfds : (s.srcs i).inited = true → s'.fds (s.srcs i).socket = s.fds (s.srcs i).socket)
    (hconns : ∀ c, (s.srcs i).inited = true → s.fds (s.srcs i).socket = some c → s'.conns c = s.conns c) :
    link s' i = link s i := by
  unfold link
  rw [hsrc]
  split
  · rename_i hinited
    rw [hfds hinited]
    cases hc : s.fds (s.srcs i).socket with
    | none => rfl
    | some c => rw [Option.map_some, Option.map_some, hconns c hinited hc]
  · rfl

/-- A change of one connection changes what the event source linked to it sees. -/
theorem link_setConn {c : Nat} {conn : Conn} (hsrcs : s'.srcs = s.srcs) (hfds : s'.fds = s.fds)
    (hconns : s'.conns = Function.update s.conns c conn) (i : Nat) :
    link s' i = link s i ∨ (link s i = some (c, s.conns c) ∧ link s' i = some (c, conn)) := by
  by_cases hlink : link s i = some (c, s.conns c)
  · refine Or.inr ⟨hlink, ?_⟩
    obtain ⟨hinited, hc, -⟩ := link_eq_some.mp hlink
    rw [link_eq_some, hsrcs, hfds, hconns, Function.update_self]
    exact ⟨hinited, hc, rfl⟩
  · refine Or.inl (link_congr (congrFun hsrcs i) (fun _ => congrFun hfds _) ?_)
    intro c' hinited hc'
    rw [hconns]
    apply Function.update_of_ne
    rintro rfl
    exact hlink (link_eq_some.mpr ⟨hinited, hc', rfl⟩)

variable {maxBufferSize : Nat} {commands : Commands}

/-- **A change of one connection** that each stage of its event source allows. -/
theorem StagesOf.setConn {c : Nat} {conn : Conn} (h : StagesOf maxBufferSize commands s)
    (hheld : heldBy s' = heldBy s) (hsrcs : s'.srcs = s.srcs) (hfds : s'.fds = s.fds)
    (hconns : s'.conns = Function.update s.conns c conn)
    (hfree : ∀ src, FreeSrc maxBufferSize commands src (some (c, s.conns c)) →
      FreeSrc maxBufferSize commands src (some (c, conn)))
    (hphase : ∀ st src, Phase commands st src (some (c, s.conns c)) → Phase commands st src (some (c, conn))) :
    StagesOf maxBufferSize commands s' := by
  unfold StagesOf
  rw [hheld, hsrcs]
  refine h.mono ?_ ?_
  · intro i hi
    rcases link_setConn hsrcs hfds hconns i with heq | ⟨hold, hnew⟩
    · rwa [heq]
    · rw [hold] at hi
      rw [hnew]
      exact hfree _ hi
  · intro st i hi
    rcases link_setConn hsrcs hfds hconns i with heq | ⟨hold, hnew⟩
    · rwa [heq]
    · rw [hold] at hi
      rw [hnew]
      exact hphase st _ hi

theorem SocketsInv.congr (h : SocketsInv s)
    (hsrcs : ∀ i, (s'.srcs i).inited = (s.srcs i).inited ∧ (s'.srcs i).socket = (s.srcs i).socket)
    (hfds : s'.fds = s.fds) : SocketsInv s' where
  socket_open i hi := by
    rw [(hsrcs i).1] at hi
    rw [(hsrcs i).2, hfds]
    exact h.socket_open i hi
  socket_inj i j hi hj := by
    rw [(hsrcs i).1] at hi
    rw [(hsrcs j).1] at hj
    rw [(hsrcs i).2, (hsrcs j).2]
    exact h.socket_inj i j hi hj
  fds_inj := by
    rw [hfds]
    exact h.fds_inj
  fds_src f c hc := by
    rw [hfds] at hc
    obtain ⟨i, hinited, hsocket⟩ := h.fds_src f c hc
    exact ⟨i, by rw [(hsrcs i).1]; exact hinited, by rw [(hsrcs i).2]; exact hsocket⟩

/-- The links are as before if sockets, descriptors and connections are. -/
theorem LinksInv.congr (h : LinksInv maxBufferSize commands s)
    (hsrcs : ∀ i, (s'.srcs i).inited = (s.srcs i).inited ∧ (s'.srcs i).socket = (s.srcs i).socket)
    (hfds : s'.fds = s.fds) (hconns : s'.conns = s.conns) (hnum : s'.numConns = s.numConns)
    (hbacklog : s'.backlog = s.backlog) : LinksInv maxBufferSize commands s' where
  sockets := h.sockets.congr hsrcs hfds
  fds_known := by
    rw [hfds, hconns, hnum, hbacklog]
    exact h.fds_known
  backlog_nodup := by
    rw [hbacklog]
    exact h.backlog_nodup
  backlog := by
    rw [hbacklog, hnum, hconns]
    exact h.backlog
  fresh := by
    rw [hnum, hconns]
    exact h.fresh
  gone := by
    rw [hnum, hbacklog, hfds, hconns]
    exact h.gone

/-- The links after a change of one connection that stays open or closed. -/
theorem LinksInv.setConn {c : Nat} {conn : Conn} (h : LinksInv maxBufferSize commands s)
    (hsrcs : ∀ i, (s'.srcs i).inited = (s.srcs i).inited ∧ (s'.srcs i).socket = (s.srcs i).socket)
    (hfds : s'.fds = s.fds) (hconns : s'.conns = Function.update s.conns c conn)
    (hnum : s'.numConns = s.numConns) (hbacklog : s'.backlog = s.backlog) (hknown : c < s.numConns)
    (hclosed : conn.closed = (s.conns c).closed) (hrefused : conn.refused = (s.conns c).refused)
    (hup : (s.conns c).up = false → conn.up = false)
    (hwaits : c ∈ s.backlog → Caught commands conn ∧ ∀ buffer, Receiving maxBufferSize conn buffer 0)
    (hgone : (s.conns c).closed = true → Caught commands (s.conns c) → Sound (s.conns c) →
      Caught commands conn ∧ Sound conn) : LinksInv maxBufferSize commands s' where
  sockets := h.sockets.congr hsrcs hfds
  fds_known f c' hc' := by
    rw [hfds] at hc'
    obtain ⟨hlt, hnot, hopen⟩ := h.fds_known f c' hc'
    rw [hconns, hnum, hbacklog]
    refine ⟨hlt, hnot, ?_⟩
    by_cases heq : c' = c
    · subst heq
      rw [Function.update_self, hclosed]
      exact hopen
    · rw [Function.update_of_ne heq]
      exact hopen
  backlog_nodup := by
    rw [hbacklog]
    exact h.backlog_nodup
  backlog c' hc' := by
    rw [hbacklog] at hc'
    obtain ⟨hlt, hopen, hrest⟩ := h.backlog c' hc'
    rw [hconns, hnum]
    refine ⟨hlt, ?_⟩
    by_cases heq : c' = c
    · subst heq
      rw [Function.update_self, hclosed]
      exact ⟨hopen, hwaits hc'⟩
    · rw [Function.update_of_ne heq]
      exact ⟨hopen, hrest⟩
  fresh c' hc' := by
    rw [hnum] at hc'
    rw [hconns, Function.update_of_ne (by omega)]
    exact h.fresh c' hc'
  gone c' hlt hnot hfd := by
    rw [hnum] at hlt
    rw [hbacklog] at hnot
    rw [hfds] at hfd
    obtain ⟨hc, hdown, hcaught, hsound⟩ := h.gone c' hlt hnot hfd
    rw [hconns]
    by_cases heq : c' = c
    · subst heq
      rw [Function.update_self, hclosed, hrefused]
      exact ⟨hc, hdown.imp_left hup, hgone hc hcaught hsound⟩
    · rw [Function.update_of_ne heq]
      exact ⟨hc, hdown, hcaught, hsound⟩

/-- An active event source under way has nothing to receive. -/
theorem Phase.active {st : Stage} {src : EventSrc} {link : Option (Nat × Conn)}
    (h : Phase commands st src link) (hactive : src.state = .active) :
    src.pos = 0 ∧ ∃ c conn, link = some (c, conn) ∧ conn.stream = [] := by
  cases st with
  | queue origin =>
    rcases h with ⟨hstate, -⟩ | ⟨c, conn, hlink, -, -, hpos, -, hstream, -⟩
    · rw [hactive] at hstate
      cases hstate
    · exact ⟨hpos, c, conn, hlink, hstream⟩
  | waiting b =>
    rcases h with ⟨-, hstate, -⟩ | ⟨c, conn, hlink, ⟨-, hpos, -, hstream, -⟩, -⟩
    · rw [hactive] at hstate
      cases hstate
    · exact ⟨hpos, c, conn, hlink, hstream⟩
  | replying origin =>
    obtain ⟨c, conn, hlink, -, -, hpos, hstream, -⟩ := h
    exact ⟨hpos, c, conn, hlink, hstream⟩
  | closing => exact h.2.2 hactive

/-- An event source under way is in use. -/
theorem Phase.state_ne {st : Stage} {src : EventSrc} {link : Option (Nat × Conn)}
    (h : Phase commands st src link) : src.state ≠ .notActive := by
  intro hstate
  cases st with
  | queue origin =>
    rcases h with ⟨hs, -⟩ | ⟨c, conn, -, -, hs, -⟩ <;> rw [hstate] at hs <;> cases hs
  | waiting b =>
    rcases h with ⟨-, hs, -⟩ | ⟨c, conn, -, ⟨hs, -⟩, -⟩ <;> rw [hstate] at hs <;> cases hs
  | replying origin =>
    obtain ⟨c, conn, -, -, hs, -⟩ := h
    rw [hstate] at hs
    cases hs
  | closing => exact h.1 hstate

/-- Two event sources are not linked to the same connection. -/
theorem SocketsInv.ne_conn (h : SocketsInv s) {c c' j : Nat} (hi : (s.srcs i).inited = true)
    (hc : s.fds (s.srcs i).socket = some c) (hj : (s.srcs j).inited = true) (hne : j ≠ i)
    (hc' : s.fds (s.srcs j).socket = some c') : c' ≠ c := by
  rintro rfl
  exact hne (h.socket_inj j i hj hi (h.fds_inj _ _ _ hc' hc))

/-- The select thread changes a free event source, and may take it up. -/
theorem StagesOf.select (h : StagesOf maxBufferSize commands s) (hselect : selectHeld s.select = [])
    (hworker : s'.worker = s.worker) (hrings : ringsHeld s' = ringsHeld s)
    (hi : i ∉ (heldBy s).map Prod.fst)
    (hother : ∀ j, j ≠ i → s'.srcs j = s.srcs j ∧ link s' j = link s j)
    (hstage : (selectHeld s'.select = [] ∧ FreeSrc maxBufferSize commands (s'.srcs i) (link s' i)) ∨
      ∃ origin, s'.select = .queue i origin ∧ Phase commands (.queue origin) (s'.srcs i) (link s' i)) :
    StagesOf maxBufferSize commands s' := by
  have hfree : ∀ j, j ≠ i → FreeSrc maxBufferSize commands (s.srcs j) (link s j) →
      FreeSrc maxBufferSize commands (s'.srcs j) (link s' j) := by
    intro j hj hfree
    rwa [(hother j hj).1, (hother j hj).2]
  have hphase : ∀ st j, j ≠ i → Phase commands st (s.srcs j) (link s j) →
      Phase commands st (s'.srcs j) (link s' j) := by
    intro st j hj hphase
    rwa [(hother j hj).1, (hother j hj).2]
  have hheld : heldBy s = workerHeld s.worker ++ ringsHeld s := by
    rw [heldBy_eq, hselect, List.nil_append]
  unfold StagesOf at h ⊢
  rw [heldBy_eq, hworker, hrings]
  rw [hheld] at h hi
  rcases hstage with ⟨hselect', hnew⟩ | ⟨origin, hselect', hnew⟩
  · rw [hselect', List.nil_append]
    refine ⟨h.nodup, ?_, ?_⟩
    · intro j st hj
      refine hphase st j ?_ (h.phase j st hj)
      rintro rfl
      exact hi (List.mem_map.mpr ⟨(j, st), hj, rfl⟩)
    · intro j hj
      by_cases heq : j = i
      · rw [heq]
        exact hnew
      · exact hfree j heq (h.free j hj)
  · rw [hselect']
    exact h.add hi hfree hphase hnew

/-! ## Stages in turn -/

section

variable {st st' : Stage} {R : List (Nat × Stage)}

/-- Nothing happens to any event source. -/
theorem StagesOf.same (h : StagesOf maxBufferSize commands s) (hheld : (heldBy s').Perm (heldBy s))
    (hsame : ∀ j, s'.srcs j = s.srcs j ∧ link s' j = link s j) : StagesOf maxBufferSize commands s' := by
  refine (Staged.mono h ?_ ?_).perm hheld
  · intro j hj
    rwa [(hsame j).1, (hsame j).2]
  · intro st j hj
    rwa [(hsame j).1, (hsame j).2]

/-- An event source goes to its next stage. -/
theorem StagesOf.move (h : StagesOf maxBufferSize commands s) (st' : Stage) (hheld : (heldBy s).Perm ((i, st) :: R))
    (hheld' : (heldBy s').Perm ((i, st') :: R))
    (hother : ∀ j, j ≠ i → s'.srcs j = s.srcs j ∧ link s' j = link s j)
    (hphase : Phase commands st' (s'.srcs i) (link s' i)) : StagesOf maxBufferSize commands s' := by
  refine ((Staged.perm h hheld.symm).move ?_ ?_ hphase).perm hheld'
  · intro j hj hfree
    rwa [(hother j hj).1, (hother j hj).2]
  · intro st j hj hphase
    rwa [(hother j hj).1, (hother j hj).2]

/-- An event source is set free. -/
theorem StagesOf.remove (h : StagesOf maxBufferSize commands s) (hheld : (heldBy s).Perm ((i, st) :: R))
    (hheld' : (heldBy s').Perm R)
    (hother : ∀ j, j ≠ i → s'.srcs j = s.srcs j ∧ link s' j = link s j)
    (hfree : FreeSrc maxBufferSize commands (s'.srcs i) (link s' i)) : StagesOf maxBufferSize commands s' := by
  refine ((Staged.perm h hheld.symm).remove ?_ ?_ hfree).perm hheld'
  · intro j hj hfree
    rwa [(hother j hj).1, (hother j hj).2]
  · intro st j hj hphase
    rwa [(hother j hj).1, (hother j hj).2]

theorem StagesOf.phase_of_mem (h : StagesOf maxBufferSize commands s)
    (hheld : (heldBy s).Perm ((i, st) :: R)) : Phase commands st (s.srcs i) (link s i) :=
  Staged.phase h i st (hheld.mem_iff.mpr (List.mem_cons_self ..))

/-- A change of the connection of an event source is seen by this event source only. -/
theorem SocketsInv.other_setConn (h : SocketsInv s) (s' : Rpc) {c : Nat} {conn : Conn}
    (hlink : link s i = some (c, s.conns c)) (hsrcs : s'.srcs = s.srcs) (hfds : s'.fds = s.fds)
    (hconns : s'.conns = Function.update s.conns c conn) :
    (∀ j, j ≠ i → s'.srcs j = s.srcs j ∧ link s' j = link s j) ∧
      s'.srcs i = s.srcs i ∧ link s' i = some (c, conn) := by
  obtain ⟨hin, hfd, -⟩ := link_eq_some.mp hlink
  refine ⟨?_, congrFun hsrcs i, ?_⟩
  · intro j hj
    refine ⟨congrFun hsrcs j, link_congr (congrFun hsrcs j) (fun _ => congrFun hfds _) ?_⟩
    intro c' hjin hc'
    rw [hconns, Function.update_of_ne (h.ne_conn hin hfd hjin hj hc')]
  · rw [link_eq_some, hsrcs, hfds, hconns, Function.update_self]
    exact ⟨hin, hfd, rfl⟩

theorem heldBy_queue {origin : Option Nat} (h : s.select = .queue i origin) :
    heldBy s = (i, .queue origin) :: (workerHeld s.worker ++ ringsHeld s) := by
  rw [heldBy_eq, h]
  rfl

theorem heldBy_worker (h : workerHeld s.worker = [(i, st)]) :
    (heldBy s).Perm ((i, st) :: (selectHeld s.select ++ ringsHeld s)) := by
  rw [heldBy_eq, h]
  exact List.perm_middle

end

end

end MlnxLib.SxRpc
