import MlnxLib.SxRpc.Connections

/-!
# Event sources are handled

The steps of the select thread and of the worker keep the invariant.

Principal results: `clientReceive_rpcInv` — a receive, unless it fails while its event source is under way;
`clientQueue_rpcInv` — the select thread queues a command or refuses it;
`dispatchStep_rpcInv`, `dispatchReply_rpcInv` — a step and a reply of the worker.
-/

set_option autoImplicit false

namespace MlnxLib.SxRpc

open Bytes CircularQueue Complib Runs Stages

section

variable {s s' : Rpc} {b : CmdPriority} {i : Nat} {maxBufferSize : Nat} {commands : Commands}

/-! ## Steps of the select thread -/

theorem RpcInv.select (h : RpcInv maxBufferSize commands s) (hidle : s.select = .idle)
    (hi : i = 0 ∨ i < EVENT_SRC_NUM ∧ (s.srcs i).state = .active) :
    RpcInv maxBufferSize commands { s with select := .handling i } where
  queues := h.queues.congr rfl rfl rfl fun _ => rfl
  stages := by
    have hstages := h.stages
    unfold StagesOf at hstages
    rw [heldBy_eq, hidle] at hstages
    exact hstages
  links := h.links.congr (fun _ => ⟨rfl, rfl⟩) rfl rfl rfl rfl
  length_buffer := h.length_buffer
  handling j hj := by
    cases hj
    rcases hi with hi | ⟨-, hactive⟩
    · exact Or.inl hi
    · exact Or.inr (Or.inl hactive)
  stray := h.stray
  replies := h.replies

/-- What a step of the select thread on one event source and its connection leaves. -/
structure SameRest (s s' : Rpc) : Prop where
  queues : SameQueues s s'
  worker : s'.worker = s.worker
  fds : s'.fds = s.fds
  numConns : s'.numConns = s.numConns
  backlog : s'.backlog = s.backlog
  stray : s'.stray = s.stray
  replies : s'.replies = s.replies

theorem SameRest.inv (hsame : SameRest s s') (h : QueuesInv s) : QueuesInv s' :=
  hsame.queues.inv h fun b => congrArg (inHand · b) hsame.worker

/-- **A receive** changes a free event source and its connection, and takes up the event source if it
leaves a command. -/
theorem RpcInv.receive {c : Nat} (h : RpcInv maxBufferSize commands s) (src : EventSrc) (conn : Conn)
    (hsame : SameRest s s') (hselect : selectHeld s.select = []) (hlink : link s i = some (c, s.conns c))
    (hbusy : i ∉ (heldBy s).map Prod.fst) (hsrcs : s'.srcs = Function.update s.srcs i src)
    (hconns : s'.conns = Function.update s.conns c conn) (hinited : src.inited = (s.srcs i).inited)
    (hsocket : src.socket = (s.srcs i).socket)
    (hlen : COMMAND_HEAD_SIZE ≤ maxBufferSize → src.buffer.length = maxBufferSize)
    (hclosed : conn.closed = (s.conns c).closed) (hrefused : conn.refused = (s.conns c).refused)
    (hup : conn.up = (s.conns c).up)
    (hstage : (s'.select = .idle ∧ FreeSrc maxBufferSize commands src (some (c, conn))) ∨
      ∃ origin, s'.select = .queue i origin ∧ Phase commands (.queue origin) src (some (c, conn))) :
    RpcInv maxBufferSize commands s' := by
  obtain ⟨hin, hfd, -⟩ := link_eq_some.mp hlink
  obtain ⟨hlt, hnot, hopen⟩ := h.links.fds_known _ c hfd
  have hsrc : s'.srcs i = src := by rw [hsrcs, Function.update_self]
  have hkeep : ∀ j, (s'.srcs j).inited = (s.srcs j).inited ∧ (s'.srcs j).socket = (s.srcs j).socket := by
    intro j
    by_cases hj : j = i
    · subst hj
      rw [hsrc]
      exact ⟨hinited, hsocket⟩
    · rw [hsrcs, Function.update_of_ne hj]
      exact ⟨rfl, rfl⟩
  have hother : ∀ j, j ≠ i → s'.srcs j = s.srcs j ∧ link s' j = link s j := by
    intro j hj
    have hsrcj : s'.srcs j = s.srcs j := by rw [hsrcs, Function.update_of_ne hj]
    refine ⟨hsrcj, link_congr hsrcj (fun _ => congrFun hsame.fds _) ?_⟩
    intro c' hjin hc'
    rw [hconns, Function.update_of_ne (h.links.sockets.ne_conn hin hfd hjin hj hc')]
  have hlink' : link s' i = some (c, conn) := by
    rw [link_eq_some, hsrc, hinited, hsocket, hsame.fds, hconns, Function.update_self]
    exact ⟨hin, hfd, rfl⟩
  refine ⟨hsame.inv h.queues, ?_, ?_, ?_, ?_, hsame.stray.trans h.stray, ?_⟩
  · refine h.stages.select hselect hsame.worker
      (ringsHeld_same h.queues (hsame.inv h.queues) hsame.queues.pushed hsame.queues.taken) hbusy hother ?_
    rw [hsrc, hlink']
    rcases hstage with ⟨hidle, hfree⟩ | hqueue
    · exact Or.inl ⟨by rw [hidle]; rfl, hfree⟩
    · exact Or.inr hqueue
  · refine h.links.setConn hkeep hsame.fds hconns hsame.numConns hsame.backlog hlt hclosed hrefused
      (fun hdown => hup.trans hdown) (fun hmem => absurd hmem hnot) ?_
    intro hc
    rw [hopen] at hc
    cases hc
  · intro hmax j
    by_cases hj : j = i
    · rw [hj, hsrc]
      exact hlen hmax
    · rw [(hother j hj).1]
      exact h.length_buffer hmax j
  · intro j hj
    rcases hstage with ⟨hidle, -⟩ | ⟨origin, hqueue, -⟩
    · rw [hidle] at hj
      cases hj
    · rw [hqueue] at hj
      cases hj
  · rw [hsame.replies]
    exact h.replies

/-- The descriptor of the event source has been closed meanwhile. -/
theorem RpcInv.terminate (h : RpcInv maxBufferSize commands s) (hselect : selectHeld s.select = [])
    (hfd : s.fds (s.srcs i).socket = none) (hbusy : i ∉ (heldBy s).map Prod.fst) :
    RpcInv maxBufferSize commands (terminate s i none) := by
  have hinited : (s.srcs i).inited = false := by
    rcases h.stages.free i hbusy with ⟨-, hinited⟩ | ⟨-, c, conn, hlink, -⟩
    · exact hinited
    · rw [(link_eq_some.mp hlink).2.1] at hfd
      cases hfd
  have hqueues : QueuesInv (MlnxLib.SxRpc.terminate s i none) := h.queues.congr rfl rfl rfl fun _ => rfl
  have hsrc : (MlnxLib.SxRpc.terminate s i none).srcs i = { s.srcs i with
      state := .terminating, buffer := putCloseCommand (s.srcs i).buffer } := Function.update_self ..
  have hother : ∀ j, j ≠ i → (MlnxLib.SxRpc.terminate s i none).srcs j = s.srcs j :=
    fun j hj => Function.update_of_ne hj ..
  refine ⟨hqueues, ?_, ?_, ?_, ?_, h.stray, h.replies⟩
  · refine h.stages.select hselect rfl (ringsHeld_same h.queues hqueues rfl rfl) hbusy
      (fun j hj => ⟨hother j hj, link_congr (hother j hj) (fun _ => rfl) fun _ _ _ => rfl⟩) ?_
    refine Or.inr ⟨none, rfl, Or.inl ?_⟩
    rw [hsrc]
    refine ⟨rfl, opcode_putCloseCommand _, ?_⟩
    intro c conn hlink
    have hin := (link_eq_some.mp hlink).1
    rw [hsrc] at hin
    exact absurd (hin.symm.trans hinited) (by decide)
  · refine h.links.congr ?_ rfl rfl rfl rfl
    intro j
    by_cases hj : j = i
    · subst hj
      rw [hsrc]
      exact ⟨rfl, rfl⟩
    · rw [hother j hj]
      exact ⟨rfl, rfl⟩
  · intro hmax j
    by_cases hj : j = i
    · subst hj
      have hlen := h.length_buffer hmax j
      rw [hsrc]
      exact (length_putCloseCommand (by omega)).trans hlen
    · rw [hother j hj]
      exact h.length_buffer hmax j
  · intro j hj
    cases hj

/-- The command in a buffer that begins with a whole message. -/
theorem commandOf_of_take {buffer cmd : List UInt8} (hcmd : IsCommand maxBufferSize cmd)
    (h : buffer.take cmd.length = cmd) :
    CommandHead.ofBytes buffer = CommandHead.ofBytes cmd ∧ commandOf buffer = commandOf cmd := by
  have hhead : CommandHead.ofBytes buffer = CommandHead.ofBytes cmd := by
    refine CommandHead.ofBytes_congr (n := cmd.length) ?_ hcmd.head_le
    rw [h, List.take_length]
  have hsize : COMMAND_HEAD_SIZE +
      ((CommandHead.ofBytes cmd).msgSize - headSize COMMAND_HEAD_SIZE).toNat = cmd.length := by
    have hle : headSize COMMAND_HEAD_SIZE ≤ (CommandHead.ofBytes cmd).msgSize := by
      rw [UInt32.le_iff_toNat_le, hcmd.size]
      exact hcmd.head_le
    rw [UInt32.toNat_sub_of_le _ _ hle, hcmd.size]
    exact Nat.add_sub_cancel' hcmd.head_le
  refine ⟨hhead, ?_⟩
  unfold commandOf commandBody
  rw [hhead, List.take_drop, List.take_drop, hsize, h, List.take_length]

/-- A failed receive, as one change of its event source and its connection. -/
theorem terminate_receivedOn (s : Rpc) (i c : Nat) (r : Received) :
    (terminate (receivedOn s i c r) i (some c)).srcs = Function.update s.srcs i { s.srcs i with
      state := .terminating, buffer := putCloseCommand r.buffer, pos := r.pos } := by
  have hsrc : (receivedOn s i c r).srcs i = { s.srcs i with buffer := r.buffer, pos := r.pos } :=
    Function.update_self ..
  show Function.update (receivedOn s i c r).srcs i { (receivedOn s i c r).srcs i with
    state := .terminating, buffer := putCloseCommand ((receivedOn s i c r).srcs i).buffer } = _
  rw [hsrc]
  exact Function.update_idem ..

/-- A failed receive from a client that has disconnected. -/
theorem RpcInv.receiveFailed {c : Nat} {r : Received} (h : RpcInv maxBufferSize commands s)
    (hselect : selectHeld s.select = []) (hlink : link s i = some (c, s.conns c))
    (hbusy : i ∉ (heldBy s).map Prod.fst) (hdown : (s.conns c).up = false)
    (hcaught : Caught commands (s.conns c)) (hsound : Sound (s.conns c))
    (hlen : COMMAND_HEAD_SIZE ≤ maxBufferSize → r.buffer.length = maxBufferSize) :
    RpcInv maxBufferSize commands (MlnxLib.SxRpc.terminate (receivedOn s i c r) i (some c)) := by
  refine h.receive _ { s.conns c with stream := r.stream }
    ⟨⟨rfl, rfl, rfl⟩, rfl, rfl, rfl, rfl, rfl, rfl⟩ hselect hlink hbusy (terminate_receivedOn s i c r) rfl
    rfl rfl ?_ rfl rfl rfl (Or.inr ⟨some c, rfl, Or.inl ⟨rfl, opcode_putCloseCommand _, ?_⟩⟩)
  · intro hmax
    exact (length_putCloseCommand (by rw [hlen hmax]; exact hmax)).trans (hlen hmax)
  · intro c' conn' heq
    cases heq
    exact ⟨hdown, hcaught, hsound⟩

/-- A receive of a part of a command. -/
theorem RpcInv.receivedPart {c : Nat} {r : Received} (h : RpcInv maxBufferSize commands s)
    (hselect : selectHeld s.select = []) (hlink : link s i = some (c, s.conns c))
    (hbusy : i ∉ (heldBy s).map Prod.fst) (hactive : (s.srcs i).state = .active)
    (hcaught : Caught commands (s.conns c)) (hlen : r.buffer.length = maxBufferSize)
    (hreceiving : Receiving maxBufferSize { s.conns c with stream := r.stream } r.buffer r.pos) :
    RpcInv maxBufferSize commands { receivedOn s i c r with select := .idle } :=
  h.receive { s.srcs i with buffer := r.buffer, pos := r.pos } { s.conns c with stream := r.stream }
    ⟨⟨rfl, rfl, rfl⟩, rfl, rfl, rfl, rfl, rfl, rfl⟩ hselect hlink hbusy rfl rfl rfl rfl (fun _ => hlen) rfl
    rfl rfl (Or.inl ⟨rfl, Or.inr ⟨hactive, c, _, rfl, hcaught, hreceiving⟩⟩)

/-- A receive of the last bytes of a command. -/
theorem RpcInv.receivedCommand {c : Nat} {r : Received} (h : RpcInv maxBufferSize commands s)
    (hselect : selectHeld s.select = []) (hlink : link s i = some (c, s.conns c))
    (hbusy : i ∉ (heldBy s).map Prod.fst) (hlen : r.buffer.length = maxBufferSize)
    (hpending : Pending commands { s.srcs i with buffer := r.buffer, pos := r.pos } { s.conns c with
      stream := r.stream, received := (s.conns c).received ++ [commandOf r.buffer] }) :
    RpcInv maxBufferSize commands { (receivedOn s i c r).setConn c { s.conns c with
        stream := r.stream, received := (s.conns c).received ++ [commandOf r.buffer] } with
      select := .queue i (some c) } :=
  h.receive { s.srcs i with buffer := r.buffer, pos := r.pos } { s.conns c with
      stream := r.stream, received := (s.conns c).received ++ [commandOf r.buffer] }
    ⟨⟨rfl, rfl, rfl⟩, rfl, rfl, rfl, rfl, rfl, rfl⟩ hselect hlink hbusy rfl (Function.update_idem ..) rfl rfl
    (fun _ => hlen) rfl rfl rfl (Or.inr ⟨some c, rfl, Or.inr ⟨c, _, rfl, rfl, hpending⟩⟩)

/-- What a receive on an open descriptor does: a failure means that the client has disconnected. -/
theorem clientReceive_cases {c : Nat} {answers : List IoAnswer} (hfd : s.fds (s.srcs i).socket = some c)
    (hstep : clientReceive maxBufferSize s i answers = some s') :
    ∃ r, sxRpcApiReceiveCommand maxBufferSize
        ⟨STATUS_SUCCESS, (s.srcs i).buffer, (s.srcs i).pos, (s.conns c).stream, answers⟩ = some r ∧
      ((∃ a ∈ answers, a.moves = false) → (s.conns c).up = false) ∧
      (r.status = STATUS_CMD_INCOMPLETE → s' = { receivedOn s i c r with select := .idle }) ∧
      (r.status = STATUS_SUCCESS → s' = { (receivedOn s i c r).setConn c { s.conns c with
          stream := r.stream, received := (s.conns c).received ++ [commandOf r.buffer] } with
        select := .queue i (some c) }) ∧
      (r.status = STATUS_ERROR → s' = MlnxLib.SxRpc.terminate (receivedOn s i c r) i (some c)) := by
  unfold clientReceive at hstep
  rw [hfd] at hstep
  dsimp only at hstep
  split at hstep
  · cases hstep
  rename_i hguard
  obtain ⟨r, hcall, rfl⟩ := Option.map_eq_some_iff.mp hstep
  refine ⟨r, hcall, ?_, fun hs => if_pos hs, fun hs => ?_, fun hs => ?_⟩
  · rintro ⟨a, ha, hmoves⟩
    by_contra hup
    refine hguard ⟨eq_true_of_ne_false hup, fun hall => ?_⟩
    rw [hall a ha] at hmoves
    cases hmoves
  · rw [if_neg (by rw [hs]; decide), if_neg (not_not.mpr hs)]
  · rw [if_neg (by rw [hs]; decide), if_pos (by rw [hs]; decide)]

/-- A receive on an event source that is not under way. -/
theorem clientReceive_free {c : Nat} {answers : List IoAnswer} (h : RpcInv maxBufferSize commands s)
    (hselect : selectHeld s.select = []) (hlink : link s i = some (c, s.conns c))
    (hbusy : i ∉ (heldBy s).map Prod.fst) (hactive : (s.srcs i).state = .active)
    (hcaught : Caught commands (s.conns c))
    (hreceiving : Receiving maxBufferSize (s.conns c) (s.srcs i).buffer (s.srcs i).pos)
    (hstep : clientReceive maxBufferSize s i answers = some s') : RpcInv maxBufferSize commands s' := by
  obtain ⟨r, hcall, hdown, hpart, hwhole, hfailed⟩ :=
    clientReceive_cases (link_eq_some.mp hlink).2.1 hstep
  have hsound := hreceiving.sound
  rcases hreceiving with ⟨hpos, hstream, hsent, -⟩ |
    ⟨before, cmd, hsent, hcmd, hopcode, hreceived, hwaits, htake, hlt, hprefix⟩
  · -- the client has nothing under way
    obtain ⟨hs, hbuf, ha⟩ := sxRpcApiReceiveCommand_idle hpos hstream hcall
    rw [hfailed hs]
    exact h.receiveFailed hselect hlink hbusy (hdown ha) hcaught hsound
      fun hmax => (congrArg List.length hbuf).trans (h.length_buffer hmax i)
  · have hlen := h.length_buffer (Nat.le_trans hcmd.head_le hcmd.le_max) i
    cases sxRpcApiReceiveCommand_within hcmd ⟨hlen, htake, Nat.le_of_lt hlt, hprefix⟩ hcall with
    | incomplete hs hwithin hshort =>
      rw [hpart hs]
      exact h.receivedPart hselect hlink hbusy hactive hcaught hwithin.length_buffer
        (Or.inr ⟨before, cmd, hsent, hcmd, hopcode, hreceived, hwaits, hwithin.take_buffer, hshort,
          hwithin.stream_prefix⟩)
    | complete hs hpos hbuf hstream hlength =>
      rw [hwhole hs]
      obtain ⟨hhead, hcommand⟩ := commandOf_of_take hcmd hbuf
      refine h.receivedCommand hselect hlink hbusy hlength ⟨hactive, hpos, by rw [hhead]; exact hopcode, hstream,
        hwaits, ?_, (s.conns c).received, rfl, hcaught⟩
      show (s.conns c).sent.map commandOf = (s.conns c).received ++ [commandOf r.buffer]
      rw [hsent, hreceived, hcommand, List.map_append, List.map_singleton]
    | failed hs hwithin ha =>
      rw [hfailed hs]
      exact h.receiveFailed hselect hlink hbusy (hdown ha) hcaught hsound fun _ => hwithin.length_buffer

/-- A receive on an event source under way fails: there is nothing to receive. -/
theorem clientReceive_busy {c : Nat} {answers : List IoAnswer} (h : RpcInv maxBufferSize commands s)
    (hfd : s.fds (s.srcs i).socket = some c) (hbusy : i ∈ (heldBy s).map Prod.fst)
    (hactive : (s.srcs i).state = .active)
    (hstep : clientReceive maxBufferSize s i answers = some s') : ∃ a ∈ answers, a.moves = false := by
  obtain ⟨⟨j, st⟩, hmem, rfl⟩ := List.mem_map.mp hbusy
  obtain ⟨hpos, c', conn, hlink, hstream⟩ := (h.stages.phase j st hmem).active hactive
  obtain ⟨-, hfd', rfl⟩ := link_eq_some.mp hlink
  cases Option.some.inj (hfd.symm.trans hfd')
  obtain ⟨r, hcall, -⟩ := clientReceive_cases hfd hstep
  exact (sxRpcApiReceiveCommand_idle hpos hstream hcall).2.2

/-- **A receive keeps the invariant**, unless it fails while its event source is under way. -/
theorem clientReceive_rpcInv {answers : List IoAnswer} (h : RpcInv maxBufferSize commands s)
    (hselect : s.select = .handling i) (hi : i ≠ 0)
    (horderly : (∀ a ∈ answers, a.moves = true) ∨ i ∉ (heldBy s).map Prod.fst)
    (hstep : clientReceive maxBufferSize s i answers = some s') : RpcInv maxBufferSize commands s' := by
  have hheld : selectHeld s.select = [] := by rw [hselect]; rfl
  have hfails : (∃ a ∈ answers, a.moves = false) → i ∉ (heldBy s).map Prod.fst := by
    rintro ⟨a, ha, hmoves⟩
    refine horderly.resolve_left fun hall => ?_
    rw [hall a ha] at hmoves
    cases hmoves
  cases hfd : s.fds (s.srcs i).socket with
  | none =>
    unfold clientReceive at hstep
    rw [hfd] at hstep
    dsimp only at hstep
    split at hstep
    · rename_i hanswers
      cases hstep
      exact h.terminate hheld hfd (hfails ⟨.error, by rw [hanswers]; exact List.mem_singleton_self _, rfl⟩)
    · cases hstep
  | some c =>
    have hactive : (s.srcs i).state = .active := by
      rcases h.handling i hselect with h0 | hactive | ⟨-, hnone⟩
      · exact absurd h0 hi
      · exact hactive
      · rw [hfd] at hnone
        cases hnone
    by_cases hbusy : i ∈ (heldBy s).map Prod.fst
    · exact absurd hbusy (hfails (clientReceive_busy h hfd hbusy hactive hstep))
    · rcases h.stages.free i hbusy with ⟨hstate, -⟩ | ⟨-, c', conn, hlink, hcaught, hreceiving⟩
      · rw [hactive] at hstate
        cases hstate
      · obtain ⟨-, -, rfl⟩ := link_eq_some.mp hlink
        exact clientReceive_free h hheld hlink hbusy hactive hcaught hreceiving hstep

/-! ## Replies -/

/-- What a reply does: it reaches the connection of its event source, or this client has disconnected. -/
theorem sendReply_cases {origin : Option Nat} {ok : Bool} {c : Nat} (hlink : link s i = some (c, s.conns c))
    (h : sendReply s i origin ok = some s') :
    (ok = true ∧ s' = { s.setConn c { s.conns c with awaiting := false } with
        replies := s.replies ++ [(origin, c)] }) ∨
      (ok = false ∧ (s.conns c).up = false ∧ s' = s) := by
  unfold sendReply at h
  rw [(link_eq_some.mp hlink).2.1] at h
  dsimp only at h
  split at h
  · rename_i hok
    cases h
    exact Or.inl ⟨hok, rfl⟩
  · rename_i hok
    split at h
    · cases h
    · rename_i hup
      cases h
      exact Or.inr ⟨eq_false_of_ne_true hok, eq_false_of_ne_true hup, rfl⟩

/-- The replies after one to the connection that it answers. -/
theorem replies_append {replies : List (Option Nat × Nat)} {origin : Option Nat} {c : Nat}
    (h : ∀ p ∈ replies, p.1 = some p.2) (horigin : origin = some c) :
    ∀ p ∈ replies ++ [(origin, c)], p.1 = some p.2 := by
  intro p hp
  rcases List.mem_append.mp hp with hp | hp
  · exact h p hp
  · rw [List.mem_singleton.mp hp]
    exact horigin

/-- The select thread refuses a command that is not registered. -/
theorem RpcInv.refuse {origin : Option Nat} {ok : Bool} {s₁ : Rpc} (h : RpcInv maxBufferSize commands s)
    (hselect : s.select = .queue i origin)
    (hqueue : queuePriority commands (CommandHead.ofBytes (s.srcs i).buffer).opcode = none)
    (hsend : sendReply s i origin ok = some s₁) :
    RpcInv maxBufferSize commands { s₁ with select := .idle } := by
  have hheld := heldBy_queue hselect
  have hphase := h.stages.phase_of_mem (List.Perm.of_eq hheld)
  unfold queuePriority at hqueue
  rcases hphase with ⟨-, hclose, -⟩ | ⟨c, conn, hlink, horigin, hactive, hpos, hopcode, hstream, hwaits, hsent,
    before, hreceived, hhandled⟩
  · rw [if_neg (not_not.mpr hclose)] at hqueue
    cases hqueue
  obtain ⟨-, -, rfl⟩ := link_eq_some.mp hlink
  rw [if_pos hopcode] at hqueue
  -- the command received last has no callback
  have hcaught : Caught commands (s.conns c) := by
    have hnone : registered commands (commandOf (s.srcs i).buffer) = false :=
      congrArg Option.isSome hqueue
    unfold Caught
    rw [hreceived, List.filter_append, List.filter_cons_of_neg (by rw [hnone]; decide), List.filter_nil,
      List.append_nil]
    exact hhandled
  rcases sendReply_cases hlink hsend with ⟨-, rfl⟩ | ⟨-, hdown, hsame⟩
  · obtain ⟨hother, hsrc, hlink'⟩ := h.links.sockets.other_setConn { s.setConn c
        { s.conns c with awaiting := false } with replies := s.replies ++ [(origin, c)], select := .idle }
      hlink rfl rfl rfl
    have hqueues : QueuesInv { s.setConn c { s.conns c with awaiting := false } with
        replies := s.replies ++ [(origin, c)], select := .idle } := h.queues.congr rfl rfl rfl fun _ => rfl
    refine ⟨hqueues, ?_, h.links.setOpenConn hlink rfl rfl rfl rfl rfl rfl rfl rfl, h.length_buffer, ?_, h.stray,
      replies_append h.replies horigin⟩
    · refine h.stages.remove (List.Perm.of_eq hheld) ?_ hother ?_
      · rw [heldBy_eq, ringsHeld_same h.queues hqueues rfl rfl]
        exact List.Perm.refl _
      · rw [hsrc, hlink']
        exact Or.inr ⟨hactive, c, _, rfl, hcaught, Or.inl ⟨hpos, hstream, hsent, fun h => Bool.noConfusion h⟩⟩
    · intro j hj
      cases hj
  · rw [hsame]
    have hqueues : QueuesInv { s with select := .idle } := h.queues.congr rfl rfl rfl fun _ => rfl
    refine ⟨hqueues, ?_, h.links.congr (fun _ => ⟨rfl, rfl⟩) rfl rfl rfl rfl, h.length_buffer, ?_, h.stray,
      h.replies⟩
    · refine h.stages.remove (List.Perm.of_eq hheld) ?_ (fun j _ => ⟨rfl, rfl⟩) ?_
      · rw [heldBy_eq, ringsHeld_same h.queues hqueues rfl rfl]
        exact List.Perm.refl _
      · exact Or.inr ⟨hactive, c, _, hlink, hcaught, Or.inl ⟨hpos, hstream, hsent, fun _ => hdown⟩⟩
    · intro j hj
      cases hj

/-- The select thread pushes an event source. -/
theorem RpcInv.push {origin : Option Nat} {b : CmdPriority} (h : RpcInv maxBufferSize commands s)
    (hselect : s.select = .queue i origin)
    (hqueue : queuePriority commands (CommandHead.ofBytes (s.srcs i).buffer).opcode = some b)
    (hfull : ¬ (s.rings b).Full) :
    RpcInv maxBufferSize commands { s with
      rings := Function.update s.rings b ((s.rings b).push i)
      pushed := Function.update s.pushed b (s.pushed b ++ [i])
      select := .idle } := by
  have hqueues : QueuesInv { s with
      rings := Function.update s.rings b ((s.rings b).push i)
      pushed := Function.update s.pushed b (s.pushed b ++ [i])
      select := .idle } := h.queues.push hfull rfl rfl rfl rfl
  have hheld := heldBy_queue hselect
  refine ⟨hqueues, ?_, h.links.congr (fun _ => ⟨rfl, rfl⟩) rfl rfl rfl rfl, h.length_buffer, ?_, h.stray,
    h.replies⟩
  · refine h.stages.move (.waiting b) (List.Perm.of_eq hheld) ?_ (fun j _ => ⟨rfl, rfl⟩) ?_
    · have hpush := waiting_push (b := b) h.queues hqueues (Function.update_self ..) rfl
      have hrings := ringsHeld_perm (b := b) (by rw [hpush]; exact List.perm_append_singleton _ _)
        (fun b' hb' => waiting_same h.queues hqueues (Function.update_of_ne hb' ..) rfl)
      rw [heldBy_eq]
      exact (hrings.append_left _).trans List.perm_middle
    · unfold queuePriority at hqueue
      rcases h.stages.phase_of_mem (List.Perm.of_eq hheld) with ⟨hstate, hclose, hs⟩ | ⟨c, conn, hlink, -, hpending⟩
      · rw [if_neg (not_not.mpr hclose)] at hqueue
        exact Or.inl ⟨(Option.some.inj hqueue).symm, hstate, hclose, hs⟩
      · rw [if_pos hpending.2.2.1] at hqueue
        exact Or.inr ⟨c, conn, hlink, hpending, hqueue⟩
  · intro j hj
    cases hj

theorem clientQueue_rpcInv {origin : Option Nat} {ok : Bool} (h : RpcInv maxBufferSize commands s)
    (hselect : s.select = .queue i origin)
    (hroom : ∀ b, queuePriority commands (CommandHead.ofBytes (s.srcs i).buffer).opcode = some b →
      ¬ (s.rings b).Full)
    (hstep : clientQueue commands s i origin ok = some s') : RpcInv maxBufferSize commands s' := by
  unfold clientQueue at hstep
  split at hstep
  · rename_i hnone
    obtain ⟨s₁, hsend, rfl⟩ := Option.map_eq_some_iff.mp hstep
    exact h.refuse hselect hnone hsend
  · rename_i b hb
    cases hstep
    exact h.push hselect hb (hroom b hb)

/-! ## Steps of the worker -/

/-- The worker goes on with the event source in its hands. -/
theorem RpcInv.workerMove {pc : DispatchPc} {st st' : Stage} (h : RpcInv maxBufferSize commands s)
    (hheld : workerHeld s.worker = [(i, st)]) (hheld' : workerHeld pc = [(i, st')])
    (hhand : ∀ b, inHand pc b = inHand s.worker b) (hphase : Phase commands st' (s.srcs i) (link s i)) :
    RpcInv maxBufferSize commands { s with worker := pc } := by
  have hqueues : QueuesInv { s with worker := pc } := h.queues.congr rfl rfl rfl hhand
  refine ⟨hqueues, ?_, h.links.congr (fun _ => ⟨rfl, rfl⟩) rfl rfl rfl rfl, h.length_buffer, h.handling, h.stray,
    h.replies⟩
  refine h.stages.move st' (heldBy_worker hheld) ?_ (fun _ _ => ⟨rfl, rfl⟩) hphase
  have hperm := heldBy_worker (s := { s with worker := pc }) hheld'
  rwa [ringsHeld_same h.queues hqueues rfl rfl] at hperm

/-- The worker calls the callback of a request. -/
theorem RpcInv.call {b : CmdPriority} {c : Nat} (h : RpcInv maxBufferSize commands s)
    (hworker : s.worker = .taken b i) (hlink : link s i = some (c, s.conns c))
    (hpending : Pending commands (s.srcs i) (s.conns c))
    (hcommand : commands (CommandHead.ofBytes (s.srcs i).buffer).opcode.toInt32 = some b) :
    RpcInv maxBufferSize commands { callCallback s (some c) (commandOf (s.srcs i).buffer) with
      worker := .replying b i (some c) } := by
  have hheld := heldBy_worker (s := s) (by rw [hworker]; rfl)
  have hqueues : QueuesInv { callCallback s (some c) (commandOf (s.srcs i).buffer) with
      worker := .replying b i (some c) } := h.queues.congr rfl rfl rfl fun b' => by rw [hworker]; rfl
  obtain ⟨hother, hsrc, hlink'⟩ := h.links.sockets.other_setConn
    { callCallback s (some c) (commandOf (s.srcs i).buffer) with worker := .replying b i (some c) }
    hlink rfl rfl rfl
  obtain ⟨hactive, hpos, -, hstream, hwaits, hsent, before, hreceived, hhandled⟩ := hpending
  refine ⟨hqueues, ?_, h.links.setOpenConn hlink rfl rfl rfl rfl rfl rfl rfl rfl, h.length_buffer, h.handling,
    h.stray, h.replies⟩
  refine h.stages.move (.replying (some c)) hheld ?_ hother ?_
  · rw [← ringsHeld_same h.queues hqueues rfl rfl]
    exact heldBy_worker (s := { callCallback s (some c) (commandOf (s.srcs i).buffer) with
      worker := .replying b i (some c) }) rfl
  · rw [hsrc, hlink']
    refine ⟨c, _, rfl, rfl, hactive, hpos, hstream, hwaits, hsent, ?_⟩
    have hsome : registered commands (commandOf (s.srcs i).buffer) = true := congrArg Option.isSome hcommand
    show (s.conns c).received.filter (registered commands) =
      (s.conns c).handled ++ [commandOf (s.srcs i).buffer]
    rw [hreceived, List.filter_append, List.filter_cons_of_pos hsome, List.filter_nil, hhandled]

/-- **A step of the worker keeps the invariant.** -/
theorem dispatchStep_rpcInv (h : RpcInv maxBufferSize commands s)
    (hstep : dispatchStep commands s = some s') : RpcInv maxBufferSize commands s' := by
  have hqueues' := dispatchStep_inv h.queues hstep
  unfold dispatchStep at hstep
  split at hstep
  · rename_i b hpc
    split at hstep
    · -- an entry goes from its ring to the hands of the worker, at the same stage
      cases hstep
      refine ⟨hqueues', ?_, h.links.congr (fun _ => ⟨rfl, rfl⟩) rfl rfl rfl rfl, h.length_buffer, h.handling,
        h.stray, h.replies⟩
      refine h.stages.same ?_ fun _ => ⟨rfl, rfl⟩
      have htake := waiting_take (b := b) h.queues hqueues' rfl (Function.update_self ..)
      have hrings : (ringsHeld s).Perm _ := ringsHeld_perm (List.Perm.of_eq htake)
        (fun b' hb' => (waiting_same h.queues hqueues' rfl (Function.update_of_ne hb' ..)).symm)
      rw [heldBy_eq s, hpc]
      exact (hrings.symm.append_left _)
    · cases hstep
      refine ⟨hqueues', ?_, h.links.congr (fun _ => ⟨rfl, rfl⟩) rfl rfl rfl rfl, h.length_buffer, h.handling,
        h.stray, h.replies⟩
      refine h.stages.same ?_ fun _ => ⟨rfl, rfl⟩
      rw [heldBy_eq, heldBy_eq s, hpc, ringsHeld_same h.queues hqueues' rfl rfl]
      exact List.Perm.refl _
  · rename_i b i hpc
    have hheld : workerHeld s.worker = [(i, .waiting b)] := by rw [hpc]; rfl
    have hhand : ∀ pc : DispatchPc, (∀ b', inHand pc b' = decide (b = b')) →
        ∀ b', inHand pc b' = inHand s.worker b' := fun pc h b' => by rw [hpc]; exact h b'
    rcases h.stages.phase_of_mem (heldBy_worker hheld) with ⟨rfl, hdoomed⟩ | ⟨c, conn, hlink, hpending, hcommand⟩
    · -- the command to close
      have hclose : dispatchOf commands (s.srcs i).buffer .high = .close := if_pos ⟨rfl, hdoomed.2.1⟩
      rw [hclose] at hstep
      cases hstep
      refine h.workerMove hheld rfl (hhand _ fun _ => rfl) ⟨?_, hdoomed.2.2, ?_⟩
      · rw [hdoomed.1]
        exact EventSrcState.noConfusion
      · intro hactive
        rw [hdoomed.1] at hactive
        cases hactive
    · -- a request, which has a callback
      obtain ⟨-, hfd, rfl⟩ := link_eq_some.mp hlink
      have hcall : dispatchOf commands (s.srcs i).buffer b = .call (commandOf (s.srcs i).buffer) := by
        unfold dispatchOf
        rw [if_neg (fun hclose => hpending.2.2.1 hclose.2), hcommand]
      rw [hcall, hfd] at hstep
      cases hstep
      exact h.call hpc hlink hpending hcommand
  · cases hstep
  · rename_i b i hpc
    cases hstep
    exact h.closeEventSrc hpc
  · rename_i b hpc
    cases hstep
    refine ⟨hqueues', ?_, h.links.congr (fun _ => ⟨rfl, rfl⟩) rfl rfl rfl rfl, h.length_buffer, h.handling,
      h.stray, h.replies⟩
    refine h.stages.same ?_ fun _ => ⟨rfl, rfl⟩
    rw [heldBy_eq, heldBy_eq s, hpc, ringsHeld_same h.queues hqueues' rfl rfl]
    exact List.Perm.refl _

/-- **A reply of the worker keeps the invariant.** -/
theorem dispatchReply_rpcInv {ok : Bool} (h : RpcInv maxBufferSize commands s)
    (hstep : dispatchReply s ok = some s') : RpcInv maxBufferSize commands s' := by
  have hqueues' := dispatchReply_inv h.queues hstep
  unfold dispatchReply at hstep
  split at hstep
  · rename_i b i origin hpc
    obtain ⟨s₁, hsend, rfl⟩ := Option.map_eq_some_iff.mp hstep
    have hheld : workerHeld s.worker = [(i, .replying origin)] := by rw [hpc]; rfl
    obtain ⟨c, conn, hlink, horigin, hactive, hpos, hstream, hwaits, hsent, hcaught⟩ :=
      h.stages.phase_of_mem (heldBy_worker hheld)
    obtain ⟨-, -, rfl⟩ := link_eq_some.mp hlink
    rcases sendReply_cases hlink hsend with ⟨rfl, rfl⟩ | ⟨rfl, hdown, hsame⟩
    · rw [if_pos rfl] at hqueues' ⊢
      obtain ⟨hother, hsrc, hlink'⟩ := h.links.sockets.other_setConn { s.setConn c
        { s.conns c with awaiting := false } with
        replies := s.replies ++ [(origin, c)], worker := .finishing b } hlink rfl rfl rfl
      refine ⟨hqueues', ?_, h.links.setOpenConn hlink rfl rfl rfl rfl rfl rfl rfl rfl, h.length_buffer, h.handling,
        h.stray, replies_append h.replies horigin⟩
      refine h.stages.remove (heldBy_worker hheld) ?_ hother ?_
      · rw [heldBy_eq, ringsHeld_same h.queues hqueues' rfl rfl]
        exact List.Perm.refl _
      · rw [hsrc, hlink']
        exact Or.inr ⟨hactive, c, _, rfl, hcaught, Or.inl ⟨hpos, hstream, hsent, fun h => Bool.noConfusion h⟩⟩
    · rw [hsame, if_neg (by decide)]
      refine h.workerMove hheld rfl (fun b' => by rw [hpc]; rfl) ⟨?_, ?_, ?_⟩
      · rw [hactive]
        exact EventSrcState.noConfusion
      · intro c' conn' hlink'
        cases Option.some.inj (hlink.symm.trans hlink')
        exact ⟨hdown, hcaught, [], by rw [hsent, List.append_nil], Nat.zero_le _⟩
      · exact fun _ => ⟨hpos, c, _, hlink, hstream⟩
  · cases hstep

end

end MlnxLib.SxRpc
