import MlnxLib.SxRpc.Handling

/-!
# Each request is dispatched once, for its own connection

It goes well as long as a disconnection is read only while no request of the event source is under way.

* `ExactlyOnce` — the property.
* `Orderly` — a request does not have the opcode of the internal command, a receive fails only while its
  event source is not under way, a handshake does not fail and a push has room.

Principal results: `exactlyOnce_of_orderly` — in every run of orderly steps each request received is
handed to its callback once, each reply goes where its request came from, and only connections whose
clients have disconnected are closed; `disconnect_drops_request` — a run in which a request is lost.
-/

set_option autoImplicit false

namespace MlnxLib.SxRpc

open Bytes CircularQueue Complib Runs Stages

/-! ## The property -/

/-- A request of the connection waits in the event source to be looked at. -/
def AwaitsDispatch (s : Rpc) (i c : Nat) : Prop :=
  s.fds (s.srcs i).socket = some c ∧
    (i ∈ toQueue s.select ∨ ∃ b, i ∈ waiting s b ∨ s.worker = .taken b i)

/-- **Exactly once, and to the right connection.** -/
structure ExactlyOnce (commands : Commands) (s : Rpc) : Prop where
  /-- The commands received are those that the client has sent; at most one is still under way. -/
  received : ∀ c, ∃ rest, (s.conns c).sent.map commandOf = (s.conns c).received ++ rest ∧ rest.length ≤ 1
  /-- The callbacks called are those of the commands received; at most one command is still to be looked
  at, and then it waits in the buffer of an event source. -/
  handled : ∀ c, (s.conns c).received.filter (registered commands) = (s.conns c).handled ∨
    ∃ i, AwaitsDispatch s i c ∧ (s.conns c).received.filter (registered commands) =
      (s.conns c).handled ++ [commandOf (s.srcs i).buffer]
  /-- No callback is called for no connection. -/
  stray : s.stray = []
  /-- A reply goes to the connection that its request came from. -/
  replies : ∀ p ∈ s.replies, p.1 = some p.2
  /-- The server has closed only connections of clients that have disconnected, or for which there was
  no event source to begin with. -/
  closed : ∀ c, (s.conns c).closed = true → (s.conns c).up = false ∨ (s.conns c).refused = true

section

variable {s s' : Rpc} {b : CmdPriority} {i : Nat} {maxBufferSize : Nat} {commands : Commands}

/-! ## All connections -/

/-- Each connection is new, waits to be accepted, is linked to an event source or is gone. -/
theorem RpcInv.conn_cases (h : RpcInv maxBufferSize commands s) (c : Nat) :
    s.conns c = newConn ∨ c ∈ s.backlog ∨ (∃ i, link s i = some (c, s.conns c)) ∨
      ((s.conns c).closed = true ∧ ((s.conns c).up = false ∨ (s.conns c).refused = true) ∧
        Caught commands (s.conns c) ∧ Sound (s.conns c)) := by
  by_cases hlt : c < s.numConns
  · by_cases hmem : c ∈ s.backlog
    · exact Or.inr (Or.inl hmem)
    · by_cases hfd : ∃ f, s.fds f = some c
      · obtain ⟨f, hf⟩ := hfd
        obtain ⟨i, hin, rfl⟩ := h.links.sockets.fds_src f c hf
        exact Or.inr (Or.inr (Or.inl ⟨i, link_eq_some.mpr ⟨hin, hf, rfl⟩⟩))
      · exact Or.inr (Or.inr (Or.inr (h.links.gone c hlt hmem fun f hf => hfd ⟨f, hf⟩)))
  · exact Or.inl (h.links.fresh c (Nat.le_of_not_lt hlt))

/-- An event source that waits to be looked at. -/
theorem mem_heldBy_waiting {st : Stage} (h : (i, st) ∈ heldBy s) :
    (∃ origin, st = .queue origin ∧ s.select = .queue i origin) ∨
    (∃ b, st = .waiting b ∧ (i ∈ waiting s b ∨ s.worker = .taken b i)) ∨
    (∃ origin, st = .replying origin) ∨ st = .closing := by
  have hring : ∀ b, (i, st) ∈ ringHeld s b → st = .waiting b ∧ i ∈ waiting s b := by
    intro b hmem
    obtain ⟨j, hj, heq⟩ := List.mem_map.mp hmem
    cases heq
    exact ⟨rfl, hj⟩
  rw [heldBy_eq] at h
  rcases List.mem_append.mp h with hselect | h
  · cases hpc : s.select with
    | queue j origin =>
      rw [hpc] at hselect
      cases List.mem_singleton.mp hselect
      exact Or.inl ⟨origin, rfl, rfl⟩
    | idle => rw [hpc] at hselect; cases hselect
    | handling j => rw [hpc] at hselect; cases hselect
    | handshake f => rw [hpc] at hselect; cases hselect
  rcases List.mem_append.mp h with hworker | h
  · cases hpc : s.worker with
    | taken b j =>
      rw [hpc] at hworker
      cases List.mem_singleton.mp hworker
      exact Or.inr (Or.inl ⟨b, rfl, Or.inr rfl⟩)
    | replying b j origin =>
      rw [hpc] at hworker
      cases List.mem_singleton.mp hworker
      exact Or.inr (Or.inr (Or.inl ⟨origin, rfl⟩))
    | closing b j =>
      rw [hpc] at hworker
      cases List.mem_singleton.mp hworker
      exact Or.inr (Or.inr (Or.inr rfl))
    | check b => rw [hpc] at hworker; cases hworker
    | finishing b => rw [hpc] at hworker; cases hworker
  have hb : ∃ b, st = .waiting b ∧ i ∈ waiting s b := by
    rcases List.mem_append.mp h with hmem | h
    · exact ⟨.high, hring .high hmem⟩
    · rcases List.mem_append.mp h with hmem | hmem
      · exact ⟨.medium, hring .medium hmem⟩
      · exact ⟨.low, hring .low hmem⟩
  obtain ⟨b, hst, hmem⟩ := hb
  exact Or.inr (Or.inl ⟨b, hst, Or.inl hmem⟩)

/-- A request that waits has been received last; it is the only one not handled. -/
theorem Pending.handled {src : EventSrc} {conn : Conn} (h : Pending commands src conn) :
    conn.received.filter (registered commands) = conn.handled ∨
      conn.received.filter (registered commands) = conn.handled ++ [commandOf src.buffer] := by
  obtain ⟨-, -, -, -, -, -, before, hreceived, hhandled⟩ := h
  rw [hreceived, List.filter_append, hhandled, List.filter_singleton]
  cases registered commands (commandOf src.buffer) with
  | false => exact Or.inl (List.append_nil _)
  | true => exact Or.inr rfl

/-- What is true of a connection linked to an event source. -/
theorem RpcInv.linked {c : Nat} (h : RpcInv maxBufferSize commands s) (hlink : link s i = some (c, s.conns c)) :
    Sound (s.conns c) ∧ (Caught commands (s.conns c) ∨
      AwaitsDispatch s i c ∧ (s.conns c).received.filter (registered commands) =
        (s.conns c).handled ++ [commandOf (s.srcs i).buffer]) := by
  have hsettled : Settled commands (link s i) → Sound (s.conns c) ∧ Caught commands (s.conns c) :=
    fun hs => ⟨(hs c _ hlink).2.2, (hs c _ hlink).2.1⟩
  have hpending : ∀ c' conn, link s i = some (c', conn) → Pending commands (s.srcs i) conn →
      (i ∈ toQueue s.select ∨ ∃ b, i ∈ waiting s b ∨ s.worker = .taken b i) →
      Sound (s.conns c) ∧ (Caught commands (s.conns c) ∨
        AwaitsDispatch s i c ∧ (s.conns c).received.filter (registered commands) =
          (s.conns c).handled ++ [commandOf (s.srcs i).buffer]) := by
    intro c' conn hlink' hp hwaits
    cases Option.some.inj (hlink.symm.trans hlink')
    refine ⟨⟨[], by rw [hp.2.2.2.2.2.1, List.append_nil], Nat.zero_le _⟩, ?_⟩
    exact hp.handled.imp_right fun hlast => ⟨⟨(link_eq_some.mp hlink).2.1, hwaits⟩, hlast⟩
  by_cases hbusy : i ∈ (heldBy s).map Prod.fst
  · obtain ⟨⟨j, st⟩, hmem, rfl⟩ := List.mem_map.mp hbusy
    have hphase := h.stages.phase j st hmem
    rcases mem_heldBy_waiting hmem with ⟨origin, rfl, hselect⟩ | ⟨b, rfl, hb⟩ | ⟨origin, rfl⟩ | rfl
    · rcases hphase with ⟨-, -, hs⟩ | ⟨c', conn, hlink', -, hp⟩
      · exact ⟨(hsettled hs).1, Or.inl (hsettled hs).2⟩
      · exact hpending c' conn hlink' hp (Or.inl (by rw [hselect]; exact Option.mem_some_self _))
    · rcases hphase with ⟨-, -, -, hs⟩ | ⟨c', conn, hlink', hp, -⟩
      · exact ⟨(hsettled hs).1, Or.inl (hsettled hs).2⟩
      · exact hpending c' conn hlink' hp (Or.inr ⟨b, hb⟩)
    · obtain ⟨c', conn, hlink', -, -, -, -, -, hsent, hcaught⟩ := hphase
      cases Option.some.inj (hlink.symm.trans hlink')
      exact ⟨⟨[], by rw [hsent, List.append_nil], Nat.zero_le _⟩, Or.inl hcaught⟩
    · exact ⟨(hsettled hphase.2.1).1, Or.inl (hsettled hphase.2.1).2⟩
  · rcases h.stages.free i hbusy with ⟨-, hinited⟩ | ⟨-, c', conn, hlink', hcaught, hreceiving⟩
    · rw [(link_eq_some.mp hlink).1] at hinited
      cases hinited
    · cases Option.some.inj (hlink.symm.trans hlink')
      exact ⟨hreceiving.sound, Or.inl hcaught⟩

/-- **The invariant gives the property.** -/
theorem RpcInv.exactlyOnce (h : RpcInv maxBufferSize commands s) : ExactlyOnce commands s where
  received c := by
    rcases h.conn_cases c with hnew | hmem | ⟨i, hlink⟩ | ⟨-, -, -, hsound⟩
    · rw [hnew]
      exact ⟨[], rfl, Nat.zero_le _⟩
    · exact ((h.links.backlog c hmem).2.2.2 []).sound
    · exact (h.linked hlink).1
    · exact hsound
  handled c := by
    rcases h.conn_cases c with hnew | hmem | ⟨i, hlink⟩ | ⟨-, -, hcaught, -⟩
    · rw [hnew]
      exact Or.inl rfl
    · exact Or.inl (h.links.backlog c hmem).2.2.1
    · exact (h.linked hlink).2.imp_right fun hwaits => ⟨i, hwaits⟩
    · exact Or.inl hcaught
  stray := h.stray
  replies := h.replies
  closed c hc := by
    rcases h.conn_cases c with hnew | hmem | ⟨i, hlink⟩ | ⟨-, hdown, -⟩
    · rw [hnew] at hc
      cases hc
    · rw [(h.links.backlog c hmem).2.1] at hc
      cases hc
    · rw [(h.links.fds_known _ c (link_eq_some.mp hlink).2.1).2.2] at hc
      cases hc
    · exact hdown

/-- The invariant holds at the start. -/
theorem rpcInv_open {buffers : Nat → List UInt8} (hbuffers : ∀ i, (buffers i).length = maxBufferSize) :
    RpcInv maxBufferSize commands (openRpc buffers) where
  queues := queuesInv_open buffers
  stages := by
    have hheld : heldBy (openRpc buffers) = [] := by
      have hrings : ∀ b, ringHeld (openRpc buffers) b = [] := by
        intro b
        show ((openRings 0 b).items.drop 0).map _ = []
        unfold openRings
        rw [RingBuffer.items_empty]
        rfl
      rw [heldBy_eq]
      unfold ringsHeld
      rw [hrings, hrings, hrings]
      rfl
    unfold StagesOf
    rw [hheld]
    refine ⟨List.nodup_nil, ?_, fun i _ => Or.inl ⟨rfl, rfl⟩⟩
    intro i st hmem
    cases hmem
  links := by
    refine ⟨⟨?_, ?_, ?_, ?_⟩, ?_, List.nodup_nil, ?_, fun c _ => rfl, ?_⟩
    · intro i hi
      cases hi
    · intro i j hi
      cases hi
    · intro f f' c hf
      cases hf
    · intro f c hf
      cases hf
    · intro f c hf
      cases hf
    · intro c hc
      cases hc
    · intro c hc
      cases hc
  length_buffer _ := hbuffers
  handling i hi := by cases hi
  stray := rfl
  replies p hp := by cases hp

end

/-! ## Orderly runs -/

/-- The event sources under way: a request of theirs waits, or is being answered. -/
def busy (s : Rpc) : List Nat := (heldBy s).map Prod.fst

/-- The event source that the select thread handles. -/
def toReceive : SelectPc → Option Nat
  | .handling i => some i
  | _ => none

/-- What must not happen beside the steps of the threads. -/
def OrderlyEvent (s : Rpc) : RpcEvent → Prop
  | .send _ request => (CommandHead.ofBytes request).opcode ≠ CMD_CLOSE_EVENT_SRC
  | .receive answers => (∀ a ∈ answers, a.moves = true) ∨ ∀ i ∈ toReceive s.select, i ∉ busy s
  | .handshake ok => ok = true
  | _ => True

instance (s : Rpc) (e : RpcEvent) : Decidable (OrderlyEvent s e) := by
  cases e <;> unfold OrderlyEvent <;> infer_instance

/-- **A step is orderly**: a request has an opcode of its own, a receive fails only while its event source
is not under way, a handshake does not fail, and a push has room. -/
def Orderly (commands : Commands) (s : Rpc) (e : RpcEvent) : Prop :=
  Room commands s e ∧ OrderlyEvent s e

instance (commands : Commands) (s : Rpc) (e : RpcEvent) : Decidable (Orderly commands s e) :=
  inferInstanceAs (Decidable (_ ∧ _))

/-- **Each orderly step keeps the invariant.** -/
theorem rpcStep_rpcInv {maxBufferSize : Nat} {commands : Commands} {s s' : Rpc} {e : RpcEvent}
    (h : RpcInv maxBufferSize commands s) (horderly : Orderly commands s e)
    (hstep : rpcStep maxBufferSize commands s e = some s') : RpcInv maxBufferSize commands s' := by
  obtain ⟨hroom, hevent⟩ := horderly
  cases e with
  | connect =>
    rw [rpcStep] at hstep
    cases hstep
    exact h.connect
  | send c request =>
    rw [rpcStep] at hstep
    split at hstep
    · rename_i hsend
      obtain ⟨hlt, hup, hidle, hopen, hrequest⟩ := hsend
      cases hstep
      exact h.send hlt hup hidle hopen hrequest hevent
    · cases hstep
  | disconnect c keep =>
    rw [rpcStep] at hstep
    split at hstep
    · rename_i hdisconnect
      cases hstep
      exact h.disconnect keep hdisconnect.1
    · cases hstep
  | select i =>
    rw [rpcStep] at hstep
    split at hstep
    · rename_i hselect
      cases hstep
      exact h.select hselect.1 hselect.2
    · cases hstep
  | receive answers =>
    rw [rpcStep] at hstep
    split at hstep
    · rename_i i hpc
      split at hstep
      · cases hstep
      · rename_i hi
        refine clientReceive_rpcInv h hpc hi (Or.imp_right (fun hfree => hfree i ?_) hevent) hstep
        rw [hpc]
        exact Option.mem_some_self i
    · cases hstep
  | queue ok =>
    rw [rpcStep] at hstep
    split at hstep
    · rename_i i origin hpc
      refine clientQueue_rpcInv h hpc (fun b hb => h.queues.not_full (hroom ok rfl i ?_ b hb)) hstep
      rw [hpc]
      exact Option.mem_some_self i
    · cases hstep
  | accept socket =>
    rw [rpcStep] at hstep
    split at hstep
    · rename_i hpc
      exact acceptConnection_rpcInv h (by rw [hpc]; rfl) hstep
    · cases hstep
  | handshake ok =>
    rw [rpcStep] at hstep
    split at hstep
    · rename_i socket hpc
      have hok : ok = true := hevent
      subst hok
      exact handshake_rpcInv h (by rw [hpc]; rfl) hstep
    · cases hstep
  | worker =>
    rw [rpcStep] at hstep
    exact dispatchStep_rpcInv h hstep
  | reply ok =>
    rw [rpcStep] at hstep
    exact dispatchReply_rpcInv h hstep

/-- **Each request is dispatched once, and for its own connection**, in every run of orderly steps of the
threads and of any number of clients. -/
theorem exactlyOnce_of_orderly (maxBufferSize : Nat) (commands : Commands) (buffers : Nat → List UInt8)
    (hbuffers : ∀ i, (buffers i).length = maxBufferSize) (events : List RpcEvent) (s : Rpc)
    (horderly : AllMeet (rpcStep maxBufferSize commands) (Orderly commands) (openRpc buffers) events)
    (hrun : run (rpcStep maxBufferSize commands) (openRpc buffers) events = some s) :
    ExactlyOnce commands s :=
  (invariant (I := RpcInv maxBufferSize commands) (fun h ho hstep => rpcStep_rpcInv h ho hstep) events
    (rpcInv_open hbuffers) horderly hrun).exactlyOnce

/-- Two clients: one gets its reply and disconnects, the other waits for its reply. -/
theorem exactlyOnce_of_orderly_two : ∃ s, run (rpcStep 20 fun _ => some .high)
    (openRpc fun _ => List.replicate 20 0)
    (requestOf 0 ++ [.worker, .worker, .reply true, .worker] ++ disconnectOf 0 ++ requestOf 1) = some s ∧
    ExactlyOnce (fun _ => some .high) s := by
  refine ⟨_, rfl, exactlyOnce_of_orderly 20 (fun _ => some .high) (fun _ => List.replicate 20 0)
    (fun _ => rfl) (requestOf 0 ++ [.worker, .worker, .reply true, .worker] ++ disconnectOf 0 ++
      requestOf 1) _ ?_ rfl⟩
  decide +kernel

/-- Only the request of `bareRequest` has a callback, of low priority. -/
def lowCommands : Commands := fun id => if id = 7 then some .low else none

/-- The disconnection is read while the request waits: the command to close takes its place. -/
def droppedRun : List RpcEvent :=
  requestOf 0 ++ disconnectOf 0 ++ List.replicate 8 .worker ++ [.reply false, .worker, .worker]

/-- The disconnection is read while the request is being answered.  The reply fails, so that the event
source is closed and given to the next client, while the command to close still waits. -/
def staleCloseRun : List RpcEvent :=
  requestOf 0 ++ [.worker, .worker] ++ disconnectOf 0 ++ [.reply false, .worker, .worker] ++
    [.connect, .select 0, .accept 6, .handshake true] ++ [.worker, .worker, .worker]

/-- **A request is lost, and the next client is cut off**: the first run ends with a request received, all
queues empty and no callback called; the second closes the connection of a client that is still there. -/
theorem disconnect_drops_request :
    (∃ s, run (rpcStep 20 lowCommands) (openRpc fun _ => List.replicate 20 0) droppedRun = some s ∧
      (s.conns 0).received = [(7, [])] ∧ (s.conns 0).handled = [] ∧ ¬ ExactlyOnce lowCommands s) ∧
    (∃ s, run (rpcStep 20 fun _ => some .high) (openRpc fun _ => List.replicate 20 0) staleCloseRun =
      some s ∧ (s.conns 1).up = true ∧ (s.conns 1).closed = true ∧
      ¬ ExactlyOnce (fun _ => some .high) s) := by
  constructor
  · have hrun : (run (rpcStep 20 lowCommands) (openRpc fun _ => List.replicate 20 0) droppedRun).map
        (fun s => decide ((s.conns 0).received = [(7, [])] ∧ (s.conns 0).handled = [] ∧
          s.select = .idle ∧ s.worker = .check .high ∧
          ∀ b ∈ [CmdPriority.low, .medium, .high], (s.rings b).cons = (s.rings b).prod)) = some true := by
      decide +kernel
    obtain ⟨s, hs, hsummary⟩ := Option.map_eq_some_iff.mp hrun
    obtain ⟨hreceived, hhandled, hselect, hworker, hrings⟩ := of_decide_eq_true hsummary
    have hempty : ∀ b, waiting s b = [] := by
      intro b
      have hcons : (s.rings b).cons = (s.rings b).prod := hrings b (by cases b <;> decide)
      unfold waiting
      rw [(s.rings b).items_eq_nil_iff.mpr hcons, List.drop_nil]
    refine ⟨s, hs, hreceived, hhandled, ?_⟩
    intro h
    rcases h.handled 0 with hcaught | ⟨i, ⟨-, hwaits⟩, -⟩
    · rw [hreceived, hhandled] at hcaught
      cases hcaught
    · rcases hwaits with hqueue | ⟨b, hmem | htaken⟩
      · rw [hselect] at hqueue
        cases hqueue
      · rw [hempty] at hmem
        cases hmem
      · rw [hworker] at htaken
        cases htaken
  · have hrun : (run (rpcStep 20 fun _ => some .high) (openRpc fun _ => List.replicate 20 0)
        staleCloseRun).map (fun s => ((s.conns 1).up, (s.conns 1).closed, (s.conns 1).refused)) =
        some (true, true, false) := by
      decide +kernel
    obtain ⟨s, hs, hsummary⟩ := Option.map_eq_some_iff.mp hrun
    simp only [Prod.mk.injEq] at hsummary
    obtain ⟨hup, hclosed, hrefused⟩ := hsummary
    refine ⟨s, hs, hup, hclosed, ?_⟩
    intro h
    rcases h.closed 1 hclosed with hdown | hrefused'
    · rw [hup] at hdown
      cases hdown
    · rw [hrefused] at hrefused'
      cases hrefused'

end MlnxLib.SxRpc
