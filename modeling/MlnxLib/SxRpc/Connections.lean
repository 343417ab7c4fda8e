import MlnxLib.SxRpc.Custody

/-!
# Connections come and go

What connects, sends, disconnects, is accepted or is closed keeps the invariant.

Principal results: `RpcInv.connect`, `RpcInv.send`, `RpcInv.disconnect` — the steps of a client;
`acceptConnection_rpcInv` — a connection is accepted, or there is no event source for it;
`RpcInv.closeEventSrc` — the worker closes an event source.
-/

set_option autoImplicit false

namespace MlnxLib.SxRpc

open Bytes CircularQueue Complib Runs Stages

section

variable {s s' : Rpc} {b : CmdPriority} {i : Nat} {maxBufferSize : Nat} {commands : Commands}

/-! ## Steps of the clients -/

/-- A connection that sends its next request. -/
def Conn.request (conn : Conn) (request : List UInt8) : Conn :=
  { conn with awaiting := true, stream := conn.stream ++ request, sent := conn.sent ++ [request] }

/-- A connection whose client disconnects. -/
def Conn.down (conn : Conn) (keep : Nat) : Conn :=
  { conn with up := false, stream := conn.stream.take keep }

theorem Receiving.sound {conn : Conn} {buffer : List UInt8} {pos : Nat}
    (h : Receiving maxBufferSize conn buffer pos) : Sound conn := by
  rcases h with ⟨-, -, hsent, -⟩ | ⟨before, cmd, hsent, -, -, hreceived, -⟩
  · exact ⟨[], by rw [hsent, List.append_nil], Nat.zero_le _⟩
  · refine ⟨[commandOf cmd], ?_, Nat.le_refl _⟩
    rw [hsent, hreceived, List.map_append, List.map_singleton]

theorem Receiving.request {conn : Conn} {buffer request : List UInt8} {pos : Nat}
    (h : Receiving maxBufferSize conn buffer pos) (hidle : conn.awaiting = false)
    (hrequest : IsCommand maxBufferSize request)
    (hopcode : (CommandHead.ofBytes request).opcode ≠ CMD_CLOSE_EVENT_SRC) :
    Receiving maxBufferSize (conn.request request) buffer pos := by
  rcases h with ⟨rfl, hstream, hsent, -⟩ | ⟨before, cmd, -, -, -, -, hwaits, -⟩
  · have hhead : 20 ≤ request.length := hrequest.head_le
    refine Or.inr ⟨conn.sent, request, rfl, hrequest, hopcode, hsent.symm, rfl, rfl, by omega, ?_⟩
    show conn.stream ++ request <+: request
    rw [hstream]
    exact List.prefix_rfl
  · rw [hidle] at hwaits
    cases hwaits

theorem Receiving.down {conn : Conn} {buffer : List UInt8} {pos : Nat} (keep : Nat)
    (h : Receiving maxBufferSize conn buffer pos) :
    Receiving maxBufferSize (conn.down keep) buffer pos := by
  rcases h with ⟨hpos, hstream, hsent, -⟩ |
    ⟨before, cmd, hsent, hcmd, hopcode, hreceived, hwaits, htake, hlt, hprefix⟩
  · refine Or.inl ⟨hpos, ?_, hsent, fun _ => rfl⟩
    show conn.stream.take keep = []
    rw [hstream, List.take_nil]
  · exact Or.inr ⟨before, cmd, hsent, hcmd, hopcode, hreceived, hwaits, htake, hlt,
      (List.take_prefix keep _).trans hprefix⟩

theorem RpcInv.connect (h : RpcInv maxBufferSize commands s) : RpcInv maxBufferSize commands
    { s with numConns := s.numConns + 1, backlog := s.backlog ++ [s.numConns] } where
  queues := h.queues.congr rfl rfl rfl fun _ => rfl
  stages := h.stages
  length_buffer := h.length_buffer
  handling := h.handling
  stray := h.stray
  replies := h.replies
  links := {
    sockets := h.links.sockets.congr (fun _ => ⟨rfl, rfl⟩) rfl
    fds_known := by
      intro f c hc
      obtain ⟨hlt, hnot, hopen⟩ := h.links.fds_known f c hc
      refine ⟨Nat.lt_succ_of_lt hlt, ?_, hopen⟩
      intro hmem
      rcases List.mem_append.mp hmem with hmem | hmem
      · exact hnot hmem
      · exact Nat.ne_of_lt hlt (List.mem_singleton.mp hmem)
    backlog_nodup := by
      refine List.Nodup.append h.links.backlog_nodup (List.nodup_singleton _) ?_
      intro c hc hnew
      exact Nat.ne_of_lt (h.links.backlog c hc).1 (List.mem_singleton.mp hnew)
    backlog := by
      intro c hc
      rcases List.mem_append.mp hc with hc | hc
      · obtain ⟨hlt, hrest⟩ := h.links.backlog c hc
        exact ⟨Nat.lt_succ_of_lt hlt, hrest⟩
      · rw [List.mem_singleton.mp hc, h.links.fresh s.numConns (Nat.le_refl _)]
        exact ⟨Nat.lt_succ_self _, rfl, rfl, fun _ => Or.inl ⟨rfl, rfl, rfl, fun h => Bool.noConfusion h⟩⟩
    fresh := fun c hc => h.links.fresh c (Nat.le_of_succ_le hc)
    gone := by
      intro c hlt hnot hfd
      have hne : c ≠ s.numConns := fun heq => hnot (List.mem_append_right _ (List.mem_singleton.mpr heq))
      have hlt' : c < s.numConns + 1 := hlt
      exact h.links.gone c (by omega) (fun hmem => hnot (List.mem_append_left _ hmem)) hfd }

/-- A step of a client that keeps what holds at each stage keeps the invariant. -/
theorem RpcInv.setConn {c : Nat} {conn : Conn} (h : RpcInv maxBufferSize commands s) (hknown : c < s.numConns)
    (hclosed : conn.closed = (s.conns c).closed) (hrefused : conn.refused = (s.conns c).refused)
    (hup : (s.conns c).up = false → conn.up = false)
    (hreceiving : ∀ buffer pos, Receiving maxBufferSize (s.conns c) buffer pos →
      Receiving maxBufferSize conn buffer pos)
    (hcaught : Caught commands (s.conns c) → Caught commands conn)
    (hgone : (s.conns c).closed = true → Sound (s.conns c) → Sound conn)
    (hphase : ∀ st src, Phase commands st src (some (c, s.conns c)) → Phase commands st src (some (c, conn))) :
    RpcInv maxBufferSize commands (s.setConn c conn) where
  queues := h.queues.congr rfl rfl rfl fun _ => rfl
  length_buffer := h.length_buffer
  handling := h.handling
  stray := h.stray
  replies := h.replies
  links := h.links.setConn (fun _ => ⟨rfl, rfl⟩) rfl rfl rfl rfl hknown hclosed hrefused hup
    (fun hmem => ⟨hcaught (h.links.backlog c hmem).2.2.1,
      fun buffer => hreceiving buffer 0 ((h.links.backlog c hmem).2.2.2 buffer)⟩)
    (fun hc hcaught' hsound => ⟨hcaught hcaught', hgone hc hsound⟩)
  stages := by
    refine h.stages.setConn rfl rfl rfl rfl ?_ hphase
    rintro src (hfree | ⟨hactive, c', conn', heq, hcaught', hrecv⟩)
    · exact Or.inl hfree
    · cases heq
      exact Or.inr ⟨hactive, c, conn, rfl, hcaught hcaught', hreceiving _ _ hrecv⟩

theorem RpcInv.send {c : Nat} {request : List UInt8} (h : RpcInv maxBufferSize commands s)
    (hknown : c < s.numConns) (hup : (s.conns c).up = true) (hidle : (s.conns c).awaiting = false)
    (hopen : (s.conns c).closed = false) (hrequest : IsCommand maxBufferSize request)
    (hopcode : (CommandHead.ofBytes request).opcode ≠ CMD_CLOSE_EVENT_SRC) :
    RpcInv maxBufferSize commands (s.setConn c ((s.conns c).request request)) := by
  refine h.setConn hknown rfl rfl id (fun buffer pos hrecv => hrecv.request hidle hrequest hopcode) id ?_ ?_
  · intro hclosed
    rw [hopen] at hclosed
    cases hclosed
  · -- a client that may send is at no stage
    have hsettled : ¬ Settled commands (some (c, s.conns c)) := by
      intro hs
      have hdown := (hs c _ rfl).1
      rw [hup] at hdown
      cases hdown
    intro st src hphase
    cases st with
    | queue origin =>
      rcases hphase with ⟨-, -, hs⟩ | ⟨c', conn', heq, -, -, -, -, -, hwaits, -⟩
      · exact absurd hs hsettled
      · cases heq
        rw [hidle] at hwaits
        cases hwaits
    | waiting b =>
      rcases hphase with ⟨-, -, -, hs⟩ | ⟨c', conn', heq, ⟨-, -, -, -, hwaits, -⟩, -⟩
      · exact absurd hs hsettled
      · cases heq
        rw [hidle] at hwaits
        cases hwaits
    | replying origin =>
      obtain ⟨c', conn', heq, -, -, -, -, hwaits, -⟩ := hphase
      cases heq
      rw [hidle] at hwaits
      cases hwaits
    | closing => exact absurd hphase.2.1 hsettled

theorem Settled.down {c keep : Nat} {conn : Conn} (h : Settled commands (some (c, conn))) :
    Settled commands (some (c, conn.down keep)) := by
  intro c' conn' heq
  cases heq
  exact ⟨rfl, (h c conn rfl).2⟩

theorem Pending.down {src : EventSrc} {conn : Conn} (keep : Nat) (h : Pending commands src conn) :
    Pending commands src (conn.down keep) := by
  obtain ⟨hstate, hpos, hopcode, hstream, hrest⟩ := h
  refine ⟨hstate, hpos, hopcode, ?_, hrest⟩
  show conn.stream.take keep = []
  rw [hstream, List.take_nil]

theorem RpcInv.disconnect {c : Nat} (keep : Nat) (h : RpcInv maxBufferSize commands s)
    (hknown : c < s.numConns) : RpcInv maxBufferSize commands (s.setConn c ((s.conns c).down keep)) := by
  refine h.setConn hknown rfl rfl (fun _ => rfl) (fun buffer pos hrecv => hrecv.down keep) id
    (fun _ hsound => hsound) ?_
  intro st src hphase
  cases st with
  | queue origin =>
    rcases hphase with ⟨hstate, hopcode, hs⟩ | ⟨c', conn', heq, horigin, hpending⟩
    · exact Or.inl ⟨hstate, hopcode, hs.down⟩
    · cases heq
      exact Or.inr ⟨c, _, rfl, horigin, hpending.down keep⟩
  | waiting b =>
    rcases hphase with ⟨hb, hstate, hopcode, hs⟩ | ⟨c', conn', heq, hpending, hcommand⟩
    · exact Or.inl ⟨hb, hstate, hopcode, hs.down⟩
    · cases heq
      exact Or.inr ⟨c, _, rfl, hpending.down keep, hcommand⟩
  | replying origin =>
    obtain ⟨c', conn', heq, horigin, hstate, hpos, hstream, hrest⟩ := hphase
    cases heq
    refine ⟨c, _, rfl, horigin, hstate, hpos, ?_, hrest⟩
    show (s.conns c).stream.take keep = []
    rw [hstream, List.take_nil]
  | closing =>
    obtain ⟨hstate, hs, hactive⟩ := hphase
    refine ⟨hstate, hs.down, fun hact => ?_⟩
    obtain ⟨hpos, c', conn', heq, hstream⟩ := hactive hact
    cases heq
    refine ⟨hpos, c, _, rfl, ?_⟩
    show (s.conns c).stream.take keep = []
    rw [hstream, List.take_nil]

/-- The links after a change of an open connection. -/
theorem LinksInv.setOpenConn {c : Nat} {conn : Conn} (h : LinksInv maxBufferSize commands s)
    (hlink : link s i = some (c, s.conns c)) (hsrcs : s'.srcs = s.srcs) (hfds : s'.fds = s.fds)
    (hconns : s'.conns = Function.update s.conns c conn) (hnum : s'.numConns = s.numConns)
    (hbacklog : s'.backlog = s.backlog) (hclosed : conn.closed = (s.conns c).closed)
    (hrefused : conn.refused = (s.conns c).refused) (hup : conn.up = (s.conns c).up) :
    LinksInv maxBufferSize commands s' := by
  obtain ⟨hlt, hnot, hopen⟩ := h.fds_known _ c (link_eq_some.mp hlink).2.1
  refine h.setConn (fun j => by rw [hsrcs]; exact ⟨rfl, rfl⟩) hfds hconns hnum hbacklog hlt hclosed hrefused
    (fun hdown => hup.trans hdown) (fun hmem => absurd hmem hnot) ?_
  intro hc
  rw [hopen] at hc
  cases hc

/-! ## Connections come and go -/

theorem freeEventSrc_some (h : freeEventSrc s = some i) : (s.srcs i).state = .notActive := by
  unfold freeEventSrc at h
  have hfound := List.find?_some h
  exact of_decide_eq_true hfound

/-- The connection at the head of the backlog is in none of the rest, and not open. -/
structure Head (s : Rpc) (c : Nat) (backlog : List Nat) : Prop where
  eq : s.backlog = c :: backlog
  unlinked : ∀ f, s.fds f ≠ some c
  notMem : c ∉ backlog

theorem LinksInv.head {c : Nat} {backlog : List Nat} (h : LinksInv maxBufferSize commands s)
    (hbacklog : s.backlog = c :: backlog) : Head s c backlog where
  eq := hbacklog
  unlinked f hf := by
    refine (h.fds_known f c hf).2.1 ?_
    rw [hbacklog]
    exact List.mem_cons_self ..
  notMem := by
    have hnodup := h.backlog_nodup
    rw [hbacklog] at hnodup
    exact (List.nodup_cons.mp hnodup).1

theorem Head.mem {c : Nat} {backlog : List Nat} (h : Head s c backlog) : c ∈ s.backlog := by
  rw [h.eq]
  exact List.mem_cons_self ..

theorem Head.mem_of_mem {c c' : Nat} {backlog : List Nat} (h : Head s c backlog) (hc' : c' ∈ backlog) :
    c' ∈ s.backlog := by
  rw [h.eq]
  exact List.mem_cons_of_mem _ hc'

theorem Head.not_mem {c c' : Nat} {backlog : List Nat} (h : Head s c backlog) (hc : c' ≠ c)
    (hc' : c' ∉ backlog) : c' ∉ s.backlog := by
  rw [h.eq]
  exact fun hmem => hc' ((List.mem_cons.mp hmem).resolve_left hc)

/-- The links after a connection is taken from the backlog and closed. -/
theorem LinksInv.refuse {c : Nat} {backlog : List Nat} (h : LinksInv maxBufferSize commands s)
    (hhead : Head s c backlog) (hsrcs : s'.srcs = s.srcs) (hfds : s'.fds = s.fds)
    (hconns : s'.conns = Function.update s.conns c { s.conns c with closed := true, refused := true })
    (hnum : s'.numConns = s.numConns) (hbacklog : s'.backlog = backlog) :
    LinksInv maxBufferSize commands s' := by
  obtain ⟨hlt, -, hcaught, hreceiving⟩ := h.backlog c hhead.mem
  have hconn : ∀ c', c' ≠ c → s'.conns c' = s.conns c' :=
    fun c' hc' => by rw [hconns, Function.update_of_ne hc']
  refine ⟨h.sockets.congr (fun _ => by rw [hsrcs]; exact ⟨rfl, rfl⟩) hfds, ?_, ?_, ?_, ?_, ?_⟩
  · intro f c' hf
    rw [hfds] at hf
    have hc : c' ≠ c := by
      rintro rfl
      exact hhead.unlinked f hf
    obtain ⟨hlt', hnot, hopen⟩ := h.fds_known f c' hf
    rw [hnum, hbacklog, hconn c' hc]
    exact ⟨hlt', fun hmem => hnot (hhead.mem_of_mem hmem), hopen⟩
  · have hnodup := h.backlog_nodup
    rw [hhead.eq] at hnodup
    rw [hbacklog]
    exact hnodup.of_cons
  · intro c' hc'
    rw [hbacklog] at hc'
    have hc : c' ≠ c := by
      rintro rfl
      exact hhead.notMem hc'
    rw [hnum, hconn c' hc]
    exact h.backlog c' (hhead.mem_of_mem hc')
  · intro c' hc'
    rw [hnum] at hc'
    rw [hconn c' (by omega)]
    exact h.fresh c' hc'
  · intro c' hlt' hnot hno
    rw [hnum] at hlt'
    rw [hbacklog] at hnot
    rw [hfds] at hno
    by_cases hc : c' = c
    · subst hc
      rw [hconns, Function.update_self]
      exact ⟨rfl, Or.inr rfl, hcaught, (hreceiving []).sound⟩
    · rw [hconn c' hc]
      exact h.gone c' hlt' (hhead.not_mem hc hnot) hno

/-- A connection for which there is no event source. -/
theorem RpcInv.refuseConn {c : Nat} {backlog : List Nat} (h : RpcInv maxBufferSize commands s)
    (hbacklog : s.backlog = c :: backlog) (hselect : selectHeld s.select = []) :
    RpcInv maxBufferSize commands { s.setConn c { s.conns c with closed := true, refused := true } with
      backlog := backlog, select := .idle } := by
  have hhead := h.links.head hbacklog
  have hqueues : QueuesInv { s.setConn c { s.conns c with closed := true, refused := true } with
      backlog := backlog, select := .idle } := h.queues.congr rfl rfl rfl fun _ => rfl
  refine ⟨hqueues, h.stages.same ?_ fun j => ⟨rfl, ?_⟩, h.links.refuse hhead rfl rfl rfl rfl rfl,
    h.length_buffer, ?_, h.stray, h.replies⟩
  · rw [heldBy_eq, heldBy_eq s, hselect, ringsHeld_same h.queues hqueues rfl rfl]
    exact List.Perm.refl _
  · refine link_congr rfl (fun _ => rfl) fun c' _ hc' => Function.update_of_ne ?_ ..
    rintro rfl
    exact hhead.unlinked _ hc'
  · intro j hj
    cases hj

/-- An event source that is not active is not under way, and has no descriptor. -/
theorem StagesOf.notActive (h : StagesOf maxBufferSize commands s) (hstate : (s.srcs i).state = .notActive) :
    i ∉ (heldBy s).map Prod.fst ∧ (s.srcs i).inited = false := by
  have hbusy : i ∉ (heldBy s).map Prod.fst := by
    intro hheld
    obtain ⟨⟨j, st⟩, hj, rfl⟩ := List.mem_map.mp hheld
    exact (h.phase j st hj).state_ne hstate
  refine ⟨hbusy, ?_⟩
  rcases h.free i hbusy with ⟨-, hinited⟩ | ⟨hactive, -⟩
  · exact hinited
  · rw [hstate] at hactive
    cases hactive

/-- A descriptor that is not open belongs to no event source. -/
theorem SocketsInv.socket_ne (h : SocketsInv s) {socket j : Nat} (hsocket : s.fds socket = none)
    (hin : (s.srcs j).inited = true) : (s.srcs j).socket ≠ socket := by
  intro heq
  obtain ⟨c, hc⟩ := h.socket_open j hin
  rw [heq, hsocket] at hc
  cases hc

/-- The sockets after an event source gets a new descriptor. -/
theorem SocketsInv.openSocket (h : SocketsInv s) {c socket : Nat} {src : EventSrc}
    (hsrcs : s'.srcs = Function.update s.srcs i src) (hinited : src.inited = true)
    (hsrc : src.socket = socket) (hfds : s'.fds = Function.update s.fds socket (some c))
    (hsocket : s.fds socket = none) (hunlinked : ∀ f, s.fds f ≠ some c)
    (hfree : (s.srcs i).inited = false) : SocketsInv s' := by
  have hnew : s'.srcs i = src := by rw [hsrcs, Function.update_self]
  have hold : ∀ j, j ≠ i → s'.srcs j = s.srcs j := fun j hj => by rw [hsrcs, Function.update_of_ne hj]
  have hfd : s'.fds socket = some c := by rw [hfds, Function.update_self]
  have hfdold : ∀ f, f ≠ socket → s'.fds f = s.fds f := fun f hf => by rw [hfds, Function.update_of_ne hf]
  have hin : ∀ j, j ≠ i → (s'.srcs j).inited = true → (s.srcs j).inited = true :=
    fun j hj hjin => by rwa [hold j hj] at hjin
  refine ⟨?_, ?_, ?_, ?_⟩
  · intro j hjin
    by_cases hj : j = i
    · rw [hj, hnew, hsrc]
      exact ⟨c, hfd⟩
    · rw [hold j hj, hfdold _ (h.socket_ne hsocket (hin j hj hjin))]
      exact h.socket_open j (hin j hj hjin)
  · intro j k hj hk heq
    by_cases hji : j = i
    · by_cases hki : k = i
      · rw [hji, hki]
      · rw [hji, hnew, hsrc, hold k hki] at heq
        exact absurd heq.symm (h.socket_ne hsocket (hin k hki hk))
    · by_cases hki : k = i
      · rw [hki, hnew, hsrc, hold j hji] at heq
        exact absurd heq (h.socket_ne hsocket (hin j hji hj))
      · rw [hold j hji, hold k hki] at heq
        exact h.socket_inj j k (hin j hji hj) (hin k hki hk) heq
  · intro f f' c' hf hf'
    by_cases hfs : f = socket
    · by_cases hfs' : f' = socket
      · rw [hfs, hfs']
      · rw [hfs, hfd] at hf
        rw [hfdold f' hfs', ← hf] at hf'
        exact absurd hf' (hunlinked f')
    · by_cases hfs' : f' = socket
      · rw [hfs', hfd] at hf'
        rw [hfdold f hfs, ← hf'] at hf
        exact absurd hf (hunlinked f)
      · rw [hfdold f hfs] at hf
        rw [hfdold f' hfs'] at hf'
        exact h.fds_inj f f' c' hf hf'
  · intro f c' hf
    by_cases hfs : f = socket
    · exact ⟨i, by rw [hnew, hinited], by rw [hnew, hsrc, hfs]⟩
    · rw [hfdold f hfs] at hf
      obtain ⟨j, hjin, heq⟩ := h.fds_src f c' hf
      have hj : j ≠ i := by
        rintro rfl
        rw [hfree] at hjin
        cases hjin
      exact ⟨j, by rw [hold j hj]; exact hjin, by rw [hold j hj]; exact heq⟩

/-- The links after a connection is taken from the backlog and gets a descriptor. -/
theorem LinksInv.accept {c socket : Nat} {backlog : List Nat} (h : LinksInv maxBufferSize commands s)
    (hhead : Head s c backlog) (hsockets : SocketsInv s') (hsocket : s.fds socket = none)
    (hfds : s'.fds = Function.update s.fds socket (some c)) (hconns : s'.conns = s.conns)
    (hnum : s'.numConns = s.numConns) (hbacklog : s'.backlog = backlog) :
    LinksInv maxBufferSize commands s' := by
  obtain ⟨hlt, hopen, -⟩ := h.backlog c hhead.mem
  refine ⟨hsockets, ?_, ?_, ?_, ?_, ?_⟩
  · intro f c' hf
    rw [hnum, hconns, hbacklog]
    by_cases hfs : f = socket
    · rw [hfds, hfs, Function.update_self] at hf
      cases hf
      exact ⟨hlt, hhead.notMem, hopen⟩
    · rw [hfds, Function.update_of_ne hfs] at hf
      obtain ⟨hlt', hnot, hopen'⟩ := h.fds_known f c' hf
      exact ⟨hlt', fun hmem => hnot (hhead.mem_of_mem hmem), hopen'⟩
  · have hnodup := h.backlog_nodup
    rw [hhead.eq] at hnodup
    rw [hbacklog]
    exact hnodup.of_cons
  · intro c' hc'
    rw [hbacklog] at hc'
    rw [hnum, hconns]
    exact h.backlog c' (hhead.mem_of_mem hc')
  · rw [hnum, hconns]
    exact h.fresh
  · intro c' hlt' hnot hno
    rw [hnum] at hlt'
    rw [hbacklog] at hnot
    rw [hconns]
    have hc : c' ≠ c := by
      rintro rfl
      exact hno socket (by rw [hfds, Function.update_self])
    refine h.gone c' hlt' (hhead.not_mem hc hnot) ?_
    intro f hf
    refine hno f ?_
    rw [hfds, Function.update_of_ne]
    · exact hf
    · rintro rfl
      rw [hsocket] at hf
      cases hf

/-- **A connection is accepted** by a free event source. -/
theorem RpcInv.acceptConn {c socket : Nat} {backlog : List Nat} (h : RpcInv maxBufferSize commands s)
    (hbacklog : s.backlog = c :: backlog) (hselect : selectHeld s.select = []) (hsocket : s.fds socket = none)
    (hstate : (s.srcs i).state = .notActive) :
    RpcInv maxBufferSize commands { s.setSrc i { s.srcs i with
        state := .active, pos := 0, socket := socket, inited := true } with
      fds := Function.update s.fds socket (some c), backlog := backlog, select := .handshake socket } := by
  have hhead := h.links.head hbacklog
  obtain ⟨-, -, hcaught, hreceiving⟩ := h.links.backlog c hhead.mem
  obtain ⟨hbusy, hinited⟩ := h.stages.notActive hstate
  -- the new state, of which only one event source and one descriptor are new
  generalize hs' : ({ s.setSrc i { s.srcs i with
      state := .active, pos := 0, socket := socket, inited := true } with
    fds := Function.update s.fds socket (some c), backlog := backlog, select := .handshake socket } : Rpc) = s'
  have hsrcs : s'.srcs = Function.update s.srcs i { s.srcs i with
      state := .active, pos := 0, socket := socket, inited := true } := by rw [← hs']; rfl
  have hfds : s'.fds = Function.update s.fds socket (some c) := by rw [← hs']
  have hconns : s'.conns = s.conns := by rw [← hs']; rfl
  have hselect' : s'.select = .handshake socket := by rw [← hs']
  have hqueues : QueuesInv s' := by
    rw [← hs']
    exact h.queues.congr rfl rfl rfl fun _ => rfl
  have hsrc : s'.srcs i = { s.srcs i with state := .active, pos := 0, socket := socket, inited := true } := by
    rw [hsrcs, Function.update_self]
  have hother : ∀ j, j ≠ i → s'.srcs j = s.srcs j ∧ link s' j = link s j := by
    intro j hj
    have hsrcj : s'.srcs j = s.srcs j := by rw [hsrcs, Function.update_of_ne hj]
    refine ⟨hsrcj, link_congr hsrcj (fun hin => ?_) fun c' _ _ => congrFun hconns c'⟩
    rw [hfds, Function.update_of_ne (h.links.sockets.socket_ne hsocket hin)]
  have hlink : link s' i = some (c, s.conns c) := by
    rw [link_eq_some, hsrc, hconns, hfds]
    exact ⟨rfl, Function.update_self .., rfl⟩
  have hsockets := h.links.sockets.openSocket hsrcs rfl rfl hfds hsocket hhead.unlinked hinited
  refine ⟨hqueues, ?_, h.links.accept hhead hsockets hsocket hfds hconns (by rw [← hs']; rfl) (by rw [← hs']),
    ?_, ?_, by rw [← hs']; exact h.stray, by rw [← hs']; exact h.replies⟩
  · have hrings : ringsHeld s' = ringsHeld s :=
      ringsHeld_same h.queues hqueues (by rw [← hs']; rfl) (by rw [← hs']; rfl)
    refine h.stages.select hselect (by rw [← hs']; rfl) hrings hbusy hother (Or.inl ⟨by rw [hselect']; rfl, ?_⟩)
    rw [hsrc, hlink]
    exact Or.inr ⟨rfl, c, _, rfl, hcaught, hreceiving _⟩
  · intro hmax j
    by_cases hj : j = i
    · rw [hj, hsrc]
      exact h.length_buffer hmax i
    · rw [(hother j hj).1]
      exact h.length_buffer hmax j
  · intro j hj
    rw [hselect'] at hj
    cases hj

theorem acceptConnection_rpcInv {socket : Nat} (h : RpcInv maxBufferSize commands s)
    (hselect : selectHeld s.select = []) (hstep : acceptConnection s socket = some s') :
    RpcInv maxBufferSize commands s' := by
  unfold acceptConnection at hstep
  split at hstep
  · cases hstep
  · rename_i c backlog hbacklog
    split at hstep
    · cases hstep
    · rename_i hsocket
      split at hstep
      · cases hstep
        exact h.refuseConn hbacklog hselect
      · rename_i i hi
        cases hstep
        exact h.acceptConn hbacklog hselect (not_not.mp hsocket) (freeEventSrc_some hi)

/-- A handshake that is sent changes nothing that is under way. -/
theorem handshake_rpcInv {socket : Nat} (h : RpcInv maxBufferSize commands s)
    (hselect : selectHeld s.select = []) (hstep : handshake s socket true = some s') :
    RpcInv maxBufferSize commands s' := by
  unfold handshake at hstep
  split at hstep
  · cases hstep
  · cases hstep
    have hqueues : QueuesInv { s with select := .idle } := h.queues.congr rfl rfl rfl fun _ => rfl
    refine ⟨hqueues, h.stages.same ?_ fun _ => ⟨rfl, rfl⟩, h.links.congr (fun _ => ⟨rfl, rfl⟩) rfl rfl rfl rfl,
      h.length_buffer, ?_, h.stray, h.replies⟩
    · rw [heldBy_eq, heldBy_eq s, hselect, ringsHeld_same h.queues hqueues rfl rfl]
      exact List.Perm.refl _
    · intro j hj
      cases hj

/-- The sockets after the descriptor of an event source is closed. -/
theorem SocketsInv.closeSocket (h : SocketsInv s) {src : EventSrc} (hin : (s.srcs i).inited = true)
    (hsrcs : s'.srcs = Function.update s.srcs i src) (hinited : src.inited = false)
    (hfds : s'.fds = Function.update s.fds (s.srcs i).socket none) : SocketsInv s' := by
  have hother : ∀ j, j ≠ i → s'.srcs j = s.srcs j := fun j hj => by rw [hsrcs, Function.update_of_ne hj]
  have hne : ∀ j, (s'.srcs j).inited = true → j ≠ i := by
    rintro j hj rfl
    rw [hsrcs, Function.update_self, hinited] at hj
    cases hj
  have hopen : ∀ f c, s'.fds f = some c → f ≠ (s.srcs i).socket ∧ s.fds f = some c := by
    intro f c hf
    by_cases heq : f = (s.srcs i).socket
    · rw [hfds, heq, Function.update_self] at hf
      cases hf
    · rw [hfds, Function.update_of_ne heq] at hf
      exact ⟨heq, hf⟩
  refine ⟨?_, ?_, ?_, ?_⟩
  · intro j hj
    have hji := hne j hj
    rw [hother j hji] at hj ⊢
    rw [hfds, Function.update_of_ne fun heq => hji (h.socket_inj j i hj hin heq)]
    exact h.socket_open j hj
  · intro j k hj hk heq
    have hji := hne j hj
    have hki := hne k hk
    rw [hother j hji] at hj heq
    rw [hother k hki] at hk heq
    exact h.socket_inj j k hj hk heq
  · intro f f' c hf hf'
    exact h.fds_inj f f' c (hopen f c hf).2 (hopen f' c hf').2
  · intro f c hf
    obtain ⟨hfs, hf⟩ := hopen f c hf
    obtain ⟨j, hj, heq⟩ := h.fds_src f c hf
    have hji : j ≠ i := by
      rintro rfl
      exact hfs heq.symm
    exact ⟨j, by rw [hother j hji]; exact hj, by rw [hother j hji]; exact heq⟩

/-- **A descriptor is closed**, of a connection that is settled. -/
theorem LinksInv.closeSocket {c : Nat} {src : EventSrc} (h : LinksInv maxBufferSize commands s)
    (hlink : link s i = some (c, s.conns c)) (hsettled : Settled commands (link s i))
    (hsrcs : s'.srcs = Function.update s.srcs i src) (hinited : src.inited = false)
    (hfds : s'.fds = Function.update s.fds (s.srcs i).socket none)
    (hconns : s'.conns = Function.update s.conns c { s.conns c with closed := true })
    (hnum : s'.numConns = s.numConns) (hbacklog : s'.backlog = s.backlog) :
    LinksInv maxBufferSize commands s' := by
  obtain ⟨hin, hfd, -⟩ := link_eq_some.mp hlink
  obtain ⟨hlt, hnot, -⟩ := h.fds_known _ c hfd
  obtain ⟨hdown, hcaught, hsound⟩ := hsettled c _ hlink
  have hconn : ∀ c', c' ≠ c → s'.conns c' = s.conns c' :=
    fun c' hc' => by rw [hconns, Function.update_of_ne hc']
  refine ⟨h.sockets.closeSocket hin hsrcs hinited hfds, ?_, ?_, ?_, ?_, ?_⟩
  · intro f c' hf
    have hfs : f ≠ (s.srcs i).socket := by
      rintro rfl
      rw [hfds, Function.update_self] at hf
      cases hf
    rw [hfds, Function.update_of_ne hfs] at hf
    have hc : c' ≠ c := by
      rintro rfl
      exact hfs (h.sockets.fds_inj f _ c' hf hfd)
    rw [hnum, hbacklog, hconn c' hc]
    exact h.fds_known f c' hf
  · rw [hbacklog]
    exact h.backlog_nodup
  · intro c' hc'
    rw [hbacklog] at hc'
    have hc : c' ≠ c := by
      rintro rfl
      exact hnot hc'
    rw [hnum, hconn c' hc]
    exact h.backlog c' hc'
  · intro c' hc'
    rw [hnum] at hc'
    rw [hconn c' (by omega)]
    exact h.fresh c' hc'
  · intro c' hlt' hnot' hno
    rw [hnum] at hlt'
    rw [hbacklog] at hnot'
    by_cases hc : c' = c
    · subst hc
      rw [hconns, Function.update_self]
      exact ⟨rfl, Or.inl hdown, hcaught, hsound⟩
    · rw [hconn c' hc]
      refine h.gone c' hlt' hnot' ?_
      intro f hf
      refine hno f ?_
      rw [hfds, Function.update_of_ne]
      · exact hf
      · rintro rfl
        exact hc (Option.some.inj (hf.symm.trans hfd))

/-- An event source is closed, and its stage ends. -/
theorem RpcInv.closed {b : CmdPriority} (h : RpcInv maxBufferSize commands s)
    (hworker : s.worker = .closing b i) (hsame : SameQueues s s') (hselect : s'.select = s.select)
    (hworker' : s'.worker = .finishing b)
    (hsrcs : s'.srcs = Function.update s.srcs i { s.srcs i with state := .notActive, inited := false })
    (hlink : ∀ j, j ≠ i → link s' j = link s j) (hlinks : LinksInv maxBufferSize commands s')
    (hfds : ∀ f, s.fds f = none → s'.fds f = none)
    (hsocket : (s.srcs i).state = .active → s'.fds (s.srcs i).socket = none)
    (hstray : s'.stray = s.stray) (hreplies : s'.replies = s.replies) :
    RpcInv maxBufferSize commands s' := by
  have hheld := heldBy_worker (s := s) (by rw [hworker]; rfl)
  have hphase := h.stages.phase_of_mem hheld
  have hqueues : QueuesInv s' := hsame.inv h.queues fun b' => by rw [hworker, hworker']; rfl
  have hsrc : s'.srcs i = { s.srcs i with state := .notActive, inited := false } := by
    rw [hsrcs, Function.update_self]
  have hother : ∀ j, j ≠ i → s'.srcs j = s.srcs j := fun j hj => by rw [hsrcs, Function.update_of_ne hj]
  refine ⟨hqueues, ?_, hlinks, ?_, ?_, hstray.trans h.stray, by rw [hreplies]; exact h.replies⟩
  · refine h.stages.remove hheld ?_ (fun j hj => ⟨hother j hj, hlink j hj⟩) ?_
    · rw [heldBy_eq, hselect, hworker', ringsHeld_same h.queues hqueues hsame.pushed hsame.taken]
      exact List.Perm.refl _
    · rw [hsrc]
      exact Or.inl ⟨rfl, rfl⟩
  · intro hmax j
    by_cases hj : j = i
    · rw [hj, hsrc]
      exact h.length_buffer hmax i
    · rw [hother j hj]
      exact h.length_buffer hmax j
  · intro j hj
    rw [hselect] at hj
    by_cases hji : j = i
    · subst hji
      rw [hsrc]
      rcases h.handling j hj with h0 | hactive | ⟨hidle, -⟩
      · exact Or.inl h0
      · exact Or.inr (Or.inr ⟨rfl, hsocket hactive⟩)
      · exact absurd hidle hphase.state_ne
    · rw [hother j hji]
      rcases h.handling j hj with h0 | hactive | ⟨hidle, hnone⟩
      · exact Or.inl h0
      · exact Or.inr (Or.inl hactive)
      · exact Or.inr (Or.inr ⟨hidle, hfds _ hnone⟩)

/-- **The worker closes an event source.** -/
theorem RpcInv.closeEventSrc {b : CmdPriority} (h : RpcInv maxBufferSize commands s)
    (hworker : s.worker = .closing b i) :
    RpcInv maxBufferSize commands { closeEventSrc s i with worker := .finishing b } := by
  have hheld := heldBy_worker (s := s) (by rw [hworker]; rfl)
  obtain ⟨hstate, hsettled, hactive⟩ := h.stages.phase_of_mem hheld
  unfold MlnxLib.SxRpc.closeEventSrc
  rw [if_neg hstate]
  by_cases hin : (s.srcs i).inited = true
  · obtain ⟨c, hfd⟩ := h.links.sockets.socket_open i hin
    have hlink : link s i = some (c, s.conns c) := link_eq_some.mpr ⟨hin, hfd, rfl⟩
    rw [if_pos hin]
    unfold MlnxLib.SxRpc.closeSocket
    rw [hfd]
    refine h.closed hworker ⟨rfl, rfl, rfl⟩ rfl rfl rfl ?_
      (h.links.closeSocket hlink hsettled rfl rfl rfl rfl rfl rfl) ?_ (fun _ => Function.update_self ..) rfl rfl
    · intro j hj
      refine link_congr (Function.update_of_ne hj ..) (fun hjin => Function.update_of_ne ?_ ..) ?_
      · exact fun heq => hj (h.links.sockets.socket_inj j i hjin hin heq)
      · intro c' hjin hc'
        exact Function.update_of_ne (h.links.sockets.ne_conn hin hfd hjin hj hc') ..
    · intro f hf
      by_cases heq : f = (s.srcs i).socket
      · rw [heq]
        exact Function.update_self ..
      · exact (Function.update_of_ne heq ..).trans hf
  · rw [if_neg hin]
    have hinited : (s.srcs i).inited = false := eq_false_of_ne_true hin
    refine h.closed hworker ⟨rfl, rfl, rfl⟩ rfl rfl rfl ?_ (h.links.congr ?_ rfl rfl rfl rfl) (fun _ hf => hf) ?_
      rfl rfl
    · intro j hj
      exact link_congr (Function.update_of_ne hj ..) (fun _ => rfl) fun _ _ _ => rfl
    · intro j
      by_cases hj : j = i
      · subst hj
        show (Function.update s.srcs j _ j).inited = _ ∧ (Function.update s.srcs j _ j).socket = _
        rw [Function.update_self]
        exact ⟨hinited.symm, rfl⟩
      · show (Function.update s.srcs i _ j).inited = _ ∧ (Function.update s.srcs i _ j).socket = _
        rw [Function.update_of_ne hj]
        exact ⟨rfl, rfl⟩
    · intro hact
      obtain ⟨-, c, conn, hlink, -⟩ := hactive hact
      exact absurd (link_eq_some.mp hlink).1 hin

end

end MlnxLib.SxRpc
