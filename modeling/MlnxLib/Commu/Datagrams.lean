import MlnxLib.Commu.SessionLedger

/-!
# UDP sessions over a network

Any number of hosts that run the library.  A datagram that a kernel took may be lost, and it may come to any receive of
any host, in any order and any number of times: a receive gets an error or one of the datagrams sent so far.

* `UdpNet`, `udpNetStep` — the hosts, and the datagrams that their kernels took.
* `Datagram`, `UdpWorld` — the datagrams that sessions sent, and those that each session delivered since its start.
* `InWorld` — the hosts have the sessions of the world, and the kernels the bytes of its datagrams.

Principal result: `datagrams_delivered` — in every run a receive returns a whole payload that a session of its message
type sent, or an error, and all datagrams that a session with a single peer delivers have one magic.
-/

set_option autoImplicit false

namespace MlnxLib.Commu

open Runs

/-! ## The network -/

/-- The hosts `η`, and all datagrams that the kernels took. -/
structure UdpNet (η : Type) where
  host : η → Host
  wire : List (List UInt8)

/-- The datagram that a kernel took from a call of `sendto`: what `comm_lib_udp_send` put together. -/
def sentDatagram (s : Host) : HostCall → Option (List UInt8)
  | .udpSend handle _ payload answer =>
    match (commLibUdpSend s.lib handle payload answer).calls, libCommuDbHanldeInfoGet s.lib.db handle .udpHandle with
    | [.bytes _], (_, some loc) => some ((metadataSet MSG_VERSION payload.length (s.lib.db.info loc)).bytes ++ payload)
    | _, _ => none
  | _ => none

/-- A call on a host. -/
def udpNetStep {η : Type} [DecidableEq η] (s : UdpNet η) (c : η × HostCall) : HostReply × UdpNet η :=
  let r := hostStep (s.host c.1) c.2
  (r.1, ⟨Function.update s.host c.1 r.2, s.wire ++ (sentDatagram (s.host c.1) c.2).toList⟩)

/-- A kernel takes a datagram as a whole, and gives a receive one that was sent. -/
def KernelMeets (wire : List (List UInt8)) : HostCall → Prop
  | .udpSend _ _ payload answer => ∀ n, answer = .bytes n → n = METADATA_SIZE + payload.length
  | .udpRecv _ _ _ _ answer => ∀ bytes addresser, answer = .datagram bytes addresser → bytes ∈ wire
  | _ => True

instance (wire : List (List UInt8)) : ∀ call, Decidable (KernelMeets wire call)
  | .udpSend _ _ payload (.bytes n) =>
    decidable_of_iff (n = METADATA_SIZE + payload.length) ⟨fun h _ he => IoResult.bytes.inj he ▸ h, fun h => h n rfl⟩
  | .udpSend _ _ _ (.error _) => isTrue nofun
  | .udpRecv _ _ _ _ (.datagram bytes addresser) =>
    decidable_of_iff (bytes ∈ wire) ⟨fun h _ _ he => (RecvfromResult.datagram.inj he).1 ▸ h,
      fun h => h bytes addresser rfl⟩
  | .udpRecv _ _ _ _ (.error _) => isTrue nofun
  | .udpSessionStart _ _ _ => isTrue trivial
  | .udpSessionStop _ => isTrue trivial
  | .tcpClientBlockingStart _ _ _ => isTrue trivial
  | .tcpPeerStop _ => isTrue trivial

/-- What callers and kernels see to. -/
def UdpMeets {η : Type} (fds₀ : η → Finset Handle) (s : UdpNet η) (c : η × HostCall) : Prop :=
  HostMeets (fds₀ c.1) (s.host c.1) c.2 ∧ KernelMeets s.wire c.2

instance {η : Type} (fds₀ : η → Finset Handle) (s : UdpNet η) (c : η × HostCall) : Decidable (UdpMeets fds₀ s c) :=
  inferInstanceAs (Decidable (_ ∧ _))

/-! ## Datagrams -/

/-- What a session sends. -/
structure Datagram where
  magic : UInt32
  msgType : UInt8
  payload : List UInt8
  deriving DecidableEq, Repr

def Datagram.bytes (m : Datagram) : List UInt8 := frame m.magic m.msgType m.payload

/-- A datagram of a session: its magic is set, and its payload fits. -/
structure Datagram.Sound (m : Datagram) : Prop where
  magic : m.magic ≠ INVALID_MAGIC
  fits : m.payload.length ≤ MAX_UDP_MSG_SIZE - METADATA_SIZE

/-- The datagram of a payload. -/
def AppSession.datagram (x : AppSession) (payload : List UInt8) : Datagram := ⟨x.localMagic, x.msgType, payload⟩

/-- The session takes the datagram, for a caller with room for `payloadLen` bytes. -/
structure AppSession.Takes (x : AppSession) (m : Datagram) (payloadLen : Nat) : Prop where
  nonempty : m.payload ≠ []
  fits : m.payload.length ≤ payloadLen
  msgType : m.msgType = x.msgType
  trusted : x.peerMagic = INVALID_MAGIC ∨ x.isSinglePeer = 0 ∨ x.peerMagic = m.magic

/-- All of these datagrams were sent to sessions of the type of this one, and by one session if it has a single
peer. -/
def AppSession.Heard (x : AppSession) (sent ms : List Datagram) : Prop :=
  ∀ m ∈ ms, m ∈ sent ∧ m.msgType = x.msgType ∧ x.peerMagic ≠ INVALID_MAGIC ∧
    (x.isSinglePeer ≠ 0 → m.magic = x.peerMagic)

section

variable {m : Datagram} {x : AppSession} {sent ms : List Datagram}

theorem Datagram.length_bytes (m : Datagram) : m.bytes.length = METADATA_SIZE + m.payload.length := by
  unfold Datagram.bytes frame
  rw [List.length_append, bytes_length]

/-- A datagram is received as a whole. -/
theorem received_bytes (hm : m.Sound) (addresser : AddrInfo) :
    (RecvfromResult.datagram m.bytes addresser).received MAX_MTU = m.bytes := by
  have hfits := hm.fits
  apply List.take_of_length_le
  rw [m.length_bytes]
  simp only [MAX_UDP_MSG_SIZE, METADATA_SIZE, MAX_MTU] at hfits ⊢
  omega

theorem datagramHeader_bytes (m : Datagram) (payloadLen : Nat) :
    datagramHeader m.bytes payloadLen = ⟨header m.magic m.msgType m.payload.length, payloadLen⟩ := by
  unfold datagramHeader Datagram.bytes frame
  rw [List.take_left' (bytes_length _), ofBytes_bytes]

theorem Datagram.Sound.payloadSize (hm : m.Sound) :
    (header m.magic m.msgType m.payload.length).payloadSize.toNat = m.payload.length :=
  payloadSize_header m.magic m.msgType (Nat.le_trans hm.fits (by decide))

/-- **A session takes the bytes of the datagrams that it takes.** -/
theorem accepts_bytes (hm : m.Sound) (payloadLen : Nat) : x.Accepts m.bytes payloadLen ↔ x.Takes m payloadLen := by
  have hsize := hm.payloadSize
  have hempty : (header m.magic m.msgType m.payload.length).payloadSize ≠ 0 ↔ m.payload ≠ [] := by
    rw [not_iff_not, ← UInt32.toNat_inj, hsize]
    exact List.length_eq_zero_iff
  unfold AppSession.Accepts
  rw [datagramHeader_bytes]
  constructor
  · rintro ⟨-, hchecked, htype, htrusted⟩
    exact ⟨hempty.mp hchecked.nonempty, hsize ▸ hchecked.fits, htype, htrusted⟩
  · rintro ⟨hnonempty, hfits, htype, htrusted⟩
    have hlong : METADATA_SIZE ≤ m.bytes.length := by
      rw [m.length_bytes]
      exact Nat.le_add_right ..
    exact ⟨hlong, ⟨rfl, hsize.symm ▸ hfits, hempty.mpr hnonempty⟩, htype, htrusted⟩

/-- The payload is copied as a whole. -/
theorem payloadCopy_bytes (hm : m.Sound) (beyond : Nat → UInt8) :
    payloadCopy m.bytes beyond m.payload.length = m.payload := by
  have hmtu : m.bytes.length ≤ MAX_MTU := by
    have hfits := hm.fits
    rw [m.length_bytes]
    simp only [MAX_UDP_MSG_SIZE, METADATA_SIZE, MAX_MTU] at hfits ⊢
    omega
  rw [payloadCopy_eq beyond hmtu (Nat.le_of_eq m.length_bytes.symm)]
  unfold Datagram.bytes frame
  rw [List.drop_left' (bytes_length _), List.take_length]

/-- A session that learns a magic has delivered nothing yet. -/
theorem AppSession.Heard.after (h : x.Heard sent ms) (received : List UInt8) (payloadLen : Nat) :
    (x.after received payloadLen).Heard sent ms := by
  intro m hm
  obtain ⟨hsent, htype, hlearned, hsingle⟩ := h m hm
  have hsame : x.after received payloadLen = x := if_neg fun hlearns => hlearned hlearns.2.2
  rw [hsame]
  exact ⟨hsent, htype, hlearned, hsingle⟩

/-- **A session delivers a datagram**; if it had learned no magic, that of the datagram is now its peer's. -/
theorem AppSession.Heard.deliver (h : x.Heard sent ms) (hm : m.Sound) (hsent : m ∈ sent) {payloadLen : Nat}
    (htakes : x.Takes m payloadLen) : (x.after m.bytes payloadLen).Heard sent (ms ++ [m]) := by
  have haccepts := (accepts_bytes hm payloadLen).mpr htakes
  intro m' hm'
  rw [List.mem_append, List.mem_singleton] at hm'
  obtain hold | rfl := hm'
  · exact h.after m.bytes payloadLen m' hold
  · by_cases hunlearned : x.peerMagic = INVALID_MAGIC
    · have hafter : x.after m'.bytes payloadLen = { x with peerMagic := m'.magic } := by
        unfold AppSession.after
        rw [if_pos ⟨haccepts.1, haccepts.2.1, hunlearned⟩, datagramHeader_bytes]
        rfl
      rw [hafter]
      exact ⟨hsent, htakes.msgType, hm.magic, fun _ => rfl⟩
    · have hsame : x.after m'.bytes payloadLen = x := if_neg fun hlearns => hunlearned hlearns.2.2
      rw [hsame]
      refine ⟨hsent, htakes.msgType, hunlearned, fun hsingle => ?_⟩
      exact ((htakes.trusted.resolve_left hunlearned).resolve_left hsingle).symm

end

/-! ## The world -/

/-- The sessions of each host, the datagrams sent by any of them, and those that each session delivered since it was
started. -/
structure UdpWorld (η : Type) where
  sessions : η → Sessions
  sent : List Datagram
  delivered : η → Handle → List Datagram

/-- No session has been started. -/
def UdpWorld.empty (η : Type) : UdpWorld η := ⟨fun _ _ => none, [], fun _ _ => []⟩

section

variable {η : Type}

/-- The kernel gives a receive a datagram that its session takes. -/
structure Arrives (w : UdpWorld η) (e : η) (handle : Handle) (payloadLen : Nat) (answer : RecvfromResult)
    (x : AppSession) (m : Datagram) : Prop where
  session : w.sessions e handle = some x
  udp : x.kind = .udp
  listed : x.listed = true
  sent : m ∈ w.sent
  answer : ∃ addresser, answer = .datagram m.bytes addresser
  takes : x.Takes m payloadLen

variable [DecidableEq η]

/-- The world with other datagrams delivered to a session. -/
def UdpWorld.setDelivered (w : UdpWorld η) (e : η) (handle : Handle) (ms : List Datagram) :
    η → Handle → List Datagram :=
  Function.update w.delivered e (Function.update (w.delivered e) handle ms)

/-- What a send does: the datagram of its session is sent if it returns 0. -/
def SendCarries (w : UdpWorld η) (e : η) (handle : Handle) (payload : List UInt8) (r : HostReply) (w' : UdpWorld η) :
    Prop :=
  w'.delivered = w.delivered ∧ ∃ err len calls, r = .sent err len calls ∧
    ((∃ x, w.sessions e handle = some x ∧ err = 0 ∧ w'.sent = w.sent ++ [x.datagram payload]) ∨
      (err ≠ 0 ∧ w'.sent = w.sent))

/-- What a receive does: it delivers the payload of a datagram that was sent, if its session takes it. -/
def RecvCarries (w : UdpWorld η) (e : η) (handle : Handle) (payloadLen : Nat) (answer : RecvfromResult) (r : HostReply)
    (w' : UdpWorld η) : Prop :=
  w'.sent = w.sent ∧ ∃ err addresserSt payload len calls, r = .received err addresserSt payload len calls ∧
    ((∃ x m, Arrives w e handle payloadLen answer x m ∧ err = 0 ∧ payload = m.payload ∧ len = m.payload.length ∧
        w'.delivered = w.setDelivered e handle (w.delivered e handle ++ [m])) ∨
      ((∀ x m, ¬Arrives w e handle payloadLen answer x m) ∧ err ≠ 0 ∧ w'.delivered = w.delivered))

/-- A new session has delivered nothing. -/
def StartCarries (w : UdpWorld η) (e : η) (r : HostReply) (w' : UdpWorld η) : Prop :=
  w'.sent = w.sent ∧
    ((∃ handle, r = .started 0 (some handle) ∧ w'.delivered = w.setDelivered e handle []) ∨
      ((∃ err handle, err ≠ 0 ∧ r = .started err handle) ∧ w'.delivered = w.delivered))

/-- **What a call does to the datagrams.** -/
def Carries (w : UdpWorld η) (e : η) (r : HostReply) (w' : UdpWorld η) : HostCall → Prop
  | .udpSessionStart _ _ _ => StartCarries w e r w'
  | .tcpClientBlockingStart _ _ _ => StartCarries w e r w'
  | .udpSend handle _ payload _ => SendCarries w e handle payload r w'
  | .udpRecv handle _ payloadLen _ answer => RecvCarries w e handle payloadLen answer r w'
  | _ => w'.sent = w.sent ∧ w'.delivered = w.delivered

/-- **What a call on a host returns and does**: the host is one for itself, and the others do not change. -/
structure UdpSpec (w : UdpWorld η) (s : UdpNet η) (c : η × HostCall) (r : HostReply) (w' : UdpWorld η) : Prop where
  host : HostSpec (w.sessions c.1) (s.host c.1) c.2 r (w'.sessions c.1)
  others : ∀ e, e ≠ c.1 → w'.sessions e = w.sessions e
  carries : Carries w c.1 r w' c.2

/-- What is seen of the network between two calls. -/
structure WorldObserved (fds₀ : η → Finset Handle) (w : UdpWorld η) (s : UdpNet η) : Prop where
  hosts : ∀ e, Observed (fds₀ e) (w.sessions e) (s.host e)
  wire : s.wire = w.sent.map Datagram.bytes
  heard : ∀ {e handle x}, w.sessions e handle = some x → x.Heard w.sent (w.delivered e handle)

/-- **The hosts have the sessions of the world**, and the kernels its datagrams. -/
structure InWorld (fds₀ : η → Finset Handle) (w : UdpWorld η) (s : UdpNet η) : Prop where
  tracks : ∀ e, Tracks (fds₀ e) (w.sessions e) (s.host e)
  wire : s.wire = w.sent.map Datagram.bytes
  sound : ∀ m ∈ w.sent, m.Sound
  heard : ∀ {e handle x}, w.sessions e handle = some x → x.Heard w.sent (w.delivered e handle)

variable {fds₀ : η → Finset Handle} {w : UdpWorld η} {s : UdpNet η} {e : η} {host : Host} {a : Sessions}

omit [DecidableEq η] in
theorem InWorld.observed (h : InWorld fds₀ w s) : WorldObserved fds₀ w s :=
  ⟨fun e => (h.tracks e).observed, h.wire, h.heard⟩

omit [DecidableEq η] in
theorem AppSession.Heard.mono {x : AppSession} {sent ms : List Datagram} (h : x.Heard sent ms) (sent' : List Datagram) :
    x.Heard (sent ++ sent') ms := fun m hm => ⟨List.mem_append_left _ (h m hm).1, (h m hm).2⟩

/-- **One host goes on**, and its kernel takes datagrams. -/
theorem InWorld.next (h : InWorld fds₀ w s) (htracks : Tracks (fds₀ e) a host) {ms : List Datagram}
    (hsound : ∀ m ∈ ms, m.Sound) {delivered : η → Handle → List Datagram}
    (hothers : ∀ e', e' ≠ e → delivered e' = w.delivered e')
    (hheard : ∀ {handle x}, a handle = some x → x.Heard (w.sent ++ ms) (delivered e handle)) :
    InWorld fds₀ ⟨Function.update w.sessions e a, w.sent ++ ms, delivered⟩
      ⟨Function.update s.host e host, s.wire ++ ms.map Datagram.bytes⟩ := by
  refine ⟨fun e' => ?_, ?_, fun m hm => ?_, fun {e' handle x} hx => ?_⟩
  · by_cases he : e' = e
    · subst he
      simpa using htracks
    · simpa [he] using h.tracks e'
  · rw [List.map_append, h.wire]
  · obtain hm | hm := List.mem_append.mp hm
    · exact h.sound m hm
    · exact hsound m hm
  · by_cases he : e' = e
    · subst he
      dsimp only at hx
      rw [Function.update_self] at hx
      exact hheard hx
    · dsimp only at hx
      rw [Function.update_of_ne he] at hx
      change x.Heard (w.sent ++ ms) (delivered e' handle)
      rw [hothers e' he]
      exact (h.heard hx).mono ms

/-- What a call adds to the datagrams, for the sessions that it leaves. -/
structure Carried (w : UdpWorld η) (e : η) (host : Host) (call : HostCall) (r : HostReply) (a' : Sessions)
    (ms : List Datagram) (delivered : η → Handle → List Datagram) : Prop where
  taken : (sentDatagram host call).toList = ms.map Datagram.bytes
  sound : ∀ m ∈ ms, m.Sound
  others : ∀ e', e' ≠ e → delivered e' = w.delivered e'
  heard : ∀ {handle x}, a' handle = some x → x.Heard (w.sent ++ ms) (delivered e handle)
  carries : Carries w e r ⟨Function.update w.sessions e a', w.sent ++ ms, delivered⟩ call

theorem setDelivered_others (w : UdpWorld η) (handle : Handle) (ms : List Datagram) {e' : η} (he : e' ≠ e) :
    w.setDelivered e handle ms e' = w.delivered e' := Function.update_of_ne he ..

theorem setDelivered_apply (w : UdpWorld η) (e : η) (handle handle' : Handle) (ms : List Datagram) :
    w.setDelivered e handle ms e handle' = if handle' = handle then ms else w.delivered e handle' := by
  unfold UdpWorld.setDelivered
  rw [Function.update_self, Function.update_apply]

/-- A call that carries no datagram. -/
theorem Carried.none {call : HostCall} {r : HostReply} {a' : Sessions} (hheard : ∀ {handle x}, a' handle = some x →
      x.Heard w.sent (w.delivered e handle)) (htaken : sentDatagram host call = Option.none)
    (hcarries : ∀ w' : UdpWorld η, w'.sent = w.sent → w'.delivered = w.delivered → Carries w e r w' call) :
    Carried w e host call r a' [] w.delivered := by
  refine ⟨by rw [htaken]; rfl, nofun, fun _ _ => rfl, fun hx => ?_, hcarries _ (List.append_nil _) rfl⟩
  rw [List.append_nil]
  exact hheard hx

/-- **A start.** -/
theorem InWorld.start (h : InWorld fds₀ w s) {kind : SessionKind} {Opens : Fd → NewInfo → Prop} {r : HostReply}
    {a' : Sessions} (hreply : StartReply (w.sessions e) kind Opens r a') {call : HostCall}
    (htaken : sentDatagram host call = none) (hcall : ∀ w', Carries w e r w' call ↔ StartCarries w e r w') :
    ∃ ms delivered, Carried w e host call r a' ms delivered := by
  obtain ⟨fd, n, listed, -, -, rfl, -, rfl⟩ | ⟨-, ⟨err, handle, herr, rfl⟩, rfl⟩ := hreply
  · refine ⟨[], w.setDelivered e fd.1 [], by rw [htaken]; rfl, nofun, fun _ he => setDelivered_others w _ _ he,
      fun {handle x} hx => ?_, (hcall _).mpr ⟨List.append_nil _, Or.inl ⟨_, rfl, rfl⟩⟩⟩
    rw [setDelivered_apply]
    split
    · exact fun _ hm => nomatch hm
    · rename_i he
      rw [Function.update_of_ne he] at hx
      exact (h.heard hx).mono []
  · exact ⟨[], w.delivered, .none h.heard htaken fun w' hsent hdelivered =>
      (hcall w').mpr ⟨hsent, Or.inr ⟨⟨err, handle, herr, rfl⟩, hdelivered⟩⟩⟩

omit [DecidableEq η] in
/-- **A stop.** -/
theorem InWorld.stop (h : InWorld fds₀ w s) {kind : SessionKind} {handle : Handle} {r : HostReply} {a' : Sessions}
    (hreply : StopReply (w.sessions e) kind handle r a') {handle' : Handle} {x : AppSession}
    (hx : a' handle' = some x) : x.Heard w.sent (w.delivered e handle') := by
  unfold StopReply at hreply
  split at hreply
  · obtain ⟨-, rfl⟩ := hreply
    exact h.heard hx
  · obtain ⟨-, rfl⟩ := hreply
    exact h.heard (ListsSessions.of_update_none hx).2

/-- The datagram of a send is that of its session. -/
theorem sentDatagram_eq {handle : Handle} (recipient : AddrInfo) {payload : List UInt8} {n : Nat} {loc : InfoLoc}
    {x : AppSession} (hcalls : (commLibUdpSend host.lib handle payload (.bytes n)).calls = [.bytes n])
    (hget : libCommuDbHanldeInfoGet host.lib.db handle .udpHandle = (0, some loc))
    (hshown : x.Shown loc (host.lib.db.info loc)) :
    sentDatagram host (.udpSend handle recipient payload (.bytes n)) = some (x.datagram payload).bytes := by
  unfold sentDatagram
  dsimp only
  rw [hcalls, hget]
  dsimp only
  rw [metadataSet_eq hshown.msgType, hshown.localMagic]
  rfl

/-- A kernel takes nothing from a send that fails. -/
theorem sentDatagram_none {handle : Handle} {recipient : AddrInfo} {payload : List UInt8} {answer : IoResult}
    (hcalls : ∀ n, (commLibUdpSend host.lib handle payload answer).calls ≠ [.bytes n]) :
    sentDatagram host (.udpSend handle recipient payload answer) = none := by
  unfold sentDatagram
  dsimp only
  split
  · rename_i hbytes _
    exact absurd hbytes (hcalls _)
  · rfl

/-- **A send.** -/
theorem InWorld.send (h : InWorld fds₀ w s) {handle : Handle} (hvalid : handle ≠ INVALID_HANDLE_ID)
    {recipient : AddrInfo} {payload : List UInt8} {answer : IoResult} {a' : Sessions}
    (hreply : SendReply (w.sessions e) handle payload answer
      (hostStep (s.host e) (.udpSend handle recipient payload answer)).1 a')
    (hkernel : ∀ n, answer = .bytes n → n = METADATA_SIZE + payload.length) :
    ∃ ms delivered, Carried w e (s.host e) (.udpSend handle recipient payload answer)
      (hostStep (s.host e) (.udpSend handle recipient payload answer)).1 a' ms delivered := by
  obtain ⟨rfl, err, len, ⟨⟨x, hx, hudp, hlisted⟩, hfits, hr, herr⟩ | ⟨-, hr, herr⟩⟩ := hreply
  · have hcalls : (commLibUdpSend (s.host e).lib handle payload answer).calls = [answer] :=
      (HostReply.sent.inj hr).2.2
    rw [hr]
    cases answer with
    | error errno =>
      refine ⟨[], w.delivered, .none h.heard (sentDatagram_none fun n hn => ?_) fun w' hsent hdelivered => ?_⟩
      · cases hcalls.symm.trans hn
      · exact ⟨hdelivered, err, len, _, rfl, Or.inr ⟨fun h0 => absurd (herr.mp h0) nofun, hsent⟩⟩
    | bytes n =>
      have hlook : Looked (w.sessions e) (s.host e) handle .udp
          (libCommuDbHanldeInfoGet (s.host e).lib.db handle .udpHandle) := (h.tracks e).lookup hvalid .udp
      generalize hget : libCommuDbHanldeInfoGet (s.host e).lib.db handle .udpHandle = r at hlook
      cases hlook with
      | miss failed absent => exact absurd ⟨x, hx, hudp, hlisted⟩ absent
      | @hit loc y session same listed shown holds =>
        cases Option.some.inj (hx.symm.trans session)
        have htaken := sentDatagram_eq recipient hcalls hget shown
        have herr0 : err = 0 := herr.mpr (congrArg IoResult.bytes (hkernel n rfl))
        refine ⟨[x.datagram payload], w.delivered, by rw [htaken]; rfl, fun m hm => ?_, fun _ _ => rfl,
          fun hx => (h.heard hx).mono _, ⟨rfl, err, len, _, rfl, Or.inl ⟨x, hx, herr0, rfl⟩⟩⟩
        rw [List.mem_singleton.mp hm]
        exact ⟨((h.tracks e).lists.valid hx).2, hfits⟩
  · have hcalls : (commLibUdpSend (s.host e).lib handle payload answer).calls = [] := (HostReply.sent.inj hr).2.2
    rw [hr]
    refine ⟨[], w.delivered, .none h.heard (sentDatagram_none fun n hn => ?_) fun w' hsent hdelivered => ?_⟩
    · cases hcalls.symm.trans hn
    · exact ⟨hdelivered, err, len, _, rfl, Or.inr ⟨herr, hsent⟩⟩

omit [DecidableEq η] in
/-- The bytes that a kernel gives to a receive are those of a datagram that was sent. -/
theorem InWorld.received (h : InWorld fds₀ w s) {answer : RecvfromResult}
    (hkernel : ∀ bytes addresser, answer = .datagram bytes addresser → bytes ∈ s.wire) :
    answer.received MAX_MTU = [] ∨
      ∃ m ∈ w.sent, (∃ addresser, answer = .datagram m.bytes addresser) ∧ answer.received MAX_MTU = m.bytes := by
  cases answer with
  | error errno => exact Or.inl rfl
  | datagram bytes addresser =>
    have hwire := hkernel bytes addresser rfl
    rw [h.wire] at hwire
    obtain ⟨m, hm, rfl⟩ := List.mem_map.mp hwire
    exact Or.inr ⟨m, hm, ⟨addresser, rfl⟩, received_bytes (h.sound m hm) addresser⟩

/-- **A receive.** -/
theorem InWorld.recv (h : InWorld fds₀ w s) {handle : Handle} {addresserSt : AddrInfo} {payloadLen : Nat}
    {beyond : Nat → UInt8} {answer : RecvfromResult} {r : HostReply} {a' : Sessions}
    (hreply : RecvReply (w.sessions e) handle payloadLen beyond answer r a')
    (hkernel : ∀ bytes addresser, answer = .datagram bytes addresser → bytes ∈ s.wire) :
    ∃ ms delivered, Carried w e host (.udpRecv handle addresserSt payloadLen beyond answer) r a' ms delivered := by
  obtain ⟨err, addr, payload, len, calls, rfl, hcases⟩ := hreply
  obtain ⟨x, hx, hudp, hlisted, herr, hok, rfl⟩ | ⟨hnot, herr, -, rfl⟩ := hcases
  · -- a datagram that arrives is accepted
    have harrives : ∀ y m, Arrives w e handle payloadLen answer y m → err = 0 := by
      rintro y m ⟨hy, -, -, hm, ⟨addresser, rfl⟩, htakes⟩
      cases Option.some.inj (hx.symm.trans hy)
      rw [received_bytes (h.sound m hm)] at herr
      exact herr.mpr ((accepts_bytes (h.sound m hm) payloadLen).mpr htakes)
    have hheard : ∀ {handle' y}, Function.update (w.sessions e) handle
        (some (x.after (answer.received MAX_MTU) payloadLen)) handle' = some y →
          y.Heard w.sent (w.delivered e handle') := by
      intro handle' y hy
      rw [Function.update_apply] at hy
      split at hy
      · rename_i he
        cases hy
        rw [he]
        exact (h.heard hx).after _ _
      · exact h.heard hy
    by_cases h0 : err = 0
    · have haccepts := herr.mp h0
      obtain hnone | ⟨m, hm, hanswer, hreceived⟩ := h.received hkernel
      · rw [hnone] at haccepts
        exact absurd haccepts.1 (by decide)
      obtain ⟨hlen, hpayload⟩ := hok h0
      rw [hreceived] at haccepts hlen hpayload hheard
      have htakes := (accepts_bytes (h.sound m hm) payloadLen).mp haccepts
      rw [datagramHeader_bytes, (h.sound m hm).payloadSize] at hlen
      rw [hlen, payloadCopy_bytes (h.sound m hm)] at hpayload
      refine ⟨[], w.setDelivered e handle (w.delivered e handle ++ [m]), rfl, nofun,
        fun _ he => setDelivered_others w _ _ he, fun {handle' y} hy => ?_, ⟨List.append_nil _, err, addr, payload, len,
          calls, rfl, Or.inl ⟨x, m, ⟨hx, hudp, hlisted, hm, hanswer, htakes⟩, h0, hpayload, hlen, rfl⟩⟩⟩
      rw [List.append_nil, setDelivered_apply]
      split
      · rename_i he
        rw [he, Function.update_self, hreceived] at hy
        cases hy
        exact (h.heard hx).deliver (h.sound m hm) hm htakes
      · rename_i he
        rw [Function.update_of_ne he] at hy
        exact h.heard hy
    · exact ⟨[], w.delivered, .none hheard rfl fun w' hsent hdelivered => ⟨hsent, err, addr, payload, len, calls, rfl,
        Or.inr ⟨fun y m ha => h0 (harrives y m ha), h0, hdelivered⟩⟩⟩
  · refine ⟨[], w.delivered, .none h.heard rfl fun w' hsent hdelivered => ⟨hsent, err, addr, payload, len, calls, rfl,
      Or.inr ⟨fun y m ha => ?_, herr, hdelivered⟩⟩⟩
    exact hnot ⟨y, ha.session, ha.udp, ha.listed⟩

/-- **One call.** -/
theorem InWorld.step (h : InWorld fds₀ w s) (c : η × HostCall) (hmeets : UdpMeets fds₀ s c) :
    ∃ w', UdpSpec w s c (udpNetStep s c).1 w' ∧ InWorld fds₀ w' (udpNetStep s c).2 := by
  obtain ⟨e, call⟩ := c
  obtain ⟨hhost, hkernel⟩ := hmeets
  obtain ⟨a', hspec, htracks⟩ := (h.tracks e).step call hhost
  obtain ⟨ms, delivered, hcarried⟩ : ∃ ms delivered,
      Carried w e (s.host e) call (hostStep (s.host e) call).1 a' ms delivered := by
    cases call with
    | udpSessionStart handle params sys => exact h.start hspec rfl fun _ => Iff.rfl
    | udpSessionStop handle =>
      exact ⟨[], w.delivered, .none (h.stop hspec) rfl fun w' hsent hdelivered => ⟨hsent, hdelivered⟩⟩
    | tcpClientBlockingStart connInfo clientHandle sys => exact h.start hspec rfl fun _ => Iff.rfl
    | tcpPeerStop handle =>
      exact ⟨[], w.delivered, .none (h.stop hspec) rfl fun w' hsent hdelivered => ⟨hsent, hdelivered⟩⟩
    | udpSend handle recipient payload answer => exact h.send hhost.1 hspec hkernel
    | udpRecv handle addresserSt payloadLen beyond answer => exact h.recv hspec hkernel
  have hnext := h.next htracks hcarried.sound hcarried.others hcarried.heard
  rw [← hcarried.taken] at hnext
  refine ⟨_, ⟨?_, fun e' he => Function.update_of_ne he .., hcarried.carries⟩, hnext⟩
  dsimp only
  rw [Function.update_self]
  exact hspec

end

/-! ## Runs -/

section

variable {η : Type} [DecidableEq η]

/-- The hosts after `comm_lib_init`, before any datagram. -/
def initNet (db₀ : η → Db) (fds₀ : η → Finset Handle) : UdpNet η := ⟨fun e => initHost (db₀ e) (fds₀ e), []⟩

/-- **Datagrams.**  In every run of calls on any hosts, over kernels that lose, reorder and double datagrams, each call
returns and does what the specification says: a send that returns 0 adds a datagram of its session, a receive
delivers the whole payload of one that was sent if its session takes it, and no other; and what a session delivered
since it was started are datagrams of its type, of one magic if it has a single peer. -/
theorem datagrams_delivered (db₀ : η → Db) (fds₀ : η → Finset Handle) (calls : List (η × HostCall))
    (hmeets : AllMeet (fun s c => some (udpNetStep s c).2) (UdpMeets fds₀) (initNet db₀ fds₀) calls) :
    ∃ rs, trace (fun s c => some (udpNetStep s c)) (initNet db₀ fds₀) calls = some rs ∧
      Follows (WorldObserved fds₀) (fun w s c r _ w' => UdpSpec w s c r w') (.empty η) (initNet db₀ fds₀) calls rs := by
  apply exists_follows (R := fun calls w s => InWorld fds₀ w s ∧
    AllMeet (fun s c => some (udpNetStep s c).2) (UdpMeets fds₀) s calls)
  · rintro calls w s ⟨hworld, -⟩
    exact hworld.observed
  · rintro c calls w s ⟨hworld, hmeets⟩
    obtain ⟨hcall, hrest⟩ := (allMeet_cons rfl).mp hmeets
    obtain ⟨w', hspec, hworld'⟩ := hworld.step c hcall
    exact ⟨_, _, w', rfl, hspec, hworld', hrest⟩
  · exact ⟨⟨fun e => tracks_init (db₀ e) (fds₀ e), rfl, nofun, nofun⟩, hmeets⟩

end

/-- Two sessions, and a datagram from one to the other that comes twice. -/
def sampleUdpCalls : List (Bool × HostCall) :=
  [(false, .udpSessionStart true (some ⟨.connTypeUdpIpUc, ⟨0, 80, 3⟩, .connServer, 1⟩) ⟨.ok (fdOf 5), none, none, 77⟩),
    (true, .udpSessionStart true (some ⟨.connTypeUdpIpUc, ⟨0, 81, 3⟩, .connServer, 1⟩) ⟨.ok (fdOf 4), none, none, 8⟩),
    (false, .udpSend 5 ⟨81, 9⟩ [1, 2] (.bytes 12)),
    (true, .udpRecv 4 ⟨0, 0⟩ 100 (fun _ => 0) (.datagram (frame 77 3 [1, 2]) ⟨80, 9⟩)),
    (true, .udpRecv 4 ⟨0, 0⟩ 100 (fun _ => 0) (.datagram (frame 77 3 [1, 2]) ⟨80, 9⟩)),
    (true, .udpSessionStop 4)]

theorem datagrams_delivered_sample : ∃ rs,
    trace (fun s c => some (udpNetStep s c)) (initNet (fun _ => Db.zero) fun _ => {1, 2}) sampleUdpCalls = some rs ∧
      Follows (WorldObserved fun _ => {1, 2}) (fun w s c r _ w' => UdpSpec w s c r w') (.empty Bool)
        (initNet (fun _ => Db.zero) fun _ => {1, 2}) sampleUdpCalls rs :=
  datagrams_delivered (fun _ => Db.zero) (fun _ => {1, 2}) sampleUdpCalls (by decide +kernel)

end MlnxLib.Commu
