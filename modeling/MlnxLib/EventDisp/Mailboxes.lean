import MlnxLib.EventDisp.Delivery
import MlnxLib.EventDisp.Registry
import MlnxLib.Lib.Fifo

/-!
# From the senders to the clients

The dispatcher with the queues of its sockets.  A call that generates an event sends a datagram to the name of
each descriptor in the row of the event; the kernel may refuse any of them, and a failure other than that of
`sendto` ends the call.  A client takes the datagrams from its descriptors with `event_disp_api_get_event` or
`event_disp_api_get_event_to_user_buf`.

* `eventDispApiGetEventToUserBuf` — a datagram is written into a buffer of the client.
* `Arrives` — what the kernel takes of an event, by its answers for the slots.
* `Exchange`, `ExchangeCall`, `exchangeStep` — the clients, the queues, and what was posted and read.
* `Posting.ReadAs` — what a client makes of an event.
* `Mailboxes` — each client gets the events that it is registered for, in order and once each, but for those that
  the kernel has not taken.

Principal result: `mailboxes_exact` — in every run, whatever the kernel answers to the senders.
-/

set_option autoImplicit false

namespace MlnxLib.EventDisp

open Bytes Fifo Runs SlotTable

/-! ## Calls of the library -/

/-- `event_disp_api_get_event_to_user_buf`; the buffer has `rcvSize` bytes for `recv`. -/
def eventDispApiGetEventToUserBuf (c : RcvCounters) (fd : Int) (rcvMsg : Option (List UInt8)) (rcvSize : Nat)
    (datagram : Option (List UInt8)) : Received :=
  match rcvMsg with
  | none => ⟨.paramNull, none, c⟩
  | some msg =>
    if fd < 0 then ⟨.paramInvalid, some msg, c⟩ else
    match datagram with
    | none => ⟨.socketError, some msg, c⟩
    | some payload =>
      let msg := writeAt msg 0 (payload.take rcvSize)
      ⟨.success, some msg, {
        -- only an event in range has a counter of its own
        rcvCounter := match eventRow (msgEvent msg) with
          | none => c.rcvCounter
          | some e => Function.update c.rcvCounter e (c.rcvCounter e + 1)
        totalRcvCounter := c.totalRcvCounter + 1 }⟩

/-- `event_disp_api_get_event_generation_number`. -/
def eventDispApiGetEventGenerationNumber (s : Disp) (event : Int) (genNum : Option UInt64) :
    EventDispStatus × Option UInt64 :=
  if s.init = false then (.notInit, genNum) else
  match genNum with
  | none => (.paramNull, none)
  | some genNum =>
    match eventRow event with
    | none => (.paramRange, some genNum)
    | some e => (.success, some (s.genCounter e))

/-! ## Events on their way -/

/-- An event that was generated; one that is sent with a copy fits into a message. -/
structure Posting where
  sender : Sender
  event : Fin EVENT_DISP_MAX_EVENTS
  data : Option (List UInt8)
  fits : sender.noCopy = false → (data.getD []).length ≤ EVENT_DISP_MAX_BUFF_LEN

/-- What is sent for it. -/
def Posting.payload (p : Posting) : List UInt8 :=
  eventMessage p.event p.data (p.data.getD []).length p.sender.noCopy

/-- The kernel takes the datagram for a slot. -/
def SendAnswer.takes (a : SendAnswer) (mode : SendMode) : Bool :=
  a.socket && (mode == .blocking || a.fcntl) && a.sendto == .sent

/-- The call goes on behind a slot: only `sendto` may have failed there. -/
def SendAnswer.goesOn (a : SendAnswer) (mode : SendMode) : Bool :=
  a.socket && (mode == .blocking || a.fcntl) && a.close

/-- **An event arrives** at a slot: the kernel takes it there, and the call does not end at a slot before. -/
def Arrives (row : Fin EVENT_DISP_MAX_CON → Int) (mode : SendMode) (answers : Fin EVENT_DISP_MAX_CON → SendAnswer)
    (i : Fin EVENT_DISP_MAX_CON) : Prop :=
  (answers i).takes mode = true ∧ ∀ j < i, row j ≠ -1 → (answers j).goesOn mode = true

instance (row : Fin EVENT_DISP_MAX_CON → Int) (mode : SendMode) (answers : Fin EVENT_DISP_MAX_CON → SendAnswer)
    (i : Fin EVENT_DISP_MAX_CON) : Decidable (Arrives row mode answers i) :=
  inferInstanceAs (Decidable (_ ∧ _))

/-- An event that was generated while a client was registered for it. -/
structure Mail where
  posting : Posting
  /-- It has arrived at the slot of the client. -/
  arrives : Bool

/-- What a client has after it has read an event into a buffer with room for `size` bytes. -/
structure Receipt where
  err : EventDispStatus
  rcvMsg : List UInt8
  size : Nat
  deriving DecidableEq

/-- **What a client makes of an event**: the bytes that were sent, as far as there is room for them; if it was
sent with a copy and there is room for it, the event and the data. -/
structure Posting.ReadAs (p : Posting) (r : Receipt) : Prop where
  bytes : r.rcvMsg.take (p.payload.take r.size).length = p.payload.take r.size
  message : p.sender.noCopy = false → p.payload.length ≤ r.size → r.err = .success ∧
    msgEvent r.rcvMsg = p.event.val ∧ (msgBuff r.rcvMsg).take (p.data.getD []).length = p.data.getD []

/-! ## The system -/

/-- The library with its clients, the queues of the sockets, and the records of what was generated, of what of it
the priorities of each client were registered for, and of what was read there. -/
structure Exchange where
  clients : Clients
  /-- The datagrams that wait at a socket; they go when it is closed. -/
  waiting : Int → List (List UInt8)
  counters : RcvCounters
  /-- The events whose generation was counted. -/
  generated : List (Fin EVENT_DISP_MAX_EVENTS)
  posted : Nat → EventDispPriority → List Mail
  taken : Nat → EventDispPriority → List Receipt

/-- What happens. -/
inductive ExchangeCall where
  | open (high med low : Nat)
  | register (c : Nat) (prio : EventDispPriority) (events : List Int)
  | unregister (c : Nat) (events : List Int)
  | close (c : Nat)
  /-- A sender, with the answers of the kernel. -/
  | generate (sender : Sender) (event : Int) (data : Option (List UInt8)) (lock : Bool)
      (answers : Fin EVENT_DISP_MAX_CON → SendAnswer)
  /-- `event_disp_api_get_event` for a buffer; `recv` may fail. -/
  | getEvent (c : Nat) (prio : EventDispPriority) (rcvMsg : List UInt8) (recv : Bool)
  /-- `event_disp_api_get_event_to_user_buf`. -/
  | getEventToUserBuf (c : Nat) (prio : EventDispPriority) (rcvMsg : List UInt8) (rcvSize : Nat) (recv : Bool)

/-- The datagrams that are sent join the queues. -/
def enqueue (waiting : Int → List (List UInt8)) (sent : List Datagram) (fd : Int) : List (List UInt8) :=
  waiting fd ++ (sent.filter (·.fd = fd)).map Datagram.payload

/-- The events that have arrived. -/
def arrivals (posted : List Mail) : List Posting := (posted.filter Mail.arrives).map Mail.posting

/-- The event of a call, if the call accepts its data. -/
def Sender.posting (sender : Sender) (e : Fin EVENT_DISP_MAX_EVENTS) (data : Option (List UInt8)) :
    Option Posting :=
  if h : sender.noCopy = false → (data.getD []).length ≤ EVENT_DISP_MAX_BUFF_LEN then some ⟨sender, e, data, h⟩
  else none

/-- An event arrives at the slot of a client. -/
def arrivesAt (s : Clients) (sender : Sender) (e : Fin EVENT_DISP_MAX_EVENTS)
    (answers : Fin EVENT_DISP_MAX_CON → SendAnswer) (c : Nat) (prio : EventDispPriority) : Bool :=
  (s.conns c).any fun fds =>
    decide (∃ i, s.disp.db e i = fds.fd prio ∧ Arrives (s.disp.db e) sender.mode answers i)

/-- What a call posts to a priority of a client: the event, if the client is registered for it there, the call
accepts it and has the mutex. -/
def newMail (s : Clients) (sender : Sender) (event : Int) (data : Option (List UInt8)) (lock : Bool)
    (answers : Fin EVENT_DISP_MAX_CON → SendAnswer) (c : Nat) (prio : EventDispPriority) : List Mail :=
  match eventRow event with
  | none => []
  | some e =>
    if s.registry c e = some prio ∧ lock = true then
      (sender.posting e data).toList.map fun p => ⟨p, arrivesAt s sender e answers c prio⟩
    else []

/-- The events that a call counts: it has got to the end of the row. -/
def newGenerated (event : Int) (err : EventDispStatus) : List (Fin EVENT_DISP_MAX_EVENTS) :=
  if err = .success ∨ err = .sendError then (eventRow event).toList else []

/-- A client reads from a descriptor with `read`, which has room for `size` bytes.  It waits while the queue is
empty. -/
def receive (s : Exchange) (c : Nat) (prio : EventDispPriority) (size : Nat) (recv : Bool)
    (read : Int → Option (List UInt8) → Received) : Option Exchange :=
  (s.clients.conns c).bind fun fds =>
    if recv = false then some { s with counters := (read (fds.fd prio) none).counters }
    else match s.waiting (fds.fd prio) with
    | [] => none
    | payload :: rest =>
      let r := read (fds.fd prio) (some payload)
      some { s with
        waiting := Function.update s.waiting (fds.fd prio) rest
        counters := r.counters
        taken := Function.update s.taken c (Function.update (s.taken c) prio
          (s.taken c prio ++ [⟨r.err, r.rcvMsg.getD [], size⟩])) }

/-- A step of the system. -/
def exchangeStep (s : Exchange) : ExchangeCall → Option Exchange
  | .open high med low => (clientStep s.clients (.open high med low)).map fun clients => { s with clients }
  | .register c prio events =>
    (clientStep s.clients (.register c prio events)).map fun clients => { s with clients }
  | .unregister c events => (clientStep s.clients (.unregister c events)).map fun clients => { s with clients }
  | .close c => (s.clients.conns c).bind fun fds =>
    (clientStep s.clients (.close c)).map fun clients =>
      { s with clients, waiting := fun fd => if fd ∈ fds.toList then [] else s.waiting fd }
  | .generate sender event data lock answers =>
    let g := sender.call s.clients.disp event data lock answers
    some { s with
      clients := { s.clients with disp := g.state }
      waiting := enqueue s.waiting g.sent
      generated := s.generated ++ newGenerated event g.err
      posted := fun c prio => s.posted c prio ++ newMail s.clients sender event data lock answers c prio }
  | .getEvent c prio rcvMsg recv =>
    if rcvMsg.length = EVENT_DISP_MAX_MSG_LEN then
      receive s c prio EVENT_DISP_MAX_MSG_LEN recv fun fd => eventDispApiGetEvent s.counters fd (some rcvMsg)
    else none
  | .getEventToUserBuf c prio rcvMsg rcvSize recv =>
    if rcvSize ≤ rcvMsg.length then
      receive s c prio rcvSize recv fun fd => eventDispApiGetEventToUserBuf s.counters fd (some rcvMsg) rcvSize
    else none

/-- The library after its initialisation. -/
def startExchange : Exchange where
  clients := startClients
  waiting _ := []
  counters := ⟨fun _ => 0, 0⟩
  generated := []
  posted _ _ := []
  taken _ _ := []

/-- **Mailboxes.** -/
structure Mailboxes (s : Exchange) : Prop where
  /-- Each client has read, in order, what was posted to it and has arrived, but for what waits. -/
  mail : ∀ c fds, s.clients.conns c = some fds → ∀ prio,
    Queued Posting.payload Posting.ReadAs (arrivals (s.posted c prio)) (s.taken c prio) (s.waiting (fds.fd prio))
  /-- An event is sent to clients that are registered for it only, and at most once to each. -/
  own : ∀ (sender : Sender) (e : Fin EVENT_DISP_MAX_EVENTS) data lock answers,
    ((sender.call s.clients.disp e.val data lock answers).sent.map Datagram.fd).Nodup ∧
    ∀ d ∈ (sender.call s.clients.disp e.val data lock answers).sent, ∃ c fds prio,
      s.clients.conns c = some fds ∧ s.clients.registry c e = some prio ∧ d.fd = fds.fd prio
  /-- A sender that finds no error has posted its event to all of them, and it has arrived unless the queue was
  full. -/
  reach : ∀ (sender : Sender) (e : Fin EVENT_DISP_MAX_EVENTS) data lock answers,
    (sender.call s.clients.disp e.val data lock answers).err = .success →
    ∀ c prio, s.clients.registry c e = some prio →
      ∃ p fds i, newMail s.clients sender e.val data lock answers c prio = [p] ∧ s.clients.conns c = some fds ∧
        s.clients.disp.db e i = fds.fd prio ∧ (p.arrives = true ∨ (answers i).sendto = .again)
  /-- The generation number is that of the calls that got to the end of the row. -/
  number : ∀ (e : Fin EVENT_DISP_MAX_EVENTS) n,
    eventDispApiGetEventGenerationNumber s.clients.disp e.val (some n) =
      (.success, some (UInt64.ofNat (s.generated.count e)))

/-! ## What is sent, whatever the kernel answers -/

section

variable (row : Fin EVENT_DISP_MAX_CON → Int) (message : List UInt8) (mode : SendMode)
  (answers : Fin EVENT_DISP_MAX_CON → SendAnswer)

/-- The loop has not ended, and does not at the close of the next turn. -/
def Sending.Live (r : Sending) : Prop := r.err = .success ∧ r.lastClose ≠ some false

/-- **A turn** sends a datagram to its slot if the kernel takes it there; without an error, it does if its queue is
not full. -/
theorem sendTurn_spec {r : Sending} (hlive : r.Live) (i : Fin EVENT_DISP_MAX_CON) {r' : Sending}
    (hr : r' = sendTurn row message mode answers r i) :
    (r'.err = .success ∨ r'.err = .socketError) ∧ (r'.sendErr = r.sendErr ∨ r'.sendErr = .sendError) ∧
    r'.sent = r.sent ++ (if row i ≠ -1 ∧ (answers i).takes mode = true then [⟨row i, message⟩] else []) ∧
    (r'.Live ↔ (row i ≠ -1 → (answers i).goesOn mode = true)) ∧
    (r'.err = .success → r'.sendErr = .success → row i ≠ -1 →
      (answers i).takes mode = true ∨ (answers i).sendto = .again) := by
  subst hr
  unfold sendTurn Sending.Live
  rw [if_neg (not_not.mpr hlive.1), if_neg hlive.2]
  split
  · rename_i hslot
    simp [hslot, hlive.1]
  rename_i hslot
  split
  · rename_i hsocket
    simp [hslot, SendAnswer.takes, SendAnswer.goesOn, hsocket]
  rename_i hsocket
  dsimp only
  split
  · rename_i hfcntl
    simp [hslot, SendAnswer.takes, SendAnswer.goesOn, hfcntl]
  rename_i hfcntl
  have hopen : ((answers i).socket && (mode == .blocking || (answers i).fcntl)) = true := by
    cases mode <;> simp_all
  unfold SendAnswer.takes SendAnswer.goesOn
  rw [hopen]
  cases hsendto : (answers i).sendto <;> cases (answers i).close <;> simp [hslot, hlive.1]

/-- After an error nothing happens. -/
theorem sendTurns_of_err {r : Sending} (herr : r.err ≠ .success) (slots : List (Fin EVENT_DISP_MAX_CON)) :
    slots.foldl (sendTurn row message mode answers) r = r := by
  induction slots with
  | nil => rfl
  | cons i slots ih =>
    rw [List.foldl_cons, sendTurn, if_pos herr]
    exact ih

/-- **A loop that has ended** sends nothing more, and has its error at the next turn. -/
theorem sendTurns_ended {r : Sending} (hended : ¬r.Live) (herr : r.err = .success ∨ r.err = .socketError)
    (slots : List (Fin EVENT_DISP_MAX_CON)) {r' : Sending}
    (hr : r' = slots.foldl (sendTurn row message mode answers) r) :
    (r'.err = .success ∨ r'.err = .socketError) ∧ r'.sendErr = r.sendErr ∧ r'.sent = r.sent ∧
      (r'.err = .success → slots = []) := by
  subst hr
  cases slots with
  | nil => exact ⟨herr, rfl, rfl, fun _ => rfl⟩
  | cons i slots =>
    have hturn : sendTurn row message mode answers r i = { r with err := .socketError } := by
      unfold sendTurn
      split
      · rename_i hbad
        rw [← herr.resolve_left hbad]
      · rename_i hgood
        rw [if_pos]
        by_contra hclose
        exact hended ⟨not_not.mp hgood, hclose⟩
    have hfails : EventDispStatus.socketError ≠ .success := by decide
    rw [List.foldl_cons, hturn, sendTurns_of_err row message mode answers hfails]
    exact ⟨Or.inr rfl, rfl, rfl, nofun⟩

/-- **The loop** sends to the slots in use, in their order, at which the kernel takes the datagram, up to the first
at which it ends; without an error, to all whose queues are not full. -/
theorem sendTurns_spec : ∀ {slots : List (Fin EVENT_DISP_MAX_CON)} (_ : slots.Pairwise (· < ·)) {r : Sending}
    (_ : r.Live) {r' : Sending}, r' = slots.foldl (sendTurn row message mode answers) r →
    (r'.err = .success ∨ r'.err = .socketError) ∧ (r'.sendErr = r.sendErr ∨ r'.sendErr = .sendError) ∧
    (r'.sent = r.sent ++ (slots.filter fun i => decide (row i ≠ -1 ∧ (answers i).takes mode = true ∧
      ∀ j ∈ slots, j < i → row j ≠ -1 → (answers j).goesOn mode = true)).map fun i => ⟨row i, message⟩) ∧
    (r'.err = .success → r'.sendErr = .success → ∀ i ∈ slots, row i ≠ -1 →
      ((answers i).takes mode = true ∨ (answers i).sendto = .again) ∧
      ∀ j ∈ slots, j < i → row j ≠ -1 → (answers j).goesOn mode = true)
  | [], _, r, hlive, r', hr => by
    subst hr
    exact ⟨Or.inl hlive.1, Or.inl rfl, (List.append_nil _).symm, nofun⟩
  | i :: slots, hsorted, r, hlive, r', hr => by
    obtain ⟨hbefore, hsorted⟩ := List.pairwise_cons.mp hsorted
    obtain ⟨herr, hsend, hsent, hgoes, hnone⟩ := sendTurn_spec row message mode answers hlive i rfl
    rw [List.foldl_cons] at hr
    -- the slots before another one are those before it in the rest, and this one
    have hall : ∀ k ∈ slots, (∀ j ∈ i :: slots, j < k → row j ≠ -1 → (answers j).goesOn mode = true) ↔
        (row i ≠ -1 → (answers i).goesOn mode = true) ∧
        ∀ j ∈ slots, j < k → row j ≠ -1 → (answers j).goesOn mode = true := by
      intro k hk
      rw [List.forall_mem_cons]
      exact and_congr_left' ⟨fun h => h (hbefore k hk), fun h _ => h⟩
    have hfirst : ∀ j ∈ i :: slots, j < i → row j ≠ -1 → (answers j).goesOn mode = true := by
      intro j hj hlt
      rcases List.mem_cons.mp hj with rfl | hj
      · exact absurd hlt (lt_irrefl _)
      · exact absurd hlt (lt_asymm (hbefore j hj))
    have hhead : ([i].filter fun i' => decide (row i' ≠ -1 ∧ (answers i').takes mode = true ∧
          ∀ j ∈ i :: slots, j < i' → row j ≠ -1 → (answers j).goesOn mode = true)).map
          (fun i' => (⟨row i', message⟩ : Datagram)) =
        if row i ≠ -1 ∧ (answers i).takes mode = true then [⟨row i, message⟩] else [] := by
      rw [List.filter_singleton, decide_eq_decide.mpr (and_congr_right' (and_iff_left hfirst))]
      by_cases htakes : row i ≠ -1 ∧ (answers i).takes mode = true
      · rw [if_pos htakes, decide_eq_true htakes]
        rfl
      · rw [if_neg htakes, decide_eq_false htakes]
        rfl
    rw [← List.singleton_append, List.filter_append, List.map_append, List.singleton_append, hhead,
      ← List.append_assoc, ← hsent]
    by_cases hgo : (sendTurn row message mode answers r i).Live
    · obtain ⟨herr', hsend', hsent', hnone'⟩ := sendTurns_spec hsorted hgo hr
      have hon := hgoes.mp hgo
      refine ⟨herr', ?_, ?_, fun h₁ h₂ => List.forall_mem_cons.mpr ⟨fun hslot => ⟨?_, hfirst⟩, fun k hk hslot => ?_⟩⟩
      · rcases hsend' with heq | heq
        · rw [heq]
          exact hsend
        · exact Or.inr heq
      · rw [hsent']
        congr 2
        refine List.filter_congr fun k hk => decide_eq_decide.mpr ?_
        rw [hall k hk, and_iff_right hon]
      · refine hnone hgo.1 ?_ hslot
        rcases hsend' with heq | heq
        · exact heq.symm.trans h₂
        · exact absurd (heq.symm.trans h₂) (by decide)
      · rw [hall k hk, and_iff_right hon]
        exact hnone' h₁ h₂ k hk hslot
    · obtain ⟨herr', hsend', hsent', hnil⟩ := sendTurns_ended row message mode answers hgo herr slots hr
      have hend := fun h => hgo (hgoes.mpr h)
      refine ⟨herr', hsend' ▸ hsend, ?_, fun h₁ h₂ => ?_⟩
      · rw [hsent', List.filter_eq_nil_iff.mpr, List.map_nil, List.append_nil]
        intro k hk
        rw [decide_eq_true_eq, hall k hk]
        exact fun h => hend h.2.2.1
      · obtain rfl := hnil h₁
        obtain rfl : r' = _ := hr
        exact List.forall_mem_cons.mpr ⟨fun hslot => ⟨hnone h₁ h₂ hslot, hfirst⟩, nofun⟩

end

/-- The state with an event counted. -/
def Disp.count (s : Disp) (e : Fin EVENT_DISP_MAX_EVENTS) : Disp :=
  { s with genCounter := Function.update s.genCounter e (s.genCounter e + 1)
           totalGenCounter := s.totalGenCounter + 1 }

/-- What is sent to the slots at which it arrives. -/
def arriving (row : Fin EVENT_DISP_MAX_CON → Int) (message : List UInt8) (mode : SendMode)
    (answers : Fin EVENT_DISP_MAX_CON → SendAnswer) : List Datagram :=
  ((List.finRange EVENT_DISP_MAX_CON).filter fun i => decide (row i ≠ -1 ∧ Arrives row mode answers i)).map
    fun i => ⟨row i, message⟩

theorem arriving_sublist (row : Fin EVENT_DISP_MAX_CON → Int) (message : List UInt8) (mode : SendMode)
    (answers : Fin EVENT_DISP_MAX_CON → SendAnswer) :
    (arriving row message mode answers).Sublist (datagrams row message (List.finRange EVENT_DISP_MAX_CON)) := by
  unfold arriving datagrams
  refine List.Sublist.map _ (List.monotone_filter_right _ fun i hi => ?_)
  rw [decide_eq_true_eq] at hi ⊢
  exact hi.1

/-- **A call that generates an event**, for all answers of the kernel. -/
theorem generate_spec (sender : Sender) {s : Disp} (hinit : s.init = true) (e : Fin EVENT_DISP_MAX_EVENTS)
    (data : Option (List UInt8)) (lock : Bool) (answers : Fin EVENT_DISP_MAX_CON → SendAnswer) {g : Generated}
    (hg : g = sender.call s e.val data lock answers) :
    (g.sent = if (sender.posting e data).isSome ∧ lock = true then
        arriving (s.db e) (eventMessage e data (data.getD []).length sender.noCopy) sender.mode answers
      else []) ∧
    (g.err = .success → ((sender.posting e data).isSome ∧ lock = true) ∧
      ∀ i, s.db e i ≠ -1 → Arrives (s.db e) sender.mode answers i ∨ (answers i).sendto = .again) ∧
    g.state = if g.err = .success ∨ g.err = .sendError then s.count e else s := by
  rw [Sender.call_eq] at hg
  subst hg
  unfold eventDispApiGenerateEventMode
  rw [if_neg (by rw [hinit]; decide)]
  split
  · rename_i hlong
    have hnone : ¬(sender.posting e data).isSome := by
      unfold Sender.posting
      rw [dif_neg fun hfits => absurd (hfits hlong.1) (Nat.not_le_of_lt hlong.2)]
      decide
    rw [if_neg fun h => hnone h.1]
    exact ⟨rfl, nofun, rfl⟩
  rename_i hfits
  have hposting : (sender.posting e data).isSome := by
    unfold Sender.posting
    rw [dif_pos fun hcopy => Nat.le_of_not_lt fun hlt => hfits ⟨hcopy, hlt⟩]
    rfl
  rw [eventRow_eq_some.mpr rfl]
  dsimp only
  split
  · rename_i hlock
    rw [if_neg (by rw [hlock]; simp)]
    exact ⟨rfl, nofun, rfl⟩
  rename_i hlock
  have hlock : lock = true := Bool.of_not_eq_false hlock
  obtain ⟨herr, hsend, hsent, hall⟩ := sendTurns_spec (s.db e)
    (eventMessage e data (data.getD []).length sender.noCopy) sender.mode answers
    (List.pairwise_lt_finRange EVENT_DISP_MAX_CON) (r := ⟨.success, .success, [], none⟩)
    (show _ ∧ _ from ⟨rfl, nofun⟩) rfl
  generalize (List.finRange EVENT_DISP_MAX_CON).foldl _ _ = r at herr hsend hsent hall ⊢
  rw [if_pos (show (sender.posting e data).isSome = true ∧ lock = true from ⟨hposting, hlock⟩)]
  simp only [List.mem_finRange, forall_const] at hsent hall
  rw [List.nil_append] at hsent
  split
  · rename_i hbad
    refine ⟨hsent, fun h => absurd h hbad, ?_⟩
    dsimp only
    rw [herr.resolve_left hbad, if_neg (by decide)]
  · rename_i hgood
    refine ⟨hsent, fun (h : r.sendErr = .success) => ⟨⟨hposting, hlock⟩, fun i hi => ?_⟩, ?_⟩
    · obtain ⟨hone, hbefore⟩ := hall (not_not.mp hgood) h i hi
      exact hone.imp_left fun htakes => ⟨htakes, hbefore⟩
    · rfl

/-- Nothing else is sent. -/
theorem generate_sublist (sender : Sender) {s : Disp} (hinit : s.init = true) (e : Fin EVENT_DISP_MAX_EVENTS)
    (data : Option (List UInt8)) (lock : Bool) (answers : Fin EVENT_DISP_MAX_CON → SendAnswer) :
    (sender.call s e.val data lock answers).sent.Sublist (datagrams (s.db e)
      (eventMessage e data (data.getD []).length sender.noCopy) (List.finRange EVENT_DISP_MAX_CON)) := by
  rw [(generate_spec sender hinit e data lock answers rfl).1]
  split
  · exact arriving_sublist ..
  · exact List.nil_sublist _

/-- The descriptors that get a datagram are different ones, and each is in the row. -/
theorem nodup_datagrams {row : Fin EVENT_DISP_MAX_CON → Int} (hdistinct : Distinct (-1) row)
    (message : List UInt8) :
    ((datagrams row message (List.finRange EVENT_DISP_MAX_CON)).map Datagram.fd).Nodup := by
  unfold datagrams
  rw [List.map_map]
  refine List.Nodup.map_on ?_ ((List.nodup_finRange _).filter _)
  intro i hi j _ hij
  have hne : row i ≠ -1 := by simpa using (List.mem_filter.mp hi).2
  exact hdistinct i j hne hij

theorem mem_datagrams {row : Fin EVENT_DISP_MAX_CON → Int} {message : List UInt8} {d : Datagram} :
    d ∈ datagrams row message (List.finRange EVENT_DISP_MAX_CON) ↔
      d.fd ∈ used (-1) row ∧ d.payload = message := by
  unfold datagrams
  simp only [List.mem_map, List.mem_filter, List.mem_finRange, true_and, decide_eq_true_eq, mem_used]
  constructor
  · rintro ⟨i, hi, rfl⟩
    exact ⟨⟨hi, i, rfl⟩, rfl⟩
  · rintro ⟨⟨hne, i, hi⟩, hpayload⟩
    refine ⟨i, hi ▸ hne, ?_⟩
    cases d
    cases hi
    cases hpayload
    rfl

/-- Among datagrams to different descriptors, those to one of them are one or none. -/
theorem filter_fd {sent : List Datagram} (hnodup : (sent.map Datagram.fd).Nodup) {message : List UInt8}
    (hmessage : ∀ d ∈ sent, d.payload = message) (fd : Int) :
    (sent.filter (·.fd = fd)).map Datagram.payload = if sent.any (·.fd = fd) then [message] else [] := by
  induction sent with
  | nil => rfl
  | cons d sent ih =>
    obtain ⟨hnot, hnodup⟩ := List.nodup_cons.mp hnodup
    have hrest := ih hnodup fun d' hd' => hmessage d' (List.mem_cons_of_mem _ hd')
    by_cases hd : d.fd = fd
    · have hnone : sent.any (·.fd = fd) = false := by
        rw [List.any_eq_false]
        intro d' hd'
        rw [decide_eq_true_eq]
        intro heq
        exact hnot (List.mem_map.mpr ⟨d', hd', heq.trans hd.symm⟩)
      rw [hnone] at hrest
      rw [List.filter_cons_of_pos (by simpa using hd), List.map_cons, hrest, List.any_cons]
      simp [hd, hmessage d (List.mem_cons_self ..)]
    · rw [List.filter_cons_of_neg (by simpa using hd), hrest, List.any_cons]
      simp [hd]

/-! ## The counters of generated events -/

section

variable {s : Disp}

@[simp] theorem closeFd_genCounter (fd : Int) : (s.closeFd fd).genCounter = s.genCounter := by
  unfold Disp.closeFd
  split <;> rfl

@[simp] theorem closeSocket_genCounter (fd : Int) (closed : Bool) :
    (eventDispCloseSocket s fd closed).2.genCounter = s.genCounter := by
  unfold eventDispCloseSocket
  split
  · rfl
  · exact closeFd_genCounter fd

theorem openSocket_genCounter {answer : SocketAnswer} {r : Opened}
    (h : eventDispOpenSocket s answer = some r) : r.state.genCounter = s.genCounter := by
  unfold eventDispOpenSocket at h
  split at h
  · cases h
    rfl
  split at h
  · cases h
  dsimp only at h
  split at h
  · cases h
    simp
  · cases h
    rfl

@[simp] theorem bailSocket_genCounter (fd : Int) : (bailSocket s fd).genCounter = s.genCounter := by
  unfold bailSocket
  split
  · exact closeSocket_genCounter fd true
  · rfl

@[simp] theorem openBail_genCounter (err : EventDispStatus) (fds : EventDispFds) :
    (openBail err fds s).state.genCounter = s.genCounter := by
  simp [openBail]

/-- An open counts no event. -/
theorem eventDispApiOpen_genCounter {fds : Option EventDispFds} {answers : OpenAnswers} {r : Result}
    (h : eventDispApiOpen s fds answers = some r) : r.state.genCounter = s.genCounter := by
  unfold eventDispApiOpen at h
  cases fds with
  | none =>
    cases h
    rfl
  | some fds =>
    dsimp only at h
    split at h
    · cases h
      simp
    split at h
    · cases h
      simp
    split at h
    · cases h
      simp
    obtain ⟨high, hhigh, h⟩ := Option.bind_eq_some_iff.mp h
    split at h
    · cases h
      simp [openSocket_genCounter hhigh]
    obtain ⟨med, hmed, h⟩ := Option.bind_eq_some_iff.mp h
    split at h
    · cases h
      simp [openSocket_genCounter hmed, openSocket_genCounter hhigh]
    obtain ⟨low, hlow, h⟩ := Option.bind_eq_some_iff.mp h
    split at h
    · cases h
      simp [openSocket_genCounter hlow, openSocket_genCounter hmed, openSocket_genCounter hhigh]
    · cases h
      show low.state.genCounter = _
      rw [openSocket_genCounter hlow, openSocket_genCounter hmed, openSocket_genCounter hhigh]

/-- Nor does a close. -/
theorem eventDispApiClose_genCounter (fds : Option EventDispFds) (answers : CloseAnswers) :
    (eventDispApiClose s fds answers).state.genCounter = s.genCounter := by
  unfold eventDispApiClose
  split
  · rfl
  cases fds with
  | none => rfl
  | some fds =>
    dsimp only
    split
    · rfl
    · simp

end

/-! ## The calls of the clients -/

section

variable {s s' : Clients} {c : Nat} {fds : EventDispFds}

/-- **A new client** has descriptors that were not open, and no other client changes; or the call is
refused. -/
theorem clientStep_open {high med low : Nat} (h : ClientsInv s)
    (hstep : clientStep s (.open high med low) = some s') :
    s' = s ∨ ∃ (fds : EventDispFds) (d : Disp), s' = { s with
      disp := d
      conns := Function.update s.conns s.numClients (some fds)
      numClients := s.numClients + 1 } ∧ (∀ fd ∈ fds.toList, fd ∉ s.disp.held) ∧ s.disp.held ⊆ d.held ∧
      d.genCounter = s.disp.genCounter := by
  rw [clientStep] at hstep
  obtain ⟨r, ho, rfl⟩ := Option.map_eq_some_iff.mp hstep
  by_cases hstops : OpenStops s.disp (openOk high med low).lock
  · obtain ⟨err, herr, rfl, -⟩ := eventDispApiOpen_stops hstops ho
    rw [openBail_reset]
    dsimp only
    rw [if_neg herr]
    exact Or.inl rfl
  · have hgen := eventDispApiOpen_genCounter ho
    cases eventDispApiOpen_sockets h.table hstops ho with
    | connected high med low d _ hfresh _ _ _ hheld _ =>
      refine Or.inr ⟨⟨high, med, low⟩, d, if_pos rfl, ?_, ?_, hgen⟩
      · intro fd hfd
        simp only [EventDispFds.toList, List.mem_cons, List.not_mem_nil, or_false] at hfd
        rcases hfd with rfl | rfl | rfl
        · exact hfresh.1
        · exact hfresh.2.1
        · exact hfresh.2.2
      · intro fd hfd
        rw [hheld]
        exact Finset.mem_insert_of_mem (Finset.mem_insert_of_mem (Finset.mem_insert_of_mem hfd))
    | first hfails => exact absurd hfails (not_socketOk_fails high)
    | later _ _ _ hfails _ _ _ _ _ =>
      exact absurd hfails (not_or.mpr ⟨not_socketOk_fails med, not_socketOk_fails low⟩)

/-- **A client that closes** has its descriptors closed, and no other client changes. -/
theorem clientStep_close (h : ClientsInv s) (hc : s.conns c = some fds)
    (hstep : clientStep s (.close c) = some s') : s'.conns = Function.update s.conns c none ∧
      s'.numClients = s.numClients ∧ (∀ fd, fd ∉ s'.disp.held → fd ∈ fds.toList ∨ fd ∉ s.disp.held) ∧
      s'.disp.genCounter = s.disp.genCounter := by
  have hpasses : ¬ CloseStops s.disp closeOk.lock := by
    rintro (hdown | hlock)
    · rw [h.init] at hdown
      cases hdown
    · cases hlock
  obtain ⟨-, -, -, -, hheld⟩ := closeConnection_spec h.table.toSockets fds hpasses
  rw [clientStep, hc] at hstep
  cases hstep
  refine ⟨rfl, rfl, fun fd hfd => ?_, eventDispApiClose_genCounter ..⟩
  by_contra hnot
  obtain ⟨hnot, hmem⟩ := not_or.mp hnot
  refine hfd ?_
  show fd ∈ (eventDispApiClose s.disp (some fds) closeOk).state.held
  rw [hheld]
  simp only [EventDispFds.toList, List.mem_cons, List.not_mem_nil, or_false, not_or] at hnot
  simp [hnot, not_not.mp hmem]

/-- **A registration** changes the table and the map only. -/
theorem clientStep_register {prio : EventDispPriority} {events : List Int}
    (hstep : clientStep s (.register c prio events) = some s') :
    s'.conns = s.conns ∧ s'.numClients = s.numClients ∧ s'.disp.held = s.disp.held ∧
      s'.disp.genCounter = s.disp.genCounter := by
  rw [clientStep] at hstep
  split at hstep
  · obtain ⟨fds, -, rfl⟩ := Option.map_eq_some_iff.mp hstep
    refine ⟨rfl, rfl, ?_⟩
    dsimp only
    unfold eventDispApiRegisterEvents eventDispApiUnregisterEvents
    grind
  · cases hstep

theorem clientStep_unregister {events : List Int} (hstep : clientStep s (.unregister c events) = some s') :
    s'.conns = s.conns ∧ s'.numClients = s.numClients ∧ s'.disp.held = s.disp.held ∧
      s'.disp.genCounter = s.disp.genCounter := by
  rw [clientStep] at hstep
  split at hstep
  · obtain ⟨fds, -, rfl⟩ := Option.map_eq_some_iff.mp hstep
    refine ⟨rfl, rfl, ?_⟩
    dsimp only
    unfold eventDispApiUnregisterEvents
    grind
  · cases hstep

end

/-! ## What is read -/

/-- **A copied event is in the buffer** that its datagram is written over. -/
theorem message_of_copy (e : Fin EVENT_DISP_MAX_EVENTS) (data : Option (List UInt8)) (rest : List UInt8) :
    msgEvent (eventMessage e data (data.getD []).length false ++ rest) = e.val ∧
    (msgBuff (eventMessage e data (data.getD []).length false ++ rest)).take (data.getD []).length =
      data.getD [] := by
  have hmsg : eventMessage e data (data.getD []).length false = [UInt8.ofNat e, 0, 0, 0] ++ data.getD [] := by
    rw [← le32_event]
    cases data with
    | none => rfl
    | some data => simp [eventMessage]
  rw [hmsg, List.append_assoc]
  refine ⟨msgEvent_eq_iff.mpr ⟨rfl, rfl, rfl, rfl⟩, ?_⟩
  unfold msgBuff
  exact List.take_left

/-- A datagram that was written over the start of a buffer. -/
theorem Posting.readAs (p : Posting) {err : EventDispStatus} {prev : List UInt8} {size : Nat}
    (herr : ∀ e : Fin EVENT_DISP_MAX_EVENTS, msgEvent (writeAt prev 0 (p.payload.take size)) = e.val →
      err = .success) :
    p.ReadAs ⟨err, writeAt prev 0 (p.payload.take size), size⟩ := by
  have hwrite : writeAt prev 0 (p.payload.take size) =
      p.payload.take size ++ prev.drop (p.payload.take size).length := by
    unfold writeAt
    rw [List.take_zero, List.nil_append, Nat.zero_add]
  constructor
  · show (writeAt prev 0 (p.payload.take size)).take (p.payload.take size).length = p.payload.take size
    rw [hwrite]
    exact List.take_left
  · intro hcopy hlen
    have hdecoded := message_of_copy p.event p.data (prev.drop (p.payload.take size).length)
    have hpayload : p.payload.take size = eventMessage p.event p.data (p.data.getD []).length false := by
      rw [List.take_of_length_le hlen, Posting.payload, hcopy]
    rw [← hpayload, ← hwrite] at hdecoded
    exact ⟨herr p.event hdecoded.1, hdecoded.1, hdecoded.2⟩

theorem getEvent_readAs (p : Posting) {c : RcvCounters} {fd : Int} {prev : List UInt8} (hfd : 0 ≤ fd) {r : Received}
    (hr : r = eventDispApiGetEvent c fd (some prev) (some p.payload)) :
    p.ReadAs ⟨r.err, r.rcvMsg.getD [], prev.length⟩ := by
  have hmsg : r.rcvMsg.getD [] = writeAt prev 0 (p.payload.take prev.length) := by
    subst hr
    unfold eventDispApiGetEvent
    dsimp only
    rw [if_neg (not_lt.mpr hfd)]
    split <;> rfl
  rw [hmsg]
  refine p.readAs fun e he => ?_
  subst hr
  unfold eventDispApiGetEvent
  dsimp only
  rw [if_neg (not_lt.mpr hfd), eventRow_eq_some.mpr he]

theorem getEventToUserBuf_readAs (p : Posting) {c : RcvCounters} {fd : Int} {prev : List UInt8} {size : Nat}
    (hfd : 0 ≤ fd) {r : Received}
    (hr : r = eventDispApiGetEventToUserBuf c fd (some prev) size (some p.payload)) :
    p.ReadAs ⟨r.err, r.rcvMsg.getD [], size⟩ := by
  have hmsg : r.rcvMsg.getD [] = writeAt prev 0 (p.payload.take size) ∧ r.err = .success := by
    subst hr
    unfold eventDispApiGetEventToUserBuf
    dsimp only
    rw [if_neg (not_lt.mpr hfd)]
    exact ⟨rfl, rfl⟩
  rw [hmsg.1]
  exact p.readAs fun _ _ => hmsg.2

/-! ## The invariant -/

/-- The clients are in order, closed sockets have no queue, and the records are right. -/
structure ExchangeInv (s : Exchange) : Prop where
  clients : ClientsInv s.clients
  empty : ∀ fd, fd ∉ s.clients.disp.held → s.waiting fd = []
  fresh : ∀ c, s.clients.numClients ≤ c → ∀ prio, s.posted c prio = [] ∧ s.taken c prio = []
  mail : ∀ c fds, s.clients.conns c = some fds → ∀ prio,
    Queued Posting.payload Posting.ReadAs (arrivals (s.posted c prio)) (s.taken c prio) (s.waiting (fds.fd prio))
  number : ∀ e, s.clients.disp.genCounter e = UInt64.ofNat (s.generated.count e)

section

variable {s s' : Exchange} {sender : Sender} {e : Fin EVENT_DISP_MAX_EVENTS} {data : Option (List UInt8)}
  {lock : Bool} {answers : Fin EVENT_DISP_MAX_CON → SendAnswer} {c : Nat} {fds : EventDispFds}
  {prio : EventDispPriority}

/-- A descriptor in a row is that of a client with the priority, and no other client has it. -/
theorem ClientsInv.mem_used_iff {s : Clients} (h : ClientsInv s) (hc : s.conns c = some fds) :
    fds.fd prio ∈ used (-1) (s.disp.db e) ↔ s.registry c e = some prio := by
  rw [(h.rows e).mem_used]
  constructor
  · rintro ⟨c', fds', prio', hc', hprio', heq⟩
    have hcc : c' = c := h.conns.disjoint c' c fds' fds (fds.fd prio) hc' hc
      (heq ▸ fd_mem_toList fds' prio') (fd_mem_toList fds prio)
    subst hcc
    cases Option.some.inj (hc.symm.trans hc')
    rw [← fd_injective (h.conns.nodup c' fds hc) heq]
    exact hprio'
  · intro hprio
    exact ⟨c, fds, prio, hc, hprio, rfl⟩

/-- **What arrives at a client joins its queue.** -/
theorem ClientsInv.newMail_payload {s : Clients} (h : ClientsInv s) (hc : s.conns c = some fds) :
    ((sender.call s.disp e.val data lock answers).sent.filter (·.fd = fds.fd prio)).map Datagram.payload =
      (arrivals (newMail s sender e.val data lock answers c prio)).map Posting.payload := by
  obtain ⟨hsent, -, -⟩ := generate_spec sender h.init e data lock answers rfl
  rw [hsent]
  unfold newMail
  rw [eventRow_eq_some.mpr rfl]
  dsimp only
  have hreached : fds.fd prio ∈ used (-1) (s.disp.db e) ↔ s.registry c e = some prio := h.mem_used_iff hc
  cases hposting : sender.posting e data with
  | none => simp [arrivals]
  | some p =>
    have hpayload : p.payload = eventMessage e data (data.getD []).length sender.noCopy := by
      unfold Sender.posting at hposting
      split at hposting
      · cases hposting
        rfl
      · cases hposting
    cases lock with
    | false => simp [arrivals]
    | true =>
      rw [if_pos ⟨rfl, rfl⟩, filter_fd ((nodup_datagrams (h.rows e).distinct _).sublist
        ((arriving_sublist _ _ _ _).map Datagram.fd))
        fun d hd => (mem_datagrams.mp ((arriving_sublist _ _ _ _).subset hd)).2]
      -- it is sent to the descriptor exactly when it arrives at its slot
      have hany : (arriving (s.disp.db e) (eventMessage e data (data.getD []).length sender.noCopy) sender.mode
            answers).any (·.fd = fds.fd prio) = decide (s.registry c e = some prio ∧
          arrivesAt s sender e answers c prio = true) := by
        rw [Bool.eq_iff_iff, List.any_eq_true, decide_eq_true_eq, ← hreached, mem_used]
        unfold arriving arrivesAt
        rw [hc, Option.any_some, decide_eq_true_eq]
        constructor
        · rintro ⟨d, hd, heq⟩
          obtain ⟨i, hi, rfl⟩ := List.mem_map.mp hd
          have hi := (List.mem_filter.mp hi).2
          rw [decide_eq_true_eq] at hi heq
          exact ⟨⟨heq ▸ hi.1, i, heq⟩, i, heq, hi.2⟩
        · rintro ⟨⟨hne, -⟩, i, heq, harrives⟩
          refine ⟨_, List.mem_map_of_mem (List.mem_filter.mpr ⟨List.mem_finRange i, ?_⟩), decide_eq_true heq⟩
          exact decide_eq_true ⟨heq.trans_ne hne, harrives⟩
      rw [hany]
      by_cases hprio : s.registry c e = some prio
      · cases harrives : arrivesAt s sender e answers c prio <;> simp [arrivals, hprio, hpayload]
      · simp [arrivals, hprio]

theorem arrivals_append (posted posted' : List Mail) :
    arrivals (posted ++ posted') = arrivals posted ++ arrivals posted' := by
  unfold arrivals
  rw [List.filter_append, List.map_append]

end

section

variable {s s' : Exchange} {c : Nat} {fds : EventDispFds} {prio : EventDispPriority}

/-- The clients change, but not who is connected. -/
theorem ExchangeInv.congr_clients (h : ExchangeInv s) {clients : Clients} (hclients : ClientsInv clients)
    (hconns : clients.conns = s.clients.conns) (hnum : clients.numClients = s.clients.numClients)
    (hheld : clients.disp.held = s.clients.disp.held)
    (hgen : clients.disp.genCounter = s.clients.disp.genCounter) : ExchangeInv { s with clients } where
  clients := hclients
  empty fd hfd := h.empty fd (hheld ▸ hfd)
  fresh c hc := h.fresh c (hnum ▸ hc)
  mail c fds hc := h.mail c fds (hconns ▸ hc)
  number e := (congrFun hgen e).trans (h.number e)

/-- **A client connects**: its queues are empty. -/
theorem ExchangeInv.open (h : ExchangeInv s) {high med low : Nat}
    (hstep : exchangeStep s (.open high med low) = some s') : ExchangeInv s' := by
  rw [exchangeStep] at hstep
  obtain ⟨clients, hopen, rfl⟩ := Option.map_eq_some_iff.mp hstep
  have hinv := clientStep_inv h.clients hopen
  rcases clientStep_open h.clients hopen with rfl | ⟨fds, d, rfl, hfresh, hsub, hgen⟩
  · exact h
  refine ⟨hinv, fun fd hfd => h.empty fd fun hmem => hfd (hsub hmem), fun c hc prio => ?_, fun c fds' hc prio => ?_,
    fun e => (congrFun hgen e).trans (h.number e)⟩
  · exact h.fresh c (Nat.le_of_succ_le hc) prio
  · change Function.update s.clients.conns s.clients.numClients (some fds) c = some fds' at hc
    by_cases hnew : c = s.clients.numClients
    · subst hnew
      rw [Function.update_self] at hc
      cases hc
      obtain ⟨hposted, htaken⟩ := h.fresh s.clients.numClients (Nat.le_refl _) prio
      show Queued _ _ (arrivals (s.posted _ prio)) (s.taken _ prio) (s.waiting (fds.fd prio))
      rw [hposted, htaken, h.empty _ (hfresh _ (fd_mem_toList fds prio))]
      exact queued_nil
    · rw [Function.update_of_ne hnew] at hc
      exact h.mail c fds' hc prio

/-- **A client disconnects**: only its queues go. -/
theorem ExchangeInv.close (h : ExchangeInv s) (hstep : exchangeStep s (.close c) = some s') :
    ExchangeInv s' := by
  rw [exchangeStep] at hstep
  obtain ⟨fds, hc, hstep⟩ := Option.bind_eq_some_iff.mp hstep
  obtain ⟨clients, hclose, rfl⟩ := Option.map_eq_some_iff.mp hstep
  obtain ⟨hconns, hnum, hheld, hgen⟩ := clientStep_close h.clients hc hclose
  refine ⟨clientStep_inv h.clients hclose, fun fd hfd => ?_, fun c' hc' => h.fresh c' (hnum ▸ hc'),
    fun c' fds' hc' prio => ?_, fun e => (congrFun hgen e).trans (h.number e)⟩
  · dsimp only at hfd ⊢
    split
    · rfl
    · rename_i hnot
      exact h.empty fd ((hheld fd hfd).resolve_left hnot)
  · change clients.conns c' = some fds' at hc'
    rw [hconns] at hc'
    have hne : c' ≠ c := by
      rintro rfl
      rw [Function.update_self] at hc'
      cases hc'
    rw [Function.update_of_ne hne] at hc'
    have hother : fds'.fd prio ∉ fds.toList := fun hmem =>
      hne (h.clients.conns.disjoint c' c fds' fds _ hc' hc (fd_mem_toList fds' prio) hmem)
    show Queued _ _ _ _ (if fds'.fd prio ∈ fds.toList then [] else s.waiting (fds'.fd prio))
    rw [if_neg hother]
    exact h.mail c' fds' hc' prio

/-- An event that is out of range: nothing is sent. -/
theorem Sender.call_out_of_range (sender : Sender) (s : Disp) {event : Int} (hrow : eventRow event = none)
    (data : Option (List UInt8)) (lock : Bool) (answers : Fin EVENT_DISP_MAX_CON → SendAnswer) :
    (sender.call s event data lock answers).sent = [] ∧ (sender.call s event data lock answers).state = s := by
  rw [Sender.call_eq]
  unfold eventDispApiGenerateEventMode
  rw [hrow]
  split
  · exact ⟨rfl, rfl⟩
  · split <;> exact ⟨rfl, rfl⟩

/-- **An event is generated**: it joins the queues of those that it is posted to. -/
theorem ExchangeInv.generate (h : ExchangeInv s) {sender : Sender} {event : Int} {data : Option (List UInt8)}
    {lock : Bool} {answers : Fin EVENT_DISP_MAX_CON → SendAnswer}
    (hstep : exchangeStep s (.generate sender event data lock answers) = some s') : ExchangeInv s' := by
  rw [exchangeStep] at hstep
  cases hstep
  obtain ⟨hclients, hheld⟩ : ClientsInv { s.clients with
        disp := (sender.call s.clients.disp event data lock answers).state } ∧
      (sender.call s.clients.disp event data lock answers).state.held = s.clients.disp.held := by
    rw [Sender.call_eq]
    exact h.clients.generate ..
  cases hrow : eventRow event with
  | none =>
    have hnone := sender.call_out_of_range s.clients.disp hrow data lock answers
    refine ⟨hclients, fun fd hfd => ?_, fun c hc prio => ?_, fun c fds hc prio => ?_, fun e => ?_⟩
    · show enqueue s.waiting _ fd = []
      rw [hnone.1]
      exact (List.append_nil _).trans (h.empty fd (hheld ▸ hfd))
    · show s.posted c prio ++ newMail _ _ _ _ _ _ c prio = [] ∧ s.taken c prio = []
      unfold newMail
      rw [hrow, List.append_nil]
      exact h.fresh c hc prio
    · show Queued _ _ (arrivals (s.posted c prio ++ newMail _ _ _ _ _ _ c prio)) _ (enqueue s.waiting _ _)
      unfold newMail
      rw [hrow, hnone.1, List.append_nil]
      show Queued _ _ _ _ (s.waiting (fds.fd prio) ++ [])
      rw [List.append_nil]
      exact h.mail c fds hc prio
    · show (sender.call s.clients.disp event data lock answers).state.genCounter e =
        UInt64.ofNat ((s.generated ++ newGenerated event _).count e)
      unfold newGenerated
      rw [hrow, hnone.2]
      simp [h.number e]
  | some e =>
    obtain rfl := eventRow_eq_some.mp hrow
    obtain ⟨-, -, hstate⟩ := generate_spec sender h.clients.init e data lock answers rfl
    have hsub := generate_sublist sender h.clients.init e data lock answers
    refine ⟨hclients, fun fd hfd => ?_, fun c hc prio => ?_, fun c fds hc prio => ?_, fun e' => ?_⟩
    · -- what is sent goes to open descriptors
      have hnot : (sender.call s.clients.disp e.val data lock answers).sent.filter (·.fd = fd) = [] := by
        rw [List.filter_eq_nil_iff]
        intro d hd
        rw [decide_eq_true_eq]
        rintro rfl
        obtain ⟨c, fds, prio, hc, -, heq⟩ :=
          ((h.clients.rows e).mem_used d.fd).mp (mem_datagrams.mp (hsub.subset hd)).1
        refine hfd ?_
        rw [hheld, ← heq]
        exact h.clients.conns.held c fds hc _ (fd_mem_toList fds prio)
      show s.waiting fd ++ _ = []
      rw [hnot, h.empty fd (hheld ▸ hfd)]
      rfl
    · obtain ⟨hposted, htaken⟩ := h.fresh c hc prio
      have hnone : s.clients.conns c = none := h.clients.conns.fresh c hc
      refine ⟨?_, htaken⟩
      show s.posted c prio ++ newMail _ _ _ _ _ _ c prio = []
      unfold newMail
      simp [hrow, hposted, h.clients.closed c hnone e]
    · show Queued _ _ (arrivals (s.posted c prio ++ _)) _ (s.waiting (fds.fd prio) ++ _)
      rw [h.clients.newMail_payload hc, arrivals_append]
      exact (h.mail c fds hc prio).post _
    · show (sender.call s.clients.disp e.val data lock answers).state.genCounter e' =
        UInt64.ofNat ((s.generated ++ newGenerated e.val _).count e')
      unfold newGenerated
      rw [hstate]
      split
      · rw [hrow, Option.toList_some, List.count_append, Disp.count]
        by_cases hsame : e' = e
        · subst hsame
          simp [h.number e']
        · simp [h.number e', hsame, Ne.symm hsame]
      · rw [List.append_nil]
        exact h.number e'

/-- **A client reads** from the head of its queue. -/
theorem ExchangeInv.receive (h : ExchangeInv s) {size : Nat} {recv : Bool}
    {read : Int → Option (List UInt8) → Received}
    (hread : ∀ fd, 0 ≤ fd → ∀ p : Posting,
      p.ReadAs ⟨(read fd (some p.payload)).err, (read fd (some p.payload)).rcvMsg.getD [], size⟩)
    (hstep : receive s c prio size recv read = some s') : ExchangeInv s' := by
  unfold EventDisp.receive at hstep
  obtain ⟨fds, hc, hstep⟩ := Option.bind_eq_some_iff.mp hstep
  have hnonneg := h.clients.nonneg hc _ (fd_mem_toList fds prio)
  split at hstep
  · cases hstep
    exact ⟨h.clients, h.empty, h.fresh, h.mail, h.number⟩
  cases hwaiting : s.waiting (fds.fd prio) with
  | nil =>
    rw [hwaiting] at hstep
    cases hstep
  | cons payload rest =>
    rw [hwaiting] at hstep
    cases hstep
    have hqueue := h.mail c fds hc prio
    rw [hwaiting] at hqueue
    obtain ⟨p, -, rfl, htake⟩ := hqueue.take
    refine ⟨h.clients, fun fd hfd => ?_, fun c' hc' prio' => ?_, fun c' fds' hc' prio' => ?_, h.number⟩
    · have hne : fd ≠ fds.fd prio := by
        rintro rfl
        exact hfd (h.clients.conns.held c fds hc _ (fd_mem_toList fds prio))
      show Function.update s.waiting (fds.fd prio) rest fd = []
      rw [Function.update_of_ne hne]
      exact h.empty fd hfd
    · have hne : c' ≠ c := by
        rintro rfl
        rw [h.clients.conns.fresh c' hc'] at hc
        cases hc
      show s.posted c' prio' = [] ∧ Function.update s.taken c _ c' prio' = []
      rw [Function.update_of_ne hne]
      exact h.fresh c' hc' prio'
    · show Queued _ _ (arrivals (s.posted c' prio')) (Function.update s.taken c _ c' prio')
        (Function.update s.waiting (fds.fd prio) rest (fds'.fd prio'))
      by_cases hcc : c' = c
      · subst hcc
        cases Option.some.inj (hc.symm.trans hc')
        rw [Function.update_self]
        by_cases hpp : prio' = prio
        · subst hpp
          rw [Function.update_self, Function.update_self]
          exact htake _ (hread _ hnonneg p)
        · have hne : fds.fd prio' ≠ fds.fd prio := fun heq =>
            hpp (fd_injective (h.clients.conns.nodup c' fds hc) heq)
          rw [Function.update_of_ne hpp, Function.update_of_ne hne]
          exact h.mail c' fds hc prio'
      · have hne : fds'.fd prio' ≠ fds.fd prio := fun heq => hcc (h.clients.conns.disjoint c' c fds' fds _ hc' hc
          (heq ▸ fd_mem_toList fds' prio') (fd_mem_toList fds prio))
        rw [Function.update_of_ne hcc, Function.update_of_ne hne]
        exact h.mail c' fds' hc' prio'

/-- **Each step keeps the invariant.** -/
theorem exchangeStep_inv {call : ExchangeCall} (h : ExchangeInv s) (hstep : exchangeStep s call = some s') :
    ExchangeInv s' := by
  cases call with
  | «open» high med low => exact h.open hstep
  | register c prio events =>
    rw [exchangeStep] at hstep
    obtain ⟨clients, hregister, rfl⟩ := Option.map_eq_some_iff.mp hstep
    obtain ⟨hconns, hnum, hheld, hgen⟩ := clientStep_register hregister
    exact h.congr_clients (clientStep_inv h.clients hregister) hconns hnum hheld hgen
  | unregister c events =>
    rw [exchangeStep] at hstep
    obtain ⟨clients, hunregister, rfl⟩ := Option.map_eq_some_iff.mp hstep
    obtain ⟨hconns, hnum, hheld, hgen⟩ := clientStep_unregister hunregister
    exact h.congr_clients (clientStep_inv h.clients hunregister) hconns hnum hheld hgen
  | close c => exact h.close hstep
  | generate sender event data lock answers => exact h.generate hstep
  | getEvent c prio rcvMsg recv =>
    rw [exchangeStep] at hstep
    split at hstep
    · rename_i hlen
      refine h.receive (fun fd hfd p => ?_) hstep
      rw [← hlen]
      exact getEvent_readAs p hfd rfl
    · cases hstep
  | getEventToUserBuf c prio rcvMsg rcvSize recv =>
    rw [exchangeStep] at hstep
    split at hstep
    · exact h.receive (fun fd hfd p => getEventToUserBuf_readAs p hfd rfl) hstep
    · cases hstep

/-- **The invariant gives the property.** -/
theorem ExchangeInv.mailboxes (h : ExchangeInv s) : Mailboxes s where
  mail := h.mail
  own sender e data lock answers := by
    have hsub := generate_sublist sender h.clients.init e data lock answers
    refine ⟨(nodup_datagrams (h.clients.rows e).distinct _).sublist (hsub.map Datagram.fd), fun d hd => ?_⟩
    obtain ⟨c, fds, prio, hc, hprio, heq⟩ :=
      ((h.clients.rows e).mem_used d.fd).mp (mem_datagrams.mp (hsub.subset hd)).1
    exact ⟨c, fds, prio, hc, hprio, heq.symm⟩
  reach sender e data lock answers herr c prio hprio := by
    obtain ⟨-, hall, -⟩ := generate_spec sender h.clients.init e data lock answers rfl
    obtain ⟨⟨hposting, hlock⟩, hslots⟩ := hall herr
    obtain ⟨p, hp⟩ := Option.isSome_iff_exists.mp hposting
    cases hc : s.clients.conns c with
    | none =>
      rw [h.clients.closed c hc e] at hprio
      cases hprio
    | some fds =>
      obtain ⟨hne, i, hi⟩ := mem_used.mp ((h.clients.mem_used_iff hc).mpr hprio)
      refine ⟨⟨p, arrivesAt s.clients sender e answers c prio⟩, fds, i, ?_, rfl, hi, ?_⟩
      · unfold newMail
        rw [eventRow_eq_some.mpr rfl]
        dsimp only
        rw [if_pos ⟨hprio, hlock⟩, hp]
        rfl
      · refine (hslots i (hi.trans_ne hne)).imp_left fun harrives => ?_
        show arrivesAt s.clients sender e answers c prio = true
        unfold arrivesAt
        rw [hc, Option.any_some, decide_eq_true_eq]
        exact ⟨i, hi, harrives⟩
  number e n := by
    unfold eventDispApiGetEventGenerationNumber
    rw [if_neg (by rw [h.clients.init]; decide), eventRow_eq_some.mpr rfl]
    dsimp only
    rw [h.number e]

end

theorem exchangeInv_start : ExchangeInv startExchange where
  clients := clientsInv_start
  empty _ _ := rfl
  fresh _ _ _ := ⟨rfl, rfl⟩
  mail _ _ hc := by cases hc
  number _ := rfl

/-! ## All runs -/

/-- **Each client gets its events, in order and once each, but for those that the kernel has not taken**, in every
run of senders and clients. -/
theorem mailboxes_exact (calls : List ExchangeCall) (s : Exchange)
    (hrun : run exchangeStep startExchange calls = some s) : Mailboxes s :=
  (invariant_of_step (fun h hstep => exchangeStep_inv h hstep) calls exchangeInv_start hrun).mailboxes

/-- Two clients; the queue of the first is full when an event is sent to both, and the next event ends at it. -/
def twoClients : List ExchangeCall :=
  [.open 5 6 7, .open 8 9 10, .register 0 .high [3], .register 1 .low [3, 4],
    .generate .generateEvent 3 (some [1, 2]) true fun i => if i.val = 0 then ⟨true, true, .again, true⟩ else sendOk,
    .generate .generateEvent 4 none true fun _ => sendOk,
    .generate .generateEventNoCopy 3 (some [7, 7, 8]) true fun i =>
      if i.val = 0 then ⟨true, true, .sent, false⟩ else sendOk,
    .getEventToUserBuf 1 .low [9, 9, 9, 9, 9, 9, 9, 9] 8 true]

theorem mailboxes_exact_two : ∃ s, run exchangeStep startExchange twoClients = some s ∧
    ((s.posted 0 .high).map Mail.arrives, (s.posted 1 .low).map Mail.arrives) = ([false, true], [true, true, false]) ∧
    (s.taken 1 .low, s.waiting 10, s.waiting 5) =
      ([⟨.success, [3, 0, 0, 0, 1, 2, 9, 9], 8⟩], [[4, 0, 0, 0]], [[3, 0, 8]]) ∧ Mailboxes s := by
  have hrun : (run exchangeStep startExchange twoClients).map (fun s =>
        (((s.posted 0 .high).map Mail.arrives, (s.posted 1 .low).map Mail.arrives),
          (s.taken 1 .low, s.waiting 10, s.waiting 5))) =
      some (([false, true], [true, true, false]),
        ([⟨.success, [3, 0, 0, 0, 1, 2, 9, 9], 8⟩], [[4, 0, 0, 0]], [[3, 0, 8]])) := by
    decide +kernel
  obtain ⟨s, hs, hrecords⟩ := Option.map_eq_some_iff.mp hrun
  obtain ⟨hposted, htaken⟩ := Prod.mk.injEq .. ▸ hrecords
  exact ⟨s, hs, hposted, htaken, mailboxes_exact twoClients s hs⟩

end MlnxLib.EventDisp
