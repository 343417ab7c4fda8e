import MlnxLib.EventDisp.Registrations

/-!
# Receiving events

Model of the three calls of `lib_event_disp.c` that generate an event, and of `event_disp_api_get_event`.
The two calls that copy send `event_disp_msg_t`: the event in four bytes, then the data.  The call without a
copy writes the event as two bytes over the start of the data and sends that, or two bytes alone when there
is no data.  The receiver reads `event_disp_msg_t` in all cases.

* `Sender` — the three calls.
* `eventDispApiGetEvent` — a datagram is written over the start of the buffer of the receiver.
* `Delivered` — what the receiver has to find; `Readable` — when it does.

Principal results: `delivered_copy` — an event that is sent with a copy is delivered;
`delivered_iff_readable` — the three calls, with the exact condition for the one without a copy.
-/

set_option autoImplicit false

namespace MlnxLib.EventDisp

open Bytes

/-! ## Generating -/

/-- `event_disp_api_generate_event`. -/
def eventDispApiGenerateEvent (s : Disp) (event : Int) (data : Option (List UInt8)) (dataSize : Nat)
    (lock : Bool) (answers : Fin EVENT_DISP_MAX_CON → SendAnswer) : Generated :=
  eventDispApiGenerateEventMode s event data dataSize .nonBlocking false lock answers

/-- `event_disp_api_generate_event_blocking`. -/
def eventDispApiGenerateEventBlocking (s : Disp) (event : Int) (data : Option (List UInt8))
    (dataSize : Nat) (lock : Bool) (answers : Fin EVENT_DISP_MAX_CON → SendAnswer) : Generated :=
  eventDispApiGenerateEventMode s event data dataSize .blocking false lock answers

/-- `event_disp_api_generate_event_no_copy`. -/
def eventDispApiGenerateEventNoCopy (s : Disp) (event : Int) (data : Option (List UInt8))
    (dataSize : Nat) (lock : Bool) (answers : Fin EVENT_DISP_MAX_CON → SendAnswer) : Generated :=
  eventDispApiGenerateEventMode s event data dataSize .nonBlocking true lock answers

/-- The calls that generate an event. -/
inductive Sender where
  | generateEvent
  | generateEventBlocking
  | generateEventNoCopy
  deriving DecidableEq, Repr

/-- The call, with the data and its size. -/
def Sender.call (sender : Sender) (s : Disp) (event : Int) (data : Option (List UInt8)) (lock : Bool)
    (answers : Fin EVENT_DISP_MAX_CON → SendAnswer) : Generated :=
  match sender with
  | .generateEvent => eventDispApiGenerateEvent s event data (data.getD []).length lock answers
  | .generateEventBlocking =>
    eventDispApiGenerateEventBlocking s event data (data.getD []).length lock answers
  | .generateEventNoCopy =>
    eventDispApiGenerateEventNoCopy s event data (data.getD []).length lock answers

def Sender.noCopy : Sender → Bool
  | .generateEventNoCopy => true
  | _ => false

def Sender.mode : Sender → SendMode
  | .generateEventBlocking => .blocking
  | _ => .nonBlocking

theorem Sender.call_eq (sender : Sender) (s : Disp) (event : Int) (data : Option (List UInt8))
    (lock : Bool) (answers : Fin EVENT_DISP_MAX_CON → SendAnswer) :
    sender.call s event data lock answers = eventDispApiGenerateEventMode s event data
      (data.getD []).length sender.mode sender.noCopy lock answers := by
  cases sender <;> rfl

/-! ## Receiving -/

/-- `sizeof(event_disp_msg_t)`. -/
def EVENT_DISP_MAX_MSG_LEN : Nat := 4 + EVENT_DISP_MAX_BUFF_LEN

/-- The field `event` of a message, an `int`. -/
def msgEvent (msg : List UInt8) : Int := (wordAt msg 0).toInt32.toInt

/-- The field `buff` of a message. -/
def msgBuff (msg : List UInt8) : List UInt8 := msg.drop 4

/-- The counters of received events. -/
structure RcvCounters where
  rcvCounter : Fin EVENT_DISP_MAX_EVENTS → UInt64
  totalRcvCounter : UInt64

/-- What `event_disp_api_get_event` leaves. -/
structure Received where
  err : EventDispStatus
  rcvMsg : Option (List UInt8)
  counters : RcvCounters

/-- `event_disp_api_get_event`; `datagram` is what `recv` takes from the socket, if it succeeds. -/
def eventDispApiGetEvent (c : RcvCounters) (fd : Int) (rcvMsg datagram : Option (List UInt8)) : Received :=
  match rcvMsg with
  | none => ⟨.paramNull, none, c⟩
  | some msg =>
    if fd < 0 then ⟨.paramInvalid, some msg, c⟩ else
    match datagram with
    | none => ⟨.socketError, some msg, c⟩
    | some payload =>
      -- what does not fit is cut off
      let msg := writeAt msg 0 (payload.take msg.length)
      match eventRow (msgEvent msg) with
      | none => ⟨.paramRange, some msg, c⟩
      | some e => ⟨.success, some msg, {
          rcvCounter := Function.update c.rcvCounter e (c.rcvCounter e + 1)
          totalRcvCounter := c.totalRcvCounter + 1 }⟩

/-- The receiver has the event and the data. -/
structure Delivered (r : Received) (event : Int) (data : List UInt8) : Prop where
  err : r.err = .success
  msg : ∃ msg, r.rcvMsg = some msg ∧ msgEvent msg = event ∧ (msgBuff msg).take data.length = data

/-- A word below the sign bit is its own value. -/
theorem toInt_eq_iff (b : BitVec 32) {n : Nat} (hn : n < 2 ^ 31) : b.toInt = n ↔ b.toNat = n := by
  have hb := b.isLt
  rw [BitVec.toInt_eq_toNat_cond]
  split <;> omega

theorem msgEvent_eq_iff {msg : List UInt8} {e : Fin EVENT_DISP_MAX_EVENTS} : msgEvent msg = e.val ↔
    msg.getD 0 0 = UInt8.ofNat e ∧ msg.getD 1 0 = 0 ∧ msg.getD 2 0 = 0 ∧ msg.getD 3 0 = 0 := by
  have he : e.val < 100 := e.isLt
  have h0 := (msg.getD 0 0).toNat_lt
  have h1 := (msg.getD 1 0).toNat_lt
  have h2 := (msg.getD 2 0).toNat_lt
  have h3 := (msg.getD 3 0).toNat_lt
  have hword : (wordAt msg 0).toNat = (msg.getD 3 0).toNat * 2 ^ 24 + (msg.getD 2 0).toNat * 2 ^ 16 +
      (msg.getD 1 0).toNat * 2 ^ 8 + (msg.getD 0 0).toNat := by
    unfold wordAt
    rw [ofNet32_toNat]
  have hof : (UInt8.ofNat e.val).toNat = e.val := UInt8.toNat_ofNat_of_lt' (by unfold UInt8.size; omega)
  have hint : msgEvent msg = e.val ↔ (wordAt msg 0).toNat = e.val := toInt_eq_iff _ (by omega)
  rw [hint, hword]
  simp only [← UInt8.toNat_inj, hof, UInt8.toNat_zero]
  omega

/-- The bytes of an event. -/
theorem le32_event (e : Fin EVENT_DISP_MAX_EVENTS) :
    le32 (UInt32.ofNat e) = [UInt8.ofNat e, 0, 0, 0] := by
  revert e
  decide

/-- **The receiver decodes the buffer with the datagram over its start.** -/
theorem delivered_iff {c : RcvCounters} {fd : Nat} {prev payload data : List UInt8}
    {e : Fin EVENT_DISP_MAX_EVENTS} (hlen : payload.length ≤ prev.length) :
    Delivered (eventDispApiGetEvent c fd (some prev) (some payload)) e.val data ↔
      msgEvent (payload ++ prev.drop payload.length) = e.val ∧
      (msgBuff (payload ++ prev.drop payload.length)).take data.length = data := by
  have hwrite : writeAt prev 0 (payload.take prev.length) = payload ++ prev.drop payload.length := by
    unfold writeAt
    rw [List.take_of_length_le hlen, List.take_zero, List.nil_append, Nat.zero_add]
  have hget : eventDispApiGetEvent c fd (some prev) (some payload) =
      match eventRow (msgEvent (payload ++ prev.drop payload.length)) with
      | none => ⟨.paramRange, some (payload ++ prev.drop payload.length), c⟩
      | some e => ⟨.success, some (payload ++ prev.drop payload.length), {
          rcvCounter := Function.update c.rcvCounter e (c.rcvCounter e + 1)
          totalRcvCounter := c.totalRcvCounter + 1 }⟩ := by
    rw [← hwrite]
    rfl
  rw [hget]
  constructor
  · rintro ⟨-, msg, hmsg, hevent, hbuff⟩
    have heq : payload ++ prev.drop payload.length = msg := by
      revert hmsg
      cases eventRow (msgEvent (payload ++ prev.drop payload.length)) <;> exact Option.some.inj
    rw [heq]
    exact ⟨hevent, hbuff⟩
  · rintro ⟨hevent, hbuff⟩
    rw [eventRow_eq_some.mpr hevent]
    exact ⟨rfl, _, rfl, hevent, hbuff⟩

/-! ## What is sent -/

/-- Nothing but the message is sent. -/
theorem payload_of_turns (row : Fin EVENT_DISP_MAX_CON → Int) (message : List UInt8) (mode : SendMode)
    (answers : Fin EVENT_DISP_MAX_CON → SendAnswer) : ∀ (slots : List (Fin EVENT_DISP_MAX_CON)) (r : Sending),
      (∀ d ∈ r.sent, d.payload = message) →
      ∀ d ∈ (slots.foldl (sendTurn row message mode answers) r).sent, d.payload = message
  | [], _, h => h
  | slot :: slots, r, h => by
    refine payload_of_turns row message mode answers slots _ ?_
    intro d hd
    unfold sendTurn at hd
    split at hd
    · exact h d hd
    · split at hd
      · exact h d hd
      · split at hd
        · exact h d hd
        · split at hd
          · exact h d hd
          · dsimp only at hd
            split at hd
            · exact h d hd
            · split at hd
              · rcases List.mem_append.mp hd with hd | hd
                · exact h d hd
                · rw [List.mem_singleton.mp hd]
              · exact h d hd
              · exact h d hd

/-- **A datagram is the message of the event**, and the event is in range. -/
theorem payload_of_sent {s : Disp} {event : Int} {data : Option (List UInt8)} {dataSize : Nat}
    {mode : SendMode} {noCopy lock : Bool} {answers : Fin EVENT_DISP_MAX_CON → SendAnswer} {d : Datagram}
    (hd : d ∈ (eventDispApiGenerateEventMode s event data dataSize mode noCopy lock answers).sent) :
    ∃ e : Fin EVENT_DISP_MAX_EVENTS, event = e.val ∧ d.payload = eventMessage e data dataSize noCopy := by
  unfold eventDispApiGenerateEventMode at hd
  split at hd
  · cases hd
  split at hd
  · cases hd
  cases hrow : eventRow event with
  | none =>
    rw [hrow] at hd
    cases hd
  | some e =>
    refine ⟨e, eventRow_eq_some.mp hrow, ?_⟩
    have hturns := payload_of_turns (s.db e) (eventMessage e data dataSize noCopy) mode answers
      (List.finRange EVENT_DISP_MAX_CON) ⟨.success, .success, [], none⟩ (fun d hd => by cases hd) d
    rw [hrow] at hd
    dsimp only at hd
    generalize (List.finRange EVENT_DISP_MAX_CON).foldl _ _ = r at hd hturns
    split at hd
    · cases hd
    split at hd
    · exact hturns hd
    · exact hturns hd

/-! ## The message behind the event -/

/-- **An event that is sent with a copy is delivered**, whatever the receiver had in its buffer. -/
theorem delivered_copy {c : RcvCounters} {fd : Nat} {prev : List UInt8} {data : Option (List UInt8)}
    {e : Fin EVENT_DISP_MAX_EVENTS} (hprev : prev.length = EVENT_DISP_MAX_MSG_LEN)
    (hdata : (data.getD []).length ≤ EVENT_DISP_MAX_BUFF_LEN) :
    Delivered (eventDispApiGetEvent c fd (some prev)
      (some (eventMessage e data (data.getD []).length false))) e.val (data.getD []) := by
  have hmsg : eventMessage e data (data.getD []).length false =
      [UInt8.ofNat e, 0, 0, 0] ++ data.getD [] := by
    rw [← le32_event]
    cases data with
    | none => rfl
    | some data => simp [eventMessage]
  rw [hmsg, delivered_iff]
  · refine ⟨msgEvent_eq_iff.mpr ⟨rfl, rfl, rfl, rfl⟩, ?_⟩
    unfold msgBuff
    rw [List.append_assoc]
    exact List.take_left
  · rw [hprev, List.length_append]
    unfold EVENT_DISP_MAX_MSG_LEN
    exact Nat.add_le_add_left hdata 4

/-- The buffer of the receiver with the data over its start. -/
def behindData (prev data : List UInt8) : List UInt8 := data ++ prev.drop data.length

/-- **A datagram that is sent without a copy** is over the buffer of the receiver what the data would be there,
but for the event in its first two bytes. -/
theorem noCopy_behind {prev : List UInt8} (data : Option (List UInt8)) (e : Fin EVENT_DISP_MAX_EVENTS)
    (hprev : 2 ≤ prev.length) :
    ∃ b, eventMessage e data (data.getD []).length true ++
        prev.drop (eventMessage e data (data.getD []).length true).length =
      UInt8.ofNat e :: b :: (behindData prev (data.getD [])).drop 2 ∧
      (b = 0 ↔ ((data.getD []).length = 1 → prev.getD 1 0 = 0)) := by
  have hbare : ∀ data : Option (List UInt8), data.getD [] = [] →
      eventMessage e data (data.getD []).length true = [UInt8.ofNat e, 0] := by
    rintro (_ | data) hnil
    · simp [eventMessage, le32_event]
    · simp only [Option.getD_some] at hnil
      simp [eventMessage, le32_event, hnil]
  have hmessage : ∀ b bs, eventMessage e (some (b :: bs)) (b :: bs).length true =
      (UInt8.ofNat e :: 0 :: (b :: bs).drop 2).take (b :: bs).length := by
    intro b bs
    simp [eventMessage, le32_event]
  obtain ⟨p₀, p₁, rest, rfl⟩ : ∃ p₀ p₁ rest, prev = p₀ :: p₁ :: rest := by
    cases prev with
    | nil => cases hprev
    | cons p₀ prev =>
      cases prev with
      | nil => simp at hprev
      | cons p₁ rest => exact ⟨p₀, p₁, rest, rfl⟩
  unfold behindData
  cases hdata : data.getD [] with
  | nil =>
    rw [← hdata, hbare data hdata, hdata]
    exact ⟨0, rfl, by simp⟩
  | cons b bs =>
    have hsome : data = some (b :: bs) := by
      cases data with
      | none => cases hdata
      | some data => exact congrArg some hdata
    rw [hsome, hmessage]
    cases bs with
    | nil => exact ⟨p₁, rfl, by simp⟩
    | cons b' bs => exact ⟨0, by simp, by simp⟩

theorem length_eventMessage_le {prev : List UInt8} {data : Option (List UInt8)}
    {e : Fin EVENT_DISP_MAX_EVENTS} (hprev : prev.length = EVENT_DISP_MAX_MSG_LEN)
    (hdata : (data.getD []).length ≤ EVENT_DISP_MAX_BUFF_LEN) :
    (eventMessage e data (data.getD []).length true).length ≤ prev.length := by
  unfold EVENT_DISP_MAX_MSG_LEN at hprev
  unfold EVENT_DISP_MAX_BUFF_LEN at hprev hdata
  cases data with
  | none => simp [eventMessage, le32_event, hprev]
  | some data =>
    simp only [eventMessage, le32_event, Option.getD_some] at hdata ⊢
    split
    · simp [hprev]
    · rw [List.length_take]
      omega

/-- What the data and the buffer of the receiver have to be for the receiver to find the event and the data.
Without a copy, the two upper bytes of the event and the data have to be there already. -/
def Readable (sender : Sender) (prev data : List UInt8) : Prop :=
  sender = .generateEventNoCopy →
    (data.length = 1 → prev.getD 1 0 = 0) ∧
    (behindData prev data).getD 2 0 = 0 ∧ (behindData prev data).getD 3 0 = 0 ∧
    ((behindData prev data).drop 4).take data.length = data

/-- **An event that is sent without a copy is delivered exactly when it is readable.** -/
theorem delivered_noCopy_iff {c : RcvCounters} {fd : Nat} {prev : List UInt8} (data : Option (List UInt8))
    (e : Fin EVENT_DISP_MAX_EVENTS) (hprev : prev.length = EVENT_DISP_MAX_MSG_LEN)
    (hdata : (data.getD []).length ≤ EVENT_DISP_MAX_BUFF_LEN) :
    Delivered (eventDispApiGetEvent c fd (some prev)
        (some (eventMessage e data (data.getD []).length true))) e.val (data.getD []) ↔
      Readable .generateEventNoCopy prev (data.getD []) := by
  have hlen : 2 ≤ prev.length := by rw [hprev]; decide
  obtain ⟨b, hmsg, hb⟩ := noCopy_behind data e hlen
  have hbyte : ∀ i, ((behindData prev (data.getD [])).drop 2).getD i 0 =
      (behindData prev (data.getD [])).getD (2 + i) 0 := by
    intro i
    rw [List.getD_eq_getElem?_getD, List.getD_eq_getElem?_getD, List.getElem?_drop]
  rw [delivered_iff (length_eventMessage_le hprev hdata), hmsg, msgEvent_eq_iff]
  simp only [msgBuff, List.getD_cons_zero, List.getD_cons_succ, List.drop_succ_cons, List.drop_drop, hbyte]
  unfold Readable
  rw [← hb]
  simp only [forall_const, true_and, and_assoc]

/-- **The three calls deliver their events exactly when what they send is readable.** -/
theorem delivered_iff_readable (sender : Sender) (s : Disp) (event : Int) (data : Option (List UInt8))
    (lock : Bool) (answers : Fin EVENT_DISP_MAX_CON → SendAnswer) (c : RcvCounters) (fd : Nat)
    (prev payload : List UInt8) (hdata : (data.getD []).length ≤ EVENT_DISP_MAX_BUFF_LEN)
    (hprev : prev.length = EVENT_DISP_MAX_MSG_LEN)
    (hsent : ⟨fd, payload⟩ ∈ (sender.call s event data lock answers).sent) :
    Delivered (eventDispApiGetEvent c fd (some prev) (some payload)) event (data.getD []) ↔
      Readable sender prev (data.getD []) := by
  rw [Sender.call_eq] at hsent
  obtain ⟨e, rfl, hpayload⟩ := payload_of_sent hsent
  dsimp only at hpayload
  subst hpayload
  cases sender with
  | generateEvent => exact iff_of_true (delivered_copy hprev hdata) (fun h => by cases h)
  | generateEventBlocking => exact iff_of_true (delivered_copy hprev hdata) (fun h => by cases h)
  | generateEventNoCopy => exact delivered_noCopy_iff data e hprev hdata

/-- The library with one connection, whose descriptor 5 is registered for event 3. -/
def oneClient : Disp :=
  ((eventDispApiOpen (eventDispApiInit bootDisp true).2 (some .reset) (openOk 4 5 6)).map fun r =>
    (eventDispApiRegisterEvents r.state r.fds 2 (some [3]) lockOk lockOk).2).getD bootDisp

def noneReceived : RcvCounters := ⟨fun _ => 0, 0⟩

/-- Eight bytes of data, sent without a copy. -/
theorem delivered_iff_readable_eight :
    ⟨5, [3, 0, 3, 4, 5, 6, 7, 8]⟩ ∈
      (Sender.generateEventNoCopy.call oneClient 3 (some [1, 2, 3, 4, 5, 6, 7, 8]) true fun _ => sendOk).sent ∧
    (Delivered (eventDispApiGetEvent noneReceived (5 : Nat) (some (List.replicate EVENT_DISP_MAX_MSG_LEN 0))
        (some [3, 0, 3, 4, 5, 6, 7, 8])) 3 [1, 2, 3, 4, 5, 6, 7, 8] ↔
      Readable .generateEventNoCopy (List.replicate EVENT_DISP_MAX_MSG_LEN 0) [1, 2, 3, 4, 5, 6, 7, 8]) := by
  have hsent : ⟨(5 : Nat), [3, 0, 3, 4, 5, 6, 7, 8]⟩ ∈ (Sender.generateEventNoCopy.call oneClient 3
      (some [1, 2, 3, 4, 5, 6, 7, 8]) true fun _ => sendOk).sent := by
    decide +kernel
  exact ⟨hsent, delivered_iff_readable .generateEventNoCopy oneClient 3 (some [1, 2, 3, 4, 5, 6, 7, 8]) true
    (fun _ => sendOk) noneReceived 5 _ _ (by decide) List.length_replicate hsent⟩

/-- **The data can be read as a part of the event**: the receiver finds event 67305475 and gives it back as out
of range. -/
theorem noCopy_not_delivered :
    ¬ ∀ (sender : Sender) (s : Disp) (event : Int) (data : Option (List UInt8)) (lock : Bool)
      (answers : Fin EVENT_DISP_MAX_CON → SendAnswer) (c : RcvCounters) (fd : Nat) (prev payload : List UInt8),
      (data.getD []).length ≤ EVENT_DISP_MAX_BUFF_LEN → prev.length = EVENT_DISP_MAX_MSG_LEN →
      ⟨fd, payload⟩ ∈ (sender.call s event data lock answers).sent →
      Delivered (eventDispApiGetEvent c fd (some prev) (some payload)) event (data.getD []) := by
  intro h
  have hdelivered := h .generateEventNoCopy oneClient 3 (some [1, 2, 3, 4, 5, 6, 7, 8]) true (fun _ => sendOk)
    noneReceived 5 (List.replicate EVENT_DISP_MAX_MSG_LEN 0) [3, 0, 3, 4, 5, 6, 7, 8] (by decide)
    List.length_replicate (by decide +kernel)
  have hmessage : eventMessage ⟨3, by decide⟩ (some [1, 2, 3, 4, 5, 6, 7, 8])
      ((some [1, 2, 3, 4, 5, 6, 7, 8]).getD ([] : List UInt8)).length true = [3, 0, 3, 4, 5, 6, 7, 8] := by
    decide
  rw [← hmessage] at hdelivered
  obtain ⟨-, hbyte, -⟩ := (delivered_noCopy_iff (some [1, 2, 3, 4, 5, 6, 7, 8]) ⟨3, by decide⟩
    List.length_replicate (by decide)).mp hdelivered rfl
  revert hbyte
  decide

end MlnxLib.EventDisp
