import Mathlib.Data.List.FinRange
import MlnxLib.EventDisp.SocketTable
import MlnxLib.Lib.Bytes

/-!
# Registrations and events

Model of `event_disp_api_register_events`, `event_disp_api_unregister_events` and
`event_disp_api_generate_event_mode` of `lib_event_disp.c`.  A row of `event_disp_db` has a slot for each
connection; a client puts the descriptor of its priority into the first free slot of the row of an event.

* `updateRow` — a turn of a loop over the events of a list; `unregisterEvent`, `registerEvent` — the two loops.
* `sendTurn` — a turn of the loop over the slots of a row, with the socket of the turn before.
* `Datagram` — what is sent, and the descriptor in the file name that it is sent to.

A list of events is given with its number.  Integers are little endian.

Principal results: `updateRows_iterate` — what the loops do to each row;
`sendEvents_ok` — what is sent when no call of the kernel fails.
-/

set_option autoImplicit false

namespace MlnxLib.EventDisp

open Bytes SlotTable

/-! ## Priorities and events -/

/-- `event_disp_priority_t`. -/
inductive EventDispPriority where
  | high
  | med
  | low
  deriving DecidableEq, Repr

/-- The value of a priority. -/
def EventDispPriority.toInt : EventDispPriority → Int
  | .high => 1
  | .med => 2
  | .low => 3

/-- The descriptor of a priority. -/
def EventDispFds.fd (fds : EventDispFds) : EventDispPriority → Int
  | .high => fds.highFd
  | .med => fds.medFd
  | .low => fds.lowFd

/-- The descriptor that `event_disp_api_register_events` takes for a priority. -/
def fdOfPrio (fds : EventDispFds) (prio : Int) : Option Int :=
  if prio = 1 then some fds.highFd
  else if prio = 2 then some fds.medFd
  else if prio = 3 then some fds.lowFd
  else none

/-- The row of an event, if it is in range. -/
def eventRow (event : Int) : Option (Fin EVENT_DISP_MAX_EVENTS) :=
  if h : event < EVENT_DISP_MAX_EVENTS ∧ 0 ≤ event then some ⟨event.toNat, by omega⟩ else none

theorem fdOfPrio_toInt (fds : EventDispFds) (prio : EventDispPriority) :
    fdOfPrio fds prio.toInt = some (fds.fd prio) := by
  cases prio <;> rfl

theorem fd_mem_toList (fds : EventDispFds) (prio : EventDispPriority) : fds.fd prio ∈ fds.toList := by
  cases prio <;> simp [EventDispFds.fd, EventDispFds.toList]

/-- A connection with three descriptors has one for each priority. -/
theorem fd_injective {fds : EventDispFds} (h : fds.toList.Nodup) {p q : EventDispPriority}
    (hpq : fds.fd p = fds.fd q) : p = q := by
  simp only [EventDispFds.toList, List.nodup_cons, List.mem_cons, List.not_mem_nil, or_false, not_or,
    not_false_eq_true, List.nodup_nil, and_true] at h
  obtain ⟨⟨hhm, hhl⟩, hml⟩ := h
  cases p <;> cases q <;> simp_all [EventDispFds.fd, eq_comm]

theorem eventRow_eq_some {event : Int} {e : Fin EVENT_DISP_MAX_EVENTS} :
    eventRow event = some e ↔ event = e.val := by
  unfold eventRow
  constructor
  · intro h
    split at h
    · rename_i hrange
      cases h
      exact (Int.toNat_of_nonneg hrange.2).symm
    · cases h
  · rintro rfl
    have hlt := e.isLt
    rw [dif_pos ⟨by omega, by omega⟩]
    rfl

/-! ## Registering and unregistering -/

/-- The table of registrations. -/
abbrev Db := Fin EVENT_DISP_MAX_EVENTS → Fin EVENT_DISP_MAX_CON → Int

/-- What the kernel answers in a call that takes the mutex. -/
structure LockAnswers where
  lock : Bool
  unlock : Bool
  deriving DecidableEq, Repr

def lockOk : LockAnswers := ⟨true, true⟩

/-- A turn of a loop over events: the row of an event in range is updated. -/
def updateRow (f : (Fin EVENT_DISP_MAX_CON → Int) → Fin EVENT_DISP_MAX_CON → Int) (db : Db) (event : Int) : Db :=
  match eventRow event with
  | none => db
  | some e => Function.update db e (f (db e))

/-- An event of the list in `event_disp_api_unregister_events`. -/
def unregisterEvent (fds : EventDispFds) : Db → Int → Db := updateRow fun row => dropWhere (-1) row fds.toList

/-- An event of the list in `event_disp_api_register_events`. -/
def registerEvent (fd : Int) : Db → Int → Db := updateRow fun row => put (-1) row fd

/-- The number of events is checked. -/
def EventsRange (events : List Int) : Prop := events.length = 0 ∨ EVENT_DISP_MAX_EVENTS < events.length

instance (events : List Int) : Decidable (EventsRange events) := inferInstanceAs (Decidable (_ ∨ _))

/-- `event_disp_api_unregister_events`. -/
def eventDispApiUnregisterEvents (s : Disp) (fds : Option EventDispFds) (events : Option (List Int))
    (answers : LockAnswers) : EventDispStatus × Disp :=
  if s.init = false then (.notInit, s) else
  match fds, events with
  | none, _ => (.paramNull, s)
  | some _, none => (.paramNull, s)
  | some fds, some events =>
    if EventsRange events then (.paramRange, s)
    else if answers.lock = false then (.mutexError, s)
    else (if answers.unlock then .success else .mutexError,
      { s with db := events.foldl (unregisterEvent fds) s.db })

/-- `event_disp_api_register_events`; the first answers are those of the unregistration. -/
def eventDispApiRegisterEvents (s : Disp) (fds : Option EventDispFds) (prio : Int)
    (events : Option (List Int)) (unregister answers : LockAnswers) : EventDispStatus × Disp :=
  if s.init = false then (.notInit, s) else
  match fds, events with
  | none, _ => (.paramNull, s)
  | some _, none => (.paramNull, s)
  | some fds, some events =>
    if EventsRange events then (.paramRange, s) else
    let r := eventDispApiUnregisterEvents s (some fds) (some events) unregister
    if r.1 ≠ .success then r else
    match fdOfPrio fds prio with
    | none => (.paramInvalid, r.2)
    | some fd =>
      if fd < 0 then (.paramInvalid, r.2)
      else if answers.lock = false then (.mutexError, r.2)
      else (if answers.unlock then .success else .mutexError,
        { r.2 with db := events.foldl (registerEvent fd) r.2.db })

theorem dropWhere_dropWhere {n : Nat} (row : Fin n → Int) (l : List Int) :
    dropWhere (-1) (dropWhere (-1) row l) l = dropWhere (-1) row l := by
  funext i
  unfold dropWhere
  split
  · split <;> rfl
  · rfl

section

variable {f : (Fin EVENT_DISP_MAX_CON → Int) → Fin EVENT_DISP_MAX_CON → Int}

theorem updateRow_self {event : Int} {e : Fin EVENT_DISP_MAX_EVENTS} (db : Db) (he : event = e.val) :
    updateRow f db event e = f (db e) := by
  unfold updateRow
  rw [eventRow_eq_some.mpr he]
  exact Function.update_self ..

theorem updateRow_of_ne {event : Int} {e : Fin EVENT_DISP_MAX_EVENTS} (db : Db) (he : event ≠ e.val) :
    updateRow f db event e = db e := by
  unfold updateRow
  cases hrow : eventRow event with
  | none => rfl
  | some e' =>
    refine Function.update_of_ne ?_ ..
    rintro rfl
    exact he (eventRow_eq_some.mp hrow)

/-- **A loop over events updates each row as often as the list says.** -/
theorem updateRows_iterate (e : Fin EVENT_DISP_MAX_EVENTS) : ∀ (events : List Int) (db : Db),
    events.foldl (updateRow f) db e = f^[events.count (e.val : Int)] (db e)
  | [], _ => rfl
  | event :: events, db => by
    rw [List.foldl_cons, updateRows_iterate e events]
    by_cases he : event = e.val
    · rw [updateRow_self db he, he, List.count_cons_self, Function.iterate_succ_apply]
    · rw [updateRow_of_ne db he, List.count_cons_of_ne he]

/-- The rows of the list are updated, if each is there once or once is as good as twice. -/
theorem updateRows_apply (e : Fin EVENT_DISP_MAX_EVENTS) (events : List Int) (db : Db)
    (h : events.Nodup ∨ ∀ row, f (f row) = f row) :
    events.foldl (updateRow f) db e = if (e.val : Int) ∈ events then f (db e) else db e := by
  rw [updateRows_iterate]
  split
  · rename_i hmem
    obtain ⟨m, hm⟩ : ∃ m, events.count (e.val : Int) = m + 1 :=
      Nat.exists_eq_succ_of_ne_zero (List.count_pos_iff.mpr hmem).ne'
    rw [hm]
    rcases h with hnodup | hidem
    · have hone := List.nodup_iff_count_le_one.mp hnodup (e.val : Int)
      obtain rfl : m = 0 := by omega
      rfl
    · rw [Function.iterate_succ_apply]
      exact Function.iterate_fixed (hidem (db e)) m
  · rename_i hmem
    rw [List.count_eq_zero_of_not_mem hmem]
    rfl

end

/-- The loop of `event_disp_api_unregister_events`. -/
theorem unregisterEvents_apply (fds : EventDispFds) (events : List Int) (db : Db)
    (e : Fin EVENT_DISP_MAX_EVENTS) : events.foldl (unregisterEvent fds) db e =
      if (e.val : Int) ∈ events then dropWhere (-1) (db e) fds.toList else db e :=
  updateRows_apply e events db (Or.inr fun row => dropWhere_dropWhere row fds.toList)

/-- The loop of `event_disp_api_register_events`. -/
theorem registerEvents_apply (fd : Int) {events : List Int} (hnodup : events.Nodup) (db : Db)
    (e : Fin EVENT_DISP_MAX_EVENTS) : events.foldl (registerEvent fd) db e =
      if (e.val : Int) ∈ events then put (-1) (db e) fd else db e :=
  updateRows_apply e events db (Or.inl hnodup)

/-! ## Generating an event -/

/-- `EVENT_SEND_BLOCKING_MODE` and `EVENT_SEND_NON_BLOCKING_MODE`. -/
inductive SendMode where
  | blocking
  | nonBlocking
  deriving DecidableEq, Repr

/-- What `sendto` answers; `again` is `EAGAIN` or `EWOULDBLOCK`. -/
inductive SendtoAnswer where
  | sent
  | again
  | failed
  deriving DecidableEq, Repr

/-- What the kernel answers for a slot, with the close of its socket in the next turn. -/
structure SendAnswer where
  socket : Bool
  fcntl : Bool
  sendto : SendtoAnswer
  close : Bool
  deriving DecidableEq, Repr

def sendOk : SendAnswer := ⟨true, true, .sent, true⟩

/-- A datagram, with the descriptor in the name of the socket that it is sent to. -/
structure Datagram where
  fd : Int
  payload : List UInt8
  deriving DecidableEq, Repr

def EVENT_DISP_MAX_BUFF_LEN : Nat := 1500

/-- What is sent for an event: `event_disp_msg_t`, or the data of the caller with the event in its first two
bytes. -/
def eventMessage (event : Fin EVENT_DISP_MAX_EVENTS) (data : Option (List UInt8)) (dataSize : Nat)
    (noCopy : Bool) : List UInt8 :=
  let opcode := (le32 (UInt32.ofNat event)).take 2
  match noCopy, data with
  | false, none => le32 (UInt32.ofNat event) ++ List.replicate dataSize 0
  | false, some data => le32 (UInt32.ofNat event) ++ data.take dataSize
  | true, none => opcode
  | true, some data => if dataSize = 0 then opcode else (opcode ++ data.drop 2).take dataSize

/-- The loop over the slots: its errors, what is sent, and what `close` answers for the socket that is open. -/
structure Sending where
  err : EventDispStatus
  sendErr : EventDispStatus
  sent : List Datagram
  lastClose : Option Bool
  deriving DecidableEq, Repr

/-- A slot in `event_disp_api_generate_event_mode`; nothing happens after a `goto bail`. -/
def sendTurn (row : Fin EVENT_DISP_MAX_CON → Int) (message : List UInt8) (mode : SendMode)
    (answers : Fin EVENT_DISP_MAX_CON → SendAnswer) (r : Sending) (conId : Fin EVENT_DISP_MAX_CON) : Sending :=
  if r.err ≠ .success then r
  else if r.lastClose = some false then { r with err := .socketError }
  else if row conId = -1 then { r with lastClose := none }
  else if (answers conId).socket = false then { r with err := .socketError, lastClose := none }
  else
    let r := { r with lastClose := some (answers conId).close }
    if mode = .nonBlocking ∧ (answers conId).fcntl = false then { r with err := .socketError }
    else
      match (answers conId).sendto with
      | .sent => { r with sent := r.sent ++ [⟨row conId, message⟩] }
      | .again => r
      | .failed => { r with sendErr := .sendError }

/-- What `event_disp_api_generate_event_mode` leaves. -/
structure Generated where
  err : EventDispStatus
  state : Disp
  sent : List Datagram

/-- `event_disp_api_generate_event_mode`. -/
def eventDispApiGenerateEventMode (s : Disp) (event : Int) (data : Option (List UInt8)) (dataSize : Nat)
    (mode : SendMode) (noCopy lock : Bool) (answers : Fin EVENT_DISP_MAX_CON → SendAnswer) : Generated :=
  if s.init = false then ⟨.notInit, s, []⟩
  else if noCopy = false ∧ EVENT_DISP_MAX_BUFF_LEN < dataSize then ⟨.paramRange, s, []⟩
  else
    match eventRow event with
    | none => ⟨.paramRange, s, []⟩
    | some e =>
      if lock = false then ⟨.mutexError, s, []⟩
      else
        let r := (List.finRange EVENT_DISP_MAX_CON).foldl
          (sendTurn (s.db e) (eventMessage e data dataSize noCopy) mode answers) ⟨.success, .success, [], none⟩
        if r.err ≠ .success then ⟨r.err, s, r.sent⟩
        else ⟨r.sendErr, { s with
          genCounter := Function.update s.genCounter e (s.genCounter e + 1)
          totalGenCounter := s.totalGenCounter + 1 }, r.sent⟩

/-- The datagrams for the slots in use. -/
def datagrams (row : Fin EVENT_DISP_MAX_CON → Int) (message : List UInt8)
    (slots : List (Fin EVENT_DISP_MAX_CON)) : List Datagram :=
  (slots.filter (row · ≠ -1)).map fun conId => ⟨row conId, message⟩

/-- **Without a failure, a datagram goes to each slot in use.** -/
theorem sendEvents_ok (row : Fin EVENT_DISP_MAX_CON → Int) (message : List UInt8) (mode : SendMode) :
    ∀ (slots : List (Fin EVENT_DISP_MAX_CON)) (r : Sending), r.err = .success → r.lastClose ≠ some false →
      (slots.foldl (sendTurn row message mode fun _ => sendOk) r).err = .success ∧
      (slots.foldl (sendTurn row message mode fun _ => sendOk) r).sendErr = r.sendErr ∧
      (slots.foldl (sendTurn row message mode fun _ => sendOk) r).sent = r.sent ++ datagrams row message slots
  | [], r, herr, _ => ⟨herr, rfl, (List.append_nil _).symm⟩
  | slot :: slots, r, herr, hclose => by
    rw [List.foldl_cons]
    by_cases hslot : row slot = -1
    · have hturn : sendTurn row message mode (fun _ => sendOk) r slot = { r with lastClose := none } := by
        unfold sendTurn
        rw [if_neg (not_not.mpr herr), if_neg hclose, if_pos hslot]
      obtain ⟨h₁, h₂, h₃⟩ := sendEvents_ok row message mode slots { r with lastClose := none } herr (by simp)
      rw [hturn, h₁, h₂, h₃]
      refine ⟨rfl, rfl, ?_⟩
      unfold datagrams
      rw [List.filter_cons_of_neg (by simpa using hslot)]
    · have hturn : sendTurn row message mode (fun _ => sendOk) r slot =
          { r with lastClose := some true, sent := r.sent ++ [⟨row slot, message⟩] } := by
        unfold sendTurn
        rw [if_neg (not_not.mpr herr), if_neg hclose, if_neg hslot]
        simp [sendOk]
      obtain ⟨h₁, h₂, h₃⟩ := sendEvents_ok row message mode slots
        { r with lastClose := some true, sent := r.sent ++ [⟨row slot, message⟩] } herr (by simp)
      rw [hturn, h₁, h₂, h₃]
      refine ⟨rfl, rfl, ?_⟩
      unfold datagrams
      rw [List.filter_cons_of_pos (by simpa using hslot), List.map_cons, List.append_assoc,
        List.singleton_append]

end MlnxLib.EventDisp
