import MlnxLib.SxRpc.EventSrcs

/-!
# Heads that the server is not safe against

One event source of the RPC server, with all that its client may send: any bytes, in any pieces, so any
head.  The select thread receives into its buffer (`sx_rpc_api_receive_command`, without the assertion
on the size) and computes the size of a body for the arbiter; the worker thread computes it again, from
the buffer, when it takes the command.

* `receivePasses`, `receiveCommandUnasserted` — `sx_rpc_api_receive_command` without its assertion.
* `ServedSrc`, `serveStep` — the event source between its client, the select thread and the worker, with a
  record of the sizes that the arbiter and the callbacks were given.
* `Safe` — no write beyond the buffer, and each size is that of the body received.

Principal result: `served_safely` — the server is safe as long as each head says a size between that of
a head and that of the buffer, and no command is received while another one waits.
-/

set_option autoImplicit false

namespace MlnxLib.SxRpc

open Bytes Complib Runs

/-! ## The receive without its assertion -/

/-- The two passes of `sx_rpc_api_receive_command`, up to the position that they reach. -/
def receivePasses (r : Received) : Option Received :=
  (receivePhase COMMAND_HEAD_SIZE r).bind fun r =>
    if r.status ≠ STATUS_SUCCESS then some r else
    receivePhase (CommandHead.ofBytes r.buffer).msgSize.toNat r

/-- `sx_rpc_api_receive_command` with `CL_ASSERT` compiled out. -/
def receiveCommandUnasserted (r : Received) : Option Received :=
  (receivePasses r).map fun r => if r.status ≠ STATUS_SUCCESS then r else { r with pos := 0 }

/-- Where the assertion holds, it makes no difference. -/
theorem receiveCommandUnasserted_eq {maxBufferSize : Nat} {r r' : Received}
    (h : sxRpcApiReceiveCommand maxBufferSize r = some r') : receiveCommandUnasserted r = some r' := by
  unfold sxRpcApiReceiveCommand at h
  unfold receiveCommandUnasserted receivePasses
  obtain ⟨r₁, hhead, h⟩ := Option.bind_eq_some_iff.mp h
  rw [hhead, Option.bind_some]
  by_cases hstatus : r₁.status = STATUS_SUCCESS
  · rw [if_neg (not_not.mpr hstatus)] at h ⊢
    dsimp only at h
    split at h
    · cases h
    · exact h
  · rw [if_pos hstatus] at h ⊢
    rw [Option.map_some, if_pos hstatus]
    exact h

/-- The size of the body of the command in a buffer, as both threads compute it. -/
def bodySize (buffer : List UInt8) : UInt32 :=
  (CommandHead.ofBytes buffer).msgSize - headSize COMMAND_HEAD_SIZE

/-! ## The event source -/

/-- A command of the event source that waits for the worker: its queue, and the number of bytes of its
body that have been received. -/
structure Waiting where
  queue : CmdPriority
  body : Nat
  deriving DecidableEq, Repr

/-- An event source, with what its client has sent and what waits for the worker. -/
structure ServedSrc where
  state : EventSrcState
  /-- The select thread is about to call `sx_rpc_client_handler`. -/
  selected : Bool
  buffer : List UInt8
  pos : Nat
  stream : List UInt8
  waiting : List Waiting
  /-- The end of the part of the buffer that has been written to. -/
  written : Nat
  /-- The sizes given to the arbiter, each with the number of bytes received. -/
  arbiter : List (UInt32 × Nat)
  /-- The sizes given to callbacks, each with the number of bytes received. -/
  handled : List (UInt32 × Nat)
  deriving DecidableEq, Repr

/-- The event source after the start of the server. -/
def openServedSrc (buffer : List UInt8) : ServedSrc :=
  ⟨.notActive, false, buffer, 0, [], [], 0, [], []⟩

/-- What a receive finds. -/
def ServedSrc.receive (s : ServedSrc) (answers : List IoAnswer) : Received :=
  ⟨STATUS_SUCCESS, s.buffer, s.pos, s.stream, answers⟩

/-- What a receive leaves, at the position that it has reached. -/
def ServedSrc.received (s : ServedSrc) (r : Received) : ServedSrc :=
  { s with
    selected := false
    buffer := r.buffer
    pos := r.pos
    stream := r.stream
    written := max s.written r.pos }

/-- The arbiter is asked, and the event source is put in a queue; or the command is refused. -/
def ServedSrc.push (commands : Commands) (s : ServedSrc) (body : Nat) : ServedSrc :=
  match queuePriority commands (CommandHead.ofBytes s.buffer).opcode with
  | none => s
  | some b => { s with
      waiting := s.waiting ++ [⟨b, body⟩]
      arbiter := s.arbiter ++ [(bodySize s.buffer, body)] }

/-- `sx_rpc_client_handler` after the receive; the position is still the one that was reached. -/
def clientHandler (commands : Commands) (s : ServedSrc) (r : Received) : ServedSrc :=
  if r.status = STATUS_CMD_INCOMPLETE then s.received r
  else if r.status ≠ STATUS_SUCCESS then
    ServedSrc.push commands
      { s.received r with state := .terminating, buffer := putCloseCommand r.buffer } 0
  else ServedSrc.push commands { s.received r with pos := 0 } (r.pos - COMMAND_HEAD_SIZE)

/-- `sx_rpc_core_api_dispatch` of a command that has waited, and `close_event_src` if its reply fails. -/
def dispatchWaiting (commands : Commands) (s : ServedSrc) (w : Waiting) (ok : Bool) : ServedSrc :=
  match dispatchOf commands s.buffer w.queue with
  | .close => { s with state := .notActive }
  | .unsupported => { s with state := if ok then s.state else .notActive }
  | .call _ => { s with
      state := if ok then s.state else .notActive
      handled := s.handled ++ [(bodySize s.buffer, w.body)] }

/-- What happens next. -/
inductive ServeEvent where
  /-- Bytes of the client arrive. -/
  | send (bytes : List UInt8)
  /-- The event source is given to a new connection. -/
  | accept
  /-- The select thread finds the event source readable. -/
  | select
  /-- `sx_rpc_client_handler`, with the answers of the kernel to its receives. -/
  | handle (answers : List IoAnswer)
  /-- The worker takes the event source from a queue. -/
  | dispatch (b : CmdPriority) (ok : Bool)
  /-- A queue that is full loses its oldest entries. -/
  | lose (b : CmdPriority)
  deriving DecidableEq, Repr

/-- The next command of the event source in a queue, and the source without it. -/
def ServedSrc.next (s : ServedSrc) (b : CmdPriority) : Option (Waiting × ServedSrc) :=
  (s.waiting.find? fun w => w.queue = b).map fun w => (w, { s with waiting := s.waiting.erase w })

/-- One step. -/
def serveStep (commands : Commands) (s : ServedSrc) : ServeEvent → Option ServedSrc
  | .send bytes => some { s with stream := s.stream ++ bytes }
  | .accept =>
    if s.state = .notActive ∧ s.selected = false then
      some { s with state := .active, pos := 0, stream := [] }
    else none
  | .select =>
    if s.state = .active ∧ s.selected = false then some { s with selected := true } else none
  | .handle answers =>
    if s.selected = true then
      (receivePasses (s.receive answers)).bind fun r =>
        if r.answers = [] then some (clientHandler commands s r) else none
    else none
  | .dispatch b ok => (s.next b).map fun n => dispatchWaiting commands n.2 n.1 ok
  | .lose b => (s.next b).map Prod.snd

/-- No write beyond the buffer, and each size is that of the body received. -/
structure Safe (maxBufferSize : Nat) (s : ServedSrc) : Prop where
  written_le : s.written ≤ maxBufferSize
  arbiter : ∀ p ∈ s.arbiter, p.1.toNat = p.2
  handled : ∀ p ∈ s.handled, p.1.toNat = p.2

/-! ## The condition -/

/-- What a client has sent of its next command: the size fits the buffer, or nothing comes beyond it, and
it is not below that of a head, unless the command is refused. -/
def SafeHead (maxBufferSize : Nat) (commands : Commands) (sent : List UInt8) : Prop :=
  COMMAND_HEAD_SIZE ≤ sent.length →
    ((CommandHead.ofBytes sent).msgSize.toNat ≤ maxBufferSize ∨ sent.length ≤ maxBufferSize) ∧
    (COMMAND_HEAD_SIZE ≤ (CommandHead.ofBytes sent).msgSize.toNat ∨
      queuePriority commands (CommandHead.ofBytes sent).opcode = none)

instance (maxBufferSize : Nat) (commands : Commands) (sent : List UInt8) :
    Decidable (SafeHead maxBufferSize commands sent) :=
  inferInstanceAs (Decidable (_ → _))

/-- The steps that the server is safe in.  A command that waits loses its buffer to what is received
meanwhile; that is harmless only if the receive fails, and the worker does not take the command to close
for one of its callbacks. -/
def SafeServe (maxBufferSize : Nat) (commands : Commands) (s : ServedSrc) : ServeEvent → Prop
  | .handle answers =>
    COMMAND_HEAD_SIZE ≤ maxBufferSize ∧
    SafeHead maxBufferSize commands (s.buffer.take s.pos ++ s.stream) ∧
    ∀ w ∈ s.waiting, (∃ a ∈ answers, a.moves = false) ∧
      (w.queue = .high ∨ commands CMD_CLOSE_EVENT_SRC.toInt32 = none)
  | _ => True

instance (maxBufferSize : Nat) (commands : Commands) (s : ServedSrc) :
    ∀ e, Decidable (SafeServe maxBufferSize commands s e)
  | .handle answers => inferInstanceAs (Decidable (_ ∧ _ ∧ ∀ w ∈ s.waiting, (∃ a ∈ answers, a.moves = false) ∧
      (w.queue = .high ∨ commands CMD_CLOSE_EVENT_SRC.toInt32 = none)))
  | .send _ | .accept | .select | .dispatch _ _ | .lose _ => inferInstanceAs (Decidable True)

/-! ## One receive -/

/-- What a pass comes to. -/
inductive PhaseResult (msgSize : Nat) (r r' : Received) : Prop where
  | skipped (reached : msgSize ≤ r.pos) (eq : r' = { r with status := STATUS_SUCCESS })
  | moved (k : Nat) (short : r.pos < msgSize) (le : r.pos + k ≤ msgSize) (here : k ≤ r.stream.length)
      (moves : ∀ a ∈ r.answers, a.moves = true ∨ a ∈ r'.answers)
      (eq : r' = ⟨if r.pos + k < msgSize then STATUS_CMD_INCOMPLETE else STATUS_SUCCESS,
        writeAt r.buffer r.pos (r.stream.take k), r.pos + k, r.stream.drop k, r'.answers⟩)
  | failed (eq : r' = { r with status := STATUS_ERROR, answers := r'.answers })

theorem receivePhase_result {msgSize : Nat} {r r' : Received} (h : receivePhase msgSize r = some r') :
    PhaseResult msgSize r r' := by
  by_cases hpos : r.pos < msgSize
  · unfold receivePhase at h
    rw [if_pos hpos] at h
    obtain ⟨o, hrecv, ho⟩ := Option.map_eq_some_iff.mp h
    have hmoves := clCommchnlRecv_moves hrecv
    obtain ⟨-, ⟨k, -, hkwant, hklen, hko⟩ | ⟨hs, hstream, -⟩⟩ := clCommchnlRecv_cases (by omega) hrecv
    · rw [hko] at ho hmoves
      rw [if_pos rfl] at ho
      subst ho
      exact .moved k hpos (by omega) hklen (hmoves rfl) rfl
    · rw [if_neg hs, hstream] at ho
      subst ho
      exact .failed rfl
  · rw [receivePhase_done (Nat.not_lt.mp hpos)] at h
    exact .skipped (Nat.not_lt.mp hpos) (Option.some.inj h).symm

/-- The buffer holds a first part of what the client has sent, and the stream the rest of it. -/
structure Fits (maxBufferSize : Nat) (sent : List UInt8) (r : Received) : Prop where
  length_buffer : r.buffer.length = maxBufferSize
  pos_le : r.pos ≤ maxBufferSize
  sent_eq : r.buffer.take r.pos ++ r.stream = sent

section

variable {maxBufferSize : Nat} {sent : List UInt8} {r r' : Received}

theorem Fits.length_sent (h : Fits maxBufferSize sent r) : r.pos + r.stream.length = sent.length := by
  rw [← h.sent_eq, List.length_append, List.length_take, h.length_buffer, Nat.min_eq_left h.pos_le]

/-- A head in the buffer is the one that the client has sent. -/
theorem Fits.head_eq (h : Fits maxBufferSize sent r) (hhead : COMMAND_HEAD_SIZE ≤ r.pos) :
    CommandHead.ofBytes r.buffer = CommandHead.ofBytes sent := by
  refine CommandHead.ofBytes_congr (n := r.pos) ?_ hhead
  have hpart : (r.buffer.take r.pos).length = r.pos := by
    rw [List.length_take, h.length_buffer, Nat.min_eq_left h.pos_le]
  rw [← h.sent_eq, List.take_append_of_le_length (Nat.le_of_eq hpart.symm), List.take_take, Nat.min_self]

/-- A pass that ends within the buffer writes only there. -/
theorem Fits.moved (h : Fits maxBufferSize sent r) {k : Nat} (hk : k ≤ r.stream.length)
    (hmax : r.pos + k ≤ maxBufferSize) (status : Int32) (answers : List IoAnswer) :
    Fits maxBufferSize sent
      ⟨status, writeAt r.buffer r.pos (r.stream.take k), r.pos + k, r.stream.drop k, answers⟩ := by
  have hbytes : (r.stream.take k).length = k := by rw [List.length_take, Nat.min_eq_left hk]
  have hbuffer := h.length_buffer
  have hwrite := take_writeAt r.buffer (r.stream.take k) r.pos (by omega)
  rw [hbytes] at hwrite
  refine ⟨?_, hmax, ?_⟩
  · exact (length_writeAt (by rw [hbytes]; omega)).trans hbuffer
  · dsimp only
    rw [hwrite, List.append_assoc, List.take_append_drop]
    exact h.sent_eq

/-- One pass, if it ends within the buffer or nothing comes beyond it. -/
theorem Fits.phase (h : Fits maxBufferSize sent r) {msgSize : Nat}
    (hsize : msgSize ≤ maxBufferSize ∨ sent.length ≤ maxBufferSize)
    (hphase : receivePhase msgSize r = some r') :
    Fits maxBufferSize sent r' ∧ r.pos ≤ r'.pos ∧
      (r'.status = STATUS_ERROR ∨ (∀ a ∈ r.answers, a.moves = true ∨ a ∈ r'.answers) ∧
        (r'.status = STATUS_CMD_INCOMPLETE ∧ r'.pos < msgSize ∨
          r'.status = STATUS_SUCCESS ∧ r'.pos = max r.pos msgSize)) := by
  have hlen := h.length_sent
  cases receivePhase_result hphase with
  | skipped reached eq =>
    rw [eq]
    exact ⟨⟨h.length_buffer, h.pos_le, h.sent_eq⟩, Nat.le_refl _,
      Or.inr ⟨fun _ ha => Or.inr ha, Or.inr ⟨rfl, (Nat.max_eq_left reached).symm⟩⟩⟩
  | moved k short le here moves eq =>
    have hfits := h.moved here (by omega)
      (if r.pos + k < msgSize then STATUS_CMD_INCOMPLETE else STATUS_SUCCESS) r'.answers
    rw [eq]
    refine ⟨hfits, Nat.le_add_right _ _, Or.inr ⟨moves, ?_⟩⟩
    by_cases hlt : r.pos + k < msgSize
    · exact Or.inl ⟨if_pos hlt, hlt⟩
    · exact Or.inr ⟨if_neg hlt, by dsimp only; omega⟩
  | failed eq =>
    rw [eq]
    exact ⟨⟨h.length_buffer, h.pos_le, h.sent_eq⟩, Nat.le_refl _, Or.inl rfl⟩

/-- **One call**, from inside a command: what it leaves, and where the position stands. -/
theorem receivePasses_spec (h : Fits maxBufferSize sent r) (hmax : COMMAND_HEAD_SIZE ≤ maxBufferSize)
    (hsize : COMMAND_HEAD_SIZE ≤ sent.length →
      (CommandHead.ofBytes sent).msgSize.toNat ≤ maxBufferSize ∨ sent.length ≤ maxBufferSize)
    (hpart : COMMAND_HEAD_SIZE ≤ r.pos → r.pos < (CommandHead.ofBytes sent).msgSize.toNat)
    (hpasses : receivePasses r = some r') :
    Fits maxBufferSize sent r' ∧
      (r'.status = STATUS_ERROR ∨ (∀ a ∈ r.answers, a.moves = true ∨ a ∈ r'.answers) ∧
        (r'.status = STATUS_CMD_INCOMPLETE ∧
            (COMMAND_HEAD_SIZE ≤ r'.pos → r'.pos < (CommandHead.ofBytes sent).msgSize.toNat) ∨
          r'.status = STATUS_SUCCESS ∧
            r'.pos = max COMMAND_HEAD_SIZE (CommandHead.ofBytes sent).msgSize.toNat)) := by
  unfold receivePasses at hpasses
  obtain ⟨r₁, hhead, hbody⟩ := Option.bind_eq_some_iff.mp hpasses
  obtain ⟨h₁, -, hs | ⟨hmoves, ⟨hs, hshort⟩ | ⟨hs, hpos⟩⟩⟩ := h.phase (Or.inl hmax) hhead
  · rw [if_pos (by rw [hs]; decide)] at hbody
    cases hbody
    exact ⟨h₁, Or.inl hs⟩
  · rw [if_pos (by rw [hs]; exact incomplete_ne_success)] at hbody
    cases hbody
    exact ⟨h₁, Or.inr ⟨hmoves, Or.inl ⟨hs, fun hge => absurd hshort (Nat.not_lt.mpr hge)⟩⟩⟩
  · -- the head is complete, and says how long the second pass is
    have hcomplete : COMMAND_HEAD_SIZE ≤ r₁.pos := by omega
    have hlen := h₁.length_sent
    rw [if_neg (not_not.mpr hs), h₁.head_eq hcomplete] at hbody
    obtain ⟨h', -, hs' | ⟨hmoves', hend⟩⟩ := h₁.phase (hsize (by omega)) hbody
    · exact ⟨h', Or.inl hs'⟩
    · refine ⟨h', Or.inr ⟨fun a ha => (hmoves a ha).elim Or.inl (hmoves' a), ?_⟩⟩
      rcases hend with ⟨hs', hshort⟩ | ⟨hs', hpos'⟩
      · exact Or.inl ⟨hs', fun _ => hshort⟩
      · exact Or.inr ⟨hs', by omega⟩

end

/-! ## Runs -/

/-- What holds as long as all steps are safe. -/
structure ServedInv (maxBufferSize : Nat) (commands : Commands) (s : ServedSrc) : Prop where
  length_buffer : s.buffer.length = maxBufferSize
  pos_le : s.pos ≤ maxBufferSize
  /-- A position after the head is inside its command. -/
  inside : s.selected = true ∨ s.state = .active → COMMAND_HEAD_SIZE ≤ s.pos →
    s.pos < (CommandHead.ofBytes s.buffer).msgSize.toNat
  /-- The callback of a command that waits will be given the size of its body. -/
  waits : ∀ w ∈ s.waiting, ∀ command, dispatchOf commands s.buffer w.queue = .call command →
    (bodySize s.buffer).toNat = w.body
  safe : Safe maxBufferSize s

section

variable {maxBufferSize : Nat} {commands : Commands} {s : ServedSrc}

theorem ServedInv.openServedSrc (commands : Commands) {buffer : List UInt8} (h : buffer.length = maxBufferSize) :
    ServedInv maxBufferSize commands (openServedSrc buffer) where
  length_buffer := h
  pos_le := Nat.zero_le _
  inside := fun _ hpos => absurd hpos (by show ¬20 ≤ 0; omega)
  waits := fun _ hw => absurd hw List.not_mem_nil
  safe := ⟨Nat.zero_le _, fun _ hp => absurd hp List.not_mem_nil, fun _ hp => absurd hp List.not_mem_nil⟩

/-- The worker takes the command to close for no other. -/
theorem dispatchOf_putCloseCommand {b : CmdPriority} (buffer : List UInt8) (command : Command)
    (h : b = .high ∨ commands CMD_CLOSE_EVENT_SRC.toInt32 = none) :
    dispatchOf commands (putCloseCommand buffer) b ≠ .call command := by
  unfold dispatchOf
  rw [opcode_putCloseCommand]
  rcases h with rfl | hnone
  · rw [if_pos ⟨rfl, rfl⟩]
    exact Dispatch.noConfusion
  · rw [hnone]
    split <;> exact Dispatch.noConfusion

theorem bodySize_putCloseCommand {buffer : List UInt8} (h : COMMAND_HEAD_SIZE ≤ buffer.length) :
    bodySize (putCloseCommand buffer) = 0 := by
  unfold bodySize
  rw [msgSize_putCloseCommand h, UInt32.sub_self]

/-- A size that is not below that of a head. -/
theorem toNat_bodySize {buffer : List UInt8} (h : COMMAND_HEAD_SIZE ≤ (CommandHead.ofBytes buffer).msgSize.toNat) :
    (bodySize buffer).toNat = (CommandHead.ofBytes buffer).msgSize.toNat - COMMAND_HEAD_SIZE := by
  have hle : headSize COMMAND_HEAD_SIZE ≤ (CommandHead.ofBytes buffer).msgSize := UInt32.le_iff_toNat_le.mpr h
  unfold bodySize
  rw [UInt32.toNat_sub_of_le _ _ hle]
  rfl

/-- A command whose body has the size that its head says is put in a queue. -/
theorem ServedInv.push (h : ServedInv maxBufferSize commands s) {body : Nat}
    (hbody : (bodySize s.buffer).toNat = body ∨
      queuePriority commands (CommandHead.ofBytes s.buffer).opcode = none) :
    ServedInv maxBufferSize commands (s.push commands body) := by
  unfold ServedSrc.push
  cases hqueue : queuePriority commands (CommandHead.ofBytes s.buffer).opcode with
  | none => exact h
  | some b =>
    have hsize : (bodySize s.buffer).toNat = body := hbody.resolve_right (by rw [hqueue]; exact Option.some_ne_none b)
    refine ⟨h.length_buffer, h.pos_le, h.inside, ?_, h.safe.written_le, ?_, h.safe.handled⟩
    · intro w hw command hcall
      rcases List.mem_append.mp hw with hw | hw
      · exact h.waits w hw command hcall
      · rw [List.mem_singleton.mp hw]
        exact hsize
    · intro p hp
      rcases List.mem_append.mp hp with hp | hp
      · exact h.safe.arbiter p hp
      · rw [List.mem_singleton.mp hp]
        exact hsize

section

variable {sent : List UInt8} {r : Received}

/-- After a receive that fails, the command to close takes the place of what is in the buffer. -/
theorem ServedInv.failed (h : ServedInv maxBufferSize commands s) (hr : Fits maxBufferSize sent r)
    (hmax : COMMAND_HEAD_SIZE ≤ maxBufferSize)
    (hwaits : ∀ w ∈ s.waiting, w.queue = .high ∨ commands CMD_CLOSE_EVENT_SRC.toInt32 = none) :
    ServedInv maxBufferSize commands (ServedSrc.push commands
      { s.received r with state := .terminating, buffer := putCloseCommand r.buffer } 0) := by
  have hle : COMMAND_HEAD_SIZE ≤ r.buffer.length := by
    rw [hr.length_buffer]
    exact hmax
  have hwritten : max s.written r.pos ≤ maxBufferSize := Nat.max_le.mpr ⟨h.safe.written_le, hr.pos_le⟩
  have hbuffer := (length_putCloseCommand hle).trans hr.length_buffer
  have hsize : (bodySize (putCloseCommand r.buffer)).toNat = 0 := by
    rw [bodySize_putCloseCommand hle]
    rfl
  have hclose : ∀ w ∈ s.waiting, ∀ command,
      dispatchOf commands (putCloseCommand r.buffer) w.queue ≠ .call command :=
    fun w hw command => dispatchOf_putCloseCommand r.buffer command (hwaits w hw)
  generalize putCloseCommand r.buffer = closing at hbuffer hsize hclose
  have hinv : ServedInv maxBufferSize commands
      { s.received r with state := .terminating, buffer := closing } := by
    refine ⟨hbuffer, hr.pos_le, ?_, ?_, hwritten, h.safe.arbiter, h.safe.handled⟩
    · rintro (hselected | hstate)
      · cases hselected
      · cases hstate
    · exact fun w hw command hcall => absurd hcall (hclose w hw command)
  exact hinv.push (Or.inl hsize)

/-- A receive that does not fail leaves a position inside a command, if no command is waiting. -/
theorem ServedInv.received (h : ServedInv maxBufferSize commands s) (hr : Fits maxBufferSize sent r)
    (hnone : s.waiting = []) {pos : Nat} (hpos : pos ≤ maxBufferSize)
    (hinside : COMMAND_HEAD_SIZE ≤ pos → pos < (CommandHead.ofBytes r.buffer).msgSize.toNat) :
    ServedInv maxBufferSize commands { s.received r with pos := pos } := by
  have hwritten : max s.written r.pos ≤ maxBufferSize := Nat.max_le.mpr ⟨h.safe.written_le, hr.pos_le⟩
  refine ⟨hr.length_buffer, hpos, fun _ => hinside, fun w hw => ?_, hwritten, h.safe.arbiter, h.safe.handled⟩
  have hmem : w ∈ s.waiting := hw
  rw [hnone] at hmem
  cases hmem

end

/-- **A call of `sx_rpc_client_handler`** under the condition. -/
theorem ServedInv.handle (h : ServedInv maxBufferSize commands s) {answers : List IoAnswer} {r : Received}
    (hselected : s.selected = true) (hsafe : SafeServe maxBufferSize commands s (.handle answers))
    (hpasses : receivePasses (s.receive answers) = some r) (hused : r.answers = []) :
    ServedInv maxBufferSize commands (clientHandler commands s r) := by
  obtain ⟨hmax, hhead, hwaits⟩ := hsafe
  have hfits : Fits maxBufferSize (s.buffer.take s.pos ++ s.stream) (s.receive answers) :=
    ⟨h.length_buffer, h.pos_le, rfl⟩
  have hpart : COMMAND_HEAD_SIZE ≤ s.pos →
      s.pos < (CommandHead.ofBytes (s.buffer.take s.pos ++ s.stream)).msgSize.toNat := by
    intro hpos
    rw [← hfits.head_eq hpos]
    exact h.inside (Or.inl hselected) hpos
  generalize s.buffer.take s.pos ++ s.stream = sent at hhead hfits hpart
  obtain ⟨hr, hresult⟩ := receivePasses_spec hfits hmax (fun hlen => (hhead hlen).1) hpart hpasses
  unfold clientHandler
  rcases hresult with hs | ⟨hmoves, hend⟩
  · rw [if_neg (by rw [hs]; decide), if_pos (by rw [hs]; decide)]
    exact h.failed hr hmax fun w hw => (hwaits w hw).2
  · -- all answers have moved bytes, so no command has been waiting
    have hnone : s.waiting = [] := by
      refine List.eq_nil_iff_forall_not_mem.mpr fun w hw => ?_
      obtain ⟨a, ha, hmove⟩ := (hwaits w hw).1
      rcases hmoves a ha with hmove' | hleft
      · rw [hmove] at hmove'
        cases hmove'
      · rw [hused] at hleft
        cases hleft
    rcases hend with ⟨hs, hshort⟩ | ⟨hs, hpos⟩
    · rw [if_pos hs]
      refine h.received hr hnone hr.pos_le fun hge => ?_
      rw [hr.head_eq hge]
      exact hshort hge
    · rw [if_neg (by rw [hs]; exact fun heq => incomplete_ne_success heq.symm), if_neg (not_not.mpr hs)]
      have hcomplete : COMMAND_HEAD_SIZE ≤ r.pos := by omega
      have hlen := hr.length_sent
      have heq := hr.head_eq hcomplete
      have hbody : (bodySize r.buffer).toNat = r.pos - COMMAND_HEAD_SIZE ∨
          queuePriority commands (CommandHead.ofBytes r.buffer).opcode = none := by
        rw [heq]
        refine (hhead (by omega)).2.imp_left fun hge => ?_
        rw [toNat_bodySize (by rw [heq]; exact hge), heq, hpos, Nat.max_eq_right hge]
      have hinv := h.received hr hnone (Nat.zero_le _) fun hge => absurd hge (by show ¬20 ≤ 0; omega)
      exact hinv.push hbody

/-- What the worker does with a command that has waited. -/
theorem ServedInv.dispatch (h : ServedInv maxBufferSize commands s) {w : Waiting} (ok : Bool)
    (hw : ∀ command, dispatchOf commands s.buffer w.queue = .call command →
      (bodySize s.buffer).toNat = w.body) :
    ServedInv maxBufferSize commands (dispatchWaiting commands s w ok) := by
  -- the event source can only become one that is not active
  have hstate : ∀ state : EventSrcState, (state = .notActive ∨ state = s.state) →
      (s.selected = true ∨ state = .active) → s.selected = true ∨ s.state = .active := by
    rintro state (rfl | rfl) (hsel | hactive)
    · exact Or.inl hsel
    · cases hactive
    · exact Or.inl hsel
    · exact Or.inr hactive
  have hok : (if ok then s.state else .notActive) = .notActive ∨
      (if ok then s.state else .notActive) = s.state := by
    cases ok
    · exact Or.inl rfl
    · exact Or.inr rfl
  unfold dispatchWaiting
  cases hdispatch : dispatchOf commands s.buffer w.queue with
  | close =>
    exact ⟨h.length_buffer, h.pos_le, fun hact => h.inside (hstate _ (Or.inl rfl) hact), h.waits,
      h.safe.written_le, h.safe.arbiter, h.safe.handled⟩
  | unsupported =>
    exact ⟨h.length_buffer, h.pos_le, fun hact => h.inside (hstate _ hok hact), h.waits,
      h.safe.written_le, h.safe.arbiter, h.safe.handled⟩
  | call command =>
    refine ⟨h.length_buffer, h.pos_le, fun hact => h.inside (hstate _ hok hact), h.waits,
      h.safe.written_le, h.safe.arbiter, ?_⟩
    intro p hp
    rcases List.mem_append.mp hp with hp | hp
    · exact h.safe.handled p hp
    · rw [List.mem_singleton.mp hp]
      exact hw command hdispatch

/-- A command leaves its queue. -/
theorem ServedInv.next (h : ServedInv maxBufferSize commands s) {b : CmdPriority} {n : Waiting × ServedSrc}
    (hnext : s.next b = some n) : n.1 ∈ s.waiting ∧ n.2.buffer = s.buffer ∧
      ServedInv maxBufferSize commands n.2 := by
  obtain ⟨w, hfind, rfl⟩ := Option.map_eq_some_iff.mp hnext
  refine ⟨List.mem_of_find?_eq_some hfind, rfl, h.length_buffer, h.pos_le, h.inside, ?_, h.safe.written_le,
    h.safe.arbiter, h.safe.handled⟩
  exact fun w' hw' => h.waits w' (List.mem_of_mem_erase hw')

/-- **A step that meets the condition keeps the invariant.** -/
theorem ServedInv.step {s' : ServedSrc} {e : ServeEvent} (h : ServedInv maxBufferSize commands s)
    (hsafe : SafeServe maxBufferSize commands s e) (he : serveStep commands s e = some s') :
    ServedInv maxBufferSize commands s' := by
  cases e with
  | send bytes =>
    cases he
    exact ⟨h.length_buffer, h.pos_le, h.inside, h.waits, h.safe.written_le, h.safe.arbiter, h.safe.handled⟩
  | accept =>
    rw [serveStep] at he
    split at he
    · cases he
      refine ⟨h.length_buffer, Nat.zero_le _, fun _ hge => ?_, h.waits, h.safe.written_le, h.safe.arbiter,
        h.safe.handled⟩
      exact absurd hge (by show ¬20 ≤ 0; omega)
    · cases he
  | select =>
    rw [serveStep] at he
    split at he
    · rename_i hactive
      cases he
      exact ⟨h.length_buffer, h.pos_le, fun _ => h.inside (Or.inr hactive.1), h.waits, h.safe.written_le,
        h.safe.arbiter, h.safe.handled⟩
    · cases he
  | handle answers =>
    rw [serveStep] at he
    split at he
    · rename_i hselected
      obtain ⟨r, hpasses, he⟩ := Option.bind_eq_some_iff.mp he
      split at he
      · rename_i hused
        cases he
        exact h.handle hselected hsafe hpasses hused
      · cases he
    · cases he
  | dispatch b ok =>
    obtain ⟨n, hnext, rfl⟩ := Option.map_eq_some_iff.mp he
    obtain ⟨hmem, hbuffer, hn⟩ := h.next hnext
    refine hn.dispatch ok fun command hcall => ?_
    rw [hbuffer] at hcall ⊢
    exact h.waits n.1 hmem command hcall
  | lose b =>
    obtain ⟨n, hnext, rfl⟩ := Option.map_eq_some_iff.mp he
    exact (h.next hnext).2.2

end

/-- **The server is safe** in every state of a run whose steps all meet the condition, whatever the client
sends and however the kernel splits it. -/
theorem served_safely (maxBufferSize : Nat) (commands : Commands) (buffer : List UInt8)
    (events : List ServeEvent) (hbuffer : buffer.length = maxBufferSize)
    (hsafe : AllMeet (serveStep commands) (SafeServe maxBufferSize commands) (openServedSrc buffer) events) :
    Throughout (serveStep commands) (Safe maxBufferSize) (openServedSrc buffer) events :=
  throughout_of_allMeet (fun _ h => h.safe) ServedInv.step events (ServedInv.openServedSrc commands hbuffer)
    hsafe

/-- A server with one command. -/
def singleCommand : Commands := fun opcode => if opcode = 7 then some .medium else none

/-- A command of three bytes in two pieces, its reply, and the end of the connection. -/
def threeByteCommand : List ServeEvent :=
  [.accept, .send ((⟨7, 0, 23, 0, 0⟩ : CommandHead).bytes ++ [1, 2, 3]), .select, .handle [.bytes 9],
    .select, .handle [.bytes 9, .bytes 2], .dispatch .medium true, .select, .handle [.zero],
    .dispatch .high true]

theorem served_safely_sample : AllMeet (serveStep singleCommand) (SafeServe 32 singleCommand)
      (openServedSrc (List.replicate 32 0)) threeByteCommand ∧
    (run (serveStep singleCommand) (openServedSrc (List.replicate 32 0)) threeByteCommand).map
        ServedSrc.handled = some [(3, 3)] ∧
    Throughout (serveStep singleCommand) (Safe 32) (openServedSrc (List.replicate 32 0)) threeByteCommand :=
  have hsafe : AllMeet (serveStep singleCommand) (SafeServe 32 singleCommand)
      (openServedSrc (List.replicate 32 0)) threeByteCommand := by decide +kernel
  ⟨hsafe, by decide +kernel, served_safely 32 singleCommand (List.replicate 32 0) threeByteCommand (by decide) hsafe⟩

/-- A head that says that its command is shorter than a head. -/
def headOfSizeZero : List ServeEvent :=
  [.accept, .send (⟨7, 0, 0, 0, 0⟩ : CommandHead).bytes, .select, .handle [.bytes 19],
    .dispatch .medium true]

/-- The callback of a command without a body is told of one of `2 ^ 32 - 20` bytes. -/
theorem head_of_size_zero_wraps : ¬ ∀ (maxBufferSize : Nat) (commands : Commands) (buffer : List UInt8)
    (events : List ServeEvent), COMMAND_HEAD_SIZE ≤ maxBufferSize → buffer.length = maxBufferSize →
    Throughout (serveStep commands) (Safe maxBufferSize) (openServedSrc buffer) events := by
  intro h
  have hrun : (run (serveStep singleCommand) (openServedSrc (List.replicate 32 0)) headOfSizeZero).map
      ServedSrc.handled = some [(4294967276, 0)] := by decide +kernel
  obtain ⟨s, hs, hhandled⟩ := Option.map_eq_some_iff.mp hrun
  have hsafe := (h 32 singleCommand (List.replicate 32 0) headOfSizeZero (by decide) (by decide)).of_run hs
  have hwrong := hsafe.handled (4294967276, 0) (by rw [hhandled]; exact List.mem_cons_self ..)
  exact absurd hwrong (by decide)

/-- With a size beyond the buffer, the receive goes on behind its end. -/
example : (run (serveStep singleCommand) (openServedSrc (List.replicate 32 0))
    [.accept, .send ((⟨7, 0, 100, 0, 0⟩ : CommandHead).bytes ++ List.replicate 30 0), .select,
      .handle [.bytes 19, .bytes 29]]).map ServedSrc.written = some 50 := by decide +kernel

end MlnxLib.SxRpc
