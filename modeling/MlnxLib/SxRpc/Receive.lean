import MlnxLib.Complib.CommChnl
import MlnxLib.SxRpc.Defs

/-!
# The reassembly of RPC commands

Model of `sx_rpc_api_receive_command` of `sx_rpc_common.c`.  An event source has one buffer and a
position in it; each call receives at most what is missing of the head, then at most what is missing
of the command, and says whether the command is complete.

* `Received` — the buffer and the position after a call, with the stream and the answers of the kernel
  that are left.
* `Partly` — the part of the current command that the buffer holds, and where the stream stands.
* `receiveAll` — the calls of the select loop, one whenever there is something to receive.

Principal results: `sxRpcApiReceiveCommand_spec` — what one call does, from any position;
`receiveAll_reassembles` — the calls yield the commands of the stream, one after the other.
-/

set_option autoImplicit false

namespace MlnxLib.SxRpc

open Bytes Complib

/-- What a call of `sx_rpc_api_receive_command` finds and leaves. -/
structure Received where
  status : Int32
  buffer : List UInt8
  pos : Nat
  stream : List UInt8
  answers : List IoAnswer
  deriving DecidableEq, Repr

/-- One pass of the loop of `sx_rpc_api_receive_command`, up to a position. -/
def receivePhase (msgSize : Nat) (r : Received) : Option Received :=
  if r.pos < msgSize then
    (clCommchnlRecv false (msgSize - r.pos) r.stream r.answers).map fun o =>
      if o.status = .success then
        { status := if r.pos + o.bufferSize < msgSize then STATUS_CMD_INCOMPLETE else STATUS_SUCCESS
          buffer := writeAt r.buffer r.pos o.received
          pos := r.pos + o.bufferSize
          stream := o.stream
          answers := o.answers }
      else { r with status := STATUS_ERROR, stream := o.stream, answers := o.answers }
  else some { r with status := STATUS_SUCCESS }

/-- `sx_rpc_api_receive_command`; `none` also where the assertion on the size of the command fails. -/
def sxRpcApiReceiveCommand (maxBufferSize : Nat) (r : Received) : Option Received :=
  (receivePhase COMMAND_HEAD_SIZE r).bind fun r =>
    if r.status ≠ STATUS_SUCCESS then some r else
    let msgSize := (CommandHead.ofBytes r.buffer).msgSize.toNat
    if maxBufferSize < msgSize then none else
    (receivePhase msgSize r).map fun r =>
      if r.status ≠ STATUS_SUCCESS then r else { r with pos := 0 }

/-! ## One call -/

/-- A command that the server takes: its head says how long it is, and it fits the buffer. -/
structure IsCommand (maxBufferSize : Nat) (cmd : List UInt8) : Prop where
  size : (CommandHead.ofBytes cmd).msgSize.toNat = cmd.length
  head_le : COMMAND_HEAD_SIZE ≤ cmd.length
  le_max : cmd.length ≤ maxBufferSize

/-- The buffer holds the first part of a command, the stream goes on with the rest of it, and the
channel moves all bytes that are left, and `n` more. -/
structure Partly (maxBufferSize n : Nat) (cmd rest : List UInt8) (r : Received) : Prop where
  pos_le : r.pos ≤ cmd.length
  length_buffer : r.buffer.length = maxBufferSize
  take_buffer : r.buffer.take r.pos = cmd.take r.pos
  stream_eq : r.stream = cmd.drop r.pos ++ rest
  flows : Flows (r.stream.length + n) r.answers

/-- **One pass of the loop**: what is missing up to the position or a first part of it. -/
theorem receivePhase_spec {maxBufferSize n msgSize : Nat} {cmd rest : List UInt8} {r : Received}
    (h : Partly maxBufferSize n cmd rest r) (hcmd : cmd.length ≤ maxBufferSize)
    (hsize : msgSize ≤ cmd.length) (hpos : r.pos < msgSize) :
    ∃ r', receivePhase msgSize r = some r' ∧ Partly maxBufferSize n cmd rest r' ∧
      r.pos < r'.pos ∧ r'.pos ≤ msgSize ∧
      r'.status = if r'.pos < msgSize then STATUS_CMD_INCOMPLETE else STATUS_SUCCESS := by
  obtain ⟨status, buffer, pos, stream, answers⟩ := r
  obtain ⟨hle, hbuf, htake, hstream, hflows⟩ := h
  dsimp only at hle hbuf htake hstream hflows hpos
  subst hstream
  have hleft : (cmd.drop pos).length = cmd.length - pos := List.length_drop
  rw [List.length_append, Nat.add_assoc] at hflows
  obtain ⟨k, answers', hk, hkle, hrecv, hflows'⟩ := clCommchnlRecv_some rest
    (show 0 < msgSize - pos by omega) (show msgSize - pos ≤ (cmd.drop pos).length by omega) hflows
  have hbytes : ((cmd.drop pos).take k).length = k := by
    rw [List.length_take, Nat.min_eq_left (by omega)]
  have hwrite := take_writeAt buffer ((cmd.drop pos).take k) pos (by omega)
  rw [hbytes, htake, ← List.take_add] at hwrite
  have hphase : receivePhase msgSize ⟨status, buffer, pos, cmd.drop pos ++ rest, answers⟩ =
      some ⟨if pos + k < msgSize then STATUS_CMD_INCOMPLETE else STATUS_SUCCESS,
        writeAt buffer pos ((cmd.drop pos).take k), pos + k, (cmd.drop pos).drop k ++ rest,
        answers'⟩ := by
    unfold receivePhase
    rw [if_pos hpos]
    show (clCommchnlRecv false _ _ answers).map _ = _
    rw [hrecv, Option.map_some, if_pos rfl]
  have hsizes : pos < pos + k ∧ pos + k ≤ msgSize := by omega
  refine ⟨_, hphase, ?_, hsizes.1, hsizes.2, rfl⟩
  refine ⟨Nat.le_trans hsizes.2 hsize, ?_, hwrite, ?_, ?_⟩
  · rw [length_writeAt (by omega)]
    exact hbuf
  · show (cmd.drop pos).drop k ++ rest = cmd.drop (pos + k) ++ rest
    rw [List.drop_drop]
  · show Flows (((cmd.drop pos).drop k ++ rest).length + n) answers'
    rw [List.length_append, List.length_drop, Nat.add_assoc]
    exact hflows'

/-- A pass beyond its position receives nothing. -/
theorem receivePhase_done {msgSize : Nat} {r : Received} (h : msgSize ≤ r.pos) :
    receivePhase msgSize r = some { r with status := STATUS_SUCCESS } := by
  unfold receivePhase
  rw [if_neg (by omega)]

/-- What a call of `sx_rpc_api_receive_command` leaves, with a command partly received before it. -/
inductive CallResult (maxBufferSize n : Nat) (cmd rest : List UInt8) (r r' : Received) : Prop where
  /-- The command goes on: more of it has been received. -/
  | incomplete (status : r'.status = STATUS_CMD_INCOMPLETE) (partly : Partly maxBufferSize n cmd rest r')
      (more : r.pos < r'.pos) (short : r'.pos < cmd.length)
  /-- The command is complete, and nothing of what follows has been received. -/
  | complete (status : r'.status = STATUS_SUCCESS) (pos : r'.pos = 0)
      (buffer : r'.buffer.take cmd.length = cmd) (stream : r'.stream = rest)
      (length_buffer : r'.buffer.length = maxBufferSize)
      (flows : Flows (r'.stream.length + n) r'.answers)

theorem incomplete_ne_success : STATUS_CMD_INCOMPLETE ≠ STATUS_SUCCESS := by decide

/-- The second pass of a call, with the head complete. -/
theorem receiveBody_spec {maxBufferSize n : Nat} {cmd rest : List UInt8} {r : Received}
    (hcmd : IsCommand maxBufferSize cmd) (h : Partly maxBufferSize n cmd rest r)
    (hhead : COMMAND_HEAD_SIZE ≤ r.pos) :
    ∃ r', (if maxBufferSize < (CommandHead.ofBytes r.buffer).msgSize.toNat then none else
        (receivePhase (CommandHead.ofBytes r.buffer).msgSize.toNat r).map fun r =>
          if r.status ≠ STATUS_SUCCESS then r else { r with pos := 0 }) = some r' ∧
      CallResult maxBufferSize n cmd rest r r' := by
  have hmsg : (CommandHead.ofBytes r.buffer).msgSize.toNat = cmd.length := by
    rw [CommandHead.ofBytes_congr h.take_buffer hhead]
    exact hcmd.size
  have hdone : ∀ r' : Received, Partly maxBufferSize n cmd rest r' → r'.status = STATUS_SUCCESS →
      cmd.length ≤ r'.pos → CallResult maxBufferSize n cmd rest r { r' with pos := 0 } := by
    intro r' h' hs hpos
    have heq : r'.pos = cmd.length := Nat.le_antisymm h'.pos_le hpos
    have hbuf := h'.take_buffer
    have hstream := h'.stream_eq
    rw [heq, List.take_length] at hbuf
    rw [heq, List.drop_length, List.nil_append] at hstream
    exact .complete hs rfl hbuf hstream h'.length_buffer h'.flows
  rw [hmsg, if_neg (Nat.not_lt.mpr hcmd.le_max)]
  by_cases hpos : r.pos < cmd.length
  · obtain ⟨r', hphase, h', hlt, hle, hs⟩ := receivePhase_spec h hcmd.le_max (Nat.le_refl _) hpos
    rw [hphase]
    refine ⟨_, Option.map_some .., ?_⟩
    by_cases hshort : r'.pos < cmd.length
    · rw [if_pos hshort] at hs
      rw [if_pos (by rw [hs]; exact incomplete_ne_success)]
      exact .incomplete hs h' hlt hshort
    · rw [if_neg hshort] at hs
      rw [if_neg (not_not.mpr hs)]
      exact hdone r' h' hs (Nat.not_lt.mp hshort)
  · rw [receivePhase_done (Nat.not_lt.mp hpos)]
    refine ⟨_, Option.map_some .., ?_⟩
    rw [if_neg (not_not.mpr rfl)]
    exact hdone { r with status := STATUS_SUCCESS }
      ⟨h.pos_le, h.length_buffer, h.take_buffer, h.stream_eq, h.flows⟩ rfl (Nat.not_lt.mp hpos)

/-- **One call**, from any position in a command and for any answers that move bytes. -/
theorem sxRpcApiReceiveCommand_spec {maxBufferSize n : Nat} {cmd rest : List UInt8} {r : Received}
    (hcmd : IsCommand maxBufferSize cmd) (h : Partly maxBufferSize n cmd rest r) :
    ∃ r', sxRpcApiReceiveCommand maxBufferSize r = some r' ∧ CallResult maxBufferSize n cmd rest r r' := by
  unfold sxRpcApiReceiveCommand
  by_cases hhead : r.pos < COMMAND_HEAD_SIZE
  · -- the call starts inside the head
    obtain ⟨r₁, hphase, h₁, hlt, hle, hs⟩ := receivePhase_spec h hcmd.le_max hcmd.head_le hhead
    rw [hphase, Option.bind_some]
    by_cases hshort : r₁.pos < COMMAND_HEAD_SIZE
    · rw [if_pos hshort] at hs
      rw [if_pos (by rw [hs]; exact incomplete_ne_success)]
      exact ⟨r₁, rfl, .incomplete hs h₁ hlt (Nat.lt_of_lt_of_le hshort hcmd.head_le)⟩
    · rw [if_neg hshort] at hs
      rw [if_neg (not_not.mpr hs)]
      obtain ⟨r', hbody, hresult⟩ := receiveBody_spec hcmd h₁ (Nat.not_lt.mp hshort)
      refine ⟨r', hbody, ?_⟩
      cases hresult with
      | incomplete status partly more short => exact .incomplete status partly (Nat.lt_trans hlt more) short
      | complete status pos buffer stream length flows => exact .complete status pos buffer stream length flows
  · -- the head is in the buffer from an earlier call
    rw [receivePhase_done (Nat.not_lt.mp hhead), Option.bind_some, if_neg (not_not.mpr rfl)]
    obtain ⟨r', hbody, hresult⟩ := receiveBody_spec (r := { r with status := STATUS_SUCCESS }) hcmd
      ⟨h.pos_le, h.length_buffer, h.take_buffer, h.stream_eq, h.flows⟩ (Nat.not_lt.mp hhead)
    refine ⟨r', hbody, ?_⟩
    cases hresult with
    | incomplete status partly more short => exact .incomplete status partly more short
    | complete status pos buffer stream length flows => exact .complete status pos buffer stream length flows

/-! ## One call, whatever the kernel answers -/

/-- The buffer holds a first part of a command, and the stream a first part of the rest of it. -/
structure Within (maxBufferSize : Nat) (cmd : List UInt8) (r : Received) : Prop where
  length_buffer : r.buffer.length = maxBufferSize
  take_buffer : r.buffer.take r.pos = cmd.take r.pos
  pos_le : r.pos ≤ cmd.length
  stream_prefix : r.stream <+: cmd.drop r.pos

/-- One pass of the loop stays within the command; it fails only when an answer does not move bytes. -/
theorem receivePhase_within {maxBufferSize msgSize : Nat} {cmd : List UInt8} {r r' : Received}
    (h : Within maxBufferSize cmd r) (hcmd : cmd.length ≤ maxBufferSize) (hpos : r.pos < msgSize)
    (hphase : receivePhase msgSize r = some r') :
    Within maxBufferSize cmd r' ∧ (∀ a ∈ r'.answers, a ∈ r.answers) ∧
      (r'.status = (if r'.pos < msgSize then STATUS_CMD_INCOMPLETE else STATUS_SUCCESS) ∧
          r'.pos ≤ msgSize ∨
        r'.status = STATUS_ERROR ∧ ∃ a ∈ r.answers, a.moves = false) := by
  obtain ⟨hbuf, htake, hle, rest, hrest⟩ := h
  unfold receivePhase at hphase
  rw [if_pos hpos] at hphase
  obtain ⟨o, hrecv, ho⟩ := Option.map_eq_some_iff.mp hphase
  obtain ⟨hanswers, ⟨k, hk, hkwant, hklen, hko⟩ | ⟨hs, hstream, ha⟩⟩ :=
    clCommchnlRecv_cases (by omega) hrecv
  · rw [hko, if_pos rfl] at ho
    subst ho
    have hbytes : (r.stream.take k).length = k := by rw [List.length_take, Nat.min_eq_left hklen]
    have hcmdlen : r.stream.length + rest.length = cmd.length - r.pos := by
      rw [← List.length_append, hrest, List.length_drop]
    have hpart : r.stream.take k = (cmd.drop r.pos).take k := by
      rw [← hrest, List.take_append_of_le_length hklen]
    have hwrite := take_writeAt r.buffer (r.stream.take k) r.pos (by omega)
    rw [hbytes, htake, hpart, ← List.take_add] at hwrite
    refine ⟨⟨?_, ?_, by dsimp only; omega, rest, ?_⟩, hanswers, Or.inl ⟨rfl, by dsimp only; omega⟩⟩
    · have hfit : r.pos + (r.stream.take k).length ≤ r.buffer.length := by omega
      exact (length_writeAt hfit).trans hbuf
    · rw [← hpart] at hwrite
      exact hwrite
    · show r.stream.drop k ++ rest = cmd.drop (r.pos + k)
      rw [← List.drop_drop, ← hrest, List.drop_append_of_le_length hklen]
  · rw [if_neg hs] at ho
    subst ho
    exact ⟨⟨hbuf, htake, hle, rest, by rw [hstream]; exact hrest⟩, hanswers, Or.inr ⟨rfl, ha⟩⟩

/-- What any call of `sx_rpc_api_receive_command` leaves, within a command. -/
inductive Outcome (maxBufferSize : Nat) (cmd : List UInt8) (r r' : Received) : Prop where
  | incomplete (status : r'.status = STATUS_CMD_INCOMPLETE) (within : Within maxBufferSize cmd r')
      (short : r'.pos < cmd.length)
  | complete (status : r'.status = STATUS_SUCCESS) (pos : r'.pos = 0)
      (buffer : r'.buffer.take cmd.length = cmd) (stream : r'.stream = [])
      (length_buffer : r'.buffer.length = maxBufferSize)
  | failed (status : r'.status = STATUS_ERROR) (within : Within maxBufferSize cmd r')
      (answer : ∃ a ∈ r.answers, a.moves = false)

/-- The second pass of a call that stays within its command. -/
theorem receiveBody_within {maxBufferSize : Nat} {cmd : List UInt8} {r r₀ r' : Received}
    (hcmd : IsCommand maxBufferSize cmd) (h : Within maxBufferSize cmd r) (hhead : COMMAND_HEAD_SIZE ≤ r.pos)
    (hanswers : ∀ a ∈ r.answers, a ∈ r₀.answers)
    (hbody : (if maxBufferSize < (CommandHead.ofBytes r.buffer).msgSize.toNat then none else
      (receivePhase (CommandHead.ofBytes r.buffer).msgSize.toNat r).map fun r =>
        if r.status ≠ STATUS_SUCCESS then r else { r with pos := 0 }) = some r') :
    Outcome maxBufferSize cmd r₀ r' := by
  have hmsg : (CommandHead.ofBytes r.buffer).msgSize.toNat = cmd.length := by
    rw [CommandHead.ofBytes_congr h.take_buffer hhead]
    exact hcmd.size
  have hdone : ∀ r₁ : Received, Within maxBufferSize cmd r₁ → r₁.status = STATUS_SUCCESS →
      cmd.length ≤ r₁.pos → Outcome maxBufferSize cmd r₀ { r₁ with pos := 0 } := by
    intro r₁ h₁ hs hpos
    have heq : r₁.pos = cmd.length := Nat.le_antisymm h₁.pos_le hpos
    have hbuf := h₁.take_buffer
    have hstream := h₁.stream_prefix
    rw [heq, List.take_length] at hbuf
    rw [heq, List.drop_length] at hstream
    exact .complete hs rfl hbuf (List.prefix_nil.mp hstream) h₁.length_buffer
  rw [hmsg, if_neg (Nat.not_lt.mpr hcmd.le_max)] at hbody
  obtain ⟨r₁, hphase, hr'⟩ := Option.map_eq_some_iff.mp hbody
  by_cases hpos : r.pos < cmd.length
  · obtain ⟨h₁, -, ⟨hs, hle⟩ | ⟨hs, a, ha, hmoves⟩⟩ := receivePhase_within h hcmd.le_max hpos hphase
    · by_cases hshort : r₁.pos < cmd.length
      · rw [if_pos hshort] at hs
        rw [if_pos (by rw [hs]; exact incomplete_ne_success)] at hr'
        subst hr'
        exact .incomplete hs h₁ hshort
      · rw [if_neg hshort] at hs
        rw [if_neg (not_not.mpr hs)] at hr'
        subst hr'
        exact hdone r₁ h₁ hs (Nat.not_lt.mp hshort)
    · rw [if_pos (by rw [hs]; decide)] at hr'
      subst hr'
      exact .failed hs h₁ ⟨a, hanswers a ha, hmoves⟩
  · rw [receivePhase_done (Nat.not_lt.mp hpos)] at hphase
    cases hphase
    rw [if_neg (not_not.mpr rfl)] at hr'
    subst hr'
    exact hdone { r with status := STATUS_SUCCESS } ⟨h.length_buffer, h.take_buffer, h.pos_le, h.stream_prefix⟩
      rfl (Nat.not_lt.mp hpos)

/-- **Any call stays within its command.** -/
theorem sxRpcApiReceiveCommand_within {maxBufferSize : Nat} {cmd : List UInt8} {r r' : Received}
    (hcmd : IsCommand maxBufferSize cmd) (h : Within maxBufferSize cmd r)
    (hcall : sxRpcApiReceiveCommand maxBufferSize r = some r') : Outcome maxBufferSize cmd r r' := by
  unfold sxRpcApiReceiveCommand at hcall
  obtain ⟨r₁, hphase, hbody⟩ := Option.bind_eq_some_iff.mp hcall
  by_cases hhead : r.pos < COMMAND_HEAD_SIZE
  · obtain ⟨h₁, hanswers, ⟨hs, hle⟩ | ⟨hs, ha⟩⟩ := receivePhase_within h hcmd.le_max hhead hphase
    · by_cases hshort : r₁.pos < COMMAND_HEAD_SIZE
      · rw [if_pos hshort] at hs
        rw [if_pos (by rw [hs]; exact incomplete_ne_success)] at hbody
        cases hbody
        exact .incomplete hs h₁ (Nat.lt_of_lt_of_le hshort hcmd.head_le)
      · rw [if_neg hshort] at hs
        rw [if_neg (not_not.mpr hs)] at hbody
        exact receiveBody_within hcmd h₁ (Nat.not_lt.mp hshort) hanswers hbody
    · rw [if_pos (by rw [hs]; decide)] at hbody
      cases hbody
      exact .failed hs h₁ ha
  · rw [receivePhase_done (Nat.not_lt.mp hhead)] at hphase
    cases hphase
    rw [if_neg (not_not.mpr rfl)] at hbody
    exact receiveBody_within (r := { r with status := STATUS_SUCCESS }) hcmd
      ⟨h.length_buffer, h.take_buffer, h.pos_le, h.stream_prefix⟩ (Nat.not_lt.mp hhead) (fun a ha => ha) hbody

/-- With nothing received and nothing to receive, a call can only fail. -/
theorem sxRpcApiReceiveCommand_idle {maxBufferSize : Nat} {r r' : Received} (hpos : r.pos = 0)
    (hstream : r.stream = []) (hcall : sxRpcApiReceiveCommand maxBufferSize r = some r') :
    r'.status = STATUS_ERROR ∧ r'.buffer = r.buffer ∧ ∃ a ∈ r.answers, a.moves = false := by
  unfold sxRpcApiReceiveCommand at hcall
  obtain ⟨r₁, hphase, hbody⟩ := Option.bind_eq_some_iff.mp hcall
  have hhead : r.pos < COMMAND_HEAD_SIZE := by
    rw [hpos]
    decide
  unfold receivePhase at hphase
  rw [if_pos hhead] at hphase
  obtain ⟨o, hrecv, ho⟩ := Option.map_eq_some_iff.mp hphase
  obtain ⟨-, ⟨k, hk, -, hklen, -⟩ | ⟨hs, -, ha⟩⟩ := clCommchnlRecv_cases (by omega) hrecv
  · rw [hstream, List.length_nil] at hklen
    omega
  · rw [if_neg hs] at ho
    subst ho
    rw [if_pos (show STATUS_ERROR ≠ STATUS_SUCCESS by decide)] at hbody
    cases hbody
    exact ⟨rfl, rfl, ha⟩

/-! ## All calls -/

/-- The calls of `sx_rpc_api_receive_command` while there is something to receive; each of them takes
one byte at least, and the fuel is the number of bytes. -/
def receiveAll (maxBufferSize : Nat) : Nat → Received → Option (List Received)
  | 0, r => if r.stream = [] then some [] else none
  | fuel + 1, r =>
    if r.stream = [] then some [] else
    (sxRpcApiReceiveCommand maxBufferSize r).bind fun r' =>
      (receiveAll maxBufferSize fuel r').map (r' :: ·)

/-- The calls receive these commands: for each of them some calls with a first part of it and then one
with the whole command; no call touches the command after. -/
def Reassembled : List (List UInt8) → List Received → Prop
  | [], calls => calls = []
  | cmd :: cmds, calls => ∃ partials r calls', calls = partials ++ r :: calls' ∧
      (∀ p ∈ partials, p.status = STATUS_CMD_INCOMPLETE ∧ p.pos < cmd.length ∧
        p.buffer.take p.pos = cmd.take p.pos ∧ p.stream = cmd.drop p.pos ++ cmds.flatten) ∧
      r.status = STATUS_SUCCESS ∧ r.pos = 0 ∧ r.buffer.take cmd.length = cmd ∧ r.stream = cmds.flatten ∧
      Reassembled cmds calls'

/-- The commands that the calls hand over: what the buffer holds after each call that succeeds, as long
as its head says. -/
def delivered (calls : List Received) : List (List UInt8) :=
  (calls.filter fun r => r.status = STATUS_SUCCESS).map fun r =>
    r.buffer.take (CommandHead.ofBytes r.buffer).msgSize.toNat

/-- The calls with a first part of a command hand over nothing. -/
theorem delivered_partials {partials : List Received} (calls : List Received)
    (h : ∀ p ∈ partials, p.status = STATUS_CMD_INCOMPLETE) :
    delivered (partials ++ calls) = delivered calls := by
  have hnone : partials.filter (fun r => r.status = STATUS_SUCCESS) = [] := by
    apply List.filter_eq_nil_iff.mpr
    intro p hp
    rw [h p hp, decide_eq_true_iff]
    exact incomplete_ne_success
  unfold delivered
  rw [List.filter_append, hnone, List.nil_append]

/-- Calls that receive the commands hand over exactly these, in their order. -/
theorem Reassembled.delivered_eq {maxBufferSize : Nat} : ∀ {cmds : List (List UInt8)} {calls : List Received},
    (∀ cmd ∈ cmds, IsCommand maxBufferSize cmd) → Reassembled cmds calls → delivered calls = cmds
  | [], calls, _, h => by
    have hnil : calls = [] := h
    rw [hnil]
    rfl
  | cmd :: cmds, _, hcmds, h => by
    obtain ⟨partials, r, calls, rfl, hpartials, hs, -, hbuf, -, hrest⟩ := h
    have hcmd := hcmds cmd (List.mem_cons_self ..)
    have hmsg : (CommandHead.ofBytes r.buffer).msgSize.toNat = cmd.length := by
      have htake : r.buffer.take cmd.length = cmd.take cmd.length := by rw [hbuf, List.take_length]
      rw [CommandHead.ofBytes_congr htake hcmd.head_le]
      exact hcmd.size
    have ih := hrest.delivered_eq fun c hc => hcmds c (List.mem_cons_of_mem _ hc)
    rw [delivered_partials _ fun p hp => (hpartials p hp).1]
    unfold delivered at ih ⊢
    rw [List.filter_cons_of_pos (by simpa using hs), List.map_cons, hmsg, hbuf, ih]

/-- The calls from any position in the first command; by induction on the bytes that are left. -/
theorem receiveAll_spec {maxBufferSize : Nat} : ∀ (fuel : Nat) (r : Received) (cmd : List UInt8)
    (cmds : List (List UInt8)), (∀ c ∈ cmd :: cmds, IsCommand maxBufferSize c) →
    Partly maxBufferSize 0 cmd cmds.flatten r → r.pos < cmd.length → r.stream.length ≤ fuel →
    ∃ calls, receiveAll maxBufferSize fuel r = some calls ∧ Reassembled (cmd :: cmds) calls := by
  intro fuel
  induction fuel with
  | zero =>
    intro r cmd cmds _ h hpos hfuel
    rw [h.stream_eq, List.length_append, List.length_drop] at hfuel
    omega
  | succ fuel ih =>
    intro r cmd cmds hcmds h hpos hfuel
    have hlength : r.stream.length = cmd.length - r.pos + cmds.flatten.length := by
      rw [h.stream_eq, List.length_append, List.length_drop]
    have hne : r.stream ≠ [] := by
      intro hnil
      rw [hnil, List.length_nil] at hlength
      omega
    have hcmd := hcmds cmd (List.mem_cons_self ..)
    obtain ⟨r', hcall, hresult⟩ := sxRpcApiReceiveCommand_spec hcmd h
    unfold receiveAll
    rw [if_neg hne, hcall, Option.bind_some]
    cases hresult with
    | incomplete status partly more short =>
      have hlength' : r'.stream.length = cmd.length - r'.pos + cmds.flatten.length := by
        rw [partly.stream_eq, List.length_append, List.length_drop]
      obtain ⟨calls, hall, partials, rlast, calls', rfl, hpartials, hrest⟩ :=
        ih r' cmd cmds hcmds partly short (by omega)
      refine ⟨r' :: (partials ++ rlast :: calls'), by rw [hall, Option.map_some], r' :: partials, rlast,
        calls', rfl, ?_, hrest⟩
      intro p hp
      rcases List.mem_cons.mp hp with rfl | hp
      · exact ⟨status, short, partly.take_buffer, partly.stream_eq⟩
      · exact hpartials p hp
    | complete status pos buffer stream length flows =>
      have hdone : ∀ calls, Reassembled cmds calls → Reassembled (cmd :: cmds) (r' :: calls) := by
        intro calls hcalls
        refine ⟨[], r', calls, rfl, ?_, status, pos, buffer, stream, hcalls⟩
        intro p hp
        cases hp
      cases cmds with
      | nil =>
        -- the last command: there is nothing left to receive
        have hall : receiveAll maxBufferSize fuel r' = some [] := by
          have hnil : r'.stream = [] := stream
          cases fuel with
          | zero => exact if_pos hnil
          | succ fuel => exact if_pos hnil
        exact ⟨[r'], by rw [hall, Option.map_some], hdone [] rfl⟩
      | cons cmd' cmds =>
        have hcmd' := hcmds cmd' (List.mem_cons_of_mem _ (List.mem_cons_self ..))
        have hpartly : Partly maxBufferSize 0 cmd' cmds.flatten r' := by
          refine ⟨by omega, length, ?_, ?_, flows⟩
          · rw [pos]
            rfl
          · rw [pos, stream]
            rfl
        have hpos' : r'.pos < cmd'.length := by
          have hsize : 20 ≤ cmd'.length := hcmd'.head_le
          omega
        obtain ⟨calls, hall, hcalls⟩ := ih r' cmd' cmds
          (fun c hc => hcmds c (List.mem_cons_of_mem _ hc)) hpartly hpos' (by rw [stream]; omega)
        exact ⟨r' :: calls, by rw [hall, Option.map_some], hdone calls hcalls⟩

/-- **The calls yield the commands of the stream**: whatever the buffer holds at first and however the
channel splits the stream, each call leaves a first part of the current command or all of it, nothing
of the command after, and the commands are handed over in their order. -/
theorem receiveAll_reassembles (maxBufferSize : Nat) (cmds : List (List UInt8)) (buffer : List UInt8)
    (status : Int32) (more : List Nat) (hcmds : ∀ cmd ∈ cmds, IsCommand maxBufferSize cmd)
    (hbuffer : buffer.length = maxBufferSize) (hmore : cmds.flatten.length ≤ more.length) :
    ∃ calls, receiveAll maxBufferSize cmds.flatten.length
        ⟨status, buffer, 0, cmds.flatten, flowing more⟩ = some calls ∧
      Reassembled cmds calls ∧ delivered calls = cmds := by
  have hcalls : ∃ calls, receiveAll maxBufferSize cmds.flatten.length
      ⟨status, buffer, 0, cmds.flatten, flowing more⟩ = some calls ∧ Reassembled cmds calls := by
    cases cmds with
    | nil => exact ⟨[], rfl, rfl⟩
    | cons cmd cmds =>
      have hhead : 20 ≤ cmd.length := (hcmds cmd (List.mem_cons_self ..)).head_le
      exact receiveAll_spec _ _ cmd cmds hcmds
        ⟨Nat.zero_le _, hbuffer, rfl, rfl, more, rfl, hmore⟩ (by dsimp only; omega) (Nat.le_refl _)
  obtain ⟨calls, hall, hre⟩ := hcalls
  exact ⟨calls, hall, hre, hre.delivered_eq hcmds⟩

/-- A command without a body and one of three bytes, received in pieces of at most four. -/
def twoCommands : List (List UInt8) :=
  [(⟨7, 0, 20, 0, 0⟩ : CommandHead).bytes, (⟨8, 0, 23, 0, 0⟩ : CommandHead).bytes ++ [1, 2, 3]]

theorem twoCommands_isCommand : ∀ cmd ∈ twoCommands, IsCommand 32 cmd := by
  intro cmd hcmd
  rcases List.mem_cons.mp hcmd with rfl | hcmd
  · exact ⟨by decide, by decide, by decide⟩
  · rw [List.mem_singleton.mp hcmd]
    exact ⟨by decide, by decide, by decide⟩

theorem receiveAll_reassembles_two : (∀ cmd ∈ twoCommands, IsCommand 32 cmd) ∧
    ∃ calls, receiveAll 32 twoCommands.flatten.length
        ⟨0, List.replicate 32 0, 0, twoCommands.flatten, flowing (List.replicate 43 3)⟩ = some calls ∧
      Reassembled twoCommands calls ∧ delivered calls = twoCommands :=
  ⟨twoCommands_isCommand, receiveAll_reassembles 32 twoCommands (List.replicate 32 0) 0
    (List.replicate 43 3) twoCommands_isCommand (by decide) (by decide)⟩

end MlnxLib.SxRpc
