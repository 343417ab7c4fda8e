import Mathlib.Algebra.Ring.Nat

/-!
# Communication channels

Model of `cl_commchnl_send` and `cl_commchnl_recv` of `cl_commchnl.c`, which move bytes over a stream
socket.

What the kernel does is an input: the list of its answers to the calls that follow.  It moves at
least one byte, at most what it is asked for, and no more than an `int` can say; a `recv` waits while
its stream is empty.  A function returns `none` where it waits for ever or the list ends.

Principal results: `clCommchnlSend_spec`, `clCommchnlRecv_all`, `clCommchnlRecv_some` — without errors
a send hands over its buffer, a `recv_all` takes what it asks for, and any other receive takes at
least one byte of it, however the kernel splits the stream.
-/

set_option autoImplicit false

namespace MlnxLib.Complib

/-- What the kernel answers to a call of `send` or `recv`. -/
inductive IoAnswer where
  /-- The number of bytes, at least one: this many more, if it can. -/
  | bytes (more : Nat)
  /-- 0: the peer has closed the connection. -/
  | zero
  /-- `-1`. -/
  | error
  deriving DecidableEq, Repr

/-- The answers that move bytes. -/
def IoAnswer.moves : IoAnswer → Bool
  | .bytes _ => true
  | _ => false

/-- `INT_MAX`; `ret` is an `int`. -/
def INT_MAX : Nat := 2 ^ 31 - 1

/-- The number of bytes that a call moves of those it is asked for. -/
def moved (more want : Nat) : Nat := min (more + 1) (min want INT_MAX)

theorem moved_le (more want : Nat) : moved more want ≤ want := by
  unfold moved
  omega

theorem moved_pos (more : Nat) {want : Nat} (h : 0 < want) : 0 < moved more want := by
  have hint : 0 < INT_MAX := by decide
  unfold moved
  omega

/-- `cl_status_t`, of which these functions return three values. -/
inductive ClStatus where
  | success
  | error
  | disconnect
  deriving DecidableEq, Repr

/-! ## Sending -/

/-- What a send leaves: its status, `*buffer_size`, the bytes handed to the connection, and the
answers that are left. -/
structure SendOutcome where
  status : ClStatus
  bufferSize : Nat
  sent : List UInt8
  answers : List IoAnswer
  deriving DecidableEq, Repr

/-- The loop of `cl_commchnl_send`.  As an `int`, `bytes_left` may be negative; the kernel then still
moves no more than it could of the bytes that are left. -/
def sendLoop (buffer : List UInt8) : List IoAnswer → Nat → Option (Nat × List IoAnswer)
  | answers, bytesSent =>
    if bytesSent < buffer.length then
      match answers with
      | [] => none
      | .bytes more :: answers =>
        sendLoop buffer answers (bytesSent + moved more (buffer.length - bytesSent))
      | _ :: answers => some (bytesSent, answers)
    else some (bytesSent, answers)

/-- `cl_commchnl_send` of a buffer. -/
def clCommchnlSend (buffer : List UInt8) (answers : List IoAnswer) : Option SendOutcome :=
  (sendLoop buffer answers 0).map fun r =>
    ⟨if buffer.length - r.1 ≠ 0 then .error else .success, r.1, buffer.take r.1, r.2⟩

/-! ## Receiving -/

/-- What a receive leaves: its status, `*buffer_size` unless there was an error, the bytes written to
the buffer, the stream and the answers that are left. -/
structure RecvOutcome where
  status : ClStatus
  bufferSize : Nat
  received : List UInt8
  stream : List UInt8
  answers : List IoAnswer
  deriving DecidableEq, Repr

/-- One call of `recv`: what was received, what is left, or how it failed. -/
def recvCall (want : Nat) (received stream : List UInt8) : List IoAnswer → Option RecvOutcome
  | [] => none
  | .bytes more :: answers =>
    if stream = [] then none else
    let n := moved more want
    some ⟨.success, (received ++ stream.take n).length, received ++ stream.take n, stream.drop n, answers⟩
  | .zero :: answers => some ⟨.disconnect, 0, received, stream, answers⟩
  | .error :: answers => some ⟨.error, 0, received, stream, answers⟩

/-- The loop of `cl_commchnl_recv` with `recv_all`, after its first call; the fuel is the number of
bytes left, each call taking one at least. -/
def recvRest (bufferSize : Nat) : Nat → RecvOutcome → Option RecvOutcome
  | 0, r => some r
  | fuel + 1, r =>
    if r.status = .success ∧ r.received.length < bufferSize then
      (recvCall (bufferSize - r.received.length) r.received r.stream r.answers).bind fun r' =>
        recvRest bufferSize fuel r'
    else some r

/-- `cl_commchnl_recv`. -/
def clCommchnlRecv (recvAll : Bool) (bufferSize : Nat) (stream : List UInt8) (answers : List IoAnswer) :
    Option RecvOutcome :=
  (recvCall bufferSize [] stream answers).bind fun r =>
    if recvAll then recvRest bufferSize bufferSize r else some r

/-! ## Channels without errors -/

/-- Answers that move bytes. -/
abbrev flowing (more : List Nat) : List IoAnswer := more.map .bytes

/-- A channel without errors that moves this many bytes at least, in whatever pieces. -/
def Flows (n : Nat) (answers : List IoAnswer) : Prop :=
  ∃ more, answers = flowing more ∧ n ≤ more.length

theorem Flows.le {n n' : Nat} {answers : List IoAnswer} (h : Flows n answers) (hle : n' ≤ n) :
    Flows n' answers := by
  obtain ⟨more, hanswers, hn⟩ := h
  exact ⟨more, hanswers, Nat.le_trans hle hn⟩

/-- The loop sends what is left of its buffer. -/
theorem sendLoop_spec (buffer : List UInt8) : ∀ (more : List Nat) (bytesSent : Nat),
    bytesSent ≤ buffer.length → buffer.length - bytesSent ≤ more.length →
    ∃ more', more.length ≤ more'.length + (buffer.length - bytesSent) ∧
      sendLoop buffer (flowing more) bytesSent = some (buffer.length, flowing more') := by
  intro more
  induction more with
  | nil =>
    intro bytesSent hle hmore
    rw [List.length_nil] at hmore
    have hdone : bytesSent = buffer.length := by omega
    refine ⟨[], Nat.zero_le _, ?_⟩
    unfold sendLoop
    rw [if_neg (by omega), hdone]
  | cons m more ih =>
    intro bytesSent hle hmore
    rw [List.length_cons] at hmore
    by_cases hlt : bytesSent < buffer.length
    · have hpos := moved_pos m (show 0 < buffer.length - bytesSent by omega)
      have hmoved := moved_le m (buffer.length - bytesSent)
      obtain ⟨more', hge, hloop⟩ :=
        ih (bytesSent + moved m (buffer.length - bytesSent)) (by omega) (by omega)
      refine ⟨more', by rw [List.length_cons]; omega, ?_⟩
      unfold sendLoop
      rw [if_pos hlt]
      exact hloop
    · refine ⟨m :: more, by omega, ?_⟩
      unfold sendLoop
      rw [if_neg hlt, Nat.le_antisymm hle (by omega)]

/-- **A send hands over its buffer**, however the kernel splits it. -/
theorem clCommchnlSend_spec (buffer : List UInt8) {n : Nat} {answers : List IoAnswer}
    (h : Flows (buffer.length + n) answers) :
    ∃ answers', clCommchnlSend buffer answers = some ⟨.success, buffer.length, buffer, answers'⟩ ∧
      Flows n answers' := by
  obtain ⟨more, rfl, hmore⟩ := h
  obtain ⟨more', hge, hloop⟩ := sendLoop_spec buffer more 0 (Nat.zero_le _) (by omega)
  refine ⟨flowing more', ?_, more', rfl, by omega⟩
  unfold clCommchnlSend
  rw [hloop, Option.map_some]
  simp

/-- **One call of `recv`** takes a first part of what it asks for. -/
theorem recvCall_bytes (received rest : List UInt8) (more : Nat) (answers : List IoAnswer) {want : Nat}
    {bytes : List UInt8} (hwant : 0 < want) (hbytes : want ≤ bytes.length) :
    recvCall want received (bytes ++ rest) (.bytes more :: answers) =
      some ⟨.success, received.length + moved more want, received ++ bytes.take (moved more want),
        bytes.drop (moved more want) ++ rest, answers⟩ := by
  have hle := moved_le more want
  have hne : bytes ++ rest ≠ [] := by
    intro h
    rw [(List.append_eq_nil_iff.mp h).1, List.length_nil] at hbytes
    omega
  have htake : (bytes ++ rest).take (moved more want) = bytes.take (moved more want) :=
    List.take_append_of_le_length (by omega)
  have hdrop : (bytes ++ rest).drop (moved more want) = bytes.drop (moved more want) ++ rest :=
    List.drop_append_of_le_length (by omega)
  show (if bytes ++ rest = [] then none else _) = _
  rw [if_neg hne]
  rw [htake, hdrop, List.length_append, List.length_take, Nat.min_eq_left (by omega)]

/-- The loop receives what is left; by induction on the answers, each of which brings a byte. -/
theorem recvRest_spec (rest : List UInt8) : ∀ (more : List Nat) (fuel : Nat) (received bytes : List UInt8),
    bytes.length ≤ more.length → bytes.length ≤ fuel →
    ∃ more', more.length ≤ more'.length + bytes.length ∧
      recvRest (received.length + bytes.length) fuel
        ⟨.success, received.length, received, bytes ++ rest, flowing more⟩ =
      some ⟨.success, received.length + bytes.length, received ++ bytes, rest, flowing more'⟩ := by
  intro more
  induction more with
  | nil =>
    intro fuel received bytes hmore _
    have hnil : bytes = [] := List.eq_nil_of_length_eq_zero (Nat.le_zero.mp hmore)
    subst hnil
    refine ⟨[], Nat.le_refl _, ?_⟩
    cases fuel <;> simp [recvRest]
  | cons m more ih =>
    intro fuel received bytes hmore hfuel
    by_cases hnil : bytes = []
    · subst hnil
      refine ⟨m :: more, Nat.le_refl _, ?_⟩
      cases fuel <;> simp [recvRest]
    · have hpos : 0 < bytes.length := List.length_pos_iff.mpr hnil
      have hmoved := moved_pos m hpos
      have hle := moved_le m bytes.length
      have hcall := recvCall_bytes received rest m (flowing more) hpos (Nat.le_refl bytes.length)
      generalize hk : moved m bytes.length = k at *
      rw [List.length_cons] at hmore
      have hdrop : (bytes.drop k).length = bytes.length - k := List.length_drop
      have htake : (received ++ bytes.take k).length = received.length + k := by
        rw [List.length_append, List.length_take, Nat.min_eq_left hle]
      cases fuel with
      | zero => omega
      | succ fuel =>
        obtain ⟨more', hge, hrest⟩ := ih fuel (received ++ bytes.take k) (bytes.drop k) (by omega) (by omega)
        rw [List.append_assoc, List.take_append_drop, hdrop, htake,
          show received.length + k + (bytes.length - k) = received.length + bytes.length by omega] at hrest
        have hlt : received.length < received.length + bytes.length := by omega
        refine ⟨more', by rw [List.length_cons]; omega, ?_⟩
        show (if _ ∧ received.length < received.length + bytes.length then
          (recvCall (received.length + bytes.length - received.length) received (bytes ++ rest)
            (.bytes m :: flowing more)).bind _ else _) = _
        rw [if_pos ⟨rfl, hlt⟩, Nat.add_sub_cancel_left, hcall, Option.bind_some]
        exact hrest

/-- **A receive of all bytes** takes what it asks for, however the kernel splits it. -/
theorem clCommchnlRecv_all (bytes rest : List UInt8) {n : Nat} {answers : List IoAnswer}
    (hpos : 0 < bytes.length) (h : Flows (bytes.length + n) answers) :
    ∃ answers', clCommchnlRecv true bytes.length (bytes ++ rest) answers =
        some ⟨.success, bytes.length, bytes, rest, answers'⟩ ∧ Flows n answers' := by
  obtain ⟨more, rfl, hmore⟩ := h
  cases more with
  | nil =>
    rw [List.length_nil] at hmore
    omega
  | cons m more =>
    have hmoved := moved_pos m hpos
    have hle := moved_le m bytes.length
    have hcall := recvCall_bytes [] rest m (flowing more) hpos (Nat.le_refl bytes.length)
    generalize hk : moved m bytes.length = k at *
    have htake : (bytes.take k).length = k := by rw [List.length_take, Nat.min_eq_left hle]
    have hdrop : (bytes.drop k).length = bytes.length - k := List.length_drop
    rw [List.length_cons] at hmore
    obtain ⟨more', hge, hrest⟩ := recvRest_spec rest more bytes.length (bytes.take k)
      (bytes.drop k) (by omega) (by omega)
    rw [List.take_append_drop, hdrop, htake, Nat.add_sub_cancel' hle] at hrest
    refine ⟨flowing more', ?_, more', rfl, by omega⟩
    unfold clCommchnlRecv
    show (recvCall bytes.length [] (bytes ++ rest) (.bytes m :: flowing more)).bind _ = _
    rw [hcall, Option.bind_some, if_pos rfl, List.nil_append, List.length_nil, Nat.zero_add]
    exact hrest

/-- **Any other receive** takes a first part of what it asks for, and at least one byte. -/
theorem clCommchnlRecv_some (rest : List UInt8) {want n : Nat} {bytes : List UInt8} {answers : List IoAnswer}
    (hwant : 0 < want) (hbytes : want ≤ bytes.length) (h : Flows (bytes.length + n) answers) :
    ∃ k answers', 0 < k ∧ k ≤ want ∧ clCommchnlRecv false want (bytes ++ rest) answers =
        some ⟨.success, k, bytes.take k, bytes.drop k ++ rest, answers'⟩ ∧
      Flows (bytes.length - k + n) answers' := by
  obtain ⟨more, rfl, hmore⟩ := h
  cases more with
  | nil =>
    rw [List.length_nil] at hmore
    omega
  | cons m more =>
    have hpos := moved_pos m hwant
    have hle := moved_le m want
    rw [List.length_cons] at hmore
    refine ⟨moved m want, flowing more, hpos, hle, ?_, more, rfl, by omega⟩
    have hcall := recvCall_bytes [] rest m (flowing more) hwant hbytes
    rw [List.length_nil, Nat.zero_add, List.nil_append] at hcall
    exact congrArg (Option.bind · _) hcall

/-- What a receive of no more than is there can come to, whatever the kernel answers. -/
theorem clCommchnlRecv_cases {want : Nat} {stream : List UInt8} {answers : List IoAnswer} {o : RecvOutcome}
    (hwant : 0 < want) (h : clCommchnlRecv false want stream answers = some o) :
    (∀ a ∈ o.answers, a ∈ answers) ∧
      ((∃ k, 0 < k ∧ k ≤ want ∧ k ≤ stream.length ∧
          o = ⟨.success, k, stream.take k, stream.drop k, o.answers⟩) ∨
        (o.status ≠ .success ∧ o.stream = stream ∧ ∃ a ∈ answers, a.moves = false)) := by
  have hcall : recvCall want [] stream answers = some o := by
    unfold clCommchnlRecv at h
    obtain ⟨o', hcall, ho'⟩ := Option.bind_eq_some_iff.mp h
    rw [if_neg (by decide)] at ho'
    cases ho'
    exact hcall
  match answers with
  | [] => cases hcall
  | .zero :: answers =>
    cases hcall
    refine ⟨fun a ha => List.mem_cons_of_mem _ ha, Or.inr ⟨?_, rfl, .zero, List.mem_cons_self .., rfl⟩⟩
    exact ClStatus.noConfusion
  | .error :: answers =>
    cases hcall
    refine ⟨fun a ha => List.mem_cons_of_mem _ ha, Or.inr ⟨?_, rfl, .error, List.mem_cons_self .., rfl⟩⟩
    exact ClStatus.noConfusion
  | .bytes more :: answers =>
    rw [recvCall] at hcall
    split at hcall
    · cases hcall
    · rename_i hne
      cases hcall
      have hpos := moved_pos more hwant
      have hle := moved_le more want
      have hlen : 0 < stream.length := List.length_pos_iff.mpr hne
      refine ⟨fun a ha => List.mem_cons_of_mem _ ha,
        Or.inl ⟨min (moved more want) stream.length, by omega, by omega, by omega, ?_⟩⟩
      rw [List.nil_append, List.length_take, List.take_eq_take_min, List.drop_eq_drop_min]

/-- A receive that succeeds has used an answer that moves bytes. -/
theorem clCommchnlRecv_moves {want : Nat} {stream : List UInt8} {answers : List IoAnswer} {o : RecvOutcome}
    (h : clCommchnlRecv false want stream answers = some o) (hs : o.status = .success) :
    ∀ a ∈ answers, a.moves = true ∨ a ∈ o.answers := by
  unfold clCommchnlRecv at h
  obtain ⟨o', hcall, ho'⟩ := Option.bind_eq_some_iff.mp h
  rw [if_neg (by decide)] at ho'
  cases ho'
  match answers with
  | [] => cases hcall
  | .zero :: answers =>
    cases hcall
    exact ClStatus.noConfusion hs
  | .error :: answers =>
    cases hcall
    exact ClStatus.noConfusion hs
  | .bytes more :: answers =>
    rw [recvCall] at hcall
    split at hcall
    · cases hcall
    · cases hcall
      intro a ha
      rcases List.mem_cons.mp ha with rfl | ha
      · exact Or.inl rfl
      · exact Or.inr ha

end MlnxLib.Complib
