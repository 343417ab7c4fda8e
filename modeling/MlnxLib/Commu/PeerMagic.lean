import MlnxLib.Commu.Tcp

/-!
# The magic of the peer

A connection learns the magic of its peer from the headers it receives: `INVALID_MAGIC` says that none
has been learned, and `validate_metadata_info` stores the trailer of a header before it looks at the
message type.

* `Incoming` — a received header, with the size that its receiver takes at most.
* `Incoming.Fits` — the checks that do not look at the peer.
* `afterHeaders`, `acceptedHeaders` — the connection after a sequence of headers, and those that were accepted.

Principal results: `validate_err_iff`, `validate_snd` — when a header is accepted, and what it leaves;
`single_peer_iff` — when all accepted headers carry one trailer; `no_trace_iff` — when a rejected header
has no effect.
-/

set_option autoImplicit false

namespace MlnxLib.Commu

/-! ## One header -/

/-- A received header, and the payload size that its receiver takes at most. -/
structure Incoming where
  metadata : MsgMetadata
  maxPaylodSize : Nat
  deriving DecidableEq, Repr

/-- `validate_metadata_info` of a header. -/
def Incoming.validate (x : Incoming) (info : HandleInfo) : Int × HandleInfo :=
  validateMetadataInfo x.metadata x.maxPaylodSize info

/-- The checks before that of the magic. -/
structure Incoming.Checked (x : Incoming) : Prop where
  version : x.metadata.version = MSG_VERSION
  fits : x.metadata.payloadSize.toNat ≤ x.maxPaylodSize
  nonempty : x.metadata.payloadSize ≠ 0

instance (x : Incoming) : Decidable x.Checked :=
  decidable_of_iff (x.metadata.version = MSG_VERSION ∧ x.metadata.payloadSize.toNat ≤ x.maxPaylodSize ∧
    x.metadata.payloadSize ≠ 0) ⟨fun h => ⟨h.1, h.2.1, h.2.2⟩, fun h => ⟨h.version, h.fits, h.nonempty⟩⟩

/-- The checks that do not look at the peer: those before the magic, and the message type. -/
def Incoming.Fits (x : Incoming) (msgType : UInt16) : Prop :=
  x.Checked ∧ x.metadata.msgType.toUInt16 = msgType

instance (x : Incoming) (msgType : UInt16) : Decidable (x.Fits msgType) :=
  inferInstanceAs (Decidable (_ ∧ _))

/-- The connection has learned no magic. -/
def HandleInfo.Unlearned (info : HandleInfo) : Prop := info.socektInfo.peerMagic = INVALID_MAGIC

instance (info : HandleInfo) : Decidable info.Unlearned := inferInstanceAs (Decidable (_ = _))

/-- The connection with a magic of its peer. -/
def HandleInfo.learn (info : HandleInfo) (magic : UInt32) : HandleInfo :=
  { info with socektInfo := { info.socektInfo with peerMagic := magic } }

@[simp] theorem learn_connInfo (info : HandleInfo) (magic : UInt32) :
    (info.learn magic).connInfo = info.connInfo := rfl

@[simp] theorem learn_isSinglePeer (info : HandleInfo) (magic : UInt32) :
    (info.learn magic).socektInfo.isSinglePeer = info.socektInfo.isSinglePeer := rfl

@[simp] theorem learn_peerMagic (info : HandleInfo) (magic : UInt32) :
    (info.learn magic).socektInfo.peerMagic = magic := rfl

/-- To learn that nothing is known changes nothing. -/
theorem HandleInfo.Unlearned.learn_invalid {info : HandleInfo} (h : info.Unlearned) :
    info.learn INVALID_MAGIC = info := by
  unfold HandleInfo.learn
  rw [← show info.socektInfo.peerMagic = INVALID_MAGIC from h]

theorem HandleInfo.Unlearned.learn_eq_iff {info : HandleInfo} (h : info.Unlearned) {magic : UInt32} :
    info.learn magic = info ↔ magic = INVALID_MAGIC := by
  constructor
  · intro heq
    have hmagic : magic = info.socektInfo.peerMagic :=
      congrArg (fun info : HandleInfo => info.socektInfo.peerMagic) heq
    rw [hmagic]
    exact h
  · rintro rfl
    exact h.learn_invalid

section

variable {x : Incoming} {info : HandleInfo}

theorem validateMsgType_snd (m : MsgMetadata) (info : HandleInfo) : (validateMsgType m info).2 = info := by
  unfold validateMsgType
  split <;> rfl

theorem validateMsgType_err_iff {m : MsgMetadata} :
    (validateMsgType m info).1 = 0 ↔ m.msgType.toUInt16 = info.connInfo.msgType := by
  unfold validateMsgType
  split
  · rename_i hne
    exact iff_of_false (show EBADE ≠ 0 by decide) hne
  · rename_i heq
    exact iff_of_true rfl (not_not.mp heq)

/-- A header that fails a check before the magic. -/
theorem validate_of_not_checked (h : ¬x.Checked) :
    (x.validate info).1 ≠ 0 ∧ (x.validate info).2 = info := by
  unfold Incoming.validate validateMetadataInfo
  split
  · exact ⟨show EIO ≠ 0 by decide, rfl⟩
  · rename_i hversion
    split
    · exact ⟨show EOVERFLOW ≠ 0 by decide, rfl⟩
    · rename_i hsize
      rw [not_or, Nat.not_lt] at hsize
      exact absurd ⟨not_not.mp hversion, hsize.1, hsize.2⟩ h

/-- After the checks before the magic. -/
theorem validate_of_checked (h : x.Checked) : x.validate info =
    if info.Unlearned then validateMsgType x.metadata (info.learn x.metadata.trailer)
    else if info.socektInfo.isSinglePeer ≠ 0 ∧ info.socektInfo.peerMagic ≠ x.metadata.trailer then
      (EBADE, info)
    else validateMsgType x.metadata info := by
  unfold Incoming.validate validateMetadataInfo
  rw [if_neg (not_not.mpr h.version), if_neg (not_or.mpr ⟨Nat.not_lt.mpr h.fits, h.nonempty⟩)]
  rfl

/-- The connection takes a header with this trailer. -/
def HandleInfo.Trusts (info : HandleInfo) (trailer : UInt32) : Prop :=
  info.Unlearned ∨ info.socektInfo.isSinglePeer = 0 ∨ info.socektInfo.peerMagic = trailer

instance (info : HandleInfo) (trailer : UInt32) : Decidable (info.Trusts trailer) :=
  inferInstanceAs (Decidable (_ ∨ _ ∨ _))

/-- **When a header is accepted.** -/
theorem validate_err_iff : (x.validate info).1 = 0 ↔
    x.Fits info.connInfo.msgType ∧ info.Trusts x.metadata.trailer := by
  by_cases hchecked : x.Checked
  · rw [validate_of_checked hchecked]
    unfold Incoming.Fits HandleInfo.Trusts
    by_cases hmagic : info.Unlearned
    · rw [if_pos hmagic, validateMsgType_err_iff, learn_connInfo]
      simp [hchecked, hmagic]
    · rw [if_neg hmagic]
      by_cases hother : info.socektInfo.isSinglePeer ≠ 0 ∧ info.socektInfo.peerMagic ≠ x.metadata.trailer
      · rw [if_pos hother]
        simp [hmagic, hother, EBADE]
      · rw [if_neg hother, validateMsgType_err_iff]
        rw [not_and_or, not_not, not_not] at hother
        simp [hchecked, hmagic, hother]
  · exact iff_of_false (validate_of_not_checked hchecked).1 fun h => hchecked h.1.1

/-- **What a header leaves**: a connection without a magic learns that of every header that passes the
checks before it, whatever its message type. -/
theorem validate_snd : (x.validate info).2 =
    if x.Checked ∧ info.Unlearned then info.learn x.metadata.trailer else info := by
  by_cases hchecked : x.Checked
  · rw [validate_of_checked hchecked]
    by_cases hmagic : info.Unlearned
    · rw [if_pos hmagic, if_pos ⟨hchecked, hmagic⟩, validateMsgType_snd]
    · rw [if_neg hmagic, if_neg (fun h : x.Checked ∧ info.Unlearned => hmagic h.2)]
      split
      · rfl
      · exact validateMsgType_snd ..
  · rw [if_neg fun h => hchecked h.1]
    exact (validate_of_not_checked hchecked).2

end

/-! ## Sequences of headers -/

/-- The connection after a sequence of headers. -/
def afterHeaders (info : HandleInfo) (xs : List Incoming) : HandleInfo :=
  xs.foldl (fun info x => (x.validate info).2) info

/-- The headers that are accepted, in their order. -/
def acceptedHeaders : HandleInfo → List Incoming → List Incoming
  | _, [] => []
  | info, x :: xs =>
    let r := x.validate info
    if r.1 = 0 then x :: acceptedHeaders r.2 xs else acceptedHeaders r.2 xs

section

variable {info : HandleInfo} {x : Incoming} {xs : List Incoming}

theorem accepted_cons_pos (h : (x.validate info).1 = 0) :
    acceptedHeaders info (x :: xs) = x :: acceptedHeaders (x.validate info).2 xs := if_pos h

theorem accepted_cons_neg (h : (x.validate info).1 ≠ 0) :
    acceptedHeaders info (x :: xs) = acceptedHeaders (x.validate info).2 xs := if_neg h

/-- Headers that do not say a magic are accepted one by one, and the connection is as before. -/
theorem accepted_unlearned (h : info.Unlearned) (rest : List Incoming) : ∀ (xs : List Incoming),
    (∀ x ∈ xs, x.Checked → x.metadata.trailer = INVALID_MAGIC) →
    acceptedHeaders info (xs ++ rest) = xs.filter (·.Fits info.connInfo.msgType) ++ acceptedHeaders info rest
  | [], _ => rfl
  | x :: xs, hxs => by
    have ih := accepted_unlearned h rest xs fun y hy => hxs y (List.mem_cons_of_mem x hy)
    have hsame : (x.validate info).2 = info := by
      rw [validate_snd]
      split
      · rename_i hchecked
        rw [hxs x (List.mem_cons_self ..) hchecked.1]
        exact h.learn_invalid
      · rfl
    by_cases hfits : x.Fits info.connInfo.msgType
    · have hok : (x.validate info).1 = 0 := validate_err_iff.mpr ⟨hfits, Or.inl h⟩
      rw [List.cons_append, accepted_cons_pos hok, hsame, ih, List.filter_cons_of_pos (by simpa using hfits)]
      rfl
    · have hbad : (x.validate info).1 ≠ 0 := fun hok => hfits (validate_err_iff.mp hok).1
      rw [List.cons_append, accepted_cons_neg hbad, hsame, ih, List.filter_cons_of_neg (by simpa using hfits)]

/-- A single peer that is known is the only one that is accepted. -/
theorem accepted_learned (hmagic : ¬info.Unlearned) (hsingle : info.socektInfo.isSinglePeer ≠ 0) :
    ∀ (xs : List Incoming), acceptedHeaders info xs = xs.filter fun x =>
      x.Fits info.connInfo.msgType ∧ info.socektInfo.peerMagic = x.metadata.trailer
  | [] => rfl
  | x :: xs => by
    have ih := accepted_learned hmagic hsingle xs
    have hsame : (x.validate info).2 = info := by
      rw [validate_snd]
      exact if_neg fun h => hmagic h.2
    have hiff : (x.validate info).1 = 0 ↔
        x.Fits info.connInfo.msgType ∧ info.socektInfo.peerMagic = x.metadata.trailer := by
      rw [validate_err_iff]
      unfold HandleInfo.Trusts
      rw [or_iff_right hmagic, or_iff_right hsingle]
    by_cases hok : (x.validate info).1 = 0
    · rw [accepted_cons_pos hok, hsame, ih, List.filter_cons_of_pos (by simpa using hiff.mp hok)]
    · rw [accepted_cons_neg hok, hsame, ih, List.filter_cons_of_neg (by simpa using fun h => hok (hiff.mpr h))]

/-- The first header that says a magic decides which ones are accepted from there on. -/
theorem accepted_named (h : info.Unlearned) (hsingle : info.socektInfo.isSinglePeer ≠ 0)
    (hchecked : x.Checked) (hnamed : x.metadata.trailer ≠ INVALID_MAGIC) (xs : List Incoming) :
    acceptedHeaders info (x :: xs) = (x :: xs).filter fun y =>
      y.Fits info.connInfo.msgType ∧ x.metadata.trailer = y.metadata.trailer := by
  have hafter : (x.validate info).2 = info.learn x.metadata.trailer := by
    rw [validate_snd]
    exact if_pos ⟨hchecked, h⟩
  have hlearned : ¬(info.learn x.metadata.trailer).Unlearned := hnamed
  have hrest := accepted_learned hlearned hsingle xs
  rw [learn_connInfo, learn_peerMagic] at hrest
  by_cases hfits : x.Fits info.connInfo.msgType
  · have hok : (x.validate info).1 = 0 := validate_err_iff.mpr ⟨hfits, Or.inl h⟩
    rw [accepted_cons_pos hok, hafter, hrest, List.filter_cons_of_pos (by simpa using hfits)]
  · have hbad : (x.validate info).1 ≠ 0 := fun hok => hfits (validate_err_iff.mp hok).1
    rw [accepted_cons_neg hbad, hafter, hrest, List.filter_cons_of_neg (by simp [hfits])]

end

/-! ## One peer -/

/-- All headers carry one trailer. -/
def OneTrailer (xs : List Incoming) : Prop :=
  ∀ x ∈ xs, ∀ y ∈ xs, x.metadata.trailer = y.metadata.trailer

/-- `m` is the first header that passes the checks before the magic with a trailer other than
`INVALID_MAGIC`. -/
structure FirstNamed (xs before : List Incoming) (m : Incoming) (rest : List Incoming) : Prop where
  split : xs = before ++ m :: rest
  before : ∀ x ∈ before, x.Checked → x.metadata.trailer = INVALID_MAGIC
  checked : m.Checked
  named : m.metadata.trailer ≠ INVALID_MAGIC

/-- Before a header says a magic, or none does. -/
theorem firstNamed_or_unnamed : ∀ (xs : List Incoming),
    (∀ x ∈ xs, x.Checked → x.metadata.trailer = INVALID_MAGIC) ∨ ∃ before m rest, FirstNamed xs before m rest
  | [] => Or.inl fun x hx => by cases hx
  | x :: xs => by
    by_cases hx : x.Checked ∧ x.metadata.trailer ≠ INVALID_MAGIC
    · exact Or.inr ⟨[], x, xs, rfl, List.forall_mem_nil _, hx.1, hx.2⟩
    · rw [not_and, not_not] at hx
      rcases firstNamed_or_unnamed xs with hall | ⟨before, m, rest, h⟩
      · exact Or.inl (List.forall_mem_cons.mpr ⟨hx, hall⟩)
      · exact Or.inr ⟨x :: before, m, rest, by rw [h.split, List.cons_append],
          List.forall_mem_cons.mpr ⟨hx, h.before⟩, h.checked, h.named⟩

/-- **No header without a magic is accepted before the magic is learned**, or none is accepted after:
the first header with a magic is preceded by none that fits, or followed by none of its own magic that
fits. -/
def MagicFirst (msgType : UInt16) (xs : List Incoming) : Prop :=
  ∀ before m rest, FirstNamed xs before m rest →
    (∀ x ∈ before, ¬x.Fits msgType) ∨
    ∀ x ∈ m :: rest, x.Fits msgType → x.metadata.trailer ≠ m.metadata.trailer

section

variable {info : HandleInfo} {xs before rest : List Incoming} {m : Incoming}

/-- What is accepted, with a header that says a magic. -/
theorem accepted_of_firstNamed (h : info.Unlearned) (hsingle : info.socektInfo.isSinglePeer ≠ 0)
    (hfirst : FirstNamed xs before m rest) : acceptedHeaders info xs =
      before.filter (·.Fits info.connInfo.msgType) ++ (m :: rest).filter fun x =>
        x.Fits info.connInfo.msgType ∧ m.metadata.trailer = x.metadata.trailer := by
  rw [hfirst.split, accepted_unlearned h _ before hfirst.before,
    accepted_named h hsingle hfirst.checked hfirst.named]

theorem oneTrailer_iff_of_firstNamed (h : info.Unlearned) (hsingle : info.socektInfo.isSinglePeer ≠ 0)
    (hfirst : FirstNamed xs before m rest) : OneTrailer (acceptedHeaders info xs) ↔
      (∀ x ∈ before, ¬x.Fits info.connInfo.msgType) ∨
      ∀ x ∈ m :: rest, x.Fits info.connInfo.msgType → x.metadata.trailer ≠ m.metadata.trailer := by
  have hmem : ∀ x, x ∈ acceptedHeaders info xs ↔ (x ∈ before ∧ x.Fits info.connInfo.msgType) ∨
      x ∈ m :: rest ∧ x.Fits info.connInfo.msgType ∧ m.metadata.trailer = x.metadata.trailer := by
    intro x
    rw [accepted_of_firstNamed h hsingle hfirst]
    simp only [List.mem_append, List.mem_filter, decide_eq_true_eq]
  -- the headers before say no magic, and those accepted after say that of `m`
  have hinvalid : ∀ x ∈ before, x.Fits info.connInfo.msgType → x.metadata.trailer = INVALID_MAGIC :=
    fun x hx hfits => hfirst.before x hx hfits.1
  constructor
  · intro hone
    by_contra hboth
    rw [not_or] at hboth
    push Not at hboth
    obtain ⟨⟨x, hx, hxfits⟩, y, hy, hyfits, heq⟩ := hboth
    have hxy := hone x ((hmem x).mpr (Or.inl ⟨hx, hxfits⟩)) y
      ((hmem y).mpr (Or.inr ⟨hy, hyfits, heq.symm⟩))
    rw [hinvalid x hx hxfits, heq] at hxy
    exact hfirst.named hxy.symm
  · rintro (hnone | hnone)
    · have hlater : ∀ x ∈ acceptedHeaders info xs, m.metadata.trailer = x.metadata.trailer := by
        intro x hx
        rcases (hmem x).mp hx with ⟨hb, hfits⟩ | ⟨-, -, heq⟩
        · exact absurd hfits (hnone x hb)
        · exact heq
      intro x hx y hy
      rw [← hlater x hx, ← hlater y hy]
    · have hearlier : ∀ x ∈ acceptedHeaders info xs, x.metadata.trailer = INVALID_MAGIC := by
        intro x hx
        rcases (hmem x).mp hx with ⟨hb, hfits⟩ | ⟨hr, hfits, heq⟩
        · exact hinvalid x hb hfits
        · exact absurd heq.symm (hnone x hr hfits)
      intro x hx y hy
      rw [hearlier x hx, hearlier y hy]

/-- **One peer.**  A connection with a single peer that has learned no magic accepts headers of one
trailer only, exactly when it does not accept a header whose trailer is `INVALID_MAGIC` before it
accepts others. -/
theorem single_peer_iff (info : HandleInfo) (hsingle : info.socektInfo.isSinglePeer ≠ 0)
    (hmagic : info.Unlearned) (xs : List Incoming) :
    OneTrailer (acceptedHeaders info xs) ↔ MagicFirst info.connInfo.msgType xs := by
  constructor
  · intro hone before m rest hfirst
    exact (oneTrailer_iff_of_firstNamed hmagic hsingle hfirst).mp hone
  · intro h
    rcases firstNamed_or_unnamed xs with hall | ⟨before, m, rest, hfirst⟩
    · have hacc := accepted_unlearned hmagic [] xs hall
      rw [List.append_nil, show acceptedHeaders info [] = [] from rfl, List.append_nil] at hacc
      have hinvalid : ∀ x ∈ acceptedHeaders info xs, x.metadata.trailer = INVALID_MAGIC := by
        intro x hx
        rw [hacc, List.mem_filter, decide_eq_true_eq] at hx
        exact hall x hx.1 hx.2.1
      intro x hx y hy
      rw [hinvalid x hx, hinvalid y hy]
    · exact (oneTrailer_iff_of_firstNamed hmagic hsingle hfirst).mpr (h before m rest hfirst)

end

/-- A connection of a client to a server, for messages of type 3. -/
def sampleConnection : HandleInfo := (⟨3, ⟨0, 0⟩, ⟨80, 7⟩, 1, 11⟩ : NewInfo).fill 7 .empty

/-- A header with this trailer and type, for a payload of four bytes. -/
def sampleIncoming (trailer : UInt32) (msgType : UInt8) : Incoming := ⟨⟨4, trailer, MSG_VERSION, msgType⟩, 100⟩

theorem single_peer_iff_sample :
    OneTrailer (acceptedHeaders sampleConnection [sampleIncoming 5 3, sampleIncoming 6 3]) ↔
      MagicFirst 3 [sampleIncoming 5 3, sampleIncoming 6 3] :=
  single_peer_iff sampleConnection (by decide) (by decide) [sampleIncoming 5 3, sampleIncoming 6 3]

/-- **The peer that sends the magic of no peer** is accepted and not remembered: another one is accepted
after it. -/
theorem invalid_magic_two_peers :
    ¬∀ (info : HandleInfo), info.socektInfo.isSinglePeer ≠ 0 → info.Unlearned →
      ∀ xs, OneTrailer (acceptedHeaders info xs) := by
  intro h
  have hone := h sampleConnection (by decide) (by decide) [sampleIncoming INVALID_MAGIC 3, sampleIncoming 5 3]
  have hacc : acceptedHeaders sampleConnection [sampleIncoming INVALID_MAGIC 3, sampleIncoming 5 3] =
      [sampleIncoming INVALID_MAGIC 3, sampleIncoming 5 3] := by decide
  rw [hacc] at hone
  have heq := hone _ (List.mem_cons_self ..) _ (List.mem_cons_of_mem _ (List.mem_cons_self ..))
  exact absurd heq (by decide)

/-! ## Rejected headers -/

/-- A rejected header leaves the connection as it was, and the headers accepted after any part of the
sequence are those accepted after the accepted ones of that part. -/
structure NoTrace (info : HandleInfo) (xs : List Incoming) : Prop where
  unchanged : ∀ before x rest, xs = before ++ x :: rest → (x.validate (afterHeaders info before)).1 ≠ 0 →
    (x.validate (afterHeaders info before)).2 = afterHeaders info before
  later : ∀ before rest, xs = before ++ rest →
    acceptedHeaders (afterHeaders info before) rest =
      acceptedHeaders (afterHeaders info (acceptedHeaders info before)) rest

/-- **A header of another message type sets the magic**: it passes the checks before the magic, none has
been learned, and it says one. -/
def Incoming.Imposes (x : Incoming) (info : HandleInfo) : Prop :=
  x.Checked ∧ info.Unlearned ∧ x.metadata.trailer ≠ INVALID_MAGIC ∧
    x.metadata.msgType.toUInt16 ≠ info.connInfo.msgType

instance (x : Incoming) (info : HandleInfo) : Decidable (x.Imposes info) :=
  inferInstanceAs (Decidable (_ ∧ _ ∧ _ ∧ _))

/-- **When a rejected header leaves the connection as it was.** -/
theorem rejected_unchanged_iff (x : Incoming) (info : HandleInfo) :
    ((x.validate info).1 ≠ 0 → (x.validate info).2 = info) ↔ ¬x.Imposes info := by
  rw [validate_snd]
  by_cases hlearns : x.Checked ∧ info.Unlearned
  · rw [if_pos hlearns, hlearns.2.learn_eq_iff]
    have herr : (x.validate info).1 = 0 ↔ x.metadata.msgType.toUInt16 = info.connInfo.msgType := by
      rw [validate_err_iff]
      unfold Incoming.Fits HandleInfo.Trusts
      simp [hlearns]
    rw [ne_eq, herr]
    unfold Incoming.Imposes
    tauto
  · rw [if_neg hlearns]
    exact iff_of_true (fun _ => rfl) fun h => hlearns ⟨h.1, h.2.1⟩

/-- Without such headers, the accepted ones alone leave the connection that all of them leave. -/
theorem after_accepted : ∀ (xs : List Incoming) (info : HandleInfo),
    (∀ before x rest, xs = before ++ x :: rest → ¬x.Imposes (afterHeaders info before)) →
    afterHeaders info xs = afterHeaders info (acceptedHeaders info xs)
  | [], _, _ => rfl
  | x :: xs, info, h => by
    have hx : ¬x.Imposes info := h [] x xs rfl
    have ih := after_accepted xs (x.validate info).2 fun before y rest hsplit =>
      h (x :: before) y rest (by rw [hsplit, List.cons_append])
    by_cases hok : (x.validate info).1 = 0
    · rw [accepted_cons_pos hok]
      exact ih
    · have hsame : (x.validate info).2 = info := (rejected_unchanged_iff x info).mpr hx hok
      rw [accepted_cons_neg hok]
      rw [hsame] at ih ⊢
      show afterHeaders (x.validate info).2 xs = _
      rw [hsame, ih]

/-- **Rejected headers.**  In every sequence, the rejected headers leave no trace exactly when none of
them sets the magic of a connection that has none. -/
theorem no_trace_iff (info : HandleInfo) (xs : List Incoming) :
    NoTrace info xs ↔ ∀ before x rest, xs = before ++ x :: rest → ¬x.Imposes (afterHeaders info before) := by
  constructor
  · intro h before x rest hsplit
    exact (rejected_unchanged_iff x _).mp (h.unchanged before x rest hsplit)
  · intro h
    refine ⟨fun before x rest hsplit => (rejected_unchanged_iff x _).mpr (h before x rest hsplit), ?_⟩
    intro before rest hsplit
    have hbefore := after_accepted before info fun before' x rest' hsplit' => by
      refine h before' x (rest' ++ rest) ?_
      rw [hsplit, hsplit', List.append_assoc, List.cons_append]
    rw [hbefore]

/-- **A header of another type locks the peer out**: it is rejected, and then that of the peer is. -/
theorem rejected_header_leaves_trace :
    ¬∀ (info : HandleInfo) (xs : List Incoming), NoTrace info xs := by
  intro h
  have hlater := (h sampleConnection [sampleIncoming 6 4, sampleIncoming 5 3]).later [sampleIncoming 6 4]
    [sampleIncoming 5 3] rfl
  exact absurd hlater (by decide)

end MlnxLib.Commu
