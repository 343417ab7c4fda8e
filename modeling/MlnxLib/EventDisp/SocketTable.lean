import MlnxLib.EventDisp.Defs

/-!
# The table of open sockets

What each call of `lib_event_disp.c` does to `event_disp_fds` and to the descriptors that the library has
open.

* `Sockets` — the table holds each descriptor that the library has open, once.
* `Table` — with it, the counter of connections bounds the descriptors.
* `OpenStops` — `event_disp_api_open` fails at its checks, before it clears the structure of its caller.

Principal results: `eventDispApiOpen_sockets`, `closeConnection_spec`, `eventDispApiDeinit_spec` — what is
left by an open that gets past its checks, by a close, and by a deinit; `callResult_table` — each call
keeps the table.
-/

set_option autoImplicit false

namespace MlnxLib.EventDisp

open SlotTable

/-! ## The invariant -/

/-- The table holds the descriptors that the library has open. -/
structure Sockets (s : Disp) : Prop where
  distinct : Distinct (-1) s.fds
  used : used (-1) s.fds = s.held
  nonneg : ∀ fd ∈ s.held, 0 ≤ fd

/-- All but the sockets is as before. -/
def Frame (s s' : Disp) : Prop := s'.con = s.con ∧ s'.init = s.init ∧ s'.db = s.db

/-- The table, the counter and the initialisation flag fit together. -/
structure Table (s : Disp) : Prop extends Sockets s where
  card : s.held.card ≤ 3 * s.con
  con_le : s.con ≤ EVENT_DISP_MAX_CON
  down : s.init = false → s.held = ∅

theorem Frame.refl (s : Disp) : Frame s s := ⟨rfl, rfl, rfl⟩

theorem Frame.trans {s₁ s₂ s₃ : Disp} (h : Frame s₁ s₂) (h' : Frame s₂ s₃) : Frame s₁ s₃ :=
  ⟨h'.1.trans h.1, h'.2.1.trans h.2.1, h'.2.2.trans h.2.2⟩

section

variable {s : Disp} {fd : Int}

theorem Sockets.ne_neg_one (h : Sockets s) (hfd : fd ∈ s.held) : fd ≠ -1 := by
  have := h.nonneg fd hfd
  omega

/-- A descriptor is in the table if and only if the library has it open. -/
theorem Sockets.mem_held (h : Sockets s) : fd ∈ s.held ↔ fd ≠ -1 ∧ ∃ i, s.fds i = fd := by
  rw [← h.used]
  exact mem_used

/-- Empty tables. -/
theorem table_resetDb (s : Disp) (hheld : s.held = ∅) : Table s.resetDb where
  distinct := fun i j hi => absurd rfl hi
  used := by
    show used (-1) (fun _ => -1) = s.held
    rw [hheld, Finset.eq_empty_iff_forall_notMem]
    intro fd hfd
    obtain ⟨hne, i, hi⟩ := mem_used.mp hfd
    exact hne hi.symm
  nonneg fd hfd := by
    have hmem : fd ∈ s.held := hfd
    rw [hheld] at hmem
    exact absurd hmem (Finset.notMem_empty fd)
  card := by
    show s.held.card ≤ 3 * 0
    rw [hheld, Finset.card_empty]
  con_le := Nat.zero_le _
  down := fun _ => hheld

/-! ## One socket -/

/-- **A close of a socket.** -/
theorem closeSocket_spec (h : Sockets s) (fd : Int) (closed : Bool) :
    Sockets (eventDispCloseSocket s fd closed).2 ∧ Frame s (eventDispCloseSocket s fd closed).2 ∧
      (eventDispCloseSocket s fd closed).2.held = s.held.erase fd := by
  unfold eventDispCloseSocket
  split
  · rename_i hneg
    have hnot : fd ∉ s.held := by
      intro hfd
      have := h.nonneg fd hfd
      omega
    exact ⟨h, Frame.refl s, (Finset.erase_eq_of_notMem hnot).symm⟩
  · rename_i hnonneg
    have hclose : (s.closeFd fd).held = s.held.erase fd ∧ (s.closeFd fd).fds = s.fds ∧
        Frame s (s.closeFd fd) := by
      unfold Disp.closeFd
      split
      · exact ⟨rfl, rfl, Frame.refl s⟩
      · rename_i hnot
        exact ⟨(Finset.erase_eq_of_notMem hnot).symm, rfl, Frame.refl s⟩
    obtain ⟨hheld, hfds, hframe⟩ := hclose
    refine ⟨⟨?_, ?_, ?_⟩, hframe, hheld⟩
    · show Distinct (-1) (drop (-1) (s.closeFd fd).fds fd)
      rw [hfds]
      exact distinct_drop h.distinct
    · show used (-1) (drop (-1) (s.closeFd fd).fds fd) = (s.closeFd fd).held
      rw [hfds, hheld, ← h.used]
      exact used_drop h.distinct (by omega)
    · intro x hx
      have hx' : x ∈ (s.closeFd fd).held := hx
      rw [hheld] at hx'
      exact h.nonneg x (Finset.mem_of_mem_erase hx')

/-- A descriptor that is open, or no descriptor: nothing else is closed. -/
theorem closeSocket_stray (hfd : fd ∈ s.held ∨ fd < 0) (closed : Bool) :
    (eventDispCloseSocket s fd closed).2.stray = s.stray := by
  unfold eventDispCloseSocket
  split
  · rfl
  · rename_i hnonneg
    show (s.closeFd fd).stray = s.stray
    unfold Disp.closeFd
    rw [if_pos (hfd.resolve_right hnonneg)]

/-- The kernel or `bind` fails in `event_disp_open_socket`. -/
def SocketAnswer.fails (answer : SocketAnswer) : Prop := answer.socket = none ∨ answer.bind = false

instance (answer : SocketAnswer) : Decidable answer.fails := inferInstanceAs (Decidable (_ ∨ _))

/-- **An open of a socket**, while the table has room. -/
theorem openSocket_spec {answer : SocketAnswer} {r : Opened} (h : Sockets s)
    (hroom : s.held.card < EVENT_DISP_MAX_SOCK) (ho : eventDispOpenSocket s answer = some r) :
    (answer.fails ∧ r = ⟨.socketError, -1, s⟩) ∨
    (¬ answer.fails ∧ r.err = .success ∧ 0 ≤ r.fd ∧ r.fd ∉ s.held ∧ Sockets r.state ∧ Frame s r.state ∧
      r.state.held = insert r.fd s.held ∧ r.state.stray = s.stray) := by
  unfold eventDispOpenSocket at ho
  split at ho
  · rename_i hnone
    cases ho
    exact Or.inl ⟨Or.inl hnone, rfl⟩
  · rename_i fd hsome
    split at ho
    · cases ho
    · rename_i hfresh
      dsimp only at ho
      split at ho
      · rename_i hbind
        cases ho
        refine Or.inl ⟨Or.inr hbind, ?_⟩
        unfold Disp.closeFd
        rw [if_pos (Finset.mem_insert_self ..)]
        dsimp only
        rw [Finset.erase_insert hfresh]
      · rename_i hbind
        cases ho
        have hne : (fd : Int) ≠ -1 := by omega
        have hunused : (fd : Int) ∉ used (-1) s.fds := by
          rw [h.used]
          exact hfresh
        have hfree : ∃ i, s.fds i = -1 := by
          refine exists_free h.distinct ?_
          rw [h.used]
          exact hroom
        have hfails : ¬ answer.fails := by
          rintro (hnone | hfalse)
          · rw [hnone] at hsome
            cases hsome
          · exact hbind hfalse
        refine Or.inr ⟨hfails, rfl, Int.natCast_nonneg fd, hfresh, ⟨?_, ?_, ?_⟩, Frame.refl s, rfl, rfl⟩
        · exact distinct_put h.distinct hne hunused
        · show used (-1) (put (-1) s.fds (fd : Int)) = insert (fd : Int) s.held
          rw [used_put hfree hne, h.used]
        · intro x hx
          rcases Finset.mem_insert.mp hx with rfl | hx
          · exact Int.natCast_nonneg fd
          · exact h.nonneg x hx

/-! ## The clean-up of a failed open -/

@[simp] theorem bailSocket_neg_one (s : Disp) : bailSocket s (-1) = s := rfl

theorem bailSocket_spec (h : Sockets s) (fd : Int) : Sockets (bailSocket s fd) ∧ Frame s (bailSocket s fd) ∧
    (bailSocket s fd).held = s.held.erase fd := by
  unfold bailSocket
  split
  · exact closeSocket_spec h fd true
  · rename_i hfd
    rw [not_not] at hfd
    subst hfd
    have hnot : (-1 : Int) ∉ s.held := fun hmem => h.ne_neg_one hmem rfl
    exact ⟨h, Frame.refl s, (Finset.erase_eq_of_notMem hnot).symm⟩

theorem bailSocket_stray (hfd : fd ∈ s.held) : (bailSocket s fd).stray = s.stray := by
  unfold bailSocket
  split
  · exact closeSocket_stray (Or.inl hfd) true
  · rfl

/-- **The clean-up closes what is in the fields.** -/
theorem openBail_spec (h : Sockets s) (err : EventDispStatus) (fds : EventDispFds) :
    Sockets (openBail err fds s).state ∧ Frame s (openBail err fds s).state ∧
      (openBail err fds s).state.held = ((s.held.erase fds.highFd).erase fds.medFd).erase fds.lowFd := by
  obtain ⟨h₁, hframe₁, hheld₁⟩ := bailSocket_spec h fds.highFd
  obtain ⟨h₂, hframe₂, hheld₂⟩ := bailSocket_spec h₁ fds.medFd
  obtain ⟨h₃, hframe₃, hheld₃⟩ := bailSocket_spec h₂ fds.lowFd
  refine ⟨h₃, (hframe₁.trans hframe₂).trans hframe₃, ?_⟩
  show (bailSocket (bailSocket (bailSocket s fds.highFd) fds.medFd) fds.lowFd).held = _
  rw [hheld₃, hheld₂, hheld₁]

theorem openBail_reset (err : EventDispStatus) (s : Disp) : openBail err .reset s = ⟨err, some .reset, s⟩ := rfl

end

/-! ## Opening a connection -/

/-- `event_disp_api_open` stops at one of its checks, before `memset`. -/
def OpenStops (s : Disp) (lock : Bool) : Prop :=
  s.init = false ∨ lock = false ∨ EVENT_DISP_MAX_CON ≤ s.con

instance (s : Disp) (lock : Bool) : Decidable (OpenStops s lock) := inferInstanceAs (Decidable (_ ∨ _))

section

variable {s : Disp} {fds : EventDispFds} {answers : OpenAnswers} {r : Result}

/-- **An open that stops at a check closes what it finds in the structure.** -/
theorem eventDispApiOpen_stops (hstops : OpenStops s answers.lock)
    (ho : eventDispApiOpen s (some fds) answers = some r) : ∃ err, err ≠ .success ∧ r = openBail err fds s ∧
      (err = .maxConnetions → EVENT_DISP_MAX_CON ≤ s.con) := by
  unfold eventDispApiOpen at ho
  dsimp only at ho
  split at ho
  · cases ho
    exact ⟨_, by decide, rfl, EventDispStatus.noConfusion⟩
  · rename_i hinit
    split at ho
    · cases ho
      exact ⟨_, by decide, rfl, EventDispStatus.noConfusion⟩
    · rename_i hlock
      have hcon := (hstops.resolve_left hinit).resolve_left hlock
      rw [if_pos hcon] at ho
      cases ho
      exact ⟨_, by decide, rfl, fun _ => hcon⟩

theorem socketError_ne : EventDispStatus.socketError ≠ .success := by decide

/-- What an open leaves that gets past its checks: a connection, or the state as it was. -/
inductive OpenOutcome (s : Disp) (answers : OpenAnswers) : Result → Prop where
  | connected (high med low : Int) (s' : Disp) (hanswers : ¬ answers.high.fails ∧ ¬ answers.med.fails ∧
      ¬ answers.low.fails) (hfresh : high ∉ s.held ∧ med ∉ s.held ∧ low ∉ s.held)
      (hdistinct : high ≠ med ∧ high ≠ low ∧ med ≠ low) (hsockets : Sockets s')
      (hframe : s'.con = s.con + 1 ∧ s'.init = s.init ∧ s'.db = s.db)
      (hheld : s'.held = insert low (insert med (insert high s.held))) (hstray : s'.stray = s.stray) :
      OpenOutcome s answers ⟨.success, some ⟨high, med, low⟩, s'⟩
  | first (hanswer : answers.high.fails) : OpenOutcome s answers ⟨.socketError, some .reset, s⟩
  | later (fds : EventDispFds) (s' : Disp) (hfirst : ¬ answers.high.fails)
      (hlater : answers.med.fails ∨ answers.low.fails) (hfds : fds ≠ .reset) (hsockets : Sockets s')
      (hframe : Frame s s') (hheld : s'.held = s.held) (hstray : s'.stray = s.stray) :
      OpenOutcome s answers ⟨.socketError, some fds, s'⟩

/-- **An open that gets past its checks.** -/
theorem eventDispApiOpen_sockets (h : Table s) (hpasses : ¬ OpenStops s answers.lock)
    (ho : eventDispApiOpen s (some fds) answers = some r) : OpenOutcome s answers r := by
  obtain ⟨hinit, hrest⟩ := not_or.mp hpasses
  obtain ⟨hlock, hcon⟩ := not_or.mp hrest
  have hcard : s.held.card + 3 ≤ EVENT_DISP_MAX_SOCK := by
    have := h.card
    unfold EVENT_DISP_MAX_SOCK
    omega
  unfold eventDispApiOpen at ho
  dsimp only at ho
  rw [if_neg hinit, if_neg hlock, if_neg hcon] at ho
  obtain ⟨high, hhigh, ho⟩ := Option.bind_eq_some_iff.mp ho
  rcases openSocket_spec h.toSockets (by omega) hhigh with
    ⟨hfails₁, rfl⟩ | ⟨hok₁, herr₁, hpos₁, hfresh₁, h₁, hframe₁, hheld₁, hstray₁⟩
  · rw [if_pos socketError_ne] at ho
    cases ho
    exact .first hfails₁
  rw [if_neg (not_not.mpr herr₁)] at ho
  have hcard₁ : high.state.held.card = s.held.card + 1 := by
    rw [hheld₁, Finset.card_insert_of_notMem hfresh₁]
  have hne₁ : high.fd ≠ -1 := by omega
  have hmem₁ : high.fd ∈ high.state.held := by
    rw [hheld₁]
    exact Finset.mem_insert_self ..
  obtain ⟨med, hmed, ho⟩ := Option.bind_eq_some_iff.mp ho
  rcases openSocket_spec h₁ (by omega) hmed with
    ⟨hfails₂, rfl⟩ | ⟨hok₂, herr₂, hpos₂, hfresh₂, h₂, hframe₂, hheld₂, hstray₂⟩
  · -- the second socket fails: the first is closed again, and its number stays in the structure
    rw [if_pos socketError_ne] at ho
    cases ho
    obtain ⟨hbail, hframe, hheld⟩ := openBail_spec h₁ .socketError ⟨high.fd, -1, -1⟩
    refine .later _ _ hok₁ (Or.inl hfails₂) (fun he => hne₁ (congrArg EventDispFds.highFd he)) hbail
      (hframe₁.trans hframe) ?_ ?_
    · refine hheld.trans ?_
      rw [hheld₁, Finset.erase_insert hfresh₁]
      have hnot : (-1 : Int) ∉ s.held := fun hmem => h.ne_neg_one hmem rfl
      rw [Finset.erase_eq_of_notMem hnot, Finset.erase_eq_of_notMem hnot]
    · exact (bailSocket_stray hmem₁).trans hstray₁
  rw [if_neg (not_not.mpr herr₂)] at ho
  have hcard₂ : med.state.held.card = s.held.card + 2 := by
    rw [hheld₂, Finset.card_insert_of_notMem hfresh₂, hcard₁]
  rw [hheld₁, Finset.mem_insert, not_or] at hfresh₂
  obtain ⟨hne₁₂, hfresh₂⟩ := hfresh₂
  obtain ⟨low, hlow, ho⟩ := Option.bind_eq_some_iff.mp ho
  rcases openSocket_spec h₂ (by omega) hlow with
    ⟨hfails₃, rfl⟩ | ⟨hok₃, herr₃, hpos₃, hfresh₃, h₃, hframe₃, hheld₃, hstray₃⟩
  · -- the third socket fails: the first two are closed again
    rw [if_pos socketError_ne] at ho
    cases ho
    obtain ⟨hbail, hframe, hheld⟩ := openBail_spec h₂ .socketError ⟨high.fd, med.fd, -1⟩
    refine .later _ _ hok₁ (Or.inr hfails₃) (fun he => hne₁ (congrArg EventDispFds.highFd he)) hbail
      ((hframe₁.trans hframe₂).trans hframe) ?_ ?_
    · refine hheld.trans ?_
      rw [hheld₂, hheld₁, Finset.erase_insert_of_ne hne₁₂, Finset.erase_insert hfresh₁,
        Finset.erase_insert hfresh₂]
      exact Finset.erase_eq_of_notMem fun hmem => h.ne_neg_one hmem rfl
    · have hmem : high.fd ∈ med.state.held := by
        rw [hheld₂]
        exact Finset.mem_insert_of_mem hmem₁
      have hmem' : med.fd ∈ (bailSocket med.state high.fd).held := by
        rw [(bailSocket_spec h₂ high.fd).2.2, hheld₂]
        exact Finset.mem_erase.mpr ⟨hne₁₂, Finset.mem_insert_self ..⟩
      exact (bailSocket_stray hmem').trans ((bailSocket_stray hmem).trans (hstray₂.trans hstray₁))
  rw [if_neg (not_not.mpr herr₃)] at ho
  cases ho
  rw [hheld₂, hheld₁, Finset.mem_insert, Finset.mem_insert, not_or, not_or] at hfresh₃
  obtain ⟨hcon', hinit', hdb'⟩ := (hframe₁.trans hframe₂).trans hframe₃
  refine .connected high.fd med.fd low.fd _ ⟨hok₁, hok₂, hok₃⟩ ⟨hfresh₁, hfresh₂, hfresh₃.2.2⟩
    ⟨Ne.symm hne₁₂, Ne.symm hfresh₃.2.1, Ne.symm hfresh₃.1⟩ ⟨h₃.distinct, h₃.used, h₃.nonneg⟩ ⟨?_, hinit', hdb'⟩ ?_ ?_
  · exact congrArg (· + 1) hcon'
  · show low.state.held = _
    rw [hheld₃, hheld₂, hheld₁]
  · exact hstray₃.trans (hstray₂.trans hstray₁)

end

/-! ## Closing a connection -/

/-- `event_disp_api_close` stops at one of its checks. -/
def CloseStops (s : Disp) (lock : Bool) : Prop := s.init = false ∨ lock = false

instance (s : Disp) (lock : Bool) : Decidable (CloseStops s lock) := inferInstanceAs (Decidable (_ ∨ _))

section

variable {s : Disp} {answers : CloseAnswers}

/-- **The structure of the caller is left as it is**, in all calls of `event_disp_api_close`. -/
theorem eventDispApiClose_fds (s : Disp) (fds : Option EventDispFds) (answers : CloseAnswers) :
    (eventDispApiClose s fds answers).fds = fds := by
  unfold eventDispApiClose
  split
  · rfl
  · cases fds with
    | none => rfl
    | some fds =>
      dsimp only
      split <;> rfl

theorem eventDispApiClose_stops (fds : Option EventDispFds) (hstops : CloseStops s answers.lock) :
    (eventDispApiClose s fds answers).state = s := by
  unfold eventDispApiClose
  split
  · rfl
  · rename_i hinit
    cases fds with
    | none => rfl
    | some fds =>
      dsimp only
      rw [if_pos (hstops.resolve_left hinit)]

/-- **A close that gets past its checks.** -/
theorem closeConnection_spec (h : Sockets s) (fds : EventDispFds) (hpasses : ¬ CloseStops s answers.lock) :
    Sockets (eventDispApiClose s (some fds) answers).state ∧
      (eventDispApiClose s (some fds) answers).state.con = s.con ∧
      (eventDispApiClose s (some fds) answers).state.init = s.init ∧
      (eventDispApiClose s (some fds) answers).state.db =
        (fun eventId => dropWhere (-1) (s.db eventId) fds.toList) ∧
      (eventDispApiClose s (some fds) answers).state.held =
        ((s.held.erase fds.highFd).erase fds.medFd).erase fds.lowFd := by
  obtain ⟨hinit, hlock⟩ := not_or.mp hpasses
  have hdb : Sockets { s with db := fun eventId => dropWhere (-1) (s.db eventId) fds.toList } :=
    ⟨h.distinct, h.used, h.nonneg⟩
  obtain ⟨h₁, ⟨hcon₁, hinit₁, hdb₁⟩, hheld₁⟩ := closeSocket_spec hdb fds.highFd answers.high
  obtain ⟨h₂, ⟨hcon₂, hinit₂, hdb₂⟩, hheld₂⟩ := closeSocket_spec h₁ fds.medFd answers.med
  obtain ⟨h₃, ⟨hcon₃, hinit₃, hdb₃⟩, hheld₃⟩ := closeSocket_spec h₂ fds.lowFd answers.low
  unfold eventDispApiClose
  rw [if_neg hinit]
  dsimp only
  rw [if_neg hlock]
  refine ⟨h₃, hcon₃.trans (hcon₂.trans hcon₁), hinit₃.trans (hinit₂.trans hinit₁),
    hdb₃.trans (hdb₂.trans hdb₁), ?_⟩
  rw [hheld₃, hheld₂, hheld₁]

/-- A structure without descriptors: nothing is closed. -/
theorem eventDispApiClose_reset (s : Disp) (answers : CloseAnswers) :
    (eventDispApiClose s (some .reset) answers).state.held = s.held ∧
      (eventDispApiClose s (some .reset) answers).state.stray = s.stray := by
  unfold eventDispApiClose
  split
  · exact ⟨rfl, rfl⟩
  · dsimp only
    split <;> exact ⟨rfl, rfl⟩

/-! ## Deinitialisation -/

/-- A turn of the loop frees its slot. -/
theorem deinitSocket_spec {r : EventDispStatus × Disp} (h : Sockets r.2)
    (closes : Fin EVENT_DISP_MAX_SOCK → Bool) (i : Fin EVENT_DISP_MAX_SOCK) :
    Sockets (deinitSocket closes r i).2 ∧ (deinitSocket closes r i).2.stray = r.2.stray ∧
      (deinitSocket closes r i).2.fds i = -1 ∧
      ∀ j, r.2.fds j = -1 → (deinitSocket closes r i).2.fds j = -1 := by
  unfold deinitSocket
  split
  · rename_i hpos
    have hmem : r.2.fds i ∈ r.2.held := h.mem_held.mpr ⟨by omega, i, rfl⟩
    obtain ⟨hsockets, -, hheld⟩ := closeSocket_spec h (r.2.fds i) (closes i)
    have hfds : (eventDispCloseSocket r.2 (r.2.fds i) (closes i)).2.fds =
        drop (-1) r.2.fds (r.2.fds i) := by
      unfold eventDispCloseSocket Disp.closeFd
      rw [if_neg (by omega), if_pos hmem]
    refine ⟨hsockets, closeSocket_stray (Or.inl hmem) _, ?_, ?_⟩
    · -- the number is no longer in the table, so that its slot is free
      dsimp only
      by_contra hi
      rw [hfds] at hi
      have hkept := (drop_apply i).resolve_left hi
      have hstill : r.2.fds i ∈ (eventDispCloseSocket r.2 (r.2.fds i) (closes i)).2.held :=
        hsockets.mem_held.mpr ⟨by omega, i, by rw [hfds, hkept]⟩
      rw [hheld] at hstill
      exact Finset.notMem_erase _ _ hstill
    · intro j hj
      show (eventDispCloseSocket r.2 (r.2.fds i) (closes i)).2.fds j = -1
      rw [hfds]
      exact (drop_apply j).elim id fun hkept => hkept.trans hj
  · rename_i hneg
    refine ⟨h, rfl, ?_, fun j hj => hj⟩
    by_contra hi
    exact hneg (h.nonneg _ (h.mem_held.mpr ⟨hi, i, rfl⟩))

/-- The loop frees the slots that it goes through. -/
theorem deinitSockets_spec (closes : Fin EVENT_DISP_MAX_SOCK → Bool) :
    ∀ (slots : List (Fin EVENT_DISP_MAX_SOCK)) {r : EventDispStatus × Disp}, Sockets r.2 →
      Sockets (slots.foldl (deinitSocket closes) r).2 ∧
      (slots.foldl (deinitSocket closes) r).2.stray = r.2.stray ∧
      ∀ i, (i ∈ slots ∨ r.2.fds i = -1) → (slots.foldl (deinitSocket closes) r).2.fds i = -1
  | [], r, h => ⟨h, rfl, fun i hi => hi.resolve_left List.not_mem_nil⟩
  | slot :: slots, r, h => by
    obtain ⟨h₁, hstray₁, hslot, hfree⟩ := deinitSocket_spec h closes slot
    obtain ⟨h₂, hstray₂, hall⟩ := deinitSockets_spec closes slots h₁
    refine ⟨h₂, hstray₂.trans hstray₁, ?_⟩
    rintro i (hi | hi)
    · rcases List.mem_cons.mp hi with rfl | hi
      · exact hall i (Or.inr hslot)
      · exact hall i (Or.inl hi)
    · exact hall i (Or.inr (hfree i hi))

/-- **A deinitialisation** closes what is open, and nothing else. -/
theorem eventDispApiDeinit_spec (h : Table s) (closes : Fin EVENT_DISP_MAX_SOCK → Bool) (mutex : Bool) :
    Table (eventDispApiDeinit s closes mutex).2 ∧ (eventDispApiDeinit s closes mutex).2.stray = s.stray ∧
      (eventDispApiDeinit s closes mutex).2.held = ∅ ∧ (eventDispApiDeinit s closes mutex).2.init = false ∧
      (s.init = true → (eventDispApiDeinit s closes mutex).2.con = 0) := by
  unfold eventDispApiDeinit
  split
  · rename_i hinit
    exact ⟨h, rfl, h.down hinit, hinit, fun hup => absurd (hup.symm.trans hinit) (by decide)⟩
  · have hstart : Sockets (EventDispStatus.success, s).2 := h.toSockets
    obtain ⟨hsockets, hstray, hall⟩ :=
      deinitSockets_spec closes (List.finRange EVENT_DISP_MAX_SOCK) hstart
    dsimp only
    generalize (List.finRange EVENT_DISP_MAX_SOCK).foldl (deinitSocket closes) (.success, s) = r at *
    have hheld : r.2.held = ∅ := by
      rw [Finset.eq_empty_iff_forall_notMem]
      intro fd hfd
      obtain ⟨hne, i, rfl⟩ := hsockets.mem_held.mp hfd
      exact hne (hall i (Or.inl (List.mem_finRange i)))
    obtain ⟨hdistinct, hused, hnonneg⟩ := (table_resetDb r.2 hheld).toSockets
    exact ⟨⟨⟨hdistinct, hused, hnonneg⟩, (table_resetDb r.2 hheld).card, Nat.zero_le _, fun _ => hheld⟩,
      hstray, hheld, rfl, fun _ => rfl⟩

/-- **An initialisation** of a library that is not initialised empties the tables. -/
theorem eventDispApiInit_spec (s : Disp) (mutex : Bool) (hdown : s.init = false → s.held = ∅) :
    (s.init = true ∧ (eventDispApiInit s mutex).2 = s) ∨
    (s.init = false ∧ Table (eventDispApiInit s mutex).2 ∧ (eventDispApiInit s mutex).2.stray = s.stray ∧
      (eventDispApiInit s mutex).2.held = ∅ ∧ (eventDispApiInit s mutex).2.con = 0) := by
  unfold eventDispApiInit
  split
  · rename_i hinit
    exact Or.inl ⟨hinit, rfl⟩
  · rename_i hinit
    have hheld : s.held = ∅ := hdown (Bool.eq_false_iff.mpr hinit)
    refine Or.inr ⟨Bool.eq_false_iff.mpr hinit, ?_⟩
    have htable := table_resetDb s hheld
    split
    · exact ⟨htable, rfl, hheld, rfl⟩
    · exact ⟨⟨⟨htable.distinct, htable.used, htable.nonneg⟩, htable.card, htable.con_le, fun _ => hheld⟩, rfl,
        hheld, rfl⟩

end

/-! ## All calls -/

/-- A call that opens or closes sockets, with what the kernel answers. -/
inductive Call where
  | init (mutex : Bool)
  | deinit (closes : Fin EVENT_DISP_MAX_SOCK → Bool) (mutex : Bool)
  | open (fds : Option EventDispFds) (answers : OpenAnswers)
  | close (fds : Option EventDispFds) (answers : CloseAnswers)

/-- What a call leaves. -/
def callResult (s : Disp) : Call → Option Result
  | .init mutex => some ⟨(eventDispApiInit s mutex).1, none, (eventDispApiInit s mutex).2⟩
  | .deinit closes mutex =>
    some ⟨(eventDispApiDeinit s closes mutex).1, none, (eventDispApiDeinit s closes mutex).2⟩
  | .open fds answers => eventDispApiOpen s fds answers
  | .close fds answers => some (eventDispApiClose s fds answers)

section

variable {s : Disp} {call : Call} {r : Result}

/-- The null pointer: nothing is opened or closed. -/
theorem eventDispApiOpen_null {answers : OpenAnswers} (ho : eventDispApiOpen s none answers = some r) :
    r.err ≠ .success ∧ r.err ≠ .maxConnetions ∧ r.fds = none ∧ r.state = s := by
  unfold eventDispApiOpen at ho
  cases ho
  dsimp only
  split
  · exact ⟨by decide, by decide, rfl, rfl⟩
  · exact ⟨by decide, by decide, rfl, rfl⟩

/-- Descriptors that are closed by the clean-up or by a close keep the table. -/
theorem Table.of_erase {s' : Disp} {high med low : Int} (h : Table s) (hsockets : Sockets s')
    (hcon : s'.con = s.con) (hinit : s'.init = s.init)
    (hheld : s'.held = ((s.held.erase high).erase med).erase low) : Table s' := by
  have hsub : s'.held ⊆ s.held := by
    rw [hheld]
    exact ((Finset.erase_subset _ _).trans (Finset.erase_subset _ _)).trans (Finset.erase_subset _ _)
  refine ⟨hsockets, ?_, ?_, fun hdown => ?_⟩
  · rw [hcon]
    exact (Finset.card_le_card hsub).trans h.card
  · rw [hcon]
    exact h.con_le
  · rw [← Finset.subset_empty, ← h.down (hinit.symm.trans hdown)]
    exact hsub

/-- What an open leaves keeps the table. -/
theorem OpenOutcome.table {answers : OpenAnswers} (h : Table s) (hpasses : ¬ OpenStops s answers.lock)
    (ho : OpenOutcome s answers r) : Table r.state := by
  obtain ⟨hinit, hrest⟩ := not_or.mp hpasses
  have hlt := Nat.lt_of_not_le (not_or.mp hrest).2
  cases ho with
  | connected high med low s' _ _ _ hsockets hframe hheld _ =>
    obtain ⟨hcon, hinit', -⟩ := hframe
    refine ⟨hsockets, ?_, ?_, fun hdown => absurd (hinit'.symm.trans hdown) hinit⟩
    · show s'.held.card ≤ 3 * s'.con
      have hlow := Finset.card_insert_le low (insert med (insert high s.held))
      have hmed := Finset.card_insert_le med (insert high s.held)
      have hhigh := Finset.card_insert_le high s.held
      have := h.card
      rw [hheld, hcon]
      omega
    · show s'.con ≤ EVENT_DISP_MAX_CON
      omega
  | first _ => exact h
  | later _ s' _ _ _ hsockets hframe hheld _ =>
    obtain ⟨hcon, hinit', -⟩ := hframe
    refine ⟨hsockets, ?_, ?_, fun hdown => absurd (hinit'.symm.trans hdown) hinit⟩
    · show s'.held.card ≤ 3 * s'.con
      rw [hheld, hcon]
      exact h.card
    · show s'.con ≤ EVENT_DISP_MAX_CON
      rw [hcon]
      exact h.con_le

/-- **Each call keeps the table.** -/
theorem callResult_table (h : Table s) (hr : callResult s call = some r) : Table r.state := by
  cases call with
  | init mutex =>
    cases hr
    rcases eventDispApiInit_spec s mutex h.down with ⟨-, hsame⟩ | ⟨-, htable, -⟩
    · show Table (eventDispApiInit s mutex).2
      rw [hsame]
      exact h
    · exact htable
  | deinit closes mutex =>
    cases hr
    exact (eventDispApiDeinit_spec h closes mutex).1
  | «open» fds answers =>
    have ho : eventDispApiOpen s fds answers = some r := hr
    cases fds with
    | none =>
      rw [(eventDispApiOpen_null ho).2.2.2]
      exact h
    | some fds =>
      by_cases hstops : OpenStops s answers.lock
      · obtain ⟨err, -, rfl, -⟩ := eventDispApiOpen_stops hstops ho
        obtain ⟨hsockets, ⟨hcon, hinit, -⟩, hheld⟩ := openBail_spec h.toSockets err fds
        exact h.of_erase hsockets hcon hinit hheld
      · exact (eventDispApiOpen_sockets h hstops ho).table h hstops
  | close fds answers =>
    cases hr
    by_cases hstops : CloseStops s answers.lock
    · rw [eventDispApiClose_stops fds hstops]
      exact h
    · cases fds with
      | none =>
        have hsame : (eventDispApiClose s none answers).state = s := by
          unfold eventDispApiClose
          split <;> rfl
        rw [hsame]
        exact h
      | some fds =>
        obtain ⟨hsockets, hcon, hinit, -, hheld⟩ := closeConnection_spec h.toSockets fds hstops
        exact h.of_erase hsockets hcon hinit hheld

end

end MlnxLib.EventDisp
