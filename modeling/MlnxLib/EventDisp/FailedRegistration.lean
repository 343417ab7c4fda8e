import MlnxLib.EventDisp.RepeatedEvents

/-!
# Registrations that fail

`event_disp_api_register_events` has three parts: the unregistration of the events, the checks of the
priority and of its descriptor, and the loop that takes the slots.  An error in the second part, or in an
unlock, comes when the table has been written.

* `FreesNothing` — no row of the list has a descriptor of the client.
* `AlreadyTaken` — the rows of the list are as the loop over the slots leaves them.
* `FailureKeeps` — what must hold before the call.

Principal result: `failed_registration_keeps_iff` — a call that fails leaves the table as it is exactly
under this condition.
-/

set_option autoImplicit false

namespace MlnxLib.EventDisp

open Runs SlotTable

/-- There is nothing to unregister in the rows of the list. -/
def FreesNothing (fds : EventDispFds) (events : List Int) (db : Db) : Prop :=
  ∀ e : Fin EVENT_DISP_MAX_EVENTS, (e.val : Int) ∈ events → ∀ i, db e i ∈ fds.toList → db e i = -1

/-- The first of the open slots hold the descriptor, one for each position of the list, and the others are
free. -/
def AlreadyTaken (fds : EventDispFds) (fd : Int) (events : List Int) (db : Db) : Prop :=
  ∀ e : Fin EVENT_DISP_MAX_EVENTS, (e.val : Int) ∈ events → ∀ i ∈ openTo fds (db e),
    db e i = if ((openTo fds (db e)).filter (· < i)).card < events.count (e.val : Int) then fd else -1

/-- **What keeps the table if the call fails.**  A call that takes the mutex of the unregistration either
gets to the slots, and then fails only if the last unlock does, or has nothing to unregister. -/
def FailureKeeps (s : Disp) (fds : EventDispFds) (prio : Int) (events : List Int)
    (unregister answers : LockAnswers) : Prop :=
  s.init = true → unregister.lock = true →
    (∀ fd, Registers s fds prio unregister answers fd → answers.unlock = false →
      AlreadyTaken fds fd events s.db) ∧
    ((∀ fd, ¬Registers s fds prio unregister answers fd) → FreesNothing fds events s.db)

section

variable {s : Disp} {fds : EventDispFds} {prio : Int} {events : List Int} {unregister answers : LockAnswers}

theorem mem_openTo {row : Fin EVENT_DISP_MAX_CON → Int} {i : Fin EVENT_DISP_MAX_CON} :
    i ∈ openTo fds row ↔ row i = -1 ∨ row i ∈ fds.toList := by
  unfold openTo
  simp

theorem dropWhere_eq_ite_openTo (row : Fin EVENT_DISP_MAX_CON → Int) (i : Fin EVENT_DISP_MAX_CON) :
    dropWhere (-1) row fds.toList i = if i ∈ openTo fds row then -1 else row i := by
  unfold dropWhere
  by_cases hmem : row i ∈ fds.toList
  · rw [if_pos hmem, if_pos (mem_openTo.mpr (Or.inr hmem))]
  · rw [if_neg hmem]
    split
    · rename_i hopen
      exact (mem_openTo.mp hopen).resolve_right hmem
    · rfl

/-- The unregistration leaves the table as it is. -/
theorem freed_eq_iff (db : Db) : events.foldl (unregisterEvent fds) db = db ↔ FreesNothing fds events db := by
  constructor
  · intro h e hmem i hi
    have hrow := congrFun (congrFun h e) i
    rw [unregisterEvents_apply, if_pos hmem] at hrow
    unfold dropWhere at hrow
    rw [if_pos hi] at hrow
    exact hrow.symm
  · intro h
    funext e i
    rw [unregisterEvents_apply]
    split
    · rename_i hmem
      unfold dropWhere
      split
      · rename_i hi
        exact (h e hmem i hi).symm
      · rfl
    · rfl

/-- A slot of a row that the call has freed and filled. -/
theorem Registers.db_apply {fd : Int} (h : Registers s fds prio unregister answers fd)
    (hrange : ¬EventsRange events) {e : Fin EVENT_DISP_MAX_EVENTS} (hmem : (e.val : Int) ∈ events)
    (i : Fin EVENT_DISP_MAX_CON) : registeredDb s fds prio events unregister answers e i =
      if i ∈ openTo fds (s.db e) then
        if ((openTo fds (s.db e)).filter (· < i)).card < events.count (e.val : Int) then fd else -1
      else s.db e i := by
  have hfd : fd ≠ -1 := by
    have hnonneg := h.nonneg
    omega
  rw [h.db hrange e, if_pos hmem, put_iterate_apply hfd, slotsWith_free_openTo, dropWhere_eq_ite_openTo]
  by_cases hopen : i ∈ openTo fds (s.db e)
  · simp only [if_pos hopen, true_and]
  · have hfree : s.db e i ≠ -1 := fun hi => hopen (mem_openTo.mpr (Or.inl hi))
    rw [if_neg hopen, if_neg hopen, if_neg fun hboth => hfree hboth.1]

/-- The whole call leaves the table as it is. -/
theorem Registers.db_eq_iff {fd : Int} (h : Registers s fds prio unregister answers fd)
    (hrange : ¬EventsRange events) :
    registeredDb s fds prio events unregister answers = s.db ↔ AlreadyTaken fds fd events s.db := by
  constructor
  · intro hsame e hmem i hopen
    have hslot := h.db_apply hrange hmem i
    rw [hsame, if_pos hopen] at hslot
    exact hslot
  · intro htaken
    funext e i
    by_cases hmem : (e.val : Int) ∈ events
    · rw [h.db_apply hrange hmem]
      split
      · rename_i hopen
        exact (htaken e hmem i hopen).symm
      · rfl
    · rw [h.db hrange e, if_neg hmem, List.count_eq_zero_of_not_mem hmem]
      rfl

/-- A call that gets to the slots fails if it cannot unlock. -/
theorem Registers.fails_iff {fd : Int} (h : Registers s fds prio unregister answers fd)
    (hrange : ¬EventsRange events) :
    (eventDispApiRegisterEvents s (some fds) prio (some events) unregister answers).1 ≠ .success ↔
      answers.unlock = false := by
  have hunregister := unregisters h.init h.locked h.unlocked fds hrange
  unfold eventDispApiRegisterEvents
  simp only [h.init, hrange, hunregister, h.prio, h.lock, Int.not_lt.mpr h.nonneg, if_false,
    Bool.true_eq_false, ne_eq, not_true_eq_false]
  cases answers.unlock <;> simp

/-- Without the structure, or without a list that is in range, the call does nothing. -/
theorem register_of_not_range {fds : Option EventDispFds} {events : Option (List Int)}
    (h : ∀ fds' events', fds = some fds' → events = some events' → EventsRange events') :
    (eventDispApiRegisterEvents s fds prio events unregister answers).2 = s := by
  unfold eventDispApiRegisterEvents
  split
  · rfl
  cases fds with
  | none => rfl
  | some fds =>
    cases events with
    | none => rfl
    | some events => exact congrArg Prod.snd (if_pos (h fds events rfl rfl))

/-- **Registrations that fail.**  For every state of the library and all arguments and answers, a call that
returns an error leaves the table as it is if and only if `FailureKeeps` holds of a list that is in range. -/
theorem failed_registration_keeps_iff (s : Disp) (fds : Option EventDispFds) (prio : Int)
    (events : Option (List Int)) (unregister answers : LockAnswers) :
    ((eventDispApiRegisterEvents s fds prio events unregister answers).1 ≠ .success →
      (eventDispApiRegisterEvents s fds prio events unregister answers).2.db = s.db) ↔
    ∀ fds' events', fds = some fds' → events = some events' → ¬EventsRange events' →
      FailureKeeps s fds' prio events' unregister answers := by
  by_cases hargs : ∀ fds' events', fds = some fds' → events = some events' → EventsRange events'
  · rw [register_of_not_range hargs]
    exact ⟨fun _ fds' events' hf he hrange => absurd (hargs fds' events' hf he) hrange, fun _ _ => rfl⟩
  · simp only [not_forall] at hargs
    obtain ⟨fds, events, rfl, rfl, hrange⟩ := hargs
    have hkeeps : ((eventDispApiRegisterEvents s (some fds) prio (some events) unregister answers).1 ≠ .success →
        registeredDb s fds prio events unregister answers = s.db) ↔
        FailureKeeps s fds prio events unregister answers := by
      by_cases hlocked : s.init = true ∧ unregister.lock = true
      · by_cases hreg : ∃ fd, Registers s fds prio unregister answers fd
        · obtain ⟨fd, hreg⟩ := hreg
          rw [hreg.fails_iff hrange, hreg.db_eq_iff hrange]
          constructor
          · intro h _ _
            refine ⟨fun fd' hreg' hunlock => ?_, fun hnone => absurd hreg (hnone fd)⟩
            have hsame : fd' = fd := Option.some.inj (hreg'.prio.symm.trans hreg.prio)
            rw [hsame]
            exact h hunlock
          · intro h hunlock
            exact (h hlocked.1 hlocked.2).1 fd hreg hunlock
        · have hnone := not_exists.mp hreg
          obtain ⟨hfails, hfreed⟩ := freed_of_not_registers hnone hlocked.1 hlocked.2 hrange
          rw [hfreed, freed_eq_iff]
          constructor
          · intro h _ _
            exact ⟨fun fd hreg => absurd hreg (hnone fd), fun _ => h hfails⟩
          · intro h _
            exact (h hlocked.1 hlocked.2).2 hnone
      · have hsame : registeredDb s fds prio events unregister answers = s.db := by
          refine db_of_not_locked (fun hinit => ?_) hrange
          simpa [hinit] using hlocked
        rw [hsame]
        exact ⟨fun _ hinit hlock => absurd ⟨hinit, hlock⟩ hlocked, fun _ _ => rfl⟩
    constructor
    · rintro h _ _ ⟨⟩ ⟨⟩ _
      exact hkeeps.mp h
    · intro h
      exact hkeeps.mpr (h fds events rfl rfl hrange)

end

/-- A client has opened its connection and registered an event. -/
def registeredClients : Clients :=
  (run clientStep startClients [.open 5 6 7, .register 0 .high [3]]).getD startClients

theorem registeredClients_run :
    run clientStep startClients [.open 5 6 7, .register 0 .high [3]] = some registeredClients :=
  run_eq_getD (by decide +kernel)

/-- **A priority that does not exist** costs the client its registration. -/
theorem registration_lost :
    ¬∀ (calls : List ClientCall) (s : Clients), run clientStep startClients calls = some s →
      ∀ (fds : Option EventDispFds) (prio : Int) (events : Option (List Int)) (unregister answers : LockAnswers),
        (eventDispApiRegisterEvents s.disp fds prio events unregister answers).1 ≠ .success →
        (eventDispApiRegisterEvents s.disp fds prio events unregister answers).2.db = s.disp.db := by
  intro h
  have hkept := h _ registeredClients registeredClients_run (some ⟨5, 6, 7⟩) 7 (some [3]) lockOk lockOk
    (by decide +kernel)
  have hslot := congrFun (congrFun hkept ⟨3, by decide⟩) ⟨0, by decide⟩
  exact absurd hslot (by decide +kernel)

end MlnxLib.EventDisp
