import Mathlib.Data.List.Dedup
import MlnxLib.EventDisp.Registry

/-!
# Events that are repeated in a list

`event_disp_api_register_events` unregisters the events of its list, to prevent duplicates, and then takes
a free slot for each position of the list.

* `RepetitionsHarmless` — the list and the list without its duplicates leave the same rows.
* `Registers` — the call gets to the slots; `openTo` — the slots of a row that it finds free.

Principal result: `repetitions_harmless_iff` — repetitions are harmless exactly when no event in range is
repeated, or there is at most one slot for it.
-/

set_option autoImplicit false

namespace MlnxLib.EventDisp

open Runs SlotTable

/-- The table after `event_disp_api_register_events`. -/
def registeredDb (s : Disp) (fds : EventDispFds) (prio : Int) (events : List Int)
    (unregister answers : LockAnswers) : Db :=
  (eventDispApiRegisterEvents s (some fds) prio (some events) unregister answers).2.db

/-- A row holds each descriptor of a client at most once. -/
def RowOnce (fds : EventDispFds) (row : Fin EVENT_DISP_MAX_CON → Int) : Prop :=
  ∀ fd ∈ fds.toList, fd ≠ -1 → (slotsWith row fd).card ≤ 1

/-- **Repetitions are harmless**: with and without the duplicates of the list, each row holds the same
registrations as often and has as many free slots.  The rows have the descriptors of the client once if
they did before, and room for another client if they would without the duplicates. -/
structure RepetitionsHarmless (s : Disp) (fds : EventDispFds) (prio : Int) (events : List Int)
    (unregister answers : LockAnswers) : Prop where
  same : ∀ e fd, (slotsWith (registeredDb s fds prio events unregister answers e) fd).card =
    (slotsWith (registeredDb s fds prio events.dedup unregister answers e) fd).card
  once : ∀ e, RowOnce fds (s.db e) → RowOnce fds (registeredDb s fds prio events unregister answers e)
  room : ∀ e, (∃ i, registeredDb s fds prio events.dedup unregister answers e i = -1) →
    ∃ i, registeredDb s fds prio events unregister answers e i = -1

/-- The call succeeds up to the loop over the slots, with the descriptor of the priority. -/
structure Registers (s : Disp) (fds : EventDispFds) (prio : Int) (unregister answers : LockAnswers) (fd : Int) :
    Prop where
  init : s.init = true
  locked : unregister.lock = true
  unlocked : unregister.unlock = true
  prio : fdOfPrio fds prio = some fd
  nonneg : 0 ≤ fd
  lock : answers.lock = true

/-- The slots of a row that are free, or hold a descriptor of the client. -/
def openTo (fds : EventDispFds) (row : Fin EVENT_DISP_MAX_CON → Int) : Finset (Fin EVENT_DISP_MAX_CON) :=
  Finset.univ.filter fun i => row i = -1 ∨ row i ∈ fds.toList

section

variable {s : Disp} {fds : EventDispFds} {prio : Int} {events : List Int} {unregister answers : LockAnswers}

/-- Without its duplicates, a list is in range if it is with them. -/
theorem eventsRange_dedup (h : ¬EventsRange events) : ¬EventsRange events.dedup := by
  rintro (hnone | hmany)
  · rw [List.length_eq_zero_iff, List.dedup_eq_nil] at hnone
    exact h (Or.inl (List.length_eq_zero_iff.mpr hnone))
  · exact h (Or.inr (hmany.trans_le (List.dedup_sublist events).length_le))

/-- The unregistration at the start of the call. -/
theorem unregisters (hinit : s.init = true) (hlocked : unregister.lock = true)
    (hunlocked : unregister.unlock = true) (fds : EventDispFds) (hrange : ¬EventsRange events) :
    eventDispApiUnregisterEvents s (some fds) (some events) unregister =
      (.success, { s with db := events.foldl (unregisterEvent fds) s.db }) := by
  unfold eventDispApiUnregisterEvents
  simp [hinit, hrange, hlocked, hunlocked]

/-- **A call that registers** frees the rows of the list, and puts the descriptor into each as often as
the list says. -/
theorem Registers.db {fd : Int} (h : Registers s fds prio unregister answers fd) (hrange : ¬EventsRange events)
    (e : Fin EVENT_DISP_MAX_EVENTS) : registeredDb s fds prio events unregister answers e =
      (fun row => put (-1) row fd)^[events.count (e.val : Int)]
        (if (e.val : Int) ∈ events then dropWhere (-1) (s.db e) fds.toList else s.db e) := by
  have hunregister := unregisters h.init h.locked h.unlocked fds hrange
  rw [← unregisterEvents_apply, ← updateRows_iterate]
  unfold registeredDb eventDispApiRegisterEvents
  simp only [h.init, hrange, hunregister, h.prio, h.lock, Int.not_lt.mpr h.nonneg, if_false,
    Bool.true_eq_false, ne_eq, not_true_eq_false]
  rfl

/-- The rows of the list are freed by a call that takes the mutex and does not get to the slots. -/
theorem freed_of_not_registers (h : ∀ fd, ¬Registers s fds prio unregister answers fd) (hinit : s.init = true)
    (hlocked : unregister.lock = true) (hrange : ¬EventsRange events) :
    (eventDispApiRegisterEvents s (some fds) prio (some events) unregister answers).1 ≠ .success ∧
      registeredDb s fds prio events unregister answers = events.foldl (unregisterEvent fds) s.db := by
  by_cases hunlocked : unregister.unlock = true
  · have hunregister := unregisters hinit hlocked hunlocked fds hrange
    unfold registeredDb eventDispApiRegisterEvents
    simp only [hinit, hrange, hunregister, if_false, Bool.true_eq_false, ne_eq, not_true_eq_false]
    cases hfd : fdOfPrio fds prio with
    | none => exact ⟨EventDispStatus.noConfusion, rfl⟩
    | some fd =>
      dsimp only
      by_cases hneg : fd < 0
      · rw [if_pos hneg]
        exact ⟨EventDispStatus.noConfusion, rfl⟩
      by_cases hlock : answers.lock = true
      · exact absurd ⟨hinit, hlocked, hunlocked, hfd, Int.not_lt.mp hneg, hlock⟩ (h fd)
      · rw [if_neg hneg, if_pos (by simpa using hlock)]
        exact ⟨EventDispStatus.noConfusion, rfl⟩
  · have hunregister : eventDispApiUnregisterEvents s (some fds) (some events) unregister =
        (.mutexError, { s with db := events.foldl (unregisterEvent fds) s.db }) := by
      unfold eventDispApiUnregisterEvents
      simp [hinit, hrange, hlocked, hunlocked]
    unfold registeredDb eventDispApiRegisterEvents
    simp only [hinit, hrange, hunregister, if_false, Bool.true_eq_false]
    exact ⟨EventDispStatus.noConfusion, rfl⟩

/-- No row is freed by a call that does not take the mutex. -/
theorem db_of_not_locked (h : s.init = true → unregister.lock = false) (hrange : ¬EventsRange events) :
    registeredDb s fds prio events unregister answers = s.db := by
  unfold registeredDb eventDispApiRegisterEvents
  by_cases hinit : s.init = true
  · have hunregister : eventDispApiUnregisterEvents s (some fds) (some events) unregister =
        (.mutexError, s) := by
      unfold eventDispApiUnregisterEvents
      simp [hinit, hrange, h hinit]
    simp only [hinit, hrange, hunregister, if_false, Bool.true_eq_false]
    rfl
  · rw [if_pos (by simpa using hinit)]

/-- Otherwise the rows of the list are freed, or none is. -/
theorem db_of_not_registers (h : ∀ fd, ¬Registers s fds prio unregister answers fd) :
    (∀ events, ¬EventsRange events → registeredDb s fds prio events unregister answers = s.db) ∨
    ∀ events, ¬EventsRange events → registeredDb s fds prio events unregister answers =
      events.foldl (unregisterEvent fds) s.db := by
  by_cases hlocked : s.init = true ∧ unregister.lock = true
  · exact Or.inr fun events hrange => (freed_of_not_registers h hlocked.1 hlocked.2 hrange).2
  · refine Or.inl fun events hrange => db_of_not_locked (fun hinit => ?_) hrange
    simpa [hinit] using hlocked

/-! ## Rows -/

theorem rowOnce_dropWhere (fds : EventDispFds) (row : Fin EVENT_DISP_MAX_CON → Int) :
    RowOnce fds (dropWhere (-1) row fds.toList) := by
  intro fd hfd hne
  rw [card_slotsWith_dropWhere hfd hne]
  exact Nat.zero_le 1

/-- A row that was freed and gets a descriptor. -/
theorem rowOnce_put (fds : EventDispFds) (row : Fin EVENT_DISP_MAX_CON → Int) (fd : Int) :
    RowOnce fds (put (-1) (dropWhere (-1) row fds.toList) fd) := by
  intro fd' hfd' hne
  have hle : (slotsWith (put (-1) (dropWhere (-1) row fds.toList) fd) fd').card ≤
      (slotsWith (dropWhere (-1) row fds.toList) fd').card + 1 := card_slotsWith_put_le
  rwa [card_slotsWith_dropWhere hfd' hne] at hle

/-- The slots that are free after the unregistration. -/
theorem slotsWith_free_openTo (fds : EventDispFds) (row : Fin EVENT_DISP_MAX_CON → Int) :
    slotsWith (dropWhere (-1) row fds.toList) (-1) = openTo fds row := slotsWith_free_dropWhere

/-- **The rows with and without the duplicates** are equal, if nothing is repeated or there is one slot. -/
theorem Registers.db_dedup {fd : Int} (h : Registers s fds prio unregister answers fd)
    (hrange : ¬EventsRange events) (e : Fin EVENT_DISP_MAX_EVENTS)
    (hone : events.count (e.val : Int) ≤ 1 ∨ (openTo fds (s.db e)).card ≤ 1) :
    registeredDb s fds prio events unregister answers e =
      if (e.val : Int) ∈ events then put (-1) (dropWhere (-1) (s.db e) fds.toList) fd else s.db e := by
  have hfd : fd ≠ -1 := by
    have hnonneg := h.nonneg
    omega
  rw [h.db hrange e]
  split
  · rename_i hmem
    obtain ⟨m, hm⟩ : ∃ m, events.count (e.val : Int) = m + 1 :=
      Nat.exists_eq_succ_of_ne_zero (List.count_pos_iff.mpr hmem).ne'
    rw [hm]
    rcases hone with hcount | hslots
    · obtain rfl : m = 0 := by omega
      rfl
    · rw [← slotsWith_free_openTo] at hslots
      exact put_iterate_of_le hfd hslots m
  · rename_i hmem
    rw [List.count_eq_zero_of_not_mem hmem]
    rfl

theorem count_dedup_le (events : List Int) (event : Int) : events.dedup.count event ≤ 1 :=
  List.nodup_iff_count_le_one.mp (List.nodup_dedup events) event

/-- Equal rows are all that is asked. -/
theorem harmless_of_eq
    (heq : ∀ e, registeredDb s fds prio events unregister answers e =
      registeredDb s fds prio events.dedup unregister answers e)
    (honce : ∀ e, RowOnce fds (s.db e) → RowOnce fds (registeredDb s fds prio events unregister answers e)) :
    RepetitionsHarmless s fds prio events unregister answers where
  same e fd := by rw [heq]
  once := honce
  room e h := by
    rw [heq]
    exact h

/-- **Repeated events.**  For every table and every list of 1 to 100 events, repetitions are harmless if and
only if the call does not get to the slots, or each event in range is in the list once, or finds one slot at
most. -/
theorem repetitions_harmless_iff (s : Disp) (fds : EventDispFds) (prio : Int) (events : List Int)
    (unregister answers : LockAnswers) (hrange : ¬EventsRange events) :
    RepetitionsHarmless s fds prio events unregister answers ↔
      ∀ fd, Registers s fds prio unregister answers fd → ∀ e : Fin EVENT_DISP_MAX_EVENTS,
        events.count (e.val : Int) ≤ 1 ∨ (openTo fds (s.db e)).card ≤ 1 := by
  have hdedup := eventsRange_dedup hrange
  constructor
  · intro h fd hreg e
    by_contra hboth
    rw [not_or, Nat.not_le, Nat.not_le] at hboth
    have hfd : fd ≠ -1 := by
      have hnonneg := hreg.nonneg
      omega
    have hmem : (e.val : Int) ∈ events := List.count_pos_iff.mp (by omega)
    have hsame := h.same e (-1)
    -- each position of the list has taken a slot
    rw [hreg.db hrange e, hreg.db hdedup e, if_pos hmem, if_pos (List.mem_dedup.mpr hmem),
      card_free_put_iterate hfd, card_free_put_iterate hfd, slotsWith_free_openTo] at hsame
    have hcount := count_dedup_le events (e.val : Int)
    omega
  · intro h
    by_cases hreg : ∃ fd, Registers s fds prio unregister answers fd
    · obtain ⟨fd, hreg⟩ := hreg
      have hrow := fun e => hreg.db_dedup hrange e (h fd hreg e)
      refine harmless_of_eq (fun e => ?_) fun e hbefore => ?_
      · rw [hrow e, hreg.db_dedup hdedup e (Or.inl (count_dedup_le events _))]
        simp only [List.mem_dedup]
      · rw [hrow e]
        split
        · exact rowOnce_put fds (s.db e) fd
        · exact hbefore
    · rcases db_of_not_registers (not_exists.mp hreg) with hsame | hfreed
      · refine harmless_of_eq (fun e => ?_) fun e hbefore => ?_
        · rw [hsame events hrange, hsame _ hdedup]
        · rw [hsame events hrange]
          exact hbefore
      · refine harmless_of_eq (fun e => ?_) fun e hbefore => ?_
        · rw [hfreed events hrange, hfreed _ hdedup, unregisterEvents_apply, unregisterEvents_apply]
          simp only [List.mem_dedup]
        · rw [hfreed events hrange, unregisterEvents_apply]
          split
          · exact rowOnce_dropWhere fds (s.db e)
          · exact hbefore

end

/-- A client on its own, and a list in which an event is repeated. -/
theorem repetitions_harmless_iff_twice :
    RepetitionsHarmless (eventDispApiInit bootDisp true).2 ⟨5, 6, 7⟩ 1 [3, 4, 3] lockOk lockOk ↔
      ∀ fd, Registers (eventDispApiInit bootDisp true).2 ⟨5, 6, 7⟩ 1 lockOk lockOk fd →
        ∀ e : Fin EVENT_DISP_MAX_EVENTS, [3, 4, 3].count (e.val : Int) ≤ 1 ∨
          (openTo ⟨5, 6, 7⟩ ((eventDispApiInit bootDisp true).2.db e)).card ≤ 1 :=
  repetitions_harmless_iff (eventDispApiInit bootDisp true).2 ⟨5, 6, 7⟩ 1 [3, 4, 3] lockOk lockOk (by decide)

/-- The state after calls that are all possible. -/
theorem run_eq_getD {calls : List ClientCall} (h : (run clientStep startClients calls).isSome = true) :
    run clientStep startClients calls = some ((run clientStep startClients calls).getD startClients) := by
  obtain ⟨s, hs⟩ := Option.isSome_iff_exists.mp h
  rw [hs]
  rfl

/-- A client has opened its connection. -/
def sampleClients : Clients := (run clientStep startClients [.open 5 6 7]).getD startClients

theorem sampleClients_run : run clientStep startClients [.open 5 6 7] = some sampleClients :=
  run_eq_getD (by decide +kernel)

/-- **An event that is listed twice** is registered twice. -/
theorem repeated_event_two_slots :
    ¬∀ (calls : List ClientCall) (s : Clients) (c : Nat) (fds : EventDispFds),
      run clientStep startClients calls = some s → s.conns c = some fds →
      ∀ (prio : EventDispPriority) (events : List Int), ¬EventsRange events →
        RepetitionsHarmless s.disp fds prio.toInt events lockOk lockOk := by
  intro h
  have hharmless := h [.open 5 6 7] sampleClients 0 ⟨5, 6, 7⟩ sampleClients_run (by decide +kernel) .high [3, 3]
    (by decide)
  exact absurd (hharmless.same ⟨3, by decide⟩ 5) (by decide +kernel)

end MlnxLib.EventDisp
