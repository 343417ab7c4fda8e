import MlnxLib.EventDisp.SocketTable
import MlnxLib.Lib.Runs

/-!
# Counting connections

The limit on connections is a counter beside the table of descriptors.  `event_disp_api_open` increments it;
`event_disp_api_close` does not decrement it.

* `Conns`, `connStep` — the library with the connections that are open.
* `Recycled` — the counter and the table are those of the open connections, and an open fails for want of a
  connection only when all are open.
* `Orderly` — no close gets past its checks, and an open that stops at a check finds no descriptor of the
  table in the structure that it cleans up.

Principal results: `recycled_iff_orderly` — all states of a run are right if and only if all its calls are
orderly; `limit_without_connections` — ten connections, each closed, leave no room for another.
-/

set_option autoImplicit false

namespace MlnxLib.EventDisp

open Runs SlotTable

/-! ## Connections -/

/-- The library, and the connections opened and not closed since. -/
structure Conns where
  disp : Disp
  conns : List EventDispFds

/-- The connections after a call; a connection is closed by a close that gets past its checks. -/
def connsAfter (s : Conns) : Call → Result → List EventDispFds
  | .init _, _ => s.conns
  | .deinit _ _, _ => if s.disp.init then [] else s.conns
  | .open _ _, r => if r.err = .success then s.conns ++ r.fds.toList else s.conns
  | .close fds answers, _ =>
    if CloseStops s.disp answers.lock then s.conns else s.conns.filter (some · ≠ fds)

/-- A close is called for an open connection. -/
def Called (s : Conns) : Call → Prop
  | .close fds _ => ∃ f ∈ s.conns, fds = some f
  | _ => True

instance (s : Conns) : (call : Call) → Decidable (Called s call)
  | .close fds _ => inferInstanceAs (Decidable (∃ f ∈ s.conns, fds = some f))
  | .init _ => isTrue trivial
  | .deinit _ _ => isTrue trivial
  | .open _ _ => isTrue trivial

/-- A call. -/
def connStep (s : Conns) (call : Call) : Option Conns :=
  if Called s call then (callResult s.disp call).map fun r => ⟨r.state, connsAfter s call r⟩ else none

/-- The library after its first initialisation. -/
def startConns : Conns := ⟨(eventDispApiInit bootDisp true).2, []⟩

/-- **Connection slots are recycled.** -/
structure Recycled (s : Conns) : Prop where
  con : s.disp.con = s.conns.length
  /-- The table holds the descriptors of the open connections. -/
  fds : ∀ fd, fd ≠ -1 → ((∃ i, s.disp.fds i = fd) ↔ ∃ c ∈ s.conns, fd ∈ c.toList)
  count : (occupied (-1) s.disp.fds).card = 3 * s.disp.con
  /-- An open fails for want of a connection only when all are open. -/
  limit : ∀ fds answers r, eventDispApiOpen s.disp fds answers = some r → r.err = .maxConnetions →
    s.conns.length = EVENT_DISP_MAX_CON

/-- A close does not get past its checks, and an open that stops at a check closes nothing of the table. -/
def Orderly (s : Conns) : Call → Prop
  | .open (some fds) answers =>
    OpenStops s.disp answers.lock → ∀ fd ∈ fds.toList, fd ≠ -1 → ∀ i, s.disp.fds i ≠ fd
  | .close _ answers => CloseStops s.disp answers.lock
  | _ => True

instance (s : Conns) : (call : Call) → Decidable (Orderly s call)
  | .open (some fds) answers => inferInstanceAs (Decidable
      (OpenStops s.disp answers.lock → ∀ fd ∈ fds.toList, fd ≠ -1 → ∀ i, s.disp.fds i ≠ fd))
  | .close _ answers => inferInstanceAs (Decidable (CloseStops s.disp answers.lock))
  | .open none _ => isTrue trivial
  | .init _ => isTrue trivial
  | .deinit _ _ => isTrue trivial

/-! ## What the table counts -/

/-- The counter and the open descriptors are those of the open connections. -/
structure Accounted (s : Conns) : Prop where
  con : s.disp.con = s.conns.length
  held : ∀ fd, fd ∈ s.disp.held ↔ fd ≠ -1 ∧ ∃ c ∈ s.conns, fd ∈ c.toList
  card : s.disp.held.card = 3 * s.disp.con

section

variable {s s' : Conns} {call : Call} {r : Result}

/-- The limit is reached only with all connections counted. -/
theorem con_of_maxConnetions {d : Disp} {fds : Option EventDispFds} {answers : OpenAnswers} (h : Table d)
    (ho : eventDispApiOpen d fds answers = some r) (herr : r.err = .maxConnetions) :
    d.con = EVENT_DISP_MAX_CON := by
  cases fds with
  | none => exact absurd herr (eventDispApiOpen_null ho).2.1
  | some fds =>
    by_cases hstops : OpenStops d answers.lock
    · obtain ⟨err, -, rfl, hmax⟩ := eventDispApiOpen_stops hstops ho
      exact Nat.le_antisymm h.con_le (hmax herr)
    · cases eventDispApiOpen_sockets h hstops ho with
      | connected => cases herr
      | first => cases herr
      | later => cases herr

/-- With the table right, the property is about the open descriptors. -/
theorem recycled_iff (h : Table s.disp) : Recycled s ↔ Accounted s := by
  have hcard : s.disp.held.card = (occupied (-1) s.disp.fds).card := by
    rw [← h.used]
    exact card_used h.distinct
  constructor
  · intro hr
    refine ⟨hr.con, fun fd => ?_, hcard.trans hr.count⟩
    rw [h.mem_held]
    exact and_congr_right (hr.fds fd)
  · intro ha
    refine ⟨ha.con, fun fd hfd => ?_, hcard.symm.trans ha.card, fun fds answers r ho herr => ?_⟩
    · have hiff := h.mem_held.symm.trans (ha.held fd)
      rwa [and_iff_right hfd, and_iff_right hfd] at hiff
    · rw [← ha.con]
      exact con_of_maxConnetions h ho herr

/-- Without open descriptors there is no connection. -/
theorem Accounted.conns_nil (h : Accounted s) (hheld : s.disp.held = ∅) : s.conns = [] := by
  have hcard := h.card
  rw [hheld, Finset.card_empty, h.con] at hcard
  exact List.eq_nil_of_length_eq_zero (by omega)

/-- No connection, and nothing is open. -/
theorem accounted_nil {d : Disp} (hcon : d.con = 0) (hheld : d.held = ∅) : Accounted ⟨d, []⟩ where
  con := hcon
  held fd := by
    show fd ∈ d.held ↔ _
    rw [hheld]
    constructor
    · intro hfd
      exact absurd hfd (Finset.notMem_empty fd)
    · rintro ⟨-, c, hc, -⟩
      exact absurd hc List.not_mem_nil
  card := by
    show d.held.card = 3 * d.con
    rw [hheld, hcon, Finset.card_empty]

/-- The same descriptors, counter and connections. -/
theorem Accounted.congr (h : Accounted s) {d : Disp} (hcon : d.con = s.disp.con)
    (hheld : d.held = s.disp.held) : Accounted ⟨d, s.conns⟩ := by
  refine ⟨hcon.trans h.con, fun fd => ?_, ?_⟩
  · show fd ∈ d.held ↔ _
    rw [hheld]
    exact h.held fd
  · show d.held.card = 3 * d.con
    rw [hheld, hcon]
    exact h.card

/-- **A new connection.** -/
theorem Accounted.connect (h : Accounted s) {d : Disp} {high med low : Int}
    (hfresh : high ∉ s.disp.held ∧ med ∉ s.disp.held ∧ low ∉ s.disp.held)
    (hdistinct : high ≠ med ∧ high ≠ low ∧ med ≠ low) (hsockets : Sockets d)
    (hcon : d.con = s.disp.con + 1) (hheld : d.held = insert low (insert med (insert high s.disp.held))) :
    Accounted ⟨d, s.conns ++ [⟨high, med, low⟩]⟩ where
  con := by
    show d.con = _
    rw [hcon, h.con, List.length_append, List.length_singleton]
  held fd := by
    show fd ∈ d.held ↔ _
    have hnew : fd ∈ d.held ↔ fd ∈ s.disp.held ∨ fd ∈ [high, med, low] := by
      rw [hheld, Finset.mem_insert, Finset.mem_insert, Finset.mem_insert]
      simp only [List.mem_cons, List.not_mem_nil, or_false]
      tauto
    constructor
    · intro hfd
      refine ⟨hsockets.ne_neg_one hfd, ?_⟩
      rcases hnew.mp hfd with hold | hlist
      · obtain ⟨-, c, hc, hmem⟩ := (h.held fd).mp hold
        exact ⟨c, List.mem_append_left _ hc, hmem⟩
      · exact ⟨⟨high, med, low⟩, List.mem_append_right _ List.mem_cons_self, hlist⟩
    · rintro ⟨hne, c, hc, hmem⟩
      refine hnew.mpr ?_
      rcases List.mem_append.mp hc with hc | hc
      · exact Or.inl ((h.held fd).mpr ⟨hne, c, hc, hmem⟩)
      · cases List.mem_singleton.mp hc
        exact Or.inr hmem
  card := by
    show d.held.card = 3 * d.con
    obtain ⟨hhigh, hmed, hlow⟩ := hfresh
    obtain ⟨hhm, hhl, hml⟩ := hdistinct
    have hmed' : med ∉ insert high s.disp.held := by
      rw [Finset.mem_insert, not_or]
      exact ⟨hhm.symm, hmed⟩
    have hlow' : low ∉ insert med (insert high s.disp.held) := by
      rw [Finset.mem_insert, Finset.mem_insert, not_or, not_or]
      exact ⟨hml.symm, hhl.symm, hlow⟩
    rw [hheld, Finset.card_insert_of_notMem hlow', Finset.card_insert_of_notMem hmed',
      Finset.card_insert_of_notMem hhigh, h.card, hcon]
    omega

/-! ## Each call -/

/-- **An open keeps the account if and only if it is orderly.** -/
theorem accounted_open_iff {fds : EventDispFds} {answers : OpenAnswers} (ht : Table s.disp) (h : Accounted s)
    (ho : eventDispApiOpen s.disp (some fds) answers = some r) :
    Accounted ⟨r.state, connsAfter s (.open (some fds) answers) r⟩ ↔
      Orderly s (.open (some fds) answers) := by
  by_cases hstops : OpenStops s.disp answers.lock
  · obtain ⟨err, herr, rfl, -⟩ := eventDispApiOpen_stops hstops ho
    obtain ⟨hsockets, ⟨hcon, -, -⟩, hheld⟩ := openBail_spec ht.toSockets err fds
    have hconns : connsAfter s (.open (some fds) answers) (openBail err fds s.disp) = s.conns := if_neg herr
    rw [hconns]
    constructor
    · intro ha _ fd hfd hne i hi
      -- a descriptor of the table would be closed, and its connection still open
      have hmem : fd ∈ s.disp.held := ht.mem_held.mpr ⟨hne, i, hi⟩
      have hstill : fd ∈ (openBail err fds s.disp).state.held := (ha.held fd).mpr ((h.held fd).mp hmem)
      rw [hheld, Finset.mem_erase, Finset.mem_erase, Finset.mem_erase] at hstill
      obtain ⟨hlow, hmed, hhigh, -⟩ := hstill
      simp only [EventDispFds.toList, List.mem_cons, List.not_mem_nil, or_false] at hfd
      exact hfd.elim hhigh (Or.rec hmed hlow)
    · intro horderly
      have hnot : ∀ fd ∈ fds.toList, fd ∉ s.disp.held := by
        intro fd hfd hmem
        obtain ⟨hne, i, hi⟩ := ht.mem_held.mp hmem
        exact horderly hstops fd hfd hne i hi
      refine h.congr hcon ?_
      rw [hheld, Finset.erase_eq_of_notMem (hnot fds.highFd (by simp [EventDispFds.toList])),
        Finset.erase_eq_of_notMem (hnot fds.medFd (by simp [EventDispFds.toList])),
        Finset.erase_eq_of_notMem (hnot fds.lowFd (by simp [EventDispFds.toList]))]
  · refine iff_of_true ?_ fun hstops' => absurd hstops' hstops
    cases eventDispApiOpen_sockets ht hstops ho with
    | connected high med low d _ hfresh hdistinct hsockets hframe hheld _ =>
      exact h.connect hfresh hdistinct hsockets hframe.1 hheld
    | first _ => exact h
    | later _ _ _ _ _ _ hframe hheld _ => exact h.congr hframe.1 hheld

/-- **A close keeps the account if and only if it does not get past its checks.** -/
theorem accounted_close_iff {fds : EventDispFds} {answers : CloseAnswers} (ht : Table s.disp)
    (h : Accounted s) (hfds : fds ∈ s.conns) :
    Accounted ⟨(eventDispApiClose s.disp (some fds) answers).state,
        connsAfter s (.close (some fds) answers) (eventDispApiClose s.disp (some fds) answers)⟩ ↔
      CloseStops s.disp answers.lock := by
  constructor
  · intro ha
    by_contra hpasses
    obtain ⟨-, hcon, -⟩ := closeConnection_spec ht.toSockets fds hpasses
    -- the counter is as before, and there is a connection less
    have hlength : s.conns.length = (s.conns.filter (some · ≠ some fds)).length := by
      have hafter := ha.con
      rw [show (connsAfter s (.close (some fds) answers) _) = s.conns.filter (some · ≠ some fds) from
        if_neg hpasses] at hafter
      exact h.con.symm.trans (hcon.symm.trans hafter)
    have hall := List.length_filter_eq_length_iff.mp hlength.symm fds hfds
    simp at hall
  · intro hstops
    rw [eventDispApiClose_stops _ hstops]
    rw [show (connsAfter s (.close (some fds) answers) _) = s.conns from if_pos hstops]
    exact h

/-- **Each call keeps the property if and only if it is orderly.** -/
theorem connStep_iff (ht : Table s.disp) (h : Recycled s) (hstep : connStep s call = some s') :
    Recycled s' ↔ Orderly s call := by
  unfold connStep at hstep
  split at hstep
  swap
  · cases hstep
  rename_i hcalled
  obtain ⟨r, hr, rfl⟩ := Option.map_eq_some_iff.mp hstep
  have ht' : Table r.state := callResult_table ht hr
  rw [recycled_iff (s := ⟨r.state, connsAfter s call r⟩) ht']
  have ha := (recycled_iff ht).mp h
  cases call with
  | init mutex =>
    cases hr
    refine iff_of_true ?_ trivial
    rcases eventDispApiInit_spec s.disp mutex ht.down with ⟨-, hsame⟩ | ⟨hinit, -, -, hheld, hcon⟩
    · exact ha.congr (congrArg Disp.con hsame) (congrArg Disp.held hsame)
    · show Accounted ⟨_, s.conns⟩
      rw [ha.conns_nil (ht.down hinit)]
      exact accounted_nil hcon hheld
  | deinit closes mutex =>
    cases hr
    refine iff_of_true ?_ trivial
    cases hinit : s.disp.init with
    | false =>
      have hsame : (eventDispApiDeinit s.disp closes mutex).2 = s.disp := by
        unfold eventDispApiDeinit
        rw [if_pos hinit]
      have hconns : ∀ r, connsAfter s (.deinit closes mutex) r = s.conns := by
        intro r
        show (if s.disp.init then [] else s.conns) = s.conns
        rw [hinit]
        rfl
      rw [hconns]
      exact ha.congr (congrArg Disp.con hsame) (congrArg Disp.held hsame)
    | true =>
      obtain ⟨-, -, hheld, -, hcon⟩ := eventDispApiDeinit_spec ht closes mutex
      have hconns : ∀ r, connsAfter s (.deinit closes mutex) r = [] := by
        intro r
        show (if s.disp.init then [] else s.conns) = []
        rw [hinit]
        rfl
      rw [hconns]
      exact accounted_nil (hcon hinit) hheld
  | «open» fds answers =>
    cases fds with
    | none =>
      have ho : eventDispApiOpen s.disp none answers = some r := hr
      obtain ⟨herr, -, -, hsame⟩ := eventDispApiOpen_null ho
      refine iff_of_true ?_ trivial
      rw [show connsAfter s (.open none answers) r = s.conns from if_neg herr]
      exact ha.congr (congrArg Disp.con hsame) (congrArg Disp.held hsame)
    | some fds => exact accounted_open_iff ht ha hr
  | close fds answers =>
    cases hr
    obtain ⟨f, hf, rfl⟩ := hcalled
    exact accounted_close_iff ht ha hf

theorem connStep_table (ht : Table s.disp) (hstep : connStep s call = some s') : Table s'.disp := by
  unfold connStep at hstep
  split at hstep
  · obtain ⟨r, hr, rfl⟩ := Option.map_eq_some_iff.mp hstep
    exact callResult_table ht hr
  · cases hstep

end

/-! ## All runs -/

/-- **Connection slots are recycled in all states of a run if and only if its calls are orderly.** -/
theorem recycled_iff_orderly (calls : List Call) (s : Conns) (hrun : run connStep startConns calls = some s) :
    Throughout connStep Recycled startConns calls ↔ AllMeet connStep Orderly startConns calls := by
  have htable : Table startConns.disp := by
    rcases eventDispApiInit_spec bootDisp true fun _ => rfl with ⟨hup, -⟩ | ⟨-, htable, -⟩
    · cases hup
    · exact htable
  have hstart : Recycled startConns := (recycled_iff htable).mpr (accounted_nil rfl rfl)
  exact throughout_iff_allMeet (J := fun s => Table s.disp) (fun ht hstep => connStep_table ht hstep)
    (fun ht h hstep => connStep_iff ht h hstep) calls htable hstart hrun

/-- A connection, an open whose second socket fails, and a new life of the library. -/
theorem recycled_iff_orderly_restart :
    Throughout connStep Recycled startConns
        [.open (some .reset) (openOk 5 6 7), .open (some ⟨5, 6, 7⟩) ⟨true, socketOk 8, ⟨none, true⟩, socketOk 9⟩,
          .deinit (fun _ => true) true, .init true] ↔
      AllMeet connStep Orderly startConns
        [.open (some .reset) (openOk 5 6 7), .open (some ⟨5, 6, 7⟩) ⟨true, socketOk 8, ⟨none, true⟩, socketOk 9⟩,
          .deinit (fun _ => true) true, .init true] :=
  recycled_iff_orderly _ _ rfl

/-- Ten connections, each closed before the next is opened. -/
def tenConnections : List Call :=
  (List.range 10).flatMap fun _ => [.open (some .reset) (openOk 5 6 7), .close (some ⟨5, 6, 7⟩) closeOk]

/-- **No connection is open, and there is no room for one.** -/
theorem limit_without_connections : ∃ s r, run connStep startConns tenConnections = some s ∧ s.conns = [] ∧
    s.disp.con = 10 ∧ callResult s.disp (.open (some .reset) (openOk 5 6 7)) = some r ∧
    r.err = .maxConnetions ∧ ¬ Throughout connStep Recycled startConns tenConnections := by
  have hrun : ((run connStep startConns tenConnections).bind fun s =>
      (callResult s.disp (.open (some .reset) (openOk 5 6 7))).map fun r => (s.conns, s.disp.con, r.err)) =
      some ([], 10, .maxConnetions) := by
    decide +kernel
  obtain ⟨s, hs, hopen⟩ := Option.bind_eq_some_iff.mp hrun
  obtain ⟨r, hr, hsummary⟩ := Option.map_eq_some_iff.mp hopen
  simp only [Prod.mk.injEq] at hsummary
  obtain ⟨hconns, hcon, herr⟩ := hsummary
  refine ⟨s, r, hs, hconns, hcon, hr, herr, ?_⟩
  intro h
  have hcount := (h.of_run hs).con
  rw [hconns, hcon] at hcount
  cases hcount

end MlnxLib.EventDisp
