import MlnxLib.EventDisp.Registrations
import MlnxLib.Lib.Runs

/-!
# Registrations are a map

A client is known to the library only by its three descriptors, in the slots of rows without a name.  As
long as the clients use their descriptors until they close them, the table is a partial map from clients and
events to priorities.

* `Registry` — the map, with what each call is for.
* `Clients`, `ClientCall`, `clientStep` — the library with any number of clients; the kernel does not fail.
* `RowOf` — a row of the table holds the descriptors that the map says, each once.
* `ConnsInv` — each open connection has three descriptors of its own.
* `Represented` — what the map says is what the table does.

Principal result: `registry_represented` — in every run the table represents the map.
-/

set_option autoImplicit false

namespace MlnxLib.EventDisp

open Runs SlotTable

/-! ## The map -/

/-- The priority of each client and event. -/
abbrev Registry := Nat → Fin EVENT_DISP_MAX_EVENTS → Option EventDispPriority

/-- The listed events of a client get a priority. -/
def Registry.register (registry : Registry) (c : Nat) (prio : EventDispPriority) (events : List Int) : Registry :=
  Function.update registry c fun e => if (e.val : Int) ∈ events then some prio else registry c e

/-- The listed events of a client are removed. -/
def Registry.unregister (registry : Registry) (c : Nat) (events : List Int) : Registry :=
  Function.update registry c fun e => if (e.val : Int) ∈ events then none else registry c e

/-- All events of a client are removed. -/
def Registry.close (registry : Registry) (c : Nat) : Registry := Function.update registry c fun _ => none

/-! ## Clients -/

/-- The library, its clients with their open connections, and the map. -/
structure Clients where
  disp : Disp
  conns : Nat → Option EventDispFds
  numClients : Nat
  registry : Registry

/-- A call of a client. -/
inductive ClientCall where
  /-- A new client; the kernel gives these numbers to its sockets. -/
  | open (high med low : Nat)
  | register (c : Nat) (prio : EventDispPriority) (events : List Int)
  | unregister (c : Nat) (events : List Int)
  | close (c : Nat)
  | generate (event : Int) (data : Option (List UInt8)) (dataSize : Nat) (mode : SendMode) (noCopy : Bool)

/-- A list of events without repetitions, of a length that the calls accept. -/
def EventList (events : List Int) : Prop := events.Nodup ∧ ¬ EventsRange events

instance (events : List Int) : Decidable (EventList events) := inferInstanceAs (Decidable (_ ∧ _))

/-- A call of a client with an open connection; the map follows the calls that succeed. -/
def clientStep (s : Clients) : ClientCall → Option Clients
  | .open high med low => (eventDispApiOpen s.disp (some .reset) (openOk high med low)).map fun r =>
      if r.err = .success then
        { s with
          disp := r.state
          conns := Function.update s.conns s.numClients r.fds
          numClients := s.numClients + 1 }
      else { s with disp := r.state }
  | .register c prio events => if EventList events then (s.conns c).map fun fds =>
      let r := eventDispApiRegisterEvents s.disp (some fds) prio.toInt (some events) lockOk lockOk
      { s with
        disp := r.2
        registry := if r.1 = .success then s.registry.register c prio events else s.registry }
    else none
  | .unregister c events => if EventList events then (s.conns c).map fun fds =>
      let r := eventDispApiUnregisterEvents s.disp (some fds) (some events) lockOk
      { s with
        disp := r.2
        registry := if r.1 = .success then s.registry.unregister c events else s.registry }
    else none
  | .close c => (s.conns c).map fun fds =>
      { s with
        disp := (eventDispApiClose s.disp (some fds) closeOk).state
        conns := Function.update s.conns c none
        registry := s.registry.close c }
  | .generate event data dataSize mode noCopy =>
    some { s with
      disp := (eventDispApiGenerateEventMode s.disp event data dataSize mode noCopy true fun _ => sendOk).state }

/-- The library after its initialisation, without clients. -/
def startClients : Clients := ⟨(eventDispApiInit bootDisp true).2, fun _ => none, 0, fun _ _ => none⟩

/-- **The table represents the map.** -/
structure Represented (s : Clients) : Prop where
  /-- The entries of an open connection are in the table. -/
  entry : ∀ c fds, s.conns c = some fds → ∀ e prio,
    s.registry c e = some prio ↔ ∃ i, s.disp.db e i = fds.fd prio
  /-- A slot in use is the entry of an open connection. -/
  slot : ∀ e i, s.disp.db e i ≠ -1 → ∃ c fds prio, s.conns c = some fds ∧ s.registry c e = some prio ∧
    s.disp.db e i = fds.fd prio
  /-- No entry is in two slots. -/
  once : ∀ e, Distinct (-1) (s.disp.db e)
  /-- A client without a connection has no entries. -/
  closed : ∀ c, s.conns c = none → ∀ e, s.registry c e = none
  /-- The clients are not refused. -/
  accepted : ∀ c fds, s.conns c = some fds → ∀ (prio : EventDispPriority) events, EventList events →
    (eventDispApiRegisterEvents s.disp (some fds) prio.toInt (some events) lockOk lockOk).1 = .success ∧
    (eventDispApiUnregisterEvents s.disp (some fds) (some events) lockOk).1 = .success ∧
    (eventDispApiClose s.disp (some fds) closeOk).err = .success
  /-- An event goes once to each client registered for it, to the socket of its priority. -/
  generated : ∀ (e : Fin EVENT_DISP_MAX_EVENTS) data dataSize mode noCopy,
    (noCopy = false → dataSize ≤ EVENT_DISP_MAX_BUFF_LEN) → ∃ g : Generated,
      g = eventDispApiGenerateEventMode s.disp e.val data dataSize mode noCopy true (fun _ => sendOk) ∧
      g.err = .success ∧
      (∀ c fds, s.conns c = some fds → g.sent.filter (·.fd ∈ fds.toList) =
        (s.registry c e).toList.map fun prio => ⟨fds.fd prio, eventMessage e data dataSize noCopy⟩) ∧
      ∀ d ∈ g.sent, ∃ c fds, s.conns c = some fds ∧ d.fd ∈ fds.toList

/-! ## Connections -/

/-- Each open connection has three descriptors, which are open and in no other connection. -/
structure ConnsInv (conns : Nat → Option EventDispFds) (num : Nat) (held : Finset Int) : Prop where
  fresh : ∀ c, num ≤ c → conns c = none
  held : ∀ c fds, conns c = some fds → ∀ fd ∈ fds.toList, fd ∈ held
  nodup : ∀ c fds, conns c = some fds → fds.toList.Nodup
  disjoint : ∀ c c' fds fds' fd, conns c = some fds → conns c' = some fds' → fd ∈ fds.toList →
    fd ∈ fds'.toList → c = c'

/-- The clients with an open connection. -/
def openClients (conns : Nat → Option EventDispFds) (num : Nat) : Finset Nat :=
  (Finset.range num).filter fun c => conns c ≠ none

section

variable {conns : Nat → Option EventDispFds} {num : Nat} {held held' : Finset Int}

theorem ConnsInv.mem_openClients (h : ConnsInv conns num held) {c : Nat} :
    c ∈ openClients conns num ↔ conns c ≠ none := by
  unfold openClients
  rw [Finset.mem_filter, Finset.mem_range]
  refine ⟨And.right, fun hc => ⟨?_, hc⟩⟩
  by_contra hge
  exact hc (h.fresh c (Nat.le_of_not_lt hge))

/-- **A new client.** -/
theorem ConnsInv.connect (h : ConnsInv conns num held) {fds : EventDispFds} (hnodup : fds.toList.Nodup)
    (hnew : ∀ fd ∈ fds.toList, fd ∉ held) (hheld : ∀ fd, fd ∈ held' ↔ fd ∈ held ∨ fd ∈ fds.toList) :
    ConnsInv (Function.update conns num (some fds)) (num + 1) held' := by
  have hcases : ∀ c fds', Function.update conns num (some fds) c = some fds' →
      (c = num ∧ fds' = fds) ∨ (c ≠ num ∧ conns c = some fds') := by
    intro c fds' hc
    by_cases hcn : c = num
    · subst hcn
      rw [Function.update_self] at hc
      exact Or.inl ⟨rfl, (Option.some.inj hc).symm⟩
    · rw [Function.update_of_ne hcn] at hc
      exact Or.inr ⟨hcn, hc⟩
  refine ⟨fun c hc => ?_, fun c fds' hc fd hfd => ?_, fun c fds' hc => ?_, ?_⟩
  · rw [Function.update_of_ne (by omega)]
    exact h.fresh c (by omega)
  · rcases hcases c fds' hc with ⟨-, rfl⟩ | ⟨-, hc⟩
    · exact (hheld fd).mpr (Or.inr hfd)
    · exact (hheld fd).mpr (Or.inl (h.held c fds' hc fd hfd))
  · rcases hcases c fds' hc with ⟨-, rfl⟩ | ⟨-, hc⟩
    · exact hnodup
    · exact h.nodup c fds' hc
  · intro c c' fds₁ fds₂ fd hc hc' hfd hfd'
    rcases hcases c fds₁ hc with ⟨rfl, rfl⟩ | ⟨-, hold⟩ <;>
      rcases hcases c' fds₂ hc' with ⟨rfl, rfl⟩ | ⟨-, hold'⟩
    · rfl
    · exact absurd (h.held c' fds₂ hold' fd hfd') (hnew fd hfd)
    · exact absurd (h.held c fds₁ hold fd hfd) (hnew fd hfd')
    · exact h.disjoint c c' fds₁ fds₂ fd hold hold' hfd hfd'

/-- **A client that closes its connection.** -/
theorem ConnsInv.disconnect (h : ConnsInv conns num held) {c : Nat} {fds : EventDispFds}
    (hc : conns c = some fds) (hheld : ∀ fd, fd ∈ held → fd ∉ fds.toList → fd ∈ held') :
    ConnsInv (Function.update conns c none) num held' := by
  have hother : ∀ c' fds', Function.update conns c none c' = some fds' → c' ≠ c ∧ conns c' = some fds' := by
    intro c' fds' hc'
    by_cases hcc : c' = c
    · rw [hcc, Function.update_self] at hc'
      cases hc'
    · rw [Function.update_of_ne hcc] at hc'
      exact ⟨hcc, hc'⟩
  refine ⟨fun c' hge => ?_, fun c' fds' hc' fd hfd => ?_, fun c' fds' hc' => ?_, ?_⟩
  · by_cases hcc : c' = c
    · rw [hcc, Function.update_self]
    · rw [Function.update_of_ne hcc]
      exact h.fresh c' hge
  · obtain ⟨hne, hc'⟩ := hother c' fds' hc'
    exact hheld fd (h.held c' fds' hc' fd hfd) fun hmem => hne (h.disjoint c' c fds' fds fd hc' hc hfd hmem)
  · exact h.nodup c' fds' (hother c' fds' hc').2
  · intro c₁ c₂ fds₁ fds₂ fd h₁ h₂ hfd₁ hfd₂
    exact h.disjoint c₁ c₂ fds₁ fds₂ fd (hother c₁ fds₁ h₁).2 (hother c₂ fds₂ h₂).2 hfd₁ hfd₂

theorem openClients_connect (h : ConnsInv conns num held) (fds : EventDispFds) :
    (openClients (Function.update conns num (some fds)) (num + 1)).card = (openClients conns num).card + 1 := by
  have hnot : num ∉ openClients conns num := by
    rw [h.mem_openClients, not_not]
    exact h.fresh num (Nat.le_refl num)
  rw [← Finset.card_insert_of_notMem hnot]
  congr 1
  ext c
  rw [Finset.mem_insert]
  unfold openClients
  rw [Finset.mem_filter, Finset.mem_filter, Finset.mem_range, Finset.mem_range]
  by_cases hcn : c = num
  · subst hcn
    simp
  · rw [Function.update_of_ne hcn]
    constructor
    · rintro ⟨hlt, hc⟩
      exact Or.inr ⟨by omega, hc⟩
    · rintro (heq | ⟨hlt, hc⟩)
      · exact absurd heq hcn
      · exact ⟨by omega, hc⟩

theorem card_openClients_disconnect (conns : Nat → Option EventDispFds) (num c : Nat) :
    (openClients (Function.update conns c none) num).card ≤ (openClients conns num).card := by
  refine Finset.card_le_card fun c' hc' => ?_
  unfold openClients at hc' ⊢
  rw [Finset.mem_filter] at hc' ⊢
  refine ⟨hc'.1, fun hnone => hc'.2 ?_⟩
  by_cases hcc : c' = c
  · rw [hcc, Function.update_self]
  · rw [Function.update_of_ne hcc]
    exact hnone

end

/-! ## Rows -/

/-- A row holds a descriptor of each client with a priority, and nothing else. -/
structure RowOf (conns : Nat → Option EventDispFds) (prios : Nat → Option EventDispPriority)
    (row : Fin EVENT_DISP_MAX_CON → Int) : Prop where
  distinct : Distinct (-1) row
  mem_used : ∀ fd, fd ∈ used (-1) row ↔
    ∃ c fds prio, conns c = some fds ∧ prios c = some prio ∧ fds.fd prio = fd

section

variable {conns : Nat → Option EventDispFds} {num : Nat} {held : Finset Int}
  {prios : Nat → Option EventDispPriority} {row : Fin EVENT_DISP_MAX_CON → Int} {c : Nat} {fds : EventDispFds}
  {prio : EventDispPriority}

/-- The descriptor of a client in a row. -/
def fdIn (conns : Nat → Option EventDispFds) (prios : Nat → Option EventDispPriority) (c : Nat) : Int :=
  ((conns c).bind fun fds => (prios c).map fds.fd).getD (-1)

/-- The descriptors of a client leave the row. -/
theorem RowOf.unregister (h : RowOf conns prios row) (hconns : ConnsInv conns num held)
    (hc : conns c = some fds) :
    RowOf conns (Function.update prios c none) (dropWhere (-1) row fds.toList) where
  distinct := distinct_dropWhere h.distinct
  mem_used fd := by
    rw [used_dropWhere, Finset.mem_filter, h.mem_used]
    constructor
    · rintro ⟨⟨c', fds', prio', hc', hprio, rfl⟩, hnot⟩
      refine ⟨c', fds', prio', hc', ?_, rfl⟩
      rw [Function.update_of_ne, hprio]
      rintro rfl
      cases Option.some.inj (hc.symm.trans hc')
      exact hnot (fd_mem_toList fds prio')
    · rintro ⟨c', fds', prio', hc', hprio, rfl⟩
      have hne : c' ≠ c := by
        rintro rfl
        rw [Function.update_self] at hprio
        cases hprio
      rw [Function.update_of_ne hne] at hprio
      refine ⟨⟨c', fds', prio', hc', hprio, rfl⟩, fun hmem => hne ?_⟩
      exact hconns.disjoint c' c fds' fds _ hc' hc (fd_mem_toList fds' prio') hmem

/-- **There is room for the descriptor of a client**, whose other entries have left the row. -/
theorem RowOf.exists_free (h : RowOf conns prios row) (hconns : ConnsInv conns num held)
    (hcard : (openClients conns num).card ≤ EVENT_DISP_MAX_CON) (hc : conns c = some fds)
    (hprio : prios c = none) : ∃ i, row i = -1 := by
  refine SlotTable.exists_free h.distinct ?_
  -- the descriptors in the row are those of other clients, one each
  have hsub : used (-1) row ⊆ ((openClients conns num).erase c).image (fdIn conns prios) := by
    intro fd hfd
    obtain ⟨c', fds', prio', hc', hprio', rfl⟩ := (h.mem_used fd).mp hfd
    refine Finset.mem_image.mpr ⟨c', Finset.mem_erase.mpr ⟨?_, hconns.mem_openClients.mpr ?_⟩, ?_⟩
    · rintro rfl
      rw [hprio] at hprio'
      cases hprio'
    · rw [hc']
      exact Option.some_ne_none fds'
    · unfold fdIn
      rw [hc', hprio']
      rfl
  have hmem : c ∈ openClients conns num := by
    rw [hconns.mem_openClients, hc]
    exact Option.some_ne_none fds
  have hle := (Finset.card_le_card hsub).trans Finset.card_image_le
  have hlt := Finset.card_erase_lt_of_mem hmem
  omega

/-- **The descriptor of a priority is put into the row.** -/
theorem RowOf.register (h : RowOf conns prios row) (hconns : ConnsInv conns num held)
    (hcard : (openClients conns num).card ≤ EVENT_DISP_MAX_CON) (hc : conns c = some fds)
    (hnonneg : ∀ fd ∈ held, fd ≠ -1) (hprio : prios c = none) (prio : EventDispPriority) :
    RowOf conns (Function.update prios c (some prio)) (put (-1) row (fds.fd prio)) := by
  have hne : fds.fd prio ≠ -1 := hnonneg _ (hconns.held c fds hc _ (fd_mem_toList fds prio))
  have hnot : fds.fd prio ∉ used (-1) row := by
    rw [h.mem_used]
    rintro ⟨c', fds', prio', hc', hprio', heq⟩
    have hcc : c' = c := hconns.disjoint c' c fds' fds (fds.fd prio) hc' hc
      (heq ▸ fd_mem_toList fds' prio') (fd_mem_toList fds prio)
    rw [hcc, hprio] at hprio'
    cases hprio'
  refine ⟨distinct_put h.distinct hne hnot, fun fd => ?_⟩
  rw [used_put (h.exists_free hconns hcard hc hprio) hne, Finset.mem_insert, h.mem_used]
  constructor
  · rintro (rfl | ⟨c', fds', prio', hc', hprio', rfl⟩)
    · exact ⟨c, fds, prio, hc, Function.update_self .., rfl⟩
    · refine ⟨c', fds', prio', hc', ?_, rfl⟩
      rw [Function.update_of_ne, hprio']
      rintro rfl
      rw [hprio] at hprio'
      cases hprio'
  · rintro ⟨c', fds', prio', hc', hprio', rfl⟩
    by_cases hcc : c' = c
    · subst hcc
      rw [Function.update_self] at hprio'
      cases hprio'
      cases Option.some.inj (hc.symm.trans hc')
      exact Or.inl rfl
    · rw [Function.update_of_ne hcc] at hprio'
      exact Or.inr ⟨c', fds', prio', hc', hprio', rfl⟩

/-- A client without a priority may connect or disconnect. -/
theorem RowOf.congr_conns (h : RowOf conns prios row) (hprio : prios c = none) (conn : Option EventDispFds) :
    RowOf (Function.update conns c conn) prios row where
  distinct := h.distinct
  mem_used fd := by
    rw [h.mem_used]
    have hother : ∀ c' prio', prios c' = some prio' → Function.update conns c conn c' = conns c' := by
      intro c' prio' hprio'
      refine Function.update_of_ne ?_ ..
      rintro rfl
      rw [hprio] at hprio'
      cases hprio'
    constructor
    · rintro ⟨c', fds', prio', hc', hprio', heq⟩
      exact ⟨c', fds', prio', (hother c' prio' hprio').trans hc', hprio', heq⟩
    · rintro ⟨c', fds', prio', hc', hprio', heq⟩
      exact ⟨c', fds', prio', (hother c' prio' hprio').symm.trans hc', hprio', heq⟩

end

/-! ## The calls without failures -/

theorem not_socketOk_fails (fd : Nat) : ¬ (socketOk fd).fails := by
  rintro (h | h)
  · cases h
  · cases h

section

variable {s : Disp} {fds : EventDispFds} {events : List Int}

theorem unregisterEvents_ok (hinit : s.init = true) (hevents : ¬ EventsRange events) :
    eventDispApiUnregisterEvents s (some fds) (some events) lockOk =
      (.success, { s with db := events.foldl (unregisterEvent fds) s.db }) := by
  unfold eventDispApiUnregisterEvents
  rw [if_neg (by rw [hinit]; decide)]
  dsimp only
  rw [if_neg hevents, if_neg (by decide), if_pos (by decide)]

theorem registerEvents_ok (hinit : s.init = true) (hevents : ¬ EventsRange events)
    {prio : EventDispPriority} (hfd : 0 ≤ fds.fd prio) :
    eventDispApiRegisterEvents s (some fds) prio.toInt (some events) lockOk lockOk =
      (.success, { s with
        db := events.foldl (registerEvent (fds.fd prio)) (events.foldl (unregisterEvent fds) s.db) }) := by
  unfold eventDispApiRegisterEvents
  rw [if_neg (by rw [hinit]; decide)]
  dsimp only
  rw [if_neg hevents, unregisterEvents_ok hinit hevents, if_neg (not_not.mpr rfl), fdOfPrio_toInt]
  dsimp only
  rw [if_neg (not_lt.mpr hfd), if_neg (by decide), if_pos (by decide)]

theorem closeConnection_ok (hinit : s.init = true) (hfds : ∀ fd ∈ fds.toList, 0 ≤ fd) :
    (eventDispApiClose s (some fds) closeOk).err = .success := by
  have hclose : ∀ (s : Disp) fd, fd ∈ fds.toList → (eventDispCloseSocket s fd true).1 = .success := by
    intro s fd hfd
    unfold eventDispCloseSocket
    rw [if_neg (not_lt.mpr (hfds fd hfd))]
    rfl
  unfold eventDispApiClose
  rw [if_neg (by rw [hinit]; decide)]
  dsimp only
  rw [if_neg (by decide)]
  show firstErr (firstErr (firstErr (eventDispCloseSocket _ fds.highFd true).1
    (eventDispCloseSocket _ fds.medFd true).1) (eventDispCloseSocket _ fds.lowFd true).1) .success = .success
  rw [hclose _ fds.highFd (fd_mem_toList fds .high), hclose _ fds.medFd (fd_mem_toList fds .med),
    hclose _ fds.lowFd (fd_mem_toList fds .low)]
  rfl

/-- An event changes nothing but its counters. -/
theorem generate_frame (s : Disp) (event : Int) (data : Option (List UInt8)) (dataSize : Nat) (mode : SendMode)
    (noCopy lock : Bool) (answers : Fin EVENT_DISP_MAX_CON → SendAnswer) : ∃ genCounter totalGenCounter,
    (eventDispApiGenerateEventMode s event data dataSize mode noCopy lock answers).state =
      { s with genCounter := genCounter, totalGenCounter := totalGenCounter } := by
  have hsame : ∃ genCounter totalGenCounter, s =
      { s with genCounter := genCounter, totalGenCounter := totalGenCounter } :=
    ⟨s.genCounter, s.totalGenCounter, rfl⟩
  unfold eventDispApiGenerateEventMode
  split
  · exact hsame
  · split
    · exact hsame
    · split
      · exact hsame
      · split
        · exact hsame
        · dsimp only
          split
          · exact hsame
          · exact ⟨_, _, rfl⟩

/-- An event in range is sent to the slots in use. -/
theorem generate_ok (hinit : s.init = true) (e : Fin EVENT_DISP_MAX_EVENTS) (data : Option (List UInt8))
    (dataSize : Nat) (mode : SendMode) (noCopy : Bool)
    (hsize : noCopy = false → dataSize ≤ EVENT_DISP_MAX_BUFF_LEN) :
    (eventDispApiGenerateEventMode s e.val data dataSize mode noCopy true fun _ => sendOk).err = .success ∧
    (eventDispApiGenerateEventMode s e.val data dataSize mode noCopy true fun _ => sendOk).sent =
      datagrams (s.db e) (eventMessage e data dataSize noCopy) (List.finRange EVENT_DISP_MAX_CON) := by
  have hloop := sendEvents_ok (s.db e) (eventMessage e data dataSize noCopy) mode
    (List.finRange EVENT_DISP_MAX_CON) ⟨.success, .success, [], none⟩ rfl (by decide)
  rw [List.nil_append] at hloop
  have hlong : ¬ (noCopy = false ∧ EVENT_DISP_MAX_BUFF_LEN < dataSize) :=
    fun h => absurd (hsize h.1) (Nat.not_le.mpr h.2)
  unfold eventDispApiGenerateEventMode
  rw [if_neg (by rw [hinit]; decide), if_neg hlong, eventRow_eq_some.mpr rfl]
  dsimp only
  rw [if_neg (Bool.noConfusion : ¬ true = false)]
  generalize (List.finRange EVENT_DISP_MAX_CON).foldl _ _ = r at hloop ⊢
  obtain ⟨herr, hsend, hsent⟩ := hloop
  rw [if_neg (not_not.mpr herr)]
  exact ⟨hsend, hsent⟩

end

/-- A row of distinct descriptors gets one datagram for each. -/
theorem filter_datagrams {row : Fin EVENT_DISP_MAX_CON → Int} (hdistinct : Distinct (-1) row)
    (message : List UInt8) (l : List Int) (target : Option Int)
    (htarget : ∀ fd, fd ∈ used (-1) row ∧ fd ∈ l ↔ target = some fd) :
    (datagrams row message (List.finRange EVENT_DISP_MAX_CON)).filter (·.fd ∈ l) =
      target.toList.map fun fd => ⟨fd, message⟩ := by
  have hmem : ∀ d, d ∈ datagrams row message (List.finRange EVENT_DISP_MAX_CON) ↔
      d.fd ∈ used (-1) row ∧ d.payload = message := by
    intro d
    unfold datagrams
    simp only [List.mem_map, List.mem_filter, List.mem_finRange, true_and, decide_eq_true_eq, mem_used]
    constructor
    · rintro ⟨i, hi, rfl⟩
      exact ⟨⟨hi, i, rfl⟩, rfl⟩
    · rintro ⟨⟨hne, i, hi⟩, hpayload⟩
      refine ⟨i, hi ▸ hne, ?_⟩
      cases d
      cases hi
      cases hpayload
      rfl
  have hnodup : (datagrams row message (List.finRange EVENT_DISP_MAX_CON)).Nodup := by
    unfold datagrams
    refine List.Nodup.map_on ?_ ((List.nodup_finRange _).filter _)
    intro i hi j _ hij
    have hne : row i ≠ -1 := by simpa using (List.mem_filter.mp hi).2
    exact hdistinct i j hne (congrArg Datagram.fd hij)
  have hperm : ∀ d, d ∈ (datagrams row message (List.finRange EVENT_DISP_MAX_CON)).filter (·.fd ∈ l) ↔
      d ∈ target.toList.map fun fd => (⟨fd, message⟩ : Datagram) := by
    intro d
    rw [List.mem_filter, decide_eq_true_eq, hmem, List.mem_map]
    constructor
    · rintro ⟨⟨hused, hpayload⟩, hl⟩
      refine ⟨d.fd, Option.mem_toList.mpr ((htarget d.fd).mp ⟨hused, hl⟩), ?_⟩
      rw [← hpayload]
    · rintro ⟨fd, hfd, rfl⟩
      obtain ⟨hused, hl⟩ := (htarget fd).mpr (Option.mem_toList.mp hfd)
      exact ⟨⟨hused, rfl⟩, hl⟩
  cases target with
  | none =>
    refine List.eq_nil_iff_forall_not_mem.mpr fun d hd => ?_
    exact absurd ((hperm d).mp hd) List.not_mem_nil
  | some fd =>
    refine List.perm_singleton.mp ((List.perm_ext_iff_of_nodup (hnodup.filter _) (List.nodup_singleton _)).mpr ?_)
    exact hperm

/-! ## The invariant -/

/-- The table is as the map says, and each client has its own descriptors. -/
structure ClientsInv (s : Clients) : Prop where
  table : Table s.disp
  init : s.disp.init = true
  conns : ConnsInv s.conns s.numClients s.disp.held
  card : (openClients s.conns s.numClients).card ≤ s.disp.con
  closed : ∀ c, s.conns c = none → ∀ e, s.registry c e = none
  rows : ∀ e, RowOf s.conns (s.registry · e) (s.disp.db e)

section

variable {s s' : Clients} {c : Nat} {fds : EventDispFds} {events : List Int}

theorem ClientsInv.nonneg (h : ClientsInv s) (hc : s.conns c = some fds) : ∀ fd ∈ fds.toList, 0 ≤ fd :=
  fun fd hfd => h.table.nonneg fd (h.conns.held c fds hc fd hfd)

/-- The entries of an event after those of a client have changed. -/
theorem update_entries (registry : Registry) (c : Nat) (f : Fin EVENT_DISP_MAX_EVENTS → Option EventDispPriority)
    (e : Fin EVENT_DISP_MAX_EVENTS) :
    (fun c' => Function.update registry c f c' e) = Function.update (registry · e) c (f e) := by
  funext c'
  by_cases hcc : c' = c
  · rw [hcc, Function.update_self, Function.update_self]
  · rw [Function.update_of_ne hcc, Function.update_of_ne hcc]

/-- A change of the entries of an open client keeps the other clients closed or open. -/
theorem ClientsInv.closed_update (h : ClientsInv s) (hc : s.conns c = some fds)
    (f : Fin EVENT_DISP_MAX_EVENTS → Option EventDispPriority) :
    ∀ c', s.conns c' = none → ∀ e, Function.update s.registry c f c' e = none := by
  intro c' hc' e
  rw [Function.update_of_ne]
  · exact h.closed c' hc' e
  · rintro rfl
    rw [hc] at hc'
    cases hc'

/-- **A client registers for events.** -/
theorem ClientsInv.register (h : ClientsInv s) (hc : s.conns c = some fds) (hnodup : events.Nodup)
    (prio : EventDispPriority) : ClientsInv { s with
      disp := { s.disp with
        db := events.foldl (registerEvent (fds.fd prio)) (events.foldl (unregisterEvent fds) s.disp.db) }
      registry := s.registry.register c prio events } where
  table := ⟨⟨h.table.distinct, h.table.used, h.table.nonneg⟩, h.table.card, h.table.con_le, h.table.down⟩
  init := h.init
  conns := h.conns
  card := h.card
  closed := h.closed_update hc _
  rows e := by
    show RowOf s.conns (fun c' => s.registry.register c prio events c' e)
      ((events.foldl (registerEvent (fds.fd prio)) (events.foldl (unregisterEvent fds) s.disp.db) : Db) e)
    unfold Registry.register
    rw [update_entries, registerEvents_apply _ hnodup, unregisterEvents_apply]
    split
    · have hcard := h.card.trans h.table.con_le
      have hrow := ((h.rows e).unregister h.conns hc).register h.conns hcard hc
        (fun fd hfd => h.table.ne_neg_one hfd) (Function.update_self ..) prio
      rwa [Function.update_idem] at hrow
    · rw [Function.update_eq_self]
      exact h.rows e

/-- **A client unregisters from events.** -/
theorem ClientsInv.unregister (h : ClientsInv s) (hc : s.conns c = some fds) (events : List Int) :
    ClientsInv { s with
      disp := { s.disp with db := events.foldl (unregisterEvent fds) s.disp.db }
      registry := s.registry.unregister c events } where
  table := ⟨⟨h.table.distinct, h.table.used, h.table.nonneg⟩, h.table.card, h.table.con_le, h.table.down⟩
  init := h.init
  conns := h.conns
  card := h.card
  closed := h.closed_update hc _
  rows e := by
    show RowOf s.conns (fun c' => s.registry.unregister c events c' e)
      ((events.foldl (unregisterEvent fds) s.disp.db : Db) e)
    unfold Registry.unregister
    rw [update_entries, unregisterEvents_apply]
    split
    · exact (h.rows e).unregister h.conns hc
    · rw [Function.update_eq_self]
      exact h.rows e

/-- **A client closes its connection.** -/
theorem ClientsInv.close (h : ClientsInv s) (hc : s.conns c = some fds) : ClientsInv { s with
    disp := (eventDispApiClose s.disp (some fds) closeOk).state
    conns := Function.update s.conns c none
    registry := s.registry.close c } := by
  have hpasses : ¬ CloseStops s.disp closeOk.lock := by
    rintro (hdown | hlock)
    · rw [h.init] at hdown
      cases hdown
    · cases hlock
  obtain ⟨hsockets, hcon, hinit, hdb, hheld⟩ := closeConnection_spec h.table.toSockets fds hpasses
  refine ⟨h.table.of_erase hsockets hcon hinit hheld, hinit.trans h.init, ?_, ?_, ?_, fun e => ?_⟩
  · refine h.conns.disconnect hc fun fd hfd hnot => ?_
    simp only [EventDispFds.toList, List.mem_cons, List.not_mem_nil, or_false, not_or] at hnot
    rw [hheld]
    exact Finset.mem_erase.mpr ⟨hnot.2.2, Finset.mem_erase.mpr ⟨hnot.2.1, Finset.mem_erase.mpr ⟨hnot.1, hfd⟩⟩⟩
  · show _ ≤ (eventDispApiClose s.disp (some fds) closeOk).state.con
    rw [hcon]
    exact (card_openClients_disconnect s.conns s.numClients c).trans h.card
  · intro c' hc' e
    show Function.update s.registry c (fun _ => none) c' e = none
    by_cases hcc : c' = c
    · rw [hcc, Function.update_self]
    · have hnone : s.conns c' = none := by
        rw [← hc']
        exact (Function.update_of_ne hcc ..).symm
      rw [Function.update_of_ne hcc]
      exact h.closed c' hnone e
  · show RowOf (Function.update s.conns c none) (fun c' => Function.update s.registry c (fun _ => none) c' e)
      ((eventDispApiClose s.disp (some fds) closeOk).state.db e)
    rw [update_entries, hdb]
    exact ((h.rows e).unregister h.conns hc).congr_conns (Function.update_self ..) none

/-- **A new client.** -/
theorem ClientsInv.connect (h : ClientsInv s) {high med low : Int} {d : Disp} (htable : Table d)
    (hfresh : high ∉ s.disp.held ∧ med ∉ s.disp.held ∧ low ∉ s.disp.held)
    (hdistinct : high ≠ med ∧ high ≠ low ∧ med ≠ low) (hcon : d.con = s.disp.con + 1)
    (hinit : d.init = s.disp.init) (hdb : d.db = s.disp.db)
    (hheld : d.held = insert low (insert med (insert high s.disp.held))) : ClientsInv { s with
      disp := d
      conns := Function.update s.conns s.numClients (some ⟨high, med, low⟩)
      numClients := s.numClients + 1 } where
  table := htable
  init := hinit.trans h.init
  conns := by
    refine h.conns.connect ?_ ?_ fun fd => ?_
    · simpa [EventDispFds.toList, and_assoc] using hdistinct
    · intro fd hfd
      simp only [EventDispFds.toList, List.mem_cons, List.not_mem_nil, or_false] at hfd
      rcases hfd with rfl | rfl | rfl
      · exact hfresh.1
      · exact hfresh.2.1
      · exact hfresh.2.2
    · show fd ∈ d.held ↔ _
      rw [hheld, Finset.mem_insert, Finset.mem_insert, Finset.mem_insert]
      simp only [EventDispFds.toList, List.mem_cons, List.not_mem_nil, or_false]
      tauto
  card := by
    show (openClients _ _).card ≤ d.con
    rw [openClients_connect h.conns, hcon]
    exact Nat.add_le_add_right h.card 1
  closed c hc e := by
    refine h.closed c ?_ e
    by_cases hcn : c = s.numClients
    · rw [hcn]
      exact h.conns.fresh _ (Nat.le_refl _)
    · rw [← hc]
      exact (Function.update_of_ne hcn ..).symm
  rows e := by
    show RowOf _ (s.registry · e) (d.db e)
    rw [hdb]
    exact (h.rows e).congr_conns (h.closed _ (h.conns.fresh _ (Nat.le_refl _)) e) _

/-- An event leaves the tables and the open descriptors as they are. -/
theorem ClientsInv.generate (h : ClientsInv s) (event : Int) (data : Option (List UInt8)) (dataSize : Nat)
    (mode : SendMode) (noCopy lock : Bool) (answers : Fin EVENT_DISP_MAX_CON → SendAnswer) :
    ClientsInv { s with
      disp := (eventDispApiGenerateEventMode s.disp event data dataSize mode noCopy lock answers).state } ∧
    (eventDispApiGenerateEventMode s.disp event data dataSize mode noCopy lock answers).state.held = s.disp.held := by
  obtain ⟨genCounter, totalGenCounter, hstate⟩ := generate_frame s.disp event data dataSize mode noCopy lock answers
  rw [hstate]
  exact ⟨⟨⟨⟨h.table.distinct, h.table.used, h.table.nonneg⟩, h.table.card, h.table.con_le, h.table.down⟩,
    h.init, h.conns, h.card, h.closed, h.rows⟩, rfl⟩

/-- **Each call keeps the invariant.** -/
theorem clientStep_inv {call : ClientCall} (h : ClientsInv s) (hstep : clientStep s call = some s') :
    ClientsInv s' := by
  cases call with
  | «open» high med low =>
    rw [clientStep] at hstep
    obtain ⟨r, ho, rfl⟩ := Option.map_eq_some_iff.mp hstep
    by_cases hstops : OpenStops s.disp (openOk high med low).lock
    · obtain ⟨err, herr, rfl, -⟩ := eventDispApiOpen_stops hstops ho
      rw [openBail_reset]
      dsimp only
      rw [if_neg herr]
      exact h
    · have houtcome := eventDispApiOpen_sockets h.table hstops ho
      have htable := houtcome.table h.table hstops
      cases houtcome with
      | connected high med low d _ hfresh hdistinct _ hframe hheld _ =>
        exact h.connect htable hfresh hdistinct hframe.1 hframe.2.1 hframe.2.2 hheld
      | first hfails => exact absurd hfails (not_socketOk_fails high)
      | later _ _ _ hfails _ _ _ _ _ =>
        exact absurd hfails (not_or.mpr ⟨not_socketOk_fails med, not_socketOk_fails low⟩)
  | register c prio events =>
    rw [clientStep] at hstep
    split at hstep
    · rename_i hevents
      obtain ⟨fds, hc, rfl⟩ := Option.map_eq_some_iff.mp hstep
      rw [registerEvents_ok h.init hevents.2 (h.nonneg hc _ (fd_mem_toList fds prio))]
      exact h.register hc hevents.1 prio
    · cases hstep
  | unregister c events =>
    rw [clientStep] at hstep
    split at hstep
    · rename_i hevents
      obtain ⟨fds, hc, rfl⟩ := Option.map_eq_some_iff.mp hstep
      rw [unregisterEvents_ok h.init hevents.2]
      exact h.unregister hc events
    · cases hstep
  | close c =>
    rw [clientStep] at hstep
    obtain ⟨fds, hc, rfl⟩ := Option.map_eq_some_iff.mp hstep
    exact h.close hc
  | generate event data dataSize mode noCopy =>
    rw [clientStep] at hstep
    cases hstep
    exact (h.generate ..).1

/-- **The invariant gives the property.** -/
theorem ClientsInv.represented (h : ClientsInv s) : Represented s where
  entry c fds hc e prio := by
    constructor
    · intro hprio
      exact (mem_used.mp (((h.rows e).mem_used _).mpr ⟨c, fds, prio, hc, hprio, rfl⟩)).2
    · rintro ⟨i, hi⟩
      have hne : fds.fd prio ≠ -1 := by
        have := h.nonneg hc _ (fd_mem_toList fds prio)
        omega
      obtain ⟨c', fds', prio', hc', hprio', heq⟩ := ((h.rows e).mem_used _).mp (mem_used.mpr ⟨hne, i, hi⟩)
      have hcc : c' = c := h.conns.disjoint c' c fds' fds _ hc' hc (heq ▸ fd_mem_toList fds' prio')
        (fd_mem_toList fds prio)
      subst hcc
      cases Option.some.inj (hc.symm.trans hc')
      rw [← fd_injective (h.conns.nodup c' fds hc) heq]
      exact hprio'
  slot e i hi := by
    obtain ⟨c, fds, prio, hc, hprio, heq⟩ := ((h.rows e).mem_used _).mp (mem_used.mpr ⟨hi, i, rfl⟩)
    exact ⟨c, fds, prio, hc, hprio, heq.symm⟩
  once e := (h.rows e).distinct
  closed := h.closed
  accepted c fds hc prio events hevents := by
    refine ⟨?_, ?_, closeConnection_ok h.init (h.nonneg hc)⟩
    · rw [registerEvents_ok h.init hevents.2 (h.nonneg hc _ (fd_mem_toList fds prio))]
    · rw [unregisterEvents_ok h.init hevents.2]
  generated e data dataSize mode noCopy hsize := by
    obtain ⟨herr, hsent⟩ := generate_ok h.init e data dataSize mode noCopy hsize
    refine ⟨_, rfl, herr, ?_, ?_⟩
    · intro c fds hc
      rw [hsent, filter_datagrams (h.rows e).distinct _ fds.toList ((s.registry c e).map fds.fd)]
      · cases s.registry c e <;> rfl
      · intro fd
        rw [(h.rows e).mem_used, Option.map_eq_some_iff]
        constructor
        · rintro ⟨⟨c', fds', prio, hc', hprio, rfl⟩, hmem⟩
          have hcc : c' = c := h.conns.disjoint c' c fds' fds _ hc' hc (fd_mem_toList fds' prio) hmem
          subst hcc
          cases Option.some.inj (hc.symm.trans hc')
          exact ⟨prio, hprio, rfl⟩
        · rintro ⟨prio, hprio, rfl⟩
          exact ⟨⟨c, fds, prio, hc, hprio, rfl⟩, fd_mem_toList fds prio⟩
    · intro d hd
      rw [hsent] at hd
      obtain ⟨i, hi, rfl⟩ := List.mem_map.mp hd
      have hne : s.disp.db e i ≠ -1 := by simpa using (List.mem_filter.mp hi).2
      obtain ⟨c, fds, prio, hc, -, heq⟩ := ((h.rows e).mem_used _).mp (mem_used.mpr ⟨hne, i, rfl⟩)
      exact ⟨c, fds, hc, heq ▸ fd_mem_toList fds prio⟩

end

/-- The invariant holds without clients. -/
theorem clientsInv_start : ClientsInv startClients where
  table := by
    rcases eventDispApiInit_spec bootDisp true fun _ => rfl with ⟨hup, -⟩ | ⟨-, htable, -⟩
    · cases hup
    · exact htable
  init := rfl
  conns := by
    refine ⟨fun _ _ => rfl, ?_, ?_, ?_⟩
    · intro c fds hc
      cases hc
    · intro c fds hc
      cases hc
    · intro c c' fds fds' fd hc
      cases hc
  card := Nat.zero_le _
  closed _ _ _ := rfl
  rows e := by
    refine ⟨fun i j hi => absurd rfl hi, fun fd => ?_⟩
    constructor
    · intro hfd
      obtain ⟨hne, i, hi⟩ := mem_used.mp hfd
      exact absurd hi.symm hne
    · rintro ⟨c, fds, prio, hc, -⟩
      cases hc

/-! ## All runs -/

/-- **The table represents the map in every run** of any number of clients. -/
theorem registry_represented (calls : List ClientCall) (s : Clients)
    (hrun : run clientStep startClients calls = some s) : Represented s :=
  (invariant_of_step (fun h hstep => clientStep_inv h hstep) calls clientsInv_start hrun).represented

/-- Two clients; the first replaces a priority and closes, and a third gets its descriptors. -/
theorem registry_represented_three : ∃ s, run clientStep startClients
    [.open 5 6 7, .open 8 9 10, .register 0 .high [3, 250], .register 1 .low [3], .register 0 .med [4, 3],
      .unregister 0 [4], .generate 3 none 0 .nonBlocking false, .close 0, .open 5 6 7, .register 2 .high [3]] =
      some s ∧ Represented s := by
  have hsome : (run clientStep startClients
      [.open 5 6 7, .open 8 9 10, .register 0 .high [3, 250], .register 1 .low [3], .register 0 .med [4, 3],
        .unregister 0 [4], .generate 3 none 0 .nonBlocking false, .close 0, .open 5 6 7,
        .register 2 .high [3]]).isSome = true := by
    decide +kernel
  obtain ⟨s, hs⟩ := Option.isSome_iff_exists.mp hsome
  exact ⟨s, hs, registry_represented _ s hs⟩

end MlnxLib.EventDisp
