import MlnxLib.CtrlLearn.Conservation

/-!
# Failing adds

`fdb_uc_db_add_record` stores or overwrites the record before it links it, and undoes nothing when
a link fails.  A failing call therefore changes nothing only when it fails at its first step, the
allocation of a new record.

Principal results: `failing_add_unchanged_iff` — for every reachable state and every entry, a
failing add leaves the database unchanged exactly when the branch that stores and then fails is
not taken (`AddAllOrNothing`); `failing_add_changes_db` — one input that takes it.
-/

set_option autoImplicit false

namespace MlnxLib.CtrlLearn

/-! ## The condition -/

/-- The heads a link at `mapKey` needs. -/
def needsHead (s : Fdb) (mapKey : Nat) : Nat := if (s.fbdFilterMap.get mapKey).isNone then 1 else 0

/-- The heads a de-link of the item gives back. -/
def freesHead (s : Fdb) (fld : FltrField) (i : Nat) : Nat :=
  if (s.links (.entry fld i)).next = (s.links (.entry fld i)).prev then 1 else 0

def isLinked (s : Fdb) (fld : FltrField) (i : Nat) : Bool := (s.links (.entry fld i)).next.isSome

/-- An add of `e` either links the record completely or fails before it stores anything.

* A new key: the record pool is empty, or the vid has a list and the missing heads are free.
* A known key: the port stays, or both port items are linked and every head needed is there, free,
  or given back by a de-link made before. -/
def AddAllOrNothing (s : Fdb) (e : MacEntry) : Prop :=
  let newPort := buildPortKey e.macParams.logPort
  let newPortVid := buildPortVidKey e.macParams.logPort e.macParams.vid
  let free := clPoolCount s.fdbFltrPool
  match s.fdbMap.get e.macParams.key with
  | none =>
    clPoolCount s.mainDbPool = 0 ∨
    (e.macParams.vid.toNat < MAX_VLAN_ENTRIES ∧ needsHead s newPort + needsHead s newPortVid ≤ free)
  | some i =>
    (s.records i).macParams.logPort = e.macParams.logPort ∨
    (isLinked s .port i ∧ isLinked s .vidPort i ∧
      needsHead s newPort ≤ free + freesHead s .port i ∧
      needsHead s newPort + needsHead s newPortVid ≤
        free + freesHead s .port i + freesHead s .vidPort i)

/-- Two states hold the same database. -/
structure Unchanged (s s' : Fdb) : Prop where
  fdbMap : s'.fdbMap = s.fdbMap
  records : ∀ i ∈ s.fdbMap.values, s'.records i = s.records i
  vlanLists : ∀ v, v < MAX_VLAN_ENTRIES → s'.vlanCount v = s.vlanCount v ∧
    ∀ xs, Ring.IsRing s'.links (.vlanEnd v) xs ↔ Ring.IsRing s.links (.vlanEnd v) xs
  heads : s'.fbdFilterMap = s.fbdFilterMap
  fltrLists : ∀ j ∈ s.fbdFilterMap.values,
    ∀ xs, Ring.IsRing s'.links (.fltrEnd j) xs ↔ Ring.IsRing s.links (.fltrEnd j) xs
  mainFree : clPoolCount s'.mainDbPool = clPoolCount s.mainDbPool
  fltrFree : clPoolCount s'.fdbFltrPool = clPoolCount s.fdbFltrPool

theorem Unchanged.rfl {s : Fdb} : Unchanged s s :=
  ⟨Eq.refl _, fun _ _ => Eq.refl _, fun _ _ => ⟨Eq.refl _, fun _ => Iff.rfl⟩, Eq.refl _,
    fun _ _ _ => Iff.rfl, Eq.refl _, Eq.refl _⟩

/-! ## Reading the condition off the index -/

theorem needsHead_eq {s : Fdb} {L : Index} (hr : Represents s L) (k : Nat) :
    needsHead s k = headCost L k := by
  unfold needsHead headCost
  simp only [Option.isNone_iff_eq_none, hr.get_none_iff]

theorem freesHead_eq {s : Fdb} {L : Index} (hr : Represents s L) {f : FltrField} {i k : Nat}
    (hmem : .entry f i ∈ L (.key k)) : freesHead s f i = headFreed L k (.entry f i) := by
  unfold freesHead headFreed
  simp only [hr.family.alone_iff hmem]

theorem isLinked_iff {s : Fdb} {L : Index} (hr : Represents s L) {f : FltrField} {i : Nat} :
    isLinked s f i = true ↔ L.Linked f i := by
  unfold isLinked
  constructor
  · intro h
    apply Classical.byContradiction
    intro hn
    rw [hr.links_unlinked (fun l hl => hn ⟨l, hl⟩)] at h
    cases h
  · rintro ⟨l, hl⟩
    obtain ⟨n, p, hn, -⟩ := hr.family.links_of_mem hl
    rw [hn]
    rfl

theorem headCost_congr {L L' : Index} {k : Nat} (h : L' (.key k) = L (.key k)) :
    headCost L' k = headCost L k := by
  unfold headCost
  rw [h]

/-- With 32-bit ports the two heads of a new record are distinct. -/
theorem linkAllCost_eq {L : Index} {i : Nat} {p : MacParams} (hp : p.logPort.toNat < 2 ^ 32) :
    linkAllCost L i p =
      headCost L (buildPortKey p.logPort) + headCost L (buildPortVidKey p.logPort p.vid) := by
  unfold linkAllCost
  rw [headCost_congr (Index.insert_of_ne L _ _)]
  simpa using (buildPortKey_ne_portVidKey hp hp p.vid).symm

theorem movePort_key {L : Index} {i : Nat} {p q : MacParams} {k : Nat}
    (h : k ≠ buildPortKey p.logPort) (h' : k ≠ buildPortKey q.logPort) :
    movePort L i p q (.key k) = L (.key k) := by
  unfold movePort Index.swap
  rw [Index.insert_of_ne _ _ (by simpa using h'), Index.remove_of_ne _ _ (by simpa using h)]

/-- **`CanMove` with 32-bit ports**: none of the four keys of a move coincide. -/
theorem canMove_iff {L : Index} {i free : Nat} {p q : MacParams}
    (hp : p.logPort.toNat < 2 ^ 32) (hq : q.logPort.toNat < 2 ^ 32) (hne : p.logPort ≠ q.logPort) :
    CanMove L i p q free ↔
      .entry .port i ∈ L (.key (buildPortKey p.logPort)) ∧
      .entry .vidPort i ∈ L (.key (buildPortVidKey p.logPort q.vid)) ∧
      headCost L (buildPortKey q.logPort) ≤
        free + headFreed L (buildPortKey p.logPort) (.entry .port i) ∧
      headCost L (buildPortKey q.logPort) + headCost L (buildPortVidKey q.logPort q.vid) ≤
        free + headFreed L (buildPortKey p.logPort) (.entry .port i) +
          headFreed L (buildPortVidKey p.logPort q.vid) (.entry .vidPort i) := by
  have hports : buildPortKey q.logPort ≠ buildPortKey p.logPort :=
    fun he => hne (buildPortKey_inj hq hp he).symm
  have hvids : buildPortVidKey q.logPort q.vid ≠ buildPortVidKey p.logPort q.vid :=
    fun he => hne (buildPortVidKey_inj hq hp he).1.symm
  have hold : movePort L i p q (.key (buildPortVidKey p.logPort q.vid)) =
      L (.key (buildPortVidKey p.logPort q.vid)) :=
    movePort_key (buildPortKey_ne_portVidKey hp hp _).symm (buildPortKey_ne_portVidKey hq hp _).symm
  have hnew : movePort L i p q (.key (buildPortVidKey q.logPort q.vid)) =
      L (.key (buildPortVidKey q.logPort q.vid)) :=
    movePort_key (buildPortKey_ne_portVidKey hp hq _).symm (buildPortKey_ne_portVidKey hq hq _).symm
  have hcost₁ : headCost (L.remove (.key (buildPortKey p.logPort)) (.entry .port i))
      (buildPortKey q.logPort) = headCost L (buildPortKey q.logPort) :=
    headCost_congr (Index.remove_of_ne _ _ (by simpa using hports))
  have hcost₂ : headCost ((movePort L i p q).remove (.key (buildPortVidKey p.logPort q.vid))
      (.entry .vidPort i)) (buildPortVidKey q.logPort q.vid) =
      headCost L (buildPortVidKey q.logPort q.vid) := by
    rw [headCost_congr (Index.remove_of_ne _ _ (by simpa using hvids)), headCost_congr hnew]
  have hfreed : headFreed (movePort L i p q) (buildPortVidKey p.logPort q.vid) (.entry .vidPort i) =
      headFreed L (buildPortVidKey p.logPort q.vid) (.entry .vidPort i) := by
    unfold headFreed
    rw [hold]
  unfold CanMove CanSwap
  rw [hold, hcost₁, hcost₂, hfreed]
  constructor
  · rintro ⟨⟨h₁, h₂⟩, h₃, h₄⟩
    exact ⟨h₁, h₃, h₂, by omega⟩
  · rintro ⟨h₁, h₃, h₂, h₄⟩
    exact ⟨⟨h₁, h₂⟩, h₃, by omega⟩

/-! ## Ports of the stored records -/

/-- Every stored record has a port of `P`. -/
def PortsIn (P : UInt64 → Prop) (s : Fdb) : Prop :=
  ∀ i ∈ s.fdbMap.values, P (s.records i).macParams.logPort

section Ports

variable {P : UInt64 → Prop} {s s' : Fdb} {e : MacEntry}

theorem PortsIn.created (h : PortsIn P s) {i : Nat} {pool : Pool}
    (hk : s.fdbMap.get e.macParams.key = none) (he : P e.macParams.logPort) :
    PortsIn P (created s i pool e) := by
  intro j hj
  rw [CtrlLearn.created] at hj ⊢
  rcases List.mem_cons.mp ((OrdMap.values_insert i hk).mem_iff.mp hj) with rfl | hj
  · simpa using he
  · by_cases hji : j = i
    · subst hji; simpa using he
    · simpa [hji] using h j hj

theorem PortsIn.setRecord (h : PortsIn P s) {i : Nat} (he : P e.macParams.logPort) :
    PortsIn P (setRecord s i e) := by
  intro j hj
  unfold CtrlLearn.setRecord at hj ⊢
  by_cases hji : j = i
  · subst hji; simpa using he
  · simpa [hji] using h j hj

theorem PortsIn.sameDb (h : PortsIn P s) (hdb : SameDb s s') : PortsIn P s' := by
  unfold PortsIn
  rw [hdb.fdbMap, hdb.records]
  exact h

theorem PortsIn.add {L : Index} (hinv : FdbInv s L) (h : PortsIn P s) (he : P e.macParams.logPort) :
    PortsIn P (fdbUcDbAddRecord s (some e)).2 := by
  cases add_spec hinv e with
  | full _ _ hr => rw [hr]; exact h
  | newOk _ _ hk _ _ hdb => exact (h.created hk he).sameDb hdb
  | newErr _ _ hk _ _ hdb => exact (h.created hk he).sameDb hdb
  | refresh _ _ _ hr => rw [hr]; exact h.setRecord he
  | moveOk _ _ _ _ hdb => exact (h.setRecord he).sameDb hdb
  | moveErr _ _ _ _ hdb => exact (h.setRecord he).sameDb hdb

end Ports

/-- Every stored record has a 32-bit port. -/
def PortsBelow (s : Fdb) : Prop :=
  ∀ i ∈ s.fdbMap.values, (s.records i).macParams.logPort.toNat < 2 ^ 32

/-- The calls of a run whose entries have 32-bit ports. -/
def FdbOp.PortBelow : FdbOp → Prop
  | .add (some e) => e.macParams.logPort.toNat < 2 ^ 32
  | _ => True

theorem portsBelow_iff {s : Fdb} : PortsBelow s ↔ PortsIn (fun p => p.toNat < 2 ^ 32) s := Iff.rfl

theorem PortsBelow.created {s : Fdb} (h : PortsBelow s) {i : Nat} {pool : Pool} {e : MacEntry}
    (hk : s.fdbMap.get e.macParams.key = none) (he : e.macParams.logPort.toNat < 2 ^ 32) :
    PortsBelow (created s i pool e) :=
  portsBelow_iff.mpr ((portsBelow_iff.mp h).created hk he)

theorem PortsBelow.setRecord {s : Fdb} (h : PortsBelow s) {i : Nat} {e : MacEntry}
    (he : e.macParams.logPort.toNat < 2 ^ 32) : PortsBelow (setRecord s i e) :=
  portsBelow_iff.mpr ((portsBelow_iff.mp h).setRecord he)

theorem PortsBelow.sameDb {s s' : Fdb} (h : PortsBelow s) (hdb : SameDb s s') : PortsBelow s' :=
  portsBelow_iff.mpr ((portsBelow_iff.mp h).sameDb hdb)

theorem PortsBelow.add {s : Fdb} {L : Index} (hinv : FdbInv s L) (h : PortsBelow s) {e : MacEntry}
    (he : e.macParams.logPort.toNat < 2 ^ 32) : PortsBelow (fdbUcDbAddRecord s (some e)).2 :=
  portsBelow_iff.mpr ((portsBelow_iff.mp h).add hinv he)

theorem PortsBelow.delete {s : Fdb} {L : Index} (hinv : FdbInv s L) (h : PortsBelow s) (i : Nat) :
    PortsBelow (fdbUcDbDeleteRecord s (some i)).2 := by
  obtain ⟨-, -, -, -, -, hrec, ⟨-, -, hmap⟩ | ⟨-, -, hdb⟩⟩ := delete_spec hinv i
  · intro j hj
    rw [hmap, OrdMap.values_removeItem] at hj
    rw [hrec]
    exact h j (List.mem_of_mem_filter hj)
  · exact h.sameDb hdb

theorem portsBelow_init : PortsBelow Fdb.init := by
  intro i hi
  rw [emptyDb_init.fdbMap] at hi
  cases hi

theorem PortsBelow.run : ∀ (ops : List FdbOp) {s : Fdb} {L : Index}, FdbInv s L → PortsBelow s →
    (∀ op ∈ ops, op.PortBelow) → ∃ L', FdbInv (run s ops) L' ∧ PortsBelow (run s ops)
  | [], _, L, hinv, h, _ => ⟨L, hinv, h⟩
  | op :: ops, s, L, hinv, h, hops => by
    obtain ⟨L', hinv'⟩ := hinv.step op
    have hop := hops op (List.mem_cons_self ..)
    have h' : PortsBelow (op.step s) := by
      rcases op with ⟨_ | e⟩ | ⟨_ | i⟩
      · simpa [FdbOp.step, fdbUcDbAddRecord, hinv.ready] using h
      · exact h.add hinv hop
      · simpa [FdbOp.step, fdbUcDbDeleteRecord, hinv.ready] using h
      · exact h.delete hinv i
    exact PortsBelow.run ops hinv' h' (fun o ho => hops o (List.mem_cons_of_mem _ ho))

/-! ## When a failing add changes nothing -/

/-- A stored record is a change. -/
theorem not_unchanged_created {s s' : Fdb} {i : Nat} {pool : Pool} {e : MacEntry}
    (hk : s.fdbMap.get e.macParams.key = none) (hdb : SameDb (created s i pool e) s') :
    ¬ Unchanged s s' := by
  intro hu
  have hget : s'.fdbMap.get e.macParams.key = some i := by
    rw [hdb.fdbMap, created, OrdMap.get_insert i hk, if_pos rfl]
  rw [hu.fdbMap, hk] at hget
  cases hget

/-- An overwritten record with another port is a change. -/
theorem not_unchanged_setRecord {s s' : Fdb} {i k : Nat} {e : MacEntry}
    (hk : s.fdbMap.get k = some i)
    (hport : (s.records i).macParams.logPort ≠ e.macParams.logPort)
    (hdb : SameDb (setRecord s i e) s') : ¬ Unchanged s s' := by
  intro hu
  have hrec := hu.records i (OrdMap.get_mem_values hk)
  rw [hdb.records] at hrec
  simp only [setRecord, Function.update_self] at hrec
  exact hport (by rw [hrec])

/-- **A failing add changes nothing exactly when it does not fail after storing the record.** -/
theorem failing_add_unchanged_iff (ops : List FdbOp) (hops : ∀ op ∈ ops, op.PortBelow)
    (e : MacEntry) (he : e.macParams.logPort.toNat < 2 ^ 32) :
    ((fdbUcDbAddRecord (run Fdb.init ops) (some e)).1 ≠ 0 →
      Unchanged (run Fdb.init ops) (fdbUcDbAddRecord (run Fdb.init ops) (some e)).2) ↔
    AddAllOrNothing (run Fdb.init ops) e := by
  obtain ⟨L, hinv, hports⟩ := PortsBelow.run ops emptyDb_init.inv portsBelow_init hops
  generalize run Fdb.init ops = s at *
  have hr := hinv.index
  unfold AddAllOrNothing
  simp only [needsHead_eq hr]
  cases add_spec hinv e with
  | full hk hp hr =>
    rw [hr, hk]
    exact ⟨fun _ => Or.inl (clPoolGet_none_iff.mp hp), fun _ _ => Unchanged.rfl⟩
  | newOk i pool hk hp herr hdb hcan =>
    rw [hk]
    rw [linkAllCost_eq he] at hcan
    exact ⟨fun _ => Or.inr hcan, fun _ h => absurd herr h⟩
  | newErr i pool hk hp herr hdb hcan =>
    rw [hk]
    rw [linkAllCost_eq he] at hcan
    have hpos : clPoolCount s.mainDbPool ≠ 0 := by
      have := clPoolGet_count hp
      omega
    refine ⟨fun h => absurd (h herr) (not_unchanged_created hk hdb), ?_⟩
    rintro (h | h)
    · exact absurd h hpos
    · exact absurd h hcan
  | refresh i hk hport hr =>
    rw [hr, hk]
    exact ⟨fun _ => Or.inl hport, fun _ h => absurd rfl h⟩
  | moveOk i hk hport herr hdb hcan =>
    rw [hk]
    have hvid := (hinv.get_mem hk e.macParams rfl).1
    rw [canMove_iff (hports i (OrdMap.get_mem_values hk)) he hport] at hcan
    obtain ⟨hlp, hlv, hcost⟩ := hcan
    refine ⟨fun _ => Or.inr ⟨(isLinked_iff hr).mpr ⟨_, hlp⟩, (isLinked_iff hr).mpr ⟨_, hlv⟩, ?_⟩,
      fun _ h => absurd herr h⟩
    rw [freesHead_eq hr hlp, freesHead_eq hr hlv]
    exact hcost
  | moveErr i hk hport herr hdb hcan =>
    rw [hk]
    have hvid := (hinv.get_mem hk e.macParams rfl).1
    rw [canMove_iff (hports i (OrdMap.get_mem_values hk)) he hport] at hcan
    refine ⟨fun h => absurd (h herr) (not_unchanged_setRecord hk hport hdb), ?_⟩
    rintro (h | ⟨hlp, hlv, hcost⟩)
    · exact absurd h hport
    · obtain ⟨lp, hlp⟩ := (isLinked_iff hr).mp hlp
      obtain ⟨lv, hlv⟩ := (isLinked_iff hr).mp hlv
      have hv := (hinv.home i).vidPort hlv hlp
      have hp := (hinv.home i).port hlp
      rw [hv, ← hvid] at hlv
      rw [hp] at hlp
      rw [freesHead_eq hr hlp, freesHead_eq hr hlv] at hcost
      exact absurd ⟨hlp, hlv, hcost⟩ hcan

/-- An entry with vid 4096, beside two records: its add fails. -/
theorem failing_add_unchanged_iff_beyond :
    (fdbUcDbAddRecord (run Fdb.init twoStations) (some (station 4096 3 5))).1 ≠ 0 ∧
    (((fdbUcDbAddRecord (run Fdb.init twoStations) (some (station 4096 3 5))).1 ≠ 0 →
        Unchanged (run Fdb.init twoStations)
          (fdbUcDbAddRecord (run Fdb.init twoStations) (some (station 4096 3 5))).2) ↔
      AddAllOrNothing (run Fdb.init twoStations) (station 4096 3 5)) :=
  ⟨by decide, failing_add_unchanged_iff twoStations (by simp [twoStations, FdbOp.PortBelow, station])
    (station 4096 3 5) (by decide)⟩

/-- **A failing add can leave its record behind**: an entry with vid 4096, which has no vlan list,
is rejected after it was stored. -/
theorem failing_add_changes_db :
    ¬ ∀ (ops : List FdbOp), (∀ op ∈ ops, op.PortBelow) → ∀ (e : MacEntry),
      e.macParams.logPort.toNat < 2 ^ 32 →
      (fdbUcDbAddRecord (run Fdb.init ops) (some e)).1 ≠ 0 →
      Unchanged (run Fdb.init ops) (fdbUcDbAddRecord (run Fdb.init ops) (some e)).2 := by
  intro h
  have hu := h [] (by simp) ⟨⟨4096, ⟨0, 0, 0, 0, 0, 1⟩, 5, .dynamic⟩, none, .ageable⟩ (by decide)
    (by decide)
  have hmap := congrArg OrdMap.count hu.fdbMap
  revert hmap
  decide

end MlnxLib.CtrlLearn
