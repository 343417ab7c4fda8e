import MlnxLib.CtrlLearn.AddFailure
import MlnxLib.CtrlLearn.HeadRoom

/-!
# Index coherence of the FDB

In a run whose adds have a vid below 4096 and a 32-bit port, and whose deletes are of stored
records, no link is ever missing as long as at most `MAX_PORT_ENTRIES` distinct ports are present:
the head pool has one head for each record and one for each port, a record needs at most one
port-and-vid head, and a de-link gives its head back before the next link asks for one.

* `Coherent s L` — the invariant of `Invariant` with every item of every record linked.
* `IndexCoherent s` — the same read off the heap: keys, rings, heads and counts.

Principal results: `Coherent.step` — one call keeps coherence; `index_coherent_run` — it holds
after every run; `Coherent.indexCoherent` — what it says about the lists and the counters.
-/

set_option autoImplicit false

namespace MlnxLib.CtrlLearn

/-! ## Coherent states -/

/-- The invariant of the runs in which no call fails half-way. -/
structure Coherent (s : Fdb) (L : Index) : Prop where
  inv : FdbInv s L
  linked : ∀ i ∈ s.fdbMap.values, ∀ f, L.Linked f i
  ports : PortsBelow s

/-- Every record is linked by every field. -/
structure AllLinked (s : Fdb) (L : Index) : Prop where
  inv : FdbInv s L
  linked : ∀ i ∈ s.fdbMap.values, ∀ f, L.Linked f i

theorem Coherent.allLinked {s : Fdb} {L : Index} (h : Coherent s L) : AllLinked s L := ⟨h.inv, h.linked⟩

/-- The number of distinct ports present in the database. -/
def Fdb.distinctPorts (s : Fdb) : Nat := (s.slots.image s.portOf).card

namespace AllLinked

variable {s : Fdb} {L : Index}

theorem vid_mem (h : AllLinked s L) {i : Nat} (hi : i ∈ s.fdbMap.values) :
    .entry .vid i ∈ L (.vlan (s.records i).macParams.vid.toNat) := by
  obtain ⟨l, hl⟩ := h.linked i hi .vid
  rw [(h.inv.home i).vid hl] at hl
  exact hl

theorem port_mem (h : AllLinked s L) {i : Nat} (hi : i ∈ s.fdbMap.values) :
    .entry .port i ∈ L (.key (buildPortKey (s.records i).macParams.logPort)) := by
  obtain ⟨l, hl⟩ := h.linked i hi .port
  rw [(h.inv.home i).port hl] at hl
  exact hl

theorem vidPort_mem (h : AllLinked s L) {i : Nat} (hi : i ∈ s.fdbMap.values) :
    .entry .vidPort i ∈ L (.key (buildPortVidKey (s.records i).macParams.logPort
      (s.records i).macParams.vid)) := by
  obtain ⟨l, hl⟩ := h.linked i hi .vidPort
  rw [(h.inv.home i).vidPort hl (h.port_mem hi)] at hl
  exact hl

/-- **What is linked at a key.** -/
theorem mem_key_iff (h : AllLinked s L) {k : Nat} {n : Node} : n ∈ L (.key k) ↔
    ∃ i ∈ s.fdbMap.values,
      (n = .entry .port i ∧ k = buildPortKey (s.records i).macParams.logPort) ∨
      (n = .entry .vidPort i ∧
        k = buildPortVidKey (s.records i).macParams.logPort (s.records i).macParams.vid) := by
  constructor
  · intro hn
    cases n with
    | vlanEnd v => exact absurd (h.inv.index.family.items hn) id
    | fltrEnd j => exact absurd (h.inv.index.family.items hn) id
    | entry f i =>
      have hi := h.inv.owned hn
      refine ⟨i, hi, ?_⟩
      cases f with
      | vid => cases (h.inv.home i).vid hn
      | port => exact Or.inl ⟨rfl, Loc.key.inj ((h.inv.home i).port hn)⟩
      | vidPort => exact Or.inr ⟨rfl, Loc.key.inj ((h.inv.home i).vidPort hn (h.port_mem hi))⟩
  · rintro ⟨i, hi, ⟨rfl, rfl⟩ | ⟨rfl, rfl⟩⟩
    · exact h.port_mem hi
    · exact h.vidPort_mem hi

/-- **What is linked at a vid.** -/
theorem mem_vlan_iff (h : AllLinked s L) {v : Nat} {n : Node} : n ∈ L (.vlan v) ↔
    ∃ i ∈ s.fdbMap.values, n = .entry .vid i ∧ (s.records i).macParams.vid.toNat = v := by
  constructor
  · intro hn
    cases n with
    | vlanEnd v => exact absurd (h.inv.index.family.items hn) id
    | fltrEnd j => exact absurd (h.inv.index.family.items hn) id
    | entry f i =>
      have hi := h.inv.owned hn
      cases f with
      | vid => exact ⟨i, hi, rfl, (Loc.vlan.inj ((h.inv.home i).vid hn)).symm⟩
      | port => cases (h.inv.home i).port hn
      | vidPort => cases (h.inv.home i).vidPort hn (h.port_mem hi)
  · rintro ⟨i, hi, rfl, rfl⟩
    exact h.vid_mem hi

theorem vid_lt (h : AllLinked s L) {i : Nat} (hi : i ∈ s.fdbMap.values) :
    (s.records i).macParams.vid.toNat < MAX_VLAN_ENTRIES := by
  obtain ⟨e, he⟩ := h.inv.index.family.exists_end (h.vid_mem hi)
  simp only [listEnds, Option.ite_none_right_eq_some] at he
  exact he.1

end AllLinked

/-! ## No link fails -/

namespace AllLinked

variable {s : Fdb} {L : Index}

/-- **A record that moves finds its heads.** -/
theorem canMove (h : AllLinked s L) {e : MacEntry} {i : Nat}
    (hk : s.fdbMap.get e.macParams.key = some i)
    (hports : (insert e.macParams.logPort ((s.slots.erase i).image s.portOf)).card ≤
      MAX_PORT_ENTRIES) :
    CanMove L i (s.records i).macParams e.macParams (clPoolCount s.fdbFltrPool) := by
  have hi := OrdMap.get_mem_values hk
  have hvid := (h.inv.get_mem hk e.macParams rfl).1
  have hlv := h.vidPort_mem hi
  rw [← hvid] at hlv
  exact canMove_of_room h.inv hi (h.port_mem hi) hlv hports

end AllLinked

/-! ## One call -/

theorem slots_created {s : Fdb} {i : Nat} {pool : Pool} {e : MacEntry}
    (hk : s.fdbMap.get e.macParams.key = none) (hi : i ∉ s.fdbMap.values) :
    (created s i pool e).slots.image (created s i pool e).portOf =
      insert e.macParams.logPort (s.slots.image s.portOf) := by
  have hslots : (created s i pool e).slots = insert i s.slots := by
    ext j
    simp only [Fdb.slots, created, List.mem_toFinset, Finset.mem_insert,
      (OrdMap.values_insert i hk).mem_iff, List.mem_cons]
  rw [hslots, Finset.image_insert]
  congr 1
  · simp [Fdb.portOf, created]
  · refine Finset.image_congr (fun j hj => ?_)
    have hji : j ≠ i := by
      rintro rfl
      exact hi (Fdb.mem_slots.mp hj)
    simp [Fdb.portOf, created, hji]

theorem slots_setRecord {s : Fdb} {i : Nat} {e : MacEntry} (hi : i ∈ s.fdbMap.values) :
    (setRecord s i e).slots.image (setRecord s i e).portOf =
      insert e.macParams.logPort ((s.slots.erase i).image s.portOf) := by
  have hslots : (setRecord s i e).slots = insert i (s.slots.erase i) :=
    (Finset.insert_erase (Fdb.mem_slots.mpr hi)).symm
  rw [hslots, Finset.image_insert]
  congr 1
  · simp [Fdb.portOf, setRecord]
  · refine Finset.image_congr (fun j hj => ?_)
    have hji : j ≠ i := (Finset.mem_erase.mp hj).1
    simp [Fdb.portOf, setRecord, hji]

theorem distinctPorts_sameDb {s s' : Fdb} (h : SameDb s s') : s'.distinctPorts = s.distinctPorts := by
  unfold Fdb.distinctPorts Fdb.slots Fdb.portOf
  rw [h.fdbMap, h.records]

namespace AllLinked

variable {s : Fdb} {L : Index}

theorem linkAll (h : AllLinked s L) {s' : Fdb} {i : Nat} {pool : Pool} {e : MacEntry}
    (hk : s.fdbMap.get e.macParams.key = none) (hdb : SameDb (created s i pool e) s')
    (hinv : FdbInv s' (linkAll L i e.macParams)) : AllLinked s' (CtrlLearn.linkAll L i e.macParams) := by
  refine ⟨hinv, fun j hj f => ?_⟩
  rw [hdb.fdbMap] at hj
  unfold CtrlLearn.linkAll
  rcases List.mem_cons.mp ((OrdMap.values_insert i hk).mem_iff.mp hj) with rfl | hj
  · cases f with
    | vid => exact ⟨.vlan e.macParams.vid.toNat, by simp [Index.mem_insert]⟩
    | port => exact ⟨.key (buildPortKey e.macParams.logPort), by simp [Index.mem_insert]⟩
    | vidPort =>
      exact ⟨.key (buildPortVidKey e.macParams.logPort e.macParams.vid), by simp [Index.mem_insert]⟩
  · obtain ⟨l, hl⟩ := h.linked j hj f
    exact ⟨l, by simp [Index.mem_insert, hl]⟩

theorem moveAll (h : AllLinked s L) {s' : Fdb} {i : Nat} {e : MacEntry} (hdb : SameDb (setRecord s i e) s')
    (hinv : FdbInv s' (moveAll L i (s.records i).macParams e.macParams)) :
    AllLinked s' (CtrlLearn.moveAll L i (s.records i).macParams e.macParams) := by
  refine ⟨hinv, fun j hj f => ?_⟩
  rw [hdb.fdbMap] at hj
  obtain ⟨l, hl⟩ := h.linked j hj f
  unfold CtrlLearn.moveAll movePort Index.swap
  by_cases hv : Node.entry f j = .entry .vidPort i
  · exact ⟨.key (buildPortVidKey e.macParams.logPort e.macParams.vid),
      Index.mem_insert.mpr (Or.inr ⟨rfl, hv⟩)⟩
  by_cases hp : Node.entry f j = .entry .port i
  · refine ⟨.key (buildPortKey e.macParams.logPort), Index.mem_insert.mpr (Or.inl ?_)⟩
    exact (Index.mem_remove_of_ne hv).mpr (Index.mem_insert.mpr (Or.inr ⟨rfl, hp⟩))
  · refine ⟨l, Index.mem_insert.mpr (Or.inl ((Index.mem_remove_of_ne hv).mpr ?_))⟩
    exact Index.mem_insert.mpr (Or.inl ((Index.mem_remove_of_ne hp).mpr hl))

/-- **An add keeps the links**, and fails only when the record pool is empty. -/
theorem add (h : AllLinked s L) {e : MacEntry} (hv : e.macParams.vid.toNat < MAX_VLAN_ENTRIES)
    (hports : (fdbUcDbAddRecord s (some e)).2.distinctPorts ≤ MAX_PORT_ENTRIES) :
    (∃ L', AllLinked (fdbUcDbAddRecord s (some e)).2 L') ∧
    ((fdbUcDbAddRecord s (some e)).1 = 0 ∨
      (s.fdbMap.get e.macParams.key = none ∧ clPoolCount s.mainDbPool = 0)) := by
  cases add_spec h.inv e with
  | full hk hp hr => rw [hr]; exact ⟨⟨L, h⟩, Or.inr ⟨hk, clPoolGet_none_iff.mp hp⟩⟩
  | newOk i pool hk hp herr hdb hcan hinv => exact ⟨⟨_, h.linkAll hk hdb hinv⟩, Or.inl herr⟩
  | newErr i pool hk hp herr hdb hcan =>
    rw [distinctPorts_sameDb hdb, Fdb.distinctPorts,
      slots_created hk (h.inv.pool.fresh hp)] at hports
    exact absurd ⟨hv, linkAllCost_le h.inv hp hports⟩ hcan
  | refresh i hk hport hr hinv =>
    rw [hr] at hinv ⊢
    exact ⟨⟨L, hinv, h.linked⟩, Or.inl rfl⟩
  | moveOk i hk hport herr hdb hcan hinv => exact ⟨⟨_, h.moveAll hdb hinv⟩, Or.inl herr⟩
  | moveErr i hk hport herr hdb hcan =>
    rw [distinctPorts_sameDb hdb, Fdb.distinctPorts,
      slots_setRecord (OrdMap.get_mem_values hk)] at hports
    exact absurd (h.canMove hk hports) hcan

/-- **A delete of a stored record succeeds and keeps the links of the others.** -/
theorem delete (h : AllLinked s L) {i : Nat} (hi : i ∈ s.fdbMap.values) :
    (fdbUcDbDeleteRecord s (some i)).1 = 0 ∧
    (fdbUcDbDeleteRecord s (some i)).2.fdbMap = s.fdbMap.removeItem i ∧
    (fdbUcDbDeleteRecord s (some i)).2.records = s.records ∧
    ∃ L', AllLinked (fdbUcDbDeleteRecord s (some i)).2 L' := by
  obtain ⟨L', hinv, hthin, -, -, hrec, ⟨herr, -, hmap⟩ | ⟨-, hrem, -⟩⟩ := delete_spec h.inv i
  · refine ⟨herr, hmap, hrec, L', hinv, fun j hj f => ?_⟩
    rw [hmap, OrdMap.values_removeItem, List.mem_filter, decide_eq_true_eq] at hj
    obtain ⟨l, hl⟩ := h.linked j hj.1 f
    exact ⟨l, (hthin.agreesBut f j l hj.2).mpr hl⟩
  · exact absurd ⟨h.linked i hi .port, h.linked i hi .vidPort⟩ hrem

end AllLinked

namespace Coherent

variable {s : Fdb} {L : Index}

theorem linkAll (h : Coherent s L) {s' : Fdb} {i : Nat} {pool : Pool} {e : MacEntry}
    (hk : s.fdbMap.get e.macParams.key = none) (he : e.macParams.logPort.toNat < 2 ^ 32)
    (hdb : SameDb (created s i pool e) s') (hinv : FdbInv s' (linkAll L i e.macParams)) :
    Coherent s' (CtrlLearn.linkAll L i e.macParams) :=
  ⟨hinv, (h.allLinked.linkAll hk hdb hinv).linked, (h.ports.created hk he).sameDb hdb⟩

/-- **An add keeps coherence**, and fails only when the record pool is empty. -/
theorem add (h : Coherent s L) {e : MacEntry} (hv : e.macParams.vid.toNat < MAX_VLAN_ENTRIES)
    (he : e.macParams.logPort.toNat < 2 ^ 32)
    (hports : (fdbUcDbAddRecord s (some e)).2.distinctPorts ≤ MAX_PORT_ENTRIES) :
    (∃ L', Coherent (fdbUcDbAddRecord s (some e)).2 L') ∧
    ((fdbUcDbAddRecord s (some e)).1 = 0 ∨
      (s.fdbMap.get e.macParams.key = none ∧ clPoolCount s.mainDbPool = 0)) := by
  obtain ⟨⟨L', h'⟩, herr⟩ := h.allLinked.add hv hports
  exact ⟨⟨L', h'.inv, h'.linked, h.ports.add h.inv he⟩, herr⟩

/-- **A delete of a stored record succeeds and keeps coherence.** -/
theorem delete (h : Coherent s L) {i : Nat} (hi : i ∈ s.fdbMap.values) :
    (fdbUcDbDeleteRecord s (some i)).1 = 0 ∧
    (fdbUcDbDeleteRecord s (some i)).2.fdbMap = s.fdbMap.removeItem i ∧
    (fdbUcDbDeleteRecord s (some i)).2.records = s.records ∧
    ∃ L', Coherent (fdbUcDbDeleteRecord s (some i)).2 L' := by
  obtain ⟨herr, hmap, hrec, L', h'⟩ := h.allLinked.delete hi
  exact ⟨herr, hmap, hrec, L', h'.inv, h'.linked, h.ports.delete h.inv i⟩

end Coherent

/-! ## Runs -/

/-- The calls of a well-behaved run: entries with a vid below 4096 and a 32-bit port, and deletes
of records that are stored. -/
def FdbOp.Allowed (s : Fdb) : FdbOp → Prop
  | .add (some e) =>
    e.macParams.vid.toNat < MAX_VLAN_ENTRIES ∧ e.macParams.logPort.toNat < 2 ^ 32
  | .delete (some i) => i ∈ s.fdbMap.values
  | _ => True

instance (s : Fdb) : ∀ op : FdbOp, Decidable (op.Allowed s)
  | .add (some e) => inferInstanceAs (Decidable
      (e.macParams.vid.toNat < MAX_VLAN_ENTRIES ∧ e.macParams.logPort.toNat < 2 ^ 32))
  | .add none => inferInstanceAs (Decidable True)
  | .delete (some i) => inferInstanceAs (Decidable (i ∈ s.fdbMap.values))
  | .delete none => inferInstanceAs (Decidable True)

/-- Every call of the run is allowed, and at most `MAX_PORT_ENTRIES` distinct ports are present
after each of them. -/
def Admissible : Fdb → List FdbOp → Prop
  | _, [] => True
  | s, op :: ops =>
    op.Allowed s ∧ (op.step s).distinctPorts ≤ MAX_PORT_ENTRIES ∧ Admissible (op.step s) ops

instance decidableAdmissible : ∀ (s : Fdb) (ops : List FdbOp), Decidable (Admissible s ops)
  | _, [] => inferInstanceAs (Decidable True)
  | s, op :: ops =>
    have := decidableAdmissible (op.step s) ops
    inferInstanceAs (Decidable (op.Allowed s ∧
      (op.step s).distinctPorts ≤ MAX_PORT_ENTRIES ∧ Admissible (op.step s) ops))

theorem coherent_init : Coherent Fdb.init (fun _ => []) := by
  refine ⟨emptyDb_init.inv, fun i hi => ?_, portsBelow_init⟩
  rw [emptyDb_init.fdbMap] at hi
  cases hi

theorem Coherent.step {s : Fdb} {L : Index} (h : Coherent s L) {op : FdbOp} (hop : op.Allowed s)
    (hports : (op.step s).distinctPorts ≤ MAX_PORT_ENTRIES) : ∃ L', Coherent (op.step s) L' := by
  rcases op with ⟨_ | e⟩ | ⟨_ | i⟩
  · exact ⟨L, by simpa [FdbOp.step, fdbUcDbAddRecord, h.inv.ready] using h⟩
  · exact (h.add hop.1 hop.2 hports).1
  · exact ⟨L, by simpa [FdbOp.step, fdbUcDbDeleteRecord, h.inv.ready] using h⟩
  · exact (h.delete hop).2.2.2

theorem Coherent.run : ∀ (ops : List FdbOp) {s : Fdb} {L : Index}, Coherent s L →
    Admissible s ops → ∃ L', Coherent (run s ops) L'
  | [], _, L, h, _ => ⟨L, h⟩
  | _ :: ops, _, _, h, hadm => by
    obtain ⟨L', h'⟩ := h.step hadm.1 hadm.2.1
    exact Coherent.run ops h' hadm.2.2

/-! ## Counting -/

/-- The number of stored records whose parameters satisfy `P`. -/
def Fdb.numberOf (s : Fdb) (P : MacParams → Bool) : Nat :=
  s.fdbMap.values.countP (fun i => P (s.records i).macParams)

theorem length_eq_countP {f : FltrField} {vs : List Nat} {xs : List Node} {P : Nat → Bool}
    (hvs : vs.Nodup) (hxs : xs.Nodup)
    (hmem : ∀ n, n ∈ xs ↔ ∃ i ∈ vs, n = .entry f i ∧ P i = true) : xs.length = vs.countP P := by
  have hinj : Function.Injective (Node.entry f) := fun i j he => by cases he; rfl
  have hperm : xs.Perm ((vs.filter P).map (.entry f)) := by
    rw [List.perm_ext_iff_of_nodup hxs ((hvs.filter P).map hinj)]
    intro n
    rw [hmem]
    simp only [List.mem_map, List.mem_filter]
    constructor
    · rintro ⟨i, hi, rfl, hp⟩; exact ⟨i, ⟨hi, hp⟩, rfl⟩
    · rintro ⟨i, ⟨hi, hp⟩, rfl⟩; exact ⟨i, hi, rfl, hp⟩
  rw [hperm.length_eq, List.length_map, List.countP_eq_length_filter]

/-- A list as long as the number of records that are in it has nothing else. -/
theorem mem_iff_of_length {f : FltrField} {vs : List Nat} {xs : List Node} {P : Nat → Bool}
    (hvs : vs.Nodup) (hsub : ∀ i ∈ vs, P i = true → .entry f i ∈ xs) (hlen : xs.length = vs.countP P)
    (n : Node) : n ∈ xs ↔ ∃ i ∈ vs, n = .entry f i ∧ P i = true := by
  have hinj : Function.Injective (Node.entry f) := fun i j he => by cases he; rfl
  have hsubset : (vs.filter P).map (Node.entry f) ⊆ xs := by
    intro n hn
    obtain ⟨i, hi, rfl⟩ := List.mem_map.mp hn
    exact hsub i (List.mem_of_mem_filter hi) (List.of_mem_filter hi)
  have hle : xs.length ≤ ((vs.filter P).map (Node.entry f)).length := by
    rw [hlen, List.length_map, List.countP_eq_length_filter]
  have hperm := (((hvs.filter P).map hinj).subperm hsubset).perm_of_length_le hle
  rw [← hperm.mem_iff]
  simp only [List.mem_map, List.mem_filter]
  constructor
  · rintro ⟨i, ⟨hi, hp⟩, rfl⟩; exact ⟨i, hi, rfl, hp⟩
  · rintro ⟨i, hi, rfl, hp⟩; exact ⟨i, ⟨hi, hp⟩, rfl⟩

/-- **The counting loop** returns the number of items that are left, if it has the fuel. -/
theorem countEntries_eq {h : Ring.Heap Node} {e : Node} {xs : List Node} (hr : Ring.IsRing h e xs)
    (bs as : List Node) (fuel c : Nat) (heq : xs = as ++ bs) :
    countEntries h e fuel (bs.headD e) c = if bs.length < fuel then some (c + bs.length) else none := by
  induction bs generalizing as fuel c with
  | nil => cases fuel <;> simp [countEntries]
  | cons b bs ih =>
    cases fuel with
    | zero => simp [countEntries]
    | succ fuel =>
      subst heq
      have hbe : b ≠ e := by
        rintro rfl
        exact hr.not_mem (by simp)
      have hnext := hr.links_of_split.1
      simp only [List.headD_cons, countEntries, hbe, if_false, clQlistNext, hnext,
        ih (as ++ [b]) fuel (c + 1) (by simp), List.length_cons, Nat.add_lt_add_iff_right]
      split
      · congr 1
        omega
      · rfl

/-- **The walk over a filter list** counts its items, if there are no more than records. -/
theorem getNumberOfFltrEntries_eq {s : Fdb} {L : Index} (h : FdbInv s L) (k : Nat) :
    getNumberOfFltrEntries s k =
      if (L (.key k)).length < LIST_FUEL then some (0, (L (.key k)).length) else none := by
  unfold getNumberOfFltrEntries
  rw [if_neg (by simp [h.index.ready])]
  cases hg : s.fbdFilterMap.get k with
  | none =>
    rw [h.index.get_none_iff.mp hg]
    rfl
  | some j =>
    have hr := h.index.family.ring (l := .key k) (e := .fltrEnd j) (by simp [listEnds, hg])
    have hhead : clQlistHead s.links (.fltrEnd j) = some ((L (.key k)).headD (.fltrEnd j)) :=
      hr.next_sentinel
    simp only [hhead, countEntries_eq hr (L (.key k)) [] LIST_FUEL 0 rfl, Nat.zero_add]
    split <;> rfl

namespace AllLinked

variable {s : Fdb} {L : Index}

theorem numberOf_le (h : AllLinked s L) (P : MacParams → Bool) : s.numberOf P ≤ MAX_FDB_ENTRIES := by
  have hle : s.numberOf P ≤ s.fdbMap.values.length := List.countP_le_length
  have hlen := s.fdbMap.length_values
  have hcount := h.inv.pool.count
  omega

theorem vlan_length (h : AllLinked s L) (v : Nat) :
    (L (.vlan v)).length = s.numberOf (fun p => p.vid.toNat == v) := by
  refine length_eq_countP (f := .vid) h.inv.pool.values_nodup (h.inv.index.family.nodup _) ?_
  intro n
  rw [h.mem_vlan_iff]
  simp only [beq_iff_eq]

/-- The walk over a filter list counts the records of its key. -/
theorem getNumberOfFltrEntries (h : AllLinked s L) {k : Nat} {P : MacParams → Bool} {f : FltrField}
    (hmem : ∀ n, n ∈ L (.key k) ↔
      ∃ i ∈ s.fdbMap.values, n = .entry f i ∧ P (s.records i).macParams = true) :
    getNumberOfFltrEntries s k = some (0, s.numberOf P) := by
  have hlen : (L (.key k)).length = s.numberOf P :=
    length_eq_countP h.inv.pool.values_nodup (h.inv.index.family.nodup _) hmem
  have hle := h.numberOf_le P
  rw [getNumberOfFltrEntries_eq h.inv, if_pos (by unfold LIST_FUEL; omega), hlen]

/-- A list that the walk counts right has the records of its key and nothing else. -/
theorem mem_of_getNumberOfFltrEntries (h : AllLinked s L) {k : Nat} {P : MacParams → Bool} {f : FltrField}
    (hsub : ∀ i ∈ s.fdbMap.values, P (s.records i).macParams = true → .entry f i ∈ L (.key k))
    (hcount : CtrlLearn.getNumberOfFltrEntries s k = some (0, s.numberOf P)) (n : Node) :
    n ∈ L (.key k) ↔ ∃ i ∈ s.fdbMap.values, n = .entry f i ∧ P (s.records i).macParams = true := by
  rw [getNumberOfFltrEntries_eq h.inv] at hcount
  split at hcount
  · rw [Option.some_inj, Prod.mk.injEq] at hcount
    exact mem_iff_of_length (P := fun i => P (s.records i).macParams) h.inv.pool.values_nodup hsub hcount.2 n
  · cases hcount

end AllLinked

namespace Coherent

variable {s : Fdb} {L : Index}

theorem mem_port_iff (h : Coherent s L) {p : UInt64} (hp : p.toNat < 2 ^ 32) (n : Node) :
    n ∈ L (.key (buildPortKey p)) ↔
      ∃ i ∈ s.fdbMap.values, n = .entry .port i ∧ ((s.records i).macParams.logPort == p) = true := by
  rw [h.allLinked.mem_key_iff]
  constructor
  · rintro ⟨i, hi, ⟨rfl, he⟩ | ⟨rfl, he⟩⟩
    · exact ⟨i, hi, rfl, by simpa using (buildPortKey_inj hp (h.ports i hi) he).symm⟩
    · exact absurd he (buildPortKey_ne_portVidKey hp (h.ports i hi) _)
  · rintro ⟨i, hi, rfl, he⟩
    exact ⟨i, hi, Or.inl ⟨rfl, by rw [beq_iff_eq.mp he]⟩⟩

theorem mem_portVid_iff (h : Coherent s L) {p : UInt64} (hp : p.toNat < 2 ^ 32) (v : UInt16)
    (n : Node) : n ∈ L (.key (buildPortVidKey p v)) ↔ ∃ i ∈ s.fdbMap.values, n = .entry .vidPort i ∧
      ((s.records i).macParams.logPort == p && (s.records i).macParams.vid == v) = true := by
  rw [h.allLinked.mem_key_iff]
  constructor
  · rintro ⟨i, hi, ⟨rfl, he⟩ | ⟨rfl, he⟩⟩
    · exact absurd he.symm (buildPortKey_ne_portVidKey (h.ports i hi) hp _)
    · obtain ⟨hpe, hve⟩ := buildPortVidKey_inj hp (h.ports i hi) he
      exact ⟨i, hi, rfl, by simp [← hpe, ← hve]⟩
  · rintro ⟨i, hi, rfl, he⟩
    simp only [Bool.and_eq_true, beq_iff_eq] at he
    exact ⟨i, hi, Or.inr ⟨rfl, by rw [he.1, he.2]⟩⟩

end Coherent

/-- Everything is linked, and the lists of 32-bit ports hold the records of their ports alone. -/
structure LinksExact (s : Fdb) (L : Index) : Prop extends AllLinked s L where
  port : ∀ {p : UInt64}, p.toNat < 2 ^ 32 → ∀ n, n ∈ L (.key (buildPortKey p)) ↔
    ∃ i ∈ s.fdbMap.values, n = .entry .port i ∧ ((s.records i).macParams.logPort == p) = true
  portVid : ∀ {p : UInt64}, p.toNat < 2 ^ 32 → ∀ (v : UInt16) n, n ∈ L (.key (buildPortVidKey p v)) ↔
    ∃ i ∈ s.fdbMap.values, n = .entry .vidPort i ∧
      ((s.records i).macParams.logPort == p && (s.records i).macParams.vid == v) = true

theorem Coherent.linksExact {s : Fdb} {L : Index} (h : Coherent s L) : LinksExact s L :=
  ⟨h.allLinked, h.mem_port_iff, h.mem_portVid_iff⟩

/-! ## Coherence, read off the heap -/

/-- The four structures a record lives in agree with each other and with the counters. -/
structure IndexCoherent (s : Fdb) : Prop where
  /-- every record is stored under the key of its own MAC address and vid -/
  keyed : ∀ k i, s.fdbMap.get k = some i →
    fdbUcConvertMacVlanToKey (s.records i).macParams.macAddr (s.records i).macParams.vid = k
  /-- the vid of a record has a list -/
  vid_lt : ∀ i ∈ s.fdbMap.values, (s.records i).macParams.vid.toNat < MAX_VLAN_ENTRIES
  /-- a vlan list holds the records of its vid, each once, and nothing else -/
  vlanLists : ∀ v, v < MAX_VLAN_ENTRIES → ∃ xs, Ring.IsRing s.links (.vlanEnd v) xs ∧
    s.vlanCount v = xs.length ∧
    ∀ n, n ∈ xs ↔ ∃ i ∈ s.fdbMap.values, n = .entry .vid i ∧ (s.records i).macParams.vid.toNat = v
  /-- the port of a record, and its port and vid, have a list -/
  heads : ∀ i ∈ s.fdbMap.values,
    (s.fbdFilterMap.get (buildPortKey (s.records i).macParams.logPort)).isSome ∧
    (s.fbdFilterMap.get (buildPortVidKey (s.records i).macParams.logPort
      (s.records i).macParams.vid)).isSome
  /-- a filter list is not empty and holds the records of its key, each once, and nothing else -/
  fltrLists : ∀ k j, s.fbdFilterMap.get k = some j → ∃ xs, xs ≠ [] ∧
    Ring.IsRing s.links (.fltrEnd j) xs ∧ ∀ n, n ∈ xs ↔ ∃ i ∈ s.fdbMap.values,
      (n = .entry .port i ∧ k = buildPortKey (s.records i).macParams.logPort) ∨
      (n = .entry .vidPort i ∧
        k = buildPortVidKey (s.records i).macParams.logPort (s.records i).macParams.vid)
  /-- the counters return the number of matching records -/
  numberOfVid : ∀ v : UInt16,
    fdbUcDbFilterGetNumberOfVidEntries s v = (0, s.numberOf (fun p => p.vid == v))
  numberOfPort : ∀ p : UInt64, p.toNat < 2 ^ 32 →
    fdbUcDbFilterGetNumberOfPortEntries s p = some (0, s.numberOf (fun q => q.logPort == p))
  numberOfPortVid : ∀ (p : UInt64) (v : UInt16), p.toNat < 2 ^ 32 →
    fdbUcDbFilterGetNumberOfPortVidEntries s p v =
      some (0, s.numberOf (fun q => q.logPort == p && q.vid == v))

theorem LinksExact.indexCoherent {s : Fdb} {L : Index} (h : LinksExact s L) : IndexCoherent s := by
  refine ⟨fun k i hk => h.inv.keyed hk, fun i hi => h.vid_lt hi, ?_, ?_, ?_, ?_, ?_, ?_⟩
  · intro v hv
    exact ⟨L (.vlan v), h.inv.index.family.ring (by simp [listEnds, hv]), h.inv.index.count v hv,
      fun n => h.mem_vlan_iff⟩
  · intro i hi
    refine ⟨h.inv.index.get_isSome_iff.mpr ?_, h.inv.index.get_isSome_iff.mpr ?_⟩
    · exact List.ne_nil_of_mem (h.port_mem hi)
    · exact List.ne_nil_of_mem (h.vidPort_mem hi)
  · intro k j hk
    exact ⟨L (.key k), h.inv.index.heads hk, h.inv.index.family.ring (by simp [listEnds, hk]),
      fun n => h.mem_key_iff⟩
  · intro v
    have heq : s.numberOf (fun p => p.vid == v) = s.numberOf (fun p => p.vid.toNat == v.toNat) := by
      unfold Fdb.numberOf
      congr 1
      funext i
      rw [Bool.eq_iff_iff, beq_iff_eq, beq_iff_eq, UInt16.toNat_inj]
    unfold fdbUcDbFilterGetNumberOfVidEntries
    rw [if_neg (by simp [h.inv.index.ready]), heq, ← h.vlan_length]
    split
    · rename_i hv
      -- a vid beyond the lists is no record's
      rw [h.inv.index.family.closed (by simp [listEnds, Nat.not_lt.mpr hv])]
      rfl
    · rename_i hv
      rw [h.inv.index.count v.toNat (Nat.lt_of_not_le hv)]
  · intro p hp
    exact h.getNumberOfFltrEntries (h.port hp)
  · intro p v hp
    exact h.getNumberOfFltrEntries (h.portVid hp v)

theorem Coherent.indexCoherent {s : Fdb} {L : Index} (h : Coherent s L) : IndexCoherent s :=
  h.linksExact.indexCoherent

theorem IndexCoherent.allLinked {s : Fdb} {L : Index} (hc : IndexCoherent s) (hinv : FdbInv s L) :
    AllLinked s L := by
  have hlinked : ∀ {e : Node} {xs : List Node} {f : FltrField} {i : Nat},
      Ring.IsRing s.links e xs → .entry f i ∈ xs → L.Linked f i := by
    intro e xs f i hr hi
    obtain ⟨n, p, hn, -⟩ := hr.links_some hi
    exact (isLinked_iff hinv.index).mp (by simp [isLinked, hn])
  refine ⟨hinv, fun i hi f => ?_⟩
  obtain ⟨hp, hv⟩ := hc.heads i hi
  cases f with
  | vid =>
    obtain ⟨xs, hr, -, hmem⟩ := hc.vlanLists _ (hc.vid_lt i hi)
    exact hlinked hr ((hmem _).mpr ⟨i, hi, rfl, rfl⟩)
  | port =>
    obtain ⟨j, hj⟩ := Option.isSome_iff_exists.mp hp
    obtain ⟨xs, -, hr, hmem⟩ := hc.fltrLists _ j hj
    exact hlinked hr ((hmem _).mpr ⟨i, hi, Or.inl ⟨rfl, rfl⟩⟩)
  | vidPort =>
    obtain ⟨j, hj⟩ := Option.isSome_iff_exists.mp hv
    obtain ⟨xs, -, hr, hmem⟩ := hc.fltrLists _ j hj
    exact hlinked hr ((hmem _).mpr ⟨i, hi, Or.inr ⟨rfl, rfl⟩⟩)

/-- The counters say that the lists are exact. -/
theorem IndexCoherent.linksExact {s : Fdb} {L : Index} (hc : IndexCoherent s) (hinv : FdbInv s L) :
    LinksExact s L := by
  have h := hc.allLinked hinv
  refine ⟨h, fun hp => h.mem_of_getNumberOfFltrEntries (fun i hi he => ?_) (hc.numberOfPort _ hp),
    fun hp v => h.mem_of_getNumberOfFltrEntries (fun i hi he => ?_) (hc.numberOfPortVid _ v hp)⟩
  · rw [← beq_iff_eq.mp he]
    exact h.port_mem hi
  · rw [Bool.and_eq_true, beq_iff_eq, beq_iff_eq] at he
    rw [← he.1, ← he.2]
    exact h.vidPort_mem hi

/-- Coherence read off the heap of a reachable state is coherence of its index. -/
theorem IndexCoherent.coherent {s : Fdb} {L : Index} (hc : IndexCoherent s) (hinv : FdbInv s L)
    (hports : PortsBelow s) : Coherent s L :=
  ⟨hinv, (hc.allLinked hinv).linked, hports⟩

/-- **Index coherence.**  After every admissible run of adds — new, refreshed or moved — and
deletes, each record is stored under its own key and linked exactly once in each of its three
lists, the lists hold nothing else, no head is empty, and the counters are exact. -/
theorem index_coherent_run (ops : List FdbOp) (hops : Admissible Fdb.init ops) :
    IndexCoherent (run Fdb.init ops) := by
  obtain ⟨L, h⟩ := Coherent.run ops coherent_init hops
  exact h.indexCoherent

/-- A new record, its move to another port, and its removal. -/
theorem index_coherent_run_move : IndexCoherent (run Fdb.init
    [.add (some ⟨⟨7, ⟨0, 0, 0, 0, 0, 1⟩, 5, .dynamic⟩, none, .ageable⟩),
      .add (some ⟨⟨7, ⟨0, 0, 0, 0, 0, 1⟩, 6, .dynamic⟩, none, .ageable⟩),
      .delete (some 49151)]) :=
  index_coherent_run _ (by decide)

end MlnxLib.CtrlLearn
