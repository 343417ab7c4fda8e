import MlnxLib.CtrlLearn.Get

/-!
# Keys of 64-bit ports

A `log_port` is an `unsigned long`, and the two key macros put it unmasked under the vid and the tag bits.
A port with bits above the low 32 can therefore have the key of another port, of a port and a vid, or of
itself with a vid, and then the list of a filter has items of other records, or of another field.

The links themselves do not depend on the keys: `AllLinked` holds along every run with at most
`MAX_PORT_ENTRIES` ports present (`AllLinked.run`), whatever the ports are.

* `ExactWalk s filter` — the first and next function go through the matching records, each once.
* `KeyApart s filter` — the key of the filter has the items of the matching records only.

Principal results: `exactWalk_iff` — a filtered walk is exact if and only if the key of the filter is apart;
`keyApart_of_portsBelow` — it is when all ports have 32 bits; `exactWalk_port_bit_48` — ports that differ
in bit 48 share a list.
-/

set_option autoImplicit false

namespace MlnxLib.CtrlLearn

/-! ## Runs with any ports -/

/-- The calls of a run with any ports: entries with a vid below 4096, and deletes of stored records. -/
def FdbOp.VidAllowed (s : Fdb) : FdbOp → Prop
  | .add (some e) => e.macParams.vid.toNat < MAX_VLAN_ENTRIES
  | .delete (some i) => i ∈ s.fdbMap.values
  | _ => True

instance (s : Fdb) : ∀ op : FdbOp, Decidable (op.VidAllowed s)
  | .add (some e) => inferInstanceAs (Decidable (e.macParams.vid.toNat < MAX_VLAN_ENTRIES))
  | .add none => inferInstanceAs (Decidable True)
  | .delete (some i) => inferInstanceAs (Decidable (i ∈ s.fdbMap.values))
  | .delete none => inferInstanceAs (Decidable True)

/-- Every call is allowed, and at most `MAX_PORT_ENTRIES` distinct ports are present after each of them. -/
def AnyPorts : Fdb → List FdbOp → Prop
  | _, [] => True
  | s, op :: ops =>
    op.VidAllowed s ∧ (op.step s).distinctPorts ≤ MAX_PORT_ENTRIES ∧ AnyPorts (op.step s) ops

instance decidableAnyPorts : ∀ (s : Fdb) (ops : List FdbOp), Decidable (AnyPorts s ops)
  | _, [] => inferInstanceAs (Decidable True)
  | s, op :: ops =>
    have := decidableAnyPorts (op.step s) ops
    inferInstanceAs (Decidable (op.VidAllowed s ∧
      (op.step s).distinctPorts ≤ MAX_PORT_ENTRIES ∧ AnyPorts (op.step s) ops))

theorem AllLinked.step {s : Fdb} {L : Index} (h : AllLinked s L) {op : FdbOp} (hop : op.VidAllowed s)
    (hports : (op.step s).distinctPorts ≤ MAX_PORT_ENTRIES) : ∃ L', AllLinked (op.step s) L' := by
  rcases op with ⟨_ | e⟩ | ⟨_ | i⟩
  · exact ⟨L, by simpa [FdbOp.step, fdbUcDbAddRecord, h.inv.ready] using h⟩
  · exact (h.add hop hports).1
  · exact ⟨L, by simpa [FdbOp.step, fdbUcDbDeleteRecord, h.inv.ready] using h⟩
  · exact (h.delete hop).2.2.2

theorem AllLinked.run : ∀ (ops : List FdbOp) {s : Fdb} {L : Index}, AllLinked s L →
    AnyPorts s ops → ∃ L', AllLinked (run s ops) L'
  | [], _, L, h, _ => ⟨L, h⟩
  | _ :: ops, _, _, h, hadm => by
    obtain ⟨L', h'⟩ := h.step hadm.1 hadm.2.1
    exact AllLinked.run ops h' hadm.2.2

/-! ## A walk tells what its list holds -/

/-- The source goes through the records that match a filter, each once, and then returns `NULL`. -/
def ExactWalk (s : Fdb) (filter : KeyFilter) : Prop :=
  ∃ cookie xs, Walk s filter cookie xs ∧ xs.Nodup ∧
    ∀ i, i ∈ xs ↔ i ∈ s.fdbMap.values ∧ filter.matches (s.records i).macParams = true

theorem parentStruct_eq_some {fld : FltrField} {n : Node} {i : Nat} :
    parentStruct fld n = some i ↔ n = .entry fld i := by
  cases n with
  | vlanEnd v => simp [parentStruct]
  | fltrEnd j => simp [parentStruct]
  | entry f j =>
    simp only [parentStruct, Option.ite_none_right_eq_some, Option.some.injEq, Node.entry.injEq]

section Lists

variable {s : Fdb} {L : Index} {filter : KeyFilter} {fld : FltrField}

/-- A filter by port looks up its key. -/
theorem getFirstEntry_key (hr : Represents s L) (hfld : filter.field = some fld)
    (hport : filter.filterByLogPort = true) : ∃ k, filter.loc = .key k ∧
      fdbUcDbFilterGetFirstEntry s filter = match s.fbdFilterMap.get k with
        | some j => firstOfList s (.fltrEnd j) fld
        | none => some (0, none, none) := by
  unfold fdbUcDbFilterGetFirstEntry KeyFilter.loc
  unfold KeyFilter.field at hfld
  rw [if_neg (by simp [hr.ready]), hport]
  rw [hport] at hfld
  cases hv : filter.filterByVid with
  | true =>
    rw [hv] at hfld
    cases hfld
    exact ⟨_, rfl, rfl⟩
  | false =>
    rw [hv] at hfld
    cases hfld
    exact ⟨_, rfl, rfl⟩

/-- The first entry that is found is the first item of the list, and the list cookie is its end item. -/
theorem firstOfList_inv {e : Node} {ns : List Node} (hring : Ring.IsRing s.links e ns) (hne : ns ≠ [])
    {cookie : Option Node} {r : Option Nat} (h : firstOfList s e fld = some (0, cookie, r)) :
    cookie = some e ∧ ns.head? = r.map (.entry fld) := by
  obtain ⟨n, ns, rfl⟩ := List.exists_cons_of_ne_nil hne
  have hhead : clQlistHead s.links e = some n := hring.next_sentinel
  have hcut : Ring.IsRing s.links e ([] ++ n :: ns) := hring
  have hprev := hcut.links_of_split.2
  simp only [List.getLast_singleton] at hprev
  simp only [firstOfList, hhead, Option.map_eq_some_iff, hprev, Prod.mk.injEq, true_and] at h
  obtain ⟨i, hi, rfl, rfl⟩ := h
  exact ⟨rfl, by rw [parentStruct_eq_some.mp hi]; rfl⟩

/-- The next entry that is found is the next item of the list. -/
theorem getNextEntry_inv (hr : Represents s L) (hfld : filter.field = some fld) {l : Loc} {e : Node}
    (hend : listEnds s.fbdFilterMap l = some e) {as ns : List Node} {x : Nat}
    (hxs : L l = as ++ .entry fld x :: ns) {r : Option Nat}
    (h : fdbUcDbFilterGetNextEntry s filter (some e) (some x) = some (0, r)) :
    ns.head? = r.map (.entry fld) := by
  have hring := hr.family.ring hend
  rw [hxs] at hring
  have hnext := hring.links_of_split.1
  rw [fdbUcDbFilterGetNextEntry, if_neg (by simp [hr.ready])] at h
  cases ns with
  | nil =>
    simp only [hfld, clQlistNext, hnext, List.headD_nil, if_true, Option.some.injEq, Prod.mk.injEq,
      true_and] at h
    rw [← h]
    rfl
  | cons n ns =>
    have hne : n ≠ e := by
      rintro rfl
      exact hring.not_mem (by simp)
    simp only [hfld, clQlistNext, hnext, List.headD_cons, hne, if_false, Option.map_eq_some_iff,
      Prod.mk.injEq, true_and] at h
    obtain ⟨i, hi, rfl⟩ := h
    rw [parentStruct_eq_some.mp hi]
    rfl

/-- The rest of a walk is the rest of its list. -/
theorem Walk.rest_eq (hr : Represents s L) (hfld : filter.field = some fld) {l : Loc} {e : Node}
    (hend : listEnds s.fbdFilterMap l = some e) {xs : List Nat} (hw : Walk s filter (some e) xs) :
    ∀ (bs : List Nat) {as : List Nat} {ms ns : List Node}, xs = as ++ bs → L l = ms ++ ns →
      ns.head? = bs.head?.map (.entry fld) → ns = bs.map (.entry fld) := by
  intro bs
  induction bs with
  | nil =>
    intro as ms ns _ _ hhead
    exact List.head?_eq_none_iff.mp hhead
  | cons b bs ih =>
    intro as ms ns hxs hL hhead
    obtain ⟨ns, rfl⟩ := List.head?_eq_some_iff.mp hhead
    have hnext := hw.next hxs
    rw [nextRecord, if_pos (KeyFilter.isSet_of_field hfld)] at hnext
    have hrest := getNextEntry_inv hr hfld hend hL hnext
    have hxs' : xs = (as ++ [b]) ++ bs := by simpa using hxs
    have hL' : L l = (ms ++ [.entry fld b]) ++ ns := by simpa using hL
    rw [ih hxs' hL' hrest]
    rfl

/-- **The list of a filter by port is its walk.** -/
theorem Walk.loc_eq (hr : Represents s L) (hfld : filter.field = some fld)
    (hport : filter.filterByLogPort = true) {cookie : Option Node} {xs : List Nat}
    (hw : Walk s filter cookie xs) : L filter.loc = xs.map (.entry fld) := by
  obtain ⟨k, hloc, hkey⟩ := getFirstEntry_key hr hfld hport
  have hfirst := hw.first
  rw [firstRecord, if_pos (KeyFilter.isSet_of_field hfld), hkey] at hfirst
  rw [hloc]
  cases hg : s.fbdFilterMap.get k with
  | none =>
    rw [hg] at hfirst
    simp only [Option.some.injEq, Prod.mk.injEq, true_and] at hfirst
    rw [hr.get_none_iff.mp hg, List.head?_eq_none_iff.mp hfirst.2.symm]
    rfl
  | some j =>
    rw [hg] at hfirst
    have hend : listEnds s.fbdFilterMap (.key k) = some (.fltrEnd j) := by simp [listEnds, hg]
    obtain ⟨rfl, hhead⟩ := firstOfList_inv (hr.family.ring hend) (hr.heads hg) hfirst
    exact hw.rest_eq hr hfld hend xs (List.nil_append xs).symm (List.nil_append _).symm hhead

/-- **A walk is exact when its list has the items of the matching records**, and only then. -/
theorem exactWalk_iff_mem_loc (h : FdbInv s L) (hfld : filter.field = some fld)
    (hport : filter.filterByLogPort = true) :
    ExactWalk s filter ↔ ∀ n, n ∈ L filter.loc ↔ ∃ i ∈ s.fdbMap.values,
      n = .entry fld i ∧ filter.matches (s.records i).macParams = true := by
  constructor
  · rintro ⟨cookie, xs, hw, -, hmem⟩ n
    rw [hw.loc_eq h.index hfld hport, List.mem_map]
    constructor
    · rintro ⟨i, hi, rfl⟩
      obtain ⟨hstored, hmatch⟩ := (hmem i).mp hi
      exact ⟨i, hstored, rfl, hmatch⟩
    · rintro ⟨i, hstored, rfl, hmatch⟩
      exact ⟨i, (hmem i).mpr ⟨hstored, hmatch⟩, rfl⟩
  · intro hmem
    apply walk_location h hfld ?_ hmem
    intro hp
    rw [hport] at hp
    cases hp

end Lists

/-! ## Keys apart -/

/-- At the key of a filter by port, no stored record has an item of the other field, and the records that
have an item of the field of the filter match it. -/
def KeyApart (s : Fdb) (filter : KeyFilter) : Prop :=
  ∀ i ∈ s.fdbMap.values,
    let p := (s.records i).macParams
    if filter.filterByVid then
      buildPortKey p.logPort ≠ buildPortVidKey filter.logPort filter.vid ∧
      (buildPortVidKey p.logPort p.vid = buildPortVidKey filter.logPort filter.vid → filter.matches p = true)
    else
      buildPortVidKey p.logPort p.vid ≠ buildPortKey filter.logPort ∧
      (buildPortKey p.logPort = buildPortKey filter.logPort → filter.matches p = true)

/-- **With 32-bit ports the keys are apart.** -/
theorem keyApart_of_portsBelow {s : Fdb} (hports : PortsBelow s) {filter : KeyFilter}
    (hlt : filter.logPort.toNat < 2 ^ 32) : KeyApart s filter := by
  intro i hi
  have hi := hports i hi
  dsimp only
  cases hv : filter.filterByVid with
  | true =>
    rw [if_pos rfl]
    refine ⟨buildPortKey_ne_portVidKey hi hlt _, fun he => ?_⟩
    obtain ⟨hp, hvid⟩ := buildPortVidKey_inj hi hlt he
    simp [KeyFilter.matches, hv, hp, hvid]
  | false =>
    rw [if_neg (by simp)]
    refine ⟨(buildPortKey_ne_portVidKey hlt hi _).symm, fun he => ?_⟩
    simp [KeyFilter.matches, hv, buildPortKey_inj hi hlt he]

/-- A list has the items of one field of some records when a record with any item there is one of them, by
that field. -/
theorem FdbInv.mem_iff_fields {s : Fdb} {L : Index} (h : FdbInv s L) {l : Loc} {fld : FltrField}
    {P : Nat → Prop} (hP : ∀ i ∈ s.fdbMap.values, P i → .entry fld i ∈ L l) :
    (∀ n, n ∈ L l ↔ ∃ i ∈ s.fdbMap.values, n = .entry fld i ∧ P i) ↔
      ∀ i ∈ s.fdbMap.values, ∀ f, .entry f i ∈ L l → f = fld ∧ P i := by
  constructor
  · intro hmem i _ f hf
    obtain ⟨j, -, he, hj⟩ := (hmem _).mp hf
    cases he
    exact ⟨rfl, hj⟩
  · intro hall n
    constructor
    · intro hn
      cases n with
      | vlanEnd v => exact absurd (h.index.family.items hn) id
      | fltrEnd j => exact absurd (h.index.family.items hn) id
      | entry f i =>
        have hi := h.owned hn
        obtain ⟨rfl, hi'⟩ := hall i hi f hn
        exact ⟨i, hi, rfl, hi'⟩
    · rintro ⟨i, hi, rfl, hi'⟩
      exact hP i hi hi'

namespace AllLinked

variable {s : Fdb} {L : Index}

theorem port_mem_key_iff (h : AllLinked s L) {i k : Nat} (hi : i ∈ s.fdbMap.values) :
    .entry .port i ∈ L (.key k) ↔ buildPortKey (s.records i).macParams.logPort = k := by
  refine ⟨fun hk => (Loc.key.inj ((h.inv.home i).port hk)).symm, ?_⟩
  rintro rfl
  exact h.port_mem hi

theorem vidPort_mem_key_iff (h : AllLinked s L) {i k : Nat} (hi : i ∈ s.fdbMap.values) :
    .entry .vidPort i ∈ L (.key k) ↔
      buildPortVidKey (s.records i).macParams.logPort (s.records i).macParams.vid = k := by
  refine ⟨fun hk => (Loc.key.inj ((h.inv.home i).vidPort hk (h.port_mem hi))).symm, ?_⟩
  rintro rfl
  exact h.vidPort_mem hi

theorem vid_not_mem_key (h : AllLinked s L) (i k : Nat) : .entry .vid i ∉ L (.key k) := by
  intro hk
  cases (h.inv.home i).vid hk

/-- **The keys are apart when the list of the filter has the items of the matching records**, and only
then. -/
theorem keyApart_iff (h : AllLinked s L) {filter : KeyFilter} {fld : FltrField}
    (hfld : filter.field = some fld) (hport : filter.filterByLogPort = true) :
    KeyApart s filter ↔ ∀ n, n ∈ L filter.loc ↔ ∃ i ∈ s.fdbMap.values,
      n = .entry fld i ∧ filter.matches (s.records i).macParams = true := by
  cases hv : filter.filterByVid with
  | true =>
    have hf : fld = .vidPort := by simpa [KeyFilter.field, hport, hv, eq_comm] using hfld
    have hloc : filter.loc = .key (buildPortVidKey filter.logPort filter.vid) := by
      simp [KeyFilter.loc, hport, hv]
    subst hf
    rw [hloc, h.inv.mem_iff_fields (fun i hi hmatch => ?_)]
    · refine forall₂_congr fun i hi => ?_
      simp only [hv, if_true]
      constructor
      · rintro ⟨hother, hown⟩ f hf
        cases f with
        | vid => exact absurd hf (h.vid_not_mem_key _ _)
        | port => exact absurd ((h.port_mem_key_iff hi).mp hf) hother
        | vidPort => exact ⟨rfl, hown ((h.vidPort_mem_key_iff hi).mp hf)⟩
      · intro hall
        refine ⟨fun he => ?_, fun he => (hall .vidPort ((h.vidPort_mem_key_iff hi).mpr he)).2⟩
        cases (hall .port ((h.port_mem_key_iff hi).mpr he)).1
    · simp only [KeyFilter.matches, hport, hv, Bool.not_true, Bool.false_or, Bool.and_eq_true,
        beq_iff_eq] at hmatch
      rw [h.vidPort_mem_key_iff hi, hmatch.1, hmatch.2]
  | false =>
    have hf : fld = .port := by simpa [KeyFilter.field, hport, hv, eq_comm] using hfld
    have hloc : filter.loc = .key (buildPortKey filter.logPort) := by simp [KeyFilter.loc, hport, hv]
    subst hf
    rw [hloc, h.inv.mem_iff_fields (fun i hi hmatch => ?_)]
    · refine forall₂_congr fun i hi => ?_
      simp only [hv, Bool.false_eq_true, if_false]
      constructor
      · rintro ⟨hother, hown⟩ f hf
        cases f with
        | vid => exact absurd hf (h.vid_not_mem_key _ _)
        | port => exact ⟨rfl, hown ((h.port_mem_key_iff hi).mp hf)⟩
        | vidPort => exact absurd ((h.vidPort_mem_key_iff hi).mp hf) hother
      · intro hall
        refine ⟨fun he => ?_, fun he => (hall .port ((h.port_mem_key_iff hi).mpr he)).2⟩
        cases (hall .vidPort ((h.vidPort_mem_key_iff hi).mpr he)).1
    · simp only [KeyFilter.matches, hport, hv, Bool.not_true, Bool.not_false, Bool.false_or,
        Bool.true_or, Bool.true_and, beq_iff_eq] at hmatch
      rw [h.port_mem_key_iff hi, hmatch]

end AllLinked

/-- **A filtered walk is exact if and only if the key of the filter is apart**, in every state that adds and
deletes of records with any 64-bit ports lead to, and for every filter by port or by port and vid. -/
theorem exactWalk_iff (ops : List FdbOp) (hops : AnyPorts Fdb.init ops) (filter : KeyFilter)
    (hport : filter.filterByLogPort = true) :
    ExactWalk (run Fdb.init ops) filter ↔ KeyApart (run Fdb.init ops) filter := by
  obtain ⟨L, h⟩ := AllLinked.run ops coherent_init.allLinked hops
  have hfld : ∃ fld, filter.field = some fld := by
    unfold KeyFilter.field
    rw [hport]
    cases filter.filterByVid with
    | true => exact ⟨_, rfl⟩
    | false => exact ⟨_, rfl⟩
  obtain ⟨fld, hfld⟩ := hfld
  rw [exactWalk_iff_mem_loc h.inv hfld hport, h.keyApart_iff hfld hport]

/-- Two ports that share the low 32 bits and differ in bit 40. -/
theorem exactWalk_iff_bit_40 :
    ExactWalk (run Fdb.init
      [.add (some ⟨⟨7, ⟨0, 0, 0, 0, 0, 1⟩, 0x10000000005, .dynamic⟩, none, .ageable⟩),
        .add (some ⟨⟨7, ⟨0, 0, 0, 0, 0, 2⟩, 5, .dynamic⟩, none, .ageable⟩)]) ⟨false, 0, true, 5⟩ ↔
    KeyApart (run Fdb.init
      [.add (some ⟨⟨7, ⟨0, 0, 0, 0, 0, 1⟩, 0x10000000005, .dynamic⟩, none, .ageable⟩),
        .add (some ⟨⟨7, ⟨0, 0, 0, 0, 0, 2⟩, 5, .dynamic⟩, none, .ageable⟩)]) ⟨false, 0, true, 5⟩ :=
  exactWalk_iff _ (by decide) _ rfl

/-- **Ports that differ in bit 48 share a list**: the walk of a filter by port 5 begins with the record of
port 2^48 + 5. -/
theorem exactWalk_port_bit_48 :
    ¬ ∀ ops : List FdbOp, AnyPorts Fdb.init ops → ∀ filter : KeyFilter, filter.filterByLogPort = true →
      ExactWalk (run Fdb.init ops) filter := by
  intro hall
  obtain ⟨cookie, xs, hw, -, hmem⟩ := hall
    [.add (some ⟨⟨7, ⟨0, 0, 0, 0, 0, 1⟩, 0x1000000000005, .dynamic⟩, none, .ageable⟩),
      .add (some ⟨⟨7, ⟨0, 0, 0, 0, 0, 2⟩, 5, .dynamic⟩, none, .ageable⟩)]
    (by decide) ⟨false, 0, true, 5⟩ rfl
  have hfirst : (firstRecord (run Fdb.init
      [.add (some ⟨⟨7, ⟨0, 0, 0, 0, 0, 1⟩, 0x1000000000005, .dynamic⟩, none, .ageable⟩),
        .add (some ⟨⟨7, ⟨0, 0, 0, 0, 0, 2⟩, 5, .dynamic⟩, none, .ageable⟩)]) ⟨false, 0, true, 5⟩).map
        (·.2.2) = some (some 49151) := by decide
  rw [hw.first, Option.map_some, Option.some.injEq] at hfirst
  obtain ⟨ys, rfl⟩ := List.head?_eq_some_iff.mp hfirst
  have hmatch := ((hmem 49151).mp (List.mem_cons_self ..)).2
  revert hmatch
  decide

end MlnxLib.CtrlLearn
