import MlnxLib.CtrlLearn.Records

/-!
# The filter pool is never the bottleneck

As long as the ports of the records and of the entry are at most `MAX_PORT_ENTRIES`, no call of
`link_entry_to_fltr_list` inside `fdb_uc_db_add_record` finds `fdb_fltr_pool` empty, whatever calls
led to the state.  The add still fails on a record that an earlier call, made while there were more
ports, left without one of its port links: moving it to another port fails at the missing link.

* `addRecordLinkCalls` — the link calls of one add, each with the state it runs in.
* `NeverShort` — no link call finds the pool empty, and the add succeeds or reports a full table.

Principal results: `neverShort_iff` — an add is never short of heads exactly when it does not move a
record that misses a port link; `halfLinked_move_fails` — a run that leaves such a record.
-/

set_option autoImplicit false

namespace MlnxLib.CtrlLearn

/-! ## The link calls of an add -/

/-- A call of `link_entry_to_fltr_list`: the state it runs in, and its key. -/
structure LinkCall where
  state : Fdb
  mapKey : Nat

/-- The call needs a head and there is none. -/
def LinkCall.FindsPoolEmpty (c : LinkCall) : Prop :=
  c.state.fbdFilterMap.get c.mapKey = none ∧ clPoolCount c.state.fdbFltrPool = 0

/-- The calls that follow one with result `r`. -/
def afterOk (r : Int × Fdb) (calls : Fdb → List LinkCall) : List LinkCall :=
  if r.1 = 0 then calls r.2 else []

/-- The link calls of `fdb_uc_db_filter_add_entry`. -/
def addEntryLinkCalls (s : Fdb) (macEntry : Nat) : List LinkCall :=
  if !s.filtersInitiated then [] else
  let vid := (s.records macEntry).macParams.vid
  let port := (s.records macEntry).macParams.logPort
  if MAX_VLAN_ENTRIES ≤ vid.toNat then [] else
  let s := vlanListInsertTail s vid.toNat macEntry
  ⟨s, buildPortKey port⟩ ::
    afterOk (linkEntryToFltrList s macEntry (buildPortKey port) .port) fun s =>
    [⟨s, buildPortVidKey port vid⟩]

/-- The link calls of `fdb_uc_db_filter_modified_entry`. -/
def modifiedEntryLinkCalls (s : Fdb) (oldMacParams : MacParams) (newMacEntry : Nat) : List LinkCall :=
  if !s.filtersInitiated then [] else
  let oldLogPort := oldMacParams.logPort
  let newLogPort := (s.records newMacEntry).macParams.logPort
  let vid := (s.records newMacEntry).macParams.vid
  if oldLogPort ≠ newLogPort then
    afterOk (delinkEntryFromFltrList s newMacEntry (buildPortKey oldLogPort) .port) fun s =>
    ⟨s, buildPortKey newLogPort⟩ ::
      afterOk (linkEntryToFltrList s newMacEntry (buildPortKey newLogPort) .port) fun s =>
      afterOk (delinkEntryFromFltrList s newMacEntry (buildPortVidKey oldLogPort vid) .vidPort) fun s =>
      [⟨s, buildPortVidKey newLogPort vid⟩]
  else []

/-- The link calls of `fdb_uc_db_add_record`. -/
def addRecordLinkCalls (s : Fdb) (e : MacEntry) : List LinkCall :=
  if !s.fdbInitiated then [] else
  match fdbUcDbGetRecordByKey s e.macParams.key with
  | (_, none) =>
    match fdbUcDbCreateRecord s e.macParams.key with
    | (_, s, some i) => addEntryLinkCalls (setRecord s i e) i
    | (_, _, none) => []
  | (_, some i) => modifiedEntryLinkCalls (setRecord s i e) (s.records i).macParams i

/-- The add finds every head it needs: it succeeds, or the key is new and the table is full. -/
def NeverShort (s : Fdb) (e : MacEntry) : Prop :=
  (∀ c ∈ addRecordLinkCalls s e, ¬ c.FindsPoolEmpty) ∧
  if s.fdbMap.get e.macParams.key = none ∧ clPoolCount s.mainDbPool = 0 then
    fdbUcDbAddRecord s (some e) = (-ENOMEM, s)
  else (fdbUcDbAddRecord s (some e)).1 = 0

/-- The add does not move a record that misses a port link. -/
def MovesLinked (s : Fdb) (e : MacEntry) : Prop :=
  ∀ i, s.fdbMap.get e.macParams.key = some i →
    (s.records i).macParams.logPort = e.macParams.logPort ∨
    (isLinked s .port i = true ∧ isLinked s .vidPort i = true)

/-! ## No link call finds the pool empty -/

section Calls

variable {s : Fdb} {L : Index} {i : Nat}

theorem mem_afterOk {r : Int × Fdb} {calls : Fdb → List LinkCall} {c : LinkCall} :
    c ∈ afterOk r calls ↔ r.1 = 0 ∧ c ∈ calls r.2 := by
  unfold afterOk
  split
  · rename_i h
    simp [h]
  · rename_i h
    simp [h]

/-- A call for which the pool has the head it may need. -/
theorem not_findsPoolEmpty (hr : Represents s L) {k : Nat}
    (hcost : headCost L k ≤ clPoolCount s.fdbFltrPool) : ¬ (LinkCall.mk s k).FindsPoolEmpty := by
  rintro ⟨hget, hpool⟩
  have hone : headCost L k = 1 := if_pos (hr.get_none_iff.mp hget)
  dsimp only at hpool
  omega

theorem addEntryLinkCalls_found (hr : Represents s L) (hfree : ∀ f l, .entry f i ∉ L l)
    {p : MacParams} (hp : (s.records i).macParams = p)
    (hcost : linkAllCost L i p ≤ clPoolCount s.fdbFltrPool) :
    ∀ c ∈ addEntryLinkCalls s i, ¬ c.FindsPoolEmpty := by
  unfold addEntryLinkCalls
  rw [if_neg (by simp [hr.ready])]
  simp only [hp]
  unfold linkAllCost at hcost
  split
  · intro c hc
    cases hc
  rename_i hv
  have hr₁ := represents_vlanListInsertTail hr (v := p.vid.toNat) (by omega) (hfree .vid)
  have hpool₁ : clPoolCount (vlanListInsertTail s p.vid.toNat i).fdbFltrPool =
      clPoolCount s.fdbFltrPool := rfl
  have hcost₁ := headCost_insert_vlan L p.vid.toNat (buildPortKey p.logPort) (.entry .vid i)
  have hfree₁ : ∀ l, .entry .port i ∉ L.insert (.vlan p.vid.toNat) (.entry .vid i) l := by
    intro l
    simp [Index.mem_insert, hfree]
  obtain ⟨-, hr₂, -, hpool₂⟩ := link_spec hr₁ (k := buildPortKey p.logPort) hfree₁ (by omega)
  have hcost₂ : headCost ((L.insert (.vlan p.vid.toNat) (.entry .vid i)).insert
      (.key (buildPortKey p.logPort)) (.entry .port i)) (buildPortVidKey p.logPort p.vid) =
      headCost (L.insert (.key (buildPortKey p.logPort)) (.entry .port i))
        (buildPortVidKey p.logPort p.vid) := by
    simp [headCost, Index.insert, Function.update]
  intro c hc
  rcases List.mem_cons.mp hc with rfl | hc
  · exact not_findsPoolEmpty hr₁ (by omega)
  · obtain ⟨-, hc⟩ := mem_afterOk.mp hc
    rw [List.mem_singleton.mp hc]
    exact not_findsPoolEmpty hr₂ (by omega)

theorem modifiedEntryLinkCalls_found (h : FdbInv s L) {e : MacEntry}
    (hk : s.fdbMap.get e.macParams.key = some i)
    (hports : (insert e.macParams.logPort ((s.slots.erase i).image s.portOf)).card ≤ MAX_PORT_ENTRIES) :
    ∀ c ∈ modifiedEntryLinkCalls (setRecord s i e) (s.records i).macParams i, ¬ c.FindsPoolEmpty := by
  have hi := OrdMap.get_mem_values hk
  have hvid := (h.get_mem hk e.macParams rfl).1
  have hhome := h.home i
  have hr₀ := h.index.setRecord i e
  have hrec₀ : ((setRecord s i e).records i).macParams = e.macParams := by simp [setRecord]
  have hpool₀ : clPoolCount (setRecord s i e).fdbFltrPool = clPoolCount s.fdbFltrPool := rfl
  unfold modifiedEntryLinkCalls
  rw [if_neg (by simp [hr₀.ready])]
  simp only [hrec₀]
  generalize setRecord s i e = s₀ at *
  split
  swap
  · intro c hc
    cases hc
  by_cases hlp : .entry .port i ∈ L (.key (buildPortKey (s.records i).macParams.logPort))
  swap
  · -- no port link: the first de-link fails
    rw [delink_unlinked hr₀ _ (fun l hl => hlp (hhome.port hl ▸ hl))]
    intro c hc
    cases hc
  have hswap := canSwap_of_room h hlp hports
  obtain ⟨herr₁, hr₁, -, hpool₁, -⟩ := delink_spec hr₀ hlp
  obtain ⟨-, hr₂, -, hpool₂⟩ := swap_spec hr₀ (hpool₀ ▸ hswap)
  have hr₂ : Represents _ (movePort L i (s.records i).macParams e.macParams) := hr₂
  intro c hc
  obtain ⟨-, hc⟩ := mem_afterOk.mp hc
  rcases List.mem_cons.mp hc with rfl | hc
  · have hcost := hswap.2
    exact not_findsPoolEmpty hr₁ (by omega)
  obtain ⟨-, hc⟩ := mem_afterOk.mp hc
  unfold swapEntry at hr₂ hpool₂
  rw [orBail_ok herr₁] at hr₂ hpool₂
  by_cases hlv : .entry .vidPort i ∈
      L (.key (buildPortVidKey (s.records i).macParams.logPort e.macParams.vid))
  swap
  · -- no port-and-vid link: the second de-link fails
    have hnone : ∀ l, .entry .vidPort i ∉ movePort L i (s.records i).macParams e.macParams l := by
      intro l hl
      have hl' : .entry .vidPort i ∈ L l := by simpa using (hr₀.mem_swap hlp).mp hl
      rw [hhome.vidPort hl' hlp, ← hvid] at hl'
      exact hlv hl'
    rw [delink_unlinked hr₂ _ hnone] at hc
    cases hc
  obtain ⟨-, hmem, hcost⟩ := canMove_of_room h hi hlp hlv hports
  obtain ⟨-, hr₃, -, hpool₃, -⟩ := delink_spec hr₂ hmem
  obtain ⟨-, hc⟩ := mem_afterOk.mp hc
  rw [List.mem_singleton.mp hc]
  exact not_findsPoolEmpty hr₃ (by omega)

/-- **No link call of an add finds the pool empty**, in any state the calls can reach. -/
theorem addRecordLinkCalls_found (h : FdbInv s L) {e : MacEntry}
    (hports : (insert e.macParams.logPort (s.slots.image s.portOf)).card ≤ MAX_PORT_ENTRIES) :
    ∀ c ∈ addRecordLinkCalls s e, ¬ c.FindsPoolEmpty := by
  cases hk : s.fdbMap.get e.macParams.key with
  | none =>
    cases hp : clPoolGet s.mainDbPool with
    | none =>
      intro c hc
      simp [addRecordLinkCalls, h.ready, fdbUcDbGetRecordByKey, fdbUcDbCreateRecord, hk, hp] at hc
    | some r =>
      obtain ⟨i, pool⟩ := r
      have hfree := h.unlinked_of_not_stored (h.pool.fresh hp)
      have hclear : ∀ f, Ring.clear s.links (.entry f i) = s.links :=
        fun f => h.index.family.clear_free trivial (hfree f)
      have hcalls : addRecordLinkCalls s e = addEntryLinkCalls (created s i pool e) i := by
        simp [addRecordLinkCalls, h.ready, fdbUcDbGetRecordByKey, fdbUcDbCreateRecord, hk, hp, setRecord,
          clearRecord, created, hclear]
      rw [hcalls]
      exact addEntryLinkCalls_found (h.created hk hp).index hfree (by simp [created])
        (linkAllCost_le h hp hports)
  | some i =>
    have hcalls : addRecordLinkCalls s e =
        modifiedEntryLinkCalls (setRecord s i e) (s.records i).macParams i := by
      simp [addRecordLinkCalls, h.ready, fdbUcDbGetRecordByKey, hk]
    rw [hcalls]
    refine modifiedEntryLinkCalls_found h hk ((Finset.card_le_card ?_).trans hports)
    exact Finset.insert_subset_insert _ (Finset.image_subset_image (Finset.erase_subset i _))

end Calls

/-! ## When an add is never short -/

theorem neverShort_iff_movesLinked {s : Fdb} {L : Index} (h : FdbInv s L) {e : MacEntry}
    (hv : e.macParams.vid.toNat < MAX_VLAN_ENTRIES)
    (hports : (insert e.macParams.logPort (s.slots.image s.portOf)).card ≤ MAX_PORT_ENTRIES) :
    NeverShort s e ↔ MovesLinked s e := by
  have hcalls := addRecordLinkCalls_found h hports
  have hr := h.index
  unfold NeverShort
  cases add_spec h e with
  | full hk hp hr =>
    rw [if_pos ⟨hk, clPoolGet_none_iff.mp hp⟩]
    refine iff_of_true ⟨hcalls, hr⟩ (fun i hi => ?_)
    rw [hk] at hi
    cases hi
  | newOk i pool hk hp herr =>
    have hpos := clPoolGet_count hp
    rw [if_neg (fun hfull => by omega)]
    refine iff_of_true ⟨hcalls, herr⟩ (fun i hi => ?_)
    rw [hk] at hi
    cases hi
  | newErr i pool hk hp herr hdb hcan => exact absurd ⟨hv, linkAllCost_le h hp hports⟩ hcan
  | refresh i hk hport hres =>
    rw [if_neg (by simp [hk]), hres]
    refine iff_of_true ⟨hcalls, rfl⟩ (fun j hj => Or.inl ?_)
    rw [hk] at hj
    cases hj
    exact hport
  | moveOk i hk hport herr hdb hcan =>
    rw [if_neg (by simp [hk])]
    obtain ⟨-, hrem, -⟩ := moveAll_spec hr hcan
    refine iff_of_true ⟨hcalls, herr⟩ (fun j hj => Or.inr ?_)
    rw [hk] at hj
    cases hj
    exact ⟨(isLinked_iff hr).mpr hrem.1, (isLinked_iff hr).mpr hrem.2⟩
  | moveErr i hk hport herr hdb hcan =>
    rw [if_neg (by simp [hk])]
    refine iff_of_false (fun hn => herr hn.2) (fun hm => ?_)
    obtain hsame | ⟨hlp, hlv⟩ := hm i hk
    · exact hport hsame
    obtain ⟨lp, hlp⟩ := (isLinked_iff hr).mp hlp
    obtain ⟨lv, hlv⟩ := (isLinked_iff hr).mp hlv
    have hhome := h.home i
    rw [hhome.vidPort hlv hlp, ← (h.get_mem hk e.macParams rfl).1] at hlv
    rw [hhome.port hlp] at hlp
    refine hcan (canMove_of_room h (OrdMap.get_mem_values hk) hlp hlv ?_)
    refine (Finset.card_le_card ?_).trans hports
    exact Finset.insert_subset_insert _ (Finset.image_subset_image (Finset.erase_subset i _))

/-- **An add is never short of heads exactly when it does not move a record that misses a link.** -/
theorem neverShort_iff (ops : List FdbOp) (e : MacEntry)
    (hv : e.macParams.vid.toNat < MAX_VLAN_ENTRIES)
    (hports : (insert e.macParams.logPort ((run Fdb.init ops).slots.image
      (run Fdb.init ops).portOf)).card ≤ MAX_PORT_ENTRIES) :
    NeverShort (run Fdb.init ops) e ↔ MovesLinked (run Fdb.init ops) e := by
  obtain ⟨L, h⟩ := FdbInv.run ops emptyDb_init.inv
  exact neverShort_iff_movesLinked h hv hports

/-- The first of two stations moves to the port of the other. -/
theorem neverShort_iff_move :
    (run Fdb.init twoStations).lookup (station 7 1 6).macParams.key = some (station 7 1 5) ∧
    (NeverShort (run Fdb.init twoStations) (station 7 1 6) ↔
      MovesLinked (run Fdb.init twoStations) (station 7 1 6)) :=
  ⟨by decide, neverShort_iff twoStations (station 7 1 6) (by decide) (by decide)⟩

/-! ## A run that leaves a record without its links

Records with a port each take two heads each and use the head pool up; the next one is stored and not
linked.  Once the others are gone it is alone in the table, and still cannot be moved. -/

/-- Entry number `i`: its MAC address and its port are `i`. -/
def fillEntry (i : Nat) : MacEntry :=
  ⟨⟨0, ⟨0, 0, 0, 0, UInt8.ofNat (i / 256), UInt8.ofNat (i % 256)⟩, UInt64.ofNat i, .dynamic⟩, none,
    .ageable⟩

/-- The number of records with a port each that use up the head pool. -/
def FILL : Nat := MAX_FILTER_ENTRIES / 2

/-- The entry on another port. -/
def onPort (e : MacEntry) (port : UInt64) : MacEntry :=
  { e with macParams := { e.macParams with logPort := port } }

theorem onPort_key (e : MacEntry) (port : UInt64) : (onPort e port).macParams.key = e.macParams.key := rfl

theorem onPort_vid (e : MacEntry) (port : UInt64) : (onPort e port).macParams.vid = e.macParams.vid := rfl

theorem onPort_port (e : MacEntry) (port : UInt64) : (onPort e port).macParams.logPort = port := rfl

/-- The first `n` entries, which get the slots of their numbers, from the last slot down. -/
def fillOps (n : Nat) : List FdbOp :=
  (List.range n).map fun j => .add (some (fillEntry (MAX_FDB_ENTRIES - 1 - j)))

/-- Deletes of the records in the last `n` slots. -/
def drainOps (n : Nat) : List FdbOp :=
  (List.range n).map fun j => .delete (some (MAX_FDB_ENTRIES - 1 - j))

theorem fillEntry_key_inj {i j : Nat} (hi : i < MAX_FDB_ENTRIES) (hj : j < MAX_FDB_ENTRIES)
    (h : (fillEntry i).macParams.key = (fillEntry j).macParams.key) : i = j := by
  obtain ⟨hm, -⟩ := macVlanKey_inj h
  unfold fillEntry at hm
  simp only [EtherAddr.mk.injEq, true_and] at hm
  obtain ⟨hhi, hlo⟩ := hm
  have hhi' := congrArg UInt8.toNat hhi
  have hlo' := congrArg UInt8.toNat hlo
  simp only [UInt8.toNat_ofNat'] at hhi' hlo'
  unfold MAX_FDB_ENTRIES at *
  omega

theorem fillEntry_vid (i : Nat) : (fillEntry i).macParams.vid.toNat < MAX_VLAN_ENTRIES := by
  change (0 : UInt16).toNat < MAX_VLAN_ENTRIES
  decide

theorem fillEntry_port {i : Nat} (hi : i < MAX_FDB_ENTRIES) :
    (fillEntry i).macParams.logPort.toNat = i := by
  unfold fillEntry MAX_FDB_ENTRIES at *
  simp only [UInt64.toNat_ofNat']
  omega

/-- **Records on ports of their own** have two heads each. -/
theorem Coherent.two_heads_each {s : Fdb} {L : Index} (h : Coherent s L)
    (hinj : Set.InjOn s.portOf s.slots) : 2 * s.slots.card ≤ s.fbdFilterMap.count := by
  let keys := (s.fbdFilterMap.entries.map (·.1)).toFinset
  have hcount : s.fbdFilterMap.count = keys.card := by
    rw [List.toFinset_card_of_nodup s.fbdFilterMap.keys_nodup, List.length_map]
    rfl
  have hkey : ∀ {k : Nat} {n : Node}, n ∈ L (.key k) → k ∈ keys := by
    intro k n hn
    obtain ⟨j, hj⟩ := Option.isSome_iff_exists.mp
      (h.inv.index.get_isSome_iff.mpr (List.ne_nil_of_mem hn))
    exact List.mem_toFinset.mpr (List.mem_map.mpr ⟨(k, j), OrdMap.mem_entries_iff.mpr hj, rfl⟩)
  have hports : ∀ {i}, i ∈ s.slots → (s.portOf i).toNat < 2 ^ 32 :=
    fun hi => h.ports _ (Fdb.mem_slots.mp hi)
  have hcardp : (s.slots.image fun i => buildPortKey (s.portOf i)).card = s.slots.card :=
    Finset.card_image_of_injOn (fun i hi j hj he =>
      hinj hi hj (buildPortKey_inj (hports hi) (hports hj) he))
  have hcardv : (s.slots.image fun i =>
      buildPortVidKey (s.portOf i) (s.records i).macParams.vid).card = s.slots.card :=
    Finset.card_image_of_injOn (fun i hi j hj he =>
      hinj hi hj (buildPortVidKey_inj (hports hi) (hports hj) he).1)
  have hdisj : Disjoint (s.slots.image fun i => buildPortKey (s.portOf i))
      (s.slots.image fun i => buildPortVidKey (s.portOf i) (s.records i).macParams.vid) := by
    rw [Finset.disjoint_left]
    intro k hk hk'
    obtain ⟨i, hi, rfl⟩ := Finset.mem_image.mp hk
    obtain ⟨j, hj, he⟩ := Finset.mem_image.mp hk'
    exact buildPortKey_ne_portVidKey (hports hi) (hports hj) _ he.symm
  have hsub : (s.slots.image fun i => buildPortKey (s.portOf i)) ∪
      (s.slots.image fun i => buildPortVidKey (s.portOf i) (s.records i).macParams.vid) ⊆ keys := by
    refine Finset.union_subset (fun k hk => ?_) (fun k hk => ?_)
    · obtain ⟨i, hi, rfl⟩ := Finset.mem_image.mp hk
      exact hkey (h.allLinked.port_mem (Fdb.mem_slots.mp hi))
    · obtain ⟨i, hi, rfl⟩ := Finset.mem_image.mp hk
      exact hkey (h.allLinked.vidPort_mem (Fdb.mem_slots.mp hi))
  have hle := Finset.card_le_card hsub
  rw [Finset.card_union_of_disjoint hdisj, hcardp, hcardv] at hle
  omega

/-- The first `n` entries are stored and linked. -/
structure Filled (n : Nat) (s : Fdb) (L : Index) : Prop where
  coherent : Coherent s L
  pool : s.mainDbPool = ⟨[], MAX_FDB_ENTRIES - n⟩
  record : ∀ {i}, i ∈ s.fdbMap.values → s.records i = fillEntry i

namespace Filled

variable {n : Nat} {s : Fdb} {L : Index}

theorem mem (h : Filled n s L) {i : Nat} :
    i ∈ s.fdbMap.values ↔ MAX_FDB_ENTRIES - n ≤ i ∧ i < MAX_FDB_ENTRIES := by
  have hperm := h.coherent.inv.pool
  have hnd := hperm.nodup
  unfold Conserves at hperm
  have hmem := hperm.mem_iff (a := i)
  rw [h.pool] at hmem hnd
  simp only [Pool.free, List.nil_append, List.mem_append, List.mem_reverse, List.mem_range] at hmem
  constructor
  · intro hi
    have hfree : i ∉ (Pool.mk [] (MAX_FDB_ENTRIES - n)).free :=
      fun hf => List.disjoint_of_nodup_append hnd hf hi
    simp only [Pool.free, List.nil_append, List.mem_reverse, List.mem_range] at hfree
    exact ⟨by omega, hmem.mp (Or.inr hi)⟩
  · rintro ⟨hge, hlt⟩
    rcases hmem.mpr hlt with hf | hi
    · omega
    · exact hi

theorem count (h : Filled n s L) (hn : n ≤ MAX_FDB_ENTRIES) : s.slots.card = n := by
  have hcount := h.coherent.inv.pool.count
  rw [h.coherent.inv.slots_card]
  rw [h.pool] at hcount
  simp only [clPoolCount, List.length_nil] at hcount
  omega

theorem fresh (h : Filled n s L) {i : Nat} (hi : i + 1 = MAX_FDB_ENTRIES - n) :
    s.fdbMap.get (fillEntry i).macParams.key = none := by
  cases hk : s.fdbMap.get (fillEntry i).macParams.key with
  | none => rfl
  | some j =>
    have hj := OrdMap.get_mem_values hk
    have hkey := h.coherent.inv.keyed hk
    rw [h.record hj] at hkey
    have hjn := h.mem.mp hj
    have hji := fillEntry_key_inj hjn.2 (by omega) hkey
    omega

/-- What is left of the head pool: each record took a head for its port, and one for its port and vid. -/
theorem free_heads (h : Filled n s L) (hn : n ≤ MAX_FDB_ENTRIES) :
    clPoolCount s.fdbFltrPool + 2 * n = MAX_FILTER_ENTRIES := by
  have hcard := h.count hn
  have hfltr := h.coherent.inv.index.pool.count
  have hle := h.coherent.inv.coveredBy.heads_le h.coherent.inv.index
  have himage := Finset.card_image_le (f := s.portOf) (s := s.slots)
  have hport : ∀ {i}, i ∈ s.slots → s.portOf i = (fillEntry i).macParams.logPort := by
    intro i hi
    rw [Fdb.portOf, h.record (Fdb.mem_slots.mp hi)]
  have hinj : Set.InjOn s.portOf s.slots := by
    intro i hi j hj he
    rw [hport hi, hport hj] at he
    have hi' := h.mem.mp (Fdb.mem_slots.mp hi)
    have hj' := h.mem.mp (Fdb.mem_slots.mp hj)
    rw [← fillEntry_port hi'.2, ← fillEntry_port hj'.2, he]
  have hge := h.coherent.two_heads_each hinj
  omega

theorem init : Filled 0 Fdb.init (fun _ => []) := by
  refine ⟨coherent_init, emptyDb_init.mainDbPool, fun {i} hi => ?_⟩
  rw [emptyDb_init.fdbMap] at hi
  cases hi

theorem slot (h : Filled n s L) {i : Nat} (hi : i + 1 = MAX_FDB_ENTRIES - n) :
    clPoolGet s.mainDbPool = some (i, ⟨[], i⟩) := by
  rw [h.pool, ← hi]
  rfl

/-- The slots of a created record, and what they hold. -/
theorem record_created (h : Filled n s L) {i : Nat} {pool : Pool}
    (hk : s.fdbMap.get (fillEntry i).macParams.key = none) {j : Nat}
    (hj : j ∈ (created s i pool (fillEntry i)).fdbMap.values) :
    (created s i pool (fillEntry i)).records j = fillEntry j := by
  unfold created at hj ⊢
  by_cases hji : j = i
  · rw [hji]
    exact Function.update_self ..
  · rcases List.mem_cons.mp ((OrdMap.values_insert i hk).mem_iff.mp hj) with hj | hj
    · exact absurd hj hji
    · exact (Function.update_of_ne hji ..).trans (h.record hj)

/-- **The next entry is linked** as long as there are heads. -/
theorem add (h : Filled n s L) (hn : n < FILL) {i : Nat} (hi : i + 1 = MAX_FDB_ENTRIES - n) :
    ∃ L', Filled (n + 1) (fdbUcDbAddRecord s (some (fillEntry i))).2 L' := by
  have hk := h.fresh hi
  have hslot := h.slot hi
  have hport : (fillEntry i).macParams.logPort.toNat < 2 ^ 32 := by
    rw [fillEntry_port (by omega)]
    unfold MAX_FDB_ENTRIES at hi
    omega
  have hheads := h.free_heads (by unfold FILL MAX_FILTER_ENTRIES MAX_FDB_ENTRIES MAX_PORT_ENTRIES at *; omega)
  have hroom : linkAllCost L i (fillEntry i).macParams ≤ clPoolCount s.fdbFltrPool := by
    have h₁ := headCost_le_one L (buildPortKey (fillEntry i).macParams.logPort)
    have h₂ := headCost_le_one (L.insert (.key (buildPortKey (fillEntry i).macParams.logPort))
      (.entry .port i)) (buildPortVidKey (fillEntry i).macParams.logPort (fillEntry i).macParams.vid)
    unfold linkAllCost
    unfold FILL MAX_FILTER_ENTRIES MAX_FDB_ENTRIES MAX_PORT_ENTRIES at *
    omega
  have hvid := fillEntry_vid i
  cases add_spec h.coherent.inv (fillEntry i) with
  | full hk' hp => simp [hslot] at hp
  | newOk i' pool hk' hp herr hdb hcan hinv =>
    rw [hslot] at hp
    cases hp
    refine ⟨_, h.coherent.linkAll hk hport hdb hinv, ?_, fun {j} hj => ?_⟩
    · rw [hdb.mainDbPool, Nat.sub_succ, ← hi]
      rfl
    · rw [hdb.fdbMap] at hj
      rw [hdb.records]
      exact h.record_created hk hj
  | newErr i' pool hk' hp herr hdb hcan =>
    rw [hslot] at hp
    cases hp
    exact absurd ⟨hvid, hroom⟩ hcan
  | refresh _ hk' => simp [hk] at hk'
  | moveOk _ hk' => simp [hk] at hk'
  | moveErr _ hk' => simp [hk] at hk'

theorem fill : ∀ n, n ≤ FILL → ∃ L, Filled n (run Fdb.init (fillOps n)) L
  | 0, _ => ⟨_, Filled.init⟩
  | n + 1, hn => by
    obtain ⟨L, h⟩ := fill n (by omega)
    have hrun : run Fdb.init (fillOps (n + 1)) =
        (fdbUcDbAddRecord (run Fdb.init (fillOps n)) (some (fillEntry (MAX_FDB_ENTRIES - 1 - n)))).2 := by
      simp [run, fillOps, List.range_succ, FdbOp.step]
    rw [hrun]
    refine h.add (by omega) ?_
    unfold FILL MAX_FILTER_ENTRIES MAX_FDB_ENTRIES MAX_PORT_ENTRIES at *
    omega

end Filled

/-- The number of the entry that finds the head pool empty. -/
def LEFT : Nat := MAX_FDB_ENTRIES - 1 - FILL

/-- Its record is left without links; the others that are not deleted yet are linked, in the slots below
`MAX_FDB_ENTRIES - n`. -/
structure Drained (n : Nat) (s : Fdb) (L : Index) : Prop where
  inv : FdbInv s L
  stored : s.fdbMap.get (fillEntry LEFT).macParams.key = some LEFT
  record : s.records LEFT = fillEntry LEFT
  pinned : ¬ L.Removable LEFT
  others : ∀ {j}, j ∈ s.fdbMap.values → j ≠ LEFT → L.Removable j ∧ j < MAX_FDB_ENTRIES - n ∧ LEFT < j

namespace Drained

variable {n : Nat} {s : Fdb} {L : Index}

/-- **The entry after the last head** is stored and left without links. -/
theorem start (h : Filled FILL s L) :
    ∃ L', Drained 0 (fdbUcDbAddRecord s (some (fillEntry LEFT))).2 L' := by
  have hi : LEFT + 1 = MAX_FDB_ENTRIES - FILL := by decide
  have hk := h.fresh hi
  have hslot := h.slot hi
  have hheads := h.free_heads (by decide)
  have hempty : clPoolCount s.fdbFltrPool = 0 := by
    unfold FILL MAX_FILTER_ENTRIES MAX_FDB_ENTRIES MAX_PORT_ENTRIES at hheads
    omega
  have hport : (fillEntry LEFT).macParams.logPort.toNat < 2 ^ 32 := by
    rw [fillEntry_port (by decide)]
    decide
  -- its port is no other record's
  have hnil : L (.key (buildPortKey (fillEntry LEFT).macParams.logPort)) = [] := by
    refine List.eq_nil_iff_forall_not_mem.mpr (fun x hx => ?_)
    obtain ⟨j, hj, -, he⟩ := (h.coherent.mem_port_iff hport x).mp hx
    have hjn := h.mem.mp hj
    rw [h.record hj, beq_iff_eq] at he
    have hnum := congrArg UInt64.toNat he
    rw [fillEntry_port hjn.2, fillEntry_port (by decide)] at hnum
    omega
  have hcost : 0 < linkAllCost L LEFT (fillEntry LEFT).macParams := by
    unfold linkAllCost headCost
    rw [if_pos hnil]
    omega
  cases add_spec h.coherent.inv (fillEntry LEFT) with
  | full hk' hp => simp [hslot] at hp
  | newOk i' pool hk' hp herr hdb hcan =>
    rw [hslot] at hp
    cases hp
    omega
  | newErr i' pool hk' hp herr hdb hcan hcode hleft =>
    rw [hslot] at hp
    cases hp
    obtain ⟨L', hinv, hag, hpin⟩ := hleft
    have hget := OrdMap.get_insert LEFT hk
    refine ⟨L', hinv, ?_, ?_, hpin, fun {j} hj hne => ?_⟩
    · rw [hdb.fdbMap, created, hget, if_pos rfl]
    · rw [hdb.records]
      exact Function.update_self LEFT (fillEntry LEFT) s.records
    · rw [hdb.fdbMap, created] at hj
      rcases List.mem_cons.mp ((OrdMap.values_insert LEFT hk).mem_iff.mp hj) with hj | hj
      · exact absurd hj hne
      · have hjn := h.mem.mp hj
        refine ⟨(hag.removable_iff hne).mpr ?_, by omega, by omega⟩
        exact ⟨h.coherent.linked j hj .port, h.coherent.linked j hj .vidPort⟩
  | refresh _ hk' => simp [hk] at hk'
  | moveOk _ hk' => simp [hk] at hk'
  | moveErr _ hk' => simp [hk] at hk'

/-- **A delete of one of the others.** -/
theorem delete (h : Drained n s L) {i : Nat} (hi : i + 1 = MAX_FDB_ENTRIES - n) (hne : LEFT < i) :
    ∃ L', Drained (n + 1) (fdbUcDbDeleteRecord s (some i)).2 L' := by
  obtain ⟨L', hinv, hthin, -, -, hrec, hres⟩ := delete_spec h.inv i
  have hag := hthin.agreesBut
  have hgone : ∀ {j}, j ∈ (fdbUcDbDeleteRecord s (some i)).2.fdbMap.values →
      j ∈ s.fdbMap.values ∧ j ≠ i := by
    intro j hj
    obtain ⟨-, -, hmap⟩ | ⟨-, hrem, hdb⟩ := hres
    · rw [hmap, OrdMap.values_removeItem, List.mem_filter, decide_eq_true_eq] at hj
      exact hj
    · rw [hdb.fdbMap] at hj
      refine ⟨hj, ?_⟩
      rintro rfl
      exact hrem (h.others hj (by omega)).1
  refine ⟨L', hinv, ?_, by rw [hrec]; exact h.record, ?_, fun {j} hj hjl => ?_⟩
  · obtain ⟨-, -, hmap⟩ | ⟨-, -, hdb⟩ := hres
    · have hother : s.fdbMap.get (fillEntry LEFT).macParams.key ≠ some i := by
        rw [h.stored, ne_eq, Option.some_inj]
        omega
      rw [hmap, OrdMap.get_removeItem, if_neg hother]
      exact h.stored
    · rw [hdb.fdbMap]
      exact h.stored
  · rw [hag.removable_iff (by omega)]
    exact h.pinned
  · obtain ⟨hj, hji⟩ := hgone hj
    obtain ⟨hrem, hlt, hleft⟩ := h.others hj hjl
    exact ⟨(hag.removable_iff hji).mpr hrem, by omega, hleft⟩

theorem drain (h : Drained 0 s L) : ∀ n, n ≤ FILL → ∃ L', Drained n (run s (drainOps n)) L'
  | 0, _ => ⟨L, h⟩
  | n + 1, hn => by
    obtain ⟨L', h'⟩ := drain h n (by omega)
    have hrun : run s (drainOps (n + 1)) =
        (fdbUcDbDeleteRecord (run s (drainOps n)) (some (MAX_FDB_ENTRIES - 1 - n))).2 := by
      simp [run, drainOps, List.range_succ, FdbOp.step]
    rw [hrun]
    refine h'.delete ?_ ?_ <;>
    · unfold LEFT FILL MAX_FILTER_ENTRIES MAX_FDB_ENTRIES MAX_PORT_ENTRIES at *
      omega

/-- **Alone in the table**, the record that misses its links cannot be moved. -/
theorem not_neverShort (h : Drained FILL s L) {e : MacEntry}
    (hkey : e.macParams.key = (fillEntry LEFT).macParams.key)
    (hport : e.macParams.logPort ≠ (fillEntry LEFT).macParams.logPort)
    (hv : e.macParams.vid.toNat < MAX_VLAN_ENTRIES) :
    (insert e.macParams.logPort (s.slots.image s.portOf)).card ≤ MAX_PORT_ENTRIES ∧ ¬ NeverShort s e := by
  have halone : ∀ {j}, j ∈ s.slots → j = LEFT := by
    intro j hj
    by_contra hne
    obtain ⟨-, hlt, hleft⟩ := h.others (Fdb.mem_slots.mp hj) hne
    unfold LEFT at hleft
    omega
  have hsub : s.slots.image s.portOf ⊆ {s.portOf LEFT} := by
    intro p hp
    obtain ⟨j, hj, rfl⟩ := Finset.mem_image.mp hp
    rw [halone hj, Finset.mem_singleton]
  have hle := (Finset.card_insert_le e.macParams.logPort (s.slots.image s.portOf)).trans
    (Nat.add_le_add_right (Finset.card_le_card hsub) 1)
  rw [Finset.card_singleton] at hle
  have hports : (insert e.macParams.logPort (s.slots.image s.portOf)).card ≤ MAX_PORT_ENTRIES := by
    unfold MAX_PORT_ENTRIES
    omega
  refine ⟨hports, fun hshort => ?_⟩
  have hmoves := (neverShort_iff_movesLinked h.inv hv hports).mp hshort
  have hstored := h.stored
  rw [← hkey] at hstored
  rcases hmoves LEFT hstored with hsame | ⟨hlp, hlv⟩
  · rw [h.record] at hsame
    exact hport hsame.symm
  · exact h.pinned ⟨(isLinked_iff h.inv.index).mp hlp, (isLinked_iff h.inv.index).mp hlv⟩

end Drained

/-- Adds have a vid below 4096 and a 32-bit port. -/
def FdbOp.InRange : FdbOp → Prop
  | .add (some e) => e.macParams.vid.toNat < MAX_VLAN_ENTRIES ∧ e.macParams.logPort.toNat < 2 ^ 32
  | _ => True

theorem run_append (s : Fdb) (ops ops' : List FdbOp) : run s (ops ++ ops') = run (run s ops) ops' :=
  List.foldl_append

theorem run_cons (s : Fdb) (op : FdbOp) (ops : List FdbOp) : run s (op :: ops) = run (op.step s) ops := rfl

theorem step_add (s : Fdb) (e : Option MacEntry) : (FdbOp.add e).step s = (fdbUcDbAddRecord s e).2 := rfl

/-- The run: `FILL` records, the one that finds no head, and the deletes of the first. -/
def pinOps : List FdbOp := fillOps FILL ++ .add (some (fillEntry LEFT)) :: drainOps FILL

theorem pinOps_drained : ∃ L, Drained FILL (run Fdb.init pinOps) L := by
  obtain ⟨L, hfill⟩ := Filled.fill FILL le_rfl
  obtain ⟨L₁, hstart⟩ := Drained.start hfill
  rw [pinOps, run_append, run_cons, step_add]
  exact hstart.drain FILL le_rfl

theorem fillEntry_inRange {i : Nat} (hi : i < MAX_FDB_ENTRIES) : (FdbOp.add (some (fillEntry i))).InRange := by
  refine ⟨fillEntry_vid i, ?_⟩
  rw [fillEntry_port hi]
  unfold MAX_FDB_ENTRIES at hi
  omega

theorem fillOps_inRange (n : Nat) : ∀ op ∈ fillOps n, op.InRange := by
  intro op hop
  obtain ⟨j, -, rfl⟩ := List.mem_map.mp hop
  exact fillEntry_inRange (by unfold MAX_FDB_ENTRIES; omega)

theorem drainOps_inRange (n : Nat) : ∀ op ∈ drainOps n, op.InRange := by
  intro op hop
  obtain ⟨j, -, rfl⟩ := List.mem_map.mp hop
  trivial

theorem pinOps_inRange : ∀ op ∈ pinOps, op.InRange := by
  intro op hop
  rw [pinOps] at hop
  rcases List.mem_append.mp hop with hop | hop
  · exact fillOps_inRange FILL op hop
  · rcases List.mem_cons.mp hop with rfl | hop
    · exact fillEntry_inRange (by decide)
    · exact drainOps_inRange FILL op hop

theorem zero_ne_left_port : (0 : UInt64) ≠ (fillEntry LEFT).macParams.logPort := by
  intro he
  have hnum := fillEntry_port (i := LEFT) (by decide)
  rw [← he] at hnum
  revert hnum
  decide

/-- **A record that missed its links cannot be moved**: 24676 records use up the heads, the next one is
stored without links, the others are deleted, and its move to port 0 fails. -/
theorem halfLinked_move_fails :
    ¬ ∀ (ops : List FdbOp), (∀ op ∈ ops, op.InRange) → ∀ (e : MacEntry),
      e.macParams.vid.toNat < MAX_VLAN_ENTRIES → e.macParams.logPort.toNat < 2 ^ 32 →
      (insert e.macParams.logPort ((run Fdb.init ops).slots.image (run Fdb.init ops).portOf)).card ≤
        MAX_PORT_ENTRIES →
      NeverShort (run Fdb.init ops) e := by
  intro hall
  obtain ⟨L, h⟩ := pinOps_drained
  have hvid : (onPort (fillEntry LEFT) 0).macParams.vid.toNat < MAX_VLAN_ENTRIES := by
    rw [onPort_vid]
    exact fillEntry_vid LEFT
  have hbelow : (onPort (fillEntry LEFT) 0).macParams.logPort.toNat < 2 ^ 32 := by
    rw [onPort_port]
    decide
  have hport : (onPort (fillEntry LEFT) 0).macParams.logPort ≠ (fillEntry LEFT).macParams.logPort := by
    rw [onPort_port]
    exact zero_ne_left_port
  obtain ⟨hports, hshort⟩ := h.not_neverShort (onPort_key (fillEntry LEFT) 0) hport hvid
  exact hshort (hall pinOps pinOps_inRange _ hvid hbelow hports)

end MlnxLib.CtrlLearn
