import MlnxLib.CtrlLearn.Index

/-!
# The invariant of the FDB

`FdbInv s L` holds in every state any run of `fdb_uc_db_add_record` and `fdb_uc_db_delete_record`
can reach, whatever the arguments and whichever calls fail half-way: the map and the index are
kept in the pools, a record is stored under its own key, only stored records are linked, and a
linked item is where a later de-link will look for it.  A record that a failed call left behind
may miss some of its links; the vid-and-port item of a record without a port link is never
de-linked again, so its place is left open.

Principal results: `add_spec`, `delete_spec` — everything one call can do, the invariant kept in
each case; `filterAddEntry_spec`, `modifiedEntry_spec`, `filterDeleteEntry_spec` — the same for the
filter functions they call.
-/

set_option autoImplicit false

namespace MlnxLib.CtrlLearn

/-! ## The invariant -/

/-- Where the items of record `i`, with parameters `p`, may be linked. -/
structure HomedAt (L : Index) (i : Nat) (p : MacParams) : Prop where
  vid : ∀ {l}, .entry .vid i ∈ L l → l = .vlan p.vid.toNat
  port : ∀ {l}, .entry .port i ∈ L l → l = .key (buildPortKey p.logPort)
  vidPort : ∀ {l l'}, .entry .vidPort i ∈ L l → .entry .port i ∈ L l' →
    l = .key (buildPortVidKey p.logPort p.vid)
  side : ∀ {l}, .entry .vidPort i ∈ L l → ∃ port vid, l = .key (buildPortVidKey port vid)

/-- The invariant of every reachable state. -/
structure FdbInv (s : Fdb) (L : Index) : Prop where
  ready : s.fdbInitiated = true
  index : Represents s L
  pool : Conserves s.mainDbPool s.fdbMap MAX_FDB_ENTRIES
  keyed : ∀ {k i}, s.fdbMap.get k = some i → (s.records i).macParams.key = k
  owned : ∀ {l f i}, .entry f i ∈ L l → i ∈ s.fdbMap.values
  home : ∀ i, HomedAt L i (s.records i).macParams

/-- Two states agree but for the filter lists and the content of record `i`, whose key stays. -/
structure SameBut (i : Nat) (s s' : Fdb) : Prop where
  fdbInitiated : s'.fdbInitiated = s.fdbInitiated
  mainDbPool : s'.mainDbPool = s.mainDbPool
  fdbMap : s'.fdbMap = s.fdbMap
  records : ∀ j, j ≠ i → s'.records j = s.records j
  key : (s'.records i).macParams.key = (s.records i).macParams.key

theorem SameDb.sameBut {s s' : Fdb} (h : SameDb s s') (i : Nat) : SameBut i s s' :=
  ⟨h.fdbInitiated, h.mainDbPool, h.fdbMap, fun j _ => congrFun h.records j, by rw [h.records]⟩

theorem SameBut.trans_sameDb {i : Nat} {s s' s'' : Fdb} (h : SameBut i s s')
    (h' : SameDb s' s'') : SameBut i s s'' :=
  ⟨h'.fdbInitiated.trans h.fdbInitiated, h'.mainDbPool.trans h.mainDbPool,
    h'.fdbMap.trans h.fdbMap, fun j hj => (congrFun h'.records j).trans (h.records j hj),
    by rw [h'.records, h.key]⟩

theorem HomedAt.congr {L L' : Index} {i : Nat} {p : MacParams} (h : HomedAt L i p)
    (hmem : ∀ f l, .entry f i ∈ L' l ↔ .entry f i ∈ L l) : HomedAt L' i p := by
  refine ⟨fun hl => h.vid ((hmem _ _).mp hl), fun hl => h.port ((hmem _ _).mp hl), ?_,
    fun hl => h.side ((hmem _ _).mp hl)⟩
  intro l l' hl hl'
  exact h.vidPort ((hmem _ _).mp hl) ((hmem _ _).mp hl')

/-- A record without a port link is at home wherever its vid-and-port item was left. -/
theorem HomedAt.of_port_unlinked {L : Index} {i : Nat} {p : MacParams}
    (hvid : ∀ {l}, .entry .vid i ∈ L l → l = .vlan p.vid.toNat)
    (hside : ∀ {l}, .entry .vidPort i ∈ L l → ∃ port vid, l = .key (buildPortVidKey port vid))
    (hport : ∀ l, .entry .port i ∉ L l) : HomedAt L i p :=
  ⟨hvid, fun hl => absurd hl (hport _), fun _ hl' => absurd hl' (hport _), hside⟩

/-- An item is linked somewhere. -/
def Index.Linked (L : Index) (f : FltrField) (i : Nat) : Prop := ∃ l, .entry f i ∈ L l

/-- Both port items of a record are linked: what `fdb_uc_db_delete_record` needs to succeed. -/
def Index.Removable (L : Index) (i : Nat) : Prop := L.Linked .port i ∧ L.Linked .vidPort i

/-- The items of every record but `i` are linked where they were. -/
def Index.AgreesBut (i : Nat) (L L' : Index) : Prop :=
  ∀ f j l, j ≠ i → (.entry f j ∈ L' l ↔ .entry f j ∈ L l)

theorem Index.AgreesBut.rfl {i : Nat} {L : Index} : L.AgreesBut i L := fun _ _ _ _ => Iff.rfl

theorem Index.AgreesBut.trans {i : Nat} {L L' L'' : Index} (h : L.AgreesBut i L')
    (h' : L'.AgreesBut i L'') : L.AgreesBut i L'' :=
  fun f j l hj => (h' f j l hj).trans (h f j l hj)

theorem Index.AgreesBut.linked_iff {i : Nat} {L L' : Index} (h : L.AgreesBut i L') {j : Nat}
    (hj : j ≠ i) (f : FltrField) : L'.Linked f j ↔ L.Linked f j := by
  simp only [Index.Linked, h f j _ hj]

theorem Index.AgreesBut.removable_iff {i : Nat} {L L' : Index} (h : L.AgreesBut i L') {j : Nat}
    (hj : j ≠ i) : L'.Removable j ↔ L.Removable j :=
  and_congr (h.linked_iff hj .port) (h.linked_iff hj .vidPort)

/-- `L'` is `L` with some items of record `i` taken out, the rest in its order. -/
def Index.Thinned (i : Nat) (L L' : Index) : Prop :=
  ∀ l, ∃ keep : Node → Bool, (∀ n, keep n = false → ∃ f, n = .entry f i) ∧ L' l = (L l).filter keep

namespace Index.Thinned

variable {i : Nat} {L L' L'' : Index}

theorem rfl : L.Thinned i L := fun l => ⟨fun _ => true, by simp, by simp⟩

theorem trans (h : L.Thinned i L') (h' : L'.Thinned i L'') : L.Thinned i L'' := by
  intro l
  obtain ⟨keep, hkeep, he⟩ := h l
  obtain ⟨keep', hkeep', he'⟩ := h' l
  refine ⟨fun n => keep n && keep' n, fun n hn => ?_, ?_⟩
  · cases hk : keep n with
    | false => exact hkeep n hk
    | true => exact hkeep' n (by simpa [hk] using hn)
  · rw [he', he, List.filter_filter]
    simp only [Bool.and_comm]

theorem mem (h : L.Thinned i L') {l : Loc} {n : Node} (hn : n ∈ L' l) : n ∈ L l := by
  obtain ⟨keep, -, he⟩ := h l
  rw [he] at hn
  exact List.mem_of_mem_filter hn

theorem agreesBut (h : L.Thinned i L') : L.AgreesBut i L' := by
  intro f j l hj
  obtain ⟨keep, hkeep, he⟩ := h l
  rw [he, List.mem_filter]
  refine ⟨And.left, fun hm => ⟨hm, ?_⟩⟩
  cases hk : keep (.entry f j) with
  | true => rfl
  | false =>
    obtain ⟨g, hg⟩ := hkeep _ hk
    cases hg
    exact absurd (Eq.refl _) hj

theorem ne_nil (h : L.Thinned i L') {l : Loc} (hl : L' l ≠ []) : L l ≠ [] := by
  obtain ⟨n, hn⟩ := List.exists_mem_of_ne_nil _ hl
  exact List.ne_nil_of_mem (h.mem hn)

theorem removable (h : L.Thinned i L') {j : Nat} (hr : L'.Removable j) : L.Removable j := by
  obtain ⟨⟨l, hl⟩, l', hl'⟩ := hr
  exact ⟨⟨l, h.mem hl⟩, l', h.mem hl'⟩

end Index.Thinned

theorem HeadsKept.trans {s s' s'' : Fdb} {i : Nat} {L' L'' : Index} (h : HeadsKept s s' L')
    (h' : HeadsKept s' s'' L'') (hthin : L'.Thinned i L'') : HeadsKept s s'' L'' :=
  fun k hk => (h' k hk).trans (h k (hthin.ne_nil hk))

namespace FdbInv

variable {s : Fdb} {L : Index}

/-- **The step rule**: work on the items of one stored record keeps the invariant if the items of
that record end up at home. -/
theorem update (h : FdbInv s L) {s' : Fdb} {L' : Index} {i : Nat} (hi : i ∈ s.fdbMap.values)
    (hr : Represents s' L') (hs : SameBut i s s')
    (hother : L.AgreesBut i L')
    (hhome : HomedAt L' i (s'.records i).macParams) : FdbInv s' L' := by
  refine ⟨hs.fdbInitiated.trans h.ready, hr, ?_, ?_, ?_, ?_⟩
  · rw [hs.mainDbPool, hs.fdbMap]; exact h.pool
  · intro k j hk
    rw [hs.fdbMap] at hk
    by_cases hj : j = i
    · subst hj; rw [hs.key]; exact h.keyed hk
    · rw [hs.records j hj]; exact h.keyed hk
  · intro l f j hl
    rw [hs.fdbMap]
    by_cases hj : j = i
    · subst hj; exact hi
    · exact h.owned ((hother f j l hj).mp hl)
  · intro j
    by_cases hj : j = i
    · subst hj; exact hhome
    · rw [hs.records j hj]
      exact (h.home j).congr (fun f l => hother f j l hj)

theorem get_mem (h : FdbInv s L) {k i : Nat} (hk : s.fdbMap.get k = some i) (p : MacParams)
    (hp : p.key = k) : p.vid = (s.records i).macParams.vid ∧
      p.macAddr = (s.records i).macParams.macAddr := by
  have hkey := h.keyed hk
  rw [← hp] at hkey
  obtain ⟨hm, hv⟩ := macVlanKey_inj hkey
  exact ⟨hv.symm, hm.symm⟩

theorem unlinked_of_not_stored (h : FdbInv s L) {i : Nat} (hi : i ∉ s.fdbMap.values)
    (f : FltrField) (l : Loc) : .entry f i ∉ L l := fun hl => hi (h.owned hl)

end FdbInv

theorem agreesBut_insert {L : Index} {l : Loc} {f : FltrField} {i : Nat} :
    L.AgreesBut i (L.insert l (.entry f i)) := by
  intro g j l' hj
  rw [Index.mem_insert]
  simp [hj]

theorem Represents.thinned_remove {s : Fdb} {L : Index} (hr : Represents s L) (l : Loc)
    (f : FltrField) (i : Nat) : L.Thinned i (L.remove l (.entry f i)) := by
  intro l'
  by_cases hl : l' = l
  · subst hl
    refine ⟨fun n => n != .entry f i, fun n hn => ⟨f, by simpa using hn⟩, ?_⟩
    rw [Index.remove_self, (hr.family.nodup l').erase_eq_filter]
  · refine ⟨fun _ => true, by simp, ?_⟩
    rw [Index.remove_of_ne _ _ hl]
    simp

/-! ## Creating a record -/

/-- The state `fdb_uc_db_add_record` reaches for a new key before it links the record. -/
def created (s : Fdb) (i : Nat) (pool : Pool) (e : MacEntry) : Fdb :=
  { s with
    mainDbPool := pool
    fdbMap := s.fdbMap.insert e.macParams.key i
    records := Function.update s.records i e }

theorem add_full {s : Fdb} {L : Index} (h : FdbInv s L) {e : MacEntry}
    (hk : s.fdbMap.get e.macParams.key = none) (hp : clPoolGet s.mainDbPool = none) :
    fdbUcDbAddRecord s (some e) = (-ENOMEM, s) := by
  have hk' : s.fdbMap.get (fdbUcConvertMacVlanToKey e.macParams.macAddr e.macParams.vid) = none := hk
  unfold fdbUcDbAddRecord
  simp [h.ready, fdbUcDbGetRecordByKey, fdbUcDbCreateRecord, hk', hp]

theorem add_new {s : Fdb} {L : Index} (h : FdbInv s L) {e : MacEntry} {i : Nat} {pool : Pool}
    (hk : s.fdbMap.get e.macParams.key = none) (hp : clPoolGet s.mainDbPool = some (i, pool)) :
    fdbUcDbAddRecord s (some e) = fdbUcDbFilterAddEntry (created s i pool e) (some i) := by
  have hk' : s.fdbMap.get (fdbUcConvertMacVlanToKey e.macParams.macAddr e.macParams.vid) = none := hk
  have hfree := h.unlinked_of_not_stored (h.pool.fresh hp)
  -- the links of a free record are null already
  have hclear : ∀ f, Ring.clear s.links (.entry f i) = s.links :=
    fun f => h.index.family.clear_free trivial (hfree f)
  unfold fdbUcDbAddRecord
  simp only [h.ready, fdbUcDbGetRecordByKey, fdbUcDbCreateRecord, hk', hp, Bool.not_true,
    Bool.false_eq_true, if_false, if_true]
  congr 1
  simp [setRecord, clearRecord, created, hclear, MacParams.key, h.ready]

theorem add_known {s : Fdb} {L : Index} (h : FdbInv s L) {e : MacEntry} {i : Nat}
    (hk : s.fdbMap.get e.macParams.key = some i) :
    fdbUcDbAddRecord s (some e) =
      fdbUcDbFilterModifiedEntry (setRecord s i e) (s.records i).macParams i := by
  have hk' : s.fdbMap.get (fdbUcConvertMacVlanToKey e.macParams.macAddr e.macParams.vid) = some i := hk
  unfold fdbUcDbAddRecord
  simp [h.ready, fdbUcDbGetRecordByKey, hk']

/-- **A created record that is not linked yet keeps the invariant.** -/
theorem FdbInv.created {s : Fdb} {L : Index} (h : FdbInv s L) {e : MacEntry} {i : Nat} {pool : Pool}
    (hk : s.fdbMap.get e.macParams.key = none) (hp : clPoolGet s.mainDbPool = some (i, pool)) :
    FdbInv (created s i pool e) L := by
  have hfresh := h.pool.fresh hp
  have hfree := h.unlinked_of_not_stored hfresh
  have hget := OrdMap.get_insert i hk
  refine ⟨h.ready, h.index.congr rfl rfl rfl rfl rfl, h.pool.get hp hk, ?_, ?_, ?_⟩
  · intro k j hkj
    simp only [CtrlLearn.created, hget] at hkj ⊢
    split at hkj
    · rename_i heq
      cases hkj
      rw [Function.update_self, heq]
    · have hj : j ≠ i := by
        rintro rfl
        exact hfresh (OrdMap.get_mem_values hkj)
      rw [Function.update_of_ne hj]
      exact h.keyed hkj
  · intro l f j hl
    exact (OrdMap.values_insert i hk).mem_iff.mpr (List.mem_cons_of_mem _ (h.owned hl))
  · intro j
    by_cases hj : j = i
    · subst hj
      exact .of_port_unlinked (fun hl => absurd hl (hfree _ _)) (fun hl => absurd hl (hfree _ _))
        (hfree .port)
    · simp only [CtrlLearn.created, Function.update_of_ne hj]
      exact h.home j

/-! ## Linking a new record -/

/-- What a call on record `i` leaves when it fails after it stored the record: the items of the
other records are where they were, and the record misses a port link. -/
def LeftPinned (L : Index) (i : Nat) (s' : Fdb) : Prop :=
  ∃ L', FdbInv s' L' ∧ L.AgreesBut i L' ∧ ¬ L'.Removable i

/-- The index once record `i` is linked in its three lists. -/
def linkAll (L : Index) (i : Nat) (p : MacParams) : Index :=
  ((L.insert (.vlan p.vid.toNat) (.entry .vid i)).insert (.key (buildPortKey p.logPort))
    (.entry .port i)).insert (.key (buildPortVidKey p.logPort p.vid)) (.entry .vidPort i)

/-- The number of heads `linkAll` takes. -/
def linkAllCost (L : Index) (i : Nat) (p : MacParams) : Nat :=
  headCost L (buildPortKey p.logPort) +
    headCost (L.insert (.key (buildPortKey p.logPort)) (.entry .port i))
      (buildPortVidKey p.logPort p.vid)

theorem headCost_insert_vlan (L : Index) (v k : Nat) (x : Node) :
    headCost (L.insert (.vlan v) x) k = headCost L k := by
  unfold headCost
  rw [Index.insert_of_ne _ _ (by simp)]

/-- **`fdb_uc_db_filter_add_entry`** links an unlinked record everywhere when its vid has a list
and the heads it needs are free; otherwise it fails, with the invariant kept. -/
theorem filterAddEntry_spec {s : Fdb} {L : Index} (h : FdbInv s L) {i : Nat}
    (hi : i ∈ s.fdbMap.values) (hfree : ∀ f l, .entry f i ∉ L l) {p : MacParams}
    (hp : (s.records i).macParams = p) :
    SameDb s (fdbUcDbFilterAddEntry s (some i)).2 ∧
    (((fdbUcDbFilterAddEntry s (some i)).1 = 0 ∧
        (p.vid.toNat < MAX_VLAN_ENTRIES ∧ linkAllCost L i p ≤ clPoolCount s.fdbFltrPool) ∧
        FdbInv (fdbUcDbFilterAddEntry s (some i)).2 (linkAll L i p)) ∨
      ((fdbUcDbFilterAddEntry s (some i)).1 ≠ 0 ∧
        ¬ (p.vid.toNat < MAX_VLAN_ENTRIES ∧ linkAllCost L i p ≤ clPoolCount s.fdbFltrPool) ∧
        ((fdbUcDbFilterAddEntry s (some i)).1 = ENOMEM ∨ MAX_VLAN_ENTRIES ≤ p.vid.toNat) ∧
        LeftPinned L i (fdbUcDbFilterAddEntry s (some i)).2)) := by
  unfold fdbUcDbFilterAddEntry linkAll linkAllCost
  rw [if_neg (by simp [h.index.ready])]
  simp only [hp]
  by_cases hv : MAX_VLAN_ENTRIES ≤ p.vid.toNat
  · rw [if_pos hv]
    exact ⟨SameDb.rfl, Or.inr ⟨by simp [EPERM], fun hc => absurd hc.1 (by omega), Or.inr hv, L, h,
      .rfl, fun hrem => hrem.2.elim (hfree .vidPort)⟩⟩
  rw [if_neg hv]
  -- the vid list
  have hr₁ := represents_vlanListInsertTail h.index (v := p.vid.toNat) (by omega) (hfree .vid)
  have hdb₁ : SameDb s (vlanListInsertTail s p.vid.toNat i) := ⟨rfl, rfl, rfl, rfl⟩
  have h₁ : FdbInv _ _ := h.update hi hr₁ (hdb₁.sameBut i) agreesBut_insert (by
    rw [hdb₁.records, hp]
    constructor <;> simp [Index.mem_insert, hfree])
  have hfree₁ : ∀ f, f ≠ .vid → ∀ l,
      .entry f i ∉ L.insert (.vlan p.vid.toNat) (.entry .vid i) l := by
    intro f hf l
    simp [Index.mem_insert, hfree, hf]
  have hcount₁ : clPoolCount (vlanListInsertTail s p.vid.toNat i).fdbFltrPool =
      clPoolCount s.fdbFltrPool := rfl
  have hcost₁ := headCost_insert_vlan L p.vid.toNat (buildPortKey p.logPort) (.entry .vid i)
  generalize vlanListInsertTail s p.vid.toNat i = s₁ at *
  -- the list of the port
  by_cases hc : headCost L (buildPortKey p.logPort) ≤ clPoolCount s.fdbFltrPool
  swap
  · rw [link_full hr₁ .port i (by omega), orBail_err (by simp [ENOMEM])]
    exact ⟨hdb₁, Or.inr ⟨by simp [ENOMEM], by omega, Or.inl rfl, _, h₁, agreesBut_insert,
      fun hrem => hrem.2.elim (hfree₁ .vidPort (by simp))⟩⟩
  obtain ⟨herr₂, hr₂, hdb₂, hcount₂⟩ := link_spec hr₁ (k := buildPortKey p.logPort)
    (hfree₁ .port (by simp)) (by omega)
  rw [orBail_ok herr₂]
  have hdb₂' := hdb₁.trans hdb₂
  have hi₁ : i ∈ s₁.fdbMap.values := by rw [hdb₁.fdbMap]; exact hi
  have h₂ : FdbInv _ _ := h₁.update hi₁ hr₂ (hdb₂.sameBut i) agreesBut_insert (by
    rw [hdb₂'.records, hp]
    constructor <;> simp [Index.mem_insert, hfree])
  have hfree₂ : ∀ l, .entry .vidPort i ∉ (L.insert (.vlan p.vid.toNat) (.entry .vid i)).insert
      (.key (buildPortKey p.logPort)) (.entry .port i) l := by
    intro l
    simp [Index.mem_insert, hfree]
  generalize (linkEntryToFltrList s₁ i (buildPortKey p.logPort) .port).2 = s₂ at *
  -- the list of the port and vid
  have hcost₂ : headCost ((L.insert (.vlan p.vid.toNat) (.entry .vid i)).insert
      (.key (buildPortKey p.logPort)) (.entry .port i)) (buildPortVidKey p.logPort p.vid) =
      headCost (L.insert (.key (buildPortKey p.logPort)) (.entry .port i))
        (buildPortVidKey p.logPort p.vid) := by
    simp [headCost, Index.insert, Function.update]
  by_cases hc₂ : headCost (L.insert (.key (buildPortKey p.logPort)) (.entry .port i))
      (buildPortVidKey p.logPort p.vid) ≤ clPoolCount s₂.fdbFltrPool
  swap
  · rw [link_full hr₂ .vidPort i (by omega)]
    exact ⟨hdb₂', Or.inr ⟨by simp [ENOMEM], by omega, Or.inl rfl, _, h₂,
      agreesBut_insert.trans agreesBut_insert, fun hrem => hrem.2.elim hfree₂⟩⟩
  obtain ⟨herr₃, hr₃, hdb₃, hcount₃⟩ := link_spec hr₂ (f := .vidPort) (i := i)
    (k := buildPortVidKey p.logPort p.vid) hfree₂ (by omega)
  have hi₂ : i ∈ s₂.fdbMap.values := by rw [hdb₂'.fdbMap]; exact hi
  refine ⟨hdb₂'.trans hdb₃, Or.inl ⟨herr₃, ⟨by omega, by omega⟩, ?_⟩⟩
  refine h₂.update hi₂ hr₃ (hdb₃.sameBut i) agreesBut_insert ?_
  rw [(hdb₂'.trans hdb₃).records, hp]
  constructor <;> simp +contextual [Index.mem_insert, hfree]

/-! ## Moving a known record -/

section Move

variable (L : Index) (i : Nat) (p q : MacParams)

/-- The index once the port item of record `i` moved from the port of `p` to the port of `q`. -/
def movePort : Index := L.swap (buildPortKey p.logPort) (buildPortKey q.logPort) (.entry .port i)

/-- The index once both port items of record `i` moved. -/
def moveAll : Index :=
  (movePort L i p q).swap (buildPortVidKey p.logPort q.vid) (buildPortVidKey q.logPort q.vid)
    (.entry .vidPort i)

/-- What `fdb_uc_db_filter_modified_entry` needs to move a record: both items linked, and at each
link a head that is there, free, or given back by a de-link before it. -/
def CanMove (free : Nat) : Prop :=
  CanSwap L (buildPortKey p.logPort) (buildPortKey q.logPort) (.entry .port i) free ∧
  CanSwap (movePort L i p q) (buildPortVidKey p.logPort q.vid) (buildPortVidKey q.logPort q.vid)
    (.entry .vidPort i)
    (free + headFreed L (buildPortKey p.logPort) (.entry .port i) -
      headCost (L.remove (.key (buildPortKey p.logPort)) (.entry .port i)) (buildPortKey q.logPort))

end Move

theorem orBail_assoc {σ : Type} (r : Int × σ) (k k' : σ → Int × σ) :
    orBail (orBail r k) k' = orBail r (fun s => orBail (k s) k') := by
  unfold orBail
  split <;> rfl

theorem modifiedEntry_eq {s : Fdb} (hr : s.filtersInitiated = true) {i : Nat} {p q : MacParams}
    (hq : (s.records i).macParams = q) (hport : p.logPort ≠ q.logPort) :
    fdbUcDbFilterModifiedEntry s p i =
      orBail (swapEntry s i (buildPortKey p.logPort) (buildPortKey q.logPort) .port) (fun s =>
        swapEntry s i (buildPortVidKey p.logPort q.vid) (buildPortVidKey q.logPort q.vid)
          .vidPort) := by
  unfold fdbUcDbFilterModifiedEntry swapEntry
  rw [if_neg (by simp [hr]), orBail_assoc]
  simp only [hq, ne_eq, hport, not_false_eq_true, if_true]

/-- Overwriting a record keeps the representation. -/
theorem Represents.setRecord {s : Fdb} {L : Index} (hr : Represents s L) (i : Nat) (e : MacEntry) :
    Represents (setRecord s i e) L := hr.congr rfl rfl rfl rfl rfl

theorem sameBut_setRecord {s : Fdb} {i : Nat} {e : MacEntry}
    (hkey : e.macParams.key = (s.records i).macParams.key) : SameBut i s (setRecord s i e) :=
  ⟨rfl, rfl, rfl, fun j hj => by simp [CtrlLearn.setRecord, hj],
    by simp [CtrlLearn.setRecord, hkey]⟩

/-- **A refresh on the same port keeps the invariant.** -/
theorem FdbInv.refresh {s : Fdb} {L : Index} (h : FdbInv s L) {i : Nat} {e : MacEntry}
    (hk : s.fdbMap.get e.macParams.key = some i)
    (hport : (s.records i).macParams.logPort = e.macParams.logPort) :
    FdbInv (setRecord s i e) L := by
  have hvid := (h.get_mem hk e.macParams rfl).1
  refine h.update (OrdMap.get_mem_values hk) (h.index.setRecord i e)
    (sameBut_setRecord (h.keyed hk).symm) .rfl ?_
  have hrec : (setRecord s i e).records i = e := by simp [CtrlLearn.setRecord]
  have hhome := h.home i
  rw [hrec]
  refine ⟨?_, ?_, ?_, hhome.side⟩
  · rw [hvid]; exact hhome.vid
  · rw [← hport]; exact hhome.port
  · rw [hvid, ← hport]; exact hhome.vidPort

theorem modifiedEntry_same {s : Fdb} {L : Index} (h : FdbInv s L) {i : Nat} {e : MacEntry}
    (hport : (s.records i).macParams.logPort = e.macParams.logPort) :
    fdbUcDbFilterModifiedEntry (setRecord s i e) (s.records i).macParams i =
      (0, setRecord s i e) := by
  unfold fdbUcDbFilterModifiedEntry
  simp [h.index.ready, hport, CtrlLearn.setRecord]

/-- **The port item of a moved record**: out of the list of the old port, into that of the new. -/
theorem movePort_spec {s : Fdb} {L : Index} (hr : Represents s L) {i : Nat} {p q : MacParams}
    (hhome : HomedAt L i p) (hvid : p.vid = q.vid)
    (hcan : CanSwap L (buildPortKey p.logPort) (buildPortKey q.logPort) (.entry .port i)
      (clPoolCount s.fdbFltrPool)) :
    L.AgreesBut i (movePort L i p q) ∧
    (∀ f l, .entry f i ∈ movePort L i p q l ↔ (.entry f i ∈ L l ∧ f ≠ .port) ∨
      (l = .key (buildPortKey q.logPort) ∧ f = .port)) ∧
    ∀ {l}, .entry .vid i ∈ movePort L i p q l → l = .vlan q.vid.toNat := by
  have hmem : ∀ f l, .entry f i ∈ movePort L i p q l ↔ (.entry f i ∈ L l ∧ f ≠ .port) ∨
      (l = .key (buildPortKey q.logPort) ∧ f = .port) := by
    intro f l
    rw [movePort, hr.mem_swap hcan.1]
    simp
  refine ⟨?_, hmem, fun {l} hl => ?_⟩
  · intro f j l hj
    rw [movePort, hr.mem_swap hcan.1]
    simp [hj]
  · rw [← hvid]
    exact hhome.vid (by simpa [hmem] using hl)

/-- **The port-and-vid item of a moved record**, once its port item moved. -/
theorem moveVidPort_spec {s s₁ : Fdb} {L : Index} (h : FdbInv s L) {i : Nat} {p q : MacParams}
    (hi : i ∈ s.fdbMap.values) (hhome : HomedAt L i p) (hvid : p.vid = q.vid)
    (hlp : .entry .port i ∈ L (.key (buildPortKey p.logPort)))
    (hother₁ : L.AgreesBut i (movePort L i p q))
    (hmem₁ : ∀ f l, .entry f i ∈ movePort L i p q l ↔ (.entry f i ∈ L l ∧ f ≠ .port) ∨
      (l = .key (buildPortKey q.logPort) ∧ f = .port))
    (hvid₁ : ∀ {l}, .entry .vid i ∈ movePort L i p q l → l = .vlan q.vid.toNat)
    (hr₁ : Represents s₁ (movePort L i p q)) (hb₁ : SameBut i s s₁)
    (hrec₁ : (s₁.records i).macParams = q) {r : Int × Fdb}
    (hr : swapEntry s₁ i (buildPortVidKey p.logPort q.vid) (buildPortVidKey q.logPort q.vid) .vidPort = r) :
    SameDb s₁ r.2 ∧
    ((r.1 = 0 ∧ CanSwap (movePort L i p q) (buildPortVidKey p.logPort q.vid)
        (buildPortVidKey q.logPort q.vid) (.entry .vidPort i) (clPoolCount s₁.fdbFltrPool) ∧
        FdbInv r.2 (moveAll L i p q)) ∨
      (r.1 ≠ 0 ∧ ¬ CanSwap (movePort L i p q) (buildPortVidKey p.logPort q.vid)
        (buildPortVidKey q.logPort q.vid) (.entry .vidPort i) (clPoolCount s₁.fdbFltrPool) ∧
        (r.1 = ENOMEM ∨ ¬ L.Removable i) ∧ LeftPinned L i r.2)) := by
  have hside₁ : ∀ {l}, .entry .vidPort i ∈ movePort L i p q l →
      ∃ port vid, l = .key (buildPortVidKey port vid) :=
    fun hl => hhome.side (by simpa [hmem₁] using hl)
  by_cases hlv : .entry .vidPort i ∈ movePort L i p q (.key (buildPortVidKey p.logPort q.vid))
  swap
  · have hnone₀ : ∀ l, .entry .vidPort i ∉ L l := by
      intro l hl
      have hkey := hhome.vidPort hl hlp
      rw [hkey, hvid] at hl
      exact hlv ((hmem₁ _ _).mpr (Or.inl ⟨hl, by simp⟩))
    have hnone : ∀ l, .entry .vidPort i ∉ movePort L i p q l :=
      fun l hl => hnone₀ l (by simpa [hmem₁] using hl)
    rw [swap_unlinked hr₁ _ _ hnone] at hr
    subst hr
    refine ⟨SameDb.rfl, Or.inr ⟨by simp [EPERM], fun hcan => hlv hcan.1,
      Or.inr (fun hrem => hrem.2.elim hnone₀), movePort L i p q, ?_, hother₁,
      fun hrem => hrem.2.elim hnone⟩⟩
    refine h.update hi hr₁ hb₁ hother₁ ?_
    rw [hrec₁]
    exact ⟨hvid₁, fun hl => by simpa [hmem₁] using hl, fun hl _ => absurd hl (hnone _), hside₁⟩
  by_cases hc : CanSwap (movePort L i p q) (buildPortVidKey p.logPort q.vid)
      (buildPortVidKey q.logPort q.vid) (.entry .vidPort i) (clPoolCount s₁.fdbFltrPool)
  swap
  · obtain ⟨herr, hr₂, hdb₂⟩ := swap_full hr₁ hlv hc
    rw [hr] at herr hr₂ hdb₂
    have hthin := hr₁.thinned_remove (.key (buildPortVidKey p.logPort q.vid)) .vidPort i
    have hother₂ := hother₁.trans hthin.agreesBut
    have hnone : ∀ l, .entry .vidPort i ∉ (movePort L i p q).remove
        (.key (buildPortVidKey p.logPort q.vid)) (.entry .vidPort i) l :=
      fun l hl => ((hr₁.mem_remove hlv).mp hl).2 rfl
    refine ⟨hdb₂, Or.inr ⟨by rw [herr]; simp [ENOMEM], hc, Or.inl herr, _,
      h.update hi hr₂ (hb₁.trans_sameDb hdb₂) hother₂ ?_, hother₂, fun hrem => hrem.2.elim hnone⟩⟩
    rw [hdb₂.records, hrec₁]
    refine ⟨fun hl => hvid₁ (hthin.mem hl), fun hl => ?_, fun hl _ => absurd hl (hnone _),
      fun hl => hside₁ (hthin.mem hl)⟩
    simpa [hmem₁] using hthin.mem hl
  obtain ⟨herr₂, hr₂, hdb₂, -⟩ := swap_spec hr₁ hc
  rw [hr] at herr₂ hr₂ hdb₂
  have hr₂' : Represents _ (moveAll L i p q) := hr₂
  have hmem₂ : ∀ f j l, .entry f j ∈ moveAll L i p q l ↔
      (.entry f j ∈ movePort L i p q l ∧ ¬ (f = .vidPort ∧ j = i)) ∨
        (l = .key (buildPortVidKey q.logPort q.vid) ∧ f = .vidPort ∧ j = i) := by
    intro f j l
    rw [moveAll, hr₁.mem_swap hlv]
    simp
  refine ⟨hdb₂, Or.inl ⟨herr₂, hc, h.update hi hr₂' (hb₁.trans_sameDb hdb₂) (fun f j l hj => ?_) ?_⟩⟩
  · rw [hmem₂, ← hother₁ f j l hj]
    simp [hj]
  · rw [hdb₂.records, hrec₁]
    refine ⟨fun hl => hvid₁ (by simpa [hmem₂] using hl), fun hl => ?_, fun hl _ => ?_, fun hl => ?_⟩
    · simpa [hmem₂, hmem₁] using hl
    · simpa [hmem₂] using hl
    · exact ⟨_, _, by simpa [hmem₂] using hl⟩

/-- **`fdb_uc_db_filter_modified_entry`** after the record was overwritten with another port. -/
theorem modifiedEntry_spec {s : Fdb} {L : Index} (h : FdbInv s L) {i : Nat} {e : MacEntry}
    (hk : s.fdbMap.get e.macParams.key = some i) {p q : MacParams}
    (hp : (s.records i).macParams = p) (hq : e.macParams = q) (hport : p.logPort ≠ q.logPort) :
    SameDb (setRecord s i e) (fdbUcDbFilterModifiedEntry (setRecord s i e) p i).2 ∧
    (((fdbUcDbFilterModifiedEntry (setRecord s i e) p i).1 = 0 ∧
        CanMove L i p q (clPoolCount s.fdbFltrPool) ∧
        FdbInv (fdbUcDbFilterModifiedEntry (setRecord s i e) p i).2 (moveAll L i p q)) ∨
      ((fdbUcDbFilterModifiedEntry (setRecord s i e) p i).1 ≠ 0 ∧
        ¬ CanMove L i p q (clPoolCount s.fdbFltrPool) ∧
        ((fdbUcDbFilterModifiedEntry (setRecord s i e) p i).1 = ENOMEM ∨ ¬ L.Removable i) ∧
        LeftPinned L i (fdbUcDbFilterModifiedEntry (setRecord s i e) p i).2)) := by
  have hi := OrdMap.get_mem_values hk
  have hvid : p.vid = q.vid := by
    have := (h.get_mem hk e.macParams rfl).1
    rw [hp, hq] at this
    exact this.symm
  have hhome := h.home i
  rw [hp] at hhome
  have hr₀ := h.index.setRecord i e
  have hb₀ : SameBut i s (setRecord s i e) := sameBut_setRecord (h.keyed hk).symm
  have hrec₀ : ((setRecord s i e).records i).macParams = q := by simp [CtrlLearn.setRecord, hq]
  have hpool₀ : (setRecord s i e).fdbFltrPool = s.fdbFltrPool := rfl
  rw [modifiedEntry_eq hr₀.ready hrec₀ hport, ← hpool₀]
  generalize setRecord s i e = s₀ at *
  unfold CanMove
  -- the port item
  by_cases hlp : .entry .port i ∈ L (.key (buildPortKey p.logPort))
  swap
  · have hnone : ∀ l, .entry .port i ∉ L l := fun l hl => hlp (hhome.port hl ▸ hl)
    have hbroken : ¬ L.Removable i := fun hrem => hrem.1.elim hnone
    rw [swap_unlinked hr₀ _ _ hnone, orBail_err (by simp [EPERM])]
    refine ⟨SameDb.rfl, Or.inr ⟨by simp [EPERM], fun hc => hlp hc.1.1, Or.inr hbroken, L, ?_, .rfl,
      hbroken⟩⟩
    refine h.update hi hr₀ hb₀ .rfl ?_
    rw [hrec₀]
    exact .of_port_unlinked (fun hl => hvid ▸ hhome.vid hl) hhome.side hnone
  by_cases hc : CanSwap L (buildPortKey p.logPort) (buildPortKey q.logPort) (.entry .port i)
      (clPoolCount s₀.fdbFltrPool)
  swap
  · obtain ⟨herr, hr₁, hdb₁⟩ := swap_full hr₀ hlp hc
    have hthin := hr₀.thinned_remove (.key (buildPortKey p.logPort)) .port i
    rw [orBail_err (by rw [herr]; simp [ENOMEM])]
    have hnone : ∀ l, .entry .port i ∉ L.remove (.key (buildPortKey p.logPort)) (.entry .port i) l :=
      fun l hl => ((hr₀.mem_remove hlp).mp hl).2 rfl
    refine ⟨hdb₁, Or.inr ⟨by rw [herr]; simp [ENOMEM], fun hcan => hc hcan.1, Or.inl herr, _,
      h.update hi hr₁ (hb₀.trans_sameDb hdb₁) hthin.agreesBut ?_, hthin.agreesBut,
      fun hrem => hrem.1.elim hnone⟩⟩
    rw [hdb₁.records, hrec₀]
    exact .of_port_unlinked (fun hl => hvid ▸ hhome.vid (hthin.mem hl))
      (fun hl => hhome.side (hthin.mem hl)) hnone
  obtain ⟨herr₁, hr₁, hdb₁, hcount₁⟩ := swap_spec hr₀ hc
  obtain ⟨hother₁, hmem₁, hvid₁⟩ := movePort_spec hr₀ hhome hvid hc
  rw [orBail_ok herr₁]
  have hfree₁ : clPoolCount s₀.fdbFltrPool + headFreed L (buildPortKey p.logPort) (.entry .port i) -
      headCost (L.remove (.key (buildPortKey p.logPort)) (.entry .port i)) (buildPortKey q.logPort) =
      clPoolCount (swapEntry s₀ i (buildPortKey p.logPort) (buildPortKey q.logPort)
        .port).2.fdbFltrPool := by omega
  rw [hfree₁]
  obtain ⟨hdb₂, hres⟩ := moveVidPort_spec h hi hhome hvid hlp hother₁ hmem₁ hvid₁ hr₁
    (hb₀.trans_sameDb hdb₁) (by rw [hdb₁.records, hrec₀]) rfl
  refine ⟨hdb₁.trans hdb₂, ?_⟩
  rcases hres with ⟨herr, hc₂, hinv⟩ | ⟨herr, hc₂, hwhy, hleft⟩
  · exact Or.inl ⟨herr, ⟨hc, hc₂⟩, hinv⟩
  · exact Or.inr ⟨herr, fun hcan => hc₂ hcan.2, hwhy, hleft⟩

/-! ## De-linking a record -/

theorem delinkVidEntry_spec {s : Fdb} {L : Index} (h : FdbInv s L) (i : Nat) :
    SameDb s (delinkVidEntry s i) ∧ (delinkVidEntry s i).fbdFilterMap = s.fbdFilterMap ∧
    ∃ L', FdbInv (delinkVidEntry s i) L' ∧ L.Thinned i L' ∧
      ∀ f j l, .entry f j ∈ L' l ↔ .entry f j ∈ L l ∧ ¬ (f = .vid ∧ j = i) := by
  by_cases hl : L.Linked .vid i
  · obtain ⟨l, hl⟩ := hl
    have hhome := h.home i
    have hmem := hl
    rw [hhome.vid hl] at hmem
    have hr := represents_vlanListRemoveItem h.index hmem
    have hthin := h.index.thinned_remove (.vlan (s.records i).macParams.vid.toNat) .vid i
    have hdb : SameDb s (vlanListRemoveItem s (s.records i).macParams.vid.toNat i) :=
      ⟨rfl, rfl, rfl, rfl⟩
    rw [delinkVidEntry_linked h.index hl]
    refine ⟨hdb, rfl, _, h.update (h.owned hl) hr (hdb.sameBut i) hthin.agreesBut ?_, hthin, ?_⟩
    · refine ⟨fun hl => ?_, fun hl => hhome.port (hthin.mem hl),
        fun hl hl' => hhome.vidPort (hthin.mem hl) (hthin.mem hl'), fun hl => hhome.side (hthin.mem hl)⟩
      exact absurd rfl ((h.index.mem_remove hmem).mp hl).2
    · intro f j l
      rw [h.index.mem_remove hmem]
      simp
  · have hnone : ∀ l, .entry .vid i ∉ L l := fun l hm => hl ⟨l, hm⟩
    rw [delinkVidEntry_unlinked h.index hnone]
    refine ⟨SameDb.rfl, rfl, L, h, .rfl, fun f j l => ⟨fun hm => ⟨hm, ?_⟩, And.left⟩⟩
    rintro ⟨rfl, rfl⟩
    exact hnone l hm

/-- **`fdb_uc_db_filter_delete_entry`** de-links a record everywhere when its two port items are
linked; otherwise it fails, with the invariant kept.  It only ever takes items of that record. -/
theorem filterDeleteEntry_spec {s : Fdb} {L : Index} (h : FdbInv s L) (i : Nat) :
    SameDb s (fdbUcDbFilterDeleteEntry s i).2 ∧
    ∃ L', FdbInv (fdbUcDbFilterDeleteEntry s i).2 L' ∧ L.Thinned i L' ∧
    HeadsKept s (fdbUcDbFilterDeleteEntry s i).2 L' ∧
    (((fdbUcDbFilterDeleteEntry s i).1 = 0 ∧ L.Removable i ∧ ∀ f l, .entry f i ∉ L' l) ∨
      ((fdbUcDbFilterDeleteEntry s i).1 ≠ 0 ∧ ¬ L.Removable i)) := by
  obtain ⟨hdb₁, hmap₁, L₁, h₁, hthin₁, hmem₁⟩ := delinkVidEntry_spec h i
  have hrem₁ : L₁.Removable i ↔ L.Removable i := by
    simp [Index.Removable, Index.Linked, hmem₁]
  unfold fdbUcDbFilterDeleteEntry
  rw [if_neg (by simp [h.index.ready])]
  dsimp only
  rw [← hrem₁]
  generalize delinkVidEntry s i = s₁ at *
  have hheads₁ : HeadsKept s s₁ L₁ := fun k _ => by rw [hmap₁]
  have hhome := h₁.home i
  generalize hp : (s₁.records i).macParams = p at *
  by_cases hlp : L₁.Linked .port i
  swap
  · rw [delink_unlinked h₁.index _ (fun l hl => hlp ⟨l, hl⟩), orBail_err (by simp [EPERM])]
    exact ⟨hdb₁, L₁, h₁, hthin₁, hheads₁, Or.inr ⟨by simp [EPERM], fun hc => hlp hc.1⟩⟩
  obtain ⟨lp, hlp⟩ := hlp
  have hmp := hlp
  rw [hhome.port hlp] at hmp
  obtain ⟨herr₂, hr₂, hdb₂, -, hheads₂⟩ := delink_spec h₁.index hmp
  rw [orBail_ok herr₂]
  have hi := h₁.owned hlp
  have hthin₂ := h₁.index.thinned_remove (.key (buildPortKey p.logPort)) .port i
  have hnoport : ∀ l, .entry .port i ∉ L₁.remove (.key (buildPortKey p.logPort)) (.entry .port i) l :=
    fun l hl => ((h₁.index.mem_remove hmp).mp hl).2 rfl
  have hhome₂ : HomedAt (L₁.remove (.key (buildPortKey p.logPort)) (.entry .port i)) i p :=
    .of_port_unlinked (fun hl => hhome.vid (hthin₂.mem hl)) (fun hl => hhome.side (hthin₂.mem hl))
      hnoport
  have h₂ : FdbInv _ _ := h₁.update hi hr₂ (hdb₂.sameBut i) hthin₂.agreesBut
    (by rw [hdb₂.records, hp]; exact hhome₂)
  generalize (delinkEntryFromFltrList s₁ i (buildPortKey p.logPort) .port).2 = s₂ at *
  have hthin := hthin₁.trans hthin₂
  have hheads := hheads₁.trans hheads₂ hthin₂
  by_cases hlv : L₁.Linked .vidPort i
  swap
  · rw [delink_unlinked hr₂ _ (fun l hl => hlv ⟨l, hthin₂.mem hl⟩)]
    exact ⟨hdb₁.trans hdb₂, _, h₂, hthin, hheads, Or.inr ⟨by simp [EPERM], fun hc => hlv hc.2⟩⟩
  obtain ⟨lv, hlv⟩ := hlv
  have hmv : .entry .vidPort i ∈ L₁.remove (.key (buildPortKey p.logPort)) (.entry .port i)
      (.key (buildPortVidKey p.logPort p.vid)) := by
    have := hlv
    rw [hhome.vidPort hlv hlp] at this
    exact (h₁.index.mem_remove hmp).mpr ⟨this, by simp⟩
  obtain ⟨herr₃, hr₃, hdb₃, -, hheads₃⟩ := delink_spec hr₂ hmv
  have hi₂ : i ∈ s₂.fdbMap.values := by rw [hdb₂.fdbMap]; exact hi
  have hthin₃ := hr₂.thinned_remove (.key (buildPortVidKey p.logPort p.vid)) .vidPort i
  have hgone : ∀ f l, .entry f i ∉ (L₁.remove (.key (buildPortKey p.logPort))
      (.entry .port i)).remove (.key (buildPortVidKey p.logPort p.vid)) (.entry .vidPort i) l := by
    intro f l hl
    cases f with
    | vid => exact ((hmem₁ _ _ _).mp (hthin₂.mem (hthin₃.mem hl))).2 ⟨rfl, rfl⟩
    | port => exact hnoport l (hthin₃.mem hl)
    | vidPort => exact ((hr₂.mem_remove hmv).mp hl).2 rfl
  refine ⟨(hdb₁.trans hdb₂).trans hdb₃, _, h₂.update hi₂ hr₃ (hdb₃.sameBut i) hthin₃.agreesBut ?_,
    hthin.trans hthin₃, hheads.trans hheads₃ hthin₃, Or.inl ⟨herr₃, ⟨⟨lp, hlp⟩, ⟨lv, hlv⟩⟩, hgone⟩⟩
  exact .of_port_unlinked (fun hl => absurd hl (hgone _ _)) (fun hl => absurd hl (hgone _ _))
    (hgone .port)

/-! ## One call -/

/-- **One `fdb_uc_db_delete_record` call**, on any pointer into the pool. -/
theorem delete_spec {s : Fdb} {L : Index} (h : FdbInv s L) (i : Nat) :
    ∃ L', FdbInv (fdbUcDbDeleteRecord s (some i)).2 L' ∧ L.Thinned i L' ∧
    HeadsKept s (fdbUcDbDeleteRecord s (some i)).2 L' ∧ ¬ L'.Removable i ∧
    (fdbUcDbDeleteRecord s (some i)).2.records = s.records ∧
    (((fdbUcDbDeleteRecord s (some i)).1 = 0 ∧ L.Removable i ∧
        (fdbUcDbDeleteRecord s (some i)).2.fdbMap = s.fdbMap.removeItem i) ∨
      ((fdbUcDbDeleteRecord s (some i)).1 ≠ 0 ∧ ¬ L.Removable i ∧
        SameDb s (fdbUcDbDeleteRecord s (some i)).2)) := by
  unfold fdbUcDbDeleteRecord
  rw [if_neg (by simp [h.ready])]
  dsimp only
  obtain ⟨hdb, L', h', hthin, hheads, ⟨herr, hrem, hgone⟩ | ⟨herr, hrem⟩⟩ := filterDeleteEntry_spec h i
  swap
  · rw [orBail_err herr]
    exact ⟨L', h', hthin, hheads, fun hrem' => hrem (hthin.removable hrem'), hdb.records, Or.inr ⟨herr, hrem, hdb⟩⟩
  rw [orBail_ok herr]
  obtain ⟨l, hl⟩ := hrem.1
  have hi := h.owned hl
  generalize (fdbUcDbFilterDeleteEntry s i).2 = s' at *
  have hi' : i ∈ s'.fdbMap.values := by rw [hdb.fdbMap]; exact hi
  refine ⟨L', ?_, hthin, hheads, fun hrem' => hrem'.1.elim (hgone .port), hdb.records,
    Or.inl ⟨rfl, hrem, by rw [hdb.fdbMap]⟩⟩
  refine ⟨h'.ready, h'.index.congr rfl rfl rfl rfl rfl, h'.pool.put hi', ?_, ?_, h'.home⟩
  · intro k j hk
    simp only [OrdMap.get_removeItem] at hk
    split at hk
    · cases hk
    · exact h'.keyed hk
  · intro l f j hj
    simp only [OrdMap.values_removeItem, List.mem_filter, decide_eq_true_eq]
    refine ⟨h'.owned hj, ?_⟩
    rintro rfl
    exact hgone f l hj

/-- Everything one `fdb_uc_db_add_record` call can do. -/
inductive AddOutcome (s : Fdb) (L : Index) (e : MacEntry) (r : Int × Fdb) : Prop where
  | full (hk : s.fdbMap.get e.macParams.key = none) (hp : clPoolGet s.mainDbPool = none)
      (hr : r = (-ENOMEM, s))
  | newOk (i : Nat) (pool : Pool) (hk : s.fdbMap.get e.macParams.key = none)
      (hp : clPoolGet s.mainDbPool = some (i, pool)) (herr : r.1 = 0)
      (hdb : SameDb (created s i pool e) r.2)
      (hcan : e.macParams.vid.toNat < MAX_VLAN_ENTRIES ∧
        linkAllCost L i e.macParams ≤ clPoolCount s.fdbFltrPool)
      (hinv : FdbInv r.2 (linkAll L i e.macParams))
  | newErr (i : Nat) (pool : Pool) (hk : s.fdbMap.get e.macParams.key = none)
      (hp : clPoolGet s.mainDbPool = some (i, pool)) (herr : r.1 ≠ 0)
      (hdb : SameDb (created s i pool e) r.2)
      (hcan : ¬ (e.macParams.vid.toNat < MAX_VLAN_ENTRIES ∧
        linkAllCost L i e.macParams ≤ clPoolCount s.fdbFltrPool))
      (hcode : r.1 = ENOMEM ∨ MAX_VLAN_ENTRIES ≤ e.macParams.vid.toNat)
      (hleft : LeftPinned L i r.2)
  | refresh (i : Nat) (hk : s.fdbMap.get e.macParams.key = some i)
      (hport : (s.records i).macParams.logPort = e.macParams.logPort)
      (hr : r = (0, setRecord s i e)) (hinv : FdbInv r.2 L)
  | moveOk (i : Nat) (hk : s.fdbMap.get e.macParams.key = some i)
      (hport : (s.records i).macParams.logPort ≠ e.macParams.logPort) (herr : r.1 = 0)
      (hdb : SameDb (setRecord s i e) r.2)
      (hcan : CanMove L i (s.records i).macParams e.macParams (clPoolCount s.fdbFltrPool))
      (hinv : FdbInv r.2 (moveAll L i (s.records i).macParams e.macParams))
  | moveErr (i : Nat) (hk : s.fdbMap.get e.macParams.key = some i)
      (hport : (s.records i).macParams.logPort ≠ e.macParams.logPort) (herr : r.1 ≠ 0)
      (hdb : SameDb (setRecord s i e) r.2)
      (hcan : ¬ CanMove L i (s.records i).macParams e.macParams (clPoolCount s.fdbFltrPool))
      (hcode : r.1 = ENOMEM ∨ ¬ L.Removable i)
      (hleft : LeftPinned L i r.2)

/-- **One `fdb_uc_db_add_record` call.** -/
theorem add_spec {s : Fdb} {L : Index} (h : FdbInv s L) (e : MacEntry) :
    AddOutcome s L e (fdbUcDbAddRecord s (some e)) := by
  cases hk : s.fdbMap.get e.macParams.key with
  | none =>
    cases hp : clPoolGet s.mainDbPool with
    | none => exact .full hk hp (add_full h hk hp)
    | some r =>
      obtain ⟨i, pool⟩ := r
      rw [add_new h hk hp]
      have hi : i ∈ (created s i pool e).fdbMap.values :=
        (OrdMap.values_insert i hk).mem_iff.mpr (List.mem_cons_self ..)
      have hrec : ((created s i pool e).records i).macParams = e.macParams := by
        simp [CtrlLearn.created]
      obtain ⟨hdb, ⟨herr, hcan, hinv⟩ | ⟨herr, hcan, hcode, hleft⟩⟩ := filterAddEntry_spec
        (h.created hk hp) hi (h.unlinked_of_not_stored (h.pool.fresh hp)) hrec
      · exact .newOk i pool hk hp herr hdb hcan hinv
      · exact .newErr i pool hk hp herr hdb hcan hcode hleft
  | some i =>
    rw [add_known h hk]
    by_cases hport : (s.records i).macParams.logPort = e.macParams.logPort
    · rw [modifiedEntry_same h hport]
      exact .refresh i hk hport rfl (h.refresh hk hport)
    · obtain ⟨hdb, ⟨herr, hcan, hinv⟩ | ⟨herr, hcan, hcode, hleft⟩⟩ :=
        modifiedEntry_spec h hk rfl rfl hport
      · exact .moveOk i hk hport herr hdb hcan hinv
      · exact .moveErr i hk hport herr hdb hcan hcode hleft

theorem add_inv {s : Fdb} {L : Index} (h : FdbInv s L) (e : Option MacEntry) :
    ∃ L', FdbInv (fdbUcDbAddRecord s e).2 L' := by
  cases e with
  | none => exact ⟨L, by simpa [fdbUcDbAddRecord, h.ready] using h⟩
  | some e =>
    cases add_spec h e with
    | full hk hp hr => rw [hr]; exact ⟨L, h⟩
    | newOk _ _ _ _ _ _ _ hinv => exact ⟨_, hinv⟩
    | newErr _ _ _ _ _ _ _ _ hleft =>
      obtain ⟨L', hinv, -⟩ := hleft
      exact ⟨L', hinv⟩
    | refresh _ _ _ _ hinv => exact ⟨L, hinv⟩
    | moveOk _ _ _ _ _ _ hinv => exact ⟨_, hinv⟩
    | moveErr _ _ _ _ _ _ _ hleft =>
      obtain ⟨L', hinv, -⟩ := hleft
      exact ⟨L', hinv⟩

theorem delete_inv {s : Fdb} {L : Index} (h : FdbInv s L) (i : Option Nat) :
    ∃ L', FdbInv (fdbUcDbDeleteRecord s i).2 L' := by
  cases i with
  | none => exact ⟨L, by simpa [fdbUcDbDeleteRecord, h.ready] using h⟩
  | some i =>
    obtain ⟨L', hinv, -⟩ := delete_spec h i
    exact ⟨L', hinv⟩

end MlnxLib.CtrlLearn
