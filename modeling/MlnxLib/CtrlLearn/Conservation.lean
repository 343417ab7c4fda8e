import MlnxLib.CtrlLearn.Invariant

/-!
# Pool conservation and the life cycle of the FDB

Records and list heads are taken from and returned to their pools on many branches; no branch
loses one.  `fdb_uc_db_deinit` drains both maps, so that the next `fdb_uc_db_init` starts from the
same empty database as the first one.

Principal results: `FdbInv.run` — the invariant holds after every run of calls;
`fdb_pool_conservation` — both pools are conserved, and de-initialising and initialising again
gives the empty database.
-/

set_option autoImplicit false

namespace MlnxLib.CtrlLearn

/-! ## The empty database -/

/-- The abstract state after `fdb_uc_db_init`: empty maps, empty vlan lists, full pools. -/
structure EmptyDb (s : Fdb) : Prop where
  fdbInitiated : s.fdbInitiated = true
  filtersInitiated : s.filtersInitiated = true
  fdbMap : s.fdbMap = OrdMap.empty
  fbdFilterMap : s.fbdFilterMap = OrdMap.empty
  mainDbPool : s.mainDbPool = clPoolInit MAX_FDB_ENTRIES
  fdbFltrPool : s.fdbFltrPool = clPoolInit MAX_FILTER_ENTRIES
  vlanLists : ∀ v, v < MAX_VLAN_ENTRIES → Ring.IsRing s.links (.vlanEnd v) [] ∧ s.vlanCount v = 0
  items : ∀ f i, s.links (.entry f i) = Ring.Link.null

/-- **`fdb_uc_db_init` of a database that is not initialised gives the empty database.** -/
theorem init_emptyDb {s : Fdb} (h : s.fdbInitiated = false) (h' : s.filtersInitiated = false) :
    (fdbUcDbInit s true true).1 = 0 ∧ EmptyDb (fdbUcDbInit s true true).2 := by
  have heq : fdbUcDbInit s true true = (0, { s with
      fdbInitiated := true
      filtersInitiated := true
      mainDbPool := clPoolInit MAX_FDB_ENTRIES
      fdbMap := OrdMap.empty
      records := fun _ => MacEntry.zero
      fbdFilterMap := OrdMap.empty
      fdbFltrPool := clPoolInit MAX_FILTER_ENTRIES
      links := zeroFltrLinks (initVlanLinks (zeroEntryLinks s.links))
      vlanCount := fun v => if v < MAX_VLAN_ENTRIES then 0 else s.vlanCount v }) := by
    simp [fdbUcDbInit, fdbUcDbFilterInit, h, h']
  rw [heq]
  refine ⟨rfl, rfl, rfl, rfl, rfl, rfl, rfl, fun v hv => ⟨?_, if_pos hv⟩, fun f i => rfl⟩
  simp [Ring.IsRing, Ring.Seg, zeroFltrLinks, initVlanLinks, hv]

theorem EmptyDb.inv {s : Fdb} (h : EmptyDb s) : FdbInv s (fun _ => []) := by
  refine ⟨h.fdbInitiated, ⟨h.filtersInitiated, ?_, ?_, ?_, ?_⟩, ?_, ?_, ?_, ?_⟩
  · refine ⟨?_, fun _ => rfl, ?_, ?_, fun hx => by simp at hx, fun hx => by simp at hx, ?_⟩
    · intro l e he
      cases l with
      | vlan v =>
        simp only [listEnds] at he
        split at he
        · rename_i hv
          cases he
          exact (h.vlanLists v hv).1
        · cases he
      | key k => simp [listEnds, h.fbdFilterMap] at he
    · intro l l' e he he'
      cases l with
      | key k => simp [listEnds, h.fbdFilterMap] at he
      | vlan v =>
        cases l' with
        | key k => simp [listEnds, h.fbdFilterMap] at he'
        | vlan w =>
          simp only [listEnds, Option.ite_none_right_eq_some, Option.some.injEq] at he he'
          have := he.2.trans he'.2.symm
          cases this
          rfl
    · intro l e he hi
      cases l with
      | key k => simp [listEnds, h.fbdFilterMap] at he
      | vlan v =>
        simp only [listEnds, Option.ite_none_right_eq_some, Option.some.injEq] at he
        rw [← he.2] at hi
        exact hi
    · intro x hx _
      cases x with
      | vlanEnd v => cases hx
      | fltrEnd j => cases hx
      | entry f i => exact h.items f i
  · intro k j hk
    simp [h.fbdFilterMap] at hk
  · intro v hv
    exact (h.vlanLists v hv).2
  · rw [h.fdbFltrPool, h.fbdFilterMap]; exact Conserves.init _
  · rw [h.mainDbPool, h.fdbMap]; exact Conserves.init _
  · intro k i hk
    simp [h.fdbMap] at hk
  · intro l f i hl
    simp at hl
  · intro i
    constructor <;> simp

theorem emptyDb_init : EmptyDb Fdb.init := (init_emptyDb (s := Fdb.zero) rfl rfl).2

/-! ## Runs -/

theorem FdbInv.step {s : Fdb} {L : Index} (h : FdbInv s L) (op : FdbOp) :
    ∃ L', FdbInv (op.step s) L' := by
  cases op with
  | add e => exact add_inv h e
  | delete i => exact delete_inv h i

/-- **The invariant holds after every run of calls.** -/
theorem FdbInv.run : ∀ (ops : List FdbOp) {s : Fdb} {L : Index}, FdbInv s L →
    ∃ L', FdbInv (run s ops) L'
  | [], _, L, h => ⟨L, h⟩
  | op :: ops, _, _, h => by
    obtain ⟨L', h'⟩ := h.step op
    exact FdbInv.run ops h'

/-! ## De-initialising -/

theorem removeItem_head {m : QMap} (hnd : m.values.Nodup) {i : Nat} (hi : m.head = some i) :
    (m.removeItem i).count + 1 = m.count ∧ (m.removeItem i).values.Nodup := by
  have hmem : i ∈ m.values := by
    rw [OrdMap.head_eq] at hi
    exact List.mem_of_mem_head? hi
  refine ⟨OrdMap.count_removeItem hnd hmem, ?_⟩
  rw [OrdMap.values_removeItem]
  exact hnd.filter _

theorem eq_empty_of_head {m : QMap} (hi : m.head = none) : m = OrdMap.empty := by
  apply OrdMap.ext
  unfold OrdMap.head at hi
  simpa [OrdMap.empty] using hi

/-- The loop of `fdb_uc_db_destroy` empties the map. -/
theorem destroyLoop_spec : ∀ (fuel : Nat) (s : Fdb), s.fdbInitiated = true →
    s.fdbMap.values.Nodup → s.fdbMap.count < fuel →
    ∃ pool, fdbUcDbDestroyLoop fuel s =
      some (0, { s with fdbMap := OrdMap.empty, mainDbPool := pool })
  | 0, s, _, _, hf => by omega
  | fuel + 1, s, h, hnd, hf => by
    have hfirst : fdbUcDbGetFirstRecord s = (0, s.fdbMap.head) := by
      simp [fdbUcDbGetFirstRecord, h]
    unfold fdbUcDbDestroyLoop
    rw [hfirst]
    cases hi : s.fdbMap.head with
    | none =>
      refine ⟨s.mainDbPool, ?_⟩
      rw [← eq_empty_of_head hi]
      rfl
    | some i =>
      obtain ⟨hcount, hnd'⟩ := removeItem_head hnd hi
      exact destroyLoop_spec fuel _ h hnd' (show (s.fdbMap.removeItem i).count < fuel by omega)

/-- The loop of `fdb_uc_db_filter_destroy` empties the filter map. -/
theorem filterDestroyLoop_spec : ∀ (fuel : Nat) (s : Fdb), s.filtersInitiated = true →
    s.fbdFilterMap.values.Nodup → s.fbdFilterMap.count < fuel →
    ∃ pool, fdbUcDbFilterDestroyLoop fuel s =
      some (0, { s with fbdFilterMap := OrdMap.empty, fdbFltrPool := pool })
  | 0, s, _, _, hf => by omega
  | fuel + 1, s, h, hnd, hf => by
    have hfirst : fdbUcDbFilterGetFirstRecord s = (0, s.fbdFilterMap.head) := by
      simp [fdbUcDbFilterGetFirstRecord, h]
    unfold fdbUcDbFilterDestroyLoop
    rw [hfirst]
    cases hi : s.fbdFilterMap.head with
    | none =>
      refine ⟨s.fdbFltrPool, ?_⟩
      rw [← eq_empty_of_head hi]
      rfl
    | some i =>
      obtain ⟨hcount, hnd'⟩ := removeItem_head hnd hi
      exact filterDestroyLoop_spec fuel _ h hnd'
        (show (s.fbdFilterMap.removeItem i).count < fuel by omega)

/-- **`fdb_uc_db_deinit` succeeds and clears both flags.** -/
theorem deinit_spec {s : Fdb} {L : Index} (h : FdbInv s L) :
    ∃ s', fdbUcDbDeinit s = some (0, s') ∧ s'.fdbInitiated = false ∧
      s'.filtersInitiated = false := by
  obtain ⟨pool, hloop⟩ := destroyLoop_spec (s.fdbMap.count + 1) s h.ready h.pool.values_nodup
    (by omega)
  obtain ⟨pool', hloop'⟩ := filterDestroyLoop_spec (s.fbdFilterMap.count + 1)
    { s with fdbMap := OrdMap.empty, mainDbPool := clPoolConstruct } h.index.ready
    h.index.pool.values_nodup (Nat.lt_succ_self _)
  have hdestroy : fdbUcDbDestroy s =
      some (0, { s with fdbMap := OrdMap.empty, mainDbPool := pool }) := by
    unfold fdbUcDbDestroy
    rw [if_neg (by simp [h.ready]), hloop]
  have hfilter : fdbUcDbFilterDeinit
        { s with fdbMap := OrdMap.empty, mainDbPool := clPoolConstruct } =
      some (0, { s with
        fdbMap := OrdMap.empty, mainDbPool := clPoolConstruct, fbdFilterMap := OrdMap.empty
        fdbFltrPool := clPoolConstruct, filtersInitiated := false }) := by
    unfold fdbUcDbFilterDeinit fdbUcDbFilterDestroy
    rw [if_neg (by simp [h.index.ready]), if_neg (by simp [h.index.ready]), hloop']
    rfl
  refine ⟨{ s with
    fdbMap := OrdMap.empty, mainDbPool := clPoolConstruct, fbdFilterMap := OrdMap.empty
    fdbFltrPool := clPoolConstruct, filtersInitiated := false, fdbInitiated := false },
    ?_, rfl, rfl⟩
  unfold fdbUcDbDeinit
  rw [if_neg (by simp [h.ready]), hdestroy]
  simp only [Option.bind_some, ne_eq, not_true_eq_false, if_false, hfilter, Option.map_some]

/-! ## Conservation -/

/-- **Pool conservation.**  After any run of adds and deletes with any arguments, failing or not,
the stored records and the free ones make up the record pool, the heads in use and the free ones
make up the head pool, and de-initialising and initialising again succeed and give the empty
database that the first `fdb_uc_db_init` gave. -/
theorem fdb_pool_conservation (ops : List FdbOp) :
    (run Fdb.init ops).fdbMap.count + clPoolCount (run Fdb.init ops).mainDbPool =
      MAX_FDB_ENTRIES ∧
    (run Fdb.init ops).fbdFilterMap.count + clPoolCount (run Fdb.init ops).fdbFltrPool =
      MAX_FILTER_ENTRIES ∧
    EmptyDb Fdb.init ∧
    ∃ s', fdbUcDbDeinit (run Fdb.init ops) = some (0, s') ∧ (fdbUcDbInit s' true true).1 = 0 ∧
      EmptyDb (fdbUcDbInit s' true true).2 := by
  obtain ⟨L, h⟩ := FdbInv.run ops emptyDb_init.inv
  refine ⟨h.pool.count, h.index.pool.count, emptyDb_init, ?_⟩
  obtain ⟨s', hdeinit, hf, hf'⟩ := deinit_spec h
  exact ⟨s', hdeinit, init_emptyDb hf hf'⟩

end MlnxLib.CtrlLearn
