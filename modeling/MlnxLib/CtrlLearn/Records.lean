import MlnxLib.Lib.PinMap
import MlnxLib.CtrlLearn.Coherence

/-!
# The FDB as a map of records

What the calls of the database do, without its lists: `Fdb.db s` maps a key to its record and to
whether a delete will take the record out.  A record that a failed call left without one of its
port links is pinned: `fdb_uc_db_delete_record` fails on it and `fdb_uc_db_add_record` still
overwrites it.

Principal results: `db_add` — an add that does not run out of a pool is a put; `db_delete` — a
delete is a drop; `Reached.run` — what holds after any calls with 32-bit ports.
-/

set_option autoImplicit false

namespace MlnxLib.CtrlLearn

open PinMap

/-- Both port items of the record are linked. -/
def removable (s : Fdb) (i : Nat) : Bool := isLinked s .port i && isLinked s .vidPort i

/-- The records of the FDB under their keys. -/
def Fdb.db (s : Fdb) : Map Nat MacEntry := fun k =>
  (s.fdbMap.get k).map fun i => (s.records i, removable s i)

theorem removable_iff {s : Fdb} {L : Index} (hr : Represents s L) {i : Nat} :
    removable s i = true ↔ L.Removable i := by
  unfold removable
  rw [Bool.and_eq_true, isLinked_iff hr, isLinked_iff hr]
  rfl

theorem Coherent.removable {s : Fdb} {L : Index} (h : Coherent s L) {i : Nat}
    (hi : i ∈ s.fdbMap.values) : removable s i = true :=
  (removable_iff h.inv.index).mpr ⟨h.linked i hi .port, h.linked i hi .vidPort⟩

theorem db_some {s : Fdb} {k i : Nat} (hk : s.fdbMap.get k = some i) :
    s.db k = some (s.records i, removable s i) := by
  simp [Fdb.db, hk]

theorem db_none {s : Fdb} {k : Nat} (hk : s.fdbMap.get k = none) : s.db k = none := by
  simp [Fdb.db, hk]

theorem lookup_eq (s : Fdb) (k : Nat) : s.lookup k = (s.db k).value := by
  unfold Fdb.lookup Fdb.db Cell.value
  cases s.fdbMap.get k <;> rfl

section Frame

variable {s s' : Fdb} {L L' : Index} {i : Nat}

theorem removable_congr (hr : Represents s L) (hr' : Represents s' L') (hag : L.AgreesBut i L')
    {j : Nat} (hj : j ≠ i) : removable s' j = removable s j := by
  rw [Bool.eq_iff_iff, removable_iff hr, removable_iff hr']
  exact hag.removable_iff hj

/-- **The frame rule**: work on record `i` is not seen at the keys of the others. -/
theorem db_frame (hr : Represents s L) (hr' : Represents s' L') (hag : L.AgreesBut i L')
    (hrec : ∀ j, j ≠ i → s'.records j = s.records j) {k : Nat}
    (hk : s'.fdbMap.get k = s.fdbMap.get k) (hne : s.fdbMap.get k ≠ some i) :
    s'.db k = s.db k := by
  cases hg : s.fdbMap.get k with
  | none => rw [db_none hg, db_none (hk.trans hg)]
  | some j =>
    have hj : j ≠ i := by
      rintro rfl
      exact hne hg
    rw [db_some hg, db_some (hk.trans hg), hrec j hj, removable_congr hr hr' hag hj]

end Frame

/-! ## Deleting -/

/-- **`fdb_uc_db_delete_record` is a drop.** -/
theorem db_delete {s : Fdb} {L : Index} (h : FdbInv s L) {k i : Nat}
    (hk : s.fdbMap.get k = some i) :
    (fdbUcDbDeleteRecord s (some i)).2.db = s.db.drop k := by
  obtain ⟨L', h', hthin, -, hpinned, hrec, hres⟩ := delete_spec h i
  have hframe : ∀ k', k' ≠ k →
      (fdbUcDbDeleteRecord s (some i)).2.fdbMap.get k' = s.fdbMap.get k' →
      (fdbUcDbDeleteRecord s (some i)).2.db k' = s.db k' := by
    intro k' hk' hget
    refine db_frame h.index h'.index hthin.agreesBut (fun j _ => congrFun hrec j) hget ?_
    exact fun hg => hk' (OrdMap.key_unique h.pool.values_nodup hg hk)
  funext k'
  rw [drop_apply]
  by_cases hkk : k = k'
  · rw [if_pos hkk, ← hkk, db_some hk]
    obtain ⟨-, hrem, hmap⟩ | ⟨-, hrem, hdb⟩ := hres
    · rw [(removable_iff h.index).mpr hrem, db_none (by rw [hmap, OrdMap.get_removeItem, if_pos hk])]
      rfl
    · have hpin : removable s i = false := by
        rw [← Bool.not_eq_true, removable_iff h.index]
        exact hrem
      have hpin' : removable (fdbUcDbDeleteRecord s (some i)).2 i = false := by
        rw [← Bool.not_eq_true, removable_iff h'.index]
        exact hpinned
      rw [hpin, db_some (by rw [hdb.fdbMap, hk]), hpin', hrec]
      rfl
  · rw [if_neg hkk]
    refine hframe k' (Ne.symm hkk) ?_
    obtain ⟨-, -, hmap⟩ | ⟨-, -, hdb⟩ := hres
    · have hne : s.fdbMap.get k' ≠ some i :=
        fun hg => hkk (OrdMap.key_unique h.pool.values_nodup hk hg)
      rw [hmap, OrdMap.get_removeItem, if_neg hne]
    · rw [hdb.fdbMap]

/-! ## Adding -/

/-- The call did not run out of records or of list heads. -/
def NotFull (err : Int) : Prop := err ≠ -ENOMEM ∧ err ≠ ENOMEM

instance (err : Int) : Decidable (NotFull err) :=
  inferInstanceAs (Decidable (err ≠ -ENOMEM ∧ err ≠ ENOMEM))

/-- Record `i`, stored under the key of `e`, now holds `e`; the others are as they were. -/
theorem db_put {s s' : Fdb} {L L' : Index} (hr : Represents s L) (hr' : Represents s' L') {i : Nat}
    {e : MacEntry} (hag : L.AgreesBut i L') (hrec : ∀ j, j ≠ i → s'.records j = s.records j)
    (he : s'.records i = e) (hi : s'.fdbMap.get e.macParams.key = some i)
    (hmap : ∀ k, k ≠ e.macParams.key → s'.fdbMap.get k = s.fdbMap.get k ∧ s.fdbMap.get k ≠ some i)
    (hrem : ∀ r, s.db e.macParams.key = r →
      removable s' i = (r.map Prod.snd).getD true) :
    s'.db = s.db.put e.macParams.key e := by
  funext k
  rw [put_apply]
  by_cases hk : e.macParams.key = k
  · rw [if_pos hk, ← hk, db_some hi, he, hrem _ rfl]
    cases s.db e.macParams.key with
    | none => rfl
    | some r => rfl
  · rw [if_neg hk]
    obtain ⟨hget, hne⟩ := hmap k (Ne.symm hk)
    exact db_frame hr hr' hag hrec hget hne

theorem agreesBut_linkAll (L : Index) (i : Nat) (p : MacParams) :
    L.AgreesBut i (linkAll L i p) :=
  (agreesBut_insert.trans agreesBut_insert).trans agreesBut_insert

theorem removable_linkAll (L : Index) (i : Nat) (p : MacParams) : (linkAll L i p).Removable i := by
  unfold linkAll
  exact ⟨⟨.key (buildPortKey p.logPort), Index.mem_insert.mpr (Or.inl (Index.mem_insert.mpr
    (Or.inr ⟨rfl, rfl⟩)))⟩, .key (buildPortVidKey p.logPort p.vid),
    Index.mem_insert.mpr (Or.inr ⟨rfl, rfl⟩)⟩

/-- A move that went through: the other records are untouched, and the record has both its port
links, before and after. -/
theorem moveAll_spec {s : Fdb} {L : Index} (hr : Represents s L) {i free : Nat} {p q : MacParams}
    (hcan : CanMove L i p q free) :
    L.AgreesBut i (moveAll L i p q) ∧ L.Removable i ∧ (moveAll L i p q).Removable i := by
  have hmemp := hcan.1.1
  have hmemv := hcan.2.1
  have hport : ∀ f j l, .entry f j ∈ movePort L i p q l ↔
      (.entry f j ∈ L l ∧ ¬ (f = .port ∧ j = i)) ∨
        (l = .key (buildPortKey q.logPort) ∧ f = .port ∧ j = i) := by
    intro f j l
    rw [movePort, hr.mem_swap hmemp]
    simp
  have hlv : L.Linked .vidPort i := by
    have hm := (hport _ _ _).mp hmemv
    exact ⟨_, by simpa using hm⟩
  refine ⟨?_, ⟨⟨_, hmemp⟩, hlv⟩, ?_⟩
  · intro f j l hj
    have hne : Node.entry f j ≠ .entry .vidPort i := by simp [hj]
    have hne' : Node.entry f j ≠ .entry .port i := by simp [hj]
    rw [moveAll, movePort, Index.swap, Index.swap, Index.mem_insert, Index.mem_remove_of_ne hne,
      Index.mem_insert, Index.mem_remove_of_ne hne']
    simp [hne, hne']
  · refine ⟨⟨.key (buildPortKey q.logPort), ?_⟩, .key (buildPortVidKey q.logPort q.vid), ?_⟩
    · refine Index.mem_insert.mpr (Or.inl ((Index.mem_remove_of_ne (by simp)).mpr ?_))
      exact (hport _ _ _).mpr (Or.inr ⟨rfl, rfl, rfl⟩)
    · exact Index.mem_insert.mpr (Or.inr ⟨rfl, rfl⟩)

/-- **`fdb_uc_db_add_record` is a put**, unless it runs out of a pool. -/
theorem db_add {s : Fdb} {L : Index} (h : FdbInv s L) {e : MacEntry}
    (hv : e.macParams.vid.toNat < MAX_VLAN_ENTRIES)
    (hfull : NotFull (fdbUcDbAddRecord s (some e)).1) :
    (fdbUcDbAddRecord s (some e)).2.db = s.db.put e.macParams.key e := by
  -- the map of a state whose records alone changed
  have hknown : ∀ {i : Nat} {s' : Fdb} {L' : Index}, s.fdbMap.get e.macParams.key = some i →
      SameDb (setRecord s i e) s' → FdbInv s' L' → L.AgreesBut i L' →
      (L'.Removable i ↔ L.Removable i) → s'.db = s.db.put e.macParams.key e := by
    intro i s' L' hk hdb hinv hag hrem
    have hget : ∀ k, s'.fdbMap.get k = s.fdbMap.get k := fun k => by rw [hdb.fdbMap]; rfl
    refine db_put h.index hinv.index hag (fun j hj => ?_) ?_ ((hget _).trans hk) (fun k hne => ?_) ?_
    · rw [hdb.records]
      simp [CtrlLearn.setRecord, hj]
    · rw [hdb.records]
      simp [CtrlLearn.setRecord]
    · exact ⟨hget k, fun hg => hne (OrdMap.key_unique h.pool.values_nodup hg hk)⟩
    · rintro r rfl
      rw [db_some hk, Bool.eq_iff_iff, removable_iff hinv.index, hrem]
      exact (removable_iff h.index).symm
  cases add_spec h e with
  | full hk hp hr =>
    rw [hr] at hfull
    exact absurd rfl hfull.1
  | newErr i pool hk hp herr hdb hcan hcode =>
    obtain hcode | hcode := hcode
    · exact absurd hcode hfull.2
    · omega
  | newOk i pool hk hp herr hdb hcan hinv =>
    have hget := OrdMap.get_insert i hk
    have hmap : ∀ k, (fdbUcDbAddRecord s (some e)).2.fdbMap.get k =
        if k = e.macParams.key then some i else s.fdbMap.get k := by
      intro k
      rw [hdb.fdbMap]
      exact hget k
    refine db_put h.index hinv.index (agreesBut_linkAll L i _) (fun j hj => ?_) ?_ ?_ (fun k hne => ?_) ?_
    · rw [hdb.records]
      simp [created, hj]
    · rw [hdb.records]
      simp [created]
    · rw [hmap, if_pos rfl]
    · rw [hmap, if_neg hne]
      exact ⟨rfl, fun hg => h.pool.fresh hp (OrdMap.get_mem_values hg)⟩
    · rintro r rfl
      rw [db_none hk]
      exact (removable_iff hinv.index).mpr (removable_linkAll L i _)
  | refresh i hk hport hr hinv =>
    rw [hr] at hinv ⊢
    exact hknown hk SameDb.rfl hinv .rfl Iff.rfl
  | moveOk i hk hport herr hdb hcan hinv =>
    obtain ⟨hag, hrem, hrem'⟩ := moveAll_spec h.index hcan
    exact hknown hk hdb hinv hag (iff_of_true hrem' hrem)
  | moveErr i hk hport herr hdb hcan hcode hleft =>
    obtain ⟨L', hinv, hag, hrem'⟩ := hleft
    obtain hcode | hrem := hcode
    · exact absurd hcode hfull.2
    · exact hknown hk hdb hinv hag (iff_of_false hrem' hrem)

/-! ## Reachable states -/

/-- A record with both its port links has its vid link too. -/
def Index.Whole (L : Index) : Prop := ∀ i, L.Removable i → L.Linked .vid i

theorem Index.Whole.at_other {i : Nat} {L L' : Index} (h : L.Whole) (hag : L.AgreesBut i L') {j : Nat}
    (hji : j ≠ i) (hj : L'.Removable j) : L'.Linked .vid j :=
  (hag.linked_iff hji .vid).mpr (h j ((hag.removable_iff hji).mp hj))

theorem Index.Whole.of_pinned {i : Nat} {L L' : Index} (h : L.Whole) (hag : L.AgreesBut i L')
    (hi : ¬ L'.Removable i) : L'.Whole := by
  intro j hj
  refine h.at_other hag ?_ hj
  rintro rfl
  exact hi hj

/-- What holds in every state that calls with 32-bit ports can reach, failing or not. -/
structure Reached (s : Fdb) (L : Index) : Prop where
  inv : FdbInv s L
  whole : L.Whole
  ports : PortsBelow s

theorem Coherent.reached {s : Fdb} {L : Index} (h : Coherent s L) : Reached s L := by
  refine ⟨h.inv, fun i hi => ?_, h.ports⟩
  obtain ⟨l, hl⟩ := hi.1
  exact h.linked i (h.inv.owned hl) .vid

namespace Reached

variable {s : Fdb} {L : Index}

theorem of_pinned {i : Nat} {s' : Fdb} (h : Reached s L) (hp : PortsBelow s')
    (hleft : LeftPinned L i s') : ∃ L', Reached s' L' := by
  obtain ⟨L', hinv, hag, hpin⟩ := hleft
  exact ⟨L', hinv, h.whole.of_pinned hag hpin, hp⟩

theorem whole_linkAll (h : L.Whole) (i : Nat) (p : MacParams) : (linkAll L i p).Whole := by
  intro j hj
  by_cases hji : j = i
  · subst hji
    refine ⟨.vlan p.vid.toNat, ?_⟩
    simp [linkAll, Index.mem_insert]
  · exact h.at_other (agreesBut_linkAll L i p) hji hj

theorem whole_moveAll (h : L.Whole) (hr : Represents s L) {i free : Nat} {p q : MacParams}
    (hcan : CanMove L i p q free) : (moveAll L i p q).Whole := by
  obtain ⟨hag, hrem, -⟩ := moveAll_spec hr hcan
  intro j hj
  by_cases hji : j = i
  · subst hji
    obtain ⟨l, hl⟩ := h j hrem
    refine ⟨l, ?_⟩
    unfold moveAll movePort Index.swap
    refine Index.mem_insert.mpr (Or.inl ((Index.mem_remove_of_ne (by simp)).mpr ?_))
    exact Index.mem_insert.mpr (Or.inl ((Index.mem_remove_of_ne (by simp)).mpr hl))
  · exact h.at_other hag hji hj

theorem add (h : Reached s L) {e : MacEntry} (he : e.macParams.logPort.toNat < 2 ^ 32) :
    ∃ L', Reached (fdbUcDbAddRecord s (some e)).2 L' := by
  have hp := h.ports.add h.inv he
  cases add_spec h.inv e with
  | full hk hfull hr => rw [hr]; exact ⟨L, h⟩
  | newOk i pool hk hpool herr hdb hcan hinv => exact ⟨_, hinv, whole_linkAll h.whole i _, hp⟩
  | newErr i pool hk hpool herr hdb hcan hcode hleft => exact h.of_pinned hp hleft
  | refresh i hk hport hr hinv => exact ⟨L, hinv, h.whole, hp⟩
  | moveOk i hk hport herr hdb hcan hinv => exact ⟨_, hinv, whole_moveAll h.whole h.inv.index hcan, hp⟩
  | moveErr i hk hport herr hdb hcan hcode hleft => exact h.of_pinned hp hleft

theorem delete (h : Reached s L) (i : Nat) : ∃ L', Reached (fdbUcDbDeleteRecord s (some i)).2 L' := by
  obtain ⟨L', hinv, hthin, -, hpin, -⟩ := delete_spec h.inv i
  exact ⟨L', hinv, h.whole.of_pinned hthin.agreesBut hpin, h.ports.delete h.inv i⟩

theorem step (h : Reached s L) {op : FdbOp} (hop : op.PortBelow) : ∃ L', Reached (op.step s) L' := by
  rcases op with ⟨_ | e⟩ | ⟨_ | i⟩
  · exact ⟨L, by simpa [FdbOp.step, fdbUcDbAddRecord, h.inv.ready] using h⟩
  · exact h.add hop
  · exact ⟨L, by simpa [FdbOp.step, fdbUcDbDeleteRecord, h.inv.ready] using h⟩
  · exact h.delete i

theorem run : ∀ (ops : List FdbOp) {s : Fdb} {L : Index}, Reached s L →
    (∀ op ∈ ops, op.PortBelow) → ∃ L', Reached (run s ops) L'
  | [], _, L, h, _ => ⟨L, h⟩
  | op :: ops, _, _, h, hops => by
    obtain ⟨L', h'⟩ := h.step (hops op (List.mem_cons_self ..))
    exact run ops h' (fun o ho => hops o (List.mem_cons_of_mem _ ho))

end Reached

end MlnxLib.CtrlLearn
