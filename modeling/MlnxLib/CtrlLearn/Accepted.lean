import MlnxLib.CtrlLearn.Approval

/-!
# Events that the HAL refuses

`ctrl_learn_handle_oes_event` hands the approved entries to the HAL in a list, and goes over the same list
when it updates the FDB.  When the HAL refuses some of them it leaves those in the list, so that the update
goes over the refused entries only, and skips each of them.

* `Fdb.view` — what the FDB says about a key: the port and the two entry types of its record.
* `accepted` — the entries that are approved and not refused.
* `AppliesAccepted` — the FDB is updated with exactly these.

Principal results: `add_lookup`, `deleteRecord_cells` — what an add and a delete do to the keys, whatever
the callbacks say; `accepted_applied_iff` — a batch is applied exactly when the HAL refuses nothing and the
FDB takes what it accepts, or the FDB agrees with what it accepts already.
-/

set_option autoImplicit false

namespace MlnxLib.CtrlLearn

open PinMap

/-! ## What the FDB says about a key -/

/-- The port and the entry types of a record. -/
abbrev View := UInt64 × OesFdbEntryType × FdbUcMacEntryType

/-- The records as they are compared, and whether a delete takes them out. -/
def Fdb.cells (s : Fdb) : Map Nat View := fun k => (s.db k).map fun c => (recordView c.1, c.2)

def Fdb.view (s : Fdb) (k : Nat) : Option View := (s.lookup k).map recordView

theorem view_eq (s : Fdb) (k : Nat) : s.view k = (s.cells k).value := by
  rw [Fdb.view, lookup_eq, Fdb.cells, Cell.value, Cell.value, Option.map_map, Option.map_map]
  rfl

theorem view_eq_none_iff {s : Fdb} {k : Nat} : s.view k = none ↔ s.fdbMap.get k = none := by
  simp [Fdb.view, Fdb.lookup]

section Delete

variable (env : Env) {lib : Lib} {L : Index}

/-- The de-init callback does not change what is compared. -/
theorem deinitCookie_cells (lib : Lib) (i : Nat) :
    (deinitCookie env lib i).fdb.cells = lib.fdb.cells := by
  unfold deinitCookie
  cases env.initDeinitCb with
  | none => rfl
  | some cb =>
    funext k
    unfold Fdb.cells Fdb.db
    cases hk : lib.fdb.fdbMap.get k with
    | none => simp [setRecord, hk]
    | some j =>
      by_cases hj : j = i
      · subst hj
        simp [setRecord, hk, recordView, removable, isLinked]
      · simp [setRecord, hk, hj, removable, isLinked]

/-- **`fdb_uc_db_delete_record` with its callback is a drop.** -/
theorem deleteRecord_cells (h : FdbInv lib.fdb L) {k i : Nat} (hk : lib.fdb.fdbMap.get k = some i) :
    (deleteRecord env lib i).2.fdb.cells = lib.fdb.cells.drop k := by
  obtain ⟨htaken, hmap⟩ := deinitCookie_spec env h (OrdMap.get_mem_values hk)
  have hdb := db_delete htaken.inv (show (deinitCookie env lib i).fdb.fdbMap.get k = some i by rw [hmap, hk])
  rw [← deinitCookie_cells env lib i]
  funext k'
  have hcell := congrFun hdb k'
  rw [drop_apply] at hcell ⊢
  unfold Fdb.cells
  show ((fdbUcDbDeleteRecord _ _).2.db k').map _ = _
  rw [hcell]
  split
  · rename_i heq
    subst heq
    generalize (deinitCookie env lib i).fdb.db k = c
    obtain _ | ⟨e, _ | _⟩ := c <;> rfl
  · rfl

theorem deleteApproved_spec (h : FdbInv lib.fdb L) (e : MacEntry) :
    (∃ L', FdbInv (deleteApproved env lib e).2.fdb L') ∧
    (deleteApproved env lib e).2.fdb.cells = lib.fdb.cells.drop e.macParams.key := by
  unfold deleteApproved fdbUcDbGetRecordByKey
  rw [if_neg (by simp [h.ready])]
  cases hk : lib.fdb.fdbMap.get e.macParams.key with
  | none =>
    refine ⟨⟨L, h⟩, ?_⟩
    have hnone : (lib.fdb.cells e.macParams.key).drop = lib.fdb.cells e.macParams.key := by
      rw [Fdb.cells, db_none hk]
      rfl
    dsimp only
    rw [Map.drop, hnone, Function.update_eq_self]
  | some i =>
    obtain ⟨L', htaken⟩ := deleteRecord_spec env h (OrdMap.get_mem_values hk)
    exact ⟨⟨L', htaken.inv⟩, deleteRecord_cells env h hk⟩

/-- **The deletes of a list** drop its keys. -/
theorem deleteAll_cells (es : List MacEntry) (h : FdbInv lib.fdb L) (k : Nat) :
    (es.foldl (fun lib e => (deleteApproved env lib e).2) lib).fdb.cells k =
      if ∃ e ∈ es, e.macParams.key = k then (lib.fdb.cells k).drop else lib.fdb.cells k := by
  induction es generalizing lib L with
  | nil => simp
  | cons e es ih =>
    obtain ⟨⟨L', h'⟩, hcells⟩ := deleteApproved_spec env h e
    rw [List.foldl_cons, ih h', hcells, drop_apply]
    by_cases hk : e.macParams.key = k
    · simp only [hk, if_true, Cell.drop_drop, List.mem_cons, exists_eq_or_imp, true_or, ite_self]
    · simp only [hk, if_false, List.mem_cons, exists_eq_or_imp, false_or]

end Delete

/-! ## Adds -/

/-- **An add writes its record**, unless the key is new and the table is full. -/
theorem add_lookup {s : Fdb} {L : Index} (h : FdbInv s L) (e : MacEntry) (k : Nat) :
    (fdbUcDbAddRecord s (some e)).2.lookup k =
      if k = e.macParams.key ∧ ¬ (s.fdbMap.get k = none ∧ s.free = 0) then some e else s.lookup k := by
  have hnew : ∀ {i pool} {s' : Fdb}, s.fdbMap.get e.macParams.key = none →
      clPoolGet s.mainDbPool = some (i, pool) → SameDb (created s i pool e) s' →
      s'.lookup k = if k = e.macParams.key ∧ ¬ (s.fdbMap.get k = none ∧ s.free = 0) then some e
        else s.lookup k := by
    intro i pool s' hk hp hdb
    have hpos : s.free ≠ 0 := by
      have hcount := clPoolGet_count hp
      unfold Fdb.free
      omega
    unfold Fdb.lookup
    rw [hdb.fdbMap, hdb.records]
    simp only [created, OrdMap.get_insert i hk k, hpos, and_false, not_false_eq_true, and_true]
    split
    · simp
    · cases hg : s.fdbMap.get k with
      | none => rfl
      | some j =>
        have hj : j ≠ i := by
          rintro rfl
          exact h.pool.fresh hp (OrdMap.get_mem_values hg)
        simp [hj]
  have hold : ∀ {i} {s' : Fdb}, s.fdbMap.get e.macParams.key = some i → SameDb (setRecord s i e) s' →
      s'.lookup k = if k = e.macParams.key ∧ ¬ (s.fdbMap.get k = none ∧ s.free = 0) then some e
        else s.lookup k := by
    intro i s' hk hdb
    unfold Fdb.lookup
    rw [hdb.fdbMap, hdb.records]
    by_cases hkey : k = e.macParams.key
    · subst hkey
      simp [setRecord, hk]
    · rw [if_neg (by simp [hkey])]
      cases hg : s.fdbMap.get k with
      | none => simp [setRecord, hg]
      | some j =>
        have hj : j ≠ i := by
          rintro rfl
          exact hkey (OrdMap.key_unique h.pool.values_nodup hg hk)
        simp [setRecord, hg, hj]
  cases add_spec h e with
  | full hk hp hr =>
    rw [hr, if_neg]
    rintro ⟨rfl, hroom⟩
    exact hroom ⟨hk, clPoolGet_none_iff.mp hp⟩
  | newOk i pool hk hp herr hdb => exact hnew hk hp hdb
  | newErr i pool hk hp herr hdb => exact hnew hk hp hdb
  | refresh i hk hport hr =>
    rw [hr]
    exact hold hk SameDb.rfl
  | moveOk i hk hport herr hdb => exact hold hk hdb
  | moveErr i hk hport herr hdb => exact hold hk hdb

/-- The number of entries with a new key. -/
def newCount (s : Fdb) (es : List MacEntry) : Nat :=
  es.countP fun e => (s.fdbMap.get e.macParams.key).isNone

section Learn

variable (env : Env)

/-- The entry is what the event path makes of its parameters. -/
def Learned (e : MacEntry) : Prop := e.type = fdbType e.macParams.entryType

theorem addApproved_spec {lib : Lib} {L : Index} (h : FdbInv lib.fdb L) {e : MacEntry} (he : Learned e) :
    (∃ L', FdbInv (addApproved env lib e).2.fdb L') ∧
    (∀ k, (addApproved env lib e).2.fdb.view k =
      if k = e.macParams.key ∧ ¬ (lib.fdb.fdbMap.get k = none ∧ lib.fdb.free = 0) then some (recordView e)
      else lib.fdb.view k) ∧
    (addApproved env lib e).2.fdb.free =
      if lib.fdb.fdbMap.get e.macParams.key = none then lib.fdb.free - 1 else lib.fdb.free := by
  rw [addApproved_fdb]
  generalize hc : (initCookie env lib).2.1 = cookie
  refine ⟨add_inv h _, fun k => ?_, ?_⟩
  · unfold Fdb.view
    rw [add_lookup h]
    split
    · rw [Option.map_some, recordView, recordView, he]
    · rfl
  · obtain ⟨hnew, -, hfree, -⟩ | ⟨hold, hfree, -⟩ :=
      add_takes h ⟨e.macParams, cookie, fdbType e.macParams.entryType⟩
    · rw [if_pos hnew]
      omega
    · rw [hfree]
      split
      · rename_i hnew
        rw [hold.resolve_left (fun hne => hne hnew)]
      · rfl

/-- **The adds of a list with distinct keys**: the other keys are as they were, the keys of the list are
written if there is room for the new ones, and one of them is not if there is not. -/
theorem addEach_view (es : List MacEntry) {lib : Lib} {L : Index} (h : FdbInv lib.fdb L)
    (hes : ∀ e ∈ es, Learned e) (hnd : (es.map fun e => e.macParams.key).Nodup) :
    (∀ k, (∀ e ∈ es, e.macParams.key ≠ k) →
      (es.foldl (fun lib e => (addApproved env lib e).2) lib).fdb.view k = lib.fdb.view k) ∧
    (newCount lib.fdb es ≤ lib.fdb.free → ∀ e ∈ es,
      (es.foldl (fun lib e => (addApproved env lib e).2) lib).fdb.view e.macParams.key =
        some (recordView e)) ∧
    (lib.fdb.free < newCount lib.fdb es → ∃ e ∈ es,
      (es.foldl (fun lib e => (addApproved env lib e).2) lib).fdb.view e.macParams.key = none) := by
  induction es generalizing lib L with
  | nil => simp [newCount]
  | cons e es ih =>
    rw [List.map_cons, List.nodup_cons] at hnd
    obtain ⟨⟨L', h'⟩, hview, hfree⟩ := addApproved_spec env h (hes e (List.mem_cons_self ..))
    have hlater : ∀ e' ∈ es, e.macParams.key ≠ e'.macParams.key :=
      fun e' he' heq => hnd.1 (List.mem_map.mpr ⟨e', he', heq.symm⟩)
    have hother : ∀ k, e.macParams.key ≠ k →
        (addApproved env lib e).2.fdb.view k = lib.fdb.view k := by
      intro k hk
      rw [hview, if_neg]
      exact fun hc => hk hc.1.symm
    -- the later entries are as new as before
    have hcount : newCount (addApproved env lib e).2.fdb es = newCount lib.fdb es := by
      refine List.countP_congr (fun e' he' => ?_)
      rw [Option.isNone_iff_eq_none, Option.isNone_iff_eq_none, ← view_eq_none_iff, ← view_eq_none_iff,
        hother _ (hlater e' he')]
    have hcons : newCount lib.fdb (e :: es) =
        newCount lib.fdb es + if lib.fdb.fdbMap.get e.macParams.key = none then 1 else 0 := by
      rw [newCount, List.countP_cons]
      simp only [Option.isNone_iff_eq_none]
      rfl
    obtain ⟨ihother, ihroom, ihfull⟩ := ih h' (fun x hx => hes x (List.mem_cons_of_mem _ hx)) hnd.2
    rw [hcount, hfree] at ihroom ihfull
    rw [List.foldl_cons, hcons]
    have hhead := ihother e.macParams.key (fun e' he' => (hlater e' he').symm)
    refine ⟨fun k hk => ?_, fun hroom e' he' => ?_, fun hfull => ?_⟩
    · rw [ihother k (fun e' he' => hk e' (List.mem_cons_of_mem _ he'))]
      exact hother k (hk e (List.mem_cons_self ..))
    · rcases List.mem_cons.mp he' with rfl | he'
      · rw [hhead, hview, if_pos]
        refine ⟨rfl, fun hno => ?_⟩
        rw [if_pos hno.1] at hroom
        omega
      · refine ihroom ?_ e' he'
        split at hroom <;> rename_i hk
        · rw [if_pos hk]
          omega
        · rw [if_neg hk]
          omega
    · by_cases hno : lib.fdb.fdbMap.get e.macParams.key = none ∧ lib.fdb.free = 0
      · refine ⟨e, List.mem_cons_self .., ?_⟩
        rw [hhead, hview, if_neg (fun hc => hc.2 hno)]
        exact view_eq_none_iff.mpr hno.1
      · have hlt : (if lib.fdb.fdbMap.get e.macParams.key = none then lib.fdb.free - 1 else lib.fdb.free) <
            newCount lib.fdb es := by
          split at hfull <;> rename_i hk
          · have hpos : lib.fdb.free ≠ 0 := fun hzero => hno ⟨hk, hzero⟩
            rw [if_pos hk]
            omega
          · rw [if_neg hk]
            omega
        obtain ⟨e', he', hnone⟩ := ihfull hlt
        exact ⟨e', List.mem_cons_of_mem _ he', hnone⟩

end Learn

/-! ## A batch of one kind -/

/-- The event of a notify record, and the command of a batch of such events. -/
def RecordEvent.event : RecordEvent → MacParams → FdbEvent
  | .learn => .learn
  | .age => .age

def RecordEvent.cmd : RecordEvent → AccessCmd
  | .learn => .add
  | .age => .delete

theorem cmd_learn : RecordEvent.learn.cmd = .add := rfl

theorem cmd_age : RecordEvent.age.cmd ≠ .add := by decide

theorem cmd_injective {ev ev' : RecordEvent} (h : ev.cmd = ev'.cmd) : ev = ev' := by
  cases ev <;> cases ev' <;> first | rfl | cases h

/-- The notify records of a batch, approved up to the free entries and by the callback. -/
def approvedOf (env : Env) (s : Fdb) (ev : RecordEvent) (ps : List MacParams) : List MacEntry :=
  approvedList (notifyUser env 0 (updateApprovedList s
    (ps.map fun p => ⟨ev, p, .approve, .ageable, none⟩)).2).2

/-- The entries that the HAL refuses. -/
def refused (env : Env) (cmd : AccessCmd) (es : List MacEntry) : List MacEntry :=
  if (env.hal cmd es).1 ≠ 0 then (env.hal cmd es).2 else []

/-- The entries of a batch that are approved and not refused. -/
def accepted (env : Env) (s : Fdb) (ev : RecordEvent) (ps : List MacParams) : List MacEntry :=
  (approvedOf env s ev ps).filter fun e =>
    !(refused env ev.cmd (approvedOf env s ev ps)).any fun f => f.macParams == e.macParams

/-- What the key of an entry says after it is added, or deleted. -/
def RecordEvent.written (ev : RecordEvent) (e : MacEntry) : Option View :=
  match ev with
  | .learn => some (recordView e)
  | .age => none

/-- What a key of the FDB says after the entries are added, or deleted. -/
def updatedView (ev : RecordEvent) (s : Fdb) (es : List MacEntry) (k : Nat) : Option View :=
  match es.find? (fun e => e.macParams.key == k) with
  | none => s.view k
  | some e => ev.written e

/-- The batch returns, and the FDB is updated with the accepted entries and no others. -/
def AppliesAccepted (env : Env) (lib : Lib) (ev : RecordEvent) (ps : List MacParams) : Prop :=
  ∃ err lib', ctrlLearnHandleOesEvent env lib (ps.map ev.event) = some (err, lib') ∧
    ∀ k, lib'.fdb.view k = updatedView ev lib.fdb (accepted env lib.fdb ev ps) k

/-- The batch fits the arrays; and the HAL refuses nothing and the FDB has room for what is new, or can
take out what is stored; or the HAL refuses something and the FDB agrees with the rest already. -/
def TakesAccepted (env : Env) (s : Fdb) (ev : RecordEvent) (ps : List MacParams) : Prop :=
  ps.length ≤ MAX_EVENT_INFO_SIZE ∧
  if (env.hal ev.cmd (approvedOf env s ev ps)).1 = 0 then
    match ev with
    | .learn => newCount s (accepted env s ev ps) ≤ s.free
    | .age => ∀ e ∈ accepted env s ev ps, (s.cells e.macParams.key).pinned = false
  else ∀ e ∈ accepted env s ev ps, s.view e.macParams.key = ev.written e

section Batch

variable {env : Env} {s : Fdb} {ev : RecordEvent} {ps : List MacParams}

theorem find?_key_none {es : List MacEntry} {k : Nat} (h : ∀ e ∈ es, e.macParams.key ≠ k) :
    es.find? (fun e => e.macParams.key == k) = none :=
  List.find?_eq_none.mpr fun e he => by simpa using h e he

theorem find?_key_some {es : List MacEntry} (hnd : (es.map fun e => e.macParams.key).Nodup)
    {e : MacEntry} (he : e ∈ es) : es.find? (fun e' => e'.macParams.key == e.macParams.key) = some e := by
  induction es with
  | nil => cases he
  | cons e' es ih =>
    rw [List.map_cons, List.nodup_cons] at hnd
    rcases List.mem_cons.mp he with rfl | he
    · simp
    · have hne : e'.macParams.key ≠ e.macParams.key :=
        fun heq => hnd.1 (List.mem_map.mpr ⟨e, he, heq.symm⟩)
      rw [List.find?_cons_of_neg (by simpa using hne)]
      exact ih hnd.2 he

theorem updatedView_other {es : List MacEntry} {k : Nat} (h : ∀ e ∈ es, e.macParams.key ≠ k) :
    updatedView ev s es k = s.view k := by
  unfold updatedView
  rw [find?_key_none h]

theorem updatedView_of_mem {es : List MacEntry} (hnd : (es.map fun e => e.macParams.key).Nodup)
    {e : MacEntry} (he : e ∈ es) : updatedView ev s es e.macParams.key = ev.written e := by
  unfold updatedView
  rw [find?_key_some hnd he]

/-- The view is the updated one exactly when it is the old one at other keys and right at the keys of the
entries. -/
theorem forall_updatedView_iff {view : Nat → Option View} {es : List MacEntry}
    (hnd : (es.map fun e => e.macParams.key).Nodup) :
    (∀ k, view k = updatedView ev s es k) ↔
      (∀ k, (∀ e ∈ es, e.macParams.key ≠ k) → view k = s.view k) ∧
      ∀ e ∈ es, view e.macParams.key = ev.written e := by
  constructor
  · intro h
    refine ⟨fun k hk => ?_, fun e he => ?_⟩
    · rw [h, updatedView_other hk]
    · rw [h, updatedView_of_mem hnd he]
  · rintro ⟨hother, hkeys⟩ k
    by_cases hk : ∃ e ∈ es, e.macParams.key = k
    · obtain ⟨e, he, rfl⟩ := hk
      rw [hkeys e he, updatedView_of_mem hnd he]
    · have hk : ∀ e ∈ es, e.macParams.key ≠ k := fun e he heq => hk ⟨e, he, heq⟩
      rw [hother k hk, updatedView_other hk]

theorem recordsOf_batch (ev : RecordEvent) (ps : List MacParams) :
    recordsOf (ps.map ev.event) = ps.map fun p => ⟨ev, p, .approve, .ageable, none⟩ := by
  unfold recordsOf
  rw [List.filterMap_map]
  induction ps with
  | nil => rfl
  | cons p ps ih => cases ev <;> simp_all [RecordEvent.event, FdbEvent.record]

theorem batchCmd_batch (ev : RecordEvent) : ∀ (ps : List MacParams), ps ≠ [] → ∀ cmd,
    batchCmd cmd (ps.map ev.event) = ev.cmd
  | [], h, _ => absurd rfl h
  | [p], _, cmd => by cases ev <;> rfl
  | p :: q :: ps, _, cmd => by
    rw [List.map_cons, batchCmd_cons]
    exact batchCmd_batch ev (q :: ps) (by simp) _

/-- The approved entries are those of the batch, in its order. -/
theorem approvedOf_spec (env : Env) {L : Index} (h : FdbInv s L) (ev : RecordEvent) (ps : List MacParams) :
    (∀ e ∈ approvedOf env s ev ps, Learned e) ∧
    ((approvedOf env s ev ps).map MacEntry.macParams).Sublist ps := by
  refine ⟨fun e he => ?_, ?_⟩
  · obtain ⟨r, -, rfl⟩ := List.mem_map.mp he
    rfl
  · have hrecords : (notifyUser env 0 (updateApprovedList s
        (ps.map fun p => ⟨ev, p, .approve, .ageable, none⟩)).2).2.map NotifyRecord.undecided =
        ps.map fun p => ⟨ev, p, .approve, .ageable, none⟩ := by
      have hrs : ∀ r ∈ ps.map fun p => (⟨ev, p, .approve, .ageable, none⟩ : NotifyRecord),
          r.decision = .approve := by simp
      rw [notifyUser_undecided, (updateApprovedList_spec h hrs).2.records, List.map_map]
      rfl
    have hparams := congrArg (List.map NotifyRecord.params) hrecords
    rw [List.map_map, List.map_map] at hparams
    have hps : (NotifyRecord.params ∘ fun p => (⟨ev, p, .approve, .ageable, none⟩ : NotifyRecord)) = id := rfl
    rw [hps, List.map_id] at hparams
    unfold approvedOf approvedList
    rw [List.map_map]
    conv => rhs; rw [← hparams]
    exact List.filter_sublist.map _

theorem approvedOf_nodup (env : Env) {L : Index} (h : FdbInv s L) (ev : RecordEvent)
    (hnd : (ps.map MacParams.key).Nodup) :
    ((approvedOf env s ev ps).map fun e => e.macParams.key).Nodup := by
  have hsub := (approvedOf_spec env h ev ps).2.map MacParams.key
  rw [List.map_map] at hsub
  exact hnd.sublist hsub

theorem secondPass_none_failed (cmd : AccessCmd) (es : List MacEntry) (lib : Lib) (err : Int) :
    (secondPass env cmd [] lib err es).2 = es.foldl (fun lib e => (applyApproved env cmd lib e).2) lib := by
  induction es generalizing lib err with
  | nil => rfl
  | cons e es ih =>
    rw [secondPass, List.foldl_cons, ← ih (applyApproved env cmd lib e).2 (applyApproved env cmd lib e).1]
    rfl

/-- **The entries that the HAL refuses are all that is left to apply**, and are skipped. -/
theorem secondPass_all_failed (cmd : AccessCmd) {failed : List MacEntry} (es : List MacEntry) (lib : Lib)
    (err : Int) (h : ∀ e ∈ es, e ∈ failed) : secondPass env cmd failed lib err es = (err, lib) := by
  induction es with
  | nil => rfl
  | cons e es ih =>
    have hfailed : failed.any (fun f => f.macParams == e.macParams) = true :=
      List.any_eq_true.mpr ⟨e, h e (List.mem_cons_self ..), by simp⟩
    rw [secondPass, if_pos hfailed]
    exact ih (fun x hx => h x (List.mem_cons_of_mem _ hx))

/-- **What a batch leaves**: after a success of the HAL the approved entries are applied, after an error
nothing is. -/
theorem handle_batch_spec (hhal : env.Reports) {lib : Lib} {L : Index} (h : FdbInv lib.fdb L)
    (ev : RecordEvent) (ps : List MacParams) :
    if MAX_EVENT_INFO_SIZE < ps.length then ctrlLearnHandleOesEvent env lib (ps.map ev.event) = none
    else ∃ err, ctrlLearnHandleOesEvent env lib (ps.map ev.event) = some (err,
      if (env.hal ev.cmd (approvedOf env lib.fdb ev ps)).1 = 0 then
        (approvedOf env lib.fdb ev ps).foldl (fun lib e => (applyApproved env ev.cmd lib e).2) lib
      else lib) := by
  have hsome : ∀ e ∈ ps.map ev.event, e.record.isSome := by
    intro e he
    obtain ⟨p, -, rfl⟩ := List.mem_map.mp he
    cases ev <;> rfl
  unfold ctrlLearnHandleOesEvent
  rw [firstPass_collects env _ _ hsome, Option.bind_some, recordsOf_batch]
  simp only [List.nil_append, List.length_map]
  split
  · rfl
  refine ⟨_, Option.some_inj.mpr (Prod.ext rfl ?_)⟩
  have hupd : (updateApprovedList lib.fdb (ps.map fun p => ⟨ev, p, .approve, .ageable, none⟩)).1 = 0 := by
    rw [updateApprovedList_eq h]
  have hout : approvedList (notifyUser env 0 (updateApprovedList lib.fdb
      (ps.map fun p => ⟨ev, p, .approve, .ageable, none⟩)).2).2 = approvedOf env lib.fdb ev ps := rfl
  unfold finishBatch
  simp only [hupd, ne_eq, not_true_eq_false, if_false, hout, Bool.false_or, Bool.not_not]
  by_cases hps : ps = []
  · subst hps
    have hnil : approvedOf env lib.fdb ev [] = [] := by
      have hsub := (approvedOf_spec env h ev []).2
      simpa using hsub
    rw [hnil]
    simp
  have hne : (ps.map fun p => (⟨ev, p, .approve, .ageable, none⟩ : NotifyRecord)).isEmpty = false := by
    simpa using hps
  rw [hne, batchCmd_batch ev ps hps]
  simp only [Bool.false_eq_true, if_false]
  by_cases hnil : approvedOf env lib.fdb ev ps = []
  · rw [hnil]
    simp
  rw [if_neg hnil]
  by_cases hok : (env.hal ev.cmd (approvedOf env lib.fdb ev ps)).1 = 0
  · rw [if_neg (by simp [hok]), if_neg (by simp [hok]), if_pos hok,
      (hhal ev.cmd (approvedOf env lib.fdb ev ps)).1 hok]
    exact secondPass_none_failed _ _ _ _
  · rw [if_neg hok]
    simp only [hok, not_false_eq_true, if_true]
    rw [secondPass_all_failed _ _ _ _ (fun e he => he)]
    split <;> rfl

theorem accepted_of_ok (hok : (env.hal ev.cmd (approvedOf env s ev ps)).1 = 0) :
    accepted env s ev ps = approvedOf env s ev ps := by
  unfold accepted refused
  rw [if_neg (by simp [hok])]
  simp

theorem accepted_nodup (env : Env) {L : Index} (h : FdbInv s L) (ev : RecordEvent)
    (hnd : (ps.map MacParams.key).Nodup) :
    ((accepted env s ev ps).map fun e => e.macParams.key).Nodup :=
  (approvedOf_nodup env h ev hnd).sublist (List.filter_sublist.map _)

theorem exists_result_iff {α β : Type} {a : α} {b : β} {P : β → Prop} :
    (∃ a' b', some (a, b) = some (a', b') ∧ P b') ↔ P b := by
  constructor
  · rintro ⟨a', b', he, hp⟩
    cases he
    exact hp
  · exact fun hp => ⟨a, b, rfl, hp⟩

/-- The adds of the approved entries. -/
theorem learnAll_updated_iff {lib : Lib} {L : Index} (h : FdbInv lib.fdb L) {es : List MacEntry}
    (hes : ∀ e ∈ es, Learned e) (hnd : (es.map fun e => e.macParams.key).Nodup) :
    (∀ k, (es.foldl (fun lib e => (addApproved env lib e).2) lib).fdb.view k =
      updatedView .learn lib.fdb es k) ↔ newCount lib.fdb es ≤ lib.fdb.free := by
  obtain ⟨hother, hroom, hfull⟩ := addEach_view env es h hes hnd
  rw [forall_updatedView_iff hnd]
  constructor
  · rintro ⟨-, hkeys⟩
    apply Nat.le_of_not_lt
    intro hlt
    obtain ⟨e, he, hnone⟩ := hfull hlt
    rw [hkeys e he] at hnone
    cases hnone
  · intro hle
    exact ⟨hother, hroom hle⟩

/-- The deletes of the approved entries. -/
theorem ageAll_updated_iff {lib : Lib} {L : Index} (h : FdbInv lib.fdb L) {es : List MacEntry}
    (hnd : (es.map fun e => e.macParams.key).Nodup) :
    (∀ k, (es.foldl (fun lib e => (deleteApproved env lib e).2) lib).fdb.view k =
      updatedView .age lib.fdb es k) ↔ ∀ e ∈ es, (lib.fdb.cells e.macParams.key).pinned = false := by
  rw [forall_updatedView_iff hnd]
  constructor
  · rintro ⟨-, hkeys⟩ e he
    have hkey := hkeys e he
    rw [view_eq, deleteAll_cells env es h, if_pos ⟨e, he, rfl⟩] at hkey
    exact (Cell.drop_value_eq_none_iff _).mp hkey
  · intro hfree
    refine ⟨fun k hk => ?_, fun e he => ?_⟩
    · rw [view_eq, deleteAll_cells env es h, if_neg, ← view_eq]
      rintro ⟨e, he, heq⟩
      exact hk e he heq
    · rw [view_eq, deleteAll_cells env es h, if_pos ⟨e, he, rfl⟩]
      exact (Cell.drop_value_eq_none_iff _).mpr (hfree e he)

end Batch

/-- **A batch is applied as the HAL accepted it**, exactly when the HAL refuses nothing and the FDB takes
every entry, or what the HAL accepts beside the entries it refuses is in the FDB already. -/
theorem accepted_applied_iff (env : Env) (hhal : env.Reports) (ops : List FdbOp) (lib : Lib)
    (hlib : lib.fdb = run Fdb.init ops) (ev : RecordEvent) (ps : List MacParams)
    (hnd : (ps.map MacParams.key).Nodup) :
    AppliesAccepted env lib ev ps ↔ TakesAccepted env lib.fdb ev ps := by
  obtain ⟨L, h⟩ := FdbInv.run ops emptyDb_init.inv
  rw [← hlib] at h
  have hspec := handle_batch_spec hhal h ev ps
  unfold TakesAccepted AppliesAccepted
  split at hspec
  · rename_i hlong
    rw [hspec]
    refine iff_of_false ?_ (fun ht => Nat.not_lt.mpr ht.1 hlong)
    rintro ⟨err, lib', hrun, -⟩
    cases hrun
  · rename_i hshort
    obtain ⟨err, hrun⟩ := hspec
    rw [and_iff_right (Nat.le_of_not_lt hshort), hrun, exists_result_iff]
    by_cases hok : (env.hal ev.cmd (approvedOf env lib.fdb ev ps)).1 = 0
    · rw [if_pos hok, if_pos hok, accepted_of_ok hok]
      have hdistinct := approvedOf_nodup env h ev hnd
      cases ev with
      | learn => exact learnAll_updated_iff h (approvedOf_spec env h .learn ps).1 hdistinct
      | age => exact ageAll_updated_iff h hdistinct
    · rw [if_neg hok, if_neg hok, forall_updatedView_iff (accepted_nodup env h ev hnd)]
      exact and_iff_right (fun _ _ => rfl)

/-- A HAL that refuses the entries of MAC address 2. -/
def refusingEnv : Env :=
  ⟨fun _ es => if es.any (fun e => e.macParams.macAddr.o5 == 2) then
    (-EXFULL, es.filter fun e => e.macParams.macAddr.o5 == 2) else (0, es), none, none⟩

theorem refusingEnv_reports : refusingEnv.Reports := by
  intro cmd es
  unfold refusingEnv
  dsimp only
  split
  · exact ⟨fun hc => by simp [EXFULL] at hc, List.filter_sublist⟩
  · exact ⟨fun _ => rfl, List.Sublist.refl es⟩

/-- A refresh of a stored station beside a LEARN that the HAL refuses. -/
theorem accepted_applied_iff_refused :
    accepted refusingEnv (run Fdb.init [.add (some (station 7 1 5))]) .learn
      [(station 7 1 5).macParams, (station 7 2 6).macParams] = [station 7 1 5] ∧
    (AppliesAccepted refusingEnv ⟨run Fdb.init [.add (some (station 7 1 5))], true, []⟩ .learn
        [(station 7 1 5).macParams, (station 7 2 6).macParams] ↔
      TakesAccepted refusingEnv (run Fdb.init [.add (some (station 7 1 5))]) .learn
        [(station 7 1 5).macParams, (station 7 2 6).macParams]) :=
  ⟨by decide +kernel, accepted_applied_iff refusingEnv refusingEnv_reports [.add (some (station 7 1 5))]
    ⟨run Fdb.init [.add (some (station 7 1 5))], true, []⟩ rfl .learn
    [(station 7 1 5).macParams, (station 7 2 6).macParams] (by decide)⟩

/-- **One entry of a batch is refused**: the other, which the HAL took, is not stored. -/
theorem refused_entry_drops_others : ¬ ∀ (env : Env), env.Reports → ∀ (ops : List FdbOp) (lib : Lib),
    lib.fdb = run Fdb.init ops → ∀ (ev : RecordEvent) (ps : List MacParams),
    (∀ p ∈ ps, p.vid.toNat < MAX_VLAN_ENTRIES ∧ p.logPort.toNat < 2 ^ 32) →
    (ps.map MacParams.key).Nodup → AppliesAccepted env lib ev ps := by
  intro hall
  obtain ⟨err, lib', hrun, hview⟩ := hall refusingEnv refusingEnv_reports [] ⟨Fdb.init, true, []⟩ rfl .learn
    [⟨7, ⟨0, 0, 0, 0, 0, 1⟩, 5, .dynamic⟩, ⟨7, ⟨0, 0, 0, 0, 0, 2⟩, 5, .dynamic⟩] (by decide) (by decide)
  have hkey := hview (MacParams.key ⟨7, ⟨0, 0, 0, 0, 0, 1⟩, 5, .dynamic⟩)
  have hleft : (ctrlLearnHandleOesEvent refusingEnv ⟨Fdb.init, true, []⟩
      ([⟨7, ⟨0, 0, 0, 0, 0, 1⟩, 5, .dynamic⟩, ⟨7, ⟨0, 0, 0, 0, 0, 2⟩, 5, .dynamic⟩].map
        RecordEvent.learn.event)).map (fun r =>
      r.2.fdb.view (MacParams.key ⟨7, ⟨0, 0, 0, 0, 0, 1⟩, 5, .dynamic⟩)) = some none := by decide
  rw [hrun, Option.map_some, hkey] at hleft
  revert hleft
  decide

end MlnxLib.CtrlLearn
