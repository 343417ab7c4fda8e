import MlnxLib.CtrlLearn.Approval

/-!
# What the library does to the FDB

All that the calls of `lib_ctrl_learn.c` do to the FDB are adds, deletes and writes of cookies.  A property
that these keep is kept by the batches of events and by the set call, whatever the HAL and the callbacks do.

* `KeptBy` — the property, with what it asks of the vid and the port of an entry that is added.

Principal results: `KeptBy.handleOesEvent`, `KeptBy.macAddrSet` — the two calls that change the FDB.
-/

set_option autoImplicit false

namespace MlnxLib.CtrlLearn

/-- A property of the FDB that its writes keep, if the entries that are added are `Ok`. -/
structure KeptBy (P : Fdb → Prop) (Ok : UInt16 → UInt64 → Prop) : Prop where
  add : ∀ {s} (e : MacEntry), P s → Ok e.macParams.vid e.macParams.logPort → P (fdbUcDbAddRecord s (some e)).2
  delete : ∀ {s} (i : Nat), P s → P (fdbUcDbDeleteRecord s (some i)).2
  cookie : ∀ {s} (i : Nat) (cookie : Option Nat), P s → P (setRecord s i { s.records i with cookie := cookie })

/-- The entry may be added. -/
def MacParams.Ok (Ok : UInt16 → UInt64 → Prop) (p : MacParams) : Prop := Ok p.vid p.logPort

/-- The parameters of the LEARN and AGE records of a batch.  The last of them decides whether all are added. -/
def FdbEvent.params : FdbEvent → Option MacParams
  | .learn p => some p
  | .age p => some p
  | _ => none

namespace KeptBy

variable {P : Fdb → Prop} {Ok : UInt16 → UInt64 → Prop} {env : Env} {lib : Lib}

/-! ## Deletes -/

theorem deinitCookie (h : KeptBy P Ok) (hp : P lib.fdb) (i : Nat) : P (deinitCookie env lib i).fdb := by
  unfold CtrlLearn.deinitCookie
  cases env.initDeinitCb with
  | none => exact hp
  | some cb => exact h.cookie i _ hp

theorem deleteRecord (h : KeptBy P Ok) (hp : P lib.fdb) (i : Nat) : P (deleteRecord env lib i).2.fdb :=
  h.delete i (h.deinitCookie hp i)

theorem flushRecord (h : KeptBy P Ok) (hp : P lib.fdb) (err : Int) (i : Nat) :
    P (flushRecord env lib err i).2.fdb := by
  unfold CtrlLearn.flushRecord
  split
  · exact h.deleteRecord hp i
  · exact hp

/-- The flush loops, along any walk. -/
theorem flushLoop (h : KeptBy P Ok) {next : Fdb → Nat → Option (Int × Option Nat)} (fuel : Nat) {lib : Lib}
    (hp : P lib.fdb) {err : Int} {macRecord tmpRecord : Option Nat} {r : Int × Lib}
    (hr : flushLoop env next fuel lib err macRecord tmpRecord = some r) : P r.2.fdb := by
  induction fuel generalizing lib err macRecord tmpRecord with
  | zero => cases hr
  | succ fuel ih =>
    cases macRecord with
    | none =>
      cases hr
      exact hp
    | some i =>
      obtain ⟨q, -, hq⟩ := Option.bind_eq_some_iff.mp hr
      exact ih (h.flushRecord hp q.1 i) hq

theorem flushDbByFilter (h : KeptBy P Ok) (hp : P lib.fdb) {filter : KeyFilter} {r : Int × Lib}
    (hr : ctrlLearnFlushDbByFilter env lib filter = some r) : P r.2.fdb := by
  obtain ⟨q, -, hq⟩ := Option.bind_eq_some_iff.mp hr
  split at hq
  · cases hq
    exact hp
  · exact h.flushLoop _ hp hq

theorem handleFlushAll (h : KeptBy P Ok) (hp : P lib.fdb) {r : Int × Lib}
    (hr : ctrlLearnHandleFlushAll env lib = some r) : P r.2.fdb := by
  unfold ctrlLearnHandleFlushAll at hr
  dsimp only at hr
  split at hr
  · cases hr
    exact hp
  · exact h.flushLoop _ hp hr

/-! ## A batch of events -/

/-- **One event of the first pass.** -/
theorem firstPassStep (h : KeptBy P Ok) {p p' : FirstPass} (hp : P p.lib.fdb) {e : FdbEvent}
    (hstep : firstPassStep env p e = some p') :
    P p'.lib.fdb ∧ p'.records.map NotifyRecord.params = p.records.map NotifyRecord.params ++ e.params.toList := by
  have hfilter : ∀ {filter : KeyFilter},
      (ctrlLearnFlushDbByFilter env p.lib filter).map (fun r => { p with lib := r.2 }) = some p' →
      P p'.lib.fdb ∧ p'.records = p.records := by
    intro filter hrun
    obtain ⟨r, hr, rfl⟩ := Option.map_eq_some_iff.mp hrun
    exact ⟨h.flushDbByFilter hp hr, rfl⟩
  cases e with
  | learn q | age q =>
    cases hstep
    exact ⟨hp, List.map_append⟩
  | other =>
    cases hstep
    exact ⟨hp, (List.append_nil _).symm⟩
  | flushAll =>
    obtain ⟨r, hr, rfl⟩ := Option.map_eq_some_iff.mp hstep
    exact ⟨h.handleFlushAll hp hr, (List.append_nil _).symm⟩
  | flushVid vid | flushPort port | flushPortVid port vid =>
    obtain ⟨hp', hrecords⟩ := hfilter hstep
    refine ⟨hp', ?_⟩
    rw [hrecords]
    exact (List.append_nil _).symm

theorem firstPass (h : KeptBy P Ok) (events : List FdbEvent) {p p' : FirstPass} (hp : P p.lib.fdb)
    (hrun : firstPass env p events = some p') : P p'.lib.fdb ∧
      p'.records.map NotifyRecord.params = p.records.map NotifyRecord.params ++ events.filterMap FdbEvent.params := by
  induction events generalizing p with
  | nil =>
    cases hrun
    exact ⟨hp, (List.append_nil _).symm⟩
  | cons e events ih =>
    obtain ⟨q, hq, hrest⟩ := Option.bind_eq_some_iff.mp hrun
    obtain ⟨hpq, hrecords⟩ := h.firstPassStep hp hq
    obtain ⟨hp', hrecords'⟩ := ih hpq hrest
    refine ⟨hp', ?_⟩
    rw [hrecords', hrecords, List.append_assoc, List.filterMap_cons]
    cases e.params <;> rfl

theorem applyApproved (h : KeptBy P Ok) (hp : P lib.fdb) (accessCmd : AccessCmd) {e : MacEntry}
    (he : accessCmd = .add → e.macParams.Ok Ok) : P (applyApproved env accessCmd lib e).2.fdb := by
  unfold CtrlLearn.applyApproved
  split
  · rename_i hadd
    rw [addApproved_fdb]
    exact h.add _ hp (he hadd)
  · unfold deleteApproved
    split
    · exact h.deleteRecord hp _
    · exact hp

theorem secondPass (h : KeptBy P Ok) {accessCmd : AccessCmd} (failed : List MacEntry) (es : List MacEntry)
    {lib : Lib} (err : Int) (hp : P lib.fdb)
    (hes : accessCmd = .add → ∀ e ∈ es, e ∉ failed → e.macParams.Ok Ok) :
    P (secondPass env accessCmd failed lib err es).2.fdb := by
  induction es generalizing lib err with
  | nil => exact hp
  | cons e es ih =>
    have hrest := fun hadd e' he' => hes hadd e' (List.mem_cons_of_mem _ he')
    rw [CtrlLearn.secondPass]
    split
    · exact ih err hp hrest
    · rename_i hnot
      refine ih _ (h.applyApproved hp accessCmd fun hadd => hes hadd e (List.mem_cons_self ..) fun hmem => ?_) hrest
      exact hnot (List.any_eq_true.mpr ⟨e, hmem, beq_self_eq_true _⟩)

/-- Decisions leave the parameters of the records. -/
theorem params_of_undecided {rs rs' : List NotifyRecord}
    (h : rs'.map NotifyRecord.undecided = rs.map NotifyRecord.undecided) :
    rs'.map NotifyRecord.params = rs.map NotifyRecord.params := by
  have hparams := congrArg (List.map NotifyRecord.params) h
  rw [List.map_map, List.map_map] at hparams
  exact hparams

theorem params_updateApprovedList (s : Fdb) (rs : List NotifyRecord) :
    (updateApprovedList s rs).2.map NotifyRecord.params = rs.map NotifyRecord.params := by
  unfold updateApprovedList
  dsimp only
  split
  · rfl
  split
  · exact params_of_undecided (denyAfter_records rs 0)
  · rfl

/-- **A batch of events**: after a success the HAL leaves entries of its list, or entries that are `Ok`. -/
theorem handleOesEvent (h : KeptBy P Ok) {events : List FdbEvent} {r : Int × Lib} (hp : P lib.fdb)
    (hhal : ∀ cmd es, (env.hal cmd es).1 = 0 → ∀ e ∈ (env.hal cmd es).2, e ∈ es ∨ e.macParams.Ok Ok)
    (hevents : ∀ e ∈ events, ∀ p ∈ e.params, p.Ok Ok)
    (hrun : ctrlLearnHandleOesEvent env lib events = some r) : P r.2.fdb := by
  unfold ctrlLearnHandleOesEvent at hrun
  obtain ⟨p, hfirst, hrun⟩ := Option.bind_eq_some_iff.mp hrun
  split at hrun
  · cases hrun
  cases hrun
  obtain ⟨hp', hrecords⟩ := h.firstPass events hp hfirst
  rw [List.map_nil, List.nil_append] at hrecords
  unfold finishBatch
  dsimp only
  generalize hupd : notifyUser env _ _ = upd
  split
  · exact hp'
  split
  · exact hp'
  have hpass : P (CtrlLearn.secondPass env p.accessCmd
      (if (env.hal p.accessCmd (approvedList upd.2)).1 ≠ 0 then (env.hal p.accessCmd (approvedList upd.2)).2 else [])
      p.lib (env.hal p.accessCmd (approvedList upd.2)).1 (env.hal p.accessCmd (approvedList upd.2)).2).2.fdb := by
    refine h.secondPass _ _ _ hp' fun _ e he hnot => ?_
    by_cases hok : (env.hal p.accessCmd (approvedList upd.2)).1 = 0
    · -- the entries are those of the events
      rcases hhal _ _ hok e he with hlist | hother
      swap
      · exact hother
      obtain ⟨n, hn, rfl⟩ := List.mem_map.mp hlist
      have hparams : n.params ∈ events.filterMap FdbEvent.params := by
        rw [← hrecords, ← params_updateApprovedList p.lib.fdb p.records,
          ← params_of_undecided (notifyUser_undecided env _ _), hupd]
        exact List.mem_map_of_mem (List.mem_of_mem_filter hn)
      obtain ⟨e, he, hep⟩ := List.mem_filterMap.mp hparams
      exact hevents e he _ hep
    · rw [if_pos hok] at hnot
      exact absurd he hnot
  split
  · exact hpass
  · exact hpass

/-! ## The set call -/

theorem addRecord (h : KeptBy P Ok) (env : Env) (hp : P lib.fdb) {r : NotifyRecord} (hr : r.params.Ok Ok) :
    P (addRecord env lib r).2.fdb := by
  unfold CtrlLearn.addRecord
  split
  · exact h.add _ hp hr
  · have hcookie := initCookie_fdb env lib
    generalize initCookie env lib = q at hcookie
    obtain ⟨err, cookie, lib'⟩ := q
    rw [← show lib'.fdb = lib.fdb from hcookie] at hp
    dsimp only
    split
    · exact hp
    · exact h.add _ hp hr

theorem removeRecord (h : KeptBy P Ok) (env : Env) (hp : P lib.fdb) (r : NotifyRecord) :
    P (removeRecord env lib r).2.2.fdb := by
  unfold CtrlLearn.removeRecord
  split
  · exact h.deleteRecord hp _
  · exact hp

theorem updateDb (h : KeptBy P Ok) {accessCmd : AccessCmd} (failed : List MacEntry) (rs : List NotifyRecord)
    {lib : Lib} (err : Int) (hp : P lib.fdb) (hrs : accessCmd = .add → ∀ r ∈ rs, r.params.Ok Ok) :
    P (updateDb env accessCmd failed lib err rs).2.fdb := by
  induction rs generalizing lib err with
  | nil => exact hp
  | cons r rs ih =>
    have hrest := fun hadd r' hr' => hrs hadd r' (List.mem_cons_of_mem _ hr')
    rw [CtrlLearn.updateDb]
    split
    · exact ih err hp hrest
    split
    · rename_i hadd
      have hone := h.addRecord env hp (hrs hadd r (List.mem_cons_self ..))
      dsimp only
      split
      · exact hone
      · exact ih _ hone hrest
    · have hone := h.removeRecord env hp r
      dsimp only
      split
      · exact hone
      · exact ih _ hone hrest

/-- The records of the set call are those of its entries. -/
theorem params_collectRecords (s : Fdb) (accessCmd : AccessCmd) (cookie : Option Nat) (ms : List MacEntry) :
    ∀ r ∈ collectRecords s accessCmd cookie ms, r.params ∈ ms.map MacEntry.macParams := by
  induction ms generalizing cookie with
  | nil => nofun
  | cons m ms ih =>
    have hcons : ∀ (r : NotifyRecord) cookie', r.params = m.macParams →
        ∀ r' ∈ r :: collectRecords s accessCmd cookie' ms, r'.params ∈ (m :: ms).map MacEntry.macParams := by
      intro r cookie' hr r' hr'
      rcases List.mem_cons.mp hr' with rfl | hr'
      · rw [hr]
        exact List.mem_cons_self ..
      · exact List.mem_cons_of_mem _ (ih cookie' r' hr')
    have hskip : ∀ cookie', ∀ r' ∈ collectRecords s accessCmd cookie' ms,
        r'.params ∈ (m :: ms).map MacEntry.macParams :=
      fun cookie' r' hr' => List.mem_cons_of_mem _ (ih cookie' r' hr')
    rw [collectRecords]
    split
    · split
      · exact hcons _ cookie rfl
      · exact hskip cookie
    · dsimp only
      split
      · split
        · exact hskip cookie
        · exact hcons _ _ rfl
      · exact hcons _ cookie rfl

/-- **The set call**, whatever the HAL answers. -/
theorem macAddrSet (h : KeptBy P Ok) {accessCmd : AccessCmd} {macEntry : Option (List MacEntry)} {r : SetResult}
    (hp : P lib.fdb) (hentries : accessCmd = .add → ∀ ms ∈ macEntry, ∀ m ∈ ms, m.macParams.Ok Ok)
    (hrun : ctrlLearnApiFdbUcMacAddrSet env lib accessCmd macEntry = some r) : P r.lib.fdb := by
  unfold ctrlLearnApiFdbUcMacAddrSet at hrun
  split at hrun
  · cases hrun
    exact hp
  cases macEntry with
  | none =>
    cases hrun
    exact hp
  | some ms =>
    dsimp only at hrun
    split at hrun
    · cases hrun
      exact hp
    split at hrun
    · cases hrun
      exact hp
    split at hrun
    · cases hrun
      exact hp
    split at hrun
    · cases hrun
    split at hrun
    · cases hrun
      exact hp
    split at hrun
    · cases hrun
      exact hp
    split at hrun
    · cases hrun
      exact hp
    cases hrun
    refine h.updateDb _ _ _ hp fun hadd n hn => ?_
    have hparams : n.params ∈ (collectRecords lib.fdb accessCmd none ms).map NotifyRecord.params := by
      rw [← params_updateApprovedList lib.fdb, ← params_of_undecided (notifyUser_undecided env 0 _)]
      exact List.mem_map_of_mem hn
    obtain ⟨n', hn', heq⟩ := List.mem_map.mp hparams
    obtain ⟨m, hm, hmp⟩ := List.mem_map.mp (params_collectRecords _ _ _ _ n' hn')
    rw [← heq, ← hmp]
    exact hentries hadd ms rfl m hm

end KeptBy

end MlnxLib.CtrlLearn
