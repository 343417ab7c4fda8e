import MlnxLib.CtrlLearn.SetCall

/-!
# The fixed-size arrays

The indices that the calls use into the arrays of `lib_ctrl_learn.c` and into `fdb_vlan_list`, replayed
beside the model: a trace has one access for every index, with the length the array is declared or
allocated with.  A trace ends where the source has left an array behind it, or follows a pointer to no record.

* `Access` — an index into an array of a length.
* `setAccesses`, `simulateAccesses`, `handleAccesses`, `getAccesses` — the traces of the four entry points.
* `ApiCall.Fits` — what a call and the FDB must be for the arrays to be kept.

Principal results: `add_kept`, `delete_kept` — an add and a delete keep to `fdb_vlan_list`; `handle_kept_iff` — a
batch of events does so exactly when its FLUSH_VID events have a vid with a list; `arrays_kept_iff` — a call keeps
to the arrays exactly when it fits.
-/

set_option autoImplicit false

namespace MlnxLib.CtrlLearn

/-! ## Accesses -/

/-- The arrays of a fixed length. -/
inductive FixedArray where
  | recordsArr
  | eventInfoSim
  | approvedMacEntryList
  | macsFailedList
  | fdbVlanList
  deriving DecidableEq, Repr

/-- An index into an array, and the length of the array. -/
structure Access where
  array : FixedArray
  index : Nat
  length : Nat
  deriving DecidableEq, Repr

def Access.InBounds (a : Access) : Prop := a.index < a.length

/-- A loop over the first `n` elements of an array. -/
def accessUpTo (array : FixedArray) (n length : Nat) : List Access :=
  (List.range n).map fun i => ⟨array, i, length⟩

/-- The accesses to the arrays `covers` names are in bounds. -/
def Kept (covers : FixedArray → Bool) (accesses : List Access) : Prop :=
  ∀ a ∈ accesses, covers a.array = true → a.InBounds

/-! ## The traces of the database -/

/-- `fdb_vlan_list[vid]`. -/
def vlanAccess (vid : UInt16) : Access := ⟨.fdbVlanList, vid.toNat, MAX_VLAN_ENTRIES⟩

/-- `fdb_uc_db_filter_add_entry`. -/
def filterAddAccesses (s : Fdb) (i : Nat) : List Access :=
  if !s.filtersInitiated then [] else
  if MAX_VLAN_ENTRIES ≤ (s.records i).macParams.vid.toNat then [] else
  [vlanAccess (s.records i).macParams.vid]

/-- `fdb_uc_db_add_record`: only a record that is created is linked to the list of its vid. -/
def addAccesses (s : Fdb) (e : MacEntry) : List Access :=
  if !s.fdbInitiated then [] else
  match fdbUcDbGetRecordByKey s e.macParams.key with
  | (err, none) =>
    if err = -ENOENT then
      match fdbUcDbCreateRecord s e.macParams.key with
      | (_, s, some i) => filterAddAccesses (setRecord s i e) i
      | (_, _, none) => []
    else []
  | (_, some _) => []

/-- `fdb_uc_db_delete_record`. -/
def deleteAccesses (s : Fdb) (i : Nat) : List Access :=
  if !s.fdbInitiated then [] else
  if !s.filtersInitiated then [] else
  if (s.links (.entry .vid i)).next.isSome && (s.links (.entry .vid i)).prev.isSome then
    [vlanAccess (s.records i).macParams.vid]
  else []

/-- `fdb_uc_db_filter_get_first_entry`. -/
def getFirstAccesses (s : Fdb) (filter : KeyFilter) : List Access :=
  if !s.filtersInitiated then [] else
  match filter.filterByLogPort, filter.filterByVid with
  | false, true => [vlanAccess filter.vid]
  | _, _ => []

/-! ## The traces of the event handler -/

/-- `deleteRecord`. -/
def deleteRecordAccesses (env : Env) (lib : Lib) (i : Nat) : List Access :=
  deleteAccesses (deinitCookie env lib i).fdb i

/-- `flushRecord`. -/
def flushRecordAccesses (env : Env) (lib : Lib) (i : Nat) : List Access :=
  if (lib.fdb.records i).type ≠ .static then deleteRecordAccesses env lib i else []

/-- `flushLoop`. -/
def flushLoopAccesses (env : Env) (next : Fdb → Nat → Option (Int × Option Nat)) :
    Nat → Lib → Option Nat → Option Nat → List Access
  | 0, _, _, _ => []
  | fuel + 1, lib, macRecord, tmpRecord =>
    match macRecord with
    | none => []
    | some i =>
      match next lib.fdb i with
      | none => []
      | some r =>
        let tmpRecord := if r.1 ≠ 0 then tmpRecord else r.2
        flushRecordAccesses env lib i ++
          flushLoopAccesses env next fuel (flushRecord env lib r.1 i).2 tmpRecord tmpRecord

/-- `ctrl_learn_flush_db_by_filter`. -/
def flushFilterAccesses (env : Env) (lib : Lib) (filter : KeyFilter) : List Access :=
  getFirstAccesses lib.fdb filter ++
    match fdbUcDbFilterGetFirstEntry lib.fdb filter with
    | none => []
    | some r =>
      if r.1 ≠ 0 then [] else
      flushLoopAccesses env (fun s i => fdbUcDbFilterGetNextEntry s filter r.2.1 (some i)) FLUSH_FUEL lib
        r.2.2 none

/-- `ctrl_learn_handle_flush_all`. -/
def flushAllAccesses (env : Env) (lib : Lib) : List Access :=
  let r := fdbUcDbGetFirstRecord lib.fdb
  if r.1 ≠ 0 then [] else
  flushLoopAccesses env (fun s i => some (fdbUcDbNextRecord s (some i))) FLUSH_FUEL lib r.2 none

/-- One event of the first pass. -/
def firstPassStepAccesses (env : Env) (p : FirstPass) : FdbEvent → List Access
  | .learn _ => [⟨.recordsArr, p.records.length, MAX_EVENT_INFO_SIZE⟩]
  | .age _ => [⟨.recordsArr, p.records.length, MAX_EVENT_INFO_SIZE⟩]
  | .flushAll => flushAllAccesses env p.lib
  | .flushVid vid => flushFilterAccesses env p.lib (vidFilter vid)
  | .flushPort port => flushFilterAccesses env p.lib (portFilter port)
  | .flushPortVid port vid => flushFilterAccesses env p.lib (portVidFilter port vid)
  | .other => []

/-- The first loop of `ctrl_learn_handle_oes_event`. -/
def firstPassAccesses (env : Env) : FirstPass → List FdbEvent → List Access
  | _, [] => []
  | p, e :: es => firstPassStepAccesses env p e ++
      match firstPassStep env p e with
      | none => []
      | some p => firstPassAccesses env p es

/-- One approved entry of a batch. -/
def applyApprovedAccesses (env : Env) (accessCmd : AccessCmd) (lib : Lib) (e : MacEntry) : List Access :=
  if accessCmd = .add then
    addAccesses lib.fdb ⟨e.macParams, (initCookie env lib).2.1, fdbType e.macParams.entryType⟩
  else
    match fdbUcDbGetRecordByKey lib.fdb e.macParams.key with
    | (_, some i) => deleteRecordAccesses env lib i
    | (_, none) => []

/-- The second loop of `ctrl_learn_handle_oes_event`. -/
def secondPassAccesses (env : Env) (accessCmd : AccessCmd) (failed : List MacEntry) :
    Lib → List MacEntry → List Access
  | _, [] => []
  | lib, e :: es =>
    if failed.any (fun f => f.macParams == e.macParams) then secondPassAccesses env accessCmd failed lib es
    else applyApprovedAccesses env accessCmd lib e ++
      secondPassAccesses env accessCmd failed (applyApproved env accessCmd lib e).2 es

/-- What follows the first pass. -/
def finishBatchAccesses (env : Env) (p : FirstPass) : List Access :=
  let upd := updateApprovedList p.lib.fdb p.records
  let upd := notifyUser env (if upd.1 ≠ 0 then -EPERM else 0) upd.2
  let approved := approvedList upd.2
  accessUpTo .recordsArr p.records.length MAX_EVENT_INFO_SIZE ++
  accessUpTo .approvedMacEntryList approved.length MAX_EVENT_INFO_SIZE ++
  if !p.isLearnedOrAgedEvent then [] else
  if approved = [] then [] else
  let hal := env.hal p.accessCmd approved
  let failed := if hal.1 ≠ 0 then hal.2 else []
  accessUpTo .approvedMacEntryList hal.2.length MAX_EVENT_INFO_SIZE ++
  accessUpTo .macsFailedList failed.length MAX_EVENT_INFO_SIZE ++
  secondPassAccesses env p.accessCmd failed p.lib hal.2

/-- `ctrl_learn_handle_oes_event`. -/
def handleAccesses (env : Env) (lib : Lib) (eventInfo : List FdbEvent) : List Access :=
  firstPassAccesses env ⟨lib, [], .add, false⟩ eventInfo ++
    match firstPass env ⟨lib, [], .add, false⟩ eventInfo with
    | none => []
    | some p => if MAX_EVENT_INFO_SIZE < p.records.length then [] else finishBatchAccesses env p

/-! ## The traces of the API -/

/-- `ctrl_learn_simulate_oes_event`: its return value and the events it leaves in `event_info_sim`.  It wakes the
thread that handles them when it returns 0. -/
def ctrlLearnSimulateOesEvent (accessCmd : AccessCmd) (macEntry : Option (List MacEntry)) :
    Int × List FdbEvent :=
  match macEntry with
  | none => (-EINVAL, [])
  | some ms =>
    if ms = [] then (-EINVAL, []) else
    if accessCmd ≠ .add ∧ accessCmd ≠ .delete then (-EINVAL, []) else
    if ms.any (fun m => m.macParams.macAddr.isGroup) then (-EINVAL, []) else
    (0, ms.map fun m => if accessCmd = .add then .learn m.macParams else .age m.macParams)

/-- The call writes the events, and the handler reads them. -/
def simulateAccesses (env : Env) (lib : Lib) (accessCmd : AccessCmd) (macEntry : Option (List MacEntry)) :
    List Access :=
  match ctrlLearnSimulateOesEvent accessCmd macEntry with
  | (err, events) =>
    accessUpTo .eventInfoSim events.length MAX_EVENT_INFO_SIZE ++
    if err ≠ 0 ∨ MAX_EVENT_INFO_SIZE < events.length then [] else
    accessUpTo .eventInfoSim events.length MAX_EVENT_INFO_SIZE ++ handleAccesses env lib events

/-- One approved record of an ADD of the set call. -/
def addRecordAccesses (env : Env) (lib : Lib) (r : NotifyRecord) : List Access :=
  match r.cookie with
  | some c => addAccesses lib.fdb (setEntry r (some c))
  | none =>
    match initCookie env lib with
    | (err, cookie, lib) => if err ≠ 0 then [] else addAccesses lib.fdb (setEntry r cookie)

/-- One approved record of a DELETE of the set call. -/
def removeRecordAccesses (env : Env) (lib : Lib) (r : NotifyRecord) : List Access :=
  match fdbUcDbGetRecordByKey lib.fdb r.params.key with
  | (_, some i) => deleteRecordAccesses env lib i
  | (_, none) => []

/-- The loop that updates the FDB. -/
def updateDbAccesses (env : Env) (accessCmd : AccessCmd) (failed : List MacEntry) :
    Lib → List NotifyRecord → List Access
  | _, [] => []
  | lib, r :: rs =>
    if r.decision ≠ .approve ∨ isFailedMac failed r then updateDbAccesses env accessCmd failed lib rs
    else if accessCmd = .add then
      let a := addRecord env lib r
      addRecordAccesses env lib r ++ if a.1 ≠ 0 then [] else updateDbAccesses env accessCmd failed a.2 rs
    else
      let d := removeRecord env lib r
      removeRecordAccesses env lib r ++ if d.2.1 then [] else updateDbAccesses env accessCmd failed d.2.2 rs

/-- `ctrl_learn_api_fdb_uc_mac_addr_set`.  The approved list is allocated with the count of the caller, the
failed list with the count of the HAL. -/
def setAccesses (env : Env) (lib : Lib) (accessCmd : AccessCmd) (macEntry : Option (List MacEntry)) :
    List Access :=
  if !lib.isCtrlLearnStart then [] else
  match macEntry with
  | none => []
  | some ms =>
    if ms = [] then [] else
    if accessCmd ≠ .add ∧ accessCmd ≠ .delete then [] else
    if ms.any (fun m => m.macParams.macAddr.isGroup) then [] else
    let records := collectRecords lib.fdb accessCmd none ms
    accessUpTo .recordsArr records.length MAX_EVENT_INFO_SIZE ++
    if MAX_EVENT_INFO_SIZE < records.length then [] else
    let upd := updateApprovedList lib.fdb records
    if upd.1 ≠ 0 then [] else
    let upd := notifyUser env 0 upd.2
    if upd.1 ≠ 0 then [] else
    let approved := approvedEntries upd.2
    accessUpTo .approvedMacEntryList approved.length ms.length ++
    if approved = [] then [] else
    let hal := env.hal accessCmd approved
    let failed := if hal.1 ≠ 0 then hal.2 else []
    accessUpTo .approvedMacEntryList hal.2.length ms.length ++
    accessUpTo .macsFailedList failed.length failed.length ++
    updateDbAccesses env accessCmd failed lib upd.2

/-- `ctrl_learn_api_uc_mac_addr_get`: only the first entry of a filter is looked up in `fdb_vlan_list`. -/
def getAccesses (isCtrlLearnInitialized : Bool) (s : Fdb) (accessCmd : AccessCmd) (filter : KeyFilter)
    (first : MacParams) (dataCnt : UInt16) : List Access :=
  if !isCtrlLearnInitialized then [] else
  if dataCnt = 0 then [] else
  if filter.filterByVid && decide (VID_MAX < filter.vid.toNat) then [] else
  match accessCmd with
  | .getFirst => if filter.isSet then getFirstAccesses s filter else []
  | .getNext =>
    match fdbUcDbGetRecordByKey s (fdbUcConvertMacVlanToKey first.macAddr first.vid) with
    | (0, some _) => if filter.isSet then getFirstAccesses s filter else []
    | _ => []
  | _ => []

/-- The calls by which indices come in: those of the API, and a batch of events of the SDK. -/
inductive ApiCall where
  | set (accessCmd : AccessCmd) (macEntry : Option (List MacEntry))
  | simulate (accessCmd : AccessCmd) (macEntry : Option (List MacEntry))
  | oesEvent (eventInfo : List FdbEvent)
  | get (isCtrlLearnInitialized : Bool) (accessCmd : AccessCmd) (filter : KeyFilter) (first : MacParams)
      (dataCnt : UInt16)

def ApiCall.accesses (env : Env) (lib : Lib) : ApiCall → List Access
  | .set accessCmd macEntry => setAccesses env lib accessCmd macEntry
  | .simulate accessCmd macEntry => simulateAccesses env lib accessCmd macEntry
  | .oesEvent eventInfo => handleAccesses env lib eventInfo
  | .get init accessCmd filter first dataCnt => getAccesses init lib.fdb accessCmd filter first dataCnt

/-- The arrays a call is asked about: all of them where the user gives the count, `fdb_vlan_list` elsewhere. -/
def ApiCall.covers : ApiCall → FixedArray → Bool
  | .set _ _, _ => true
  | .simulate _ _, _ => true
  | _, array => array == .fdbVlanList

/-! ## What a call has to be -/

/-- The FLUSH_VID events that the first pass comes to have a vid with a list. -/
def VidsFit (env : Env) (p : FirstPass) (events : List FdbEvent) : Prop :=
  ∀ as vid bs, events = as ++ .flushVid vid :: bs → (firstPass env p as).isSome →
    vid.toNat < MAX_VLAN_ENTRIES

/-- A call that passes the checks has a batch for which there is room, and a batch of events flushes vids that
have a list. -/
def ApiCall.Fits (env : Env) (lib : Lib) : ApiCall → Prop
  | .set accessCmd macEntry => ∀ ms ev, macEntry = some ms → ev.cmd = accessCmd →
      lib.isCtrlLearnStart = true → (∀ m ∈ ms, m.macParams.macAddr.isGroup = false) →
      (ms.filter fun m => !skipped ev (lib.fdb.view m.macParams.key) m).length ≤ MAX_EVENT_INFO_SIZE
  | .simulate accessCmd macEntry => ∀ ms, macEntry = some ms → accessCmd = .add ∨ accessCmd = .delete →
      (∀ m ∈ ms, m.macParams.macAddr.isGroup = false) → ms.length ≤ MAX_EVENT_INFO_SIZE
  | .oesEvent eventInfo => VidsFit env ⟨lib, [], .add, false⟩ eventInfo
  | .get .. => True

/-! ## Rules for traces -/

section Kept

variable {covers : FixedArray → Bool} {xs ys : List Access}

@[simp] theorem kept_nil : Kept covers [] := by simp [Kept]

theorem kept_append : Kept covers (xs ++ ys) ↔ Kept covers xs ∧ Kept covers ys := List.forall_mem_append

theorem kept_singleton {a : Access} : Kept covers [a] ↔ (covers a.array = true → a.InBounds) := by
  simp [Kept]

/-- A loop stays in an array exactly when the array is as long. -/
theorem kept_accessUpTo {array : FixedArray} {n length : Nat} :
    Kept covers (accessUpTo array n length) ↔ (covers array = true → n ≤ length) := by
  unfold Kept accessUpTo Access.InBounds
  simp only [List.mem_map, List.mem_range]
  constructor
  · intro h hc
    apply Classical.byContradiction
    intro hlt
    have hlast := h _ ⟨length, by omega, rfl⟩ hc
    simp at hlast
  · rintro h a ⟨i, hi, rfl⟩ hc
    have hle := h hc
    dsimp only
    omega

end Kept

/-! ## The database -/

section Database

variable {covers : FixedArray → Bool} {env : Env} {lib : Lib} {s : Fdb} {L : Index}

/-- The cookie of a record is not part of the invariant. -/
theorem FdbInv.recookie (h : FdbInv s L) (i : Nat) (cookie : Option Nat) :
    FdbInv (setRecord s i { s.records i with cookie := cookie }) L := by
  have hparams : ∀ j, ((setRecord s i { s.records i with cookie := cookie }).records j).macParams =
      (s.records j).macParams := by
    intro j
    by_cases hj : j = i
    · subst hj
      simp [setRecord]
    · simp [setRecord, hj]
  refine ⟨h.ready, h.index.congr rfl rfl rfl rfl rfl, h.pool, fun hk => ?_, h.owned, fun j => ?_⟩
  · rw [hparams]
    exact h.keyed hk
  · rw [hparams]
    exact h.home j

theorem FdbInv.deinitCookie (env : Env) {lib : Lib} {L : Index} (h : FdbInv lib.fdb L) (i : Nat) :
    FdbInv (deinitCookie env lib i).fdb L := by
  unfold CtrlLearn.deinitCookie
  cases env.initDeinitCb with
  | none => exact h
  | some cb => exact h.recookie i _

/-- Deleting keeps the invariant, whatever record it is given. -/
theorem FdbInv.deleteRecord (env : Env) {lib : Lib} {L : Index} (h : FdbInv lib.fdb L) (i : Nat) :
    ∃ L', FdbInv (deleteRecord env lib i).2.fdb L' := by
  obtain ⟨L', h', -⟩ := delete_spec (h.deinitCookie env i) i
  exact ⟨L', h'⟩

theorem FdbInv.flushRecord (env : Env) {lib : Lib} {L : Index} (h : FdbInv lib.fdb L) (err : Int) (i : Nat) :
    ∃ L', FdbInv (flushRecord env lib err i).2.fdb L' := by
  unfold CtrlLearn.flushRecord
  split
  · exact h.deleteRecord env i
  · exact ⟨L, h⟩

/-- **An add** checks the vid. -/
theorem add_kept (s : Fdb) (e : MacEntry) : Kept covers (addAccesses s e) := by
  have hfilter : ∀ (s : Fdb) (i : Nat), Kept covers (filterAddAccesses s i) := by
    intro s i
    unfold filterAddAccesses
    split
    · exact kept_nil
    split
    · exact kept_nil
    · rename_i hvid
      exact kept_singleton.mpr fun _ => Nat.not_le.mp hvid
  unfold addAccesses
  split
  · exact kept_nil
  split
  · split
    · split
      · exact hfilter _ _
      · exact kept_nil
    · exact kept_nil
  · exact kept_nil

/-- **A delete** de-links from the list the record was linked to. -/
theorem delete_kept (h : FdbInv s L) (i : Nat) : Kept covers (deleteAccesses s i) := by
  unfold deleteAccesses
  split
  · exact kept_nil
  split
  · exact kept_nil
  split
  · rename_i hlinked
    rw [Bool.and_eq_true] at hlinked
    obtain ⟨l, hl⟩ := (isLinked_iff h.index (f := .vid)).mp hlinked.1
    obtain ⟨e, he⟩ := h.index.family.exists_end hl
    rw [(h.home i).vid hl] at he
    refine kept_singleton.mpr fun _ => ?_
    show (s.records i).macParams.vid.toNat < MAX_VLAN_ENTRIES
    by_contra hvid
    rw [listEnds, if_neg hvid] at he
    cases he
  · exact kept_nil

theorem deleteRecord_kept (env : Env) (h : FdbInv lib.fdb L) (i : Nat) :
    Kept covers (deleteRecordAccesses env lib i) :=
  delete_kept (h.deinitCookie env i) i

/-- **The flush loop** deletes and keeps the invariant. -/
theorem flushLoop_kept (env : Env) (next : Fdb → Nat → Option (Int × Option Nat)) (fuel : Nat) {lib : Lib}
    {L : Index} (h : FdbInv lib.fdb L) (macRecord tmpRecord : Option Nat) :
    Kept covers (flushLoopAccesses env next fuel lib macRecord tmpRecord) := by
  induction fuel generalizing lib L macRecord tmpRecord with
  | zero => exact kept_nil
  | succ fuel ih =>
    cases macRecord with
    | none => exact kept_nil
    | some i =>
      rw [flushLoopAccesses]
      split
      · exact kept_nil
      rename_i r _
      obtain ⟨L', h'⟩ := h.flushRecord env r.1 i
      refine kept_append.mpr ⟨?_, ih h' _ _⟩
      unfold flushRecordAccesses
      split
      · exact deleteRecord_kept env h i
      · exact kept_nil

theorem flushLoop_inv (env : Env) (next : Fdb → Nat → Option (Int × Option Nat)) (fuel : Nat) {lib : Lib}
    {L : Index} (h : FdbInv lib.fdb L) {err : Int} {macRecord tmpRecord : Option Nat} {r : Int × Lib}
    (hr : flushLoop env next fuel lib err macRecord tmpRecord = some r) : ∃ L', FdbInv r.2.fdb L' := by
  induction fuel generalizing lib L err macRecord tmpRecord with
  | zero => cases hr
  | succ fuel ih =>
    cases macRecord with
    | none =>
      cases hr
      exact ⟨L, h⟩
    | some i =>
      obtain ⟨q, -, hq⟩ := Option.bind_eq_some_iff.mp hr
      obtain ⟨L', h'⟩ := h.flushRecord env q.1 i
      exact ih h' hq

end Database

/-! ## A batch of events -/

section Batch

variable {covers : FixedArray → Bool} {env : Env} {lib : Lib} {L : Index} {p p' : FirstPass}

/-- **The first entry of a filter** is looked up without a check of the vid. -/
theorem getFirst_kept_iff (hcov : covers .fdbVlanList = true) {s : Fdb} (h : FdbInv s L) (filter : KeyFilter) :
    Kept covers (getFirstAccesses s filter) ↔
      (filter.field = some .vid → filter.vid.toNat < MAX_VLAN_ENTRIES) := by
  unfold getFirstAccesses KeyFilter.field
  rw [if_neg (by simp [h.index.ready])]
  cases filter.filterByLogPort <;> cases filter.filterByVid <;>
    simp [kept_singleton, hcov, vlanAccess, Access.InBounds]

theorem flushFilter_kept_iff (hcov : covers .fdbVlanList = true) (h : FdbInv lib.fdb L) (filter : KeyFilter) :
    Kept covers (flushFilterAccesses env lib filter) ↔
      (filter.field = some .vid → filter.vid.toNat < MAX_VLAN_ENTRIES) := by
  rw [flushFilterAccesses, kept_append, getFirst_kept_iff hcov h, and_iff_left]
  split
  · exact kept_nil
  split
  · exact kept_nil
  · exact flushLoop_kept env _ _ h _ _

theorem flushAll_kept (h : FdbInv lib.fdb L) : Kept covers (flushAllAccesses env lib) := by
  unfold flushAllAccesses
  dsimp only
  split
  · exact kept_nil
  · exact flushLoop_kept env _ _ h _ _

/-- A step of the first pass keeps the invariant, and appends one record at most. -/
theorem firstPassStep_inv (h : FdbInv p.lib.fdb L) {e : FdbEvent} (hp : firstPassStep env p e = some p') :
    (∃ L', FdbInv p'.lib.fdb L') ∧ p'.records.length ≤ p.records.length + 1 := by
  have hfilter : ∀ {filter : KeyFilter},
      (ctrlLearnFlushDbByFilter env p.lib filter).map (fun r => { p with lib := r.2 }) = some p' →
      (∃ L', FdbInv p'.lib.fdb L') ∧ p'.records.length ≤ p.records.length + 1 := by
    intro filter hrun
    obtain ⟨r, hr, rfl⟩ := Option.map_eq_some_iff.mp hrun
    refine ⟨?_, Nat.le_succ _⟩
    obtain ⟨q, -, hq⟩ := Option.bind_eq_some_iff.mp hr
    split at hq
    · cases hq
      exact ⟨L, h⟩
    · exact flushLoop_inv env _ _ h hq
  cases e with
  | learn q | age q =>
    cases hp
    exact ⟨⟨L, h⟩, by simp⟩
  | other =>
    cases hp
    exact ⟨⟨L, h⟩, Nat.le_succ _⟩
  | flushAll =>
    obtain ⟨r, hr, rfl⟩ := Option.map_eq_some_iff.mp hp
    refine ⟨?_, Nat.le_succ _⟩
    unfold ctrlLearnHandleFlushAll at hr
    dsimp only at hr
    split at hr
    · cases hr
      exact ⟨L, h⟩
    · exact flushLoop_inv env _ _ h hr
  | flushVid vid | flushPort port | flushPortVid port vid => exact hfilter hp

/-- **One event** keeps to the arrays, unless it flushes a vid without a list. -/
theorem firstPassStep_kept_iff (hcov : covers .fdbVlanList = true) (h : FdbInv p.lib.fdb L)
    (hlen : covers .recordsArr = true → p.records.length < MAX_EVENT_INFO_SIZE) (e : FdbEvent) :
    Kept covers (firstPassStepAccesses env p e) ↔ ∀ vid, e = .flushVid vid → vid.toNat < MAX_VLAN_ENTRIES := by
  cases e with
  | learn q | age q => exact iff_of_true (kept_singleton.mpr hlen) nofun
  | other => exact iff_of_true kept_nil nofun
  | flushAll => exact iff_of_true (flushAll_kept h) nofun
  | flushPort port | flushPortVid port vid =>
    exact iff_of_true ((flushFilter_kept_iff hcov h _).mpr nofun) nofun
  | flushVid vid =>
    rw [firstPassStepAccesses, flushFilter_kept_iff hcov h]
    simp [vidFilter, KeyFilter.field]

theorem vidsFit_cons {e : FdbEvent} {es : List FdbEvent} :
    VidsFit env p (e :: es) ↔ (∀ vid, e = .flushVid vid → vid.toNat < MAX_VLAN_ENTRIES) ∧
      ∀ p', firstPassStep env p e = some p' → VidsFit env p' es := by
  constructor
  · intro h
    refine ⟨fun vid he => h [] vid es (by rw [he, List.nil_append]) rfl, fun p' hp as vid bs hes hsome => ?_⟩
    refine h (e :: as) vid bs (by rw [hes, List.cons_append]) ?_
    rw [firstPass, hp]
    exact hsome
  · rintro ⟨hhead, htail⟩ as vid bs hes hsome
    cases as with
    | nil =>
      rw [List.nil_append, List.cons.injEq] at hes
      exact hhead vid hes.1
    | cons a as =>
      rw [List.cons_append, List.cons.injEq] at hes
      obtain ⟨rfl, rfl⟩ := hes
      obtain ⟨p₂, hrun⟩ := Option.isSome_iff_exists.mp hsome
      obtain ⟨p', hp, hrest⟩ := Option.bind_eq_some_iff.mp hrun
      exact htail p' hp as vid bs rfl (by rw [hrest]; rfl)

/-- **The first pass** keeps to the arrays exactly when it flushes vids that have a list. -/
theorem firstPass_kept_iff (hcov : covers .fdbVlanList = true) (events : List FdbEvent) {p : FirstPass}
    {L : Index} (h : FdbInv p.lib.fdb L)
    (hlen : covers .recordsArr = true → p.records.length + events.length ≤ MAX_EVENT_INFO_SIZE) :
    Kept covers (firstPassAccesses env p events) ↔ VidsFit env p events := by
  induction events generalizing p L with
  | nil => simp [firstPassAccesses, VidsFit]
  | cons e es ih =>
    rw [firstPassAccesses, kept_append, vidsFit_cons, firstPassStep_kept_iff hcov h]
    · refine and_congr_right' ?_
      cases hp : firstPassStep env p e with
      | none => simp
      | some p' =>
        obtain ⟨⟨L', h'⟩, hone⟩ := firstPassStep_inv h hp
        dsimp only
        rw [ih h' (fun hc => ?_)]
        · simp
        · have hle := hlen hc
          rw [List.length_cons] at hle
          omega
    · intro hc
      have hle := hlen hc
      rw [List.length_cons] at hle
      omega

theorem firstPass_inv (events : List FdbEvent) {p p' : FirstPass} {L : Index} (h : FdbInv p.lib.fdb L)
    (hp : firstPass env p events = some p') : ∃ L', FdbInv p'.lib.fdb L' := by
  induction events generalizing p L with
  | nil =>
    cases hp
    exact ⟨L, h⟩
  | cons e es ih =>
    obtain ⟨q, hq, hrest⟩ := Option.bind_eq_some_iff.mp hp
    obtain ⟨⟨L', h'⟩, -⟩ := firstPassStep_inv h hq
    exact ih h' hrest

theorem applyApproved_kept (env : Env) (h : FdbInv lib.fdb L) (accessCmd : AccessCmd) (e : MacEntry) :
    Kept covers (applyApprovedAccesses env accessCmd lib e) ∧
    ∃ L', FdbInv (applyApproved env accessCmd lib e).2.fdb L' := by
  unfold applyApprovedAccesses applyApproved
  split
  · refine ⟨add_kept _ _, ?_⟩
    rw [addApproved_fdb]
    exact add_inv h _
  · unfold deleteApproved
    generalize fdbUcDbGetRecordByKey lib.fdb e.macParams.key = found
    obtain ⟨err, _ | i⟩ := found
    · exact ⟨kept_nil, L, h⟩
    · exact ⟨deleteRecord_kept env h i, h.deleteRecord env i⟩

/-- **The second pass** keeps to `fdb_vlan_list`. -/
theorem secondPass_kept (accessCmd : AccessCmd) (failed es : List MacEntry) {lib : Lib} {L : Index}
    (h : FdbInv lib.fdb L) : Kept covers (secondPassAccesses env accessCmd failed lib es) := by
  induction es generalizing lib L with
  | nil => exact kept_nil
  | cons e es ih =>
    rw [secondPassAccesses]
    split
    · exact ih h
    · obtain ⟨hkept, L', h'⟩ := applyApproved_kept env h accessCmd e
      exact kept_append.mpr ⟨hkept, ih h'⟩

theorem length_of_undecided {rs rs' : List NotifyRecord}
    (h : rs.map NotifyRecord.undecided = rs'.map NotifyRecord.undecided) : rs.length = rs'.length := by
  simpa using congrArg List.length h

theorem updateApprovedList_length {s : Fdb} (h : FdbInv s L) (rs : List NotifyRecord) :
    (updateApprovedList s rs).2.length = rs.length := by
  rw [updateApprovedList_eq h]
  dsimp only
  split
  · exact length_of_undecided (denyAfter_records rs 0)
  · rfl

theorem notifyUser_length (env : Env) (err : Int) (rs : List NotifyRecord) :
    (notifyUser env err rs).2.length = rs.length :=
  length_of_undecided (notifyUser_undecided env err rs)

theorem approvedList_length_le (rs : List NotifyRecord) : (approvedList rs).length ≤ rs.length := by
  rw [approvedList, List.length_map]
  exact List.length_filter_le _ _

theorem approvedEntries_length_le (rs : List NotifyRecord) : (approvedEntries rs).length ≤ rs.length := by
  rw [approvedEntries, List.length_map]
  exact List.length_filter_le _ _

/-- **What follows the first pass** keeps to the arrays if the records do. -/
theorem finishBatch_kept (hhal : env.Reports) (h : FdbInv p.lib.fdb L)
    (hlen : p.records.length ≤ MAX_EVENT_INFO_SIZE) : Kept covers (finishBatchAccesses env p) := by
  unfold finishBatchAccesses
  dsimp only
  generalize hupd : notifyUser env (if (updateApprovedList p.lib.fdb p.records).1 ≠ 0 then -EPERM else 0)
    (updateApprovedList p.lib.fdb p.records).2 = upd
  have hrecords : upd.2.length = p.records.length := by
    rw [← hupd, notifyUser_length, updateApprovedList_length h]
  have happroved := approvedList_length_le upd.2
  have hreport := (hhal p.accessCmd (approvedList upd.2)).2.length_le
  rw [kept_append, kept_append, kept_accessUpTo, kept_accessUpTo]
  refine ⟨⟨fun _ => hlen, fun _ => by omega⟩, ?_⟩
  split
  · exact kept_nil
  split
  · exact kept_nil
  rw [kept_append, kept_append, kept_accessUpTo, kept_accessUpTo]
  refine ⟨⟨fun _ => by omega, fun _ => ?_⟩, secondPass_kept _ _ _ h⟩
  split
  · omega
  · exact Nat.zero_le _

/-- **A batch of events** keeps to the arrays exactly when it flushes vids that have a list. -/
theorem handle_kept_iff (hhal : env.Reports) (hcov : covers .fdbVlanList = true) (h : FdbInv lib.fdb L)
    {events : List FdbEvent} (hlen : covers .recordsArr = true → events.length ≤ MAX_EVENT_INFO_SIZE) :
    Kept covers (handleAccesses env lib events) ↔ VidsFit env ⟨lib, [], .add, false⟩ events := by
  rw [handleAccesses, kept_append, firstPass_kept_iff hcov events h, and_iff_left]
  · split
    · exact kept_nil
    rename_i p hp
    obtain ⟨L', h'⟩ := firstPass_inv events h hp
    split
    · exact kept_nil
    · rename_i hle
      exact finishBatch_kept hhal h' (Nat.not_lt.mp hle)
  · intro hc
    rw [List.length_nil, Nat.zero_add]
    exact hlen hc

end Batch

/-! ## The API -/

section Api

variable {covers : FixedArray → Bool} {env : Env} {lib : Lib} {L : Index}

theorem addRecord_kept (env : Env) (lib : Lib) (r : NotifyRecord) : Kept covers (addRecordAccesses env lib r) := by
  unfold addRecordAccesses
  split
  · exact add_kept _ _
  · dsimp only
    split
    · exact kept_nil
    · exact add_kept _ _

theorem removeRecord_kept (env : Env) (h : FdbInv lib.fdb L) (r : NotifyRecord) :
    Kept covers (removeRecordAccesses env lib r) ∧ ∃ L', FdbInv (removeRecord env lib r).2.2.fdb L' := by
  unfold removeRecordAccesses removeRecord
  generalize fdbUcDbGetRecordByKey lib.fdb r.params.key = found
  obtain ⟨err, _ | i⟩ := found
  · exact ⟨kept_nil, L, h⟩
  · exact ⟨deleteRecord_kept env h i, h.deleteRecord env i⟩

/-- **The update pass** keeps to `fdb_vlan_list`. -/
theorem updateDb_kept (accessCmd : AccessCmd) (failed : List MacEntry) (rs : List NotifyRecord) {lib : Lib}
    {L : Index} (h : FdbInv lib.fdb L) : Kept covers (updateDbAccesses env accessCmd failed lib rs) := by
  induction rs generalizing lib L with
  | nil => exact kept_nil
  | cons r rs ih =>
    rw [updateDbAccesses]
    split
    · exact ih h
    split
    · obtain ⟨L', h'⟩ := (addRecord_other env h r).1
      refine kept_append.mpr ⟨addRecord_kept env lib r, ?_⟩
      split
      · exact kept_nil
      · exact ih h'
    · obtain ⟨hkept, L', h'⟩ := removeRecord_kept env h r
      refine kept_append.mpr ⟨hkept, ?_⟩
      split
      · exact kept_nil
      · exact ih h'

theorem collectRecords_length {s : Fdb} (h : FdbInv s L) (ev : RecordEvent) (ms : List MacEntry) :
    (collectRecords s ev.cmd none ms).length =
      (ms.filter fun m => !skipped ev (s.view m.macParams.key) m).length := by
  have hlen := congrArg List.length (collectRecords_bare h ev ms none).1
  rwa [List.length_map, List.length_map] at hlen

/-- **A set call that passes the checks** keeps to the arrays exactly when there is room for its records. -/
theorem setAccesses_kept_iff (hcov : covers .recordsArr = true) (hhal : env.Reports) (h : FdbInv lib.fdb L)
    (hstart : lib.isCtrlLearnStart = true) (ev : RecordEvent) {ms : List MacEntry}
    (huni : ∀ m ∈ ms, m.macParams.macAddr.isGroup = false) :
    Kept covers (setAccesses env lib ev.cmd (some ms)) ↔
      (ms.filter fun m => !skipped ev (lib.fdb.view m.macParams.key) m).length ≤ MAX_EVENT_INFO_SIZE := by
  have hgroup : ¬ ms.any (fun m => m.macParams.macAddr.isGroup) = true := by simpa using huni
  have hcmd : ¬ (ev.cmd ≠ .add ∧ ev.cmd ≠ .delete) := by cases ev <;> simp [RecordEvent.cmd]
  unfold setAccesses
  rw [if_neg (by simp [hstart])]
  dsimp only
  by_cases hms : ms = []
  · rw [if_pos hms, hms]
    exact iff_of_true kept_nil (Nat.zero_le _)
  rw [if_neg hms, if_neg hcmd, if_neg hgroup, kept_append, kept_accessUpTo, ← collectRecords_length h ev ms]
  have hcollected : (collectRecords lib.fdb ev.cmd none ms).length ≤ ms.length := by
    rw [collectRecords_length h ev ms]
    exact List.length_filter_le _ _
  generalize collectRecords lib.fdb ev.cmd none ms = records at hcollected ⊢
  constructor
  · rintro ⟨hlen, -⟩
    exact hlen hcov
  intro hlen
  refine ⟨fun _ => hlen, ?_⟩
  rw [if_neg (Nat.not_lt.mpr hlen)]
  split
  · exact kept_nil
  split
  · exact kept_nil
  generalize hupd : notifyUser env 0 (updateApprovedList lib.fdb records).2 = upd
  have hrecords : upd.2.length = records.length := by
    rw [← hupd, notifyUser_length, updateApprovedList_length h]
  have happroved := approvedEntries_length_le upd.2
  have hreport := (hhal ev.cmd (approvedEntries upd.2)).2.length_le
  rw [kept_append, kept_accessUpTo]
  refine ⟨fun _ => by omega, ?_⟩
  split
  · exact kept_nil
  rw [kept_append, kept_append, kept_accessUpTo, kept_accessUpTo]
  exact ⟨⟨fun _ => by omega, fun _ => Nat.le_refl _⟩, updateDb_kept _ _ _ h⟩

/-- A set call that is turned down uses no array. -/
theorem setAccesses_rejected {accessCmd : AccessCmd} {macEntry : Option (List MacEntry)}
    (hno : ¬ ∃ ms ev, macEntry = some ms ∧ RecordEvent.cmd ev = accessCmd ∧ lib.isCtrlLearnStart = true ∧
      ∀ m ∈ ms, m.macParams.macAddr.isGroup = false) : setAccesses env lib accessCmd macEntry = [] := by
  unfold setAccesses
  split
  · rfl
  rename_i hstart
  split
  · rfl
  rename_i ms
  split
  · rfl
  split
  · rfl
  rename_i hcmd
  split
  · rfl
  rename_i hgroup
  refine absurd ⟨ms, if accessCmd = .add then .learn else .age, rfl, ?_, by simpa using hstart, ?_⟩ hno
  · split
    · rename_i hadd
      rw [hadd]
      rfl
    · rename_i hadd
      by_contra hdel
      exact hcmd ⟨hadd, fun hc => hdel hc.symm⟩
  · simpa using hgroup

/-- **A simulate call** keeps to the arrays exactly when there is room for its events. -/
theorem simulateAccesses_kept_iff (hcov : ∀ array, covers array = true) (hhal : env.Reports)
    (h : FdbInv lib.fdb L) (accessCmd : AccessCmd) (macEntry : Option (List MacEntry)) :
    Kept covers (simulateAccesses env lib accessCmd macEntry) ↔
      (ctrlLearnSimulateOesEvent accessCmd macEntry).2.length ≤ MAX_EVENT_INFO_SIZE := by
  unfold simulateAccesses
  dsimp only
  rw [kept_append, kept_accessUpTo]
  constructor
  · rintro ⟨hlen, -⟩
    exact hlen (hcov _)
  intro hlen
  refine ⟨fun _ => hlen, ?_⟩
  split
  · exact kept_nil
  rw [kept_append, kept_accessUpTo, handle_kept_iff hhal (hcov _) h (fun _ => hlen)]
  refine ⟨fun _ => hlen, fun as vid bs hes _ => ?_⟩
  -- a simulated event learns or ages
  have hmem : FdbEvent.flushVid vid ∈ (ctrlLearnSimulateOesEvent accessCmd macEntry).2 := by
    rw [hes]
    simp
  unfold ctrlLearnSimulateOesEvent at hmem
  revert hmem
  split
  · simp
  split
  · simp
  split
  · simp
  split
  · simp
  · intro hmem
    obtain ⟨m, -, hm⟩ := List.mem_map.mp hmem
    split at hm <;> cases hm

/-- The events of a simulate call: one for every entry, if the entries pass the checks. -/
theorem simulate_length_le_iff (accessCmd : AccessCmd) (macEntry : Option (List MacEntry)) (n : Nat) :
    (ctrlLearnSimulateOesEvent accessCmd macEntry).2.length ≤ n ↔
      ∀ ms, macEntry = some ms → accessCmd = .add ∨ accessCmd = .delete →
        (∀ m ∈ ms, m.macParams.macAddr.isGroup = false) → ms.length ≤ n := by
  unfold ctrlLearnSimulateOesEvent
  cases macEntry with
  | none => simp
  | some ms =>
    dsimp only
    split
    · rename_i hms
      simp [hms]
    split
    · rename_i hcmd
      simp [hcmd.1, hcmd.2]
    rename_i hcmd
    split
    · rename_i hgroup
      refine iff_of_true (Nat.zero_le _) fun ms' hms _ huni => ?_
      cases hms
      simp only [List.any_eq_true] at hgroup
      obtain ⟨m, hm, hg⟩ := hgroup
      rw [huni m hm] at hg
      cases hg
    · rename_i hgroup
      rw [List.length_map]
      constructor
      · rintro hlen ms' hms - -
        cases hms
        exact hlen
      · intro hall
        refine hall ms rfl ?_ (by simpa using hgroup)
        by_contra hne
        rw [not_or] at hne
        exact hcmd hne

/-- **A get call** checks the vid of its filter. -/
theorem getAccesses_kept {s : Fdb} (h : FdbInv s L) (hcov : covers .fdbVlanList = true) (init : Bool)
    (accessCmd : AccessCmd) (filter : KeyFilter) (first : MacParams) (dataCnt : UInt16) :
    Kept covers (getAccesses init s accessCmd filter first dataCnt) := by
  unfold getAccesses
  split
  · exact kept_nil
  split
  · exact kept_nil
  split
  · exact kept_nil
  rename_i hguard
  have hfirst : Kept covers (getFirstAccesses s filter) := by
    rw [getFirst_kept_iff hcov h]
    intro hfld
    have hvid : filter.filterByVid = true := by
      unfold KeyFilter.field at hfld
      split at hfld <;> simp_all
    rw [hvid, Bool.true_and, decide_eq_true_eq, Nat.not_lt] at hguard
    unfold VID_MAX at hguard
    unfold MAX_VLAN_ENTRIES
    omega
  split
  · split
    · exact hfirst
    · exact kept_nil
  · split
    · split
      · exact hfirst
      · exact kept_nil
    · exact kept_nil
  · exact kept_nil

end Api

/-! ## All calls -/

theorem covers_simulate (accessCmd : AccessCmd) (macEntry : Option (List MacEntry)) (array : FixedArray) :
    (ApiCall.simulate accessCmd macEntry).covers array = true := rfl

/-- **The calls keep to the arrays** exactly when they fit: the set call and the simulate call must not have more
entries than there are records, and the events must not flush a vid without a list. -/
theorem arrays_kept_iff (env : Env) (hhal : env.Reports) (ops : List FdbOp) (lib : Lib)
    (hlib : lib.fdb = run Fdb.init ops) (call : ApiCall) :
    Kept call.covers (call.accesses env lib) ↔ call.Fits env lib := by
  obtain ⟨L, h⟩ := FdbInv.run ops emptyDb_init.inv
  rw [← hlib] at h
  cases call with
  | set accessCmd macEntry =>
    by_cases hok : ∃ ms ev, macEntry = some ms ∧ RecordEvent.cmd ev = accessCmd ∧
        lib.isCtrlLearnStart = true ∧ ∀ m ∈ ms, m.macParams.macAddr.isGroup = false
    · obtain ⟨ms, ev, rfl, rfl, hstart, huni⟩ := hok
      rw [ApiCall.accesses, setAccesses_kept_iff rfl hhal h hstart ev huni]
      constructor
      · rintro hlen ms' ev' hms hev - -
        cases hms
        rw [cmd_injective hev]
        exact hlen
      · intro hfits
        exact hfits ms ev rfl rfl hstart huni
    · rw [ApiCall.accesses, setAccesses_rejected hok]
      refine iff_of_true kept_nil fun ms ev hms hev hstart huni => ?_
      exact absurd ⟨ms, ev, hms, hev, hstart, huni⟩ hok
  | simulate accessCmd macEntry =>
    rw [ApiCall.accesses, simulateAccesses_kept_iff (covers_simulate _ _) hhal h, simulate_length_le_iff]
    rfl
  | oesEvent eventInfo =>
    rw [ApiCall.accesses, handle_kept_iff hhal rfl h (fun hc => by cases hc)]
    rfl
  | get init accessCmd filter first dataCnt =>
    exact iff_of_true (getAccesses_kept h rfl init accessCmd filter first dataCnt) trivial

/-- A set call of two entries and a batch of a LEARN, an AGE and a flush, beside two records. -/
theorem arrays_kept_iff_two :
    let lib : Lib := ⟨run Fdb.init twoStations, true, []⟩
    let set : ApiCall := .set .add (some [station 7 3 5, station 7 1 6])
    let events : ApiCall := .oesEvent [.learn (station 8 3 5).macParams, .age (station 7 1 5).macParams,
      .flushVid 7]
    (Kept set.covers (set.accesses silentEnv lib) ↔ set.Fits silentEnv lib) ∧
    (Kept events.covers (events.accesses silentEnv lib) ↔ events.Fits silentEnv lib) := by
  intro lib set events
  exact ⟨arrays_kept_iff silentEnv silentEnv_reports twoStations lib rfl set,
    arrays_kept_iff silentEnv silentEnv_reports twoStations lib rfl events⟩

/-- **671 simulated events** overrun `event_info_sim`. -/
theorem simulate_overruns : ¬ ∀ (env : Env), env.Reports → ∀ (ops : List FdbOp) (lib : Lib),
    lib.fdb = run Fdb.init ops → ∀ call : ApiCall, Kept call.covers (call.accesses env lib) := by
  intro hall
  have hkept := hall silentEnv silentEnv_reports [] ⟨Fdb.init, true, []⟩ rfl
    (.simulate .add (some (List.replicate (MAX_EVENT_INFO_SIZE + 1)
      ⟨⟨7, ⟨0, 0, 0, 0, 0, 1⟩, 5, .dynamic⟩, none, .ageable⟩)))
  obtain ⟨L, h⟩ := FdbInv.run [] emptyDb_init.inv
  rw [ApiCall.accesses, simulateAccesses_kept_iff (covers_simulate _ _) silentEnv_reports h,
    simulate_length_le_iff] at hkept
  have hlen := hkept _ rfl (Or.inl rfl) (fun m hm => by rw [List.eq_of_mem_replicate hm]; rfl)
  rw [List.length_replicate] at hlen
  omega

end MlnxLib.CtrlLearn
