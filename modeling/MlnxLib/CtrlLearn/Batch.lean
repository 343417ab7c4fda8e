import MlnxLib.CtrlLearn.Flush

/-!
# A batch of events and the same events one at a time

`ctrl_learn_handle_oes_event` gives a batch the command of its last LEARN or AGE event and applies
the flushes of the batch before all its records.  As maps of records, the batch is a log that is
applied batched, and the calls with one event each are the same log applied in order.

Principal results: `handle_db`, `handleEach_db` — what a batch and what the single calls do to the
map of records; `batch_same_iff` — they leave the same records exactly when, for every key, the
last LEARN or AGE event of the key leaves a record behind just in case the command of the batch is
ADD.
-/

set_option autoImplicit false

namespace MlnxLib.CtrlLearn

open PinMap

/-! ## Environments and events -/

/-- No callback is registered and the HAL accepts every entry. -/
def silentEnv : Env := ⟨fun _ es => (0, es), none, none⟩

/-- The record a learned entry becomes when no cookie callback is registered. -/
def learnedEntry (p : MacParams) : MacEntry := ⟨p, none, fdbType p.entryType⟩

/-- The non-static records that match a filter. -/
def flushes (filter : KeyFilter) (e : MacEntry) : Bool := filter.matches e.macParams && nonStatic e

/-- What an event says, on its own, about the map of records. -/
def FdbEvent.entry : FdbEvent → Option (Entry Nat MacEntry)
  | .learn p => some (.write true p.key (learnedEntry p))
  | .age p => some (.write false p.key (learnedEntry p))
  | .flushAll => some (.sweep nonStatic)
  | .flushVid vid => some (.sweep (flushes (vidFilter vid)))
  | .flushPort port => some (.sweep (flushes (portFilter port)))
  | .flushPortVid port vid => some (.sweep (flushes (portVidFilter port vid)))
  | .other => none

def eventLog (events : List FdbEvent) : List (Entry Nat MacEntry) := events.filterMap FdbEvent.entry

/-- The command a batch ends up with, as in the first pass: that of the last LEARN or AGE. -/
def batchCmd (cmd : AccessCmd) : List FdbEvent → AccessCmd
  | [] => cmd
  | .learn _ :: events => batchCmd .add events
  | .age _ :: events => batchCmd .delete events
  | _ :: events => batchCmd cmd events

/-! ## Nothing is denied -/

/-- No add of the second pass runs out of records or of list heads. -/
def addsFit (env : Env) : Lib → List MacEntry → Bool
  | _, [] => true
  | lib, e :: es =>
    let r := addApproved env lib e
    decide (NotFull r.1) && addsFit env r.2 es

/-- No record of the batch is denied, and its adds find the pool entries they need. -/
def noneDenied (env : Env) (lib : Lib) (events : List FdbEvent) : Bool :=
  match firstPass env ⟨lib, [], .add, false⟩ events with
  | none => true
  | some p =>
    (updateApprovedList p.lib.fdb p.records).2.all (fun r => r.decision == .approve) &&
      (p.accessCmd != .add || addsFit env p.lib (approvedList p.records))

/-- One call per event. -/
def handleEach (env : Env) : Lib → List FdbEvent → Option Lib
  | lib, [] => some lib
  | lib, e :: events => (ctrlLearnHandleOesEvent env lib [e]).bind fun r => handleEach env r.2 events

/-- Nothing is denied in any of the single calls. -/
def noneDeniedEach (env : Env) : Lib → List FdbEvent → Bool
  | _, [] => true
  | lib, e :: events =>
    noneDenied env lib [e] &&
      match ctrlLearnHandleOesEvent env lib [e] with
      | none => true
      | some r => noneDeniedEach env r.2 events

/-! ## The first pass -/

/-- The notify record of an event. -/
def FdbEvent.record : FdbEvent → Option NotifyRecord
  | .learn p => some ⟨.learn, p, .approve, .ageable, none⟩
  | .age p => some ⟨.age, p, .approve, .ageable, none⟩
  | _ => none

/-- A flush event empties the map of the matching non-static records. -/
theorem flushEvent_db {lib : Lib} {L : Index} (h : Reached lib.fdb L) {filter : KeyFilter}
    {fld : FltrField} (hfld : filter.field = some fld)
    (hvid : filter.filterByVid = true → filter.vid.toNat < MAX_VLAN_ENTRIES)
    (hport : filter.filterByLogPort = true → filter.logPort.toNat < 2 ^ 32) :
    ∃ err lib', ctrlLearnFlushDbByFilter silentEnv lib filter = some (err, lib') ∧
      (∃ L', Reached lib'.fdb L') ∧ lib'.fdb.db = lib.fdb.db.sweep (flushes filter) := by
  obtain ⟨err, lib', hrun, hf⟩ := flushFilter_spec silentEnv h hfld hvid hport
  exact ⟨err, lib', hrun, hf.reached h, hf.db rfl h.inv⟩

/-- **One event of the first pass**: flushes are applied, records are appended. -/
theorem firstPassStep_spec {p : FirstPass} {L : Index} (h : Reached p.lib.fdb L) {e : FdbEvent}
    (he : e.InRange) : ∃ p', firstPassStep silentEnv p e = some p' ∧
      (∃ L', Reached p'.lib.fdb L') ∧
      p'.lib.fdb.db = (eventLog [e]).foldl sweepStep p.lib.fdb.db ∧
      p'.records = p.records ++ e.record.toList ∧
      p'.accessCmd = batchCmd p.accessCmd [e] ∧
      p'.isLearnedOrAgedEvent = (p.isLearnedOrAgedEvent || e.record.isSome) := by
  cases e with
  | learn q => exact ⟨_, rfl, ⟨L, h⟩, rfl, rfl, rfl, by simp [FdbEvent.record]⟩
  | age q => exact ⟨_, rfl, ⟨L, h⟩, rfl, rfl, rfl, by simp [FdbEvent.record]⟩
  | other => exact ⟨p, rfl, ⟨L, h⟩, rfl, by simp [FdbEvent.record], rfl, by simp [FdbEvent.record]⟩
  | flushAll =>
    obtain ⟨err, lib', hrun, hf⟩ := flushAll_spec silentEnv h
    refine ⟨{ p with lib := lib' }, ?_, hf.reached h, ?_, by simp [FdbEvent.record], rfl,
      by simp [FdbEvent.record]⟩
    · rw [firstPassStep, hrun]
      rfl
    · have hdb := hf.db rfl h.inv
      simp only [Bool.true_and] at hdb
      exact hdb
  | flushVid vid =>
    have hfld : (vidFilter vid).field = some .vid := rfl
    obtain ⟨err, lib', hrun, hr, hdb⟩ := flushEvent_db h hfld (fun _ => he) (fun hc => by cases hc)
    refine ⟨{ p with lib := lib' }, ?_, hr, hdb, by simp [FdbEvent.record], rfl,
      by simp [FdbEvent.record]⟩
    rw [firstPassStep, hrun]
    rfl
  | flushPort port =>
    have hfld : (portFilter port).field = some .port := rfl
    obtain ⟨err, lib', hrun, hr, hdb⟩ := flushEvent_db h hfld (fun hc => by cases hc) (fun _ => he)
    refine ⟨{ p with lib := lib' }, ?_, hr, hdb, by simp [FdbEvent.record], rfl,
      by simp [FdbEvent.record]⟩
    rw [firstPassStep, hrun]
    rfl
  | flushPortVid port vid =>
    have hfld : (portVidFilter port vid).field = some .vidPort := rfl
    obtain ⟨err, lib', hrun, hr, hdb⟩ := flushEvent_db h hfld (fun _ => he.2) (fun _ => he.1)
    refine ⟨{ p with lib := lib' }, ?_, hr, hdb, by simp [FdbEvent.record], rfl,
      by simp [FdbEvent.record]⟩
    rw [firstPassStep, hrun]
    rfl

def recordsOf (events : List FdbEvent) : List NotifyRecord := events.filterMap FdbEvent.record

theorem batchCmd_cons (cmd : AccessCmd) (e : FdbEvent) (events : List FdbEvent) :
    batchCmd cmd (e :: events) = batchCmd (batchCmd cmd [e]) events := by
  cases e <;> rfl

theorem eventLog_cons (e : FdbEvent) (events : List FdbEvent) :
    eventLog (e :: events) = eventLog [e] ++ eventLog events := by
  unfold eventLog
  rw [← List.filterMap_append]
  rfl

theorem recordsOf_cons (e : FdbEvent) (events : List FdbEvent) :
    recordsOf (e :: events) = e.record.toList ++ recordsOf events := by
  unfold recordsOf
  rw [List.filterMap_cons]
  cases e.record <;> rfl

/-- **The first pass** applies the flushes of the batch and collects its records. -/
theorem firstPass_spec : ∀ (events : List FdbEvent) {p : FirstPass} {L : Index},
    Reached p.lib.fdb L → (∀ e ∈ events, e.InRange) →
    ∃ p', firstPass silentEnv p events = some p' ∧ (∃ L', Reached p'.lib.fdb L') ∧
      p'.lib.fdb.db = (eventLog events).foldl sweepStep p.lib.fdb.db ∧
      p'.records = p.records ++ recordsOf events ∧
      p'.accessCmd = batchCmd p.accessCmd events ∧
      p'.isLearnedOrAgedEvent = (p.isLearnedOrAgedEvent || !(recordsOf events).isEmpty)
  | [], p, L, h, _ => ⟨p, rfl, ⟨L, h⟩, rfl, by simp [recordsOf], rfl, by simp [recordsOf]⟩
  | e :: events, p, L, h, he => by
    obtain ⟨p₁, hrun₁, ⟨L₁, h₁⟩, hdb₁, hrec₁, hcmd₁, hflag₁⟩ :=
      firstPassStep_spec h (he e (List.mem_cons_self ..))
    obtain ⟨p₂, hrun₂, h₂, hdb₂, hrec₂, hcmd₂, hflag₂⟩ :=
      firstPass_spec events h₁ (fun e' he' => he e' (List.mem_cons_of_mem _ he'))
    refine ⟨p₂, ?_, h₂, ?_, ?_, ?_, ?_⟩
    · rw [firstPass, hrun₁]
      exact hrun₂
    · rw [hdb₂, hdb₁, ← List.foldl_append, ← eventLog_cons]
    · rw [hrec₂, hrec₁, recordsOf_cons, List.append_assoc]
    · rw [hcmd₂, hcmd₁, ← batchCmd_cons]
    · rw [hflag₂, hflag₁, recordsOf_cons]
      cases e.record <;> simp

/-! ## The second pass -/

/-- What the second pass does to the map of records, entry by entry. -/
def writeEntry (cmd : AccessCmd) (M : Map Nat MacEntry) (p : MacParams) : Map Nat MacEntry :=
  if cmd = .add then M.put p.key (learnedEntry p) else M.drop p.key

/-- **One approved entry** of a batch. -/
theorem applyApproved_spec {lib : Lib} {L : Index} (h : Reached lib.fdb L) (cmd : AccessCmd)
    {e : MacEntry} (hv : e.macParams.vid.toNat < MAX_VLAN_ENTRIES)
    (hp : e.macParams.logPort.toNat < 2 ^ 32)
    (hfit : cmd = .add → NotFull (addApproved silentEnv lib e).1) :
    (∃ L', Reached (applyApproved silentEnv cmd lib e).2.fdb L') ∧
    (applyApproved silentEnv cmd lib e).2.fdb.db = writeEntry cmd lib.fdb.db e.macParams := by
  unfold applyApproved writeEntry
  by_cases hcmd : cmd = .add
  · rw [if_pos hcmd, if_pos hcmd]
    exact ⟨h.add hp, db_add h.inv hv (hfit hcmd)⟩
  · rw [if_neg hcmd, if_neg hcmd]
    unfold deleteApproved fdbUcDbGetRecordByKey
    rw [if_neg (by simp [h.inv.ready])]
    cases hk : lib.fdb.fdbMap.get e.macParams.key with
    | none =>
      refine ⟨⟨L, h⟩, ?_⟩
      have hnone : (lib.fdb.db e.macParams.key).drop = lib.fdb.db e.macParams.key := by
        rw [db_none hk]
        rfl
      dsimp only
      rw [Map.drop, hnone, Function.update_eq_self]
    | some i => exact ⟨h.delete i, db_delete h.inv hk⟩

theorem secondPass_spec (cmd : AccessCmd) : ∀ (es : List MacEntry) {lib : Lib} {L : Index} (err : Int),
    Reached lib.fdb L →
    (∀ e ∈ es, e.macParams.vid.toNat < MAX_VLAN_ENTRIES ∧ e.macParams.logPort.toNat < 2 ^ 32) →
    (cmd = .add → addsFit silentEnv lib es = true) →
    (∃ L', Reached (secondPass silentEnv cmd [] lib err es).2.fdb L') ∧
    (secondPass silentEnv cmd [] lib err es).2.fdb.db =
      (es.map MacEntry.macParams).foldl (writeEntry cmd) lib.fdb.db
  | [], _, L, _, h, _, _ => ⟨⟨L, h⟩, rfl⟩
  | e :: es, lib, L, err, h, hrange, hfit => by
    obtain ⟨hv, hp⟩ := hrange e (List.mem_cons_self ..)
    have hfit' : cmd = .add → NotFull (addApproved silentEnv lib e).1 ∧
        addsFit silentEnv (addApproved silentEnv lib e).2 es = true := by
      intro hcmd
      have := hfit hcmd
      simp only [addsFit, Bool.and_eq_true, decide_eq_true_eq] at this
      exact this
    obtain ⟨⟨L₁, h₁⟩, hdb₁⟩ := applyApproved_spec h cmd hv hp (fun hcmd => (hfit' hcmd).1)
    have ih := secondPass_spec cmd es (applyApproved silentEnv cmd lib e).1 h₁
      (fun e' he' => hrange e' (List.mem_cons_of_mem _ he')) (fun hcmd => by
        rw [applyApproved, if_pos hcmd]
        exact (hfit' hcmd).2)
    rw [secondPass, List.map_cons, List.foldl_cons, ← hdb₁]
    exact ih

/-- The writes of the log are the records of the batch. -/
theorem foldl_writeStep (cmd : AccessCmd) : ∀ (events : List FdbEvent) (M : Map Nat MacEntry),
    (eventLog events).foldl (writeStep (decide (cmd = .add))) M =
      ((recordsOf events).map NotifyRecord.params).foldl (writeEntry cmd) M
  | [], _ => rfl
  | e :: events, M => by
    rw [eventLog_cons, List.foldl_append, recordsOf_cons, List.map_append, List.foldl_append,
      foldl_writeStep cmd events]
    congr 1
    cases e with
    | learn p => simp [eventLog, FdbEvent.entry, FdbEvent.record, writeStep, writeEntry]
    | age p => simp [eventLog, FdbEvent.entry, FdbEvent.record, writeStep, writeEntry]
    | _ => rfl

/-! ## Approval -/

theorem denyAfter_approved {n : Nat} : ∀ {rs : List NotifyRecord} {processed : Nat},
    (∀ r ∈ denyAfter n processed rs, r.decision = .approve) → denyAfter n processed rs = rs
  | [], _, _ => rfl
  | r :: rs, processed, h => by
    unfold denyAfter at h ⊢
    split at h
    · rename_i hlearn
      rw [if_pos hlearn]
      have hhead := h _ (List.mem_cons_self ..)
      have htail := denyAfter_approved (fun r' hr' => h r' (List.mem_cons_of_mem _ hr'))
      split at hhead
      · cases hhead
      · rename_i hlt
        rw [if_neg hlt, htail]
    · rename_i hlearn
      rw [if_neg hlearn, denyAfter_approved (fun r' hr' => h r' (List.mem_cons_of_mem _ hr'))]

/-- Approving is all `update_approved_list` did, if it denied nothing. -/
theorem updateApprovedList_approved {s : Fdb} {L : Index} (h : FdbInv s L) {rs : List NotifyRecord}
    (hall : ∀ r ∈ (updateApprovedList s rs).2, r.decision = .approve) :
    updateApprovedList s rs = (0, rs) := by
  unfold updateApprovedList fdbUcDbGetFreePoolCount at hall ⊢
  simp only [h.ready, Bool.not_true, Bool.false_eq_true, if_false, ne_eq, not_true_eq_false] at hall ⊢
  split at hall
  · rename_i hlt
    rw [if_pos hlt, denyAfter_approved hall]
  · rename_i hlt
    rw [if_neg hlt]

theorem recordsOf_approve {events : List FdbEvent} {r : NotifyRecord} (hr : r ∈ recordsOf events) :
    r.decision = .approve ∧ (.learn r.params ∈ events ∨ .age r.params ∈ events) := by
  obtain ⟨e, he, hre⟩ := List.mem_filterMap.mp hr
  cases e <;> simp only [FdbEvent.record, Option.some.injEq, reduceCtorEq] at hre
  · subst hre
    exact ⟨rfl, Or.inl he⟩
  · subst hre
    exact ⟨rfl, Or.inr he⟩

theorem approvedList_recordsOf (events : List FdbEvent) :
    approvedList (recordsOf events) = (recordsOf events).map (fun r => learnedEntry r.params) := by
  unfold approvedList
  rw [List.filter_eq_self.mpr (fun r hr => by simp [(recordsOf_approve hr).1])]
  rfl

/-! ## A batch -/

/-- The batch adds. -/
def batchAdds (events : List FdbEvent) : Bool := decide (batchCmd .add events = .add)

/-- **A batch of events** of which nothing is denied is its log, batched. -/
theorem handle_db {lib : Lib} {L : Index} (h : Reached lib.fdb L) {events : List FdbEvent}
    (hlen : events.length ≤ MAX_EVENT_INFO_SIZE) (hrange : ∀ e ∈ events, e.InRange)
    (hden : noneDenied silentEnv lib events = true) :
    ∃ err lib', ctrlLearnHandleOesEvent silentEnv lib events = some (err, lib') ∧
      (∃ L', Reached lib'.fdb L') ∧
      lib'.fdb.db = batched (batchAdds events) lib.fdb.db (eventLog events) := by
  obtain ⟨p, hrun, ⟨L₁, h₁⟩, hdb, hrec, hcmd, hflag⟩ :=
    firstPass_spec events (p := ⟨lib, [], .add, false⟩) h hrange
  simp only [List.nil_append, Bool.false_or] at hrec hflag hdb hcmd
  unfold noneDenied at hden
  simp only [hrun, Bool.and_eq_true, List.all_eq_true, beq_iff_eq, Bool.or_eq_true, bne_iff_ne] at hden
  obtain ⟨happ, hfit⟩ := hden
  have hupd := updateApprovedList_approved h₁.inv happ
  have hlist : approvedList p.records = (recordsOf events).map (fun r => learnedEntry r.params) := by
    rw [hrec, approvedList_recordsOf]
  have hbatched : batched (batchAdds events) lib.fdb.db (eventLog events) =
      ((recordsOf events).map NotifyRecord.params).foldl (writeEntry p.accessCmd) p.lib.fdb.db := by
    rw [batched, ← hdb, hcmd]
    exact foldl_writeStep _ _ _
  have hsmall : ¬ MAX_EVENT_INFO_SIZE < p.records.length := by
    have hle : (recordsOf events).length ≤ events.length := List.length_filterMap_le ..
    rw [hrec]
    omega
  unfold ctrlLearnHandleOesEvent
  rw [hrun, Option.bind_some, if_neg hsmall, hbatched]
  refine ⟨(finishBatch silentEnv p).1, (finishBatch silentEnv p).2, rfl, ?_⟩
  unfold finishBatch
  simp only [hupd, notifyUser, silentEnv, ne_eq, not_true_eq_false, if_false, hflag, hlist,
    Bool.not_not, List.map_eq_nil_iff, false_and]
  by_cases hnil : recordsOf events = []
  · rw [hnil]
    exact ⟨⟨L₁, h₁⟩, rfl⟩
  · rw [if_neg (by simpa using hnil), if_neg hnil]
    have hpass := secondPass_spec p.accessCmd ((recordsOf events).map fun r => learnedEntry r.params)
      0 h₁ (fun e he => ?_) (fun hadd => ?_)
    · rw [List.map_map] at hpass
      exact hpass
    · obtain ⟨r, hr, rfl⟩ := List.mem_map.mp he
      obtain hl | ha := (recordsOf_approve hr).2
      · exact hrange _ hl
      · exact hrange _ ha
    · rw [← hlist]
      exact hfit.resolve_left (fun hne => hne hadd)

/-! ## One event at a time -/

/-- A batch of one event means what the event says. -/
theorem batched_single (M : Map Nat MacEntry) (e : FdbEvent) :
    batched (batchAdds [e]) M (eventLog [e]) = inOrder M (eventLog [e]) := by
  cases e <;> rfl

/-- **The events one at a time** are the log in order. -/
theorem handleEach_db : ∀ (events : List FdbEvent) {lib : Lib} {L : Index}, Reached lib.fdb L →
    (∀ e ∈ events, e.InRange) → noneDeniedEach silentEnv lib events = true →
    ∃ lib', handleEach silentEnv lib events = some lib' ∧
      lib'.fdb.db = inOrder lib.fdb.db (eventLog events)
  | [], lib, _, _, _, _ => ⟨lib, rfl, rfl⟩
  | e :: events, lib, L, h, hrange, hden => by
    rw [noneDeniedEach, Bool.and_eq_true] at hden
    have hone : ∀ e' ∈ [e], e'.InRange := by
      intro e' he'
      rw [List.mem_singleton.mp he']
      exact hrange e (List.mem_cons_self ..)
    obtain ⟨err, lib₁, hrun, ⟨L₁, h₁⟩, hdb₁⟩ :=
      handle_db h (by simp [MAX_EVENT_INFO_SIZE]) hone hden.1
    have hden₂ := hden.2
    rw [hrun] at hden₂
    obtain ⟨lib₂, hrun₂, hdb₂⟩ := handleEach_db events h₁
      (fun e' he' => hrange e' (List.mem_cons_of_mem _ he')) hden₂
    refine ⟨lib₂, ?_, ?_⟩
    · rw [handleEach, hrun]
      exact hrun₂
    · rw [hdb₂, hdb₁, batched_single, inOrder, inOrder, inOrder, ← List.foldl_append, ← eventLog_cons]

/-! ## Agreement -/

/-- What of a record is compared: its port and its two entry types. -/
def recordView (e : MacEntry) : UInt64 × OesFdbEntryType × FdbUcMacEntryType :=
  (e.macParams.logPort, e.macParams.entryType, e.type)

/-- The two states hold the same records. -/
def SameRecords (s s' : Fdb) : Prop :=
  ∀ k, (s.lookup k).map recordView = (s'.lookup k).map recordView

/-- The condition, for every key, on the events and the state before them.  Where the record of
the key can be deleted or there is none: the last LEARN or AGE event of the key is a LEARN that no
later flush of the batch takes back exactly when the batch adds.  Where a failed call left the
record without a port link: the value of the last LEARN (of the record, without one) is that of
the last LEARN or AGE if the batch adds, of the record if it deletes. -/
def BatchAgrees (s : Fdb) (events : List FdbEvent) : Prop :=
  ∀ k, Agrees recordView (batchAdds events) s.db (eventLog events) k

theorem reached_init : Reached Fdb.init (fun _ => []) := coherent_init.reached

/-- **Batched events and single events.**  In every reachable state, a batch of which nothing is
denied leaves the records that its events leave one at a time exactly when `BatchAgrees`. -/
theorem batch_same_iff (ops : List FdbOp) (hops : ∀ op ∈ ops, op.PortBelow) (lib : Lib)
    (hlib : lib.fdb = run Fdb.init ops) (events : List FdbEvent)
    (hlen : events.length ≤ MAX_EVENT_INFO_SIZE) (hrange : ∀ e ∈ events, e.InRange)
    (hbatch : noneDenied silentEnv lib events = true)
    (heach : noneDeniedEach silentEnv lib events = true) :
    (∃ err lib₁ lib₂, ctrlLearnHandleOesEvent silentEnv lib events = some (err, lib₁) ∧
      handleEach silentEnv lib events = some lib₂ ∧ SameRecords lib₁.fdb lib₂.fdb) ↔
    BatchAgrees lib.fdb events := by
  obtain ⟨L, h⟩ := Reached.run ops reached_init hops
  rw [← hlib] at h
  obtain ⟨err, lib₁, hrun₁, -, hdb₁⟩ := handle_db h hlen hrange hbatch
  obtain ⟨lib₂, hrun₂, hdb₂⟩ := handleEach_db events h hrange heach
  have hsame : SameRecords lib₁.fdb lib₂.fdb ↔ BatchAgrees lib.fdb events := by
    refine forall_congr' (fun k => ?_)
    rw [lookup_eq, lookup_eq, hdb₁, hdb₂]
    exact value_eq_iff recordView _ _ _ k
  rw [← hsame]
  constructor
  · rintro ⟨err', l₁, l₂, hr₁, hr₂, hsr⟩
    rw [hrun₁] at hr₁
    rw [hrun₂] at hr₂
    cases hr₁
    cases hr₂
    exact hsr
  · exact fun hsr => ⟨err, lib₁, lib₂, hrun₁, hrun₂, hsr⟩

/-- A station learned on port 5, a flush of port 9, and its move to port 6: the batch agrees. -/
theorem batch_same_move : ∃ err lib₁ lib₂,
    ctrlLearnHandleOesEvent silentEnv ⟨run Fdb.init [], true, []⟩
      [.learn ⟨7, ⟨0, 0, 0, 0, 0, 1⟩, 5, .dynamic⟩, .flushPort 9,
        .learn ⟨7, ⟨0, 0, 0, 0, 0, 1⟩, 6, .dynamic⟩] = some (err, lib₁) ∧
    handleEach silentEnv ⟨run Fdb.init [], true, []⟩
      [.learn ⟨7, ⟨0, 0, 0, 0, 0, 1⟩, 5, .dynamic⟩, .flushPort 9,
        .learn ⟨7, ⟨0, 0, 0, 0, 0, 1⟩, 6, .dynamic⟩] = some lib₂ ∧
    SameRecords lib₁.fdb lib₂.fdb := by
  refine (batch_same_iff [] (by simp) _ rfl _ (by decide) (by decide) (by decide) (by decide)).mpr ?_
  intro k put a later hlast
  have hkeys : MacParams.key ⟨7, ⟨0, 0, 0, 0, 0, 1⟩, 5, .dynamic⟩ =
      MacParams.key ⟨7, ⟨0, 0, 0, 0, 0, 1⟩, 6, .dynamic⟩ := rfl
  simp only [eventLog, FdbEvent.entry, List.filterMap_cons, List.filterMap_nil, lastWrite, hkeys]
    at hlast
  by_cases hk : MacParams.key ⟨7, ⟨0, 0, 0, 0, 0, 1⟩, 6, .dynamic⟩ = k
  · simp only [if_pos hk, Option.some.injEq, Prod.mk.injEq] at hlast
    obtain ⟨rfl, rfl, rfl⟩ := hlast
    rfl
  · simp [hk] at hlast

/-- **A LEARN and an AGE of another station in one batch**: the learned record is lost. -/
theorem batch_loses_learn : ¬ ∀ (ops : List FdbOp), (∀ op ∈ ops, op.PortBelow) → ∀ (lib : Lib),
    lib.fdb = run Fdb.init ops → ∀ (events : List FdbEvent), events.length ≤ MAX_EVENT_INFO_SIZE →
    (∀ e ∈ events, e.InRange) → noneDenied silentEnv lib events = true →
    noneDeniedEach silentEnv lib events = true →
    ∃ err lib₁ lib₂, ctrlLearnHandleOesEvent silentEnv lib events = some (err, lib₁) ∧
      handleEach silentEnv lib events = some lib₂ ∧ SameRecords lib₁.fdb lib₂.fdb := by
  intro h
  obtain ⟨err, lib₁, lib₂, hrun₁, hrun₂, hsame⟩ := h [] (by simp) ⟨Fdb.init, true, []⟩ rfl
    [.learn ⟨7, ⟨0, 0, 0, 0, 0, 1⟩, 5, .dynamic⟩, .age ⟨7, ⟨0, 0, 0, 0, 0, 2⟩, 5, .dynamic⟩]
    (by decide) (by decide) (by decide) (by decide)
  have hkey := hsame (MacParams.key ⟨7, ⟨0, 0, 0, 0, 0, 1⟩, 5, .dynamic⟩)
  have h₁ : (ctrlLearnHandleOesEvent silentEnv ⟨Fdb.init, true, []⟩
      [.learn ⟨7, ⟨0, 0, 0, 0, 0, 1⟩, 5, .dynamic⟩,
        .age ⟨7, ⟨0, 0, 0, 0, 0, 2⟩, 5, .dynamic⟩]).map (fun r =>
      (r.2.fdb.lookup (MacParams.key ⟨7, ⟨0, 0, 0, 0, 0, 1⟩, 5, .dynamic⟩)).isSome) = some false := by
    decide
  have h₂ : (handleEach silentEnv ⟨Fdb.init, true, []⟩
      [.learn ⟨7, ⟨0, 0, 0, 0, 0, 1⟩, 5, .dynamic⟩,
        .age ⟨7, ⟨0, 0, 0, 0, 0, 2⟩, 5, .dynamic⟩]).map (fun r =>
      (r.fdb.lookup (MacParams.key ⟨7, ⟨0, 0, 0, 0, 0, 1⟩, 5, .dynamic⟩)).isSome) = some true := by
    decide
  rw [hrun₁] at h₁
  rw [hrun₂] at h₂
  simp only [Option.map_some, Option.some.injEq] at h₁ h₂
  rw [← Option.isSome_map (f := recordView), hkey, Option.isSome_map, h₂] at h₁
  cases h₁

end MlnxLib.CtrlLearn
