import MlnxLib.CtrlLearn.Get

/-!
# Learning: events and the set call

Model of the parts of `lib_ctrl_learn.c` that change the FDB.

* `ctrlLearnHandleOesEvent` — a batch of OES events: a first pass that applies flushes and collects
  LEARN and AGE records, the approval of the records, one call of the HAL with one command for the
  whole batch, and a second pass that adds or deletes.
* `ctrlLearnFlushDbByFilter`, `ctrlLearnHandleFlushAll` — the two flush loops.
* `ctrlLearnApiFdbUcMacAddrSet` — the set call of the API.

What the library does not define is a parameter: the HAL of the device and the two callbacks a
user registers.  The init/deinit callback may depend on the calls made so far, which `cookieLog`
keeps; the notification callback writes decisions, as its documentation says.  Functions return
`none` where the source would follow a pointer to no record, write past an array or not return.
Locks, logging and failing allocations are left out.
-/

set_option autoImplicit false

namespace MlnxLib.CtrlLearn

/-! ## Callbacks and state -/

/-- The calls of the init/deinit callback: `COOKIE_OP_INIT` with the cookie it returned, and
`COOKIE_OP_DEINIT` with the cookie it was given. -/
inductive CookieCall where
  | init (returned : Option Nat)
  | deinit (passed : Option Nat)
  deriving DecidableEq, Repr

/-- `enum cookie_op`. -/
inductive CookieOp where
  | init
  | deinit
  deriving DecidableEq, Repr

inductive NotifyDecision where
  | approve
  | deny
  deriving DecidableEq, Repr

/-- The event types of a notify record. -/
inductive RecordEvent where
  | learn
  | age
  deriving DecidableEq, Repr

/-- `struct ctrl_learn_fdb_notify_record`; the FDB entry is `params`. -/
structure NotifyRecord where
  eventType : RecordEvent
  params : MacParams
  decision : NotifyDecision
  entryType : FdbUcMacEntryType
  cookie : Option Nat
  deriving DecidableEq, Repr

/-- The init/deinit callback: from the earlier calls, the operation and the cookie it points at,
the error code and the cookie it leaves. -/
abbrev CookieCb := List CookieCall → CookieOp → Option Nat → Int × Option Nat

/-- What the library calls: the HAL returns its error code and the entries it leaves in the list —
the failed ones after an error; the notification callback returns its error code and the decisions
it leaves in the records. -/
structure Env where
  hal : AccessCmd → List MacEntry → Int × List MacEntry
  notificationCb : Option (List NotifyRecord → Int × List NotifyDecision)
  initDeinitCb : Option CookieCb

/-- The state of the library, with the calls of the init/deinit callback so far. -/
structure Lib where
  fdb : Fdb
  isCtrlLearnStart : Bool
  cookieLog : List CookieCall

def MAX_EVENT_INFO_SIZE : Nat := 670

/-- The events the handler distinguishes. -/
inductive FdbEvent where
  | learn (p : MacParams)
  | age (p : MacParams)
  | flushAll
  | flushVid (vid : UInt16)
  | flushPort (logPort : UInt64)
  | flushPortVid (logPort : UInt64) (vid : UInt16)
  | other
  deriving DecidableEq, Repr

/-- The parameters of the event: a vid with a list, and a 32-bit port. -/
def FdbEvent.InRange : FdbEvent → Prop
  | .learn p => p.vid.toNat < MAX_VLAN_ENTRIES ∧ p.logPort.toNat < 2 ^ 32
  | .age p => p.vid.toNat < MAX_VLAN_ENTRIES ∧ p.logPort.toNat < 2 ^ 32
  | .flushVid vid => vid.toNat < MAX_VLAN_ENTRIES
  | .flushPort port => port.toNat < 2 ^ 32
  | .flushPortVid port vid => port.toNat < 2 ^ 32 ∧ vid.toNat < MAX_VLAN_ENTRIES
  | _ => True

instance : DecidablePred FdbEvent.InRange
  | .learn p => inferInstanceAs (Decidable (p.vid.toNat < MAX_VLAN_ENTRIES ∧ p.logPort.toNat < 2 ^ 32))
  | .age p => inferInstanceAs (Decidable (p.vid.toNat < MAX_VLAN_ENTRIES ∧ p.logPort.toNat < 2 ^ 32))
  | .flushAll => inferInstanceAs (Decidable True)
  | .flushVid vid => inferInstanceAs (Decidable (vid.toNat < MAX_VLAN_ENTRIES))
  | .flushPort port => inferInstanceAs (Decidable (port.toNat < 2 ^ 32))
  | .flushPortVid port vid =>
    inferInstanceAs (Decidable (port.toNat < 2 ^ 32 ∧ vid.toNat < MAX_VLAN_ENTRIES))
  | .other => inferInstanceAs (Decidable True)

/-! ## Flushing -/

/-- `COOKIE_OP_DEINIT` on the cookie of a record, if a callback is registered. -/
def deinitCookie (env : Env) (lib : Lib) (i : Nat) : Lib :=
  match env.initDeinitCb with
  | none => lib
  | some cb =>
    let r := lib.fdb.records i
    { lib with
      fdb := setRecord lib.fdb i { r with cookie := (cb lib.cookieLog .deinit r.cookie).2 }
      cookieLog := lib.cookieLog ++ [.deinit r.cookie] }

/-- The de-init of a record's cookie and `fdb_uc_db_delete_record`. -/
def deleteRecord (env : Env) (lib : Lib) (i : Nat) : Int × Lib :=
  let lib := deinitCookie env lib i
  let r := fdbUcDbDeleteRecord lib.fdb (some i)
  (r.1, { lib with fdb := r.2 })

/-- The body of the flush loops: static records stay. -/
def flushRecord (env : Env) (lib : Lib) (err : Int) (i : Nat) : Int × Lib :=
  if (lib.fdb.records i).type ≠ .static then deleteRecord env lib i else (err, lib)

/-- The flush loops.  After an error of `next`, `tmp_record` keeps its value. -/
def flushLoop (env : Env) (next : Fdb → Nat → Option (Int × Option Nat)) :
    Nat → Lib → Int → Option Nat → Option Nat → Option (Int × Lib)
  | 0, _, _, _, _ => none
  | fuel + 1, lib, err, macRecord, tmpRecord =>
    match macRecord with
    | none => some (err, lib)
    | some i =>
      (next lib.fdb i).bind fun r =>
        let tmpRecord := if r.1 ≠ 0 then tmpRecord else r.2
        let res := flushRecord env lib r.1 i
        flushLoop env next fuel res.2 res.1 tmpRecord tmpRecord

/-- The number of iterations any flush takes. -/
def FLUSH_FUEL : Nat := MAX_FDB_ENTRIES + 1

/-- `ctrl_learn_flush_db_by_filter`. -/
def ctrlLearnFlushDbByFilter (env : Env) (lib : Lib) (filter : KeyFilter) : Option (Int × Lib) :=
  (fdbUcDbFilterGetFirstEntry lib.fdb filter).bind fun r =>
    if r.1 ≠ 0 then some (r.1, lib) else
    flushLoop env (fun s i => fdbUcDbFilterGetNextEntry s filter r.2.1 (some i)) FLUSH_FUEL lib 0
      r.2.2 none

/-- `ctrl_learn_handle_flush_all`. -/
def ctrlLearnHandleFlushAll (env : Env) (lib : Lib) : Option (Int × Lib) :=
  let r := fdbUcDbGetFirstRecord lib.fdb
  if r.1 ≠ 0 then some (r.1, lib) else
  flushLoop env (fun s i => some (fdbUcDbNextRecord s (some i))) FLUSH_FUEL lib 0 r.2 none

/-- The key filters of the flush events. -/
def vidFilter (vid : UInt16) : KeyFilter := ⟨true, vid, false, 0⟩

def portFilter (logPort : UInt64) : KeyFilter := ⟨false, 0, true, logPort⟩

def portVidFilter (logPort : UInt64) (vid : UInt16) : KeyFilter := ⟨true, vid, true, logPort⟩

/-! ## Approval -/

/-- The loop of `update_approved_list`: LEARN records are denied once `numApproved` of them were
processed. -/
def denyAfter (numApproved : Nat) : Nat → List NotifyRecord → List NotifyRecord
  | _, [] => []
  | processed, r :: rs =>
    if r.eventType = .learn then
      (if numApproved ≤ processed then { r with decision := .deny } else r) ::
        denyAfter numApproved (processed + 1) rs
    else r :: denyAfter numApproved processed rs

/-- `update_approved_list`. -/
def updateApprovedList (s : Fdb) (records : List NotifyRecord) : Int × List NotifyRecord :=
  match fdbUcDbGetFreePoolCount s with
  | (err, cnt) =>
    if err ≠ 0 then (err, records) else
    if cnt < records.length then (0, denyAfter cnt 0 records) else (0, records)

/-- The decisions a notification callback left. -/
def setDecisions : List NotifyRecord → List NotifyDecision → List NotifyRecord
  | r :: rs, d :: ds => { r with decision := d } :: setDecisions rs ds
  | rs, _ => rs

/-- The notification callback, if one is registered. -/
def notifyUser (env : Env) (err : Int) (records : List NotifyRecord) : Int × List NotifyRecord :=
  match env.notificationCb with
  | none => (err, records)
  | some cb => ((cb records).1, setDecisions records (cb records).2)

/-! ## The event handler -/

/-- The result of the first pass over the events. -/
structure FirstPass where
  lib : Lib
  records : List NotifyRecord
  accessCmd : AccessCmd
  isLearnedOrAgedEvent : Bool

/-- One event of the first pass.  The error of a flush is overwritten later and not kept. -/
def firstPassStep (env : Env) (p : FirstPass) : FdbEvent → Option FirstPass
  | .learn q => some { p with
      records := p.records ++ [⟨.learn, q, .approve, .ageable, none⟩]
      accessCmd := .add
      isLearnedOrAgedEvent := true }
  | .age q => some { p with
      records := p.records ++ [⟨.age, q, .approve, .ageable, none⟩]
      accessCmd := .delete
      isLearnedOrAgedEvent := true }
  | .flushAll => (ctrlLearnHandleFlushAll env p.lib).map fun r => { p with lib := r.2 }
  | .flushVid vid =>
    (ctrlLearnFlushDbByFilter env p.lib (vidFilter vid)).map fun r => { p with lib := r.2 }
  | .flushPort port =>
    (ctrlLearnFlushDbByFilter env p.lib (portFilter port)).map fun r => { p with lib := r.2 }
  | .flushPortVid port vid =>
    (ctrlLearnFlushDbByFilter env p.lib (portVidFilter port vid)).map fun r => { p with lib := r.2 }
  | .other => some p

/-- The first loop of `ctrl_learn_handle_oes_event`. -/
def firstPass (env : Env) : FirstPass → List FdbEvent → Option FirstPass
  | p, [] => some p
  | p, e :: es => (firstPassStep env p e).bind fun p => firstPass env p es

/-- The FDB type of an OES entry type. -/
def fdbType : OesFdbEntryType → FdbUcMacEntryType
  | .static => .static
  | .dynamic => .ageable

/-- The list of approved entries. -/
def approvedList (records : List NotifyRecord) : List MacEntry :=
  (records.filter fun r => r.decision == .approve).map fun r =>
    ⟨r.params, none, fdbType r.params.entryType⟩

/-- `COOKIE_OP_INIT`, if a callback is registered: its error code and the cookie. -/
def initCookie (env : Env) (lib : Lib) : Int × Option Nat × Lib :=
  match env.initDeinitCb with
  | none => (0, none, lib)
  | some cb =>
    let r := cb lib.cookieLog .init none
    (r.1, r.2, { lib with cookieLog := lib.cookieLog ++ [.init r.2] })

/-- One approved entry of a batch whose command is ADD. -/
def addApproved (env : Env) (lib : Lib) (e : MacEntry) : Int × Lib :=
  match initCookie env lib with
  | (_, cookie, lib) =>
    let r := fdbUcDbAddRecord lib.fdb (some ⟨e.macParams, cookie, fdbType e.macParams.entryType⟩)
    (r.1, { lib with fdb := r.2 })

/-- One approved entry of a batch whose command is DELETE. -/
def deleteApproved (env : Env) (lib : Lib) (e : MacEntry) : Int × Lib :=
  match fdbUcDbGetRecordByKey lib.fdb e.macParams.key with
  | (_, some i) => deleteRecord env lib i
  | (err, none) => (err, lib)

/-- One approved entry of a batch. -/
def applyApproved (env : Env) (accessCmd : AccessCmd) (lib : Lib) (e : MacEntry) : Int × Lib :=
  if accessCmd = .add then addApproved env lib e else deleteApproved env lib e

/-- The second loop of `ctrl_learn_handle_oes_event`; entries the HAL refused are skipped. -/
def secondPass (env : Env) (accessCmd : AccessCmd) (failed : List MacEntry) :
    Lib → Int → List MacEntry → Int × Lib
  | lib, err, [] => (err, lib)
  | lib, err, e :: es =>
    if failed.any (fun f => f.macParams == e.macParams) then
      secondPass env accessCmd failed lib err es
    else
      let r := applyApproved env accessCmd lib e
      secondPass env accessCmd failed r.2 r.1 es

/-- What follows the first pass. -/
def finishBatch (env : Env) (p : FirstPass) : Int × Lib :=
  let upd := updateApprovedList p.lib.fdb p.records
  let upd := notifyUser env (if upd.1 ≠ 0 then -EPERM else 0) upd.2
  let approved := approvedList upd.2
  if !p.isLearnedOrAgedEvent then (upd.1, p.lib) else
  if approved = [] then (upd.1, p.lib) else
  let hal := env.hal p.accessCmd approved
  let failed := if hal.1 ≠ 0 then hal.2 else []
  let r := secondPass env p.accessCmd failed p.lib hal.1 hal.2
  if hal.1 ≠ 0 ∧ hal.1 ≠ -EXFULL ∧ hal.1 ≠ -ENOENT then (hal.1, r.2) else r

/-- `ctrl_learn_handle_oes_event`. -/
def ctrlLearnHandleOesEvent (env : Env) (lib : Lib) (eventInfo : List FdbEvent) :
    Option (Int × Lib) :=
  (firstPass env ⟨lib, [], .add, false⟩ eventInfo).bind fun p =>
    if MAX_EVENT_INFO_SIZE < p.records.length then none else some (finishBatch env p)

/-! ## The set call -/

/-- What the set call leaves: its return value, the state, and the entries it reports as failed. -/
structure SetResult where
  err : Int
  lib : Lib
  failed : List MacEntry

/-- The loop that collects the notify records; `cookie` is the last one read from a record.
An entry that is stored as it is, or a delete of nothing, is left out. -/
def collectRecords (s : Fdb) (accessCmd : AccessCmd) :
    Option Nat → List MacEntry → List NotifyRecord
  | _, [] => []
  | cookie, m :: ms =>
    match fdbUcDbGetRecordByKey s m.macParams.key with
    | (err, none) =>
      if err = -ENOENT ∧ accessCmd = .add then
        ⟨.learn, m.macParams, .approve, m.type, cookie⟩ :: collectRecords s accessCmd cookie ms
      else collectRecords s accessCmd cookie ms
    | (_, some i) =>
      let r := s.records i
      if accessCmd = .add then
        if r.macParams.entryType = m.macParams.entryType ∧ r.macParams.logPort = m.macParams.logPort ∧
            r.type = m.type then collectRecords s accessCmd cookie ms
        else ⟨.learn, m.macParams, .approve, m.type, r.cookie⟩ ::
          collectRecords s accessCmd r.cookie ms
      else ⟨.age, m.macParams, .approve, m.type, cookie⟩ :: collectRecords s accessCmd cookie ms

/-- The list of approved entries of the set call, with the type the user gave. -/
def approvedEntries (records : List NotifyRecord) : List MacEntry :=
  (records.filter fun r => r.decision == .approve).map fun r => ⟨r.params, none, r.entryType⟩

/-- The entry the set call stores; its OES type follows from its FDB type. -/
def setEntry (r : NotifyRecord) (cookie : Option Nat) : MacEntry :=
  ⟨{ r.params with entryType := if r.entryType = .static then .static else .dynamic }, cookie,
    r.entryType⟩

/-- One approved record of an ADD: the cookie of a known record is kept. -/
def addRecord (env : Env) (lib : Lib) (r : NotifyRecord) : Int × Lib :=
  match r.cookie with
  | some c =>
    let a := fdbUcDbAddRecord lib.fdb (some (setEntry r (some c)))
    (a.1, { lib with fdb := a.2 })
  | none =>
    match initCookie env lib with
    | (err, cookie, lib) =>
      if err ≠ 0 then (err, lib) else
      let a := fdbUcDbAddRecord lib.fdb (some (setEntry r cookie))
      (a.1, { lib with fdb := a.2 })

/-- One approved record of a DELETE: the error code and whether it ends the call. -/
def removeRecord (env : Env) (lib : Lib) (r : NotifyRecord) : Int × Bool × Lib :=
  match fdbUcDbGetRecordByKey lib.fdb r.params.key with
  | (_, some i) =>
    let d := deleteRecord env lib i
    (d.1, decide (d.1 ≠ 0), d.2)
  | (err, none) => (err, false, lib)

/-- The HAL refused this record. -/
def isFailedMac (failed : List MacEntry) (r : NotifyRecord) : Bool :=
  failed.any fun f => f.macParams.vid == r.params.vid && f.macParams.logPort == r.params.logPort &&
    f.type == r.entryType && f.macParams.macAddr == r.params.macAddr

/-- The loop that updates the FDB; the first error ends it. -/
def updateDb (env : Env) (accessCmd : AccessCmd) (failed : List MacEntry) :
    Lib → Int → List NotifyRecord → Int × Lib
  | lib, err, [] => (err, lib)
  | lib, err, r :: rs =>
    if r.decision ≠ .approve ∨ isFailedMac failed r then updateDb env accessCmd failed lib err rs
    else if accessCmd = .add then
      let a := addRecord env lib r
      if a.1 ≠ 0 then a else updateDb env accessCmd failed a.2 a.1 rs
    else
      let d := removeRecord env lib r
      if d.2.1 then (d.1, d.2.2) else updateDb env accessCmd failed d.2.2 d.1 rs

/-- `FDB_GROUP_ADDRESS_MASK`: the address is not a unicast one. -/
def EtherAddr.isGroup (m : EtherAddr) : Bool := m.o0 &&& 1 != 0

/-- `ctrl_learn_api_fdb_uc_mac_addr_set`; `macEntry` is the list with its count, `none` if one of
the two pointers is `NULL`. -/
def ctrlLearnApiFdbUcMacAddrSet (env : Env) (lib : Lib) (accessCmd : AccessCmd)
    (macEntry : Option (List MacEntry)) : Option SetResult :=
  if !lib.isCtrlLearnStart then some ⟨0, lib, []⟩ else
  match macEntry with
  | none => some ⟨-EINVAL, lib, []⟩
  | some ms =>
    if ms = [] then some ⟨-EINVAL, lib, []⟩ else
    if accessCmd ≠ .add ∧ accessCmd ≠ .delete then some ⟨-EINVAL, lib, []⟩ else
    if ms.any (fun m => m.macParams.macAddr.isGroup) then some ⟨-EINVAL, lib, []⟩ else
    let records := collectRecords lib.fdb accessCmd none ms
    if MAX_EVENT_INFO_SIZE < records.length then none else
    let upd := updateApprovedList lib.fdb records
    if upd.1 ≠ 0 then some ⟨-EPERM, lib, []⟩ else
    let upd := notifyUser env 0 upd.2
    if upd.1 ≠ 0 then some ⟨-ENOMEM, lib, []⟩ else
    let approved := approvedEntries upd.2
    if approved = [] then some ⟨0, lib, []⟩ else
    let hal := env.hal accessCmd approved
    let failed := if hal.1 ≠ 0 then hal.2 else []
    let r := updateDb env accessCmd failed lib hal.1 upd.2
    some ⟨if hal.1 ≠ 0 then hal.1 else r.1, r.2, failed⟩

end MlnxLib.CtrlLearn
