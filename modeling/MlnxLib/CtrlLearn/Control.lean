import MlnxLib.CtrlLearn.ArrayBounds
import MlnxLib.CtrlLearn.KeptBy
import MlnxLib.Lib.Runs

/-!
# Runs of the library

The calls of `lib_ctrl_learn.c` as they come from the learning thread and from the users: batches of events,
the set call, the flushes, and the registration of the two callbacks, which may change between any two calls.
A flush of the user goes to the device; the FDB follows when the device reports it as an event.

* `ctrlLearnApiFdbUcFlushSet`, `ctrlLearnApiFdbUcFlushPortSet`, `ctrlLearnApiFdbUcFlushVidSet`,
  `ctrlLearnApiFdbUcFlushPortVidSet` — the flushes of the user.
* `Control`, `ControlCall`, `controlStep` — the library, and what it returns from a call.
* `PoolsConserved` — no record and no list head is lost, and each record is under its own key.
* `ControlCall.Fits` — what a call is given fits into the arrays, and it flushes vids that have a list.
* `ControlCall.Meets` — the range of the vids and ports, the size of the arrays, and the number of ports.

Principal results: `control_pools` — calls that fit keep to the arrays and lose no record, whatever else they are
given; `control_coherent` — calls in range return, and keep the index coherent.
-/

set_option autoImplicit false

namespace MlnxLib.CtrlLearn

/-! ## The flushes of the user -/

def EEXIST : Int := 17
def EOPNOTSUPP : Int := 95

/-- `oes_status_e`, as far as it is converted. -/
inductive OesStatus where
  | success
  | error
  | cmdUnsupported
  | paramError
  | paramExceedsRange
  | noMemory
  | oesNotInitialized
  | entryNotFound
  | entryAlreadyExists
  | noResources
  | other
  deriving DecidableEq, Repr

/-- `oes_status_to_errno`. -/
def oesStatusToErrno : OesStatus → Int
  | .success => 0
  | .error => -EPERM
  | .cmdUnsupported => -EOPNOTSUPP
  | .paramError => -EINVAL
  | .paramExceedsRange => -EINVAL
  | .noMemory => -EPERM
  | .oesNotInitialized => -EPERM
  | .entryNotFound => -ENOENT
  | .entryAlreadyExists => -EEXIST
  | .noResources => -EXFULL
  | .other => -EPERM

/-- What is to be flushed. -/
inductive FlushTarget where
  | all
  | port (logPort : UInt64)
  | vid (vid : UInt16)
  | portVid (vid : UInt16) (logPort : UInt64)
  deriving DecidableEq, Repr

/-- `ctrl_learn_notification_func`: its answers for the records of a batch, and for a flush. -/
structure NotificationCb where
  records : List NotifyRecord → Int × List NotifyDecision
  flush : FlushTarget → Int × NotifyDecision

/-- The library, with its callbacks and the flushes that the device has accepted. -/
structure Control where
  lib : Lib
  notificationCb : Option NotificationCb
  initDeinitCb : Option CookieCb
  accepted : List FlushTarget

/-- What the library calls, with the HAL of a call. -/
def Control.env (s : Control) (hal : AccessCmd → List MacEntry → Int × List MacEntry) : Env :=
  ⟨hal, s.notificationCb.map NotificationCb.records, s.initDeinitCb⟩

/-- The answer of the notification callback to a flush; without a callback it is approved. -/
def notifyFlush (s : Control) (target : FlushTarget) : Int × NotifyDecision :=
  match s.notificationCb with
  | none => (0, .approve)
  | some cb => cb.flush target

/-- The device is asked for a flush. -/
def askDevice (s : Control) (target : FlushTarget) (err : Int) (status : OesStatus) (failed : Int) :
    Int × Control :=
  if status = .success then (err, { s with accepted := s.accepted ++ [target] }) else (failed, s)

/-- `ctrl_learn_api_fdb_uc_flush_set`; an error of the device is logged only. -/
def ctrlLearnApiFdbUcFlushSet (s : Control) (status : OesStatus) : Int × Control :=
  if !s.lib.isCtrlLearnStart then (0, s) else
  let r := notifyFlush s .all
  if r.2 ≠ .approve then (0, s) else askDevice s .all r.1 status r.1

/-- `ctrl_learn_api_fdb_uc_flush_port_set`; here an error of the callback ends the call. -/
def ctrlLearnApiFdbUcFlushPortSet (s : Control) (logPort : UInt64) (status : OesStatus) : Int × Control :=
  if !s.lib.isCtrlLearnStart then (0, s) else
  let r := notifyFlush s (.port logPort)
  if r.1 ≠ 0 then (r.1, s) else
  if r.2 ≠ .approve then (0, s) else askDevice s (.port logPort) r.1 status (oesStatusToErrno status)

/-- `ctrl_learn_api_fdb_uc_flush_vid_set`. -/
def ctrlLearnApiFdbUcFlushVidSet (s : Control) (vid : UInt16) (status : OesStatus) : Int × Control :=
  if !s.lib.isCtrlLearnStart then (0, s) else
  let r := notifyFlush s (.vid vid)
  if r.2 ≠ .approve then (0, s) else askDevice s (.vid vid) r.1 status (oesStatusToErrno status)

/-- `ctrl_learn_api_fdb_uc_flush_port_vid_set`. -/
def ctrlLearnApiFdbUcFlushPortVidSet (s : Control) (vid : UInt16) (logPort : UInt64) (status : OesStatus) :
    Int × Control :=
  if !s.lib.isCtrlLearnStart then (0, s) else
  let r := notifyFlush s (.portVid vid logPort)
  if r.2 ≠ .approve then (0, s) else
  askDevice s (.portVid vid logPort) r.1 status (oesStatusToErrno status)

/-- The call for a target. -/
def flushSet (s : Control) (target : FlushTarget) (status : OesStatus) : Int × Control :=
  match target with
  | .all => ctrlLearnApiFdbUcFlushSet s status
  | .port logPort => ctrlLearnApiFdbUcFlushPortSet s logPort status
  | .vid vid => ctrlLearnApiFdbUcFlushVidSet s vid status
  | .portVid vid logPort => ctrlLearnApiFdbUcFlushPortVidSet s vid logPort status

/-! ## Callbacks -/

/-- `ctrl_learn_register_notification`; `paramsSet` is what the HAL says to the parameters, if there are any. -/
def ctrlLearnRegisterNotification (s : Control) (paramsSet : Option Int) (cb : Option NotificationCb) :
    Int × Control :=
  if !s.lib.isCtrlLearnStart then (-EPERM, s) else
  let err := paramsSet.getD 0
  if err ≠ 0 then (err, s) else (0, { s with notificationCb := cb })

/-- `ctrl_learn_unregister_notification_cb`. -/
def ctrlLearnUnregisterNotificationCb (s : Control) : Int × Control := (0, { s with notificationCb := none })

/-- `ctrl_learn_register_init_deinit_mac_addr_cookie_cb`. -/
def ctrlLearnRegisterInitDeinitMacAddrCookieCb (s : Control) (cb : Option CookieCb) : Int × Control :=
  (0, { s with initDeinitCb := cb })

/-- `ctrl_learn_unregister_init_deinit_mac_addr_cookie_cb`. -/
def ctrlLearnUnregisterInitDeinitMacAddrCookieCb (s : Control) : Int × Control :=
  (0, { s with initDeinitCb := none })

/-! ## The system -/

/-- What happens. -/
inductive ControlCall where
  | handleOesEvent (hal : AccessCmd → List MacEntry → Int × List MacEntry) (eventInfo : List FdbEvent)
  | macAddrSet (hal : AccessCmd → List MacEntry → Int × List MacEntry) (accessCmd : AccessCmd)
      (macEntry : Option (List MacEntry))
  | flushSet (target : FlushTarget) (status : OesStatus)
  | registerNotification (paramsSet : Option Int) (cb : Option NotificationCb)
  | unregisterNotification
  | registerInitDeinit (cb : Option CookieCb)
  | unregisterInitDeinit
  /-- The thread gets to its loop, or has been told to leave it. -/
  | started (up : Bool)
  /-- `fdb_uc_db_deinit` in a deinit of the library, and `fdb_uc_db_init` in its next init. -/
  | restart

/-- A call: what it returns, and the library after it. -/
def controlStep (s : Control) : ControlCall → Option (Int × Control)
  | .handleOesEvent hal eventInfo => (ctrlLearnHandleOesEvent (s.env hal) s.lib eventInfo).map fun r =>
      (r.1, { s with lib := r.2 })
  | .macAddrSet hal accessCmd macEntry =>
    (ctrlLearnApiFdbUcMacAddrSet (s.env hal) s.lib accessCmd macEntry).map fun r =>
      (r.err, { s with lib := r.lib })
  | .flushSet target status => some (flushSet s target status)
  | .registerNotification paramsSet cb => some (ctrlLearnRegisterNotification s paramsSet cb)
  | .unregisterNotification => some (ctrlLearnUnregisterNotificationCb s)
  | .registerInitDeinit cb => some (ctrlLearnRegisterInitDeinitMacAddrCookieCb s cb)
  | .unregisterInitDeinit => some (ctrlLearnUnregisterInitDeinitMacAddrCookieCb s)
  | .started up => some (0, { s with lib := { s.lib with isCtrlLearnStart := up } })
  | .restart => (fdbUcDbDeinit s.lib.fdb).map fun r =>
      let r' := fdbUcDbInit r.2 true true
      (r'.1, { s with lib := { s.lib with fdb := r'.2 } })

/-- The library after its first init. -/
def startControl : Control := ⟨⟨Fdb.init, false, []⟩, none, none, []⟩

/-- No record and no list head is lost, and a record is where its key says. -/
structure PoolsConserved (s : Fdb) : Prop where
  records : s.fdbMap.count + clPoolCount s.mainDbPool = MAX_FDB_ENTRIES
  heads : s.fbdFilterMap.count + clPoolCount s.fdbFltrPool = MAX_FILTER_ENTRIES
  apart : s.fdbMap.values.Nodup ∧ s.fbdFilterMap.values.Nodup
  keyed : ∀ k i, s.fdbMap.get k = some i → (s.records i).macParams.key = k

theorem FdbInv.poolsConserved {s : Fdb} {L : Index} (h : FdbInv s L) : PoolsConserved s where
  records := h.pool.count
  heads := h.index.pool.count
  apart := ⟨h.pool.values_nodup, h.index.pool.values_nodup⟩
  keyed _ _ hk := h.keyed hk

/-! ## What is kept -/

/-- The invariant, for any entries. -/
theorem keptBy_inv : KeptBy (fun s => ∃ L, FdbInv s L) fun _ _ => True where
  add e h _ := by
    obtain ⟨L, h⟩ := h
    exact add_inv h (some e)
  delete i h := by
    obtain ⟨L, h⟩ := h
    exact delete_inv h (some i)
  cookie i cookie h := by
    obtain ⟨L, h⟩ := h
    exact ⟨L, h.recookie i cookie⟩

theorem recookie_macParams (s : Fdb) (i : Nat) (cookie : Option Nat) (j : Nat) :
    ((setRecord s i { s.records i with cookie := cookie }).records j).macParams = (s.records j).macParams := by
  by_cases hj : j = i
  · subst hj
    simp [setRecord]
  · simp [setRecord, hj]

theorem PortsIn.recookie {P : UInt64 → Prop} {s : Fdb} (h : PortsIn P s) (i : Nat) (cookie : Option Nat) :
    PortsIn P (CtrlLearn.setRecord s i { s.records i with cookie := cookie }) := by
  intro j hj
  rw [recookie_macParams]
  exact h j hj

theorem PortsIn.delete {P : UInt64 → Prop} {s : Fdb} {L : Index} (hinv : FdbInv s L) (h : PortsIn P s) (i : Nat) :
    PortsIn P (fdbUcDbDeleteRecord s (some i)).2 := by
  obtain ⟨-, -, -, -, -, hrec, ⟨-, -, hmap⟩ | ⟨-, -, hdb⟩⟩ := delete_spec hinv i
  · intro j hj
    rw [hmap, OrdMap.values_removeItem] at hj
    rw [hrec]
    exact h j (List.mem_of_mem_filter hj)
  · exact h.sameDb hdb

/-- A delete of any record keeps coherence: one that is not stored is not linked. -/
theorem Coherent.delete_any {s : Fdb} {L : Index} (h : Coherent s L) (i : Nat) :
    ∃ L', Coherent (fdbUcDbDeleteRecord s (some i)).2 L' := by
  by_cases hi : i ∈ s.fdbMap.values
  · exact (h.delete hi).2.2.2
  obtain ⟨L', hinv, hthin, -, -, -, ⟨-, ⟨⟨l, hl⟩, -⟩, -⟩ | ⟨-, -, hdb⟩⟩ := delete_spec h.inv i
  · exact absurd (h.inv.owned hl) hi
  refine ⟨L', hinv, fun j hj f => ?_, h.ports.delete h.inv i⟩
  rw [hdb.fdbMap] at hj
  have hne : j ≠ i := by
    rintro rfl
    exact hi hj
  obtain ⟨l, hl⟩ := h.linked j hj f
  exact ⟨l, (hthin.agreesBut f j l hne).mpr hl⟩

/-- The ports that are present. -/
def Fdb.ports (s : Fdb) : Finset UInt64 := s.slots.image s.portOf

/-- **Coherence**, with ports of a set that is not too large. -/
theorem keptBy_coherent {T : Finset UInt64} (hT : T.card ≤ MAX_PORT_ENTRIES) :
    KeptBy (fun s => (∃ L, Coherent s L) ∧ PortsIn (· ∈ T) s)
      fun vid port => vid.toNat < MAX_VLAN_ENTRIES ∧ port.toNat < 2 ^ 32 ∧ port ∈ T where
  add e h he := by
    obtain ⟨⟨L, h⟩, hports⟩ := h
    have hports' := hports.add h.inv he.2.2
    refine ⟨(h.add he.1 he.2.1 ((Finset.card_le_card fun port hport => ?_).trans hT)).1, hports'⟩
    obtain ⟨i, hi, rfl⟩ := Finset.mem_image.mp hport
    exact hports' i (Fdb.mem_slots.mp hi)
  delete i h := by
    obtain ⟨⟨L, h⟩, hports⟩ := h
    exact ⟨h.delete_any i, hports.delete h.inv i⟩
  cookie i cookie h := by
    obtain ⟨⟨L, h⟩, hports⟩ := h
    have hbelow := portsBelow_iff.mpr ((portsBelow_iff.mp h.ports).recookie i cookie)
    exact ⟨⟨L, h.inv.recookie i cookie, h.linked, hbelow⟩, hports.recookie i cookie⟩

/-! ## Any calls -/

section

variable {s s' : Control} {err : Int}

theorem flushSet_lib (s : Control) (target : FlushTarget) (status : OesStatus) :
    (flushSet s target status).2.lib = s.lib := by
  have hask : ∀ target err failed, (askDevice s target err status failed).2.lib = s.lib := by
    intro target err failed
    unfold askDevice
    split <;> rfl
  unfold flushSet ctrlLearnApiFdbUcFlushSet ctrlLearnApiFdbUcFlushPortSet ctrlLearnApiFdbUcFlushVidSet
    ctrlLearnApiFdbUcFlushPortVidSet
  grind

theorem registerNotification_lib (s : Control) (paramsSet : Option Int) (cb : Option NotificationCb) :
    (ctrlLearnRegisterNotification s paramsSet cb).2.lib = s.lib := by
  unfold ctrlLearnRegisterNotification
  split
  · rfl
  dsimp only
  split <;> rfl

/-- **Each call keeps the invariant**, whatever its arguments. -/
theorem controlStep_inv {call : ControlCall} (h : ∃ L, FdbInv s.lib.fdb L)
    (hstep : controlStep s call = some (err, s')) : ∃ L, FdbInv s'.lib.fdb L := by
  cases call with
  | handleOesEvent hal eventInfo =>
    obtain ⟨r, hr, heq⟩ := Option.map_eq_some_iff.mp hstep
    cases heq
    exact keptBy_inv.handleOesEvent h (fun _ _ _ _ _ => Or.inr trivial) (fun _ _ _ _ => trivial) hr
  | macAddrSet hal accessCmd macEntry =>
    obtain ⟨r, hr, heq⟩ := Option.map_eq_some_iff.mp hstep
    cases heq
    exact keptBy_inv.macAddrSet h (fun _ _ _ _ _ => trivial) hr
  | flushSet target status =>
    have hlib := flushSet_lib s target status
    rw [controlStep, Option.some.injEq] at hstep
    rw [hstep] at hlib
    rw [show s'.lib = s.lib from hlib]
    exact h
  | registerNotification paramsSet cb =>
    have hlib := registerNotification_lib s paramsSet cb
    rw [controlStep, Option.some.injEq] at hstep
    rw [hstep] at hlib
    rw [show s'.lib = s.lib from hlib]
    exact h
  | unregisterNotification | registerInitDeinit _ | unregisterInitDeinit | started _ =>
    cases hstep
    exact h
  | restart =>
    obtain ⟨L, h⟩ := h
    obtain ⟨s₀, hdeinit, hinit, hfilters⟩ := deinit_spec h
    rw [controlStep, hdeinit] at hstep
    cases hstep
    exact ⟨_, (init_emptyDb hinit hfilters).2.inv⟩

end

/-! ## Calls that fit -/

/-- What a call is given fits into the arrays: so many events or entries, no more than those in what the HAL
reports, and vids that have a list in what is flushed. -/
def ControlCall.Fits : ControlCall → Prop
  | .handleOesEvent hal eventInfo => Env.Reports ⟨hal, none, none⟩ ∧ eventInfo.length ≤ MAX_EVENT_INFO_SIZE ∧
      ∀ vid, .flushVid vid ∈ eventInfo → vid.toNat < MAX_VLAN_ENTRIES
  | .macAddrSet hal _ (some ms) => Env.Reports ⟨hal, none, none⟩ ∧ ms.length ≤ MAX_EVENT_INFO_SIZE
  | _ => True

/-- The indices that a call uses into the arrays. -/
def ControlCall.accesses (s : Control) : ControlCall → List Access
  | .handleOesEvent hal eventInfo => handleAccesses (s.env hal) s.lib eventInfo
  | .macAddrSet hal accessCmd macEntry => setAccesses (s.env hal) s.lib accessCmd macEntry
  -- the user's flushes write the first record of a list, the others none
  | _ => []

/-- All indices of a call are in its arrays. -/
def KeepsToArrays (s : Control) (call : ControlCall) : Prop := Kept (fun _ => true) (call.accesses s)

/-- **A call that fits keeps to the arrays.** -/
theorem ControlCall.Fits.keepsToArrays {s : Control} {L : Index} {call : ControlCall} (hfits : call.Fits)
    (h : FdbInv s.lib.fdb L) : KeepsToArrays s call := by
  unfold KeepsToArrays
  cases call with
  | handleOesEvent hal eventInfo =>
    obtain ⟨hreports, hlen, hvids⟩ := hfits
    have hhal : (s.env hal).Reports := hreports
    refine (handle_kept_iff hhal rfl h fun _ => hlen).mpr ?_
    rintro as vid bs rfl -
    exact hvids vid (List.mem_append_right as (List.mem_cons_self ..))
  | macAddrSet hal accessCmd macEntry =>
    by_cases hok : ∃ ms ev, macEntry = some ms ∧ RecordEvent.cmd ev = accessCmd ∧
        s.lib.isCtrlLearnStart = true ∧ ∀ m ∈ ms, m.macParams.macAddr.isGroup = false
    · obtain ⟨ms, ev, rfl, rfl, hstart, huni⟩ := hok
      have hhal : (s.env hal).Reports := hfits.1
      refine (setAccesses_kept_iff rfl hhal h hstart ev huni).mpr ?_
      exact (List.length_filter_le _ _).trans hfits.2
    · rw [ControlCall.accesses, setAccesses_rejected hok]
      exact kept_nil
  | _ => exact kept_nil

/-- **No call loses a record or a list head**, in any run of calls that fit, and each keeps to the arrays: whatever
the vids and ports of the entries are, and whatever the HAL and the callbacks answer. -/
theorem control_pools (calls : List ControlCall) (hfits : ∀ call ∈ calls, call.Fits) :
    Runs.AllMeet (fun s call => (controlStep s call).map Prod.snd) KeepsToArrays startControl calls ∧
    ∀ s, Runs.run (fun s call => (controlStep s call).map Prod.snd) startControl calls = some s →
      PoolsConserved s.lib.fdb := by
  have hkeep : ∀ {s s' : Control} {call : ControlCall}, (∃ L, FdbInv s.lib.fdb L) →
      (controlStep s call).map Prod.snd = some s' → ∃ L, FdbInv s'.lib.fdb L := by
    intro s s' call h hstep
    obtain ⟨⟨err, s'⟩, hr, rfl⟩ := Option.map_eq_some_iff.mp hstep
    exact controlStep_inv h hr
  have hstart : ∃ L, FdbInv startControl.lib.fdb L := ⟨_, emptyDb_init.inv⟩
  constructor
  · refine Runs.AllMeet.of_invariant (I := fun s => ∃ L, FdbInv s.lib.fdb L) (fun h _ hstep => hkeep h hstep)
      (fun s call h (hcall : call.Fits) => ?_) calls hstart (Runs.allMeet_of_mem hfits _)
    obtain ⟨L, h⟩ := h
    exact hcall.keepsToArrays h
  · intro s hrun
    obtain ⟨L, h⟩ := Runs.invariant_of_step (I := fun s => ∃ L, FdbInv s.lib.fdb L) hkeep calls hstart hrun
    exact h.poolsConserved

/-! ## Calls in range -/

/-- The HAL of a call does as it is documented. -/
def ControlCall.Reports : ControlCall → Prop
  | .handleOesEvent hal _ => Env.Reports ⟨hal, none, none⟩
  | _ => True

/-- Vids that have a list, 32-bit ports, as many records as there is room for, and with those of the call no
more ports than there are heads for. -/
def ControlCall.Meets (s : Control) : ControlCall → Prop
  | .handleOesEvent _ eventInfo => (∀ e ∈ eventInfo, e.InRange) ∧ eventInfo.length ≤ MAX_EVENT_INFO_SIZE ∧
      (s.lib.fdb.ports ∪ ((eventInfo.filterMap FdbEvent.params).map MacParams.logPort).toFinset).card ≤
        MAX_PORT_ENTRIES
  | .macAddrSet _ _ (some ms) => (∀ m ∈ ms, m.macParams.vid.toNat < MAX_VLAN_ENTRIES ∧
        m.macParams.logPort.toNat < 2 ^ 32) ∧ ms.length ≤ MAX_EVENT_INFO_SIZE ∧
      (s.lib.fdb.ports ∪ (ms.map fun m => m.macParams.logPort).toFinset).card ≤ MAX_PORT_ENTRIES
  | _ => True

instance (s : Control) : DecidablePred (ControlCall.Meets s)
  | .handleOesEvent _ eventInfo => inferInstanceAs (Decidable ((∀ e ∈ eventInfo, e.InRange) ∧
      eventInfo.length ≤ MAX_EVENT_INFO_SIZE ∧
      (s.lib.fdb.ports ∪ ((eventInfo.filterMap FdbEvent.params).map MacParams.logPort).toFinset).card ≤
        MAX_PORT_ENTRIES))
  | .macAddrSet _ _ (some ms) => inferInstanceAs (Decidable ((∀ m ∈ ms,
        m.macParams.vid.toNat < MAX_VLAN_ENTRIES ∧ m.macParams.logPort.toNat < 2 ^ 32) ∧
      ms.length ≤ MAX_EVENT_INFO_SIZE ∧
      (s.lib.fdb.ports ∪ (ms.map fun m => m.macParams.logPort).toFinset).card ≤ MAX_PORT_ENTRIES))
  | .macAddrSet _ _ none => isTrue trivial
  | .flushSet _ _ => isTrue trivial
  | .registerNotification _ _ => isTrue trivial
  | .unregisterNotification => isTrue trivial
  | .registerInitDeinit _ => isTrue trivial
  | .unregisterInitDeinit => isTrue trivial
  | .started _ => isTrue trivial
  | .restart => isTrue trivial

section

variable {s : Control}

/-- **An event in range is handled**: no flush runs out of its list. -/
theorem firstPassStep_returns (env : Env) {p : FirstPass} {L : Index} (h : Reached p.lib.fdb L) {e : FdbEvent}
    (he : e.InRange) : ∃ p', firstPassStep env p e = some p' ∧ (∃ L', Reached p'.lib.fdb L') := by
  have hfilter : ∀ {filter : KeyFilter} (fld : FltrField), filter.field = some fld →
      (filter.filterByVid = true → filter.vid.toNat < MAX_VLAN_ENTRIES) →
      (filter.filterByLogPort = true → filter.logPort.toNat < 2 ^ 32) →
      ∃ p', (ctrlLearnFlushDbByFilter env p.lib filter).map (fun r => { p with lib := r.2 }) = some p' ∧
        ∃ L', Reached p'.lib.fdb L' := by
    intro filter fld hfld hvid hport
    obtain ⟨err, lib', hrun, hflushed⟩ := flushFilter_spec env h hfld hvid hport
    exact ⟨{ p with lib := lib' }, by rw [hrun, Option.map_some], hflushed.reached h⟩
  cases e with
  | learn q | age q => exact ⟨_, rfl, L, h⟩
  | other => exact ⟨_, rfl, L, h⟩
  | flushAll =>
    obtain ⟨err, lib', hrun, hflushed⟩ := flushAll_spec env h
    refine ⟨{ p with lib := lib' }, ?_, hflushed.reached h⟩
    rw [firstPassStep, hrun, Option.map_some]
  | flushVid vid => exact hfilter .vid rfl (fun _ => he) (fun hc => by cases hc)
  | flushPort port => exact hfilter .port rfl (fun hc => by cases hc) (fun _ => he)
  | flushPortVid port vid => exact hfilter .vidPort rfl (fun _ => he.2) (fun _ => he.1)

theorem firstPass_returns (env : Env) (events : List FdbEvent) {p : FirstPass} {L : Index} (h : Reached p.lib.fdb L)
    (hevents : ∀ e ∈ events, e.InRange) : ∃ p', firstPass env p events = some p' := by
  induction events generalizing p L with
  | nil => exact ⟨p, rfl⟩
  | cons e events ih =>
    obtain ⟨p₁, hstep, L₁, h₁⟩ := firstPassStep_returns env h (hevents e (List.mem_cons_self ..))
    obtain ⟨p', hrest⟩ := ih h₁ fun e' he' => hevents e' (List.mem_cons_of_mem _ he')
    exact ⟨p', by rw [firstPass, hstep, Option.bind_some, hrest]⟩

/-- **A batch in range returns.** -/
theorem handleOesEvent_returns (env : Env) {lib : Lib} {L : Index} (h : Reached lib.fdb L) {events : List FdbEvent}
    (hevents : ∀ e ∈ events, e.InRange) (hlen : events.length ≤ MAX_EVENT_INFO_SIZE) :
    ∃ r, ctrlLearnHandleOesEvent env lib events = some r := by
  obtain ⟨p, hp⟩ := firstPass_returns env (p := ⟨lib, [], .add, false⟩) events h hevents
  have hrecords := (keptBy_inv.firstPass events ⟨L, h.inv⟩ hp).2
  have hroom : p.records.length ≤ MAX_EVENT_INFO_SIZE := by
    rw [← List.length_map (f := NotifyRecord.params), hrecords, List.map_nil, List.nil_append]
    exact (List.length_filterMap_le _ _).trans hlen
  refine ⟨finishBatch env p, ?_⟩
  unfold ctrlLearnHandleOesEvent
  rw [hp, Option.bind_some, if_neg (Nat.not_lt.mpr hroom)]

theorem length_collectRecords_le (s : Fdb) (accessCmd : AccessCmd) (cookie : Option Nat) (ms : List MacEntry) :
    (collectRecords s accessCmd cookie ms).length ≤ ms.length := by
  induction ms generalizing cookie with
  | nil => exact Nat.le_refl 0
  | cons m ms ih =>
    have hskip := fun cookie => (ih cookie).trans (Nat.le_succ _)
    have hcons := fun cookie => Nat.succ_le_succ (ih cookie)
    rw [collectRecords]
    split
    · split
      · exact hcons cookie
      · exact hskip cookie
    · dsimp only
      split
      · split
        · exact hskip cookie
        · exact hcons _
      · exact hcons cookie

/-- **A set call with room for its records returns.** -/
theorem macAddrSet_returns (env : Env) (lib : Lib) (accessCmd : AccessCmd) {macEntry : Option (List MacEntry)}
    (hlen : ∀ ms ∈ macEntry, ms.length ≤ MAX_EVENT_INFO_SIZE) :
    ∃ r, ctrlLearnApiFdbUcMacAddrSet env lib accessCmd macEntry = some r := by
  unfold ctrlLearnApiFdbUcMacAddrSet
  split
  · exact ⟨_, rfl⟩
  cases macEntry with
  | none => exact ⟨_, rfl⟩
  | some ms =>
    have hroom := Nat.not_lt.mpr ((length_collectRecords_le lib.fdb accessCmd none ms).trans (hlen ms rfl))
    dsimp only
    rw [if_neg hroom]
    repeat' split
    all_goals exact ⟨_, rfl⟩

/-- **A call in range returns and keeps the index coherent.** -/
theorem controlStep_coherent {call : ControlCall} (hhal : call.Reports) (h : ∃ L, Coherent s.lib.fdb L)
    (hmeets : call.Meets s) : ∃ r, controlStep s call = some r ∧ ∃ L, Coherent r.2.lib.fdb L := by
  obtain ⟨L, h⟩ := h
  have hpresent : PortsIn (· ∈ s.lib.fdb.ports) s.lib.fdb :=
    fun i hi => Finset.mem_image.mpr ⟨i, Fdb.mem_slots.mpr hi, rfl⟩
  cases call with
  | handleOesEvent hal eventInfo =>
    obtain ⟨hrange, hlen, hcard⟩ := hmeets
    obtain ⟨r, hr⟩ := handleOesEvent_returns (s.env hal) h.reached hrange hlen
    refine ⟨(r.1, { s with lib := r.2 }), by rw [controlStep, hr, Option.map_some], ?_⟩
    refine ((keptBy_coherent hcard).handleOesEvent ⟨⟨L, h⟩, fun i hi => Finset.mem_union_left _ (hpresent i hi)⟩
      (fun cmd es hok e he => Or.inl ?_) (fun e he p hp => ?_) hr).1
    · rw [← (hhal cmd es).1 hok]
      exact he
    · have hport : p.logPort ∈ ((eventInfo.filterMap FdbEvent.params).map MacParams.logPort).toFinset :=
        List.mem_toFinset.mpr (List.mem_map_of_mem (List.mem_filterMap.mpr ⟨e, he, hp⟩))
      have hin := hrange e he
      cases e with
      | learn q | age q =>
        cases hp
        exact ⟨hin.1, hin.2, Finset.mem_union_right _ hport⟩
      | flushAll | flushVid _ | flushPort _ | flushPortVid _ _ | other => cases hp
  | macAddrSet hal accessCmd macEntry =>
    cases macEntry with
    | none =>
      obtain ⟨r, hr⟩ := macAddrSet_returns (s.env hal) s.lib accessCmd
        (show ∀ ms ∈ (none : Option (List MacEntry)), _ from fun _ hms => by cases hms)
      refine ⟨(r.err, { s with lib := r.lib }), by rw [controlStep, hr, Option.map_some], L, ?_⟩
      unfold ctrlLearnApiFdbUcMacAddrSet at hr
      split at hr
      · cases hr
        exact h
      · cases hr
        exact h
    | some ms =>
      obtain ⟨hrange, hlen, hcard⟩ := hmeets
      obtain ⟨r, hr⟩ := macAddrSet_returns (s.env hal) s.lib accessCmd
        (show ∀ ms' ∈ some ms, _ from fun _ hms => by cases hms; exact hlen)
      refine ⟨(r.err, { s with lib := r.lib }), by rw [controlStep, hr, Option.map_some], ?_⟩
      refine ((keptBy_coherent hcard).macAddrSet
        ⟨⟨L, h⟩, fun i hi => Finset.mem_union_left _ (hpresent i hi)⟩ (fun _ ms' hms' m hm => ?_) hr).1
      cases hms'
      refine ⟨(hrange m hm).1, (hrange m hm).2, Finset.mem_union_right _ ?_⟩
      exact List.mem_toFinset.mpr (List.mem_map_of_mem hm)
  | flushSet target status =>
    refine ⟨flushSet s target status, rfl, L, ?_⟩
    rw [flushSet_lib]
    exact h
  | registerNotification paramsSet cb =>
    refine ⟨ctrlLearnRegisterNotification s paramsSet cb, rfl, L, ?_⟩
    rw [registerNotification_lib]
    exact h
  | unregisterNotification | registerInitDeinit _ | unregisterInitDeinit | started _ => exact ⟨_, rfl, L, h⟩
  | restart =>
    obtain ⟨s₀, hdeinit, hinit, hfilters⟩ := deinit_spec h.inv
    have hempty := (init_emptyDb hinit hfilters).2
    refine ⟨_, by rw [controlStep, hdeinit, Option.map_some], _, hempty.inv, fun i hi => ?_, fun i hi => ?_⟩
    · rw [hempty.fdbMap] at hi
      cases hi
    · rw [hempty.fdbMap] at hi
      cases hi

end

/-- **The index is coherent in every run of calls in range**, and each of them returns: no list is left by its
end, no array is too short, and no loop goes on.  The users may register any callbacks at any time. -/
theorem control_coherent (calls : List ControlCall) (hhal : ∀ call ∈ calls, call.Reports)
    (hcalls : Runs.AllMeet (fun s call => (controlStep s call).map Prod.snd) (fun s call => call.Meets s)
      startControl calls) :
    ∃ rs, Runs.trace controlStep startControl calls = some rs ∧
      ∀ r ∈ rs, IndexCoherent r.2.lib.fdb ∧ PoolsConserved r.2.lib.fdb := by
  obtain ⟨rs, hrs, hall⟩ : ∃ rs, Runs.trace controlStep startControl calls = some rs ∧
      ∀ r ∈ rs, ∃ L, Coherent r.2.lib.fdb L :=
    Runs.exists_trace (I := fun s => ∃ L, Coherent s.lib.fdb L) calls
      (fun s call hmem h hmeets => controlStep_coherent (hhal call hmem) h hmeets) ⟨_, coherent_init⟩ hcalls
  refine ⟨rs, hrs, fun r hr => ?_⟩
  obtain ⟨L, h⟩ := hall r hr
  exact ⟨h.indexCoherent, h.inv.poolsConserved⟩

/-! ## A run -/

/-- A HAL that takes all entries. -/
def takesAll : AccessCmd → List MacEntry → Int × List MacEntry := fun _ es => (0, es)

/-- A callback that approves of everything. -/
def approvesAll : NotificationCb := ⟨fun rs => (0, rs.map fun _ => .approve), fun _ => (0, .approve)⟩

/-- Two learned addresses, one of which moves to another port, a static one, a flush, and a restart. -/
def sampleCalls : List ControlCall :=
  [.started true, .registerNotification none (some approvesAll),
    .handleOesEvent takesAll [.learn ⟨7, ⟨0, 0, 0, 0, 0, 1⟩, 5, .dynamic⟩, .learn ⟨7, ⟨0, 0, 0, 0, 0, 2⟩, 5, .dynamic⟩],
    .macAddrSet takesAll .add (some [⟨⟨8, ⟨0, 0, 0, 0, 0, 3⟩, 5, .static⟩, none, .static⟩,
      ⟨⟨7, ⟨0, 0, 0, 0, 0, 1⟩, 6, .dynamic⟩, none, .ageable⟩]),
    .flushSet (.port 5) .success, .handleOesEvent takesAll [.flushPort 5], .unregisterNotification, .restart]

theorem takesAll_reports : Env.Reports ⟨takesAll, none, none⟩ := fun _ es => ⟨fun _ => rfl, List.Sublist.refl es⟩

theorem control_pools_sample : ∃ s,
    Runs.run (fun s call => (controlStep s call).map Prod.snd) startControl sampleCalls = some s ∧
      PoolsConserved s.lib.fdb := by
  have hsome : (Runs.run (fun s call => (controlStep s call).map Prod.snd) startControl sampleCalls).isSome := by
    decide +kernel
  obtain ⟨s, hs⟩ := Option.isSome_iff_exists.mp hsome
  refine ⟨s, hs, (control_pools sampleCalls ?_).2 s hs⟩
  intro call hcall
  simp only [sampleCalls, List.mem_cons, List.not_mem_nil, or_false] at hcall
  rcases hcall with rfl | rfl | rfl | rfl | rfl | rfl | rfl | rfl
  case inr.inr.inl => exact ⟨takesAll_reports, by decide, by simp⟩
  case inr.inr.inr.inl => exact ⟨takesAll_reports, by decide⟩
  case inr.inr.inr.inr.inr.inl => exact ⟨takesAll_reports, by decide, by simp⟩
  all_goals exact trivial

theorem control_coherent_sample : ∃ rs, Runs.trace controlStep startControl sampleCalls = some rs ∧
    ∀ r ∈ rs, IndexCoherent r.2.lib.fdb ∧ PoolsConserved r.2.lib.fdb := by
  refine control_coherent sampleCalls ?_ (by decide +kernel)
  intro call hcall
  simp only [sampleCalls, List.mem_cons, List.not_mem_nil, or_false] at hcall
  rcases hcall with rfl | rfl | rfl | rfl | rfl | rfl | rfl | rfl
  all_goals first | exact takesAll_reports | exact trivial

end MlnxLib.CtrlLearn
