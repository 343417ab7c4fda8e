import MlnxLib.Lib.Ownership
import MlnxLib.CtrlLearn.Flush

/-!
# Who owns a cookie

The records of the FDB carry cookies that a user's callback creates (`COOKIE_OP_INIT`) and destroys
(`COOKIE_OP_DEINIT`).  Runs of single events and of set calls with one record, over a callback that
returns a fresh cookie on every init, keep each cookie in one record until it is destroyed — except
for a LEARN of a known station, which creates a second cookie and drops the first.

Principal results: `CookieState.step` — one call, unless it is such a LEARN; `cookie_owned_run` —
every state of a run without one.
-/

set_option autoImplicit false

namespace MlnxLib.CtrlLearn

open Ownership

/-! ## Calls -/

/-- A call of the library with one event or one record. -/
inductive LibOp where
  | event (e : FdbEvent)
  | set (accessCmd : AccessCmd) (m : MacEntry)
  deriving DecidableEq, Repr

def LibOp.step (env : Env) (lib : Lib) : LibOp → Option Lib
  | .event e => (ctrlLearnHandleOesEvent env lib [e]).map Prod.snd
  | .set cmd m => (ctrlLearnApiFdbUcMacAddrSet env lib cmd (some [m])).map SetResult.lib

def runOps (env : Env) : Lib → List LibOp → Option Lib
  | lib, [] => some lib
  | lib, op :: ops => (op.step env lib).bind fun lib => runOps env lib ops

/-- The range of the vids and the ports of the calls. -/
def LibOp.InRange : LibOp → Prop
  | .event e => e.InRange
  | .set _ m => m.macParams.vid.toNat < MAX_VLAN_ENTRIES ∧ m.macParams.logPort.toNat < 2 ^ 32

instance : DecidablePred LibOp.InRange
  | .event e => inferInstanceAs (Decidable e.InRange)
  | .set _ m => inferInstanceAs (Decidable
      (m.macParams.vid.toNat < MAX_VLAN_ENTRIES ∧ m.macParams.logPort.toNat < 2 ^ 32))

/-- The decision on a single record: after the check of the pool and the user's callback. -/
def notifyOne (env : Env) (s : Fdb) (r : NotifyRecord) : Int × List NotifyRecord :=
  notifyUser env 0 (updateApprovedList s [r]).2

def approves (env : Env) (s : Fdb) (r : NotifyRecord) : Bool :=
  (notifyOne env s r).2.any (fun r => r.decision == .approve)

/-- The key for which the call asks for a new cookie: that of an approved LEARN, or of an approved
set of an address that is not stored. -/
def LibOp.creates (env : Env) (lib : Lib) : LibOp → Option Nat
  | .event (.learn p) =>
    if approves env lib.fdb ⟨.learn, p, .approve, .ageable, none⟩ then some p.key else none
  | .set .add m =>
    let r : NotifyRecord := ⟨.learn, m.macParams, .approve, m.type, none⟩
    if lib.isCtrlLearnStart && !m.macParams.macAddr.isGroup &&
        (lib.fdb.lookup m.macParams.key).isNone && (notifyOne env lib.fdb r).1 == 0 &&
        approves env lib.fdb r then some m.macParams.key else none
  | _ => none

/-- The calls that lose no cookie: one that asks for a new cookie is for a key that is not stored,
and there is a free record for it. -/
def LibOp.KeepsCookies (env : Env) (lib : Lib) (op : LibOp) : Prop :=
  ∀ k ∈ op.creates env lib, lib.fdb.lookup k = none ∧ clPoolCount lib.fdb.mainDbPool ≠ 0

instance (env : Env) (lib : Lib) (op : LibOp) : Decidable (op.KeepsCookies env lib) :=
  inferInstanceAs (Decidable (∀ k ∈ op.creates env lib, _))

/-- A run whose calls are in range and lose no cookie, with at most `MAX_PORT_ENTRIES` distinct
ports after each call. -/
def CookieRun (env : Env) : Lib → List LibOp → Prop
  | _, [] => True
  | lib, op :: ops => op.InRange ∧ op.KeepsCookies env lib ∧
      match op.step env lib with
      | none => True
      | some lib' => lib'.fdb.distinctPorts ≤ MAX_PORT_ENTRIES ∧ CookieRun env lib' ops

instance decidableCookieRun (env : Env) : ∀ (lib : Lib) (ops : List LibOp),
    Decidable (CookieRun env lib ops)
  | _, [] => isTrue trivial
  | lib, op :: ops =>
    haveI : Decidable (match op.step env lib with
        | none => True
        | some lib' => lib'.fdb.distinctPorts ≤ MAX_PORT_ENTRIES ∧ CookieRun env lib' ops) :=
      match op.step env lib with
      | none => isTrue trivial
      | some lib' =>
        haveI := decidableCookieRun env lib' ops
        inferInstanceAs (Decidable (_ ∧ _))
    inferInstanceAs (Decidable (_ ∧ _ ∧ _))

/-! ## Ownership -/

/-- The cookie of the record of a key. -/
def Fdb.cookieAt (s : Fdb) (k : Nat) : Option (Option Nat) := (s.lookup k).map MacEntry.cookie

/-- Every cookie an init returned is the cookie of exactly one record and was not destroyed, or it
is in no record and was destroyed exactly once. -/
def CookieOwned (lib : Lib) : Prop :=
  ∀ c, .init (some c) ∈ lib.cookieLog →
    ((∃! k, lib.fdb.cookieAt k = some (some c)) ∧ lib.cookieLog.count (.deinit (some c)) = 0) ∨
    ((∀ k, lib.fdb.cookieAt k ≠ some (some c)) ∧ lib.cookieLog.count (.deinit (some c)) = 1)

/-- A callback whose inits succeed and return a cookie no earlier init returned. -/
def Fresh (cb : CookieCb) : Prop :=
  ∀ log, ∃ c, cb log .init none = (0, some c) ∧ .init (some c) ∉ log

def CookieCall.call : CookieCall → Call (Option Nat)
  | .init c => .alloc c
  | .deinit c => .free c

theorem CookieCall.call_injective : Function.Injective CookieCall.call := by
  intro a b h
  cases a <;> cases b <;> simp_all [CookieCall.call]

def Lib.calls (lib : Lib) : List (Call (Option Nat)) := lib.cookieLog.map CookieCall.call

/-- What holds between two calls: the database is coherent, its cookies are accounted for, and no
init returned `NULL`. -/
structure CookieState (lib : Lib) : Prop where
  coherent : ∃ L, Coherent lib.fdb L
  owned : Owned lib.fdb.cookieAt lib.calls
  nonNull : .init none ∉ lib.cookieLog

theorem CookieState.cookieOwned {lib : Lib} (h : CookieState lib) : CookieOwned lib := by
  intro c hc
  have hc' : .alloc (some c) ∈ lib.calls := List.mem_map.mpr ⟨_, hc, rfl⟩
  have hcount : lib.calls.count (.free (some c)) = lib.cookieLog.count (.deinit (some c)) :=
    List.count_map_of_injective lib.cookieLog CookieCall.call CookieCall.call_injective
      (.deinit (some c))
  have hone := h.owned.exactly_one hc'
  rw [hcount] at hone
  exact hone

/-! ## Records -/

theorem lookup_some {s : Fdb} {k : Nat} {e : MacEntry} (h : s.lookup k = some e) :
    ∃ i, s.fdbMap.get k = some i ∧ s.records i = e := by
  unfold Fdb.lookup at h
  exact Option.map_eq_some_iff.mp h

theorem lookup_none_iff {s : Fdb} {k : Nat} : s.lookup k = none ↔ s.fdbMap.get k = none := by
  unfold Fdb.lookup
  exact Option.map_eq_none_iff

/-- **An add in a coherent state**, with a free record for a new key. -/
theorem coherent_add {s : Fdb} {L : Index} (h : Coherent s L) {e : MacEntry}
    (hv : e.macParams.vid.toNat < MAX_VLAN_ENTRIES) (he : e.macParams.logPort.toNat < 2 ^ 32)
    (hports : (fdbUcDbAddRecord s (some e)).2.distinctPorts ≤ MAX_PORT_ENTRIES)
    (hroom : s.lookup e.macParams.key = none → clPoolCount s.mainDbPool ≠ 0) :
    (∃ L', Coherent (fdbUcDbAddRecord s (some e)).2 L') ∧
    (fdbUcDbAddRecord s (some e)).2.lookup = Function.update s.lookup e.macParams.key (some e) := by
  obtain ⟨hcoh, hcode⟩ := h.add hv he hports
  have herr : (fdbUcDbAddRecord s (some e)).1 = 0 := by
    obtain herr | ⟨hk, hp⟩ := hcode
    · exact herr
    · exact absurd hp (hroom (lookup_none_iff.mpr hk))
  have hdb := db_add h.inv hv (by rw [herr]; exact ⟨by decide, by decide⟩)
  refine ⟨hcoh, ?_⟩
  funext k
  rw [lookup_eq, hdb, PinMap.put_apply]
  by_cases hk : e.macParams.key = k
  · subst hk
    rw [if_pos rfl, Function.update_self]
    cases s.db e.macParams.key <;> rfl
  · rw [if_neg hk, Function.update_of_ne (Ne.symm hk), lookup_eq]

/-- **A record deleted with its cookie**, in a coherent state. -/
theorem coherent_deleteRecord {env : Env} {cb : CookieCb} (hcb : env.initDeinitCb = some cb)
    {lib : Lib} {L : Index} (h : Coherent lib.fdb L) {k i : Nat}
    (hk : lib.fdb.fdbMap.get k = some i) :
    (∃ L', Coherent (deleteRecord env lib i).2.fdb L') ∧
    (deleteRecord env lib i).2.fdb.lookup = Function.update lib.fdb.lookup k none ∧
    (deleteRecord env lib i).2.cookieLog = lib.cookieLog ++ [.deinit (lib.fdb.records i).cookie] := by
  have hi := OrdMap.get_mem_values hk
  obtain ⟨htaken, hmap⟩ := deinitCookie_spec env h.inv hi
  have h₁ : Coherent (deinitCookie env lib i).fdb L := by
    refine ⟨htaken.inv, fun j hj f => ?_, (htaken.reached h.reached).ports⟩
    exact h.linked j (htaken.mem_values hj) f
  obtain ⟨-, hdmap, hdrec, hcoh⟩ := h₁.delete (i := i) (by rw [hmap]; exact hi)
  have hlog : (deleteRecord env lib i).2.cookieLog =
      lib.cookieLog ++ [.deinit (lib.fdb.records i).cookie] := by
    simp [deleteRecord, deinitCookie, hcb]
  refine ⟨hcoh, ?_, hlog⟩
  funext k'
  show ((fdbUcDbDeleteRecord (deinitCookie env lib i).fdb (some i)).2.fdbMap.get k').map
    (fdbUcDbDeleteRecord (deinitCookie env lib i).fdb (some i)).2.records = _
  rw [hdmap, hdrec, hmap, OrdMap.get_removeItem]
  by_cases hkk : k' = k
  · subst hkk
    rw [if_pos hk, Function.update_self]
    rfl
  · have hne : lib.fdb.fdbMap.get k' ≠ some i :=
      fun hg => hkk (OrdMap.key_unique h.inv.pool.values_nodup hg hk)
    rw [if_neg hne, Function.update_of_ne hkk, Fdb.lookup]
    cases hg : lib.fdb.fdbMap.get k' with
    | none => rfl
    | some j =>
      have hj : j ≠ i := by
        rintro rfl
        exact hne hg
      simp [htaken.others j hj]

theorem cookieAt_update {s s' : Fdb} {k : Nat} {x : Option MacEntry}
    (h : s'.lookup = Function.update s.lookup k x) :
    s'.cookieAt = Function.update s.cookieAt k (x.map MacEntry.cookie) := by
  funext k'
  unfold Fdb.cookieAt
  rw [h]
  by_cases hk : k' = k
  · subst hk
    simp
  · simp [Function.update_of_ne hk]

/-! ## The three ways to change a record -/

section Step

variable {env : Env} {cb : CookieCb} {lib : Lib}

/-- **A record leaves with its cookie.** -/
theorem CookieState.deleteRecord (hcb : env.initDeinitCb = some cb) (h : CookieState lib) {k i : Nat}
    (hk : lib.fdb.fdbMap.get k = some i) : CookieState (deleteRecord env lib i).2 := by
  obtain ⟨L, hc⟩ := h.coherent
  obtain ⟨hcoh, hlook, hlog⟩ := coherent_deleteRecord hcb hc hk
  have hheld : lib.fdb.cookieAt k = some (lib.fdb.records i).cookie := by
    simp [Fdb.cookieAt, Fdb.lookup, hk]
  refine ⟨hcoh, ?_, ?_⟩
  · rw [cookieAt_update hlook, Lib.calls, hlog, List.map_append]
    exact h.owned.free hheld
  · rw [hlog]
    simpa using h.nonNull

/-- **A record is created with a fresh cookie.** -/
theorem CookieState.create (h : CookieState lib) {e : MacEntry} {c : Nat}
    (hv : e.macParams.vid.toNat < MAX_VLAN_ENTRIES) (hp : e.macParams.logPort.toNat < 2 ^ 32)
    (hports : (fdbUcDbAddRecord lib.fdb (some e)).2.distinctPorts ≤ MAX_PORT_ENTRIES)
    (hnew : lib.fdb.lookup e.macParams.key = none) (hpool : clPoolCount lib.fdb.mainDbPool ≠ 0)
    (hcookie : e.cookie = some c) (hfresh : .init (some c) ∉ lib.cookieLog) :
    CookieState { lib with
      fdb := (fdbUcDbAddRecord lib.fdb (some e)).2
      cookieLog := lib.cookieLog ++ [.init (some c)] } := by
  obtain ⟨L, hc⟩ := h.coherent
  obtain ⟨hcoh, hlook⟩ := coherent_add hc hv hp hports (fun _ => hpool)
  have hfresh' : .alloc (some c) ∉ lib.calls := by
    intro hmem
    obtain ⟨call, hcall, he⟩ := List.mem_map.mp hmem
    have hinit : call = .init (some c) := CookieCall.call_injective he
    rw [hinit] at hcall
    exact hfresh hcall
  refine ⟨hcoh, ?_, ?_⟩
  · show Owned (fdbUcDbAddRecord lib.fdb (some e)).2.cookieAt
      ((lib.cookieLog ++ [CookieCall.init (some c)]).map CookieCall.call)
    rw [cookieAt_update hlook, List.map_append, Option.map_some, hcookie]
    exact h.owned.alloc (by simp [Fdb.cookieAt, hnew]) hfresh'
  · simpa using h.nonNull

/-- **A record is overwritten and keeps its cookie.** -/
theorem CookieState.overwrite (h : CookieState lib) {e : MacEntry}
    (hv : e.macParams.vid.toNat < MAX_VLAN_ENTRIES) (hp : e.macParams.logPort.toNat < 2 ^ 32)
    (hports : (fdbUcDbAddRecord lib.fdb (some e)).2.distinctPorts ≤ MAX_PORT_ENTRIES)
    (hold : lib.fdb.cookieAt e.macParams.key = some e.cookie) :
    CookieState { lib with fdb := (fdbUcDbAddRecord lib.fdb (some e)).2 } := by
  obtain ⟨L, hc⟩ := h.coherent
  have hknown : lib.fdb.lookup e.macParams.key ≠ none := by
    intro hnone
    simp [Fdb.cookieAt, hnone] at hold
  obtain ⟨hcoh, hlook⟩ := coherent_add hc hv hp hports (fun hnone => absurd hnone hknown)
  refine ⟨hcoh, ?_, h.nonNull⟩
  show Owned (fdbUcDbAddRecord lib.fdb (some e)).2.cookieAt lib.calls
  rw [cookieAt_update hlook, Option.map_some, ← hold, Function.update_eq_self]
  exact h.owned

/-! ## Flush events -/

theorem CookieState.flushRecord (hcb : env.initDeinitCb = some cb) (h : CookieState lib) (err : Int)
    {i : Nat} (hi : i ∈ lib.fdb.fdbMap.values) : CookieState (flushRecord env lib err i).2 := by
  obtain ⟨k, hk⟩ := OrdMap.mem_values_iff.mp hi
  unfold CtrlLearn.flushRecord
  split
  · exact h.deleteRecord hcb hk
  · exact h

theorem CookieState.flushList (hcb : env.initDeinitCb = some cb) : ∀ (xs : List Nat) {lib : Lib},
    CookieState lib → xs.Nodup → (∀ x ∈ xs, x ∈ lib.fdb.fdbMap.values) →
    CookieState (flushList env lib xs)
  | [], _, h, _, _ => h
  | x :: xs, lib, h, hnd, hmem => by
    have hx := hmem x (List.mem_cons_self ..)
    obtain ⟨L, hc⟩ := h.coherent
    obtain ⟨L', htaken⟩ := flushRecord_spec env hc.inv 0 hx
    rw [List.nodup_cons] at hnd
    refine flushList hcb xs (h.flushRecord hcb 0 hx) hnd.2 (fun y hy => ?_)
    refine htaken.mem_of_ne (hmem y (List.mem_cons_of_mem _ hy)) ?_
    rintro rfl
    exact hnd.1 hy

theorem CookieState.flushed (hcb : env.initDeinitCb = some cb) (h : CookieState lib)
    {P : MacParams → Bool} {lib' : Lib} (hf : FlushedBy env lib P lib') : CookieState lib' := by
  obtain ⟨xs, rfl, hnd, hstored, -⟩ := hf
  exact CookieState.flushList hcb xs h hnd hstored

/-! ## Single records -/

theorem updateApprovedList_code {s : Fdb} {L : Index} (h : FdbInv s L) (rs : List NotifyRecord) :
    (updateApprovedList s rs).1 = 0 := by
  unfold updateApprovedList fdbUcDbGetFreePoolCount
  simp only [h.ready, Bool.not_true, Bool.false_eq_true, if_false, ne_eq, not_true_eq_false]
  split <;> rfl

/-- Of a single record only the decision changes. -/
theorem notifyOne_eq (env : Env) (s : Fdb) (r : NotifyRecord) :
    ∃ d, (notifyOne env s r).2 = [{ r with decision := d }] := by
  have hupd : ∃ d, (updateApprovedList s [r]).2 = [{ r with decision := d }] := by
    unfold updateApprovedList
    dsimp only
    split
    · exact ⟨r.decision, rfl⟩
    · split
      · unfold denyAfter
        split
        · split
          · exact ⟨.deny, rfl⟩
          · exact ⟨r.decision, rfl⟩
        · exact ⟨r.decision, rfl⟩
      · exact ⟨r.decision, rfl⟩
  obtain ⟨d, hd⟩ := hupd
  unfold notifyOne notifyUser
  rw [hd]
  cases env.notificationCb with
  | none => exact ⟨d, rfl⟩
  | some ncb =>
    dsimp only
    cases (ncb [{ r with decision := d }]).2 with
    | nil => exact ⟨d, rfl⟩
    | cons d' ds => exact ⟨d', rfl⟩

/-- A single record is approved or it is not. -/
theorem notifyOne_cases (env : Env) (s : Fdb) (r : NotifyRecord) :
    (approves env s r = true ∧ (notifyOne env s r).2 = [{ r with decision := .approve }]) ∨
    (approves env s r = false ∧ (notifyOne env s r).2 = [{ r with decision := .deny }]) := by
  obtain ⟨d, hd⟩ := notifyOne_eq env s r
  unfold approves
  rw [hd]
  cases d with
  | approve => exact Or.inl ⟨rfl, rfl⟩
  | deny => exact Or.inr ⟨rfl, rfl⟩

/-- The HAL accepts everything. -/
def Env.Accepts (env : Env) : Prop := ∀ cmd es, env.hal cmd es = (0, es)

/-- What is left of a batch with one record. -/
theorem finishBatch_single (hhal : env.Accepts) {L : Index} (h : FdbInv lib.fdb L) (r : NotifyRecord)
    (cmd : AccessCmd) :
    (finishBatch env ⟨lib, [r], cmd, true⟩).2 =
      if approves env lib.fdb r then
        (applyApproved env cmd lib ⟨r.params, none, fdbType r.params.entryType⟩).2
      else lib := by
  have hcode := updateApprovedList_code h [r]
  have hnotify : notifyUser env 0 (updateApprovedList lib.fdb [r]).2 = notifyOne env lib.fdb r := rfl
  unfold finishBatch
  simp only [hcode, hnotify, ne_eq, not_true_eq_false, if_false, Bool.not_true, Bool.false_eq_true,
    hhal cmd, false_and]
  obtain ⟨happ, hrec⟩ | ⟨happ, hrec⟩ := notifyOne_cases env lib.fdb r
  · rw [hrec, happ]
    rfl
  · rw [hrec, happ]
    rfl

/-- A LEARN, for a key that is not stored or denied. -/
theorem CookieState.learn (hhal : env.Accepts) (hcb : env.initDeinitCb = some cb) (hfresh : Fresh cb)
    (h : CookieState lib) {p : MacParams} (he : (FdbEvent.learn p).InRange)
    (hkeep : (LibOp.event (.learn p)).KeepsCookies env lib)
    (hports : ∀ lib', (LibOp.event (.learn p)).step env lib = some lib' →
      lib'.fdb.distinctPorts ≤ MAX_PORT_ENTRIES) :
    ∃ lib', (LibOp.event (.learn p)).step env lib = some lib' ∧ CookieState lib' := by
  obtain ⟨L, hc⟩ := h.coherent
  have hstep : (LibOp.event (.learn p)).step env lib =
      some (finishBatch env ⟨lib, [⟨.learn, p, .approve, .ageable, none⟩], .add, true⟩).2 := rfl
  have hports' := hports _ hstep
  refine ⟨_, hstep, ?_⟩
  rw [finishBatch_single hhal hc.inv] at hports' ⊢
  split
  · rename_i happ
    obtain ⟨hnew, hpool⟩ := hkeep p.key (by simp [LibOp.creates, happ])
    obtain ⟨c, hinit, hlog⟩ := hfresh lib.cookieLog
    rw [if_pos happ] at hports'
    simp only [applyApproved, addApproved, initCookie, hcb, hinit, if_true] at hports' ⊢
    exact h.create he.1 he.2 hports' hnew hpool rfl hlog
  · exact h

theorem CookieState.age (hhal : env.Accepts) (hcb : env.initDeinitCb = some cb) (h : CookieState lib)
    (p : MacParams) : ∃ lib', (LibOp.event (.age p)).step env lib = some lib' ∧ CookieState lib' := by
  obtain ⟨L, hc⟩ := h.coherent
  have hstep : (LibOp.event (.age p)).step env lib =
      some (finishBatch env ⟨lib, [⟨.age, p, .approve, .ageable, none⟩], .delete, true⟩).2 := rfl
  refine ⟨_, hstep, ?_⟩
  rw [finishBatch_single hhal hc.inv]
  split
  · simp only [applyApproved, reduceCtorEq, if_false, deleteApproved, fdbUcDbGetRecordByKey,
      hc.inv.ready, Bool.not_true, Bool.false_eq_true]
    cases hk : lib.fdb.fdbMap.get p.key with
    | none => exact h
    | some i => exact h.deleteRecord hcb hk
  · exact h

/-- A batch without records ends with the first pass. -/
theorem step_of_firstPass {e : FdbEvent} {lib' : Lib}
    (h : firstPassStep env ⟨lib, [], .add, false⟩ e = some ⟨lib', [], .add, false⟩) :
    (LibOp.event e).step env lib = some lib' := by
  simp [LibOp.step, ctrlLearnHandleOesEvent, firstPass, h, finishBatch]

theorem CookieState.flushFilter (hcb : env.initDeinitCb = some cb) (h : CookieState lib)
    (filter : KeyFilter) {fld : FltrField} (hfld : filter.field = some fld)
    (hvid : filter.filterByVid = true → filter.vid.toNat < MAX_VLAN_ENTRIES)
    (hport : filter.filterByLogPort = true → filter.logPort.toNat < 2 ^ 32) {e : FdbEvent}
    (he : ∀ p, firstPassStep env p e =
      (ctrlLearnFlushDbByFilter env p.lib filter).map fun r => { p with lib := r.2 }) :
    ∃ lib', (LibOp.event e).step env lib = some lib' ∧ CookieState lib' := by
  obtain ⟨L, hc⟩ := h.coherent
  obtain ⟨err, lib', hrun, hf⟩ := flushFilter_spec env hc.reached hfld hvid hport
  refine ⟨lib', step_of_firstPass ?_, h.flushed hcb hf⟩
  rw [he, hrun]
  rfl

/-- **One event.** -/
theorem CookieState.event (hhal : env.Accepts) (hcb : env.initDeinitCb = some cb) (hfresh : Fresh cb)
    (h : CookieState lib) {e : FdbEvent} (he : e.InRange)
    (hkeep : (LibOp.event e).KeepsCookies env lib)
    (hports : ∀ lib', (LibOp.event e).step env lib = some lib' →
      lib'.fdb.distinctPorts ≤ MAX_PORT_ENTRIES) :
    ∃ lib', (LibOp.event e).step env lib = some lib' ∧ CookieState lib' := by
  cases e with
  | learn p => exact h.learn hhal hcb hfresh he hkeep hports
  | age p => exact h.age hhal hcb p
  | flushAll =>
    obtain ⟨L, hc⟩ := h.coherent
    obtain ⟨err, lib', hrun, hf⟩ := flushAll_spec env hc.reached
    refine ⟨lib', step_of_firstPass ?_, h.flushed hcb hf⟩
    rw [firstPassStep, hrun]
    rfl
  | flushVid vid =>
    exact h.flushFilter hcb (vidFilter vid) rfl (fun _ => he) (fun hf => by cases hf) (fun _ => rfl)
  | flushPort port =>
    exact h.flushFilter hcb (portFilter port) rfl (fun hf => by cases hf) (fun _ => he) (fun _ => rfl)
  | flushPortVid port vid =>
    exact h.flushFilter hcb (portVidFilter port vid) rfl (fun _ => he.2) (fun _ => he.1)
      (fun _ => rfl)
  | other => exact ⟨lib, step_of_firstPass rfl, h⟩

/-! ## The set call -/

/-- What the set call collects for one address. -/
theorem collectRecords_single {s : Fdb} {L : Index} (h : FdbInv s L) (cmd : AccessCmd) (m : MacEntry) :
    collectRecords s cmd none [m] = [] ∨
    (s.fdbMap.get m.macParams.key = none ∧ cmd = .add ∧
      collectRecords s cmd none [m] = [⟨.learn, m.macParams, .approve, m.type, none⟩]) ∨
    ∃ i, s.fdbMap.get m.macParams.key = some i ∧
      collectRecords s cmd none [m] = [if cmd = .add then
        ⟨.learn, m.macParams, .approve, m.type, (s.records i).cookie⟩
        else ⟨.age, m.macParams, .approve, m.type, none⟩] := by
  simp only [collectRecords, fdbUcDbGetRecordByKey, h.ready, Bool.not_true, Bool.false_eq_true, if_false]
  cases hk : s.fdbMap.get m.macParams.key with
  | none =>
    by_cases hcmd : cmd = .add
    · exact Or.inr (Or.inl ⟨rfl, hcmd, by simp [hcmd]⟩)
    · exact Or.inl (by simp [hcmd])
  | some i =>
    dsimp only
    by_cases hcmd : cmd = .add
    · simp only [if_pos hcmd]
      split
      · exact Or.inl rfl
      · exact Or.inr (Or.inr ⟨i, rfl, rfl⟩)
    · simp only [if_neg hcmd]
      exact Or.inr (Or.inr ⟨i, rfl, trivial⟩)

theorem notifyUser_nil (env : Env) {s : Fdb} : (notifyUser env 0 (updateApprovedList s []).2).2 = [] := by
  have hupd : (updateApprovedList s []).2 = [] := by
    unfold updateApprovedList
    dsimp only
    split <;> rfl
  rw [hupd, notifyUser]
  cases env.notificationCb <;> rfl

/-- The loop over one approved record. -/
theorem updateDb_single (env : Env) (cmd : AccessCmd) (lib : Lib) {r : NotifyRecord}
    (hr : r.decision = .approve) :
    (updateDb env cmd [] lib 0 [r]).2 =
      if cmd = .add then (addRecord env lib r).2 else (removeRecord env lib r).2.2 := by
  have hnot : ¬ (r.decision ≠ .approve ∨ isFailedMac [] r = true) := by simp [hr, isFailedMac]
  rw [updateDb, if_neg hnot]
  split
  · simp only [updateDb]
    split <;> rfl
  · simp only [updateDb]
    split <;> rfl

/-- The set call with one address: nothing happens, or the one record it collected is approved and
applied. -/
theorem set_step (hhal : env.Accepts) {L : Index} (hinv : FdbInv lib.fdb L) (cmd : AccessCmd)
    (m : MacEntry) :
    (LibOp.set cmd m).step env lib = some lib ∨
    ∃ r, lib.isCtrlLearnStart = true ∧ m.macParams.macAddr.isGroup = false ∧
      collectRecords lib.fdb cmd none [m] = [r] ∧ (notifyOne env lib.fdb r).1 = 0 ∧
      approves env lib.fdb r = true ∧
      (LibOp.set cmd m).step env lib = some (if cmd = .add then
        (addRecord env lib { r with decision := .approve }).2
        else (removeRecord env lib { r with decision := .approve }).2.2) := by
  have hsingle : collectRecords lib.fdb cmd none [m] = [] ∨
      ∃ r, collectRecords lib.fdb cmd none [m] = [r] := by
    obtain hnil | ⟨-, -, hr⟩ | ⟨i, -, hr⟩ := collectRecords_single hinv cmd m
    · exact Or.inl hnil
    · exact Or.inr ⟨_, hr⟩
    · exact Or.inr ⟨_, hr⟩
  unfold LibOp.step ctrlLearnApiFdbUcMacAddrSet
  cases hstart : lib.isCtrlLearnStart with
  | false => exact Or.inl rfl
  | true =>
    simp only [Bool.not_true, Bool.false_eq_true, if_false, List.cons_ne_nil, List.any_cons,
      List.any_nil, Bool.or_false]
    by_cases hcmd : cmd ≠ .add ∧ cmd ≠ .delete
    · exact Or.inl (by rw [if_pos hcmd]; rfl)
    rw [if_neg hcmd]
    cases hgroup : m.macParams.macAddr.isGroup with
    | true => exact Or.inl rfl
    | false =>
      simp only [Bool.false_eq_true, if_false, updateApprovedList_code hinv, ne_eq, not_true_eq_false,
        hhal cmd]
      obtain hnil | ⟨r, hr⟩ := hsingle
      · rw [hnil, notifyUser_nil]
        refine Or.inl ?_
        simp only [approvedEntries, List.filter_nil, List.map_nil, if_true, List.length_nil,
          Nat.not_lt_zero, if_false]
        split <;> rfl
      · have hnotify : notifyUser env 0 (updateApprovedList lib.fdb [r]).2 = notifyOne env lib.fdb r :=
          rfl
        have hlen : ¬ MAX_EVENT_INFO_SIZE < [r].length := by simp [MAX_EVENT_INFO_SIZE]
        rw [hr, if_neg hlen, hnotify]
        by_cases hcode : (notifyOne env lib.fdb r).1 = 0
        · rw [if_neg (by simp [hcode])]
          obtain ⟨happ, hrec⟩ | ⟨happ, hrec⟩ := notifyOne_cases env lib.fdb r
          · refine Or.inr ⟨r, trivial, trivial, rfl, hcode, happ, ?_⟩
            rw [hrec, ← updateDb_single env cmd lib rfl]
            rfl
          · refine Or.inl ?_
            rw [hrec]
            rfl
        · exact Or.inl (by rw [if_pos hcode]; rfl)

/-- **One set call.** -/
theorem CookieState.set (hhal : env.Accepts) (hcb : env.initDeinitCb = some cb) (hfresh : Fresh cb)
    (h : CookieState lib) {cmd : AccessCmd} {m : MacEntry} (hm : (LibOp.set cmd m).InRange)
    (hkeep : (LibOp.set cmd m).KeepsCookies env lib)
    (hports : ∀ lib', (LibOp.set cmd m).step env lib = some lib' →
      lib'.fdb.distinctPorts ≤ MAX_PORT_ENTRIES) :
    ∃ lib', (LibOp.set cmd m).step env lib = some lib' ∧ CookieState lib' := by
  obtain ⟨L, hc⟩ := h.coherent
  obtain hsame | ⟨r, hstart, hgroup, hcol, hcode, happ, hstep⟩ := set_step hhal hc.inv cmd m
  · exact ⟨lib, hsame, h⟩
  have hports' := hports _ hstep
  refine ⟨_, hstep, ?_⟩
  obtain hnil | ⟨hk, rfl, hrec⟩ | ⟨i, hk, hrec⟩ := collectRecords_single hc.inv cmd m
  · rw [hnil] at hcol
    cases hcol
  · -- an address that is not stored
    rw [hrec, List.cons.injEq] at hcol
    obtain ⟨rfl, -⟩ := hcol
    have hnone := lookup_none_iff.mpr hk
    obtain ⟨-, hpool⟩ := hkeep m.macParams.key (by simp [LibOp.creates, hstart, hgroup, hnone, hcode, happ])
    obtain ⟨c, hinit, hlog⟩ := hfresh lib.cookieLog
    simp only [if_true, addRecord, initCookie, hcb, hinit, ne_eq, not_true_eq_false, if_false]
      at hports' ⊢
    exact h.create hm.1 hm.2 hports' hnone hpool rfl hlog
  · rw [hrec, List.cons.injEq] at hcol
    obtain ⟨rfl, -⟩ := hcol
    by_cases hcmd : cmd = .add
    · -- a stored address: its cookie is no `NULL` and stays
      simp only [if_pos hcmd] at hports' ⊢
      have hheld : lib.fdb.cookieAt m.macParams.key = some (lib.fdb.records i).cookie := by
        simp [Fdb.cookieAt, Fdb.lookup, hk]
      cases hcookie : (lib.fdb.records i).cookie with
      | none =>
        rw [hcookie] at hheld
        obtain ⟨call, hcall, he⟩ := List.mem_map.mp (h.owned.allocated hheld)
        have hinit : call = .init none := CookieCall.call_injective he
        rw [hinit] at hcall
        exact absurd hcall h.nonNull
      | some c =>
        rw [hcookie] at hheld
        simp only [addRecord, hcookie] at hports' ⊢
        exact h.overwrite hm.1 hm.2 hports' hheld
    · simp only [if_neg hcmd, removeRecord, fdbUcDbGetRecordByKey, hc.inv.ready, Bool.not_true,
        Bool.false_eq_true, if_false, hk]
      exact h.deleteRecord hcb hk

/-- **One call** that loses no cookie. -/
theorem CookieState.step (hhal : env.Accepts) (hcb : env.initDeinitCb = some cb) (hfresh : Fresh cb)
    (h : CookieState lib) {op : LibOp} (hop : op.InRange) (hkeep : op.KeepsCookies env lib)
    (hports : ∀ lib', op.step env lib = some lib' → lib'.fdb.distinctPorts ≤ MAX_PORT_ENTRIES) :
    ∃ lib', op.step env lib = some lib' ∧ CookieState lib' := by
  cases op with
  | event e => exact h.event hhal hcb hfresh hop hkeep hports
  | set cmd m => exact h.set hhal hcb hfresh hop hkeep hports

/-! ## Runs -/

theorem CookieState.run (hhal : env.Accepts) (hcb : env.initDeinitCb = some cb) (hfresh : Fresh cb) :
    ∀ (ops : List LibOp) {lib : Lib}, CookieState lib → CookieRun env lib ops →
      ∃ lib', runOps env lib ops = some lib' ∧ CookieState lib'
  | [], lib, h, _ => ⟨lib, rfl, h⟩
  | op :: ops, lib, h, hrun => by
    obtain ⟨hop, hkeep, hnext⟩ := hrun
    obtain ⟨lib₁, hstep, h₁⟩ := h.step hhal hcb hfresh hop hkeep (fun lib' hs => by
      rw [hs] at hnext
      exact hnext.1)
    rw [hstep] at hnext
    obtain ⟨lib₂, hrun₂, h₂⟩ := run hhal hcb hfresh ops h₁ hnext.2
    refine ⟨lib₂, ?_, h₂⟩
    rw [runOps, hstep]
    exact hrun₂

theorem CookieRun.take : ∀ (ops : List LibOp) (n : Nat) {lib : Lib}, CookieRun env lib ops →
    CookieRun env lib (ops.take n)
  | [], _, _, _ => by rw [List.take_nil]; trivial
  | _ :: _, 0, _, _ => trivial
  | op :: ops, n + 1, lib, ⟨hop, hkeep, hnext⟩ => by
    refine ⟨hop, hkeep, ?_⟩
    cases hstep : op.step env lib with
    | none => trivial
    | some lib' =>
      rw [hstep] at hnext
      exact ⟨hnext.1, take ops n hnext.2⟩

end Step

/-- The library after `ctrl_learn_init`, with an empty FDB. -/
def Lib.init (started : Bool) : Lib := ⟨Fdb.init, started, []⟩

theorem cookieState_init (started : Bool) : CookieState (Lib.init started) := by
  refine ⟨⟨_, coherent_init⟩, ?_, by simp [Lib.init]⟩
  have hnone : (Lib.init started).fdb.cookieAt = fun _ => none := by
    funext k
    rfl
  rw [hnone]
  exact owned_nil

/-- **Ownership of cookies.**  In every run without a call that loses a cookie, at every point each
cookie the user's callback returned is in exactly one record and not destroyed, or in none and
destroyed once. -/
theorem cookie_owned_run (env : Env) (hhal : env.Accepts) (cb : CookieCb)
    (hcb : env.initDeinitCb = some cb) (hfresh : Fresh cb) (started : Bool) (ops : List LibOp)
    (hrun : CookieRun env (Lib.init started) ops) (n : Nat) :
    ∃ lib, runOps env (Lib.init started) (ops.take n) = some lib ∧ CookieOwned lib := by
  obtain ⟨lib, hlib, h⟩ :=
    CookieState.run hhal hcb hfresh (ops.take n) (cookieState_init started) (hrun.take ops n)
  exact ⟨lib, hlib, h.cookieOwned⟩

/-- A number above every cookie of the log. -/
def nextCookie : List CookieCall → Nat
  | [] => 1
  | .init (some c) :: log => max (c + 1) (nextCookie log)
  | _ :: log => nextCookie log

/-- A callback that counts past the cookies it returned. -/
def countingCb : CookieCb
  | log, .init, _ => (0, some (nextCookie log))
  | _, .deinit, _ => (0, none)

/-- No notification callback, and cookies that are counted. -/
def countingEnv : Env := ⟨fun _ es => (0, es), none, some countingCb⟩

theorem lt_nextCookie {c : Nat} : ∀ {log : List CookieCall}, .init (some c) ∈ log → c < nextCookie log
  | call :: log, h => by
    rw [List.mem_cons] at h
    obtain rfl | h := h
    · exact lt_of_lt_of_le (Nat.lt_succ_self c) (le_max_left ..)
    · have ih := lt_nextCookie h
      cases call with
      | init c' =>
        cases c' with
        | none => exact ih
        | some c' => exact lt_of_lt_of_le ih (le_max_right ..)
      | deinit _ => exact ih

theorem countingCb_fresh : Fresh countingCb := by
  intro log
  exact ⟨nextCookie log, rfl, fun hmem => Nat.lt_irrefl _ (lt_nextCookie hmem)⟩

/-- Two stations learned, one moved by a set call and aged, the other flushed. -/
theorem cookie_owned_run_move : ∃ lib, runOps countingEnv (Lib.init true)
    ([.event (.learn ⟨7, ⟨0, 0, 0, 0, 0, 1⟩, 5, .dynamic⟩),
      .event (.learn ⟨7, ⟨0, 0, 0, 0, 0, 2⟩, 5, .dynamic⟩),
      .set .add ⟨⟨7, ⟨0, 0, 0, 0, 0, 1⟩, 6, .dynamic⟩, none, .ageable⟩,
      .event (.age ⟨7, ⟨0, 0, 0, 0, 0, 1⟩, 6, .dynamic⟩),
      .event (.flushPort 5)].take 5) = some lib ∧ CookieOwned lib :=
  cookie_owned_run countingEnv (fun _ _ => rfl) countingCb rfl countingCb_fresh true _ (by decide) 5

/-- A station learned twice. -/
def relearn : List LibOp :=
  [.event (.learn ⟨7, ⟨0, 0, 0, 0, 0, 1⟩, 5, .dynamic⟩),
    .event (.learn ⟨7, ⟨0, 0, 0, 0, 0, 1⟩, 5, .dynamic⟩)]

theorem relearn_ports (n : Nat) {lib : Lib}
    (hlib : runOps countingEnv (Lib.init true) (relearn.take n) = some lib) :
    lib.fdb.distinctPorts ≤ MAX_PORT_ENTRIES := by
  have hall : (runOps countingEnv (Lib.init true) (relearn.take n)).all
      (fun lib => decide (lib.fdb.distinctPorts ≤ MAX_PORT_ENTRIES)) = true := by
    match n with
    | 0 => decide
    | 1 => decide
    | n + 2 =>
      rw [List.take_of_length_le (by simp [relearn])]
      decide
  rw [hlib] at hall
  exact of_decide_eq_true hall

/-- **A station learned twice**: the second cookie takes the place of the first, which is in no
record and was never destroyed. -/
theorem cookie_lost_relearn : ¬ ∀ (env : Env), env.Accepts → ∀ (cb : CookieCb),
    env.initDeinitCb = some cb → Fresh cb → ∀ (started : Bool) (ops : List LibOp),
    (∀ op ∈ ops, op.InRange) →
    (∀ n lib, runOps env (Lib.init started) (ops.take n) = some lib →
      lib.fdb.distinctPorts ≤ MAX_PORT_ENTRIES) →
    ∀ n, ∃ lib, runOps env (Lib.init started) (ops.take n) = some lib ∧ CookieOwned lib := by
  intro h
  obtain ⟨lib, hlib, howned⟩ := h countingEnv (fun _ _ => rfl) countingCb rfl countingCb_fresh true
    relearn (by decide) (fun n _ hlib => relearn_ports n hlib) 2
  have hlog : (runOps countingEnv (Lib.init true) (relearn.take 2)).all (fun lib =>
      decide (.init (some 1) ∈ lib.cookieLog ∧ lib.cookieLog.count (.deinit (some 1)) = 0 ∧
        ∀ i ∈ lib.fdb.fdbMap.values, (lib.fdb.records i).cookie ≠ some 1)) = true := by
    decide
  rw [hlib] at hlog
  obtain ⟨hinit, hcount, hcookie⟩ := of_decide_eq_true hlog
  obtain ⟨⟨k, hk, -⟩, -⟩ | ⟨-, hone⟩ := howned 1 hinit
  · obtain ⟨e, he, hec⟩ := Option.map_eq_some_iff.mp hk
    obtain ⟨i, hi, rfl⟩ := lookup_some he
    exact hcookie i (OrdMap.get_mem_values hi) hec
  · rw [hcount] at hone
    cases hone

end MlnxLib.CtrlLearn
