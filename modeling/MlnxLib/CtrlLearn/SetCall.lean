import MlnxLib.CtrlLearn.Accepted
import MlnxLib.CtrlLearn.LinkCalls

/-!
# The set call

`ctrl_learn_api_fdb_uc_mac_addr_set` goes over its batch three times: it collects the entries that change
something, hands the approved ones to the HAL, and writes those that the HAL accepted.  The first error of a
write ends the call.  Without an init/deinit callback, what the writes do to the FDB is a function of its
cells, `writeRun`.

* `skipped` — an ADD of a record that is stored as it is, or a DELETE of nothing.
* `stuck` — a write that fails: the record misses a port link.
* `setTaken` — the records that are not skipped, denied or refused.
* `entriesTaken` — the caller's entries that are not skipped, denied or refused.

Principal results: `updateDb_spec` — the update pass is `writeRun`; `setCall_spec` — what the call returns and
leaves; `set_applies_iff` — the FDB is updated with the taken entries exactly when no write that matters
comes after a stuck one, or is stuck itself, and the entries have the OES types of their FDB types.
-/

set_option autoImplicit false

namespace MlnxLib.CtrlLearn

open PinMap

/-! ## One write -/

/-- What the set call stores for a record. -/
def NotifyRecord.stored (r : NotifyRecord) : View := recordView (setEntry r none)

theorem setEntry_key (r : NotifyRecord) (cookie : Option Nat) :
    (setEntry r cookie).macParams.key = r.params.key := rfl

/-- The write of a record: a put, or a drop. -/
def writeCell (ev : RecordEvent) (M : Map Nat View) (r : NotifyRecord) : Map Nat View :=
  match ev with
  | .learn => M.put r.params.key r.stored
  | .age => M.drop r.params.key

/-- The write fails: the record misses a port link, and is to be moved or deleted. -/
def stuck (ev : RecordEvent) (M : Map Nat View) (r : NotifyRecord) : Bool :=
  match M r.params.key, ev with
  | some (v, false), .learn => v.1 != r.params.logPort
  | some (_, false), .age => true
  | _, _ => false

/-- The writes of a list; the first that fails is the last. -/
def writeRun (ev : RecordEvent) : Map Nat View → List NotifyRecord → Map Nat View
  | M, [] => M
  | M, r :: rs => if stuck ev M r then writeCell ev M r else writeRun ev (writeCell ev M r) rs

section Writes

variable {env : Env} {lib : Lib} {L : Index}

/-- **An add that finds its pool entries is a put.** -/
theorem add_cells {s : Fdb} (h : FdbInv s L) {e : MacEntry}
    (hv : e.macParams.vid.toNat < MAX_VLAN_ENTRIES) (hfull : NotFull (fdbUcDbAddRecord s (some e)).1) :
    (fdbUcDbAddRecord s (some e)).2.cells = s.cells.put e.macParams.key (recordView e) := by
  have hdb := db_add h hv hfull
  funext k
  unfold Fdb.cells
  rw [hdb, put_apply, put_apply]
  split
  · rename_i heq
    subst heq
    generalize s.db e.macParams.key = c
    obtain _ | ⟨a, b⟩ := c <;> rfl
  · rfl

theorem cells_some {s : Fdb} {k i : Nat} (hk : s.fdbMap.get k = some i) :
    s.cells k = some (recordView (s.records i), removable s i) := by
  rw [Fdb.cells, db_some hk]
  rfl

theorem cells_none_iff {s : Fdb} {k : Nat} : s.cells k = none ↔ s.fdbMap.get k = none := by
  unfold Fdb.cells Fdb.db
  simp

/-- **An add that finds its pool entries fails** only when it moves a record that misses a port link. -/
theorem add_err_iff {s : Fdb} (h : FdbInv s L) {e : MacEntry}
    (hv : e.macParams.vid.toNat < MAX_VLAN_ENTRIES) (hfull : NotFull (fdbUcDbAddRecord s (some e)).1) :
    (fdbUcDbAddRecord s (some e)).1 ≠ 0 ↔
      ∃ v, s.cells e.macParams.key = some (v, false) ∧ v.1 ≠ e.macParams.logPort := by
  have hknown : ∀ {i}, s.fdbMap.get e.macParams.key = some i →
      ((∃ v, s.cells e.macParams.key = some (v, false) ∧ v.1 ≠ e.macParams.logPort) ↔
        removable s i = false ∧ (s.records i).macParams.logPort ≠ e.macParams.logPort) := by
    intro i hk
    rw [cells_some hk]
    constructor
    · rintro ⟨v, hv, hport⟩
      simp only [Option.some.injEq, Prod.mk.injEq] at hv
      obtain ⟨rfl, hrem⟩ := hv
      exact ⟨hrem, hport⟩
    · rintro ⟨hrem, hport⟩
      exact ⟨_, by rw [hrem], hport⟩
  have hnew : s.fdbMap.get e.macParams.key = none →
      ¬ ∃ v, s.cells e.macParams.key = some (v, false) ∧ v.1 ≠ e.macParams.logPort := by
    rintro hk ⟨v, hc, -⟩
    rw [cells_none_iff.mpr hk] at hc
    cases hc
  cases add_spec h e with
  | full hk hp hr =>
    rw [hr] at hfull
    exact absurd rfl hfull.1
  | newOk i pool hk hp herr => exact iff_of_false (fun hne => hne herr) (hnew hk)
  | newErr i pool hk hp herr hdb hcan hcode =>
    obtain hcode | hcode := hcode
    · exact absurd hcode hfull.2
    · omega
  | refresh i hk hport hr =>
    rw [hr, hknown hk]
    exact iff_of_false (fun hne => hne rfl) (fun hc => hc.2 hport)
  | moveOk i hk hport herr hdb hcan =>
    rw [hknown hk]
    refine iff_of_false (fun hne => hne herr) (fun hc => ?_)
    have hrem := (removable_iff h.index).mpr (moveAll_spec h.index hcan).2.1
    rw [hrem] at hc
    cases hc.1
  | moveErr i hk hport herr hdb hcan hcode =>
    rw [hknown hk]
    obtain hcode | hrem := hcode
    · exact absurd hcode hfull.2
    · refine iff_of_true herr ⟨?_, hport⟩
      rw [← Bool.not_eq_true, removable_iff h.index]
      exact hrem

/-- The add of a record finds its pool entries. -/
def Finds (env : Env) (lib : Lib) (r : NotifyRecord) : Prop := NotFull (addRecord env lib r).1

instance (env : Env) (lib : Lib) (r : NotifyRecord) : Decidable (Finds env lib r) :=
  inferInstanceAs (Decidable (NotFull (addRecord env lib r).1))

/-- The library has written up to `n` records: its cells are `M`. -/
structure Wrote (ev : RecordEvent) (lib lib' : Lib) (M : Map Nat View) (n : Nat) : Prop where
  inv : ∃ L', FdbInv lib'.fdb L'
  started : lib'.isCtrlLearnStart = lib.isCtrlLearnStart
  cells : lib'.fdb.cells = M
  free : ev = .learn → lib.fdb.free ≤ lib'.fdb.free + n

theorem Wrote.refl (ev : RecordEvent) (h : FdbInv lib.fdb L) (n : Nat) : Wrote ev lib lib lib.fdb.cells n :=
  ⟨⟨L, h⟩, rfl, rfl, fun _ => Nat.le_add_right _ n⟩

theorem Wrote.trans {ev : RecordEvent} {lib' lib'' : Lib} {M M' : Map Nat View} {m n : Nat}
    (h : Wrote ev lib lib' M m) (h' : Wrote ev lib' lib'' M' n) : Wrote ev lib lib'' M' (n + m) := by
  refine ⟨h'.inv, h'.started.trans h.started, h'.cells, fun hev => ?_⟩
  have hfst := h.free hev
  have hsnd := h'.free hev
  omega

theorem Wrote.mono {ev : RecordEvent} {lib' : Lib} {M : Map Nat View} {m n : Nat} (h : Wrote ev lib lib' M m)
    (hmn : m ≤ n) : Wrote ev lib lib' M n :=
  ⟨h.inv, h.started, h.cells, fun hev => (h.free hev).trans (Nat.add_le_add_left hmn _)⟩

theorem addRecord_eq (hcb : env.initDeinitCb = none) (lib : Lib) (r : NotifyRecord) :
    addRecord env lib r = ((fdbUcDbAddRecord lib.fdb (some (setEntry r r.cookie))).1,
      { lib with fdb := (fdbUcDbAddRecord lib.fdb (some (setEntry r r.cookie))).2 }) := by
  unfold addRecord
  cases hc : r.cookie with
  | some c => rfl
  | none => simp [initCookie, hcb]

/-- **One approved record of an ADD.** -/
theorem addRecord_spec (hcb : env.initDeinitCb = none) (h : FdbInv lib.fdb L) {r : NotifyRecord}
    (hv : r.params.vid.toNat < MAX_VLAN_ENTRIES) (hfull : Finds env lib r) :
    Wrote .learn lib (addRecord env lib r).2 (writeCell .learn lib.fdb.cells r) 1 ∧
    ((addRecord env lib r).1 ≠ 0 ↔ stuck .learn lib.fdb.cells r = true) := by
  unfold Finds at hfull
  rw [addRecord_eq hcb] at hfull ⊢
  refine ⟨⟨add_inv h _, rfl, add_cells h hv hfull, fun _ => ?_⟩, ?_⟩
  · dsimp only
    obtain ⟨-, -, hfree, -⟩ | ⟨-, hfree, -⟩ := add_takes h (setEntry r r.cookie) <;> omega
  have hkey : (setEntry r r.cookie).macParams.key = r.params.key := rfl
  have hport : (setEntry r r.cookie).macParams.logPort = r.params.logPort := rfl
  rw [add_err_iff h hv hfull, hkey, hport]
  unfold stuck
  generalize lib.fdb.cells r.params.key = c
  obtain _ | ⟨v, _ | _⟩ := c <;> simp

/-- A record changes no other key. -/
theorem addRecord_other (env : Env) (h : FdbInv lib.fdb L) (r : NotifyRecord) :
    (∃ L', FdbInv (addRecord env lib r).2.fdb L') ∧
    ∀ k, r.params.key ≠ k → (addRecord env lib r).2.fdb.lookup k = lib.fdb.lookup k := by
  have hadd : ∀ cookie, (∃ L', FdbInv (fdbUcDbAddRecord lib.fdb (some (setEntry r cookie))).2 L') ∧
      ∀ k, r.params.key ≠ k →
        (fdbUcDbAddRecord lib.fdb (some (setEntry r cookie))).2.lookup k = lib.fdb.lookup k := by
    intro cookie
    refine ⟨add_inv h _, fun k hk => ?_⟩
    rw [add_lookup h, if_neg]
    exact fun hc => hk hc.1.symm
  unfold addRecord
  cases r.cookie with
  | some c => exact hadd (some c)
  | none =>
    have hfdb := initCookie_fdb env lib
    generalize initCookie env lib = q at hfdb ⊢
    dsimp only
    split
    · rw [hfdb]
      exact ⟨⟨L, h⟩, fun _ _ => rfl⟩
    · simp only [hfdb]
      exact hadd q.2.1

/-- A delete fails on a record that misses a port link. -/
theorem deleteRecord_err_iff (env : Env) (h : FdbInv lib.fdb L) {i : Nat} (hi : i ∈ lib.fdb.fdbMap.values) :
    (deleteRecord env lib i).1 ≠ 0 ↔ removable lib.fdb i = false := by
  obtain ⟨htaken, -⟩ := deinitCookie_spec env h hi
  rw [← Bool.not_eq_true, removable_iff h.index]
  obtain ⟨L', -, -, -, -, -, ⟨herr, hrem, -⟩ | ⟨herr, hrem, -⟩⟩ := delete_spec htaken.inv i
  · exact iff_of_false (fun hne => hne herr) (fun hno => hno hrem)
  · exact iff_of_true herr hrem

theorem deleteRecord_started (env : Env) (lib : Lib) (i : Nat) :
    (deleteRecord env lib i).2.isCtrlLearnStart = lib.isCtrlLearnStart := by
  unfold deleteRecord deinitCookie
  cases env.initDeinitCb <;> rfl

/-- **One approved record of a DELETE.** -/
theorem removeRecord_spec (env : Env) (h : FdbInv lib.fdb L) (r : NotifyRecord) :
    Wrote .age lib (removeRecord env lib r).2.2 (writeCell .age lib.fdb.cells r) 1 ∧
    (removeRecord env lib r).2.1 = stuck .age lib.fdb.cells r := by
  unfold removeRecord fdbUcDbGetRecordByKey
  rw [if_neg (by simp [h.ready])]
  cases hk : lib.fdb.fdbMap.get r.params.key with
  | none =>
    have hnone := cells_none_iff.mpr hk
    have hdrop : (lib.fdb.cells r.params.key).drop = lib.fdb.cells r.params.key := by
      rw [hnone]
      rfl
    have hsame : writeCell .age lib.fdb.cells r = lib.fdb.cells := by
      rw [writeCell, Map.drop, hdrop, Function.update_eq_self]
    rw [hsame]
    exact ⟨Wrote.refl .age h 1, by simp [stuck, hnone]⟩
  | some i =>
    obtain ⟨L', htaken⟩ := deleteRecord_spec env h (OrdMap.get_mem_values hk)
    refine ⟨⟨⟨L', htaken.inv⟩, deleteRecord_started env lib i, deleteRecord_cells env h hk, fun hev => ?_⟩, ?_⟩
    · cases hev
    have herr := deleteRecord_err_iff env h (OrdMap.get_mem_values hk)
    unfold stuck
    rw [cells_some hk]
    cases hr : removable lib.fdb i with
    | true =>
      rw [hr] at herr
      simpa using herr
    | false =>
      rw [hr] at herr
      simpa using herr

end Writes

/-! ## The update pass -/

/-- The records that the update pass writes. -/
def takenOf (failed : List MacEntry) (rs : List NotifyRecord) : List NotifyRecord :=
  rs.filter fun r => r.decision == .approve && !isFailedMac failed r

/-- The adds of the update pass, up to the first that fails, find their pool entries. -/
def addsFind (env : Env) (failed : List MacEntry) : Lib → List NotifyRecord → Bool
  | _, [] => true
  | lib, r :: rs =>
    if r.decision ≠ .approve ∨ isFailedMac failed r then addsFind env failed lib rs
    else decide (Finds env lib r) &&
      (decide ((addRecord env lib r).1 ≠ 0) || addsFind env failed (addRecord env lib r).2 rs)

section Update

variable {env : Env} {failed : List MacEntry}

theorem takenOf_cons_skip {r : NotifyRecord} {rs : List NotifyRecord}
    (hr : r.decision ≠ .approve ∨ isFailedMac failed r = true) :
    takenOf failed (r :: rs) = takenOf failed rs := by
  unfold takenOf
  apply List.filter_cons_of_neg
  rcases hr with hr | hr
  · simp [hr]
  · simp [hr]

theorem takenOf_cons_take {r : NotifyRecord} {rs : List NotifyRecord}
    (hr : ¬ (r.decision ≠ .approve ∨ isFailedMac failed r = true)) :
    takenOf failed (r :: rs) = r :: takenOf failed rs := by
  unfold takenOf
  apply List.filter_cons_of_pos
  simp only [not_or, ne_eq, Decidable.not_not, Bool.not_eq_true] at hr
  simp [hr]

/-- **The update pass writes what it takes**, up to the first write that fails. -/
theorem updateDb_spec (hcb : env.initDeinitCb = none) (ev : RecordEvent) (rs : List NotifyRecord)
    {lib : Lib} {L : Index} (err : Int) (h : FdbInv lib.fdb L)
    (hv : ∀ r ∈ rs, r.params.vid.toNat < MAX_VLAN_ENTRIES)
    (hfind : ev = .learn → addsFind env failed lib rs = true) :
    Wrote ev lib (updateDb env ev.cmd failed lib err rs).2 (writeRun ev lib.fdb.cells (takenOf failed rs))
      rs.length := by
  induction rs generalizing lib L err with
  | nil => exact Wrote.refl ev h 0
  | cons r rs ih =>
    have hv' : ∀ r ∈ rs, r.params.vid.toNat < MAX_VLAN_ENTRIES := fun x hx => hv x (List.mem_cons_of_mem _ hx)
    rw [updateDb]
    by_cases hskip : r.decision ≠ .approve ∨ isFailedMac failed r = true
    · rw [if_pos hskip, takenOf_cons_skip hskip]
      refine (ih err h hv' (fun hev => ?_)).mono (Nat.le_succ _)
      have hfind' := hfind hev
      rwa [addsFind, if_pos hskip] at hfind'
    · rw [if_neg hskip, takenOf_cons_take hskip, writeRun]
      cases ev with
      | learn =>
        have hfind' := hfind rfl
        rw [addsFind, if_neg hskip, Bool.and_eq_true, decide_eq_true_eq, Bool.or_eq_true,
          decide_eq_true_eq] at hfind'
        obtain ⟨hwrote, herr⟩ := addRecord_spec hcb h (hv r (List.mem_cons_self ..)) hfind'.1
        obtain ⟨L', h'⟩ := hwrote.inv
        rw [if_pos cmd_learn]
        dsimp only
        by_cases hstuck : stuck .learn lib.fdb.cells r = true
        · rw [if_pos (herr.mpr hstuck), if_pos hstuck]
          exact hwrote.mono (Nat.le_add_left ..)
        · have hok : ¬ (addRecord env lib r).1 ≠ 0 := fun hne => hstuck (herr.mp hne)
          rw [if_neg hok, if_neg hstuck, ← hwrote.cells]
          exact hwrote.trans (ih _ h' hv' (fun _ => hfind'.2.resolve_left hok))
      | age =>
        obtain ⟨hwrote, herr⟩ := removeRecord_spec env h r
        obtain ⟨L', h'⟩ := hwrote.inv
        rw [if_neg cmd_age]
        dsimp only
        rw [herr]
        split
        · exact hwrote.mono (Nat.le_add_left ..)
        · rw [← hwrote.cells]
          exact hwrote.trans (ih _ h' hv' (fun hev => by cases hev))

end Update

/-! ## Collecting -/

/-- An entry that the call has nothing to do for: what the FDB says about its key is what it says, or there
is nothing to delete. -/
def skipped (ev : RecordEvent) (v : Option View) (m : MacEntry) : Bool :=
  match ev with
  | .learn => v == some (recordView m)
  | .age => v == none

/-- The record of an entry, without a cookie. -/
def recordOf (ev : RecordEvent) (m : MacEntry) : NotifyRecord := ⟨ev, m.macParams, .approve, m.type, none⟩

/-- The record without its decision and its cookie. -/
def NotifyRecord.bare (r : NotifyRecord) : NotifyRecord := { r with decision := .approve, cookie := none }

/-- **The entries that are collected** are those that are not skipped. -/
theorem collectRecords_bare {s : Fdb} {L : Index} (h : FdbInv s L) (ev : RecordEvent) (ms : List MacEntry)
    (cookie : Option Nat) :
    (collectRecords s ev.cmd cookie ms).map NotifyRecord.bare =
        (ms.filter fun m => !skipped ev (s.view m.macParams.key) m).map (recordOf ev) ∧
      ∀ r ∈ collectRecords s ev.cmd cookie ms, r.decision = .approve := by
  induction ms generalizing cookie with
  | nil => exact ⟨rfl, by simp [collectRecords]⟩
  | cons m ms ih =>
    have hcons : ∀ (r : NotifyRecord) (c : Option Nat), r.bare = recordOf ev m → r.decision = .approve →
        skipped ev (s.view m.macParams.key) m = false →
        (r :: collectRecords s ev.cmd c ms).map NotifyRecord.bare =
          ((m :: ms).filter fun m => !skipped ev (s.view m.macParams.key) m).map (recordOf ev) ∧
        ∀ r' ∈ r :: collectRecords s ev.cmd c ms, r'.decision = .approve := by
      intro r c hbare hdec hkeep
      rw [List.filter_cons_of_pos (by simp [hkeep]), List.map_cons, List.map_cons, hbare, (ih c).1]
      refine ⟨rfl, fun r' hr' => ?_⟩
      rcases List.mem_cons.mp hr' with rfl | hr'
      · exact hdec
      · exact (ih c).2 r' hr'
    have hleave : ∀ c : Option Nat, skipped ev (s.view m.macParams.key) m = true →
        (collectRecords s ev.cmd c ms).map NotifyRecord.bare =
          ((m :: ms).filter fun m => !skipped ev (s.view m.macParams.key) m).map (recordOf ev) ∧
        ∀ r' ∈ collectRecords s ev.cmd c ms, r'.decision = .approve := by
      intro c hskip
      rw [List.filter_cons_of_neg (by simp [hskip])]
      exact ih c
    rw [collectRecords]
    unfold fdbUcDbGetRecordByKey
    rw [if_neg (by simp [h.ready])]
    cases hk : s.fdbMap.get m.macParams.key with
    | none =>
      have hview : s.view m.macParams.key = none := view_eq_none_iff.mpr hk
      dsimp only
      cases ev with
      | learn =>
        rw [if_pos ⟨rfl, rfl⟩]
        exact hcons _ _ rfl rfl (by simp [skipped, hview])
      | age =>
        rw [if_neg (fun hc => cmd_age hc.2)]
        exact hleave _ (by simp [skipped, hview])
    | some i =>
      have hview : s.view m.macParams.key = some (recordView (s.records i)) := by
        simp [Fdb.view, Fdb.lookup, hk]
      dsimp only
      cases ev with
      | learn =>
        rw [if_pos cmd_learn]
        split
        · rename_i hsame
          exact hleave _ (by simp [skipped, hview, recordView, hsame])
        · rename_i hdiff
          refine hcons _ _ rfl rfl ?_
          rw [skipped, hview, beq_eq_false_iff_ne]
          intro hsame
          simp only [recordView, Option.some.injEq, Prod.mk.injEq] at hsame
          exact hdiff ⟨hsame.2.1, hsame.1, hsame.2.2⟩
      | age =>
        rw [if_neg cmd_age]
        exact hcons _ _ rfl rfl (by simp [skipped, hview])

/-! ## The call -/

/-- The notify records of the call after the callback, and what the callback returns. -/
def setRecords (env : Env) (s : Fdb) (ev : RecordEvent) (ms : List MacEntry) : Int × List NotifyRecord :=
  notifyUser env 0 (updateApprovedList s (collectRecords s ev.cmd none ms)).2

/-- What the HAL says to the call: its error code and the entries it refuses. -/
def setHal (env : Env) (s : Fdb) (ev : RecordEvent) (ms : List MacEntry) : Int × List MacEntry :=
  let es := approvedEntries (setRecords env s ev ms).2
  if (setRecords env s ev ms).1 ≠ 0 ∨ es = [] then (0, [])
  else ((env.hal ev.cmd es).1, refused env ev.cmd es)

/-- The records that are not skipped, denied or refused.  A callback that fails denies everything. -/
def setTaken (env : Env) (s : Fdb) (ev : RecordEvent) (ms : List MacEntry) : List NotifyRecord :=
  if (setRecords env s ev ms).1 ≠ 0 then [] else
  (setRecords env s ev ms).2.filter fun r =>
    r.decision == .approve && !(setHal env s ev ms).2.contains ⟨r.params, none, r.entryType⟩

/-- The adds of the call find their pool entries. -/
def PoolsSuffice (env : Env) (lib : Lib) (ev : RecordEvent) (ms : List MacEntry) : Prop :=
  ev = .learn → addsFind env (setHal env lib.fdb ev ms).2 lib (setRecords env lib.fdb ev ms).2 = true

/-- The batch as the call accepts it: unicast addresses, with vids that have a list, and of a length for
which there are records. -/
structure SetBatch (ms : List MacEntry) : Prop where
  nonempty : ms ≠ []
  length : ms.length ≤ MAX_EVENT_INFO_SIZE
  unicast : ∀ m ∈ ms, m.macParams.macAddr.isGroup = false
  vids : ∀ m ∈ ms, m.macParams.vid.toNat < MAX_VLAN_ENTRIES

theorem setDecisions_bare : ∀ (rs : List NotifyRecord) (ds : List NotifyDecision),
    (setDecisions rs ds).map NotifyRecord.bare = rs.map NotifyRecord.bare
  | [], ds => by cases ds <;> rfl
  | r :: rs, [] => rfl
  | r :: rs, d :: ds => by
    rw [setDecisions, List.map_cons, List.map_cons, setDecisions_bare rs ds]
    rfl

theorem map_bare_of_undecided {rs rs' : List NotifyRecord}
    (h : rs.map NotifyRecord.undecided = rs'.map NotifyRecord.undecided) :
    rs.map NotifyRecord.bare = rs'.map NotifyRecord.bare := by
  have hbare := congrArg (List.map NotifyRecord.bare) h
  rw [List.map_map, List.map_map] at hbare
  exact hbare

section Call

variable {env : Env} {lib : Lib} {L : Index} {ms : List MacEntry}

/-- **The records of the call** are those of the entries that are not skipped. -/
theorem setRecords_bare (env : Env) {s : Fdb} (h : FdbInv s L) (ev : RecordEvent) (ms : List MacEntry) :
    (setRecords env s ev ms).2.map NotifyRecord.bare =
      (ms.filter fun m => !skipped ev (s.view m.macParams.key) m).map (recordOf ev) := by
  obtain ⟨hbare, happ⟩ := collectRecords_bare h ev ms none
  rw [← hbare]
  apply map_bare_of_undecided
  rw [setRecords, notifyUser_undecided]
  exact (updateApprovedList_spec h happ).2.records

theorem setRecords_mem {s : Fdb} (h : FdbInv s L) {ev : RecordEvent} {r : NotifyRecord}
    (hr : r ∈ (setRecords env s ev ms).2) : ∃ m ∈ ms, r.params = m.macParams := by
  have hmem : r.bare ∈ (ms.filter fun m => !skipped ev (s.view m.macParams.key) m).map (recordOf ev) := by
    rw [← setRecords_bare env h]
    exact List.mem_map_of_mem hr
  obtain ⟨m, hm, he⟩ := List.mem_map.mp hmem
  exact ⟨m, List.mem_of_mem_filter hm, (congrArg NotifyRecord.params he).symm⟩

theorem setRecords_nodup {s : Fdb} (h : FdbInv s L) (ev : RecordEvent)
    (hnd : (ms.map fun m => m.macParams.key).Nodup) :
    ((setRecords env s ev ms).2.map fun r => r.params.key).Nodup := by
  have hkeys := congrArg (List.map fun r => r.params.key) (setRecords_bare env h ev ms)
  rw [List.map_map, List.map_map] at hkeys
  have hbare : (fun r : NotifyRecord => r.params.key) ∘ NotifyRecord.bare = fun r => r.params.key := rfl
  have hrecord : (fun r : NotifyRecord => r.params.key) ∘ recordOf ev = fun m => m.macParams.key := rfl
  rw [hbare, hrecord] at hkeys
  rw [hkeys]
  exact hnd.sublist (List.filter_sublist.map _)

/-- Among records with keys of their own, the entries of a refused list are found by the key, the port and
the type. -/
theorem isFailedMac_iff {rs : List NotifyRecord} (hnd : (rs.map fun r => r.params.key).Nodup)
    {failed : List MacEntry} (hfailed : failed ⊆ approvedEntries rs) {r : NotifyRecord} (hr : r ∈ rs) :
    isFailedMac failed r = failed.contains ⟨r.params, none, r.entryType⟩ := by
  rw [Bool.eq_iff_iff, isFailedMac, List.any_eq_true, List.contains_iff_mem]
  constructor
  · rintro ⟨f, hf, hsame⟩
    obtain ⟨r', hr', rfl⟩ := List.mem_map.mp (hfailed hf)
    have hr' := List.mem_of_mem_filter hr'
    simp only [Bool.and_eq_true, beq_iff_eq] at hsame
    have hkey : r'.params.key = r.params.key := by
      rw [MacParams.key, MacParams.key, hsame.1.1.1, hsame.2]
    have heq := List.inj_on_of_nodup_map hnd hr' hr hkey
    rw [← heq]
    exact hf
  · intro hmem
    exact ⟨_, hmem, by simp⟩

/-- **The set call**: it returns the refused entries, and the FDB has the writes of the records it takes,
where a record is found among the refused entries exactly when it is refused. -/
theorem setCall_wrote (hcb : env.initDeinitCb = none) (hstart : lib.isCtrlLearnStart = true)
    (h : FdbInv lib.fdb L) (ev : RecordEvent) (hms : SetBatch ms)
    (hfound : ∀ r ∈ (setRecords env lib.fdb ev ms).2, isFailedMac (setHal env lib.fdb ev ms).2 r =
      (setHal env lib.fdb ev ms).2.contains ⟨r.params, none, r.entryType⟩)
    (hfind : PoolsSuffice env lib ev ms) :
    ∃ err lib', ctrlLearnApiFdbUcMacAddrSet env lib ev.cmd (some ms) =
        some ⟨err, lib', (setHal env lib.fdb ev ms).2⟩ ∧
      Wrote ev lib lib' (writeRun ev lib.fdb.cells (setTaken env lib.fdb ev ms)) ms.length ∧
      ((setHal env lib.fdb ev ms).1 ≠ 0 → err = (setHal env lib.fdb ev ms).1) := by
  have hcmd : ¬ (ev.cmd ≠ .add ∧ ev.cmd ≠ .delete) := by cases ev <;> decide
  have hgroup : ms.any (fun m => m.macParams.macAddr.isGroup) = false := by
    rw [List.any_eq_false]
    intro m hm
    simp [hms.unicast m hm]
  have hshort : (setRecords env lib.fdb ev ms).2.length ≤ ms.length := by
    have hle := congrArg List.length (setRecords_bare env h ev ms)
    have hfilter := List.length_filter_le (fun m => !skipped ev (lib.fdb.view m.macParams.key) m) ms
    rw [List.length_map, List.length_map] at hle
    omega
  have hlen : ¬ MAX_EVENT_INFO_SIZE < (collectRecords lib.fdb ev.cmd none ms).length := by
    have hle := congrArg List.length (collectRecords_bare h ev ms none).1
    have hfilter := List.length_filter_le (fun m => !skipped ev (lib.fdb.view m.macParams.key) m) ms
    have hmax := hms.length
    rw [List.length_map, List.length_map] at hle
    omega
  have hupd : (updateApprovedList lib.fdb (collectRecords lib.fdb ev.cmd none ms)).1 = 0 := by
    rw [updateApprovedList_eq h]
  have hrecords : notifyUser env 0 (updateApprovedList lib.fdb (collectRecords lib.fdb ev.cmd none ms)).2 =
      setRecords env lib.fdb ev ms := rfl
  unfold ctrlLearnApiFdbUcMacAddrSet
  simp only [hstart, Bool.not_true, Bool.false_eq_true, if_false, hms.nonempty, hcmd, hgroup, hlen, hupd,
    ne_eq, not_true_eq_false, hrecords]
  have hvids : ∀ r ∈ (setRecords env lib.fdb ev ms).2, r.params.vid.toNat < MAX_VLAN_ENTRIES := by
    intro r hr
    obtain ⟨m, hm, he⟩ := setRecords_mem h hr
    rw [he]
    exact hms.vids m hm
  unfold PoolsSuffice at hfind
  unfold setTaken
  unfold setHal at hfind hfound ⊢
  generalize setRecords env lib.fdb ev ms = rs at *
  by_cases hcode : rs.1 = 0
  swap
  · simp only [hcode, not_false_eq_true, if_true, true_or, ne_eq]
    exact ⟨_, _, rfl, Wrote.refl ev h _, fun hc => absurd trivial hc⟩
  by_cases hnil : approvedEntries rs.2 = []
  · have hnone : rs.2.filter (fun r => r.decision == .approve) = [] := List.map_eq_nil_iff.mp hnil
    simp only [hcode, hnil, not_true_eq_false, if_false, if_true, or_true, ne_eq]
    refine ⟨_, _, rfl, ?_, fun hc => hc.elim⟩
    rw [List.filter_eq_nil_iff.mpr]
    · exact Wrote.refl ev h _
    · intro r hr hboth
      exact List.filter_eq_nil_iff.mp hnone r hr (Bool.and_eq_true_iff.mp hboth).1
  · have hdef : (if ¬ (env.hal ev.cmd (approvedEntries rs.2)).1 = 0 then
        (env.hal ev.cmd (approvedEntries rs.2)).2 else []) = refused env ev.cmd (approvedEntries rs.2) := rfl
    simp only [hcode, hnil, or_self, if_false, not_true_eq_false, ne_eq, hdef] at hfind hfound ⊢
    refine ⟨_, _, rfl, ?_, fun hc => if_pos hc⟩
    have hwrote := (updateDb_spec hcb ev rs.2 (env.hal ev.cmd (approvedEntries rs.2)).1 h hvids hfind).mono hshort
    have htaken : takenOf (refused env ev.cmd (approvedEntries rs.2)) rs.2 = rs.2.filter fun r =>
        r.decision == .approve &&
          !(refused env ev.cmd (approvedEntries rs.2)).contains ⟨r.params, none, r.entryType⟩ := by
      refine List.filter_congr (fun r hr => ?_)
      rw [hfound r hr]
    rwa [htaken] at hwrote

/-- What the HAL refuses are approved entries. -/
theorem setHal_subset (hhal : env.Reports) (s : Fdb) (ev : RecordEvent) (ms : List MacEntry) :
    (setHal env s ev ms).2 ⊆ approvedEntries (setRecords env s ev ms).2 := by
  unfold setHal refused
  dsimp only
  split
  · exact List.nil_subset _
  · dsimp only
    split
    · exact (hhal ev.cmd _).2.subset
    · exact List.nil_subset _

/-- **The set call on a batch of distinct keys.** -/
theorem setCall_spec (hcb : env.initDeinitCb = none) (hhal : env.Reports) (hstart : lib.isCtrlLearnStart = true)
    (h : FdbInv lib.fdb L) (ev : RecordEvent) (hms : SetBatch ms)
    (hnd : (ms.map fun m => m.macParams.key).Nodup) (hfind : PoolsSuffice env lib ev ms) :
    ∃ err lib', ctrlLearnApiFdbUcMacAddrSet env lib ev.cmd (some ms) =
        some ⟨err, lib', (setHal env lib.fdb ev ms).2⟩ ∧
      Wrote ev lib lib' (writeRun ev lib.fdb.cells (setTaken env lib.fdb ev ms)) ms.length ∧
      ((setHal env lib.fdb ev ms).1 ≠ 0 → err = (setHal env lib.fdb ev ms).1) := by
  exact setCall_wrote hcb hstart h ev hms
    (fun r hr => isFailedMac_iff (setRecords_nodup h ev hnd) (setHal_subset hhal lib.fdb ev ms) hr) hfind

end Call

/-! ## Writes of distinct keys -/

section Distinct

variable {ev : RecordEvent}

theorem writeCell_other {M : Map Nat View} {r : NotifyRecord} {k : Nat} (hk : r.params.key ≠ k) :
    writeCell ev M r k = M k := by
  cases ev with
  | learn => rw [writeCell, put_apply, if_neg hk]
  | age => rw [writeCell, drop_apply, if_neg hk]

theorem stuck_congr {M M' : Map Nat View} {r : NotifyRecord} (h : M' r.params.key = M r.params.key) :
    stuck ev M' r = stuck ev M r := by
  unfold stuck
  rw [h]

/-- A key that is not written is as it was. -/
theorem writeRun_other (rs : List NotifyRecord) {M : Map Nat View} {k : Nat}
    (hk : ∀ r ∈ rs, r.params.key ≠ k) : writeRun ev M rs k = M k := by
  induction rs generalizing M with
  | nil => rfl
  | cons r rs ih =>
    rw [writeRun]
    split
    · exact writeCell_other (hk r (List.mem_cons_self ..))
    · rw [ih (fun x hx => hk x (List.mem_cons_of_mem _ hx))]
      exact writeCell_other (hk r (List.mem_cons_self ..))

/-- The first stuck write is the last one. -/
def StuckLast (M : Map Nat View) (rs : List NotifyRecord) : Prop :=
  ∀ as r bs, rs = as ++ r :: bs → stuck .learn M r = true → bs = []

theorem stuckLast_cons {M : Map Nat View} {r : NotifyRecord} {rs : List NotifyRecord} :
    StuckLast M (r :: rs) ↔ (stuck .learn M r = true → rs = []) ∧ StuckLast M rs := by
  constructor
  · intro h
    refine ⟨fun hstuck => h [] r rs rfl hstuck, fun as r' bs hsplit => ?_⟩
    exact h (r :: as) r' bs (by rw [hsplit, List.cons_append])
  · rintro ⟨hhead, htail⟩ as r' bs hsplit hstuck
    cases as with
    | nil =>
      rw [List.nil_append, List.cons.injEq] at hsplit
      obtain ⟨rfl, rfl⟩ := hsplit
      exact hhead hstuck
    | cons a as =>
      rw [List.cons_append, List.cons.injEq] at hsplit
      exact htail as r' bs hsplit.2 hstuck

theorem stuckLast_congr {M M' : Map Nat View} {rs : List NotifyRecord}
    (h : ∀ r ∈ rs, M' r.params.key = M r.params.key) : StuckLast M' rs ↔ StuckLast M rs := by
  induction rs with
  | nil => simp [StuckLast]
  | cons r rs ih =>
    rw [stuckLast_cons, stuckLast_cons, ih fun x hx => h x (List.mem_cons_of_mem r hx),
      stuck_congr (h r (List.mem_cons_self ..))]

theorem put_value (M : Map Nat View) (r : NotifyRecord) :
    (writeCell .learn M r r.params.key).value = some r.stored := by
  rw [writeCell, put_apply, if_pos rfl]
  generalize M r.params.key = c
  obtain _ | ⟨v, b⟩ := c <;> rfl

/-- What the caller gave for a record. -/
def NotifyRecord.given (r : NotifyRecord) : View := recordView ⟨r.params, none, r.entryType⟩

/-- **Puts of distinct keys** that change something leave what the caller gave exactly when this is what they
store, and only the last one can be stuck. -/
theorem learnRun_iff (rs : List NotifyRecord) {M : Map Nat View}
    (hnd : (rs.map fun r => r.params.key).Nodup)
    (hnew : ∀ r ∈ rs, (M r.params.key).value ≠ some r.given) :
    (∀ r ∈ rs, (writeRun .learn M rs r.params.key).value = some r.given) ↔
      (∀ r ∈ rs, r.stored = r.given) ∧ StuckLast M rs := by
  induction rs generalizing M with
  | nil => simp [StuckLast]
  | cons r rs ih =>
    rw [List.map_cons, List.nodup_cons] at hnd
    have hne : ∀ r' ∈ rs, r.params.key ≠ r'.params.key :=
      fun r' hr' heq => hnd.1 (List.mem_map.mpr ⟨r', hr', heq.symm⟩)
    have hsame : ∀ r' ∈ rs, writeCell .learn M r r'.params.key = M r'.params.key :=
      fun r' hr' => writeCell_other (hne r' hr')
    rw [List.forall_mem_cons, List.forall_mem_cons, writeRun, stuckLast_cons]
    by_cases hstuck : stuck .learn M r = true
    · -- a record behind a stuck one is not written
      rw [if_pos hstuck, put_value, Option.some_inj]
      constructor
      · rintro ⟨hhead, hrest⟩
        have hnil : rs = [] := by
          refine List.eq_nil_iff_forall_not_mem.mpr fun r' hr' => hnew r' (List.mem_cons_of_mem r hr') ?_
          rw [← hsame r' hr', hrest r' hr']
        subst hnil
        exact ⟨⟨hhead, by simp⟩, fun _ => rfl, by simp [StuckLast]⟩
      · rintro ⟨⟨hhead, -⟩, hlast, -⟩
        rw [hlast hstuck]
        exact ⟨hhead, by simp⟩
    · have hhead : (writeRun .learn (writeCell .learn M r) rs r.params.key).value = some r.stored := by
        rw [writeRun_other rs (fun x hx => (hne x hx).symm)]
        exact put_value M r
      have hnew' : ∀ r' ∈ rs, (writeCell .learn M r r'.params.key).value ≠ some r'.given := by
        intro r' hr'
        rw [hsame r' hr']
        exact hnew r' (List.mem_cons_of_mem r hr')
      rw [if_neg hstuck, hhead, Option.some_inj, ih hnd.2 hnew', stuckLast_congr hsame,
        and_iff_right (fun hs => absurd hs hstuck), and_assoc]

theorem stuck_age (M : Map Nat View) (r : NotifyRecord) :
    stuck .age M r = (M r.params.key).pinned := by
  unfold stuck
  generalize M r.params.key = c
  obtain _ | ⟨v, _ | _⟩ := c <;> rfl

/-- What cannot be dropped stays. -/
theorem writeCell_age_pinned {M : Map Nat View} {k : Nat} (hk : (M k).pinned = true) (r : NotifyRecord) :
    writeCell .age M r k = M k := by
  rw [writeCell, drop_apply]
  split
  · exact Cell.drop_of_pinned hk
  · rfl

theorem ageRun_pinned (rs : List NotifyRecord) {M : Map Nat View} {k : Nat} (hk : (M k).pinned = true) :
    writeRun .age M rs k = M k := by
  induction rs generalizing M with
  | nil => rfl
  | cons r rs ih =>
    have hstay := writeCell_age_pinned hk r
    rw [writeRun]
    split
    · exact hstay
    · rw [ih (by rw [hstay, hk]), hstay]

/-- **Drops** take all keys out exactly when none is stuck. -/
theorem ageRun_iff (rs : List NotifyRecord) {M : Map Nat View}
    (hnd : (rs.map fun r => r.params.key).Nodup) :
    (∀ r ∈ rs, (writeRun .age M rs r.params.key).value = none) ↔ ∀ r ∈ rs, stuck .age M r = false := by
  constructor
  · intro h r hr
    rw [stuck_age, ← Bool.not_eq_true]
    intro hpin
    have hnone := h r hr
    rw [ageRun_pinned rs hpin] at hnone
    exact Cell.value_ne_none_of_pinned hpin hnone
  · intro h
    induction rs generalizing M with
    | nil => simp
    | cons r rs ih =>
      rw [List.map_cons, List.nodup_cons] at hnd
      have hne : ∀ r' ∈ rs, r.params.key ≠ r'.params.key :=
        fun r' hr' heq => hnd.1 (List.mem_map.mpr ⟨r', hr', heq.symm⟩)
      have hfree := h r (List.mem_cons_self ..)
      rw [List.forall_mem_cons, writeRun, hfree, if_neg (by simp)]
      refine ⟨?_, ih hnd.2 (fun r' hr' => ?_)⟩
      · rw [writeRun_other rs (fun x hx => (hne x hx).symm), writeCell, drop_apply, if_pos rfl]
        rw [stuck_age] at hfree
        exact (Cell.drop_value_eq_none_iff _).mpr hfree
      · rw [stuck_congr (writeCell_other (hne r' hr'))]
        exact h r' (List.mem_cons_of_mem _ hr')

end Distinct

/-! ## What the call leaves -/

/-- The notification denied the entry with this key. -/
def denied (env : Env) (s : Fdb) (ev : RecordEvent) (ms : List MacEntry) (k : Nat) : Bool :=
  (setRecords env s ev ms).2.any fun r => r.params.key == k && r.decision == .deny

/-- The HAL refused the entry with this key. -/
def refusedByHal (env : Env) (s : Fdb) (ev : RecordEvent) (ms : List MacEntry) (k : Nat) : Bool :=
  (setHal env s ev ms).2.any fun f => f.macParams.key == k

/-- **The caller's entries that are to be applied**: neither skipped, nor denied, nor refused.  A callback that
fails denies everything. -/
def entriesTaken (env : Env) (s : Fdb) (ev : RecordEvent) (ms : List MacEntry) : List MacEntry :=
  if (setRecords env s ev ms).1 ≠ 0 then [] else
  ms.filter fun m => !(skipped ev (s.view m.macParams.key) m || denied env s ev ms m.macParams.key ||
    refusedByHal env s ev ms m.macParams.key)

/-- The call returns; the FDB is updated with the entries to be applied, as the caller gave them, and no
others; and after an error of the HAL the call returns it, with the entries that were refused. -/
def SetApplies (env : Env) (lib : Lib) (ev : RecordEvent) (ms : List MacEntry) : Prop :=
  ∃ res, ctrlLearnApiFdbUcMacAddrSet env lib ev.cmd (some ms) = some res ∧
    (∀ k, res.lib.fdb.view k = updatedView ev lib.fdb (entriesTaken env lib.fdb ev ms) k) ∧
    ((setHal env lib.fdb ev ms).1 ≠ 0 →
      res.err = (setHal env lib.fdb ev ms).1 ∧ res.failed = (setHal env lib.fdb ev ms).2)

/-- The OES type that the call stores for an FDB type. -/
def oesType (type : FdbUcMacEntryType) : OesFdbEntryType := if type = .static then .static else .dynamic

/-- ADD: each entry has the OES type of its FDB type, and only the last one can be stuck.  DELETE: none is. -/
def TakenGoThrough (env : Env) (s : Fdb) (ev : RecordEvent) (ms : List MacEntry) : Prop :=
  match ev with
  | .learn => (∀ m ∈ entriesTaken env s .learn ms, m.macParams.entryType = oesType m.type) ∧
      StuckLast s.cells ((entriesTaken env s .learn ms).map (recordOf .learn))
  | .age => ∀ m ∈ entriesTaken env s .age ms, stuck .age s.cells (recordOf .age m) = false

theorem setTaken_nodup (env : Env) {s : Fdb} {L : Index} (h : FdbInv s L) (ev : RecordEvent)
    {ms : List MacEntry} (hnd : (ms.map fun m => m.macParams.key).Nodup) :
    ((setTaken env s ev ms).map fun r => r.params.key).Nodup := by
  unfold setTaken
  split
  · exact List.nodup_nil
  · exact (setRecords_nodup h ev hnd).sublist (List.filter_sublist.map _)

/-- Among records with keys of their own, the denied ones are found by their key. -/
theorem any_denied {rs : List NotifyRecord} (hnd : (rs.map fun r => r.params.key).Nodup) {r : NotifyRecord}
    (hr : r ∈ rs) :
    (rs.any fun r' => r'.params.key == r.params.key && r'.decision == .deny) = !(r.decision == .approve) := by
  rw [Bool.eq_iff_iff, List.any_eq_true]
  constructor
  · rintro ⟨r', hr', hsame⟩
    rw [Bool.and_eq_true, beq_iff_eq, beq_iff_eq] at hsame
    rw [← List.inj_on_of_nodup_map hnd hr' hr hsame.1, hsame.2]
    rfl
  · intro hdec
    refine ⟨r, hr, ?_⟩
    cases hd : r.decision with
    | approve => simp [hd] at hdec
    | deny => simp

/-- Among records with keys of their own, the refused ones are found by their key. -/
theorem any_refused {rs : List NotifyRecord} (hnd : (rs.map fun r => r.params.key).Nodup)
    {failed : List MacEntry} (hfailed : failed ⊆ approvedEntries rs) {r : NotifyRecord} (hr : r ∈ rs) :
    (failed.any fun f => f.macParams.key == r.params.key) = failed.contains ⟨r.params, none, r.entryType⟩ := by
  rw [Bool.eq_iff_iff, List.any_eq_true, List.contains_iff_mem]
  constructor
  · rintro ⟨f, hf, hkey⟩
    obtain ⟨r', hr', rfl⟩ := List.mem_map.mp (hfailed hf)
    rw [← List.inj_on_of_nodup_map hnd (List.mem_of_mem_filter hr') hr (by simpa using hkey)]
    exact hf
  · exact fun hmem => ⟨_, hmem, by simp⟩

/-- **The records of the entries to be applied** are those that the call takes. -/
theorem setTaken_bare (env : Env) (hhal : env.Reports) {s : Fdb} {L : Index} (h : FdbInv s L)
    (ev : RecordEvent) {ms : List MacEntry} (hnd : (ms.map fun m => m.macParams.key).Nodup) :
    (setTaken env s ev ms).map NotifyRecord.bare = (entriesTaken env s ev ms).map (recordOf ev) := by
  have hkeys : ((setRecords env s ev ms).2.map fun r => r.params.key).Nodup := setRecords_nodup h ev hnd
  unfold setTaken entriesTaken
  split
  · rfl
  -- both filters look at the keys only
  have hrecords : (setRecords env s ev ms).2.filter (fun r =>
        r.decision == .approve && !(setHal env s ev ms).2.contains ⟨r.params, none, r.entryType⟩) =
      (setRecords env s ev ms).2.filter fun r =>
        !(denied env s ev ms r.bare.params.key || refusedByHal env s ev ms r.bare.params.key) := by
    refine List.filter_congr fun r hr => ?_
    rw [← any_refused hkeys (setHal_subset hhal s ev ms) hr, Bool.not_or]
    change _ = (!denied env s ev ms r.params.key && !refusedByHal env s ev ms r.params.key)
    rw [denied, any_denied hkeys hr, Bool.not_not]
    rfl
  have hentries : ms.filter (fun m => !(skipped ev (s.view m.macParams.key) m ||
        denied env s ev ms m.macParams.key || refusedByHal env s ev ms m.macParams.key)) =
      (ms.filter fun m => !skipped ev (s.view m.macParams.key) m).filter fun m =>
        !(denied env s ev ms (recordOf ev m).params.key || refusedByHal env s ev ms (recordOf ev m).params.key) := by
    rw [List.filter_filter]
    refine List.filter_congr fun m _ => ?_
    rw [Bool.or_assoc, Bool.not_or, Bool.and_comm]
    rfl
  rw [hrecords, hentries]
  have hfilter := congrArg (List.filter fun r =>
    !(denied env s ev ms r.params.key || refusedByHal env s ev ms r.params.key)) (setRecords_bare env h ev ms)
  rw [List.filter_map, List.filter_map] at hfilter
  exact hfilter

theorem mem_entriesTaken {env : Env} {s : Fdb} {ev : RecordEvent} {ms : List MacEntry} {m : MacEntry}
    (hm : m ∈ entriesTaken env s ev ms) : m ∈ ms ∧ skipped ev (s.view m.macParams.key) m = false := by
  unfold entriesTaken at hm
  split at hm
  · cases hm
  · simp only [List.mem_filter, Bool.not_eq_true', Bool.or_eq_false_iff] at hm
    exact ⟨hm.1, hm.2.1.1⟩

/-- The writes do not depend on the decisions and the cookies. -/
theorem writeRun_bare {ev : RecordEvent} (rs : List NotifyRecord) (M : Map Nat View) :
    writeRun ev M (rs.map NotifyRecord.bare) = writeRun ev M rs := by
  induction rs generalizing M with
  | nil => rfl
  | cons r rs ih =>
    have hstuck : stuck ev M r.bare = stuck ev M r := rfl
    have hwrite : writeCell ev M r.bare = writeCell ev M r := rfl
    rw [List.map_cons, writeRun, writeRun, hstuck, hwrite, ih]

theorem stored_eq_given_iff (r : NotifyRecord) :
    r.stored = r.given ↔ r.params.entryType = oesType r.entryType := by
  unfold NotifyRecord.stored NotifyRecord.given recordView setEntry oesType
  simp only [Prod.mk.injEq, true_and, and_true]
  exact eq_comm

/-- **The set call applies what the HAL accepted**, exactly when no write that has to be done comes after one
that fails, and an added entry has the OES type of its FDB type. -/
theorem set_applies_iff (env : Env) (hcb : env.initDeinitCb = none) (hhal : env.Reports) (ops : List FdbOp)
    (lib : Lib) (hlib : lib.fdb = run Fdb.init ops) (hstart : lib.isCtrlLearnStart = true)
    (ev : RecordEvent) (ms : List MacEntry) (hms : SetBatch ms)
    (hnd : (ms.map fun m => m.macParams.key).Nodup) (hfind : PoolsSuffice env lib ev ms) :
    SetApplies env lib ev ms ↔ TakenGoThrough env lib.fdb ev ms := by
  obtain ⟨L, h⟩ := FdbInv.run ops emptyDb_init.inv
  rw [← hlib] at h
  obtain ⟨err, lib', hcall, ⟨-, -, hcells, -⟩, herr⟩ := setCall_spec hcb hhal hstart h ev hms hnd hfind
  rw [← writeRun_bare, setTaken_bare env hhal h ev hnd] at hcells
  have hkeys : ((entriesTaken env lib.fdb ev ms).map fun m => m.macParams.key).Nodup := by
    have htaken := congrArg (List.map fun r => r.params.key) (setTaken_bare env hhal h ev hnd)
    rw [List.map_map, List.map_map] at htaken
    have hnodup := setTaken_nodup env h ev hnd
    rw [show ((fun r : NotifyRecord => r.params.key) ∘ NotifyRecord.bare) = fun r => r.params.key from rfl] at htaken
    rw [htaken] at hnodup
    exact hnodup
  have hview : SetApplies env lib ev ms ↔
      ∀ k, lib'.fdb.view k = updatedView ev lib.fdb (entriesTaken env lib.fdb ev ms) k := by
    unfold SetApplies
    constructor
    · rintro ⟨res, hres, hv, -⟩
      rw [hcall, Option.some_inj] at hres
      rw [← hres] at hv
      exact hv
    · exact fun hv => ⟨_, hcall, hv, fun hne => ⟨herr hne, rfl⟩⟩
  have hother : ∀ k, (∀ m ∈ entriesTaken env lib.fdb ev ms, m.macParams.key ≠ k) →
      lib'.fdb.view k = lib.fdb.view k := by
    intro k hk
    rw [view_eq, view_eq, hcells, writeRun_other]
    exact List.forall_mem_map.mpr hk
  rw [hview, forall_updatedView_iff hkeys, and_iff_right hother]
  have hrecords : (((entriesTaken env lib.fdb ev ms).map (recordOf ev)).map fun r => r.params.key).Nodup := by
    rw [List.map_map]
    exact hkeys
  simp only [view_eq, hcells]
  cases ev with
  | learn =>
    have hnew : ∀ r ∈ (entriesTaken env lib.fdb .learn ms).map (recordOf .learn),
        (lib.fdb.cells r.params.key).value ≠ some r.given := by
      refine List.forall_mem_map.mpr fun m hm hsame => ?_
      have hskip := (mem_entriesTaken hm).2
      rw [skipped, beq_eq_false_iff_ne, view_eq] at hskip
      exact hskip hsame
    have hrun := learnRun_iff _ hrecords hnew
    rw [List.forall_mem_map, List.forall_mem_map] at hrun
    simp only [stored_eq_given_iff] at hrun
    exact hrun
  | age =>
    have hrun := ageRun_iff (M := lib.fdb.cells) _ hrecords
    rw [List.forall_mem_map, List.forall_mem_map] at hrun
    exact hrun

/-- A callback that denies the records of MAC address 3, and a HAL that refuses those of MAC address 4. -/
def pickyEnv : Env :=
  ⟨fun _ es => if es.any (fun e => e.macParams.macAddr.o5 == 4) then
      (-EXFULL, es.filter fun e => e.macParams.macAddr.o5 == 4) else (0, es),
    some fun rs => (0, rs.map fun r => if r.params.macAddr.o5 == 3 then .deny else r.decision), none⟩

theorem pickyEnv_reports : pickyEnv.Reports := by
  intro cmd es
  unfold pickyEnv
  dsimp only
  split
  · exact ⟨fun hc => by simp [EXFULL] at hc, List.filter_sublist⟩
  · exact ⟨fun _ => rfl, List.Sublist.refl es⟩

/-- Two stations are stored.  Of an ADD of four entries the first is skipped, the third denied and the fourth
refused; the second is a move. -/
theorem set_applies_iff_picky :
    let lib : Lib := ⟨run Fdb.init twoStations, true, []⟩
    let ms : List MacEntry := [station 7 1 5, station 7 2 9, station 7 3 5, station 7 4 5]
    entriesTaken pickyEnv lib.fdb .learn ms = [station 7 2 9] ∧
    (setHal pickyEnv lib.fdb .learn ms).2 = [station 7 4 5] ∧
    (SetApplies pickyEnv lib .learn ms ↔ TakenGoThrough pickyEnv lib.fdb .learn ms) := by
  intro lib ms
  refine ⟨by decide +kernel, by decide +kernel, set_applies_iff pickyEnv rfl pickyEnv_reports twoStations lib rfl
    rfl .learn ms ⟨by simp [ms], by decide, by decide, by decide⟩ (by decide) fun _ => ?_⟩
  decide +kernel

/-! ## A record that misses a link -/

/-- No callback, and a HAL that accepts everything. -/
structure Env.Quiet (env : Env) : Prop where
  notificationCb : env.notificationCb = none
  initDeinitCb : env.initDeinitCb = none
  hal : ∀ cmd es, (env.hal cmd es).1 = 0

section Quiet

variable {env : Env} {s : Fdb} {L : Index} {ev : RecordEvent} {ms : List MacEntry}

theorem recordOf_eventType {rs : List NotifyRecord} {ms : List MacEntry}
    (h : rs.map NotifyRecord.bare = ms.map (recordOf ev)) : ∀ r ∈ rs, r.eventType = ev := by
  intro r hr
  have hmem : r.bare ∈ ms.map (recordOf ev) := h ▸ List.mem_map_of_mem hr
  obtain ⟨m, -, he⟩ := List.mem_map.mp hmem
  exact (congrArg NotifyRecord.eventType he).symm

/-- **With nobody to deny or refuse**, the call takes the entries that are not skipped. -/
theorem Env.Quiet.setTaken (hq : env.Quiet) (h : FdbInv s L) (ev : RecordEvent) (ms : List MacEntry)
    (hroom : ev = .learn → ms.length ≤ s.free) :
    (setTaken env s ev ms).map NotifyRecord.bare =
      (ms.filter fun m => !skipped ev (s.view m.macParams.key) m).map (recordOf ev) := by
  obtain ⟨hbare, happ⟩ := collectRecords_bare h ev ms none
  obtain ⟨hzero, hspec⟩ := updateApprovedList_spec h happ
  have hrecords : setRecords env s ev ms = (0, (updateApprovedList s (collectRecords s ev.cmd none ms)).2) := by
    rw [setRecords, notifyUser, hq.notificationCb]
  have hfst : (setRecords env s ev ms).1 = 0 := by rw [hrecords]
  have hall : ∀ r ∈ (setRecords env s ev ms).2, r.decision = .approve := by
    rw [hrecords]
    intro r hr
    cases ev with
    | age =>
      have hout := (map_bare_of_undecided hspec.records).trans hbare
      exact hspec.ages r hr (recordOf_eventType hout r hr)
    | learn =>
      have hlen := congrArg List.length hbare
      have hfilter := List.length_filter_le (fun m => !skipped .learn (s.view m.macParams.key) m) ms
      have hfree := hroom rfl
      rw [List.length_map, List.length_map] at hlen
      rw [hspec.fits (by omega)] at hr
      exact happ r hr
  have hrefused : (setHal env s ev ms).2 = [] := by
    unfold setHal refused
    simp only [hq.hal, ne_eq, not_true_eq_false, if_false, ite_self]
  rw [← setRecords_bare env h ev ms]
  unfold CtrlLearn.setTaken
  rw [if_neg (fun hc => hc hfst), hrefused, List.filter_eq_self.mpr]
  intro r hr
  simp [hall r hr]

end Quiet

theorem silentEnv_quiet : silentEnv.Quiet := ⟨rfl, rfl, fun _ _ => rfl⟩

theorem silentEnv_reports : silentEnv.Reports := fun _ _ => ⟨fun _ => rfl, List.Sublist.refl _⟩

theorem setBatch_left : SetBatch [fillEntry LEFT] :=
  ⟨by simp, by decide, by decide, by simpa using fillEntry_vid LEFT⟩

/-- The DELETE of the record that misses its links leaves it. -/
theorem Drained.not_setApplies {n : Nat} {lib : Lib} {L : Index} (h : Drained n lib.fdb L)
    (hstart : lib.isCtrlLearnStart = true) : ¬ SetApplies silentEnv lib .age [fillEntry LEFT] := by
  rintro ⟨res, hres, hview, -⟩
  obtain ⟨err, lib', hcall, ⟨-, -, hcells, -⟩, -⟩ := setCall_spec rfl silentEnv_reports hstart h.inv .age setBatch_left
    (by simp) (fun hev => by cases hev)
  rw [hcall, Option.some_inj] at hres
  have hkey := hview (fillEntry LEFT).macParams.key
  rw [← hres] at hkey
  dsimp only at hkey
  -- the record stays
  have hpinned : (lib.fdb.cells (fillEntry LEFT).macParams.key).pinned = true := by
    have hrem : removable lib.fdb LEFT = false := by
      rw [← Bool.not_eq_true, removable_iff h.inv.index]
      exact h.pinned
    rw [cells_some h.stored, hrem]
    rfl
  rw [view_eq, hcells, ageRun_pinned _ hpinned] at hkey
  refine Cell.value_ne_none_of_pinned hpinned (hkey.trans ?_)
  -- and is the one that is to be deleted
  have htaken := silentEnv_quiet.setTaken h.inv .age [fillEntry LEFT] (fun hev => by cases hev)
  have hkeep : skipped .age (lib.fdb.view (fillEntry LEFT).macParams.key) (fillEntry LEFT) = false := by
    rw [skipped, beq_eq_false_iff_ne, ne_eq, view_eq_none_iff, h.stored]
    simp
  rw [List.filter_cons_of_pos (by rw [hkeep]; rfl), List.filter_nil, List.map_singleton,
    setTaken_bare silentEnv silentEnv_reports h.inv .age (by simp), List.map_eq_singleton_iff] at htaken
  obtain ⟨m, hm, hrecord⟩ := htaken
  have hparams : m.macParams = (fillEntry LEFT).macParams := congrArg NotifyRecord.params hrecord
  rw [hm, ← hparams, updatedView_of_mem (by simp) (List.mem_singleton_self _)]
  rfl

/-- **A record that misses its links is not deleted**: the HAL accepts its DELETE, and the FDB keeps it. -/
theorem halfLinked_delete_fails : ¬ ∀ (env : Env), env.initDeinitCb = none → env.Reports →
    ∀ (ops : List FdbOp), (∀ op ∈ ops, op.InRange) → ∀ (lib : Lib), lib.fdb = run Fdb.init ops →
    lib.isCtrlLearnStart = true → ∀ (ev : RecordEvent) (ms : List MacEntry), SetBatch ms →
    (ms.map fun m => m.macParams.key).Nodup → PoolsSuffice env lib ev ms → SetApplies env lib ev ms := by
  intro hall
  obtain ⟨ops, L, hrange, hs⟩ : ∃ ops L, (∀ op ∈ ops, op.InRange) ∧ Drained FILL (run Fdb.init ops) L :=
    ⟨pinOps, _, pinOps_inRange, pinOps_drained.choose_spec⟩
  generalize hlib : Lib.mk (run Fdb.init ops) true [] = lib
  have hfdb : lib.fdb = run Fdb.init ops := by rw [← hlib]
  have hstart : lib.isCtrlLearnStart = true := by rw [← hlib]
  rw [← hfdb] at hs
  exact hs.not_setApplies hstart (hall silentEnv rfl silentEnv_reports ops hrange lib hfdb hstart .age _
    setBatch_left (by simp) (fun hev => by cases hev))

end MlnxLib.CtrlLearn
