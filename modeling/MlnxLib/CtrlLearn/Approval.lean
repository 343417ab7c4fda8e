import MlnxLib.CtrlLearn.Batch
import MlnxLib.CtrlLearn.LinkCalls

/-!
# Approving a batch

`update_approved_list` counts the LEARN records of a batch and denies those that come after as many as the
main pool has free entries.  An add takes at most one entry, so that what is approved finds its entries;
an add of a stored address takes none, so that what is denied might have found one too.

* `ApprovedUpTo` — the decisions, with a number of free entries.
* `AddCall`, `handleOesEventAdds` — the calls of `fdb_uc_db_add_record` that a batch makes.
* `DeniesOnlyForRoom` — what is denied would not have fit.

Principal results: `approval_capacity` — the approved records find their entries;
`denies_only_for_room_iff` — the denied ones would not, exactly when the first records of the batch take
one entry each and no later one is for an address that is stored by then.
-/

set_option autoImplicit false

namespace MlnxLib.CtrlLearn

/-! ## The decisions -/

/-- The number of free entries of the main pool. -/
def Fdb.free (s : Fdb) : Nat := clPoolCount s.mainDbPool

/-- The LEARN records of a list. -/
def learns (rs : List NotifyRecord) : List NotifyRecord := rs.filter fun r => r.eventType == .learn

/-- The record without its decision. -/
def NotifyRecord.undecided (r : NotifyRecord) : NotifyRecord := { r with decision := .approve }

/-- The records with decisions for `f` free entries: the AGE records are approved, and of the LEARN
records the first `f`. -/
structure ApprovedUpTo (f : Nat) (rs out : List NotifyRecord) : Prop where
  records : out.map NotifyRecord.undecided = rs.map NotifyRecord.undecided
  ages : ∀ r ∈ out, r.eventType = .age → r.decision = .approve
  learns : (learns out).map NotifyRecord.decision =
    List.replicate (min f (learns rs).length) .approve ++ List.replicate ((learns rs).length - f) .deny
  fits : rs.length ≤ f → out = rs

theorem learns_length_le (rs : List NotifyRecord) : (learns rs).length ≤ rs.length :=
  List.length_filter_le ..

theorem learns_eq_self {rs : List NotifyRecord} (h : ∀ r ∈ rs, r.eventType = .learn) : learns rs = rs :=
  List.filter_eq_self.mpr fun r hr => by simp [h r hr]

section DenyAfter

variable {n : Nat}

theorem denyAfter_records : ∀ (rs : List NotifyRecord) (processed : Nat),
    (denyAfter n processed rs).map NotifyRecord.undecided = rs.map NotifyRecord.undecided
  | [], _ => rfl
  | r :: rs, processed => by
    unfold denyAfter
    split
    · rw [List.map_cons, List.map_cons, denyAfter_records rs]
      split <;> rfl
    · rw [List.map_cons, List.map_cons, denyAfter_records rs]

theorem denyAfter_ages (rs : List NotifyRecord) (processed : Nat) (h : ∀ r ∈ rs, r.decision = .approve) :
    ∀ r ∈ denyAfter n processed rs, r.eventType = .age → r.decision = .approve := by
  induction rs generalizing processed with
  | nil =>
    intro r hr
    cases hr
  | cons r rs ih =>
    intro r' hr' hage
    have htail := fun k => ih k (fun x hx => h x (List.mem_cons_of_mem _ hx)) r'
    unfold denyAfter at hr'
    split at hr'
    · rename_i hlearn
      rcases List.mem_cons.mp hr' with rfl | hr'
      · split at hage <;> simp_all
      · exact htail _ hr' hage
    · rcases List.mem_cons.mp hr' with rfl | hr'
      · exact h _ (List.mem_cons_self ..)
      · exact htail _ hr' hage

/-- **The first LEARN records** stay approved, up to the number. -/
theorem denyAfter_learns (rs : List NotifyRecord) (processed : Nat) (h : ∀ r ∈ rs, r.decision = .approve) :
    (learns (denyAfter n processed rs)).map NotifyRecord.decision =
      List.replicate (min (n - processed) (learns rs).length) .approve ++
        List.replicate ((learns rs).length - (n - processed)) .deny := by
  induction rs generalizing processed with
  | nil => simp [denyAfter, learns]
  | cons r rs ih =>
    have hr := h r (List.mem_cons_self ..)
    have htail := fun k => ih k (fun x hx => h x (List.mem_cons_of_mem _ hx))
    unfold denyAfter
    split
    · rename_i hlearn
      have hkeep : learns (r :: rs) = r :: learns rs := by simp [learns, hlearn]
      have ih := htail (processed + 1)
      rw [hkeep, List.length_cons]
      split
      · rename_i hle
        have hzero : n - processed = 0 := by omega
        have hzero' : n - (processed + 1) = 0 := by omega
        have hhead : learns ({ r with decision := .deny } :: denyAfter n (processed + 1) rs) =
            { r with decision := .deny } :: learns (denyAfter n (processed + 1) rs) := by
          simp [learns, hlearn]
        rw [hhead, List.map_cons, ih, hzero, hzero']
        simp [List.replicate_succ]
      · rename_i hlt
        have hhead : learns (r :: denyAfter n (processed + 1) rs) =
            r :: learns (denyAfter n (processed + 1) rs) := by
          simp [learns, hlearn]
        have hmin : min (n - processed) ((learns rs).length + 1) =
            min (n - (processed + 1)) (learns rs).length + 1 := by omega
        have hrest : (learns rs).length + 1 - (n - processed) =
            (learns rs).length - (n - (processed + 1)) := by omega
        rw [hhead, List.map_cons, ih, hmin, hrest, hr, List.replicate_succ, List.cons_append]
    · rename_i hlearn
      have hskip : ∀ xs, learns (r :: xs) = learns xs := by
        intro xs
        simp [learns, hlearn]
      rw [hskip, hskip]
      exact htail processed

/-- A list of LEARN records is cut in two. -/
theorem denyAfter_all_learn (rs : List NotifyRecord) (processed : Nat)
    (h : ∀ r ∈ rs, r.eventType = .learn) :
    denyAfter n processed rs = rs.take (n - processed) ++
      (rs.drop (n - processed)).map fun r => { r with decision := .deny } := by
  induction rs generalizing processed with
  | nil => simp [denyAfter]
  | cons r rs ih =>
    have ih := ih (processed + 1) (fun x hx => h x (List.mem_cons_of_mem _ hx))
    rw [denyAfter, if_pos (h r (List.mem_cons_self ..)), ih]
    split
    · rename_i hle
      have hzero : n - processed = 0 := by omega
      have hzero' : n - (processed + 1) = 0 := by omega
      simp [hzero, hzero']
    · rename_i hlt
      have hsucc : n - processed = n - (processed + 1) + 1 := by omega
      simp [hsucc]

end DenyAfter

/-- The call counts the free entries. -/
theorem updateApprovedList_eq {s : Fdb} {L : Index} (h : FdbInv s L) (rs : List NotifyRecord) :
    updateApprovedList s rs = (0, if s.free < rs.length then denyAfter s.free 0 rs else rs) := by
  unfold updateApprovedList fdbUcDbGetFreePoolCount
  simp only [h.ready, Bool.not_true, Bool.false_eq_true, if_false, ne_eq, not_true_eq_false]
  unfold Fdb.free
  split <;> rfl

/-- **`update_approved_list`** approves up to the number of free entries. -/
theorem updateApprovedList_spec {s : Fdb} {L : Index} (h : FdbInv s L) {rs : List NotifyRecord}
    (hrs : ∀ r ∈ rs, r.decision = .approve) :
    (updateApprovedList s rs).1 = 0 ∧ ApprovedUpTo s.free rs (updateApprovedList s rs).2 := by
  rw [updateApprovedList_eq h]
  refine ⟨rfl, ?_⟩
  dsimp only
  split
  · rename_i hlt
    refine ⟨denyAfter_records rs 0, denyAfter_ages rs 0 hrs, ?_, fun hle => absurd hlt (Nat.not_lt.mpr hle)⟩
    exact denyAfter_learns rs 0 hrs
  · rename_i hge
    have hle := learns_length_le rs
    have hmin : min s.free (learns rs).length = (learns rs).length := by omega
    have hzero : (learns rs).length - s.free = 0 := by omega
    refine ⟨rfl, fun r hr _ => hrs r hr, ?_, fun _ => rfl⟩
    rw [hmin, hzero, List.replicate_zero, List.append_nil, List.eq_replicate_iff]
    refine ⟨List.length_map .., fun d hd => ?_⟩
    obtain ⟨r, hr, rfl⟩ := List.mem_map.mp hd
    exact hrs r (List.mem_of_mem_filter hr)

/-! ## What an add takes -/

section Codes

theorem orBail_ne {σ : Type} {c : Int} {r : Int × σ} {k : σ → Int × σ} (hr : r.1 ≠ c)
    (hk : ∀ s, (k s).1 ≠ c) : (orBail r k).1 ≠ c := by
  unfold orBail
  split
  · exact hk _
  · exact hr

theorem codes_ne_enomem : (0 : Int) ≠ -ENOMEM ∧ -EPERM ≠ -ENOMEM ∧ -ENOENT ≠ -ENOMEM ∧ ENOMEM ≠ -ENOMEM := by
  decide

theorem linkEntry_ne_enomem (s : Fdb) (i k : Nat) (f : FltrField) :
    (linkEntryToFltrList s i k f).1 ≠ -ENOMEM := by
  unfold linkEntryToFltrList
  split
  · exact codes_ne_enomem.2.1
  · split
    · exact codes_ne_enomem.1
    · split
      · exact codes_ne_enomem.2.2.2
      · exact codes_ne_enomem.1

theorem delinkEntry_ne_enomem (s : Fdb) (i k : Nat) (f : FltrField) :
    (delinkEntryFromFltrList s i k f).1 ≠ -ENOMEM := by
  unfold delinkEntryFromFltrList
  split
  · exact codes_ne_enomem.2.1
  · dsimp only
    split
    · split
      · split
        · exact codes_ne_enomem.1
        · exact codes_ne_enomem.2.1
      · exact codes_ne_enomem.1
    · exact codes_ne_enomem.2.1

theorem filterAddEntry_ne_enomem (s : Fdb) (i : Option Nat) :
    (fdbUcDbFilterAddEntry s i).1 ≠ -ENOMEM := by
  unfold fdbUcDbFilterAddEntry
  split
  · exact codes_ne_enomem.2.1
  · split
    · exact codes_ne_enomem.2.2.1
    · dsimp only
      split
      · exact codes_ne_enomem.2.1
      · exact orBail_ne (linkEntry_ne_enomem _ _ _ _) (fun s => linkEntry_ne_enomem s _ _ _)

theorem filterModifiedEntry_ne_enomem (s : Fdb) (p : MacParams) (i : Nat) :
    (fdbUcDbFilterModifiedEntry s p i).1 ≠ -ENOMEM := by
  unfold fdbUcDbFilterModifiedEntry
  split
  · exact codes_ne_enomem.2.1
  · dsimp only
    split
    · refine orBail_ne (delinkEntry_ne_enomem _ _ _ _) (fun s => ?_)
      refine orBail_ne (linkEntry_ne_enomem _ _ _ _) (fun s => ?_)
      exact orBail_ne (delinkEntry_ne_enomem _ _ _ _) (fun s => linkEntry_ne_enomem s _ _ _)
    · exact codes_ne_enomem.1

end Codes

section Free

variable {s : Fdb} {L : Index}

/-- **An add reports that it is out of memory** only for a new address in a full table. -/
theorem add_enomem_iff (h : FdbInv s L) (e : MacEntry) :
    (fdbUcDbAddRecord s (some e)).1 = -ENOMEM ↔ s.fdbMap.get e.macParams.key = none ∧ s.free = 0 := by
  cases hk : s.fdbMap.get e.macParams.key with
  | none =>
    cases hp : clPoolGet s.mainDbPool with
    | none =>
      rw [add_full h hk hp]
      exact iff_of_true rfl ⟨rfl, clPoolGet_none_iff.mp hp⟩
    | some r =>
      obtain ⟨i, pool⟩ := r
      rw [add_new h hk hp]
      have hpos := clPoolGet_count hp
      refine iff_of_false (filterAddEntry_ne_enomem _ _) (fun hfree => ?_)
      unfold Fdb.free at hfree
      omega
  | some i =>
    rw [add_known h hk]
    exact iff_of_false (filterModifiedEntry_ne_enomem _ _ _) (by simp)

/-- The pool and the map of keys after an add. -/
theorem add_takes (h : FdbInv s L) (e : MacEntry) :
    (s.fdbMap.get e.macParams.key = none ∧ s.free ≠ 0 ∧
      (fdbUcDbAddRecord s (some e)).2.free + 1 = s.free ∧
      ∃ i, ∀ k, (fdbUcDbAddRecord s (some e)).2.fdbMap.get k =
        if k = e.macParams.key then some i else s.fdbMap.get k) ∨
    ((s.fdbMap.get e.macParams.key ≠ none ∨ s.free = 0) ∧
      (fdbUcDbAddRecord s (some e)).2.free = s.free ∧
      ∀ k, (fdbUcDbAddRecord s (some e)).2.fdbMap.get k = s.fdbMap.get k) := by
  have hnew : ∀ {i pool} {s' : Fdb}, s.fdbMap.get e.macParams.key = none →
      clPoolGet s.mainDbPool = some (i, pool) → SameDb (created s i pool e) s' →
      s.fdbMap.get e.macParams.key = none ∧ s.free ≠ 0 ∧ s'.free + 1 = s.free ∧
      ∃ i, ∀ k, s'.fdbMap.get k = if k = e.macParams.key then some i else s.fdbMap.get k := by
    intro i pool s' hk hp hdb
    have hcount := clPoolGet_count hp
    have hfree : s'.free = clPoolCount pool := by
      rw [Fdb.free, hdb.mainDbPool]
      rfl
    refine ⟨hk, ?_, ?_, i, fun k => ?_⟩
    · unfold Fdb.free
      omega
    · rw [hfree]
      exact hcount
    · rw [hdb.fdbMap]
      exact OrdMap.get_insert i hk k
  have hold : ∀ {i} {s' : Fdb}, s.fdbMap.get e.macParams.key = some i → SameDb (setRecord s i e) s' →
      (s.fdbMap.get e.macParams.key ≠ none ∨ s.free = 0) ∧ s'.free = s.free ∧
      ∀ k, s'.fdbMap.get k = s.fdbMap.get k := by
    intro i s' hk hdb
    refine ⟨Or.inl (by simp [hk]), ?_, fun k => ?_⟩
    · rw [Fdb.free, hdb.mainDbPool]
      rfl
    · rw [hdb.fdbMap]
      rfl
  cases add_spec h e with
  | full hk hp hr =>
    rw [hr]
    exact Or.inr ⟨Or.inr (clPoolGet_none_iff.mp hp), rfl, fun _ => rfl⟩
  | newOk i pool hk hp herr hdb => exact Or.inl (hnew hk hp hdb)
  | newErr i pool hk hp herr hdb => exact Or.inl (hnew hk hp hdb)
  | refresh i hk hport hr =>
    rw [hr]
    exact Or.inr (hold hk SameDb.rfl)
  | moveOk i hk hport herr hdb => exact Or.inr (hold hk hdb)
  | moveErr i hk hport herr hdb => exact Or.inr (hold hk hdb)

end Free

/-- The adds of a list of entries, one after the other. -/
def addAll (s : Fdb) (es : List MacEntry) : Fdb := run s (es.map fun e => .add (some e))

theorem addAll_cons (s : Fdb) (e : MacEntry) (es : List MacEntry) :
    addAll s (e :: es) = addAll (fdbUcDbAddRecord s (some e)).2 es := by
  rw [addAll, List.map_cons, run_cons, step_add, addAll]

/-- **Adds take at most one entry each.** -/
theorem addAll_free : ∀ (es : List MacEntry) {s : Fdb} {L : Index}, FdbInv s L →
    s.free ≤ (addAll s es).free + es.length
  | [], s, _, _ => Nat.le_add_right _ _
  | e :: es, s, L, h => by
    obtain ⟨L', h'⟩ := add_inv h (some e)
    have ih := addAll_free es h'
    rw [addAll_cons, List.length_cons]
    obtain ⟨-, -, hfree, -⟩ | ⟨-, hfree, -⟩ := add_takes h e <;> omega

/-- The ports of the records stay within a set that has those of the entries. -/
theorem addAll_ports {P : UInt64 → Prop} : ∀ (es : List MacEntry) {s : Fdb} {L : Index}, FdbInv s L →
    PortsIn P s → (∀ e ∈ es, P e.macParams.logPort) → PortsIn P (addAll s es)
  | [], _, _, _, hs, _ => hs
  | e :: es, s, L, h, hs, hes => by
    obtain ⟨L', h'⟩ := add_inv h (some e)
    rw [addAll_cons]
    exact addAll_ports es h' (hs.add h (hes e (List.mem_cons_self ..)))
      (fun e' he' => hes e' (List.mem_cons_of_mem _ he'))

/-- What is never short of entries: the main pool has one for a new address, and the head pool has the
heads. -/
def AddFits (s : Fdb) (e : MacEntry) : Prop :=
  (fdbUcDbAddRecord s (some e)).1 ≠ -ENOMEM ∧ ∀ c ∈ addRecordLinkCalls s e, ¬ c.FindsPoolEmpty

/-- **As many adds as there are free entries**, within as many ports as there are port heads, all fit. -/
theorem addAll_fits {s : Fdb} {L : Index} (h : FdbInv s L) {Q : Finset UInt64}
    (hQ : Q.card ≤ MAX_PORT_ENTRIES) (hs : PortsIn (· ∈ Q) s) {as : List MacEntry} {e : MacEntry}
    (has : ∀ a ∈ as, a.macParams.logPort ∈ Q) (he : e.macParams.logPort ∈ Q) (hfree : as.length < s.free) :
    AddFits (addAll s as) e := by
  obtain ⟨L', h'⟩ := FdbInv.run (as.map fun e => FdbOp.add (some e)) h
  have h' : FdbInv (addAll s as) L' := h'
  have hleft := addAll_free as h
  have hports := addAll_ports as h hs has
  refine ⟨fun herr => ?_, addRecordLinkCalls_found h' ?_⟩
  · have hzero := ((add_enomem_iff h' e).mp herr).2
    omega
  · refine (Finset.card_le_card ?_).trans hQ
    intro p hp
    rcases Finset.mem_insert.mp hp with rfl | hp
    · exact he
    · obtain ⟨i, hi, rfl⟩ := Finset.mem_image.mp hp
      exact hports i (Fdb.mem_slots.mp hi)

/-! ## The adds of a batch -/

/-- A call of `fdb_uc_db_add_record`: the state it runs in, and its entry. -/
structure AddCall where
  state : Fdb
  entry : MacEntry

/-- The adds of the second pass. -/
def secondPassAdds (env : Env) (accessCmd : AccessCmd) (failed : List MacEntry) :
    Lib → List MacEntry → List AddCall
  | _, [] => []
  | lib, e :: es =>
    if failed.any (fun f => f.macParams == e.macParams) then
      secondPassAdds env accessCmd failed lib es
    else
      let call : AddCall := match initCookie env lib with
        | (_, cookie, lib) => ⟨lib.fdb, ⟨e.macParams, cookie, fdbType e.macParams.entryType⟩⟩
      (if accessCmd = .add then [call] else []) ++
        secondPassAdds env accessCmd failed (applyApproved env accessCmd lib e).2 es

/-- The adds of what follows the first pass. -/
def finishBatchAdds (env : Env) (p : FirstPass) : List AddCall :=
  let upd := updateApprovedList p.lib.fdb p.records
  let upd := notifyUser env (if upd.1 ≠ 0 then -EPERM else 0) upd.2
  let approved := approvedList upd.2
  if !p.isLearnedOrAgedEvent then [] else
  if approved = [] then [] else
  let hal := env.hal p.accessCmd approved
  let failed := if hal.1 ≠ 0 then hal.2 else []
  secondPassAdds env p.accessCmd failed p.lib hal.2

/-- The adds of `ctrl_learn_handle_oes_event`. -/
def handleOesEventAdds (env : Env) (lib : Lib) (eventInfo : List FdbEvent) : List AddCall :=
  match firstPass env ⟨lib, [], .add, false⟩ eventInfo with
  | none => []
  | some p => finishBatchAdds env p

/-- The HAL as it is documented: after a success the list is as it was, after an error it has some of the
entries. -/
def Env.Reports (env : Env) : Prop := ∀ cmd es,
  ((env.hal cmd es).1 = 0 → (env.hal cmd es).2 = es) ∧ (env.hal cmd es).2.Sublist es

/-- The notification callback leaves what is denied denied. -/
def Env.NeverApproves (env : Env) : Prop := ∀ cb, env.notificationCb = some cb → ∀ rs,
  List.Forall₂ (fun r r' => r'.decision = .approve → r.decision = .approve) rs
    (setDecisions rs (cb rs).2)

theorem initCookie_fdb (env : Env) (lib : Lib) : (initCookie env lib).2.2.fdb = lib.fdb := by
  unfold initCookie
  cases env.initDeinitCb <;> rfl

theorem addApproved_fdb (env : Env) (lib : Lib) (e : MacEntry) :
    (addApproved env lib e).2.fdb = (fdbUcDbAddRecord lib.fdb (some ⟨e.macParams,
      (initCookie env lib).2.1, fdbType e.macParams.entryType⟩)).2 := by
  rw [← initCookie_fdb env lib]
  rfl

section Trace

variable (env : Env) (failed : List MacEntry)

/-- **The adds of the second pass are a run**, and leave what the pass leaves. -/
theorem secondPassAdds_run : ∀ (es : List MacEntry) (lib : Lib) (err : Int),
    (secondPass env .add failed lib err es).2.fdb =
      addAll lib.fdb ((secondPassAdds env .add failed lib es).map AddCall.entry) ∧
    ∀ as c bs, secondPassAdds env .add failed lib es = as ++ c :: bs →
      c.state = addAll lib.fdb (as.map AddCall.entry)
  | [], lib, err => by
    refine ⟨rfl, fun as c bs h => ?_⟩
    simp [secondPassAdds] at h
  | e :: es, lib, err => by
    rw [secondPass, secondPassAdds]
    split
    · exact secondPassAdds_run es lib err
    · obtain ⟨hrun, hstate⟩ := secondPassAdds_run es (addApproved env lib e).2 (addApproved env lib e).1
      have happly : applyApproved env .add lib e = addApproved env lib e := if_pos rfl
      rw [happly]
      dsimp only
      rw [if_pos rfl, List.singleton_append]
      rw [addApproved_fdb] at hrun hstate
      refine ⟨?_, fun as c bs h => ?_⟩
      · rw [List.map_cons, addAll_cons]
        exact hrun
      · cases as with
        | nil =>
          rw [List.nil_append, List.cons.injEq] at h
          rw [← h.1]
          exact initCookie_fdb env lib
        | cons a as =>
          rw [List.cons_append, List.cons.injEq] at h
          rw [← h.1, List.map_cons, addAll_cons]
          exact hstate as c bs h.2

/-- Each add is for an entry of the list. -/
theorem secondPassAdds_entries : ∀ (es : List MacEntry) (lib : Lib),
    ((secondPassAdds env .add failed lib es).map fun c => c.entry.macParams).Sublist
      (es.map MacEntry.macParams)
  | [], _ => List.Sublist.refl []
  | e :: es, lib => by
    rw [secondPassAdds]
    split
    · exact (secondPassAdds_entries es lib).cons _
    · dsimp only
      rw [if_pos rfl, List.singleton_append, List.map_cons, List.map_cons]
      exact (secondPassAdds_entries es _).cons_cons _

end Trace

/-- The adds of a batch whose command is ADD leave what the batch leaves. -/
theorem finishBatchAdds_run (env : Env) {p : FirstPass} (hcmd : p.accessCmd = .add) :
    (finishBatch env p).2.fdb = addAll p.lib.fdb ((finishBatchAdds env p).map AddCall.entry) := by
  unfold finishBatch finishBatchAdds
  generalize updateApprovedList p.lib.fdb p.records = upd
  dsimp only
  generalize notifyUser env (if upd.1 ≠ 0 then -EPERM else 0) upd.2 = out
  cases p.isLearnedOrAgedEvent with
  | false => rfl
  | true =>
    simp only [Bool.not_true, Bool.false_eq_true, if_false]
    by_cases hnil : approvedList out.2 = []
    · rw [if_pos hnil, if_pos hnil]
      rfl
    · rw [if_neg hnil, if_neg hnil, hcmd]
      have hrun := fun failed es err => (secondPassAdds_run env failed es p.lib err).1
      split <;> exact hrun _ _ _

/-- Without a flush, the first pass collects the records and leaves the FDB. -/
theorem firstPass_collects (env : Env) : ∀ (events : List FdbEvent) (p : FirstPass),
    (∀ e ∈ events, e.record.isSome) →
    firstPass env p events = some ⟨p.lib, p.records ++ recordsOf events, batchCmd p.accessCmd events,
      p.isLearnedOrAgedEvent || !(recordsOf events).isEmpty⟩
  | [], p, _ => by simp [firstPass, recordsOf, batchCmd]
  | e :: events, p, h => by
    have ih := fun p => firstPass_collects env events p (fun x hx => h x (List.mem_cons_of_mem _ hx))
    have he := h e (List.mem_cons_self ..)
    rw [firstPass, recordsOf_cons]
    cases e with
    | learn q => simp [firstPassStep, ih, FdbEvent.record, batchCmd]
    | age q => simp [firstPassStep, ih, FdbEvent.record, batchCmd]
    | _ => cases he

theorem batchCmd_learns : ∀ (events : List FdbEvent), (∀ e ∈ events, ∃ p, e = FdbEvent.learn p) →
    batchCmd .add events = .add
  | [], _ => rfl
  | e :: events, h => by
    obtain ⟨p, rfl⟩ := h e (List.mem_cons_self ..)
    exact batchCmd_learns events (fun x hx => h x (List.mem_cons_of_mem _ hx))

theorem setDecisions_undecided : ∀ (rs : List NotifyRecord) (ds : List NotifyDecision),
    (setDecisions rs ds).map NotifyRecord.undecided = rs.map NotifyRecord.undecided
  | [], ds => by cases ds <;> rfl
  | r :: rs, [] => rfl
  | r :: rs, d :: ds => by
    rw [setDecisions, List.map_cons, List.map_cons, setDecisions_undecided rs ds]
    rfl

theorem notifyUser_undecided (env : Env) (err : Int) (rs : List NotifyRecord) :
    (notifyUser env err rs).2.map NotifyRecord.undecided = rs.map NotifyRecord.undecided := by
  unfold notifyUser
  cases env.notificationCb with
  | none => rfl
  | some cb => exact setDecisions_undecided rs _

/-- The number of approved records. -/
def approvedCount (rs : List NotifyRecord) : Nat := rs.countP fun r => r.decision == .approve

theorem approvedList_length (rs : List NotifyRecord) : (approvedList rs).length = approvedCount rs := by
  rw [approvedList, List.length_map, approvedCount, List.countP_eq_length_filter]

theorem approvedCount_le_of_forall₂ {rs rs' : List NotifyRecord}
    (h : List.Forall₂ (fun r r' => r'.decision = .approve → r.decision = .approve) rs rs') :
    approvedCount rs' ≤ approvedCount rs := by
  induction h with
  | nil => exact Nat.le_refl _
  | @cons r r' rs rs' hr _ ih =>
    unfold approvedCount at ih ⊢
    rw [List.countP_cons, List.countP_cons]
    by_cases hr' : r'.decision = .approve
    · simp [hr', hr hr', ih]
    · have hdeny : (r'.decision == NotifyDecision.approve) = false := by simpa using hr'
      simp only [hdeny, Bool.false_eq_true, if_false]
      omega

theorem notifyUser_approvedCount_le {env : Env} (henv : env.NeverApproves) (err : Int)
    (rs : List NotifyRecord) : approvedCount (notifyUser env err rs).2 ≤ approvedCount rs := by
  unfold notifyUser
  cases hcb : env.notificationCb with
  | none => exact Nat.le_refl _
  | some cb => exact approvedCount_le_of_forall₂ (henv cb hcb rs)

/-- Of LEARN records, no more are approved than there are free entries. -/
theorem ApprovedUpTo.approvedCount_le {f : Nat} {rs out : List NotifyRecord} (h : ApprovedUpTo f rs out)
    (hrs : ∀ r ∈ rs, r.eventType = .learn) : approvedCount out ≤ f := by
  have hout : ∀ r ∈ out, r.eventType = .learn := by
    intro r hr
    have hmem : r.undecided ∈ rs.map NotifyRecord.undecided := by
      rw [← h.records]
      exact List.mem_map_of_mem hr
    obtain ⟨r', hr', he⟩ := List.mem_map.mp hmem
    have hevent := congrArg NotifyRecord.eventType he
    exact hevent.symm.trans (hrs r' hr')
  have hcount : approvedCount out = ((CtrlLearn.learns out).map NotifyRecord.decision).count .approve := by
    rw [learns_eq_self hout, approvedCount, List.count, List.countP_map]
    rfl
  rw [hcount, h.learns, List.count_append, List.count_replicate_self, List.count_replicate]
  simp

theorem mem_approvedList_params {rs rs' : List NotifyRecord} {e : MacEntry}
    (h : rs.map NotifyRecord.undecided = rs'.map NotifyRecord.undecided) (he : e ∈ approvedList rs) :
    ∃ r ∈ rs', e.macParams = r.params := by
  obtain ⟨r, hr, rfl⟩ := List.mem_map.mp he
  have hmem : r.undecided ∈ rs'.map NotifyRecord.undecided := by
    rw [← h]
    exact List.mem_map_of_mem (List.mem_of_mem_filter hr)
  obtain ⟨r', hr', hrr⟩ := List.mem_map.mp hmem
  exact ⟨r', hr', (congrArg NotifyRecord.params hrr).symm⟩

/-- The port of an event with an entry. -/
def FdbEvent.port : FdbEvent → Option UInt64
  | .learn p => some p.logPort
  | .age p => some p.logPort
  | _ => none

/-- The ports of the records and of a batch. -/
def portsWith (s : Fdb) (events : List FdbEvent) : Finset UInt64 :=
  s.slots.image s.portOf ∪ (events.filterMap FdbEvent.port).toFinset

/-- **A batch of LEARN events fits.** -/
theorem handleOesEventAdds_fit {env : Env} (hhal : env.Reports) (hcb : env.NeverApproves) {lib : Lib}
    {L : Index} (h : FdbInv lib.fdb L) {events : List FdbEvent}
    (hlearn : ∀ e ∈ events, ∃ p, e = FdbEvent.learn p)
    (hports : (portsWith lib.fdb events).card ≤ MAX_PORT_ENTRIES) :
    ∀ c ∈ handleOesEventAdds env lib events, AddFits c.state c.entry := by
  have hsome : ∀ e ∈ events, e.record.isSome := by
    intro e he
    obtain ⟨p, rfl⟩ := hlearn e he
    rfl
  have hrecords : ∀ r ∈ recordsOf events, r.decision = .approve ∧ r.eventType = .learn ∧
      .learn r.params ∈ events := by
    intro r hr
    obtain ⟨e, he, her⟩ := List.mem_filterMap.mp hr
    obtain ⟨p, rfl⟩ := hlearn e he
    rw [FdbEvent.record, Option.some_inj] at her
    subst her
    exact ⟨rfl, rfl, he⟩
  obtain ⟨hcode, hupd⟩ := updateApprovedList_spec h (fun r hr => (hrecords r hr).1)
  have hcount := hupd.approvedCount_le (fun r hr => (hrecords r hr).2.1)
  intro c hc
  unfold handleOesEventAdds at hc
  rw [firstPass_collects env events _ hsome] at hc
  unfold finishBatchAdds at hc
  simp only [List.nil_append, Bool.false_or, Bool.not_not, batchCmd_learns events hlearn, hcode, ne_eq,
    not_true_eq_false, if_false] at hc
  generalize hout : (notifyUser env 0 (updateApprovedList lib.fdb (recordsOf events)).2).2 = out at hc
  have hlist : out.map NotifyRecord.undecided = (recordsOf events).map NotifyRecord.undecided := by
    rw [← hout, notifyUser_undecided]
    exact hupd.records
  have hle : (approvedList out).length ≤ lib.fdb.free := by
    rw [approvedList_length, ← hout]
    exact (notifyUser_approvedCount_le hcb 0 _).trans hcount
  split at hc
  · cases hc
  split at hc
  · cases hc
  obtain ⟨as, bs, hsplit⟩ := List.append_of_mem hc
  -- the entries of the adds are some of the approved ones, in order
  have hsub := (secondPassAdds_entries env (if ¬ (env.hal .add (approvedList out)).1 = 0
    then (env.hal .add (approvedList out)).2 else []) (env.hal .add (approvedList out)).2 lib).trans
    ((hhal .add (approvedList out)).2.map MacEntry.macParams)
  have hport : ∀ p ∈ (approvedList out).map MacEntry.macParams, p.logPort ∈ portsWith lib.fdb events := by
    intro p hp
    obtain ⟨e, he, rfl⟩ := List.mem_map.mp hp
    obtain ⟨r, hr, hre⟩ := mem_approvedList_params hlist he
    rw [hre]
    refine Finset.mem_union_right _ (List.mem_toFinset.mpr (List.mem_filterMap.mpr ?_))
    exact ⟨_, (hrecords r hr).2.2, rfl⟩
  have hlen := hsub.length_le
  rw [hsplit] at hsub hlen
  simp only [List.length_map, List.length_append, List.length_cons] at hlen
  have hmem : ∀ a ∈ as ++ c :: bs, a.entry.macParams.logPort ∈ portsWith lib.fdb events := by
    intro a ha
    exact hport _ (hsub.subset (List.mem_map_of_mem ha))
  rw [(secondPassAdds_run env _ _ lib 0).2 as c bs hsplit]
  refine addAll_fits h hports (fun i hi => ?_) (fun a ha => ?_) (hmem c (by simp)) ?_
  · exact Finset.mem_union_left _ (Finset.mem_image_of_mem _ (Fdb.mem_slots.mpr hi))
  · obtain ⟨b, hb, rfl⟩ := List.mem_map.mp ha
    exact hmem b (by simp [hb])
  · rw [List.length_map]
    omega

/-- **Approval respects capacity.** -/
theorem approval_capacity (env : Env) (hhal : env.Reports) (hcb : env.NeverApproves) (ops : List FdbOp)
    (lib : Lib) (hlib : lib.fdb = run Fdb.init ops) :
    (∀ rs : List NotifyRecord, (∀ r ∈ rs, r.decision = .approve) →
      (updateApprovedList lib.fdb rs).1 = 0 ∧
      ApprovedUpTo lib.fdb.free rs (updateApprovedList lib.fdb rs).2) ∧
    ∀ events : List FdbEvent, (∀ e ∈ events, ∃ p, e = FdbEvent.learn p) →
      (portsWith lib.fdb events).card ≤ MAX_PORT_ENTRIES →
      ∀ c ∈ handleOesEventAdds env lib events, AddFits c.state c.entry := by
  obtain ⟨L, h⟩ := FdbInv.run ops emptyDb_init.inv
  rw [← hlib] at h
  refine ⟨fun rs hrs => updateApprovedList_spec h hrs, fun events hlearn hports => ?_⟩
  exact handleOesEventAdds_fit hhal hcb h hlearn hports

/-- A callback that denies the records of MAC address 2, and decides nothing else. -/
def denyingEnv : Env :=
  ⟨fun _ es => (0, es), some fun rs => (0, rs.map fun r =>
    if r.params.macAddr.o5 == 2 then .deny else r.decision), none⟩

theorem denyingEnv_reports : denyingEnv.Reports := fun _ _ => ⟨fun _ => rfl, List.Sublist.refl _⟩

theorem denyingEnv_neverApproves : denyingEnv.NeverApproves := by
  intro cb hcb rs
  cases hcb
  induction rs with
  | nil => exact .nil
  | cons r rs ih =>
    refine .cons (fun happ => ?_) ih
    dsimp only at happ
    split at happ
    · cases happ
    · exact happ

/-- A LEARN and an AGE beside two records; and a LEARN of each of the two, of which the user denies one. -/
theorem approval_capacity_denied :
    let s := run Fdb.init twoStations
    let rs : List NotifyRecord := [⟨.learn, (station 7 3 5).macParams, .approve, .ageable, none⟩,
      ⟨.age, (station 7 1 5).macParams, .approve, .ageable, none⟩]
    let events : List FdbEvent := [.learn (station 7 1 6).macParams, .learn (station 7 2 5).macParams]
    ((updateApprovedList s rs).1 = 0 ∧ ApprovedUpTo s.free rs (updateApprovedList s rs).2) ∧
    (handleOesEventAdds denyingEnv ⟨s, true, []⟩ events).map (·.entry) = [station 7 1 6] ∧
    ∀ c ∈ handleOesEventAdds denyingEnv ⟨s, true, []⟩ events, AddFits c.state c.entry := by
  intro s rs events
  have h := approval_capacity denyingEnv denyingEnv_reports denyingEnv_neverApproves twoStations
    ⟨s, true, []⟩ rfl
  exact ⟨h.1 rs (by simp [rs]), by decide +kernel, h.2 events (by simp [events]) (by decide +kernel)⟩

/-! ## Needless denial -/

/-- The keys of the records that are not stored: what storing the records takes from the main pool. -/
def newKeys (s : Fdb) (rs : List NotifyRecord) : Finset Nat :=
  (rs.map fun r => r.params.key).toFinset.filter fun k => s.fdbMap.get k = none

/-- A denied record does not fit: with the records approved before it, it takes more entries than are
free. -/
def DeniesOnlyForRoom (s : Fdb) (rs : List NotifyRecord) : Prop :=
  ∀ as r bs, (updateApprovedList s rs).2 = as ++ r :: bs → r.decision = .deny →
    s.free < (newKeys s ((as.filter fun a => a.decision == .approve) ++ [r])).card

/-- The list fits, or: no record of it is for a stored key, the first records, as many as there are free
entries, have keys of their own, and none of the later ones is for one of these keys. -/
def AllNew (s : Fdb) (rs : List NotifyRecord) : Prop :=
  rs.length ≤ s.free ∨
  (∀ r ∈ rs, s.fdbMap.get r.params.key = none) ∧
  ((rs.take s.free).map fun r => r.params.key).Nodup ∧
  ∀ r ∈ rs.drop s.free, ∀ r' ∈ rs.take s.free, r'.params.key ≠ r.params.key

theorem newKeys_card_le (s : Fdb) (rs : List NotifyRecord) : (newKeys s rs).card ≤ rs.length := by
  refine (Finset.card_filter_le _ _).trans ((List.toFinset_card_le _).trans ?_)
  rw [List.length_map]

theorem newKeys_congr (s : Fdb) {rs rs' : List NotifyRecord}
    (h : rs.map NotifyRecord.params = rs'.map NotifyRecord.params) : newKeys s rs = newKeys s rs' := by
  have hkeys : ∀ xs : List NotifyRecord, (xs.map fun r => r.params.key) =
      (xs.map NotifyRecord.params).map MacParams.key := by
    intro xs
    rw [List.map_map]
    rfl
  unfold newKeys
  rw [hkeys, hkeys, h]

/-- The records take one entry each. -/
theorem newKeys_card_eq_iff (s : Fdb) (rs : List NotifyRecord) : (newKeys s rs).card = rs.length ↔
    (rs.map fun r => r.params.key).Nodup ∧ ∀ r ∈ rs, s.fdbMap.get r.params.key = none := by
  have hlen : (rs.map fun r => r.params.key).length = rs.length := List.length_map ..
  have hle := List.toFinset_card_le (rs.map fun r => r.params.key)
  have hfilter := Finset.card_filter_le (rs.map fun r => r.params.key).toFinset
    (fun k => s.fdbMap.get k = none)
  constructor
  · intro h
    unfold newKeys at h
    have hcard : (rs.map fun r => r.params.key).toFinset.card = (rs.map fun r => r.params.key).length := by
      omega
    have hall : ((rs.map fun r => r.params.key).toFinset.filter fun k => s.fdbMap.get k = none).card =
        (rs.map fun r => r.params.key).toFinset.card := by
      omega
    refine ⟨Multiset.coe_nodup.mp (Multiset.toFinset_card_eq_card_iff_nodup.mp hcard), fun r hr => ?_⟩
    exact Finset.card_filter_eq_iff.mp hall _ (List.mem_toFinset.mpr (List.mem_map.mpr ⟨r, hr, rfl⟩))
  · rintro ⟨hnd, hnew⟩
    unfold newKeys
    rw [Finset.filter_true_of_mem, List.toFinset_card_of_nodup hnd, hlen]
    intro k hk
    obtain ⟨r, hr, rfl⟩ := List.mem_map.mp (List.mem_toFinset.mp hk)
    exact hnew r hr

section Denied

variable {s : Fdb} {L : Index} {rs : List NotifyRecord}

/-- The record with its decision turned to DENY. -/
def NotifyRecord.denied (r : NotifyRecord) : NotifyRecord := { r with decision := .deny }

/-- In a list that is too long, the denied records are those after the first ones. -/
theorem deniesOnlyForRoom_iff_drop (h : FdbInv s L)
    (hrs : ∀ r ∈ rs, r.eventType = .learn ∧ r.decision = .approve) (hlt : s.free < rs.length) :
    DeniesOnlyForRoom s rs ↔ ∀ r ∈ rs.drop s.free, s.free < (newKeys s (rs.take s.free ++ [r])).card := by
  have hout : (updateApprovedList s rs).2 =
      rs.take s.free ++ (rs.drop s.free).map NotifyRecord.denied := by
    rw [updateApprovedList_eq h, if_pos hlt, denyAfter_all_learn rs 0 (fun r hr => (hrs r hr).1)]
    rfl
  have htake : ∀ r ∈ rs.take s.free, r.decision = .approve :=
    fun r hr => (hrs r (List.mem_of_mem_take hr)).2
  -- what is approved before a denied record are the first records
  have happroved : ∀ xs : List NotifyRecord,
      (rs.take s.free ++ xs.map NotifyRecord.denied).filter (fun a => a.decision == .approve) =
        rs.take s.free := by
    intro xs
    rw [List.filter_append, List.filter_eq_self.mpr (fun r hr => by simp [htake r hr]),
      List.filter_eq_nil_iff.mpr, List.append_nil]
    intro r hr
    obtain ⟨r', -, rfl⟩ := List.mem_map.mp hr
    simp [NotifyRecord.denied]
  have hneeds : ∀ r, newKeys s (rs.take s.free ++ [r.denied]) = newKeys s (rs.take s.free ++ [r]) :=
    fun r => newKeys_congr s (by simp [NotifyRecord.denied])
  unfold DeniesOnlyForRoom
  rw [hout]
  constructor
  · intro hall r hr
    obtain ⟨xs, ys, hxy⟩ := List.append_of_mem hr
    have hcut : rs.take s.free ++ (rs.drop s.free).map NotifyRecord.denied =
        (rs.take s.free ++ xs.map NotifyRecord.denied) ++ r.denied :: ys.map NotifyRecord.denied := by
      rw [hxy]
      simp
    have hroom := hall _ _ _ hcut rfl
    rwa [happroved, hneeds] at hroom
  · intro hall as r bs hcut hdeny
    have hsplit : ∃ xs, as = rs.take s.free ++ xs ∧
        (rs.drop s.free).map NotifyRecord.denied = xs ++ r :: bs := by
      obtain ⟨xs, hxs, hd⟩ | ⟨ys, hys, hd⟩ := List.append_eq_append_iff.mp hcut
      · exact ⟨xs, hxs, hd⟩
      · cases ys with
        | nil => exact ⟨[], by simpa using hys.symm, by simpa using hd.symm⟩
        | cons y ys =>
          rw [List.cons_append, List.cons.injEq] at hd
          have happ := htake y (by rw [hys]; simp)
          rw [← hd.1, hdeny] at happ
          cases happ
    obtain ⟨xs, rfl, hd⟩ := hsplit
    obtain ⟨xs', ys', hxy, rfl, hys⟩ := List.map_eq_append_iff.mp hd
    obtain ⟨r', ys', rfl, rfl, -⟩ := List.map_eq_cons_iff.mp hys
    rw [happroved, hneeds]
    exact hall r' (by rw [hxy]; simp)

theorem deniesOnlyForRoom_iff_allNew (h : FdbInv s L)
    (hrs : ∀ r ∈ rs, r.eventType = .learn ∧ r.decision = .approve) :
    DeniesOnlyForRoom s rs ↔ AllNew s rs := by
  by_cases hle : rs.length ≤ s.free
  · refine iff_of_true (fun as r bs hcut hdeny => ?_) (Or.inl hle)
    rw [updateApprovedList_eq h, if_neg (Nat.not_lt.mpr hle)] at hcut
    have hcut : rs = as ++ r :: bs := hcut
    have happ := (hrs r (by rw [hcut]; simp)).2
    rw [hdeny] at happ
    cases happ
  have hlt := Nat.lt_of_not_le hle
  have hone : ∀ r, s.free < (newKeys s (rs.take s.free ++ [r])).card ↔
      ((rs.take s.free ++ [r]).map fun r => r.params.key).Nodup ∧
      ∀ r' ∈ rs.take s.free ++ [r], s.fdbMap.get r'.params.key = none := by
    intro r
    have hcard := newKeys_card_le s (rs.take s.free ++ [r])
    have hlen : (rs.take s.free ++ [r]).length = s.free + 1 := by
      rw [List.length_append, List.length_take, List.length_singleton]
      omega
    rw [← newKeys_card_eq_iff]
    omega
  have hnodup : ∀ r : NotifyRecord, ((rs.take s.free ++ [r]).map fun r => r.params.key).Nodup ↔
      ((rs.take s.free).map fun r => r.params.key).Nodup ∧
      ∀ r' ∈ rs.take s.free, r'.params.key ≠ r.params.key := by
    intro r
    rw [List.map_append, List.nodup_append]
    constructor
    · rintro ⟨hnd, -, hne⟩
      exact ⟨hnd, fun r' hr' => hne _ (List.mem_map.mpr ⟨r', hr', rfl⟩) _ (by simp)⟩
    · rintro ⟨hnd, hne⟩
      refine ⟨hnd, by simp, fun k hk k' hk' => ?_⟩
      obtain ⟨r', hr', rfl⟩ := List.mem_map.mp hk
      rw [List.map_singleton, List.mem_singleton] at hk'
      rw [hk']
      exact hne r' hr'
  have hsplit := List.take_append_drop s.free rs
  obtain ⟨r₀, hr₀⟩ : ∃ r₀, r₀ ∈ rs.drop s.free := by
    refine List.exists_mem_of_ne_nil _ (fun hnil => ?_)
    rw [List.drop_eq_nil_iff] at hnil
    exact hle hnil
  rw [deniesOnlyForRoom_iff_drop h hrs hlt]
  unfold AllNew
  rw [or_iff_right hle]
  constructor
  · intro hall
    have hroom := fun (r : NotifyRecord) (hr : r ∈ rs.drop s.free) => (hone r).mp (hall r hr)
    refine ⟨fun r hr => ?_, ((hnodup r₀).mp (hroom r₀ hr₀).1).1, fun r hr => ((hnodup r).mp (hroom r hr).1).2⟩
    rw [← hsplit] at hr
    rcases List.mem_append.mp hr with hr | hr
    · exact (hroom r₀ hr₀).2 r (by simp [hr])
    · exact (hroom r hr).2 r (by simp)
  · rintro ⟨hnew, hnd, hlater⟩ r hr
    refine (hone r).mpr ⟨(hnodup r).mpr ⟨hnd, hlater r hr⟩, fun r' hr' => ?_⟩
    rcases List.mem_append.mp hr' with hr' | hr'
    · exact hnew r' (List.mem_of_mem_take hr')
    · rw [List.mem_singleton.mp hr']
      exact hnew r (List.mem_of_mem_drop hr)

end Denied

/-- **What is denied would not have fit**, exactly when each record of a list that is too long is for a
new key. -/
theorem denies_only_for_room_iff (ops : List FdbOp) (rs : List NotifyRecord)
    (hrs : ∀ r ∈ rs, r.eventType = .learn ∧ r.decision = .approve) :
    DeniesOnlyForRoom (run Fdb.init ops) rs ↔ AllNew (run Fdb.init ops) rs := by
  obtain ⟨L, h⟩ := FdbInv.run ops emptyDb_init.inv
  exact deniesOnlyForRoom_iff_allNew h hrs

/-! ## A full table -/

/-- **Adds of new keys** take one entry each, and leave their keys stored. -/
theorem addAll_new : ∀ (es : List MacEntry) {s : Fdb} {L : Index}, FdbInv s L →
    (es.map fun e => e.macParams.key).Nodup → (∀ e ∈ es, s.fdbMap.get e.macParams.key = none) →
    es.length ≤ s.free →
    (addAll s es).free + es.length = s.free ∧
    (∀ e ∈ es, (addAll s es).fdbMap.get e.macParams.key ≠ none) ∧
    ∀ k, s.fdbMap.get k ≠ none → (addAll s es).fdbMap.get k ≠ none
  | [], s, L, _, _, _, _ => ⟨rfl, by simp, fun _ h => h⟩
  | e :: es, s, L, h, hnd, hnew, hlen => by
    rw [List.map_cons, List.nodup_cons] at hnd
    rw [List.length_cons] at hlen
    have hk := hnew e (List.mem_cons_self ..)
    obtain ⟨-, -, hfree, i, hget⟩ | ⟨hno, -⟩ := add_takes h e
    · obtain ⟨L', h'⟩ := add_inv h (some e)
      have hnew' : ∀ e' ∈ es, (fdbUcDbAddRecord s (some e)).2.fdbMap.get e'.macParams.key = none := by
        intro e' he'
        rw [hget, if_neg]
        · exact hnew e' (List.mem_cons_of_mem _ he')
        · intro heq
          exact hnd.1 (List.mem_map.mpr ⟨e', he', heq⟩)
      obtain ⟨ihfree, ihkeys, ihold⟩ := addAll_new es h' hnd.2 hnew' (by omega)
      rw [addAll_cons, List.length_cons]
      refine ⟨by omega, fun e' he' => ?_, fun k hstored => ?_⟩
      · rcases List.mem_cons.mp he' with rfl | he'
        · exact ihold _ (by rw [hget, if_pos rfl]; simp)
        · exact ihkeys e' he'
      · refine ihold k ?_
        rw [hget]
        split
        · simp
        · exact hstored
    · rcases hno with hno | hno
      · exact absurd hk hno
      · omega

/-- As many stations on port 5 as there are entries. -/
def stations : List MacEntry := (List.range MAX_FDB_ENTRIES).map fun i => onPort (fillEntry i) 5

def fullTable : List FdbOp := stations.map fun e => .add (some e)

theorem fullTable_full : (run Fdb.init fullTable).free = 0 ∧
    (run Fdb.init fullTable).fdbMap.get (onPort (fillEntry 0) 5).macParams.key ≠ none := by
  have hlen : stations.length = MAX_FDB_ENTRIES := by rw [stations, List.length_map, List.length_range]
  have hfree : Fdb.init.free = MAX_FDB_ENTRIES := by
    rw [Fdb.free, emptyDb_init.mainDbPool, clPoolInit_count]
  have hnd : (stations.map fun e => e.macParams.key).Nodup := by
    rw [stations, List.map_map, List.nodup_map_iff_inj_on List.nodup_range]
    intro i hi j hj heq
    exact fillEntry_key_inj (List.mem_range.mp hi) (List.mem_range.mp hj) heq
  have hnew : ∀ e ∈ stations, Fdb.init.fdbMap.get e.macParams.key = none := by
    intro e _
    rw [emptyDb_init.fdbMap]
    rfl
  obtain ⟨hcount, hkeys, -⟩ := addAll_new stations coherent_init.inv hnd hnew (by omega)
  have hzero : (addAll Fdb.init stations).free = 0 := by omega
  refine ⟨hzero, hkeys _ (List.mem_map.mpr ⟨0, List.mem_range.mpr ?_, rfl⟩)⟩
  decide

/-- A refresh of a stored station and a LEARN of a new one, on a full table. -/
theorem denies_only_for_room_iff_full :
    (run Fdb.init fullTable).free = 0 ∧
    (run Fdb.init fullTable).fdbMap.get (onPort (fillEntry 0) 5).macParams.key ≠ none ∧
    (DeniesOnlyForRoom (run Fdb.init fullTable)
        [⟨.learn, (onPort (fillEntry 0) 5).macParams, .approve, .ageable, none⟩,
          ⟨.learn, (station 7 1 5).macParams, .approve, .ageable, none⟩] ↔
      AllNew (run Fdb.init fullTable)
        [⟨.learn, (onPort (fillEntry 0) 5).macParams, .approve, .ageable, none⟩,
          ⟨.learn, (station 7 1 5).macParams, .approve, .ageable, none⟩]) :=
  ⟨fullTable_full.1, fullTable_full.2, denies_only_for_room_iff fullTable _ (by simp)⟩

/-- **A refresh on a full table** is denied, though it takes no entry. -/
theorem full_table_denies_refresh : ¬ ∀ (ops : List FdbOp) (rs : List NotifyRecord),
    (∀ r ∈ rs, r.eventType = .learn ∧ r.decision = .approve) →
    DeniesOnlyForRoom (run Fdb.init ops) rs := by
  intro hall
  obtain ⟨ops, p, hfree, hstored⟩ : ∃ (ops : List FdbOp) (p : MacParams),
      (run Fdb.init ops).free = 0 ∧ (run Fdb.init ops).fdbMap.get p.key ≠ none := ⟨_, _, fullTable_full⟩
  obtain ⟨L, h⟩ := FdbInv.run ops emptyDb_init.inv
  have hrs : ∀ r ∈ [NotifyRecord.mk .learn p .approve .ageable none],
      r.eventType = .learn ∧ r.decision = .approve := by simp
  rcases (deniesOnlyForRoom_iff_allNew h hrs).mp (hall ops _ hrs) with hle | ⟨hnew, -⟩
  · rw [hfree] at hle
    simp at hle
  · have hnone := hnew (.mk .learn p .approve .ageable none) (List.mem_singleton.mpr rfl)
    exact hstored hnone

end MlnxLib.CtrlLearn
