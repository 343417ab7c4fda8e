import MlnxLib.CtrlLearn.SetCall

/-!
# One call or many

The set call decides what to skip on the FDB as it is before the whole batch.  The calls of the entries one by
one decide it on the FDB that the entries before have left.

* `written` — the entries that the call of the batch writes: those that change the FDB as it is before, up to
  the first whose write fails.
* `LastWins` — the last entry of a key says what the key says in the end.

Principal results: `writeRun_eq` — the writes of the batch are a fold; `setEach_spec` — the single calls are
another; `batch_iff_singles` — both leave the same records exactly when the last entries win.
-/

set_option autoImplicit false

namespace MlnxLib.CtrlLearn

open PinMap

/-! ## Up to the first failure -/

/-- The list up to its first element with `p`, and that one. -/
def through {α : Type} (p : α → Bool) : List α → List α
  | [] => []
  | a :: l => if p a then [a] else a :: through p l

theorem through_subset {α : Type} (p : α → Bool) (l : List α) : through p l ⊆ l := by
  induction l with
  | nil => exact List.Subset.refl _
  | cons a l ih =>
    rw [through]
    split
    · exact List.cons_subset_cons a (List.nil_subset l)
    · exact List.cons_subset_cons a ih

section Fold

variable {ev : RecordEvent} {M : Map Nat View}

/-- **A write that goes through** changes nothing for which writes are stuck. -/
theorem stuck_writeCell {r : NotifyRecord} (h : stuck ev M r = false) (r' : NotifyRecord) :
    stuck ev (writeCell ev M r) r' = stuck ev M r' := by
  by_cases hk : r.params.key = r'.params.key
  swap
  · exact stuck_congr (writeCell_other hk)
  unfold stuck at h ⊢
  rw [← hk]
  cases ev with
  | learn =>
    rw [writeCell, put_apply, if_pos rfl]
    generalize M r.params.key = c at h ⊢
    obtain _ | ⟨v, _ | _⟩ := c
    · rfl
    · have hport : v.1 = r.params.logPort := by simpa using h
      simp only [Cell.put, hport]
      rfl
    · rfl
  | age =>
    rw [writeCell, drop_apply, if_pos rfl]
    generalize M r.params.key = c at h ⊢
    obtain _ | ⟨v, _ | _⟩ := c
    · rfl
    · cases h
    · rfl

/-- **The writes of a batch** are those up to the first that is stuck. -/
theorem writeRun_eq (rs : List NotifyRecord) :
    writeRun ev M rs = (through (stuck ev M) rs).foldl (writeCell ev) M := by
  induction rs generalizing M with
  | nil => rfl
  | cons r rs ih =>
    rw [writeRun, through]
    cases hr : stuck ev M r with
    | true => rfl
    | false =>
      have hsame : stuck ev (writeCell ev M r) = stuck ev M := funext (stuck_writeCell hr)
      simp only [Bool.false_eq_true, if_false, List.foldl_cons]
      rw [ih, hsame]

/-- The view that the last record of a key stores. -/
def lastStored (k : Nat) (rs : List NotifyRecord) : Option View :=
  (rs.filter fun r => r.params.key == k).getLast?.map NotifyRecord.stored

theorem lastStored_concat (k : Nat) (rs : List NotifyRecord) (r : NotifyRecord) :
    lastStored k (rs ++ [r]) = if r.params.key = k then some r.stored else lastStored k rs := by
  unfold lastStored
  rw [List.filter_append]
  by_cases hk : r.params.key = k
  · simp [hk]
  · simp [hk]

theorem lastStored_eq_none_iff {k : Nat} {rs : List NotifyRecord} :
    lastStored k rs = none ↔ ∀ r ∈ rs, r.params.key ≠ k := by
  unfold lastStored
  simp

theorem put_value_at (M : Map Nat View) (r : NotifyRecord) (k : Nat) :
    (writeCell .learn M r k).value = if r.params.key = k then some r.stored else (M k).value := by
  by_cases hk : r.params.key = k
  · rw [if_pos hk, ← hk, put_value]
  · rw [if_neg hk, writeCell_other hk]

/-- After puts, a key says what its last record stores. -/
theorem puts_value (rs : List NotifyRecord) (M : Map Nat View) (k : Nat) :
    (rs.foldl (writeCell .learn) M k).value = (lastStored k rs).or (M k).value := by
  induction rs using List.reverseRecOn with
  | nil => rfl
  | append_singleton rs r ih =>
    rw [List.foldl_concat, put_value_at, lastStored_concat]
    split
    · rfl
    · exact ih

/-- After drops, the keys that were dropped say nothing, unless they are pinned. -/
theorem drops_cell (rs : List NotifyRecord) (M : Map Nat View) (k : Nat) :
    rs.foldl (writeCell .age) M k = if ∃ r ∈ rs, r.params.key = k then (M k).drop else M k := by
  induction rs generalizing M with
  | nil => simp
  | cons r rs ih =>
    rw [List.foldl_cons, ih, writeCell, drop_apply]
    by_cases hk : r.params.key = k
    · have hex : ∃ x ∈ r :: rs, x.params.key = k := ⟨r, List.mem_cons_self .., hk⟩
      rw [if_pos hex, if_pos hk, Cell.drop_drop, ite_self]
    · simp [hk]

end Fold

/-! ## The batch -/

section Batch

variable {ev : RecordEvent} {M : Map Nat View}

/-- The entry is not skipped. -/
def changes (ev : RecordEvent) (M : Map Nat View) (m : MacEntry) : Bool :=
  !skipped ev (M m.macParams.key).value m

/-- The entries that the call of a batch writes, as records. -/
def written (ev : RecordEvent) (M : Map Nat View) (ms : List MacEntry) : List NotifyRecord :=
  through (stuck ev M) ((ms.filter (changes ev M)).map (recordOf ev))

theorem mem_written {ms : List MacEntry} {r : NotifyRecord} (hr : r ∈ written ev M ms) :
    ∃ m ∈ ms, changes ev M m = true ∧ recordOf ev m = r := by
  obtain ⟨m, hm, he⟩ := List.mem_map.mp (through_subset _ _ hr)
  exact ⟨m, List.mem_of_mem_filter hm, List.of_mem_filter hm, he⟩

/-- The entries one by one, as their calls write them. -/
def writeEach (ev : RecordEvent) (M : Map Nat View) (ms : List MacEntry) : Map Nat View :=
  ms.foldl (fun M m => if changes ev M m then writeCell ev M (recordOf ev m) else M) M

/-- What is stored is written again as it is. -/
theorem stored_of_stored {m : MacEntry} {r : NotifyRecord} (h : recordView m = r.stored) :
    (recordOf .learn m).stored = r.stored := by
  unfold NotifyRecord.stored recordView setEntry recordOf at *
  simp only [Prod.mk.injEq] at h ⊢
  obtain ⟨hport, htype, hentry⟩ := h
  grind

theorem changes_learn_iff {m : MacEntry} :
    changes .learn M m = true ↔ (M m.macParams.key).value ≠ some (recordView m) := by
  simp [changes, skipped]

theorem changes_age_iff {m : MacEntry} : changes .age M m = true ↔ M m.macParams.key ≠ none := by
  simp [changes, skipped, Cell.value, Option.isSome_iff_ne_none]

theorem writeEach_concat (M : Map Nat View) (ms : List MacEntry) (m : MacEntry) :
    writeEach ev M (ms ++ [m]) = if changes ev (writeEach ev M ms) m then
      writeCell ev (writeEach ev M ms) (recordOf ev m) else writeEach ev M ms :=
  List.foldl_concat ..

/-- **The single calls of an ADD**: the last entry of a key wins, if one of its entries changes something. -/
theorem writeEach_learn (M : Map Nat View) (ms : List MacEntry) (k : Nat) :
    (writeEach .learn M ms k).value =
      if ∃ m ∈ ms, m.macParams.key = k ∧ changes .learn M m = true then
        lastStored k (ms.map (recordOf .learn)) else (M k).value := by
  induction ms using List.reverseRecOn with
  | nil => simp [writeEach]
  | append_singleton ms m ih =>
    have hkey : (recordOf .learn m).params.key = m.macParams.key := rfl
    rw [writeEach_concat, List.map_append, List.map_singleton, lastStored_concat, hkey]
    by_cases hk : m.macParams.key = k
    swap
    · have hex : (∃ x ∈ ms ++ [m], x.macParams.key = k ∧ changes .learn M x = true) ↔
          ∃ x ∈ ms, x.macParams.key = k ∧ changes .learn M x = true := by
        simp [hk]
      have hother : writeCell .learn (writeEach .learn M ms) (recordOf .learn m) k = writeEach .learn M ms k :=
        writeCell_other hk
      simp only [hex, if_neg hk]
      split
      · rw [hother, ih]
      · exact ih
    rw [if_pos hk]
    by_cases hm : changes .learn (writeEach .learn M ms) m = true
    · -- it is written
      have hput : (writeCell .learn (writeEach .learn M ms) (recordOf .learn m) k).value =
          some (recordOf .learn m).stored := by
        rw [← hk]
        exact put_value _ (recordOf .learn m)
      rw [if_pos hm, hput]
      split
      · rfl
      · rename_i hno
        have hold : ¬ ∃ x ∈ ms, x.macParams.key = k ∧ changes .learn M x = true :=
          fun ⟨x, hx, hchg⟩ => hno ⟨x, List.mem_append_left _ hx, hchg⟩
        rw [if_neg hold] at ih
        rw [changes_learn_iff, hk, ih, ← hk, ← changes_learn_iff] at hm
        exact absurd ⟨m, by simp, hk, hm⟩ hno
    · -- it is skipped: the key already says what it says
      rw [if_neg hm]
      rw [changes_learn_iff, ne_eq, not_not, hk] at hm
      split
      · rename_i hex
        by_cases hold : ∃ x ∈ ms, x.macParams.key = k ∧ changes .learn M x = true
        · rw [if_pos hold, hm] at ih
          obtain ⟨r, -, hr⟩ := Option.map_eq_some_iff.mp ih.symm
          rw [hm, stored_of_stored hr.symm, hr]
        · rw [if_neg hold, hm] at ih
          obtain ⟨x, hx, hxk, hchg⟩ := hex
          rcases List.mem_append.mp hx with hx | hx
          · exact absurd ⟨x, hx, hxk, hchg⟩ hold
          · rw [List.mem_singleton.mp hx, changes_learn_iff, hk] at hchg
            exact absurd ih.symm hchg
      · rename_i hno
        rw [ih, if_neg]
        exact fun ⟨x, hx, hchg⟩ => hno ⟨x, List.mem_append_left _ hx, hchg⟩

/-- **The single calls of a DELETE** are drops. -/
theorem writeEach_age (M : Map Nat View) (ms : List MacEntry) :
    writeEach .age M ms = (ms.map (recordOf .age)).foldl (writeCell .age) M := by
  induction ms generalizing M with
  | nil => rfl
  | cons m ms ih =>
    have hhead : (if changes .age M m then writeCell .age M (recordOf .age m) else M) =
        writeCell .age M (recordOf .age m) := by
      split
      · rfl
      · rename_i hskip
        have hkey : (recordOf .age m).params.key = m.macParams.key := rfl
        rw [changes_age_iff, ne_eq, not_not] at hskip
        have hdrop : (M m.macParams.key).drop = M m.macParams.key := by
          rw [hskip]
          rfl
        rw [writeCell, hkey, Map.drop, hdrop, Function.update_eq_self]
    rw [List.map_cons, List.foldl_cons, ← ih, ← hhead]
    rfl

/-- What the writes of the batch and the single calls agree on: for an ADD, the last entry that is written
says what the last entry says, for every key that has an entry to write; for a DELETE, everything that can
be deleted is written. -/
def LastWins (ev : RecordEvent) (M : Map Nat View) (ms : List MacEntry) : Prop :=
  match ev with
  | .learn => ∀ m ∈ ms, changes .learn M m = true →
      (lastStored m.macParams.key (written .learn M ms)).or (M m.macParams.key).value =
        lastStored m.macParams.key (ms.map (recordOf .learn))
  | .age => ∀ m ∈ ms, M m.macParams.key ≠ none → (M m.macParams.key).pinned = false →
      ∃ r ∈ written .age M ms, r.params.key = m.macParams.key

/-- **One call or many** leave the same values exactly when the last entries win. -/
theorem writes_iff (ev : RecordEvent) (M : Map Nat View) (ms : List MacEntry) :
    (∀ k, ((written ev M ms).foldl (writeCell ev) M k).value = (writeEach ev M ms k).value) ↔
      LastWins ev M ms := by
  unfold LastWins
  cases ev with
  | learn =>
    simp only [puts_value, writeEach_learn]
    constructor
    · intro h m hm hchg
      rw [h, if_pos ⟨m, hm, rfl, hchg⟩]
    · intro h k
      split
      · rename_i hex
        obtain ⟨m, hm, rfl, hchg⟩ := hex
        exact h m hm hchg
      · rename_i hno
        have hnone : lastStored k (written .learn M ms) = none := by
          rw [lastStored_eq_none_iff]
          intro r hr hk
          obtain ⟨m, hm, hchg, rfl⟩ := mem_written hr
          exact hno ⟨m, hm, hk, hchg⟩
        rw [hnone, Option.none_or]
  | age =>
    simp only [drops_cell, writeEach_age]
    constructor
    · intro h m hm hstored hfree
      by_contra hno
      have hex : ∃ r ∈ ms.map (recordOf .age), r.params.key = m.macParams.key :=
        ⟨_, List.mem_map_of_mem hm, rfl⟩
      have hkey := h m.macParams.key
      rw [if_neg hno, if_pos hex, (Cell.drop_value_eq_none_iff _).mpr hfree] at hkey
      exact hstored (by simpa [Cell.value] using hkey)
    · intro h k
      by_cases hw : ∃ r ∈ written .age M ms, r.params.key = k
      · have hex : ∃ r ∈ ms.map (recordOf .age), r.params.key = k := by
          obtain ⟨r, hr, hk⟩ := hw
          obtain ⟨m, hm, -, rfl⟩ := mem_written hr
          exact ⟨_, List.mem_map_of_mem hm, hk⟩
        rw [if_pos hw, if_pos hex]
      · rw [if_neg hw]
        split
        · rename_i hex
          obtain ⟨r, hr, hk⟩ := hex
          obtain ⟨m, hm, rfl⟩ := List.mem_map.mp hr
          have hkey : m.macParams.key = k := hk
          cases hc : M k with
          | none => rfl
          | some c =>
            have hpinned : (M k).pinned = true := by
              rw [← Bool.not_eq_false]
              intro hfree
              rw [← hkey] at hfree hw hc
              exact hw (h m hm (by simp [hc]) hfree)
            rw [← hc, Cell.drop_of_pinned hpinned]
        · rfl

end Batch

/-! ## The calls -/

section Calls

variable {env : Env} {lib : Lib} {L : Index} {ev : RecordEvent} {ms : List MacEntry}

/-- The set call on every entry by itself. -/
def setEach (env : Env) (ev : RecordEvent) : Lib → List MacEntry → Option Lib
  | lib, [] => some lib
  | lib, m :: ms =>
    (ctrlLearnApiFdbUcMacAddrSet env lib ev.cmd (some [m])).bind fun res => setEach env ev res.lib ms

instance (env : Env) (lib : Lib) (ev : RecordEvent) (ms : List MacEntry) :
    Decidable (PoolsSuffice env lib ev ms) :=
  inferInstanceAs (Decidable (_ → _))

/-- The adds of these calls find their pool entries. -/
def eachSuffices (env : Env) (ev : RecordEvent) : Lib → List MacEntry → Bool
  | _, [] => true
  | lib, m :: ms => decide (PoolsSuffice env lib ev [m]) &&
    match ctrlLearnApiFdbUcMacAddrSet env lib ev.cmd (some [m]) with
    | none => true
    | some res => eachSuffices env ev res.lib ms

/-- **The call of a batch** with nobody to deny or refuse. -/
theorem Env.Quiet.setCall (hq : env.Quiet) (hstart : lib.isCtrlLearnStart = true) (h : FdbInv lib.fdb L)
    (hms : SetBatch ms) (hroom : ev = .learn → ms.length ≤ lib.fdb.free) (hfind : PoolsSuffice env lib ev ms) :
    ∃ res, ctrlLearnApiFdbUcMacAddrSet env lib ev.cmd (some ms) = some res ∧
      Wrote ev lib res.lib ((written ev lib.fdb.cells ms).foldl (writeCell ev) lib.fdb.cells) ms.length := by
  have hrefused : (setHal env lib.fdb ev ms).2 = [] := by
    unfold setHal refused
    simp only [hq.hal, ne_eq, not_true_eq_false, if_false, ite_self]
  obtain ⟨err, lib', hcall, hwrote, -⟩ := setCall_wrote hq.initDeinitCb hstart h ev hms
    (fun r _ => by rw [hrefused]; rfl) hfind
  refine ⟨_, hcall, ?_⟩
  have hbare := hq.setTaken h ev ms hroom
  have hview : (fun m : MacEntry => !skipped ev (lib.fdb.view m.macParams.key) m) =
      changes ev lib.fdb.cells := by
    funext m
    rw [changes, view_eq]
  rw [hview] at hbare
  rwa [← writeRun_bare, hbare, writeRun_eq] at hwrote

theorem written_single (M : Map Nat View) (m : MacEntry) :
    (written ev M [m]).foldl (writeCell ev) M = if changes ev M m then writeCell ev M (recordOf ev m) else M := by
  unfold written
  cases hm : changes ev M m with
  | true => simp [hm, through]
  | false => simp [hm, through]

/-- The entries as the set call takes them. -/
def MacEntry.Settable (m : MacEntry) : Prop :=
  m.macParams.macAddr.isGroup = false ∧ m.macParams.vid.toNat < MAX_VLAN_ENTRIES

instance (m : MacEntry) : Decidable m.Settable :=
  inferInstanceAs (Decidable (_ ∧ _))

/-- **The single calls** write the entries one by one. -/
theorem setEach_spec (hq : env.Quiet) (hstart : lib.isCtrlLearnStart = true) (h : FdbInv lib.fdb L)
    (hms : ∀ m ∈ ms, m.Settable) (hroom : ev = .learn → ms.length ≤ lib.fdb.free)
    (hfind : eachSuffices env ev lib ms = true) :
    ∃ lib', setEach env ev lib ms = some lib' ∧ lib'.fdb.cells = writeEach ev lib.fdb.cells ms := by
  induction ms generalizing lib L with
  | nil => exact ⟨lib, rfl, rfl⟩
  | cons m ms ih =>
    obtain ⟨hm, hms⟩ := List.forall_mem_cons.mp hms
    rw [eachSuffices, Bool.and_eq_true, decide_eq_true_eq] at hfind
    have hbatch : SetBatch [m] :=
      ⟨by simp, by simp [MAX_EVENT_INFO_SIZE], by simpa using hm.1, by simpa using hm.2⟩
    have hone : ev = .learn → [m].length ≤ lib.fdb.free := by
      intro hev
      have hall := hroom hev
      rw [List.length_cons] at hall
      simp only [List.length_singleton]
      omega
    obtain ⟨res, hcall, ⟨L', h'⟩, hstart', hcells, hfree⟩ := hq.setCall hstart h hbatch hone hfind.1
    have hrest := hfind.2
    rw [hcall] at hrest
    have hleft : ev = .learn → ms.length ≤ res.lib.fdb.free := by
      intro hev
      have hall := hroom hev
      have hused := hfree hev
      rw [List.length_cons] at hall
      rw [List.length_singleton] at hused
      omega
    obtain ⟨lib', heach, hlast⟩ := ih (hstart'.trans hstart) h' hms hleft hrest
    refine ⟨lib', by rw [setEach, hcall]; exact heach, ?_⟩
    rw [hlast, hcells, written_single]
    rfl

end Calls

/-- The call of the batch and the calls of its entries, one by one, return, and leave the same records. -/
def BatchEqualsSingles (env : Env) (lib : Lib) (ev : RecordEvent) (ms : List MacEntry) : Prop :=
  ∃ res lib', ctrlLearnApiFdbUcMacAddrSet env lib ev.cmd (some ms) = some res ∧
    setEach env ev lib ms = some lib' ∧ ∀ k, res.lib.fdb.view k = lib'.fdb.view k

/-- **One call or many** leave the same records exactly when the last entries win. -/
theorem batch_iff_singles (env : Env) (hq : env.Quiet) (ops : List FdbOp) (lib : Lib)
    (hlib : lib.fdb = run Fdb.init ops) (hstart : lib.isCtrlLearnStart = true) (ev : RecordEvent)
    (ms : List MacEntry) (hlen : ms.length ≤ MAX_EVENT_INFO_SIZE) (hms : ∀ m ∈ ms, m.Settable)
    (hroom : ms.length ≤ lib.fdb.free) (hfind : PoolsSuffice env lib ev ms)
    (heach : eachSuffices env ev lib ms = true) :
    BatchEqualsSingles env lib ev ms ↔ LastWins ev lib.fdb.cells ms := by
  obtain ⟨L, h⟩ := FdbInv.run ops emptyDb_init.inv
  rw [← hlib] at h
  obtain ⟨lib', hsingles, hcells⟩ := setEach_spec hq hstart h hms (fun _ => hroom) heach
  have hbatch : ∃ res, ctrlLearnApiFdbUcMacAddrSet env lib ev.cmd (some ms) = some res ∧
      res.lib.fdb.cells = (written ev lib.fdb.cells ms).foldl (writeCell ev) lib.fdb.cells := by
    by_cases hnil : ms = []
    · subst hnil
      refine ⟨⟨-EINVAL, lib, []⟩, ?_, rfl⟩
      simp [ctrlLearnApiFdbUcMacAddrSet, hstart]
    · obtain ⟨res, hcall, hwrote⟩ := hq.setCall hstart h
        ⟨hnil, hlen, fun m hm => (hms m hm).1, fun m hm => (hms m hm).2⟩ (fun _ => hroom) hfind
      exact ⟨res, hcall, hwrote.cells⟩
  obtain ⟨res, hcall, hres⟩ := hbatch
  rw [← writes_iff]
  unfold BatchEqualsSingles
  constructor
  · rintro ⟨res', lib'', hres', hlib', hview⟩ k
    rw [hcall, Option.some_inj] at hres'
    rw [hsingles, Option.some_inj] at hlib'
    subst hres' hlib'
    have hk := hview k
    rwa [view_eq, view_eq, hres, hcells] at hk
  · intro hview
    refine ⟨res, lib', hcall, hsingles, fun k => ?_⟩
    rw [view_eq, view_eq, hres, hcells]
    exact hview k

/-- An entry on a port. -/
def portEntry (port : UInt64) : MacEntry := ⟨⟨7, ⟨0, 0, 0, 0, 0, 1⟩, port, .dynamic⟩, none, .ageable⟩

/-- One entry on two ports. -/
theorem batch_iff_singles_two :
    BatchEqualsSingles silentEnv ⟨Fdb.init, true, []⟩ .learn [portEntry 1, portEntry 2] ↔
      LastWins .learn Fdb.init.cells [portEntry 1, portEntry 2] :=
  batch_iff_singles silentEnv silentEnv_quiet [] _ rfl rfl .learn _ (by decide) (by decide) (by decide)
    (fun _ => by decide) (by decide)

/-- **A record that is moved away and back** ends on the other port if both moves are in one call. -/
theorem moved_back_stays_away : ¬ ∀ (env : Env), env.Quiet → ∀ (ops : List FdbOp), (∀ op ∈ ops, op.InRange) →
    ∀ (lib : Lib), lib.fdb = run Fdb.init ops → lib.isCtrlLearnStart = true → ∀ (ev : RecordEvent)
    (ms : List MacEntry), ms.length ≤ MAX_EVENT_INFO_SIZE → (∀ m ∈ ms, m.Settable) →
    (∀ m ∈ ms, m.macParams.logPort.toNat < 2 ^ 32) → ms.length ≤ lib.fdb.free → PoolsSuffice env lib ev ms →
    eachSuffices env ev lib ms = true → BatchEqualsSingles env lib ev ms := by
  intro hall
  have hrange : ∀ op ∈ [FdbOp.add (some (portEntry 1))], op.InRange := by
    intro op hop
    rw [List.mem_singleton.mp hop]
    exact ⟨by decide, by decide⟩
  obtain ⟨res, lib', hres, hlib, hview⟩ := hall silentEnv silentEnv_quiet [.add (some (portEntry 1))] hrange
    ⟨run Fdb.init [.add (some (portEntry 1))], true, []⟩ rfl rfl .learn [portEntry 2, portEntry 1] (by decide)
    (by decide) (by decide) (by decide) (fun _ => by decide) (by decide)
  have hbatch : (ctrlLearnApiFdbUcMacAddrSet silentEnv ⟨run Fdb.init [.add (some (portEntry 1))], true, []⟩ .add
      (some [portEntry 2, portEntry 1])).map (fun r => r.lib.fdb.view (portEntry 1).macParams.key) =
      some (some (2, .dynamic, .ageable)) := by decide
  have hsingles : (setEach silentEnv .learn ⟨run Fdb.init [.add (some (portEntry 1))], true, []⟩
      [portEntry 2, portEntry 1]).map (fun l => l.fdb.view (portEntry 1).macParams.key) =
      some (some (1, .dynamic, .ageable)) := by decide
  have hcmd : RecordEvent.learn.cmd = AccessCmd.add := rfl
  rw [← hcmd, hres, Option.map_some, hview] at hbatch
  rw [hlib, Option.map_some, hbatch] at hsingles
  revert hsingles
  decide

end MlnxLib.CtrlLearn
