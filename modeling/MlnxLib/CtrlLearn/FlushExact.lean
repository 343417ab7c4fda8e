import MlnxLib.CtrlLearn.Batch
import MlnxLib.CtrlLearn.Get

/-!
# What a flush leaves

In a coherent state a flush takes out the records that match and are not static, each with its three items and
one `COOKIE_OP_DEINIT`.  Everything else stays as it was, and where it was.

* `Removed gone` — the records `gone` are taken out, and nothing else changes.
* `FlushExact gone` — the same for the records that `gone` says yes to, read off the heap.

Principal results: `flushList_removed` — the loop; `flush_exact` — the two flushes.
-/

set_option autoImplicit false

namespace MlnxLib.CtrlLearn

/-! ## Records taken out -/

/-- The item stays when the records `gone` are taken out. -/
def keepNode (gone : List Nat) : Node → Bool
  | .entry _ i => decide (i ∉ gone)
  | _ => true

/-- The calls of the callback for the records `gone`. -/
def deinits (env : Env) (s : Fdb) (gone : List Nat) : List CookieCall :=
  match env.initDeinitCb with
  | none => []
  | some _ => gone.map fun i => .deinit (s.records i).cookie

/-- The records `gone` are taken out, one after the other, and nothing else changes. -/
structure Removed (env : Env) (gone : List Nat) (lib lib' : Lib) (L L' : Index) : Prop where
  inv : FdbInv lib'.fdb L'
  lists : ∀ l, L' l = (L l).filter (keepNode gone)
  map : ∀ k, lib'.fdb.fdbMap.get k = (lib.fdb.fdbMap.get k).filter fun i => decide (i ∉ gone)
  values : lib'.fdb.fdbMap.values = lib.fdb.fdbMap.values.filter fun i => decide (i ∉ gone)
  records : ∀ j, j ∉ gone → lib'.fdb.records j = lib.fdb.records j
  heads : HeadsKept lib.fdb lib'.fdb L'
  log : lib'.cookieLog = lib.cookieLog ++ deinits env lib.fdb gone

section Removal

variable {env : Env} {lib lib' lib'' : Lib} {L L' L'' : Index}

theorem not_mem_append (gone gone' : List Nat) (i : Nat) :
    decide (i ∉ gone ++ gone') = (decide (i ∉ gone) && decide (i ∉ gone')) := by
  simp

theorem keepNode_append (gone gone' : List Nat) (n : Node) :
    keepNode (gone ++ gone') n = (keepNode gone n && keepNode gone' n) := by
  cases n with
  | entry f i => exact not_mem_append gone gone' i
  | _ => rfl

theorem Removed.refl (h : FdbInv lib.fdb L) : Removed env [] lib lib L L := by
  have hkeep : ∀ l, (L l).filter (keepNode []) = L l := by
    intro l
    refine List.filter_eq_self.mpr (fun n _ => ?_)
    cases n <;> rfl
  refine ⟨h, fun l => (hkeep l).symm, fun k => ?_, by simp, fun _ _ => rfl, fun _ _ => rfl, ?_⟩
  · cases lib.fdb.fdbMap.get k <;> rfl
  · unfold deinits
    cases env.initDeinitCb <;> simp

theorem Removed.trans {gone gone' : List Nat} (h : Removed env gone lib lib' L L')
    (h' : Removed env gone' lib' lib'' L' L'') (hdisj : ∀ i ∈ gone', i ∉ gone) :
    Removed env (gone ++ gone') lib lib'' L L'' := by
  refine ⟨h'.inv, fun l => ?_, fun k => ?_, ?_, fun j hj => ?_, fun k hk => ?_, ?_⟩
  · rw [h'.lists, h.lists, List.filter_filter]
    refine List.filter_congr (fun n _ => ?_)
    rw [keepNode_append, Bool.and_comm]
  · rw [h'.map, h.map, Option.filter_filter]
    congr 1
    funext i
    rw [not_mem_append]
  · rw [h'.values, h.values, List.filter_filter]
    refine List.filter_congr (fun i _ => ?_)
    rw [not_mem_append, Bool.and_comm]
  · rw [List.mem_append, not_or] at hj
    rw [h'.records j hj.2, h.records j hj.1]
  · rw [h'.heads k hk]
    refine h.heads k (fun hnil => hk ?_)
    rw [h'.lists, hnil]
    rfl
  · rw [h'.log, h.log, List.append_assoc]
    congr 1
    unfold deinits
    cases env.initDeinitCb with
    | none => rfl
    | some cb =>
      dsimp only
      rw [List.map_append]
      congr 1
      refine List.map_congr_left (fun i hi => ?_)
      rw [h.records i (hdisj i hi)]

/-- **One record taken out.** -/
theorem deleteRecord_removed (env : Env) (h : FdbInv lib.fdb L) {i : Nat} (hi : i ∈ lib.fdb.fdbMap.values)
    (hrem : L.Removable i) : ∃ L', Removed env [i] lib (deleteRecord env lib i).2 L L' := by
  obtain ⟨htaken, hmap⟩ := deinitCookie_spec env h hi
  obtain ⟨L', hinv, hthin, hheads, -, hrec, ⟨-, -, hdel⟩ | ⟨-, hno, -⟩⟩ := delete_spec htaken.inv i
  swap
  · exact absurd hrem hno
  have hvalues : (deleteRecord env lib i).2.fdb.fdbMap.values =
      lib.fdb.fdbMap.values.filter fun j => decide (j ≠ i) := by
    show (fdbUcDbDeleteRecord _ _).2.fdbMap.values = _
    rw [hdel, OrdMap.values_removeItem, hmap]
  refine ⟨L', hinv, fun l => ?_, fun k => ?_, ?_, fun j hj => ?_, ?_, ?_⟩
  · obtain ⟨keep, hkeep, hl⟩ := hthin l
    rw [hl]
    refine List.filter_congr (fun n hn => ?_)
    cases hk : keep n with
    | false =>
      obtain ⟨f, rfl⟩ := hkeep n hk
      simp [keepNode]
    | true =>
      -- what is kept is of a stored record
      have hn' : n ∈ L' l := by
        rw [hl]
        exact List.mem_filter.mpr ⟨hn, hk⟩
      cases n with
      | entry f j =>
        have hj : j ∈ (deleteRecord env lib i).2.fdb.fdbMap.values := hinv.owned hn'
        rw [hvalues, List.mem_filter, decide_eq_true_eq] at hj
        simp [keepNode, hj.2]
      | _ => rfl
  · show (fdbUcDbDeleteRecord _ _).2.fdbMap.get k = _
    rw [hdel, OrdMap.get_removeItem, hmap]
    cases hk : lib.fdb.fdbMap.get k with
    | none => rfl
    | some j =>
      by_cases hj : j = i
      · subst hj
        simp [Option.filter]
      · simp [hj, Option.filter]
  · rw [hvalues]
    refine List.filter_congr (fun j _ => ?_)
    simp
  · rw [List.mem_singleton] at hj
    show (fdbUcDbDeleteRecord _ _).2.records j = _
    rw [hrec, htaken.others j hj]
  · exact htaken.heads.trans hheads hthin
  · unfold deleteRecord deinitCookie deinits
    cases env.initDeinitCb <;> simp

/-- A static record stays, any other is taken out. -/
theorem flushRecord_removed (env : Env) (h : FdbInv lib.fdb L) {i : Nat} (hi : i ∈ lib.fdb.fdbMap.values)
    (hrem : L.Removable i) :
    ∃ L', Removed env ([i].filter fun i => nonStatic (lib.fdb.records i)) lib
      (flushRecord env lib 0 i).2 L L' := by
  unfold flushRecord
  by_cases htype : (lib.fdb.records i).type = .static
  · rw [if_neg (not_not.mpr htype), List.filter_cons_of_neg (by simp [nonStatic, htype])]
    exact ⟨L, Removed.refl h⟩
  · rw [if_pos htype, List.filter_cons_of_pos (by simp [nonStatic, htype])]
    exact deleteRecord_removed env h hi hrem

theorem Removed.allLinked {gone : List Nat} (h : Removed env gone lib lib' L L') (hall : AllLinked lib.fdb L) :
    AllLinked lib'.fdb L' := by
  refine ⟨h.inv, fun i hi f => ?_⟩
  rw [h.values, List.mem_filter] at hi
  obtain ⟨l, hl⟩ := hall.linked i hi.1 f
  refine ⟨l, ?_⟩
  rw [h.lists, List.mem_filter]
  exact ⟨hl, hi.2⟩

/-- **The records of a list** are taken out, if they are not static. -/
theorem flushList_removed (env : Env) (hall : AllLinked lib.fdb L) (xs : List Nat) (hnd : xs.Nodup)
    (hmem : ∀ x ∈ xs, x ∈ lib.fdb.fdbMap.values) :
    ∃ L', Removed env (xs.filter fun i => nonStatic (lib.fdb.records i)) lib (flushList env lib xs) L L' := by
  induction xs generalizing lib L with
  | nil => exact ⟨L, Removed.refl hall.inv⟩
  | cons x xs ih =>
    obtain ⟨hx, hxs⟩ := List.forall_mem_cons.mp hmem
    rw [List.nodup_cons] at hnd
    obtain ⟨L₁, hone⟩ := flushRecord_removed env hall.inv hx ⟨hall.linked x hx .port, hall.linked x hx .vidPort⟩
    have hgone : ∀ y ∈ xs, y ∉ [x].filter fun i => nonStatic (lib.fdb.records i) := by
      intro y hy hmem
      have heq := List.mem_singleton.mp (List.mem_of_mem_filter hmem)
      exact hnd.1 (heq ▸ hy)
    obtain ⟨L₂, hrest⟩ := ih (hone.allLinked hall) hnd.2 (fun y hy => by
      rw [hone.values, List.mem_filter]
      exact ⟨hxs y hy, decide_eq_true (hgone y hy)⟩)
    have hsame : xs.filter (fun i => nonStatic ((flushRecord env lib 0 x).2.fdb.records i)) =
        xs.filter fun i => nonStatic (lib.fdb.records i) := by
      refine List.filter_congr (fun y hy => ?_)
      rw [hone.records y (hgone y hy)]
    rw [hsame] at hrest
    refine ⟨L₂, ?_⟩
    have hsplit : (x :: xs).filter (fun i => nonStatic (lib.fdb.records i)) =
        [x].filter (fun i => nonStatic (lib.fdb.records i)) ++
          xs.filter fun i => nonStatic (lib.fdb.records i) := by
      rw [← List.filter_append, List.singleton_append]
    rw [hsplit]
    exact hone.trans hrest (fun y hy => hgone y (List.mem_of_mem_filter hy))

end Removal

/-! ## What is left -/

/-- The item stays when the records that `gone` says yes to are taken out. -/
def staysNode (gone : MacEntry → Bool) (s : Fdb) : Node → Bool
  | .entry _ i => !gone (s.records i)
  | _ => true

/-- The records that `gone` says yes to are taken out, and nothing else changes. -/
structure FlushExact (env : Env) (gone : MacEntry → Bool) (lib lib' : Lib) : Prop where
  records : ∀ k, lib'.fdb.fdbMap.get k =
    (lib.fdb.fdbMap.get k).filter fun i => !gone (lib.fdb.records i)
  /-- the records that are left are in the order they were in -/
  order : lib'.fdb.fdbMap.values = lib.fdb.fdbMap.values.filter fun i => !gone (lib.fdb.records i)
  content : ∀ i ∈ lib'.fdb.fdbMap.values, lib'.fdb.records i = lib.fdb.records i
  vlanLists : ∀ v, v < MAX_VLAN_ENTRIES → ∀ xs, Ring.IsRing lib.fdb.links (.vlanEnd v) xs →
    Ring.IsRing lib'.fdb.links (.vlanEnd v) (xs.filter (staysNode gone lib.fdb))
  /-- a filter list keeps its head as long as an item of it stays -/
  fltrLists : ∀ k j xs, lib.fdb.fbdFilterMap.get k = some j → Ring.IsRing lib.fdb.links (.fltrEnd j) xs →
    if xs.filter (staysNode gone lib.fdb) = [] then lib'.fdb.fbdFilterMap.get k = none
    else lib'.fdb.fbdFilterMap.get k = some j ∧
      Ring.IsRing lib'.fdb.links (.fltrEnd j) (xs.filter (staysNode gone lib.fdb))
  noLists : ∀ k, lib.fdb.fbdFilterMap.get k = none → lib'.fdb.fbdFilterMap.get k = none
  coherent : IndexCoherent lib'.fdb
  /-- one call for each record that is taken out -/
  deinits : ∃ calls, lib'.cookieLog = lib.cookieLog ++ calls ∧
    calls.Perm (deinits env lib.fdb (lib.fdb.fdbMap.values.filter fun i => gone (lib.fdb.records i)))

section Exact

variable {env : Env} {lib lib' : Lib} {L L' : Index} {out : List Nat}

theorem Removed.mem_iff (h : Removed env out lib lib' L L') {l : Loc} {f : FltrField} {i : Nat} :
    .entry f i ∈ L' l ↔ .entry f i ∈ L l ∧ i ∉ out := by
  rw [h.lists, List.mem_filter]
  simp [keepNode]

theorem Removed.mem_values (h : Removed env out lib lib' L L') {i : Nat} :
    i ∈ lib'.fdb.fdbMap.values ↔ i ∈ lib.fdb.fdbMap.values ∧ i ∉ out := by
  rw [h.values, List.mem_filter, decide_eq_true_eq]

/-- The list of a key that is exact stays exact. -/
theorem Removed.exact_list (h : Removed env out lib lib' L L') {l : Loc} {f : FltrField} {P : MacParams → Bool}
    (hmem : ∀ n, n ∈ L l ↔ ∃ i ∈ lib.fdb.fdbMap.values, n = .entry f i ∧
      P (lib.fdb.records i).macParams = true) (n : Node) :
    n ∈ L' l ↔ ∃ i ∈ lib'.fdb.fdbMap.values, n = .entry f i ∧ P (lib'.fdb.records i).macParams = true := by
  constructor
  · intro hn
    have hn' := hn
    rw [h.lists] at hn'
    obtain ⟨i, hi, rfl, hp⟩ := (hmem n).mp (List.mem_of_mem_filter hn')
    have hout := (h.mem_iff.mp hn).2
    refine ⟨i, h.mem_values.mpr ⟨hi, hout⟩, rfl, ?_⟩
    rw [h.records i hout]
    exact hp
  · rintro ⟨i, hi, rfl, hp⟩
    obtain ⟨hi, hout⟩ := h.mem_values.mp hi
    rw [h.records i hout] at hp
    exact h.mem_iff.mpr ⟨(hmem _).mpr ⟨i, hi, rfl, hp⟩, hout⟩

theorem Removed.linksExact (h : Removed env out lib lib' L L') (hL : LinksExact lib.fdb L) :
    LinksExact lib'.fdb L' :=
  ⟨h.allLinked hL.toAllLinked,
    fun {p} hp => h.exact_list (P := fun q => q.logPort == p) (hL.port hp),
    fun {p} hp v => h.exact_list (P := fun q => q.logPort == p && q.vid == v) (hL.portVid hp v)⟩

/-- **What is left**, read off the heap. -/
theorem Removed.flushExact {gone : MacEntry → Bool} (h : Removed env out lib lib' L L')
    (hL : LinksExact lib.fdb L) (hnd : out.Nodup)
    (hout : ∀ i, i ∈ out ↔ i ∈ lib.fdb.fdbMap.values ∧ gone (lib.fdb.records i) = true) :
    FlushExact env gone lib lib' := by
  have hstays : ∀ i ∈ lib.fdb.fdbMap.values, decide (i ∉ out) = !gone (lib.fdb.records i) := by
    intro i hi
    have hiff : i ∈ out ↔ gone (lib.fdb.records i) = true := by rw [hout, and_iff_right hi]
    cases hg : gone (lib.fdb.records i) with
    | true => exact decide_eq_false (not_not.mpr (hiff.mpr hg))
    | false => exact decide_eq_true (fun hmem => by simp [hiff.mp hmem] at hg)
  have hlist : ∀ l, L' l = (L l).filter (staysNode gone lib.fdb) := by
    intro l
    rw [h.lists]
    refine List.filter_congr (fun n hn => ?_)
    cases n with
    | entry f i => exact hstays i (hL.inv.owned hn)
    | _ => rfl
  have hfam := hL.inv.index.family
  have hfam' := h.inv.index.family
  refine ⟨fun k => ?_, ?_, fun i hi => h.records i (h.mem_values.mp hi).2, fun v hv xs hxs => ?_,
    fun k j xs hk hxs => ?_, fun k hk => ?_, (h.linksExact hL).indexCoherent, ⟨_, h.log, ?_⟩⟩
  · rw [h.map]
    cases hk : lib.fdb.fdbMap.get k with
    | none => rfl
    | some i => simp only [Option.filter, hstays i (OrdMap.get_mem_values hk)]
  · rw [h.values]
    exact List.filter_congr hstays
  · rw [hxs.unique (hfam.ring (l := .vlan v) (by simp [listEnds, hv])), ← hlist]
    exact hfam'.ring (by simp [listEnds, hv])
  · rw [hxs.unique (hfam.ring (l := .key k) (by simp [listEnds, hk])), ← hlist]
    split
    · rename_i hnil
      exact h.inv.index.get_none_iff.mpr hnil
    · rename_i hne
      have hkept := h.heads k hne
      rw [hk] at hkept
      exact ⟨hkept, hfam'.ring (by simp [listEnds, hkept])⟩
  · rw [h.inv.index.get_none_iff, h.lists, hL.inv.index.get_none_iff.mp hk]
    rfl
  · have hperm : out.Perm (lib.fdb.fdbMap.values.filter fun i => gone (lib.fdb.records i)) := by
      rw [List.perm_ext_iff_of_nodup hnd (hL.inv.pool.values_nodup.filter _)]
      intro i
      rw [hout, List.mem_filter]
    unfold deinits
    cases env.initDeinitCb with
    | none => exact List.Perm.refl _
    | some cb => exact hperm.map _

end Exact

/-! ## The two flushes -/

section Flushes

variable (env : Env) {lib : Lib} {L : Index}

/-- The records of a list flushed, which are those that match. -/
theorem flushList_exact (hL : LinksExact lib.fdb L) {xs : List Nat} {P : MacParams → Bool} (hnd : xs.Nodup)
    (hmem : ∀ i, i ∈ xs ↔ i ∈ lib.fdb.fdbMap.values ∧ P (lib.fdb.records i).macParams = true) :
    FlushExact env (fun e => P e.macParams && nonStatic e) lib (flushList env lib xs) := by
  obtain ⟨L', hremoved⟩ := flushList_removed env hL.toAllLinked xs hnd (fun x hx => ((hmem x).mp hx).1)
  refine hremoved.flushExact hL (hnd.filter _) (fun i => ?_)
  rw [List.mem_filter, hmem, Bool.and_eq_true, and_assoc]

theorem flushFilter_exact (hL : LinksExact lib.fdb L) {filter : KeyFilter} (hset : filter.isSet = true)
    (hvid : filter.filterByVid = true → filter.vid.toNat < MAX_VLAN_ENTRIES)
    (hport : filter.filterByLogPort = true → filter.logPort.toNat < 2 ^ 32) :
    ∃ err lib', ctrlLearnFlushDbByFilter env lib filter = some (err, lib') ∧
      FlushExact env (fun e => filter.matches e.macParams && nonStatic e) lib lib' := by
  obtain ⟨fld, hfld, hmem⟩ := hL.mem_loc hset hport
  have hfields : ∀ n ∈ L filter.loc, ∃ i, n = Node.entry fld i := by
    intro n hn
    obtain ⟨i, -, he, -⟩ := (hmem n).mp hn
    exact ⟨i, he⟩
  obtain ⟨xs, hxs⟩ := exists_records hfields
  obtain ⟨hnd, -, err, hrun⟩ := flushFilter_list env hL.inv hfld hvid hxs
  refine ⟨err, _, hrun, flushList_exact env hL hnd (fun i => ?_)⟩
  have hi := hmem (.entry fld i)
  rw [hxs] at hi
  simpa using hi

theorem flushAll_exact (hL : LinksExact lib.fdb L) : ∃ err lib', ctrlLearnHandleFlushAll env lib = some (err, lib') ∧
    FlushExact env nonStatic lib lib' := by
  obtain ⟨err, hrun⟩ := flushAll_list env hL.inv
  refine ⟨err, _, hrun, ?_⟩
  have hexact := flushList_exact env hL (P := fun _ => true) hL.inv.pool.values_nodup (fun i => by simp)
  simpa using hexact

end Flushes

/-- **The flushes**: in every coherent state that is reached they return, and take out exactly the matching
records that are not static, whatever the order of the records in the lists. -/
theorem flush_exact (env : Env) (ops : List FdbOp) (lib : Lib) (hlib : lib.fdb = run Fdb.init ops)
    (hcoh : IndexCoherent lib.fdb) :
    (∀ filter : KeyFilter, filter.isSet = true →
      (filter.filterByVid = true → filter.vid.toNat < MAX_VLAN_ENTRIES) →
      (filter.filterByLogPort = true → filter.logPort.toNat < 2 ^ 32) →
      ∃ err lib', ctrlLearnFlushDbByFilter env lib filter = some (err, lib') ∧
        FlushExact env (fun e => filter.matches e.macParams && nonStatic e) lib lib') ∧
    ∃ err lib', ctrlLearnHandleFlushAll env lib = some (err, lib') ∧ FlushExact env nonStatic lib lib' := by
  obtain ⟨L, h⟩ := FdbInv.run ops emptyDb_init.inv
  rw [← hlib] at h
  have hL := hcoh.linksExact h
  exact ⟨fun filter hset hvid hport => flushFilter_exact env hL hset hvid hport, flushAll_exact env hL⟩

/-- A static record and one that is not, of the same VLAN. -/
def twoRecords : List FdbOp :=
  [.add (some ⟨⟨7, ⟨0, 0, 0, 0, 0, 1⟩, 5, .dynamic⟩, none, .ageable⟩),
    .add (some ⟨⟨7, ⟨0, 0, 0, 0, 0, 2⟩, 5, .static⟩, none, .static⟩)]

theorem flush_exact_vid : ∃ err lib',
    ctrlLearnFlushDbByFilter silentEnv ⟨run Fdb.init twoRecords, true, []⟩ (vidFilter 7) = some (err, lib') ∧
      FlushExact silentEnv (fun e => (vidFilter 7).matches e.macParams && nonStatic e)
        ⟨run Fdb.init twoRecords, true, []⟩ lib' :=
  (flush_exact silentEnv twoRecords _ rfl
    (Coherent.run twoRecords coherent_init (by decide)).choose_spec.indexCoherent).1 (vidFilter 7) rfl
    (fun _ => by decide) (fun h => by cases h)

end MlnxLib.CtrlLearn
