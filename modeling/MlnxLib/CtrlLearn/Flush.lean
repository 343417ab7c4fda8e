import MlnxLib.CtrlLearn.Records
import MlnxLib.CtrlLearn.Learn

/-!
# Flushing the FDB

Both flush loops walk a list that they take apart: the map in key order, or the filter list of a
key, from which the deleted record is removed after its successor was read.  `FlushWalk` says what
such a walk needs; along one, a loop does to each record what `flushRecord` does, in the order of
the list.

Principal results: `flushLoop_spec` — the loop returns, and its result is that of the records
flushed one by one; `flushAll_spec`, `flushFilter_spec` — which records those are; `FlushedBy.db` —
as a map of records, the FDB is swept of the non-static records that match.
-/

set_option autoImplicit false

namespace MlnxLib.CtrlLearn

open PinMap

/-! ## One record -/

/-- What taking record `i` out, or failing to, does to the rest of the database. -/
structure TakenOut (i : Nat) (s : Fdb) (L : Index) (s' : Fdb) (L' : Index) : Prop where
  inv : FdbInv s' L'
  whole : L.Whole → L'.Whole
  thinned : L.Thinned i L'
  heads : HeadsKept s s' L'
  values : s'.fdbMap.values = s.fdbMap.values ∨
    s'.fdbMap.values = s.fdbMap.values.filter (fun j => decide (j ≠ i))
  params : ∀ j, (s'.records j).macParams = (s.records j).macParams
  others : ∀ j, j ≠ i → s'.records j = s.records j

theorem TakenOut.mem_values {i : Nat} {s s' : Fdb} {L L' : Index} (h : TakenOut i s L s' L') {j : Nat}
    (hj : j ∈ s'.fdbMap.values) : j ∈ s.fdbMap.values := by
  obtain hv | hv := h.values
  · rw [← hv]; exact hj
  · rw [hv] at hj
    exact List.mem_of_mem_filter hj

theorem TakenOut.mem_of_ne {i : Nat} {s s' : Fdb} {L L' : Index} (h : TakenOut i s L s' L') {j : Nat}
    (hj : j ∈ s.fdbMap.values) (hne : j ≠ i) : j ∈ s'.fdbMap.values := by
  obtain hv | hv := h.values
  · rw [hv]; exact hj
  · rw [hv, List.mem_filter]
    exact ⟨hj, decide_eq_true hne⟩

theorem TakenOut.reached {i : Nat} {s s' : Fdb} {L L' : Index} (h : TakenOut i s L s' L')
    (hs : Reached s L) : Reached s' L' := by
  refine ⟨h.inv, h.whole hs.whole, fun j hj => ?_⟩
  rw [h.params]
  exact hs.ports j (h.mem_values hj)

theorem TakenOut.rfl {i : Nat} {s : Fdb} {L : Index} (h : FdbInv s L) : TakenOut i s L s L :=
  ⟨h, id, .rfl, fun _ _ => Eq.refl _, Or.inl (Eq.refl _), fun _ => Eq.refl _, fun _ _ => Eq.refl _⟩

/-- The de-init callback may overwrite the cookie of the record, and nothing else. -/
theorem deinitCookie_spec (env : Env) {lib : Lib} {L : Index} (h : FdbInv lib.fdb L) {i : Nat}
    (hi : i ∈ lib.fdb.fdbMap.values) :
    TakenOut i lib.fdb L (deinitCookie env lib i).fdb L ∧
    (deinitCookie env lib i).fdb.fdbMap = lib.fdb.fdbMap := by
  unfold deinitCookie
  cases env.initDeinitCb with
  | none => exact ⟨.rfl h, rfl⟩
  | some cb =>
    dsimp only
    obtain ⟨k, hk⟩ := OrdMap.mem_values_iff.mp hi
    have hkey := h.keyed hk
    generalize hc : (cb lib.cookieLog .deinit (lib.fdb.records i).cookie).2 = cookie
    have hinv := h.refresh (e := { lib.fdb.records i with cookie := cookie })
      (by rw [hkey]; exact hk) rfl
    refine ⟨⟨hinv, id, .rfl, fun _ _ => rfl, Or.inl rfl, fun j => ?_, fun j hj => ?_⟩, rfl⟩
    · by_cases hj : j = i
      · subst hj; simp [setRecord]
      · simp [setRecord, hj]
    · simp [setRecord, hj]

theorem deleteRecord_spec (env : Env) {lib : Lib} {L : Index} (h : FdbInv lib.fdb L) {i : Nat}
    (hi : i ∈ lib.fdb.fdbMap.values) : ∃ L', TakenOut i lib.fdb L (deleteRecord env lib i).2.fdb L' := by
  obtain ⟨h₁, hmap⟩ := deinitCookie_spec env h hi
  obtain ⟨L', hinv, hthin, hheads, hpin, hrec, hres⟩ := delete_spec h₁.inv i
  refine ⟨L', hinv, fun hw => hw.of_pinned hthin.agreesBut hpin, hthin, ?_, ?_, fun j => ?_,
    fun j hj => ?_⟩
  · exact h₁.heads.trans hheads hthin
  · obtain ⟨-, -, hm⟩ | ⟨-, -, hdb⟩ := hres
    · refine Or.inr ?_
      show (fdbUcDbDeleteRecord _ _).2.fdbMap.values = _
      rw [hm, OrdMap.values_removeItem, hmap]
    · refine Or.inl ?_
      show (fdbUcDbDeleteRecord _ _).2.fdbMap.values = _
      rw [hdb.fdbMap, hmap]
  · show ((fdbUcDbDeleteRecord _ _).2.records j).macParams = _
    rw [hrec, h₁.params]
  · show (fdbUcDbDeleteRecord _ _).2.records j = _
    rw [hrec, h₁.others j hj]

theorem flushRecord_spec (env : Env) {lib : Lib} {L : Index} (h : FdbInv lib.fdb L) (err : Int)
    {i : Nat} (hi : i ∈ lib.fdb.fdbMap.values) :
    ∃ L', TakenOut i lib.fdb L (flushRecord env lib err i).2.fdb L' := by
  unfold flushRecord
  split
  · exact deleteRecord_spec env h hi
  · exact ⟨L, .rfl h⟩

/-! ## The loop -/

/-- The records of a list flushed one after the other. -/
def flushList (env : Env) (lib : Lib) (xs : List Nat) : Lib :=
  xs.foldl (fun lib i => (flushRecord env lib 0 i).2) lib

/-- A walk that survives the removal of the record it is at: `R s L xs` says that the records
`xs` are still to come. -/
structure FlushWalk (next : Fdb → Nat → Option (Int × Option Nat))
    (R : Fdb → Index → List Nat → Prop) : Prop where
  stored : ∀ {s L x xs}, FdbInv s L → R s L (x :: xs) → x ∈ s.fdbMap.values
  step : ∀ {s L x xs}, FdbInv s L → R s L (x :: xs) → next s x = some (0, xs.head?)
  keep : ∀ {s L s' L' x xs}, FdbInv s L → R s L (x :: xs) → TakenOut x s L s' L' → R s' L' xs

/-- **The flush loop** flushes the records of its walk one after the other. -/
theorem flushLoop_spec (env : Env) {next : Fdb → Nat → Option (Int × Option Nat)}
    {R : Fdb → Index → List Nat → Prop} (hw : FlushWalk next R) :
    ∀ (xs : List Nat) (fuel : Nat) {lib : Lib} {L : Index} (err : Int) (tmp : Option Nat),
      FdbInv lib.fdb L → R lib.fdb L xs → xs.length < fuel →
      ∃ err', flushLoop env next fuel lib err xs.head? tmp = some (err', flushList env lib xs)
  | _, 0, _, _, _, _, _, _, hf => absurd hf (Nat.not_lt_zero _)
  | [], fuel + 1, lib, L, err, tmp, _, _, _ => ⟨err, rfl⟩
  | x :: xs, fuel + 1, lib, L, err, tmp, h, hR, hf => by
    obtain ⟨L', htaken⟩ := flushRecord_spec env h 0 (hw.stored h hR)
    obtain ⟨err', ih⟩ := flushLoop_spec env hw xs fuel (flushRecord env lib 0 x).1 xs.head? htaken.inv
      (hw.keep h hR htaken) (Nat.lt_of_succ_lt_succ hf)
    refine ⟨err', ?_⟩
    rw [List.head?_cons, flushLoop]
    simp only [hw.step h hR, Option.bind_some, ne_eq, not_true_eq_false, if_false]
    exact ih

/-- What the flush of a list keeps. -/
theorem flushList_reached {env : Env} : ∀ (xs : List Nat) {lib : Lib} {L : Index},
    Reached lib.fdb L → xs.Nodup → (∀ x ∈ xs, x ∈ lib.fdb.fdbMap.values) →
    ∃ L', Reached (flushList env lib xs).fdb L'
  | [], _, L, h, _, _ => ⟨L, h⟩
  | x :: xs, lib, L, h, hnd, hmem => by
    obtain ⟨L', htaken⟩ := flushRecord_spec env h.inv 0 (hmem x (List.mem_cons_self ..))
    rw [List.nodup_cons] at hnd
    refine flushList_reached xs (htaken.reached h) hnd.2 (fun y hy => ?_)
    refine htaken.mem_of_ne (hmem y (List.mem_cons_of_mem _ hy)) ?_
    rintro rfl
    exact hnd.1 hy

/-! ## The two walks -/

/-- The map, in key order. -/
theorem flushWalk_all : FlushWalk (fun s i => some (fdbUcDbNextRecord s (some i)))
    (fun s _ xs => ∃ as, s.fdbMap.values = as ++ xs) := by
  refine ⟨?_, ?_, ?_⟩
  · rintro s L x xs _ ⟨as, hv⟩
    rw [hv]
    simp
  · rintro s L x xs h ⟨as, hv⟩
    simp [fdbUcDbNextRecord, h.ready, OrdMap.next_of_split h.pool.values_nodup hv]
  · rintro s L s' L' x xs h ⟨as, hv⟩ htaken
    obtain hv' | hv' := htaken.values
    · exact ⟨as ++ [x], by rw [hv', hv]; simp⟩
    · refine ⟨as.filter (fun j => decide (j ≠ x)), ?_⟩
      have hnd := h.pool.values_nodup
      rw [hv, List.nodup_append, List.nodup_cons] at hnd
      have hxs : xs.filter (fun j => decide (j ≠ x)) = xs := by
        refine List.filter_eq_self.mpr (fun j hj => decide_eq_true ?_)
        rintro rfl
        exact hnd.2.1.1 hj
      rw [hv', hv, List.filter_append, List.filter_cons, hxs]
      simp

/-- Taking items of one record out of a list leaves what comes after its item. -/
theorem Index.Thinned.suffix {i : Nat} {L L' : Index} (h : L.Thinned i L') {l : Loc}
    (hnd : (L l).Nodup) {as : List Node} {fld : FltrField} {xs : List Nat}
    (hl : L l = as ++ (i :: xs).map (.entry fld)) : ∃ as', L' l = as' ++ xs.map (.entry fld) := by
  obtain ⟨keep, hkeep, he⟩ := h l
  rw [hl, List.nodup_append, List.map_cons, List.nodup_cons] at hnd
  have hxs : (xs.map (Node.entry fld)).filter keep = xs.map (.entry fld) := by
    refine List.filter_eq_self.mpr (fun n hn => ?_)
    cases hk : keep n with
    | true => rfl
    | false =>
      obtain ⟨f, rfl⟩ := hkeep n hk
      obtain ⟨j, hj, hje⟩ := List.mem_map.mp hn
      cases hje
      exact absurd hn hnd.2.1.1
  refine ⟨(as ++ [Node.entry fld i]).filter keep, ?_⟩
  have hcut : L l = (as ++ [Node.entry fld i]) ++ xs.map (.entry fld) := by rw [hl]; simp
  rw [he, hcut, List.filter_append, hxs]

/-- The list of a filter; its end item stays while the list has an item. -/
theorem flushWalk_filter {filter : KeyFilter} {fld : FltrField} (hfld : filter.field = some fld)
    (cookie : Option Node) :
    FlushWalk (fun s i => fdbUcDbFilterGetNextEntry s filter cookie (some i))
      (fun s L xs => (xs ≠ [] → listEnds s.fbdFilterMap filter.loc = cookie) ∧
        ∃ as, L filter.loc = as ++ xs.map (.entry fld)) := by
  refine ⟨?_, ?_, ?_⟩
  · rintro s L x xs h ⟨-, as, hl⟩
    have hx : .entry fld x ∈ L filter.loc := by rw [hl]; simp
    exact h.owned hx
  · rintro s L x xs h ⟨hend, as, hl⟩
    have hx : .entry fld x ∈ L filter.loc := by rw [hl]; simp
    obtain ⟨e, he⟩ := h.index.family.exists_end hx
    rw [hend (by simp)] at he
    rw [he] at hend ⊢
    exact getNextEntry_spec h.index hfld (hend (by simp)) hl
  · rintro s L s' L' x xs h ⟨hend, as, hl⟩ htaken
    obtain ⟨as', hl'⟩ := htaken.thinned.suffix (h.index.family.nodup _) hl
    refine ⟨fun hne => ?_, as', hl'⟩
    rw [← hend (by simp)]
    cases hloc : filter.loc with
    | vlan v => rfl
    | key k =>
      have hk := htaken.heads k (by rw [← hloc, hl']; simp [hne])
      simp [listEnds, hk]

/-! ## What is flushed -/

/-- The flush of some stored records, each once: those that match and that a delete can take out,
and maybe some that no delete can take out. -/
def FlushedBy (env : Env) (lib : Lib) (P : MacParams → Bool) (lib' : Lib) : Prop :=
  ∃ xs : List Nat, lib' = flushList env lib xs ∧ xs.Nodup ∧
    (∀ x ∈ xs, x ∈ lib.fdb.fdbMap.values) ∧
    ∀ i ∈ lib.fdb.fdbMap.values, removable lib.fdb i = true →
      (i ∈ xs ↔ P (lib.fdb.records i).macParams = true)

theorem length_lt_fuel {s : Fdb} {L : Index} (h : FdbInv s L) {xs : List Nat} (hnd : xs.Nodup)
    (hmem : ∀ x ∈ xs, x ∈ s.fdbMap.values) : xs.length < FLUSH_FUEL := by
  have hle := (hnd.subperm hmem).length_le
  have hlen := s.fdbMap.length_values
  have hcount := h.pool.count
  unfold FLUSH_FUEL
  omega

/-- The flush of everything takes the records in key order. -/
theorem flushAll_list (env : Env) {lib : Lib} {L : Index} (h : FdbInv lib.fdb L) :
    ∃ err, ctrlLearnHandleFlushAll env lib = some (err, flushList env lib lib.fdb.fdbMap.values) := by
  obtain ⟨err, hloop⟩ := flushLoop_spec env flushWalk_all lib.fdb.fdbMap.values FLUSH_FUEL 0
    none h ⟨[], rfl⟩ (length_lt_fuel h h.pool.values_nodup (fun _ hx => hx))
  refine ⟨err, ?_⟩
  unfold ctrlLearnHandleFlushAll
  simp only [fdbUcDbGetFirstRecord, h.ready, Bool.not_true, Bool.false_eq_true, if_false, ne_eq,
    not_true_eq_false, OrdMap.head_eq]
  exact hloop

/-- **A flush of everything.** -/
theorem flushAll_spec (env : Env) {lib : Lib} {L : Index} (h : Reached lib.fdb L) :
    ∃ err lib', ctrlLearnHandleFlushAll env lib = some (err, lib') ∧
      FlushedBy env lib (fun _ => true) lib' := by
  obtain ⟨err, hrun⟩ := flushAll_list env h.inv
  exact ⟨err, _, hrun, lib.fdb.fdbMap.values, rfl, h.inv.pool.values_nodup, fun _ hx => hx,
    fun i hi _ => by simp [hi]⟩

/-- Each node of the index is an item of a record. -/
theorem Reached.exists_entry {s : Fdb} {L : Index} (h : Reached s L) {l : Loc} {n : Node} (hn : n ∈ L l) :
    ∃ f i, n = Node.entry f i := by
  have hitem := h.inv.index.family.items hn
  cases n with
  | entry f i => exact ⟨f, i, rfl⟩
  | _ => exact absurd hitem id

/-- The list of a port and a vid. -/
theorem Reached.mem_vidPort {s : Fdb} {L : Index} (h : Reached s L) {port : UInt64}
    (hlt : port.toNat < 2 ^ 32) (vid : UInt16) :
    (∀ n ∈ L (.key (buildPortVidKey port vid)), ∃ i, n = Node.entry .vidPort i) ∧
    ∀ i ∈ s.fdbMap.values, L.Removable i → (Node.entry .vidPort i ∈ L (.key (buildPortVidKey port vid)) ↔
      (s.records i).macParams.vid = vid ∧ (s.records i).macParams.logPort = port) := by
  refine ⟨fun n hn => ?_, fun i hi hrem => ?_⟩
  · obtain ⟨f, i, rfl⟩ := h.exists_entry hn
    have hhome := h.inv.home i
    cases f with
    | vid => exact absurd (hhome.vid hn) (by simp)
    | port =>
      have hkey := hhome.port hn
      simp only [Loc.key.injEq] at hkey
      exact absurd hkey.symm (buildPortKey_ne_portVidKey (h.ports i (h.inv.owned hn)) hlt _)
    | vidPort => exact ⟨i, rfl⟩
  · obtain ⟨⟨lp, hlp⟩, lv, hlv⟩ := hrem
    have hhome := (h.inv.home i).vidPort hlv hlp
    rw [hhome] at hlv
    constructor
    · intro hn
      have hkey := h.inv.index.family.disj hn hlv
      simp only [Loc.key.injEq] at hkey
      obtain ⟨he, he'⟩ := buildPortVidKey_inj hlt (h.ports i hi) hkey
      exact ⟨he'.symm, he.symm⟩
    · rintro ⟨he, he'⟩
      rw [← he, ← he']
      exact hlv

/-- The list of a port. -/
theorem Reached.mem_port {s : Fdb} {L : Index} (h : Reached s L) {port : UInt64}
    (hlt : port.toNat < 2 ^ 32) :
    (∀ n ∈ L (.key (buildPortKey port)), ∃ i, n = Node.entry .port i) ∧
    ∀ i ∈ s.fdbMap.values, L.Removable i →
      (Node.entry .port i ∈ L (.key (buildPortKey port)) ↔ (s.records i).macParams.logPort = port) := by
  refine ⟨fun n hn => ?_, fun i hi hrem => ?_⟩
  · obtain ⟨f, i, rfl⟩ := h.exists_entry hn
    have hhome := h.inv.home i
    cases f with
    | vid => exact absurd (hhome.vid hn) (by simp)
    | port => exact ⟨i, rfl⟩
    | vidPort =>
      obtain ⟨port', vid, hkey⟩ := hhome.side hn
      have hkeys := buildPortKey_lt_portVidKey hlt port' vid
      simp only [Loc.key.injEq] at hkey
      omega
  · obtain ⟨⟨lp, hlp⟩, -⟩ := hrem
    have hhome := (h.inv.home i).port hlp
    rw [hhome] at hlp
    constructor
    · intro hn
      have hkey := h.inv.index.family.disj hn hlp
      simp only [Loc.key.injEq] at hkey
      exact (buildPortKey_inj hlt (h.ports i hi) hkey).symm
    · intro he
      rw [← he]
      exact hlp

/-- The list of a vid. -/
theorem Reached.mem_vid {s : Fdb} {L : Index} (h : Reached s L) (vid : UInt16) :
    (∀ n ∈ L (.vlan vid.toNat), ∃ i, n = Node.entry .vid i) ∧
    ∀ i ∈ s.fdbMap.values, L.Removable i →
      (Node.entry .vid i ∈ L (.vlan vid.toNat) ↔ (s.records i).macParams.vid = vid) := by
  refine ⟨fun n hn => ?_, fun i hi hrem => ?_⟩
  · obtain ⟨f, i, rfl⟩ := h.exists_entry hn
    have hhome := h.inv.home i
    cases f with
    | vid => exact ⟨i, rfl⟩
    | port => exact absurd (hhome.port hn) (by simp)
    | vidPort =>
      obtain ⟨port, vid', hkey⟩ := hhome.side hn
      exact absurd hkey (by simp)
  · obtain ⟨l, hl⟩ := h.whole i hrem
    have hhome := (h.inv.home i).vid hl
    rw [hhome] at hl
    constructor
    · intro hn
      have hkey := h.inv.index.family.disj hn hl
      simp only [Loc.vlan.injEq] at hkey
      exact (UInt16.toNat_inj.mp hkey).symm
    · intro he
      rw [← he]
      exact hl

/-- The items of a filter's list, in any reachable state: they are of the filter's field, and of
the records a delete can take out they are the matching ones. -/
theorem Reached.mem_loc {s : Fdb} {L : Index} (h : Reached s L) {filter : KeyFilter} {fld : FltrField}
    (hfld : filter.field = some fld)
    (hport : filter.filterByLogPort = true → filter.logPort.toNat < 2 ^ 32) :
    (∀ n ∈ L filter.loc, ∃ i, n = Node.entry fld i) ∧
    ∀ i ∈ s.fdbMap.values, L.Removable i →
      (Node.entry fld i ∈ L filter.loc ↔ filter.matches (s.records i).macParams = true) := by
  cases hp : filter.filterByLogPort with
  | true =>
    cases hv : filter.filterByVid with
    | true =>
      have hloc : filter.loc = .key (buildPortVidKey filter.logPort filter.vid) := by
        simp [KeyFilter.loc, hp, hv]
      have hf : fld = .vidPort := by simpa [KeyFilter.field, hp, hv, eq_comm] using hfld
      subst hf
      rw [hloc]
      simpa [KeyFilter.matches, hp, hv] using h.mem_vidPort (hport hp) filter.vid
    | false =>
      have hloc : filter.loc = .key (buildPortKey filter.logPort) := by simp [KeyFilter.loc, hp, hv]
      have hf : fld = .port := by simpa [KeyFilter.field, hp, hv, eq_comm] using hfld
      subst hf
      rw [hloc]
      simpa [KeyFilter.matches, hp, hv] using h.mem_port (hport hp)
  | false =>
    have hv : filter.filterByVid = true := by
      cases hv : filter.filterByVid with
      | true => rfl
      | false => simp [KeyFilter.field, hp, hv] at hfld
    have hloc : filter.loc = .vlan filter.vid.toNat := by simp [KeyFilter.loc, hp]
    have hf : fld = .vid := by simpa [KeyFilter.field, hp, hv, eq_comm] using hfld
    subst hf
    rw [hloc]
    simpa [KeyFilter.matches, hp, hv] using h.mem_vid filter.vid

/-- The flush by filter takes the records of the filter's list. -/
theorem flushFilter_list (env : Env) {lib : Lib} {L : Index} (h : FdbInv lib.fdb L)
    {filter : KeyFilter} {fld : FltrField} (hfld : filter.field = some fld)
    (hvid : filter.filterByVid = true → filter.vid.toNat < MAX_VLAN_ENTRIES) {xs : List Nat}
    (hxs : L filter.loc = xs.map (.entry fld)) :
    xs.Nodup ∧ (∀ x ∈ xs, x ∈ lib.fdb.fdbMap.values) ∧
      ∃ err, ctrlLearnFlushDbByFilter env lib filter = some (err, flushList env lib xs) := by
  have hnd : xs.Nodup := by
    have hloc := h.index.family.nodup filter.loc
    rw [hxs] at hloc
    exact List.Nodup.of_map _ hloc
  have hstored : ∀ x ∈ xs, x ∈ lib.fdb.fdbMap.values := by
    intro x hx
    refine h.owned (l := filter.loc) (f := fld) ?_
    rw [hxs]
    exact List.mem_map_of_mem hx
  obtain ⟨cookie, hfirst, hcookie⟩ := getFirstEntry_spec h.index hfld
    (fun hp => hvid (KeyFilter.byVid_of_field hfld hp)) hxs
  obtain ⟨err, hloop⟩ := flushLoop_spec env (flushWalk_filter hfld cookie) xs FLUSH_FUEL 0
    none h ⟨fun hne => (hcookie hne).symm, [], hxs⟩ (length_lt_fuel h hnd hstored)
  refine ⟨hnd, hstored, err, ?_⟩
  unfold ctrlLearnFlushDbByFilter
  simp only [hfirst, Option.bind_some, ne_eq, not_true_eq_false, if_false, hloop]

/-- **A flush by filter.** -/
theorem flushFilter_spec (env : Env) {lib : Lib} {L : Index} (h : Reached lib.fdb L)
    {filter : KeyFilter} {fld : FltrField} (hfld : filter.field = some fld)
    (hvid : filter.filterByVid = true → filter.vid.toNat < MAX_VLAN_ENTRIES)
    (hport : filter.filterByLogPort = true → filter.logPort.toNat < 2 ^ 32) :
    ∃ err lib', ctrlLearnFlushDbByFilter env lib filter = some (err, lib') ∧
      FlushedBy env lib filter.matches lib' := by
  obtain ⟨hfields, hmatch⟩ := h.mem_loc hfld hport
  obtain ⟨xs, hxs⟩ := exists_records hfields
  obtain ⟨hnd, hstored, err, hrun⟩ := flushFilter_list env h.inv hfld hvid hxs
  refine ⟨err, _, hrun, xs, rfl, hnd, hstored, fun i hi hrem => ?_⟩
  have hmem : i ∈ xs ↔ Node.entry fld i ∈ L filter.loc := by
    rw [hxs]
    simp
  rw [hmem]
  exact hmatch i hi ((removable_iff h.inv.index).mp hrem)

theorem FlushedBy.reached {env : Env} {lib lib' : Lib} {L : Index} {P : MacParams → Bool}
    (hf : FlushedBy env lib P lib') (h : Reached lib.fdb L) : ∃ L', Reached lib'.fdb L' := by
  obtain ⟨xs, rfl, hnd, hstored, -⟩ := hf
  exact flushList_reached xs h hnd hstored

/-! ## The map of records after a flush -/

def nonStatic (e : MacEntry) : Bool := e.type != .static

/-- **One record flushed**, as a map of records. -/
theorem flushRecord_db {env : Env} (hcb : env.initDeinitCb = none) {lib : Lib} {L : Index}
    (h : FdbInv lib.fdb L) (err : Int) {k i : Nat} (hk : lib.fdb.fdbMap.get k = some i) :
    (flushRecord env lib err i).2.fdb.db =
      Function.update lib.fdb.db k ((lib.fdb.db k).sweep nonStatic) := by
  unfold flushRecord
  split
  · rename_i htype
    have hdel : (deleteRecord env lib i).2.fdb = (fdbUcDbDeleteRecord lib.fdb (some i)).2 := by
      simp [deleteRecord, deinitCookie, hcb]
    rw [hdel, db_delete h hk, Map.drop, db_some hk]
    congr 1
    cases removable lib.fdb i with
    | false => rfl
    | true => simp [Cell.drop, Cell.sweep, nonStatic, htype]
  · rename_i htype
    have hsame : (lib.fdb.db k).sweep nonStatic = lib.fdb.db k := by
      rw [db_some hk]
      cases removable lib.fdb i with
      | false => rfl
      | true => simp [Cell.sweep, nonStatic, not_not.mp htype]
    rw [hsame, Function.update_eq_self]

theorem flushList_db {env : Env} (hcb : env.initDeinitCb = none) : ∀ (xs : List Nat) {lib : Lib}
    {L : Index}, FdbInv lib.fdb L → xs.Nodup → (∀ x ∈ xs, x ∈ lib.fdb.fdbMap.values) → ∀ k,
    (flushList env lib xs).fdb.db k =
      if k ∈ xs.map (fun i => (lib.fdb.records i).macParams.key) then (lib.fdb.db k).sweep nonStatic
      else lib.fdb.db k
  | [], _, _, _, _, _, _ => rfl
  | x :: xs, lib, L, h, hnd, hmem, k => by
    have hx := hmem x (List.mem_cons_self ..)
    obtain ⟨kx, hkx⟩ := OrdMap.mem_values_iff.mp hx
    obtain ⟨L', htaken⟩ := flushRecord_spec env h 0 hx
    rw [List.nodup_cons] at hnd
    have ih := flushList_db hcb xs htaken.inv hnd.2 (fun y hy => htaken.mem_of_ne
      (hmem y (List.mem_cons_of_mem _ hy)) (fun he => hnd.1 (he ▸ hy))) k
    simp only [htaken.params, flushRecord_db hcb h 0 hkx] at ih
    have hcons : flushList env lib (x :: xs) = flushList env (flushRecord env lib 0 x).2 xs := rfl
    rw [hcons, ih, List.map_cons, h.keyed hkx]
    by_cases hkk : k = kx
    · subst hkk
      simp [Cell.sweep_sweep]
    · simp [hkk]

/-- **As a map of records, a flush is a sweep.** -/
theorem FlushedBy.db {env : Env} (hcb : env.initDeinitCb = none) {lib lib' : Lib} {L : Index}
    {P : MacParams → Bool} (hf : FlushedBy env lib P lib') (h : FdbInv lib.fdb L) :
    lib'.fdb.db = lib.fdb.db.sweep (fun e => P e.macParams && nonStatic e) := by
  obtain ⟨xs, rfl, hnd, hstored, hmatch⟩ := hf
  funext k
  rw [flushList_db hcb xs h hnd hstored, Map.sweep]
  cases hk : lib.fdb.fdbMap.get k with
  | none => simp [db_none hk, Cell.sweep]
  | some i =>
    rw [db_some hk]
    cases hr : removable lib.fdb i with
    | false => simp [Cell.sweep]
    | true =>
      have hiff : k ∈ xs.map (fun i => (lib.fdb.records i).macParams.key) ↔
          P (lib.fdb.records i).macParams = true := by
        rw [← hmatch i (OrdMap.get_mem_values hk) hr, List.mem_map]
        constructor
        · rintro ⟨j, hj, hjk⟩
          obtain ⟨kj, hkj⟩ := OrdMap.mem_values_iff.mp (hstored j hj)
          rw [h.keyed hkj] at hjk
          rw [hjk, hk, Option.some.injEq] at hkj
          rw [hkj]
          exact hj
        · intro hi
          exact ⟨i, hi, h.keyed hk⟩
      cases hp : P (lib.fdb.records i).macParams with
      | true => rw [if_pos (hiff.mpr hp)]; simp [Cell.sweep, hp]
      | false => rw [if_neg (fun hc => by simp [hiff.mp hc] at hp)]; simp [Cell.sweep, hp]

end MlnxLib.CtrlLearn
