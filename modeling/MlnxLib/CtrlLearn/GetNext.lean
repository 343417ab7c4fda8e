import MlnxLib.CtrlLearn.Get
import MlnxLib.CtrlLearn.Flush

/-!
# GET_NEXT from any address

`ctrl_learn_api_uc_mac_addr_get` looks the given address up with the exact key and goes on from its
record.  Between two pages the record may have been aged out, or have moved to another list.

* `Fdb.behind` — the records whose keys are greater than a key.
* `FollowsFilter` — the list that the start record is in serves the call.

Principal results: `getNext_all_iff` — without a filter the page is right exactly when the address is
stored or nothing follows it; `getNext_filtered_iff` — with a filter the call stays among the records
of the filter exactly when `FollowsFilter`.
-/

set_option autoImplicit false

namespace MlnxLib.CtrlLearn

/-! ## Without a filter -/

/-- The records with a key greater than `k`, in the order of their keys. -/
def Fdb.behind (s : Fdb) (k : Nat) : List MacEntry :=
  (s.fdbMap.entries.filter fun p => decide (k < p.1)).map fun p => s.records p.2

/-- The page that the documentation promises: the first `n` records behind the key. -/
def pageBehind (s : Fdb) (k n : Nat) : GetResult :=
  if s.behind k = [] then ⟨-ENOENT, 0, []⟩
  else ⟨0, ((s.behind k).take n).length, (s.behind k).take n⟩

theorem behind_eq_nil_iff {s : Fdb} {k : Nat} :
    s.behind k = [] ↔ ∀ k' i, s.fdbMap.get k' = some i → k' ≤ k := by
  unfold Fdb.behind
  rw [List.map_eq_nil_iff, List.filter_eq_nil_iff]
  constructor
  · intro h k' i hk
    have hle := h (k', i) (OrdMap.mem_entries_iff.mpr hk)
    simpa using hle
  · rintro h ⟨k', i⟩ hp
    have hle := h k' i (OrdMap.mem_entries_iff.mp hp)
    simpa using hle

/-- GET_NEXT reads only the MAC address and the vid of its start. -/
theorem getNext_congr (unsupported : Int) (s : Fdb) (filter : KeyFilter) {p q : MacParams}
    (hm : p.macAddr = q.macAddr) (hv : p.vid = q.vid) (n : UInt16) :
    ctrlLearnApiUcMacAddrGet unsupported true s .getNext filter p n =
      ctrlLearnApiUcMacAddrGet unsupported true s .getNext filter q n := by
  unfold ctrlLearnApiUcMacAddrGet
  rw [hm, hv]

section Calls

variable {s : Fdb} {L : Index} {filter : KeyFilter} {first : MacParams} {n : UInt16}

/-- From a stored address the page is the promised one. -/
theorem getNext_stored (h : FdbInv s L) (unsupported : Int) (hset : filter.isSet = false)
    (hn : 1 ≤ n.toNat) {i : Nat} (hk : s.fdbMap.get first.key = some i) :
    ctrlLearnApiUcMacAddrGet unsupported true s .getNext filter first n =
      some (pageBehind s first.key n.toNat) := by
  obtain ⟨hvid, hmac⟩ := h.get_mem hk first rfl
  obtain ⟨as, bs, hsplit, hfilter⟩ := OrdMap.entries_split hk
  have hvalues : s.fdbMap.values = as.map (·.2) ++ i :: bs.map (·.2) := by
    rw [OrdMap.values, hsplit, List.map_append, List.map_cons]
  have hunset : filter.filterByVid = false := by
    simp only [KeyFilter.isSet, Bool.or_eq_false_iff] at hset
    exact hset.2
  have hnext := (walk_all h hset).getNext h unsupported (fun hf => by rw [hunset] at hf; cases hf) hn
    hvalues (OrdMap.get_mem_values hk)
  have hbehind : s.behind first.key = (bs.map (·.2)).map s.records := by
    rw [Fdb.behind, hfilter, List.map_map]
    rfl
  rw [getNext_congr unsupported s filter hmac hvid, hnext, pageBehind, hbehind]
  simp only [List.map_eq_nil_iff, ← List.map_take, List.length_map]
  split <;> rfl

/-- From an address that is not stored there is no page. -/
theorem getNext_not_stored (h : FdbInv s L) (unsupported : Int) (hset : filter.isSet = false)
    (hn : 1 ≤ n.toNat) (hk : s.fdbMap.get first.key = none) :
    ctrlLearnApiUcMacAddrGet unsupported true s .getNext filter first n = some ⟨-ENOENT, 0, []⟩ := by
  have hn0 : n ≠ 0 := by
    rintro rfl
    simp at hn
  have hunset : filter.filterByVid = false := by
    simp only [KeyFilter.isSet, Bool.or_eq_false_iff] at hset
    exact hset.2
  have hget : fdbUcDbGetRecordByKey s (fdbUcConvertMacVlanToKey first.macAddr first.vid) =
      (-ENOENT, none) := by
    rw [MacParams.key] at hk
    simp [fdbUcDbGetRecordByKey, h.ready, hk]
  unfold ctrlLearnApiUcMacAddrGet
  simp [hn0, hunset, hget]

end Calls

/-- **GET_NEXT without a filter** returns the records behind the address exactly when the address is
stored or nothing is stored behind it. -/
theorem getNext_all_iff (unsupported : Int) (ops : List FdbOp) (filter : KeyFilter)
    (hset : filter.isSet = false) (first : MacParams) (n : UInt16) (hn : 1 ≤ n.toNat) :
    ctrlLearnApiUcMacAddrGet unsupported true (run Fdb.init ops) .getNext filter first n =
        some (pageBehind (run Fdb.init ops) first.key n.toNat) ↔
      ((run Fdb.init ops).fdbMap.get first.key).isSome ∨
        ∀ k i, (run Fdb.init ops).fdbMap.get k = some i → k ≤ first.key := by
  obtain ⟨L, h⟩ := FdbInv.run ops emptyDb_init.inv
  generalize run Fdb.init ops = s at *
  rw [← behind_eq_nil_iff]
  cases hk : s.fdbMap.get first.key with
  | some i => exact iff_of_true (getNext_stored h unsupported hset hn hk) (Or.inl rfl)
  | none =>
    rw [getNext_not_stored h unsupported hset hn hk, pageBehind]
    by_cases hnil : s.behind first.key = []
    · rw [if_pos hnil]
      exact iff_of_true rfl (Or.inr hnil)
    · rw [if_neg hnil]
      refine iff_of_false (fun he => ?_) (by simp [hnil])
      have herr := congrArg GetResult.err (Option.some.inj he)
      simp [ENOENT] at herr

/-- From the first of two stations, with room for two. -/
theorem getNext_all_iff_second :
    (pageBehind (run Fdb.init twoStations) (station 7 1 5).macParams.key 2).dataCnt = 1 ∧
    (ctrlLearnApiUcMacAddrGet 1 true (run Fdb.init twoStations) .getNext ⟨false, 0, false, 0⟩
        (station 7 1 5).macParams 2 =
        some (pageBehind (run Fdb.init twoStations) (station 7 1 5).macParams.key (2 : UInt16).toNat) ↔
      ((run Fdb.init twoStations).fdbMap.get (station 7 1 5).macParams.key).isSome ∨
        ∀ k i, (run Fdb.init twoStations).fdbMap.get k = some i → k ≤ (station 7 1 5).macParams.key) :=
  ⟨by decide, getNext_all_iff 1 twoStations ⟨false, 0, false, 0⟩ rfl (station 7 1 5).macParams 2 (by decide)⟩

/-- **From an address that is not stored** the call finds nothing, though a record follows. -/
theorem getNext_misses_record :
    ¬ ∀ (unsupported : Int) (ops : List FdbOp), (∀ op ∈ ops, op.PortBelow) → ∀ (filter : KeyFilter),
      filter.isSet = false → ∀ (first : MacParams) (n : UInt16), 1 ≤ n.toNat →
      ctrlLearnApiUcMacAddrGet unsupported true (run Fdb.init ops) .getNext filter first n =
        some (pageBehind (run Fdb.init ops) first.key n.toNat) := by
  intro hall
  have hpage := hall 1 [.add (some ⟨⟨7, ⟨0, 0, 0, 0, 0, 2⟩, 5, .dynamic⟩, none, .ageable⟩)]
    (by simp [FdbOp.PortBelow]) ⟨false, 0, false, 0⟩ rfl ⟨7, ⟨0, 0, 0, 0, 0, 1⟩, 5, .dynamic⟩ 1 (by decide)
  revert hpage
  decide

/-! ## With a filter -/

/-- The list of a filter has no record. -/
def fltrListEmpty (s : Fdb) (filter : KeyFilter) : Prop :=
  (fdbUcDbFilterGetFirstEntry s filter).bind (fun r => r.2.2) = none

/-- The records `bs` are behind record `i` in its list of field `fld`, up to the end item `e`. -/
def BehindIn (s : Fdb) (fld : FltrField) (i : Nat) (e : Node) (bs : List Nat) : Prop :=
  ¬ e.IsItem ∧ ∃ as, Ring.IsRing s.links e (as ++ Node.entry fld i :: bs.map (.entry fld))

/-- The call is refused, the filter has no records, or the list of the start record serves the call: the
next `n` records of it match, and it is the list of the filter or has `n` records left. -/
def FollowsFilter (s : Fdb) (filter : KeyFilter) (i n : Nat) : Prop :=
  (filter.filterByVid = true ∧ VID_MAX < filter.vid.toNat) ∨ fltrListEmpty s filter ∨
  ∃ fld e bs, filter.field = some fld ∧ BehindIn s fld i e bs ∧
    (listEnds s.fbdFilterMap filter.loc = some e ∨ n ≤ bs.length) ∧
    ∀ j ∈ bs.take n, filter.matches (s.records j).macParams = true

/-- The call returns, and what it returns are records of the FDB that match the filter, each once. -/
def StaysInFilter (s : Fdb) (filter : KeyFilter) (res : Option GetResult) : Prop :=
  ∃ r, res = some r ∧ (∀ e ∈ r.macList, filter.matches e.macParams = true ∧
    s.lookup e.macParams.key = some e) ∧ (r.macList.map fun e => e.macParams.key).Nodup

section Follow

variable {s : Fdb} {L : Index} {filter : KeyFilter} {fld : FltrField}

/-- A record has one place in one list. -/
theorem behindIn_unique : ∀ {bs bs' : List Nat} {i : Nat} {e e' : Node}, BehindIn s fld i e bs →
    BehindIn s fld i e' bs' → e = e' ∧ bs = bs'
  | [], bs', i, e, e', ⟨he, as, hr⟩, ⟨he', as', hr'⟩ => by
    have hnext := hr.links_of_split.1
    have hnext' := hr'.links_of_split.1
    rw [hnext, Option.some_inj] at hnext'
    cases bs' with
    | nil => exact ⟨hnext', rfl⟩
    | cons b bs' =>
      simp only [List.map_nil, List.headD_nil, List.map_cons, List.headD_cons] at hnext'
      rw [hnext'] at he
      exact absurd trivial he
  | b :: bs, bs', i, e, e', ⟨he, as, hr⟩, ⟨he', as', hr'⟩ => by
    have hnext := hr.links_of_split.1
    have hnext' := hr'.links_of_split.1
    rw [hnext, Option.some_inj] at hnext'
    cases bs' with
    | nil =>
      simp only [List.map_nil, List.headD_nil, List.map_cons, List.headD_cons] at hnext'
      rw [← hnext'] at he'
      exact absurd trivial he'
    | cons b' bs' =>
      simp only [List.map_cons, List.headD_cons, Node.entry.injEq, true_and] at hnext'
      subst hnext'
      have hb : BehindIn s fld b e bs := ⟨he, as ++ [Node.entry fld i], by simpa using hr⟩
      have hb' : BehindIn s fld b e' bs' := ⟨he', as' ++ [Node.entry fld i], by simpa using hr'⟩
      obtain ⟨hee, hbs⟩ := behindIn_unique hb hb'
      exact ⟨hee, by rw [hbs]⟩

/-- The end item of a list is no item of a record. -/
theorem listEnds_not_item {heads : QMap} {l : Loc} {e : Node} (h : listEnds heads l = some e) :
    ¬ e.IsItem := by
  cases l with
  | vlan v =>
    simp only [listEnds, Option.ite_none_right_eq_some, Option.some.injEq] at h
    rw [← h.2]
    exact id
  | key k =>
    obtain ⟨j, -, rfl⟩ := Option.map_eq_some_iff.mp h
    exact id

/-- **One step of the copy loop**, along the list that the record is in. -/
theorem nextEntry_behind (hready : s.filtersInitiated = true) (hfld : filter.field = some fld)
    {cookie e : Node} (hcookie : ¬ cookie.IsItem) {i : Nat} {bs : List Nat}
    (h : BehindIn s fld i e bs) :
    fdbUcDbFilterGetNextEntry s filter (some cookie) (some i) =
      match bs with
      | b :: _ => some (0, some b)
      | [] => if e = cookie then some (0, none) else none := by
  obtain ⟨he, as, hr⟩ := h
  have hnext := hr.links_of_split.1
  rw [fdbUcDbFilterGetNextEntry, if_neg (by simp [hready])]
  cases bs with
  | nil =>
    have hparent : parentStruct fld e = none := by
      cases e with
      | entry f j => exact absurd trivial he
      | vlanEnd v => rfl
      | fltrEnd j => rfl
    simp [hfld, clQlistNext, hnext, hparent]
  | cons b bs =>
    have hne : Node.entry fld b ≠ cookie := by
      rintro rfl
      exact hcookie trivial
    simp [hfld, clQlistNext, hnext, hne, parentStruct]

theorem copyRecords_behind (hready : s.filtersInitiated = true) (hfld : filter.field = some fld)
    {cookie e : Node} (hcookie : ¬ cookie.IsItem) : ∀ (room : Nat) {i : Nat} {bs : List Nat}
    (acc : List MacEntry), BehindIn s fld i e bs →
    copyRecords s filter (some cookie) room i acc =
      if e = cookie ∨ room ≤ bs.length then some (0, acc ++ ((i :: bs).take (room + 1)).map s.records)
      else none
  | 0, i, bs, acc, _ => by simp [copyRecords]
  | room + 1, i, bs, acc, h => by
    have hset := KeyFilter.isSet_of_field hfld
    have hstep := nextEntry_behind hready hfld hcookie h
    rw [copyRecords, nextRecord, if_pos hset, hstep]
    cases bs with
    | nil =>
      by_cases hec : e = cookie
      · simp [hec]
      · simp [hec]
    | cons b bs =>
      obtain ⟨he, as, hr⟩ := h
      have hb : BehindIn s fld b e bs := ⟨he, as ++ [Node.entry fld i], by simpa using hr⟩
      have ih := copyRecords_behind hready hfld hcookie room (acc ++ [s.records i]) hb
      simp [ih]

/-- The records of a list are of the field of any of its items. -/
theorem Reached.field_of_mem (h : Reached s L) {l : Loc} {f g : FltrField} {i j : Nat}
    (hi : .entry f i ∈ L l) (hj : .entry g j ∈ L l) : f = g := by
  have hplace : ∀ {f : FltrField} {i : Nat}, .entry f i ∈ L l →
      (f = .vid ∧ ∃ v, l = .vlan v) ∨
      (f = .port ∧ ∃ p : UInt64, p.toNat < 2 ^ 32 ∧ l = .key (buildPortKey p)) ∨
      (f = .vidPort ∧ ∃ p v, l = .key (buildPortVidKey p v)) := by
    intro f i hi
    have hhome := h.inv.home i
    cases f with
    | vid => exact Or.inl ⟨rfl, _, hhome.vid hi⟩
    | port => exact Or.inr (Or.inl ⟨rfl, _, h.ports i (h.inv.owned hi), hhome.port hi⟩)
    | vidPort => exact Or.inr (Or.inr ⟨rfl, hhome.side hi⟩)
  obtain ⟨rfl, v, hl⟩ | ⟨rfl, p, hp, hl⟩ | ⟨rfl, p, v, hl⟩ := hplace hi <;>
    obtain ⟨rfl, v', hl'⟩ | ⟨rfl, p', hp', hl'⟩ | ⟨rfl, p', v', hl'⟩ := hplace hj <;>
    first
      | rfl
      | (rw [hl] at hl'; cases hl')
      | skip
  · rw [hl, Loc.key.injEq] at hl'
    have hlt := buildPortKey_lt_portVidKey hp p' v'
    omega
  · rw [hl, Loc.key.injEq] at hl'
    have hlt := buildPortKey_lt_portVidKey hp' p v
    omega

/-- A linked item has its place in a list of records. -/
theorem Reached.exists_behind (h : Reached s L) {i : Nat} (hl : L.Linked fld i) :
    ∃ l e bs, listEnds s.fbdFilterMap l = some e ∧ BehindIn s fld i e bs ∧
      (∀ b ∈ bs, .entry fld b ∈ L l) ∧ bs.Nodup := by
  obtain ⟨l, hi⟩ := hl
  obtain ⟨e, he⟩ := h.inv.index.family.exists_end hi
  have hfields : ∀ n ∈ L l, ∃ j, n = Node.entry fld j := by
    intro n hn
    obtain ⟨g, j, rfl⟩ := h.exists_entry hn
    exact ⟨j, by rw [h.field_of_mem hi hn]⟩
  obtain ⟨xs, hxs⟩ := exists_records hfields
  have hix : i ∈ xs := by
    rw [hxs] at hi
    simpa using hi
  obtain ⟨as, bs, rfl⟩ := List.append_of_mem hix
  have hring := h.inv.index.family.ring he
  have hnd := h.inv.index.family.nodup l
  rw [hxs] at hring hnd
  have hnd' := List.Nodup.of_map _ hnd
  rw [List.nodup_append, List.nodup_cons] at hnd'
  refine ⟨l, e, bs, he, ⟨listEnds_not_item he, as.map (.entry fld), by simpa using hring⟩, ?_,
    hnd'.2.1.2⟩
  intro b hb
  rw [hxs]
  simp [hb]

end Follow

/-- A first entry always comes with a record. -/
theorem firstOfList_ne {s : Fdb} {e : Node} {fld : FltrField} {err : Int} {cookie : Option Node} :
    firstOfList s e fld ≠ some (err, cookie, none) := by
  unfold firstOfList
  cases clQlistHead s.links e with
  | none => simp
  | some head => cases hp : parentStruct fld head <;> simp [hp]

/-- A filter without a first entry has no list cookie. -/
theorem getFirstEntry_none {s : Fdb} {filter : KeyFilter} {err : Int} {cookie : Option Node}
    (h : fdbUcDbFilterGetFirstEntry s filter = some (err, cookie, none)) : cookie = none := by
  unfold fdbUcDbFilterGetFirstEntry at h
  split at h
  · simp only [Option.some.injEq, Prod.mk.injEq] at h
    exact h.2.1.symm
  · split at h
    · split at h
      · exact absurd h firstOfList_ne
      · simp only [Option.some.injEq, Prod.mk.injEq] at h
        exact h.2.1.symm
    · split at h
      · exact absurd h firstOfList_ne
      · simp only [Option.some.injEq, Prod.mk.injEq] at h
        exact h.2.1.symm
    · split at h
      · simp only [Option.some.injEq, Prod.mk.injEq] at h
        exact h.2.1.symm
      · exact absurd h firstOfList_ne
    · simp only [Option.some.injEq, Prod.mk.injEq] at h
      exact h.2.1.symm

/-- The page from a start in a list: the copy loop has to come to the list cookie, or to stop before. -/
theorem copyFrom_behind {s : Fdb} {filter : KeyFilter} {fld : FltrField}
    (hready : s.filtersInitiated = true) (hfld : filter.field = some fld) {cookie e : Node}
    (hcookie : ¬ cookie.IsItem) {i n : Nat} (hn : 1 ≤ n) {bs : List Nat} (h : BehindIn s fld i e bs) :
    ((fdbUcDbFilterGetNextEntry s filter (some cookie) (some i)).bind fun r =>
        copyFrom s filter (some cookie) r.1 r.2 n) =
      if e = cookie ∨ n ≤ bs.length then
        some (if bs = [] then ⟨-ENOENT, 0, []⟩
          else ⟨0, (bs.take n).length, (bs.take n).map s.records⟩)
      else none := by
  rw [nextEntry_behind hready hfld hcookie h]
  cases bs with
  | nil =>
    by_cases hec : e = cookie
    · simp [hec, copyFrom]
    · simp [hec, Nat.not_le.mpr hn]
  | cons b bs =>
    obtain ⟨he, as, hr⟩ := h
    have hb : BehindIn s fld b e bs := ⟨he, as ++ [Node.entry fld i], by simpa using hr⟩
    have hroom : n - 1 + 1 = n := by omega
    have hlen : n - 1 ≤ bs.length ↔ n ≤ (b :: bs).length := by
      rw [List.length_cons]
      omega
    have hcopy := copyRecords_behind hready hfld hcookie (n - 1) [] hb
    simp only [hroom, List.nil_append, hlen] at hcopy
    simp only [Option.bind_some, copyFrom, ne_eq, not_true_eq_false, if_false, hcopy, reduceCtorEq]
    split <;> simp

/-- An item with a list behind it is linked. -/
theorem BehindIn.linked {s : Fdb} {L : Index} (hr : Represents s L) {fld : FltrField} {i : Nat} {e : Node}
    {bs : List Nat} (h : BehindIn s fld i e bs) : L.Linked fld i := by
  obtain ⟨-, as, hring⟩ := h
  have hnext := hring.links_of_split.1
  apply Classical.byContradiction
  intro hfree
  rw [hr.links_unlinked (fun l hl => hfree ⟨l, hl⟩)] at hnext
  cases hnext

/-- What the records of a page have to be. -/
theorem staysInFilter_page {s : Fdb} {L : Index} (hinv : FdbInv s L) (filter : KeyFilter) (err : Int)
    (cnt : Nat) {xs : List Nat} (hmem : ∀ x ∈ xs, x ∈ s.fdbMap.values) (hnd : xs.Nodup) :
    StaysInFilter s filter (some ⟨err, cnt, xs.map s.records⟩) ↔
      ∀ x ∈ xs, filter.matches (s.records x).macParams = true := by
  have hkey : ∀ x ∈ xs, s.fdbMap.get (s.records x).macParams.key = some x := by
    intro x hx
    obtain ⟨k, hk⟩ := OrdMap.mem_values_iff.mp (hmem x hx)
    rw [hinv.keyed hk]
    exact hk
  constructor
  · rintro ⟨r, hr, hall, -⟩ x hx
    cases hr
    exact (hall _ (List.mem_map_of_mem hx)).1
  · intro hall
    refine ⟨_, rfl, ?_, ?_⟩
    · intro e he
      obtain ⟨x, hx, rfl⟩ := List.mem_map.mp he
      exact ⟨hall x hx, by rw [Fdb.lookup, hkey x hx]; rfl⟩
    · rw [List.map_map]
      refine hnd.map_on (fun x hx y hy he => ?_)
      have hxy : s.fdbMap.get (s.records x).macParams.key = some y := by
        rw [show (s.records x).macParams.key = (s.records y).macParams.key from he]
        exact hkey y hy
      rw [hkey x hx] at hxy
      exact Option.some.inj hxy

theorem staysInFilter_empty (s : Fdb) (filter : KeyFilter) (err : Int) (cnt : Nat) :
    StaysInFilter s filter (some ⟨err, cnt, []⟩) :=
  ⟨_, rfl, by simp, List.nodup_nil⟩

theorem KeyFilter.field_of_isSet {filter : KeyFilter} (hset : filter.isSet = true) :
    ∃ fld, filter.field = some fld := by
  unfold KeyFilter.isSet at hset
  unfold KeyFilter.field
  revert hset
  cases filter.filterByLogPort <;> cases filter.filterByVid <;> simp

/-- GET_NEXT from a stored address, past the guards. -/
theorem getNext_filtered {s : Fdb} {L : Index} (hinv : FdbInv s L) (unsupported : Int)
    {filter : KeyFilter} (hset : filter.isSet = true)
    (hguard : ¬ (filter.filterByVid = true ∧ VID_MAX < filter.vid.toNat)) {first : MacParams}
    {n : UInt16} (hn : 1 ≤ n.toNat) {i : Nat} (hk : s.fdbMap.get first.key = some i) {err : Int}
    {cookie : Option Node} {head : Option Nat}
    (hfirst : fdbUcDbFilterGetFirstEntry s filter = some (err, cookie, head)) (herr : err = 0) :
    ctrlLearnApiUcMacAddrGet unsupported true s .getNext filter first n =
      (fdbUcDbFilterGetNextEntry s filter cookie (some i)).bind fun r =>
        copyFrom s filter cookie r.1 r.2 n.toNat := by
  have hn0 : n ≠ 0 := by
    rintro rfl
    simp at hn
  have hguard' : (filter.filterByVid && decide (VID_MAX < filter.vid.toNat)) = false := by
    rw [← Bool.not_eq_true, Bool.and_eq_true, decide_eq_true_eq]
    exact hguard
  have hget : fdbUcDbGetRecordByKey s (fdbUcConvertMacVlanToKey first.macAddr first.vid) =
      (0, some i) := by
    rw [MacParams.key] at hk
    simp [fdbUcDbGetRecordByKey, hinv.ready, hk]
  unfold ctrlLearnApiUcMacAddrGet
  simp [hn0, hguard', hget, hset, hfirst, herr]

/-- The page behind a start that is linked. -/
theorem staysInFilter_behind {s : Fdb} {L : Index} (hinv : FdbInv s L) (filter : KeyFilter) {c e : Node} {n : Nat}
    {bs : List Nat} (hmem : ∀ b ∈ bs, b ∈ s.fdbMap.values) (hnd : bs.Nodup) :
    StaysInFilter s filter (if e = c ∨ n ≤ bs.length then
        some (if bs = [] then ⟨-ENOENT, 0, []⟩ else ⟨0, (bs.take n).length, (bs.take n).map s.records⟩)
      else none) ↔
      (some c = some e ∨ n ≤ bs.length) ∧ ∀ j ∈ bs.take n, filter.matches (s.records j).macParams = true := by
  have hstored : ∀ b ∈ bs.take n, b ∈ s.fdbMap.values := fun b hb => hmem b (List.mem_of_mem_take hb)
  have hpage := staysInFilter_page hinv filter (if bs = [] then -ENOENT else 0) (bs.take n).length hstored
    (hnd.sublist (List.take_sublist _ _))
  have hres : (if bs = [] then ⟨-ENOENT, 0, []⟩
      else ⟨0, (bs.take n).length, (bs.take n).map s.records⟩ : GetResult) =
      ⟨if bs = [] then -ENOENT else 0, (bs.take n).length, (bs.take n).map s.records⟩ := by
    split
    · rename_i hnil
      simp [hnil]
    · rfl
  have hcomes : (some c = some e ∨ n ≤ bs.length) ↔ (e = c ∨ n ≤ bs.length) := by simp [eq_comm]
  rw [hcomes]
  by_cases hend : e = c ∨ n ≤ bs.length
  · rw [if_pos hend, hres, hpage, and_iff_right hend]
  · rw [if_neg hend]
    refine iff_of_false ?_ fun hstop => hend hstop.1
    rintro ⟨r, hr, -⟩
    cases hr

/-- The list behind a start is the one that it is linked in. -/
theorem follows_behind {s : Fdb} {filter : KeyFilter} {fld : FltrField} (hfld : filter.field = some fld) {i n : Nat}
    {c e : Node} {bs : List Nat} (hbehind : BehindIn s fld i e bs) :
    (∃ fld e bs, filter.field = some fld ∧ BehindIn s fld i e bs ∧ (some c = some e ∨ n ≤ bs.length) ∧
        ∀ j ∈ bs.take n, filter.matches (s.records j).macParams = true) ↔
      (some c = some e ∨ n ≤ bs.length) ∧ ∀ j ∈ bs.take n, filter.matches (s.records j).macParams = true := by
  constructor
  · rintro ⟨fld', e', bs', hfld', hbehind', hall⟩
    rw [hfld, Option.some_inj] at hfld'
    subst hfld'
    obtain ⟨rfl, rfl⟩ := behindIn_unique hbehind hbehind'
    exact hall
  · exact fun hall => ⟨fld, e, bs, hfld, hbehind, hall⟩

/-- **The start decides which list is read.** -/
theorem Reached.getNext_iff {s : Fdb} {L : Index} (h : Reached s L) (unsupported : Int)
    {filter : KeyFilter} (hset : filter.isSet = true)
    (hvid : filter.filterByVid = true → filter.vid.toNat < MAX_VLAN_ENTRIES)
    (hport : filter.filterByLogPort = true → filter.logPort.toNat < 2 ^ 32) {first : MacParams}
    {n : UInt16} (hn : 1 ≤ n.toNat) {i : Nat} (hk : s.fdbMap.get first.key = some i) :
    StaysInFilter s filter (ctrlLearnApiUcMacAddrGet unsupported true s .getNext filter first n) ↔
      FollowsFilter s filter i n.toNat := by
  by_cases hguard : filter.filterByVid = true ∧ VID_MAX < filter.vid.toNat
  · -- the call is refused
    have hn0 : n ≠ 0 := by
      rintro rfl
      simp at hn
    have hcall : ctrlLearnApiUcMacAddrGet unsupported true s .getNext filter first n =
        some ⟨-EINVAL, n.toNat, []⟩ := by
      unfold ctrlLearnApiUcMacAddrGet
      simp [hn0, hguard.1, hguard.2]
    rw [hcall]
    exact iff_of_true (staysInFilter_empty s filter _ _) (Or.inl hguard)
  obtain ⟨fld, hfld⟩ := KeyFilter.field_of_isSet hset
  obtain ⟨xs, hxs⟩ := exists_records (h.mem_loc hfld hport).1
  obtain ⟨cookie, hfirst, hcookie⟩ := getFirstEntry_spec h.inv.index hfld
    (fun hp => hvid (KeyFilter.byVid_of_field hfld hp)) hxs
  have hfilters := h.inv.index.ready
  rw [getNext_filtered h.inv unsupported hset hguard hn hk hfirst rfl]
  cases xs with
  | nil =>
    have hnone := getFirstEntry_none hfirst
    subst hnone
    have hnext : fdbUcDbFilterGetNextEntry s filter none (some i) = some (-ENOENT, none) := by
      simp [fdbUcDbFilterGetNextEntry, hfilters]
    rw [hnext]
    refine iff_of_true ?_ (Or.inr (Or.inl ?_))
    · exact staysInFilter_empty s filter (-ENOENT) 0
    · simp [fltrListEmpty, hfirst]
  | cons x xs =>
    have hx : .entry fld x ∈ L filter.loc := by
      rw [hxs]
      simp
    obtain ⟨c, hc⟩ := h.inv.index.family.exists_end hx
    rw [hcookie (by simp), hc]
    have hne : ¬ fltrListEmpty s filter := by simp [fltrListEmpty, hfirst]
    have hfollow : FollowsFilter s filter i n.toNat ↔ ∃ fld e bs, filter.field = some fld ∧
        BehindIn s fld i e bs ∧ (some c = some e ∨ n.toNat ≤ bs.length) ∧
        ∀ j ∈ bs.take n.toNat, filter.matches (s.records j).macParams = true := by
      simp only [FollowsFilter, hguard, hne, false_or, hc]
    rw [hfollow]
    by_cases hl : L.Linked fld i
    · obtain ⟨l, e, bs, -, hbehind, hmem, hnd⟩ := h.exists_behind hl
      rw [copyFrom_behind hfilters hfld (listEnds_not_item hc) hn hbehind, follows_behind hfld hbehind]
      exact staysInFilter_behind h.inv filter (fun b hb => h.inv.owned (hmem b hb)) hnd
    · -- the start is in no list of the field, and its next item is the null pointer
      have hnext : fdbUcDbFilterGetNextEntry s filter (some c) (some i) = none := by
        have hnull := h.inv.index.links_unlinked (fun l hl' => hl ⟨l, hl'⟩)
        simp [fdbUcDbFilterGetNextEntry, hfilters, hfld, clQlistNext, hnull, Ring.Link.null]
      rw [hnext]
      refine iff_of_false (fun hs => ?_) ?_
      · obtain ⟨r, hr, -⟩ := hs
        cases hr
      · rintro ⟨fld', e, bs, hfld', hbehind, -⟩
        rw [hfld, Option.some_inj] at hfld'
        subst hfld'
        exact hl (hbehind.linked h.inv.index)

/-- **GET_NEXT with a filter** returns matching records, each once, exactly when `FollowsFilter`. -/
theorem getNext_filtered_iff (unsupported : Int) (ops : List FdbOp) (hops : ∀ op ∈ ops, op.PortBelow)
    (filter : KeyFilter) (hset : filter.isSet = true)
    (hvid : filter.filterByVid = true → filter.vid.toNat < MAX_VLAN_ENTRIES)
    (hport : filter.filterByLogPort = true → filter.logPort.toNat < 2 ^ 32) (first : MacParams) (i : Nat)
    (hk : (run Fdb.init ops).fdbMap.get first.key = some i) (n : UInt16) (hn : 1 ≤ n.toNat) :
    StaysInFilter (run Fdb.init ops) filter
        (ctrlLearnApiUcMacAddrGet unsupported true (run Fdb.init ops) .getNext filter first n) ↔
      FollowsFilter (run Fdb.init ops) filter i n.toNat := by
  obtain ⟨L, h⟩ := Reached.run ops coherent_init.reached hops
  exact h.getNext_iff unsupported hset hvid hport hn hk

/-- Two records of one port, the second after the first. -/
theorem getNext_filtered_iff_two :
    let ops := [.add (some ⟨⟨7, ⟨0, 0, 0, 0, 0, 1⟩, 5, .dynamic⟩, none, .ageable⟩),
      .add (some ⟨⟨7, ⟨0, 0, 0, 0, 0, 2⟩, 5, .dynamic⟩, none, .ageable⟩)]
    StaysInFilter (run Fdb.init ops) ⟨false, 0, true, 5⟩
        (ctrlLearnApiUcMacAddrGet 1 true (run Fdb.init ops) .getNext ⟨false, 0, true, 5⟩
          ⟨7, ⟨0, 0, 0, 0, 0, 1⟩, 5, .dynamic⟩ 1) ↔
      FollowsFilter (run Fdb.init ops) ⟨false, 0, true, 5⟩ 49151 (1 : UInt16).toNat :=
  getNext_filtered_iff 1 _ (by simp [FdbOp.PortBelow]) _ rfl (by simp) (by simp) _ 49151 (by decide) 1
    (by decide)

/-- **A start that has moved to another port**: the next page is of that port. -/
theorem getNext_leaves_filter :
    ¬ ∀ (unsupported : Int) (ops : List FdbOp), (∀ op ∈ ops, op.PortBelow) → ∀ (filter : KeyFilter),
      filter.isSet = true → (filter.filterByVid = true → filter.vid.toNat < MAX_VLAN_ENTRIES) →
      (filter.filterByLogPort = true → filter.logPort.toNat < 2 ^ 32) → ∀ (first : MacParams) (i : Nat),
      (run Fdb.init ops).fdbMap.get first.key = some i → ∀ (n : UInt16), 1 ≤ n.toNat →
      StaysInFilter (run Fdb.init ops) filter
        (ctrlLearnApiUcMacAddrGet unsupported true (run Fdb.init ops) .getNext filter first n) := by
  intro hall
  obtain ⟨r, hr, hmem, -⟩ := hall 1 [.add (some ⟨⟨7, ⟨0, 0, 0, 0, 0, 1⟩, 5, .dynamic⟩, none, .ageable⟩),
    .add (some ⟨⟨7, ⟨0, 0, 0, 0, 0, 2⟩, 6, .dynamic⟩, none, .ageable⟩),
    .add (some ⟨⟨7, ⟨0, 0, 0, 0, 0, 3⟩, 6, .dynamic⟩, none, .ageable⟩)]
    (by simp [FdbOp.PortBelow]) ⟨false, 0, true, 5⟩ rfl (by simp) (by simp)
    ⟨7, ⟨0, 0, 0, 0, 0, 2⟩, 6, .dynamic⟩ 49150 (by decide) 1 (by decide)
  have hcall : ctrlLearnApiUcMacAddrGet 1 true (run Fdb.init
      [.add (some ⟨⟨7, ⟨0, 0, 0, 0, 0, 1⟩, 5, .dynamic⟩, none, .ageable⟩),
        .add (some ⟨⟨7, ⟨0, 0, 0, 0, 0, 2⟩, 6, .dynamic⟩, none, .ageable⟩),
        .add (some ⟨⟨7, ⟨0, 0, 0, 0, 0, 3⟩, 6, .dynamic⟩, none, .ageable⟩)]) .getNext
      ⟨false, 0, true, 5⟩ ⟨7, ⟨0, 0, 0, 0, 0, 2⟩, 6, .dynamic⟩ 1 =
      some ⟨0, 1, [⟨⟨7, ⟨0, 0, 0, 0, 0, 3⟩, 6, .dynamic⟩, none, .ageable⟩]⟩ := by decide
  rw [hcall, Option.some_inj] at hr
  subst hr
  have hmatch := (hmem _ (List.mem_cons_self ..)).1
  revert hmatch
  decide

end MlnxLib.CtrlLearn
