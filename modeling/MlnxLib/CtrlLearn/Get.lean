import MlnxLib.Lib.Paging
import MlnxLib.CtrlLearn.Coherence

/-!
# Reading the FDB page by page

Model of `ctrl_learn_api_uc_mac_addr_get`.  The records go out as they are stored: a
`struct fdb_uc_mac_addr_params` has the parameters, the type and the cookie of a record, so a page
is a list of `MacEntry`.

A *walk* is the order in which a filter visits the records: the map order without a filter, the
order of a filter list otherwise.  `Walk` says what the first and the next function of the source
return along it; the end of a filter list is recognised by the list cookie, the item before the
first one, which is the end item of the list.

Principal results: `walk_all`, `walk_filtered` — every filter has a walk over exactly the matching
records; `fdb_paging_complete` — pages of any sizes are the walk, cut where the sizes say, and the
call after the last record returns `-ENOENT`.
-/

set_option autoImplicit false

namespace MlnxLib.CtrlLearn

/-! ## The call -/

/-- What the call leaves: the error code, `*data_cnt` and the records written to `mac_list`. -/
structure GetResult where
  err : Int
  dataCnt : Nat
  macList : List MacEntry
  deriving DecidableEq, Repr

def VID_MAX : Nat := 4094

/-- One of the filters is set. -/
def KeyFilter.isSet (filter : KeyFilter) : Bool := filter.filterByLogPort || filter.filterByVid

/-- The step to the next record: `fdb_uc_db_get_next_record_by_filter` or
`fdb_uc_db_next_record`. -/
def nextRecord (s : Fdb) (filter : KeyFilter) (listCookie : Option Node) (i : Nat) :
    Option (Int × Option Nat) :=
  if filter.isSet then fdbUcDbFilterGetNextEntry s filter listCookie (some i)
  else some (fdbUcDbNextRecord s (some i))

/-- The copy loop, with room for `room + 1` more records. -/
def copyRecords (s : Fdb) (filter : KeyFilter) (listCookie : Option Node) :
    Nat → Nat → List MacEntry → Option (Int × List MacEntry)
  | 0, i, acc => some (0, acc ++ [s.records i])
  | room + 1, i, acc =>
    (nextRecord s filter listCookie i).bind fun r =>
      if r.1 ≠ 0 then some (r.1, acc ++ [s.records i]) else
      match r.2 with
      | none => some (0, acc ++ [s.records i])
      | some j => copyRecords s filter listCookie room j (acc ++ [s.records i])

/-- The exit `end:` after an error, and the copy loop otherwise. -/
def copyFrom (s : Fdb) (filter : KeyFilter) (listCookie : Option Node) (err : Int)
    (macRecord : Option Nat) (dataCnt : Nat) : Option GetResult :=
  if err ≠ 0 then some ⟨err, 0, []⟩ else
  match macRecord with
  | none => some ⟨-ENOENT, 0, []⟩
  | some i => (copyRecords s filter listCookie (dataCnt - 1) i []).map fun r =>
      ⟨r.1, r.2.length, r.2⟩

/-- `ctrl_learn_api_uc_mac_addr_get`.  `first` is the address in `mac_list[0]`; `unsupported` is
`OES_STATUS_CMD_UNSUPPORTED` of the OES headers.  `none` where the source would follow a pointer
to no record. -/
def ctrlLearnApiUcMacAddrGet (unsupported : Int) (isCtrlLearnInitialized : Bool) (s : Fdb)
    (accessCmd : AccessCmd) (filter : KeyFilter) (first : MacParams) (dataCnt : UInt16) :
    Option GetResult :=
  if !isCtrlLearnInitialized then some ⟨-EPERM, 0, []⟩ else
  if dataCnt = 0 then some ⟨-EINVAL, 0, []⟩ else
  if filter.filterByVid && decide (VID_MAX < filter.vid.toNat) then
    some ⟨-EINVAL, dataCnt.toNat, []⟩
  else
  match accessCmd with
  | .get =>
    match fdbUcDbGetRecordByKey s (fdbUcConvertMacVlanToKey first.macAddr first.vid) with
    | (0, some i) => some ⟨0, 1, [s.records i]⟩
    | (err, _) => some ⟨err, 0, []⟩
  | .getFirst =>
    if filter.isSet then
      (fdbUcDbFilterGetFirstEntry s filter).bind fun r =>
        copyFrom s filter r.2.1 r.1 r.2.2 dataCnt.toNat
    else
      let r := fdbUcDbGetFirstRecord s
      copyFrom s filter none r.1 r.2 dataCnt.toNat
  | .getNext =>
    match fdbUcDbGetRecordByKey s (fdbUcConvertMacVlanToKey first.macAddr first.vid) with
    | (0, some i) =>
      if filter.isSet then
        (fdbUcDbFilterGetFirstEntry s filter).bind fun r =>
          if r.1 ≠ 0 then some ⟨r.1, 0, []⟩ else
          (fdbUcDbFilterGetNextEntry s filter r.2.1 (some i)).bind fun r' =>
            copyFrom s filter r.2.1 r'.1 r'.2 dataCnt.toNat
      else
        let r := fdbUcDbNextRecord s (some i)
        copyFrom s filter none r.1 r.2 dataCnt.toNat
    | (err, _) => some ⟨err, 0, []⟩
  | _ => some ⟨unsupported, 0, []⟩

/-! ## Walks -/

/-- The first record of a filter and its list cookie. -/
def firstRecord (s : Fdb) (filter : KeyFilter) : Option (Int × Option Node × Option Nat) :=
  if filter.isSet then fdbUcDbFilterGetFirstEntry s filter
  else some ((fdbUcDbGetFirstRecord s).1, none, (fdbUcDbGetFirstRecord s).2)

/-- The source visits the records `xs`, in this order, for a filter. -/
structure Walk (s : Fdb) (filter : KeyFilter) (cookie : Option Node) (xs : List Nat) : Prop where
  first : firstRecord s filter = some (0, cookie, xs.head?)
  next : ∀ {as x bs}, xs = as ++ x :: bs → nextRecord s filter cookie x = some (0, bs.head?)

/-- **The copy loop** copies records along the walk until the room or the walk ends. -/
theorem Walk.copyRecords {s : Fdb} {filter : KeyFilter} {cookie : Option Node} {xs : List Nat}
    (hw : Walk s filter cookie xs) : ∀ (room : Nat) {as bs : List Nat} {x : Nat} (acc : List MacEntry),
      xs = as ++ x :: bs → copyRecords s filter cookie room x acc =
        some (0, acc ++ ((x :: bs).take (room + 1)).map s.records)
  | 0, as, bs, x, acc, _ => by simp [CtrlLearn.copyRecords]
  | room + 1, as, bs, x, acc, hxs => by
    rw [CtrlLearn.copyRecords, hw.next hxs]
    cases bs with
    | nil => simp
    | cons b bs =>
      have hxs' : xs = (as ++ [x]) ++ b :: bs := by simpa using hxs
      have ih := hw.copyRecords room (acc ++ [s.records x]) hxs'
      simp [ih]

theorem Walk.copyFrom {s : Fdb} {filter : KeyFilter} {cookie : Option Node} {xs as bs : List Nat}
    (hw : Walk s filter cookie xs) (hxs : xs = as ++ bs) {n : Nat} (hn : 1 ≤ n) :
    copyFrom s filter cookie 0 bs.head? n =
      if bs = [] then some ⟨-ENOENT, 0, []⟩
      else some ⟨0, (bs.take n).length, (bs.take n).map s.records⟩ := by
  unfold CtrlLearn.copyFrom
  cases bs with
  | nil => simp
  | cons b bs =>
    have hroom : n - 1 + 1 = n := by omega
    simp only [List.head?_cons, ne_eq, not_true_eq_false, if_false, hw.copyRecords (n - 1) [] hxs,
      hroom, List.nil_append, Option.map_some, List.length_map, reduceCtorEq]

section Calls

variable {s : Fdb} {L : Index} {filter : KeyFilter} {cookie : Option Node} {xs : List Nat}

/-- **GET_FIRST** returns the first page of the walk. -/
theorem Walk.getFirst (hw : Walk s filter cookie xs) (unsupported : Int) (start : MacParams)
    (hvid : filter.filterByVid = true → filter.vid.toNat ≤ VID_MAX) {n : UInt16}
    (hn : 1 ≤ n.toNat) :
    ctrlLearnApiUcMacAddrGet unsupported true s .getFirst filter start n =
      if xs = [] then some ⟨-ENOENT, 0, []⟩
      else some ⟨0, (xs.take n.toNat).length, (xs.take n.toNat).map s.records⟩ := by
  have hn0 : n ≠ 0 := by rintro rfl; simp at hn
  have hguard : (filter.filterByVid && decide (VID_MAX < filter.vid.toNat)) = false := by
    cases hf : filter.filterByVid with
    | false => rfl
    | true => simpa using hvid hf
  have hfirst := hw.first
  have hcopy := hw.copyFrom (List.nil_append xs).symm hn
  unfold firstRecord at hfirst
  unfold ctrlLearnApiUcMacAddrGet
  simp only [Bool.not_true, Bool.false_eq_true, if_false, hn0, hguard]
  split at hfirst
  · rename_i hset
    rw [if_pos hset, hfirst]
    exact hcopy
  · rename_i hset
    rw [if_neg hset]
    simp only [Option.some.injEq, Prod.mk.injEq] at hfirst
    obtain ⟨h₁, h₂, h₃⟩ := hfirst
    rw [h₁, h₃, h₂]
    exact hcopy

/-- **GET_NEXT** from a record of the walk returns the page after it. -/
theorem Walk.getNext (hw : Walk s filter cookie xs) (hinv : FdbInv s L) (unsupported : Int)
    (hvid : filter.filterByVid = true → filter.vid.toNat ≤ VID_MAX) {n : UInt16}
    (hn : 1 ≤ n.toNat) {as bs : List Nat} {x : Nat} (hxs : xs = as ++ x :: bs)
    (hx : x ∈ s.fdbMap.values) :
    ctrlLearnApiUcMacAddrGet unsupported true s .getNext filter (s.records x).macParams n =
      if bs = [] then some ⟨-ENOENT, 0, []⟩
      else some ⟨0, (bs.take n.toNat).length, (bs.take n.toNat).map s.records⟩ := by
  have hn0 : n ≠ 0 := by rintro rfl; simp at hn
  have hguard : (filter.filterByVid && decide (VID_MAX < filter.vid.toNat)) = false := by
    cases hf : filter.filterByVid with
    | false => rfl
    | true => simpa using hvid hf
  have hkey : fdbUcDbGetRecordByKey s (fdbUcConvertMacVlanToKey (s.records x).macParams.macAddr
      (s.records x).macParams.vid) = (0, some x) := by
    obtain ⟨k, hk⟩ := OrdMap.mem_values_iff.mp hx
    have := hinv.keyed hk
    rw [MacParams.key] at this
    simp [fdbUcDbGetRecordByKey, hinv.ready, this, hk]
  have hfirst := hw.first
  have hnext := hw.next hxs
  have hxs' : xs = (as ++ [x]) ++ bs := by simpa using hxs
  have hcopy := hw.copyFrom hxs' hn
  unfold firstRecord at hfirst
  unfold nextRecord at hnext
  unfold ctrlLearnApiUcMacAddrGet
  simp only [Bool.not_true, Bool.false_eq_true, if_false, hn0, hguard, hkey]
  split at hfirst
  · rename_i hset
    rw [if_pos hset] at hnext
    rw [if_pos hset, hfirst]
    simp only [Option.bind_some, ne_eq, not_true_eq_false, if_false, hnext]
    exact hcopy
  · rename_i hset
    rw [if_neg hset] at hnext
    rw [if_neg hset]
    simp only [Option.some.injEq, Prod.mk.injEq] at hfirst hnext
    rw [hnext, hfirst.2.1]
    exact hcopy

end Calls

/-! ## Every filter has a walk -/

/-- Without a filter the map is walked in key order. -/
theorem walk_all {s : Fdb} {L : Index} (hinv : FdbInv s L) {filter : KeyFilter}
    (hset : filter.isSet = false) : Walk s filter none s.fdbMap.values := by
  constructor
  · simp [firstRecord, hset, fdbUcDbGetFirstRecord, hinv.ready, OrdMap.head_eq]
  · intro as x bs hxs
    simp [nextRecord, hset, fdbUcDbNextRecord, hinv.ready,
      OrdMap.next_of_split hinv.pool.values_nodup hxs]

/-- A list of items of one field is the image of a list of records. -/
theorem exists_records {fld : FltrField} : ∀ {ns : List Node},
    (∀ n ∈ ns, ∃ i, n = .entry fld i) → ∃ xs : List Nat, ns = xs.map (.entry fld)
  | [], _ => ⟨[], rfl⟩
  | n :: ns, h => by
    obtain ⟨i, rfl⟩ := h n (List.mem_cons_self ..)
    obtain ⟨xs, rfl⟩ := exists_records (fun m hm => h m (List.mem_cons_of_mem _ hm))
    exact ⟨i :: xs, rfl⟩

/-- The location a filter walks. -/
def KeyFilter.loc (filter : KeyFilter) : Loc :=
  match filter.filterByLogPort, filter.filterByVid with
  | true, true => .key (buildPortVidKey filter.logPort filter.vid)
  | true, false => .key (buildPortKey filter.logPort)
  | false, _ => .vlan filter.vid.toNat

theorem KeyFilter.isSet_of_field {filter : KeyFilter} {fld : FltrField}
    (hfld : filter.field = some fld) : filter.isSet = true := by
  unfold KeyFilter.field at hfld
  unfold KeyFilter.isSet
  split at hfld <;> simp_all

/-- A filter that is not by port is by vid. -/
theorem KeyFilter.byVid_of_field {filter : KeyFilter} {fld : FltrField}
    (hfld : filter.field = some fld) (hp : filter.filterByLogPort = false) :
    filter.filterByVid = true := by
  cases hv : filter.filterByVid with
  | true => rfl
  | false => simp [KeyFilter.field, hp, hv] at hfld

theorem firstOfList_ring {s : Fdb} {e : Node} {fld : FltrField} {x : Nat} {xs : List Nat}
    (hr : Ring.IsRing s.links e ((x :: xs).map (.entry fld))) :
    firstOfList s e fld = some (0, some e, some x) := by
  have hhead := hr.next_sentinel
  simp only [List.map_cons, List.headD_cons] at hhead
  have hcut : Ring.IsRing s.links e ([] ++ Node.entry fld x :: xs.map (.entry fld)) := hr
  have hprev := hcut.links_of_split.2
  simp only [List.getLast_singleton] at hprev
  simp [firstOfList, clQlistHead, clQlistNext, hhead, parentStruct, hprev]

/-- The list of a key: it has no head and no items, or a head whose first item is found. -/
theorem firstOfKey_spec {s : Fdb} {L : Index} (hr : Represents s L) {k : Nat} {fld : FltrField}
    {xs : List Nat} (hxs : L (.key k) = xs.map (.entry fld)) :
    (s.fbdFilterMap.get k = none ∧ xs = []) ∨
    ∃ j, s.fbdFilterMap.get k = some j ∧
      firstOfList s (.fltrEnd j) fld = some (0, some (.fltrEnd j), xs.head?) ∧
      listEnds s.fbdFilterMap (.key k) = some (.fltrEnd j) := by
  cases hg : s.fbdFilterMap.get k with
  | none =>
    have hnil := hr.get_none_iff.mp hg
    rw [hxs, List.map_eq_nil_iff] at hnil
    exact Or.inl ⟨rfl, hnil⟩
  | some j =>
    have hend : listEnds s.fbdFilterMap (.key k) = some (.fltrEnd j) := by simp [listEnds, hg]
    have hring := hr.family.ring hend
    have hne := hr.heads hg
    rw [hxs] at hring hne
    obtain ⟨x, ys, rfl⟩ := List.exists_cons_of_ne_nil (by simpa using hne : xs ≠ [])
    exact Or.inr ⟨j, rfl, firstOfList_ring hring, hend⟩

/-- **The first entry of a filter**: there is none, or it is the first of the list, and the list
cookie is the end item of the list. -/
theorem getFirstEntry_spec {s : Fdb} {L : Index} (hr : Represents s L) {filter : KeyFilter}
    {fld : FltrField} (hfld : filter.field = some fld)
    (hvid : filter.filterByLogPort = false → filter.vid.toNat < MAX_VLAN_ENTRIES) {xs : List Nat}
    (hxs : L filter.loc = xs.map (.entry fld)) :
    ∃ cookie, fdbUcDbFilterGetFirstEntry s filter = some (0, cookie, xs.head?) ∧
      (xs ≠ [] → cookie = listEnds s.fbdFilterMap filter.loc) := by
  unfold fdbUcDbFilterGetFirstEntry
  rw [if_neg (by simp [hr.ready])]
  cases hp : filter.filterByLogPort with
  | true =>
    cases hv : filter.filterByVid with
    | true =>
      have hf : fld = .vidPort := by simpa [KeyFilter.field, hp, hv, eq_comm] using hfld
      have hloc : filter.loc = .key (buildPortVidKey filter.logPort filter.vid) := by
        simp [KeyFilter.loc, hp, hv]
      subst hf
      rw [hloc] at hxs ⊢
      obtain ⟨hg, rfl⟩ | ⟨j, hg, hfirst, hend⟩ := firstOfKey_spec hr hxs
      · exact ⟨none, by simp only [hg, List.head?_nil], fun hne => absurd rfl hne⟩
      · exact ⟨some (.fltrEnd j), by simp only [hg, hfirst], fun _ => hend.symm⟩
    | false =>
      have hf : fld = .port := by simpa [KeyFilter.field, hp, hv, eq_comm] using hfld
      have hloc : filter.loc = .key (buildPortKey filter.logPort) := by simp [KeyFilter.loc, hp, hv]
      subst hf
      rw [hloc] at hxs ⊢
      obtain ⟨hg, rfl⟩ | ⟨j, hg, hfirst, hend⟩ := firstOfKey_spec hr hxs
      · exact ⟨none, by simp only [hg, List.head?_nil], fun hne => absurd rfl hne⟩
      · exact ⟨some (.fltrEnd j), by simp only [hg, hfirst], fun _ => hend.symm⟩
  | false =>
    have hv := KeyFilter.byVid_of_field hfld hp
    have hvlt := hvid hp
    have hloc : filter.loc = .vlan filter.vid.toNat := by simp [KeyFilter.loc, hp]
    have hfv : fld = .vid := by simpa [KeyFilter.field, hp, hv, eq_comm] using hfld
    have hend : listEnds s.fbdFilterMap (.vlan filter.vid.toNat) = some (.vlanEnd filter.vid.toNat) := by
      simp [listEnds, hvlt]
    have hcount := hr.count _ hvlt
    have hring := hr.family.ring hend
    subst hfv
    rw [hloc] at hxs ⊢
    rw [hxs] at hcount hring
    rw [hv]
    dsimp only
    cases xs with
    | nil => exact ⟨none, by rw [if_pos (by simpa using hcount)]; rfl, fun hne => absurd rfl hne⟩
    | cons x xs =>
      refine ⟨some (.vlanEnd filter.vid.toNat), ?_, fun _ => hend.symm⟩
      rw [if_neg (by simp [hcount]), firstOfList_ring hring]
      rfl

/-- **The next entry of a filter**: the list cookie is the end item, so the walk stops there. -/
theorem getNextEntry_spec {s : Fdb} {L : Index} (hr : Represents s L) {filter : KeyFilter}
    {fld : FltrField} (hfld : filter.field = some fld) {e : Node} {l : Loc}
    (hend : listEnds s.fbdFilterMap l = some e) {as : List Node} {x : Nat} {xs : List Nat}
    (hxs : L l = as ++ (x :: xs).map (.entry fld)) :
    fdbUcDbFilterGetNextEntry s filter (some e) (some x) = some (0, xs.head?) := by
  have hring := hr.family.ring hend
  rw [hxs, List.map_cons] at hring
  have hnext := hring.links_of_split.1
  rw [fdbUcDbFilterGetNextEntry, if_neg (by simp [hr.ready])]
  cases xs with
  | nil => simp [hfld, clQlistNext, hnext]
  | cons y ys =>
    have hye : Node.entry fld y ≠ e := by
      rintro rfl
      exact hring.not_mem (by simp)
    simp [hfld, clQlistNext, hnext, hye, parentStruct]

/-- The records of a location, given what is linked there. -/
theorem walk_location {s : Fdb} {L : Index} (h : FdbInv s L) {filter : KeyFilter} {fld : FltrField}
    (hfld : filter.field = some fld)
    (hvid : filter.filterByLogPort = false → filter.vid.toNat < MAX_VLAN_ENTRIES)
    (hmem : ∀ n, n ∈ L filter.loc ↔ ∃ i ∈ s.fdbMap.values,
      n = .entry fld i ∧ filter.matches (s.records i).macParams = true) :
    ∃ cookie xs, Walk s filter cookie xs ∧ xs.Nodup ∧
      ∀ i, i ∈ xs ↔ i ∈ s.fdbMap.values ∧ filter.matches (s.records i).macParams = true := by
  have hset := KeyFilter.isSet_of_field hfld
  have hfields : ∀ n ∈ L filter.loc, ∃ i, n = Node.entry fld i := by
    intro n hn
    obtain ⟨i, -, he, -⟩ := (hmem n).mp hn
    exact ⟨i, he⟩
  obtain ⟨xs, hxs⟩ := exists_records hfields
  have hnd := h.index.family.nodup filter.loc
  rw [hxs] at hnd
  obtain ⟨cookie, hfirst, hcookie⟩ := getFirstEntry_spec h.index hfld hvid hxs
  refine ⟨cookie, xs, ⟨?_, ?_⟩, List.Nodup.of_map _ hnd, fun i => ?_⟩
  · rw [firstRecord, if_pos hset, hfirst]
  · intro as x bs hsplit
    subst hsplit
    have hx : .entry fld x ∈ L filter.loc := by rw [hxs]; simp
    obtain ⟨e, hend⟩ := h.index.family.exists_end hx
    have hcut : L filter.loc = as.map (.entry fld) ++ (x :: bs).map (.entry fld) := by
      rw [hxs, List.map_append]
    rw [nextRecord, if_pos hset, hcookie (by simp), hend]
    exact getNextEntry_spec h.index hfld hend hcut
  · have hi : i ∈ xs ↔ Node.entry fld i ∈ L filter.loc := by
      rw [hxs]
      simp
    rw [hi, hmem]
    constructor
    · rintro ⟨j, hj, he, hp⟩
      cases he
      exact ⟨hj, hp⟩
    · rintro ⟨hi, hp⟩
      exact ⟨i, hi, rfl, hp⟩

/-- **The list of a filter** holds the items of the matching records. -/
theorem LinksExact.mem_loc {s : Fdb} {L : Index} (h : LinksExact s L) {filter : KeyFilter}
    (hset : filter.isSet = true)
    (hport : filter.filterByLogPort = true → filter.logPort.toNat < 2 ^ 32) :
    ∃ fld, filter.field = some fld ∧ ∀ n, n ∈ L filter.loc ↔ ∃ i ∈ s.fdbMap.values,
      n = .entry fld i ∧ filter.matches (s.records i).macParams = true := by
  cases hp : filter.filterByLogPort with
  | true =>
    cases hv : filter.filterByVid with
    | true =>
      have hloc : filter.loc = .key (buildPortVidKey filter.logPort filter.vid) := by
        simp [KeyFilter.loc, hp, hv]
      refine ⟨.vidPort, by simp [KeyFilter.field, hp, hv], fun n => ?_⟩
      rw [hloc, h.portVid (hport hp)]
      simp [KeyFilter.matches, hp, hv, and_comm]
    | false =>
      have hloc : filter.loc = .key (buildPortKey filter.logPort) := by simp [KeyFilter.loc, hp, hv]
      refine ⟨.port, by simp [KeyFilter.field, hp, hv], fun n => ?_⟩
      rw [hloc, h.port (hport hp)]
      simp [KeyFilter.matches, hp, hv]
  | false =>
    have hv : filter.filterByVid = true := by simpa [KeyFilter.isSet, hp] using hset
    have hloc : filter.loc = .vlan filter.vid.toNat := by simp [KeyFilter.loc, hp]
    refine ⟨.vid, by simp [KeyFilter.field, hp, hv], fun n => ?_⟩
    rw [hloc, h.mem_vlan_iff]
    simp [KeyFilter.matches, hp, hv, UInt16.toNat_inj]

/-- **Every filter that is set has a walk over exactly the matching records.** -/
theorem walk_filtered {s : Fdb} {L : Index} (h : Coherent s L) {filter : KeyFilter}
    (hset : filter.isSet = true)
    (hvid : filter.filterByVid = true → filter.vid.toNat < MAX_VLAN_ENTRIES)
    (hport : filter.filterByLogPort = true → filter.logPort.toNat < 2 ^ 32) :
    ∃ cookie xs, Walk s filter cookie xs ∧ xs.Nodup ∧
      ∀ i, i ∈ xs ↔ i ∈ s.fdbMap.values ∧ filter.matches (s.records i).macParams = true := by
  obtain ⟨fld, hfld, hmem⟩ := h.linksExact.mem_loc hset hport
  exact walk_location h.inv hfld (fun hp => hvid (KeyFilter.byVid_of_field hfld hp)) hmem

/-! ## Pages -/

/-- The sequence of calls: GET_FIRST with `n 0`, then GET_NEXT with `n 1`, `n 2`, …, each from the
last record of the page before. -/
def getPages (unsupported : Int) (s : Fdb) (filter : KeyFilter) (start : MacParams)
    (n : Nat → UInt16) : Nat → Option GetResult
  | 0 => ctrlLearnApiUcMacAddrGet unsupported true s .getFirst filter start (n 0)
  | k + 1 => (getPages unsupported s filter start n k).bind fun r =>
      r.macList.getLast?.bind fun last =>
        ctrlLearnApiUcMacAddrGet unsupported true s .getNext filter last.macParams (n (k + 1))

/-- The stored records that match a filter. -/
def Fdb.matching (s : Fdb) (filter : KeyFilter) : List MacEntry :=
  (s.fdbMap.values.filter (fun i => filter.matches (s.records i).macParams)).map s.records

/-- The order of records: by vid, then by the MAC bytes. -/
def MacParams.before (p q : MacParams) : Prop :=
  p.vid.toNat < q.vid.toNat ∨ (p.vid.toNat = q.vid.toNat ∧ p.macAddr.bytes < q.macAddr.bytes)

/-- The map order of the records is their order by vid and MAC address. -/
theorem records_sorted {s : Fdb} {L : Index} (hinv : FdbInv s L) :
    (s.fdbMap.values.map s.records).Pairwise (fun a b => a.macParams.before b.macParams) := by
  rw [OrdMap.values, List.map_map, List.pairwise_map]
  refine s.fdbMap.sorted.imp_of_mem (fun {a b} ha hb hlt => ?_)
  have hka := hinv.keyed (OrdMap.mem_entries_iff.mp ha)
  have hkb := hinv.keyed (OrdMap.mem_entries_iff.mp hb)
  rw [← hka, ← hkb] at hlt
  exact (macVlanKey_lt_iff _ _ _ _).mp hlt

/-- **Page `k` of the calls is page `k` of the walk**, until the walk is used up. -/
theorem getPages_eq {s : Fdb} {L : Index} {filter : KeyFilter} {cookie : Option Node} {xs : List Nat}
    (hw : Walk s filter cookie xs) (hinv : FdbInv s L) (hxs : ∀ x ∈ xs, x ∈ s.fdbMap.values)
    (unsupported : Int) (start : MacParams)
    (hvid : filter.filterByVid = true → filter.vid.toNat ≤ VID_MAX) {n : Nat → UInt16}
    (hn : ∀ k, 1 ≤ (n k).toNat) : ∀ k : Nat,
    (∀ j, j < k → Paging.offset (fun k => (n k).toNat) j < xs.length) →
    getPages unsupported s filter start n k =
      if Paging.offset (fun k => (n k).toNat) k < xs.length then
        some ⟨0, (Paging.page xs (fun k => (n k).toNat) k).length,
          (Paging.page xs (fun k => (n k).toNat) k).map s.records⟩
      else some ⟨-ENOENT, 0, []⟩
  | 0, _ => by
    rw [getPages, hw.getFirst unsupported start hvid (hn 0)]
    simp only [Paging.offset, Paging.page, List.drop_zero]
    cases xs with
    | nil => simp
    | cons x xs => simp
  | k + 1, hbefore => by
    have hk := hbefore k (Nat.lt_succ_self k)
    have ih := getPages_eq hw hinv hxs unsupported start hvid hn k
      (fun j hj => hbefore j (Nat.lt_succ_of_lt hj))
    rw [if_pos hk] at ih
    obtain ⟨as, x, hlast, hsplit⟩ := Paging.page_split hk (hn k)
    have hx : x ∈ s.fdbMap.values := hxs x (by rw [hsplit]; simp)
    have hnext := hw.getNext hinv unsupported hvid (hn (k + 1)) hsplit hx
    rw [getPages, ih]
    simp only [Option.bind_some, List.getLast?_map, hlast, Option.map_some]
    rw [hnext]
    simp only [List.drop_eq_nil_iff]
    by_cases hend : xs.length ≤ Paging.offset (fun k => (n k).toNat) (k + 1)
    · rw [if_pos hend, if_neg (Nat.not_lt.mpr hend)]
    · rw [if_neg hend, if_pos (Nat.lt_of_not_le hend)]
      rfl

/-- **FDB paging is complete and duplicate-free.**  On an unchanged coherent database, pages of any
positive sizes go through the records that match the filter, each once and as stored, and then the
call returns `-ENOENT` with a count of 0; without a filter the records come in increasing order.
A filter by vid has to be within `VID_MAX`, the bound the call checks. -/
theorem fdb_paging_complete (unsupported : Int) (ops : List FdbOp) (hops : ∀ op ∈ ops, op.PortBelow)
    (hcoh : IndexCoherent (run Fdb.init ops)) (filter : KeyFilter)
    (hvid : filter.filterByVid = true → filter.vid.toNat ≤ VID_MAX)
    (hport : filter.filterByLogPort = true → filter.logPort.toNat < 2 ^ 32)
    (start : MacParams) (n : Nat → UInt16) (hn : ∀ k, 1 ≤ (n k).toNat) :
    ∃ (m : Nat) (pages : Nat → List MacEntry),
      (∀ k, k < m → pages k ≠ [] ∧ (pages k).length ≤ (n k).toNat ∧
        getPages unsupported (run Fdb.init ops) filter start n k =
          some ⟨0, (pages k).length, pages k⟩) ∧
      getPages unsupported (run Fdb.init ops) filter start n m = some ⟨-ENOENT, 0, []⟩ ∧
      ((List.range m).map pages).flatten.Perm ((run Fdb.init ops).matching filter) ∧
      (filter.isSet = false →
        ((List.range m).map pages).flatten.Pairwise (fun a b => a.macParams.before b.macParams)) := by
  obtain ⟨L, hinv, hports⟩ := PortsBelow.run ops emptyDb_init.inv portsBelow_init hops
  generalize run Fdb.init ops = s at *
  have h := hcoh.coherent hinv hports
  have hvid' : filter.filterByVid = true → filter.vid.toNat < MAX_VLAN_ENTRIES := fun hf => by
    have := hvid hf
    unfold VID_MAX at this
    unfold MAX_VLAN_ENTRIES
    omega
  -- the walk of the filter
  have hwalk : ∃ cookie xs, Walk s filter cookie xs ∧ xs.Nodup ∧
      (∀ i, i ∈ xs ↔ i ∈ s.fdbMap.values ∧ filter.matches (s.records i).macParams = true) ∧
      (filter.isSet = false → xs = s.fdbMap.values) := by
    by_cases hset : filter.isSet = true
    · obtain ⟨cookie, xs, hw, hnd, hmem⟩ := walk_filtered h hset hvid' hport
      exact ⟨cookie, xs, hw, hnd, hmem, fun hf => by rw [hset] at hf; cases hf⟩
    · have hset' : filter.isSet = false := by simpa using hset
      refine ⟨none, s.fdbMap.values, walk_all hinv hset', hinv.pool.values_nodup, fun i => ?_,
        fun _ => rfl⟩
      simp only [KeyFilter.isSet, Bool.or_eq_false_iff] at hset'
      simp [KeyFilter.matches, hset']
  obtain ⟨cookie, xs, hw, hnd, hmem, hall⟩ := hwalk
  obtain ⟨m, hlen, hbefore⟩ := Paging.exists_last_page xs (n := fun k => (n k).toNat) hn
  have hpages := getPages_eq hw hinv (fun x hx => ((hmem x).mp hx).1) unsupported start hvid hn
  have hflat : ((List.range m).map
      (fun k => (Paging.page xs (fun k => (n k).toNat) k).map s.records)).flatten =
      xs.map s.records := by
    have hall := congrArg (List.map s.records)
      (Paging.flatten_pages xs (fun k => (n k).toNat) m)
    rw [List.map_flatten, List.map_map, List.take_of_length_le hlen] at hall
    exact hall
  refine ⟨m, fun k => (Paging.page xs (fun k => (n k).toNat) k).map s.records, ?_, ?_, ?_, ?_⟩
  · intro k hk
    have hoff := hbefore k hk
    refine ⟨?_, ?_, ?_⟩
    · obtain ⟨as, x, hlast, -⟩ := Paging.page_split hoff (hn k)
      intro hnil
      rw [List.map_eq_nil_iff] at hnil
      rw [hnil] at hlast
      cases hlast
    · rw [List.length_map, Paging.page]
      exact List.length_take_le _ _
    · rw [hpages k (fun j hj => hbefore j (Nat.lt_trans hj hk)), if_pos hoff, List.length_map]
  · rw [hpages m hbefore, if_neg (Nat.not_lt.mpr hlen)]
  · rw [hflat]
    apply List.Perm.map
    rw [List.perm_ext_iff_of_nodup hnd (hinv.pool.values_nodup.filter _)]
    intro i
    rw [hmem, List.mem_filter]
  · intro hset
    rw [hflat, hall hset]
    exact records_sorted hinv

/-- Two records on one vid, read by vid with pages of one record. -/
theorem fdb_paging_complete_two : ∃ (m : Nat) (pages : Nat → List MacEntry),
    let ops := [.add (some ⟨⟨7, ⟨0, 0, 0, 0, 0, 2⟩, 5, .dynamic⟩, none, .ageable⟩),
      .add (some ⟨⟨7, ⟨0, 0, 0, 0, 0, 1⟩, 6, .dynamic⟩, none, .ageable⟩)]
    (∀ k, k < m → pages k ≠ [] ∧ (pages k).length ≤ (1 : UInt16).toNat ∧
      getPages 1 (run Fdb.init ops) ⟨true, 7, false, 0⟩ MacEntry.zero.macParams (fun _ => 1) k =
        some ⟨0, (pages k).length, pages k⟩) ∧
    getPages 1 (run Fdb.init ops) ⟨true, 7, false, 0⟩ MacEntry.zero.macParams (fun _ => 1) m =
      some ⟨-ENOENT, 0, []⟩ ∧
    ((List.range m).map pages).flatten.Perm ((run Fdb.init ops).matching ⟨true, 7, false, 0⟩) ∧
    ((⟨true, 7, false, 0⟩ : KeyFilter).isSet = false →
      ((List.range m).map pages).flatten.Pairwise (fun a b => a.macParams.before b.macParams)) := by
  have hadm : Admissible Fdb.init
      [.add (some ⟨⟨7, ⟨0, 0, 0, 0, 0, 2⟩, 5, .dynamic⟩, none, .ageable⟩),
        .add (some ⟨⟨7, ⟨0, 0, 0, 0, 0, 1⟩, 6, .dynamic⟩, none, .ageable⟩)] := by decide
  obtain ⟨L, h⟩ := Coherent.run _ coherent_init hadm
  exact fdb_paging_complete 1 _ (by simp [FdbOp.PortBelow]) h.indexCoherent _ (by decide) (by simp)
    _ _ (by simp)

/-- **Vid 4095 cannot be asked for**: `VID_MAX` is 4094, while records with vid 4095 are stored. -/
theorem fdb_paging_vid_4095 :
    ¬ ∀ (unsupported : Int) (ops : List FdbOp), (∀ op ∈ ops, op.PortBelow) →
      IndexCoherent (run Fdb.init ops) → ∀ (filter : KeyFilter),
      (filter.filterByVid = true → filter.vid.toNat < MAX_VLAN_ENTRIES) →
      (filter.filterByLogPort = true → filter.logPort.toNat < 2 ^ 32) →
      ∀ (start : MacParams) (n : Nat → UInt16), (∀ k, 1 ≤ (n k).toNat) →
      ∃ (m : Nat) (pages : Nat → List MacEntry),
        (∀ k, k < m → pages k ≠ [] ∧ (pages k).length ≤ (n k).toNat ∧
          getPages unsupported (run Fdb.init ops) filter start n k =
            some ⟨0, (pages k).length, pages k⟩) ∧
        getPages unsupported (run Fdb.init ops) filter start n m = some ⟨-ENOENT, 0, []⟩ ∧
        ((List.range m).map pages).flatten.Perm ((run Fdb.init ops).matching filter) ∧
        (filter.isSet = false → ((List.range m).map pages).flatten.Pairwise
          (fun a b => a.macParams.before b.macParams)) := by
  intro hall
  have hadm : Admissible Fdb.init
      [.add (some ⟨⟨4095, ⟨0, 0, 0, 0, 0, 1⟩, 5, .dynamic⟩, none, .ageable⟩)] := by decide
  obtain ⟨L, h⟩ := Coherent.run _ coherent_init hadm
  obtain ⟨m, pages, hpages, hend, -⟩ := hall 1 _ (by simp [FdbOp.PortBelow]) h.indexCoherent
    ⟨true, 4095, false, 0⟩ (by decide) (by simp) MacEntry.zero.macParams (fun _ => 1) (by simp)
  -- the first call is refused, so it is neither a page nor the end
  cases m with
  | zero =>
    revert hend
    decide
  | succ m =>
    have hfirst := (hpages 0 (Nat.succ_pos m)).2.2
    have herr : getPages 1 (run Fdb.init
        [.add (some ⟨⟨4095, ⟨0, 0, 0, 0, 0, 1⟩, 5, .dynamic⟩, none, .ageable⟩)])
        ⟨true, 4095, false, 0⟩ MacEntry.zero.macParams (fun _ => 1) 0 =
        some ⟨-EINVAL, 1, []⟩ := by decide
    rw [herr] at hfirst
    simp [EINVAL] at hfirst

end MlnxLib.CtrlLearn
