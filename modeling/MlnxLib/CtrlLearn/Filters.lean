import MlnxLib.Complib.Containers
import MlnxLib.CtrlLearn.Defs

/-!
# The filter lists of the FDB

Model of `lib_ctrl_learn_filters.c`.  Every record of the FDB carries three list items, and every
list is a ring of such items closed by the end item of its head:

* `fdb_vlan_list[vid]` — a fixed array of heads, with a count;
* `fbd_filter_map` — heads taken from `fdb_fltr_pool` on the first entry of a port or of a
  port and vid, and put back when the last one is de-linked (decided by `p_next == p_prev`).
  The `count` of these heads is forced to 0 by the source and not modelled.

The state `Fdb` also has the fields of `lib_ctrl_learn_uc_db.c`, whose records the filter
functions read.  Pointers to records and to heads are their indices in the pools; a pointer the
source tests against `NULL` is an `Option`.  Functions return their error code and the new state.
-/

set_option autoImplicit false

namespace MlnxLib.CtrlLearn

/-! ## State -/

/-- The list items of `fdb_uc_mac_entry_t`: `vid_fltr_entry`, `port_fltr_entry`,
`vid_port_fltr_entry`. -/
inductive FltrField where
  | vid
  | port
  | vidPort
  deriving DecidableEq, Repr

/-- The list items of the FDB: the end items of the list heads, and the items of the records. -/
inductive Node where
  | vlanEnd (vid : Nat)
  | fltrEnd (head : Nat)
  | entry (fld : FltrField) (macEntry : Nat)
  deriving DecidableEq, Repr

/-- The static data of `lib_ctrl_learn_uc_db.c` and `lib_ctrl_learn_filters.c`. -/
structure Fdb where
  fdbInitiated : Bool
  filtersInitiated : Bool
  mainDbPool : Pool
  fdbMap : QMap
  records : Nat → MacEntry
  fbdFilterMap : QMap
  fdbFltrPool : Pool
  links : Ring.Heap Node
  vlanCount : Nat → Nat

/-- The static data before the first call: zeroed memory. -/
def Fdb.zero : Fdb where
  fdbInitiated := false
  filtersInitiated := false
  mainDbPool := clPoolConstruct
  fdbMap := OrdMap.empty
  records := fun _ => MacEntry.zero
  fbdFilterMap := OrdMap.empty
  fdbFltrPool := clPoolConstruct
  links := fun _ => Ring.Link.null
  vlanCount := fun _ => 0

/-! ## Life cycle -/

/-- The links after `cl_qlist_init` of every list of `fdb_vlan_list`. -/
def initVlanLinks (h : Ring.Heap Node) : Ring.Heap Node
  | .vlanEnd v => if v < MAX_VLAN_ENTRIES then ⟨some (.vlanEnd v), some (.vlanEnd v)⟩ else h (.vlanEnd v)
  | n => h n

/-- The links after `cl_pool_init` of `fdb_fltr_pool`, whose memory is zeroed. -/
def zeroFltrLinks (h : Ring.Heap Node) : Ring.Heap Node
  | .fltrEnd _ => Ring.Link.null
  | n => h n

/-- `fdb_uc_db_filter_init`; `alloc` tells whether `cl_pool_init` gets its memory. -/
def fdbUcDbFilterInit (s : Fdb) (alloc : Bool) : Int × Fdb :=
  if s.filtersInitiated then (0, s) else
  let s := { s with
    links := initVlanLinks s.links
    vlanCount := fun v => if v < MAX_VLAN_ENTRIES then 0 else s.vlanCount v
    fbdFilterMap := OrdMap.empty }
  if !alloc then (-ENOMEM, { s with fdbFltrPool := clPoolConstruct }) else
  (0, { s with
    fdbFltrPool := clPoolInit MAX_FILTER_ENTRIES
    links := zeroFltrLinks s.links
    filtersInitiated := true })

/-- `fdb_uc_db_filter_get_first_record`. -/
def fdbUcDbFilterGetFirstRecord (s : Fdb) : Int × Option Nat :=
  if !s.filtersInitiated then (-EPERM, none) else (0, s.fbdFilterMap.head)

/-- The loop of `fdb_uc_db_filter_destroy`; `none` when the fuel does not suffice. -/
def fdbUcDbFilterDestroyLoop : Nat → Fdb → Option (Int × Fdb)
  | 0, _ => none
  | fuel + 1, s =>
    match fdbUcDbFilterGetFirstRecord s with
    | (err, fltrEntry) =>
      if err ≠ 0 then some (err, s) else
      match fltrEntry with
      | none => some (0, s)
      | some i => fdbUcDbFilterDestroyLoop fuel { s with
          fbdFilterMap := s.fbdFilterMap.removeItem i
          fdbFltrPool := clPoolPut s.fdbFltrPool i }

/-- `fdb_uc_db_filter_destroy`. -/
def fdbUcDbFilterDestroy (s : Fdb) : Option (Int × Fdb) :=
  if !s.filtersInitiated then some (-EPERM, s) else
  fdbUcDbFilterDestroyLoop (s.fbdFilterMap.count + 1) s

/-- `fdb_uc_db_filter_deinit`. -/
def fdbUcDbFilterDeinit (s : Fdb) : Option (Int × Fdb) :=
  if !s.filtersInitiated then some (-EPERM, s) else
  (fdbUcDbFilterDestroy s).map (fun r => orBail r (fun s =>
    (0, { s with fdbFltrPool := clPoolConstruct, filtersInitiated := false })))

/-! ## Linking and de-linking -/

/-- `link_entry_to_fltr_list`. -/
def linkEntryToFltrList (s : Fdb) (macEntry mapKey : Nat) (fld : FltrField) : Int × Fdb :=
  if !s.filtersInitiated then (-EPERM, s) else
  match s.fbdFilterMap.get mapKey with
  | some i =>
    (0, { s with links := clQlistInsertTail s.links (.fltrEnd i) (.entry fld macEntry) })
  | none =>
    match clPoolGet s.fdbFltrPool with
    | none => (ENOMEM, s)
    | some (i, pool) =>
      let links := clQlistInit (Ring.clear s.links (.fltrEnd i)) (.fltrEnd i)
      (0, { s with
        fdbFltrPool := pool
        fbdFilterMap := s.fbdFilterMap.insert mapKey i
        links := clQlistInsertTail links (.fltrEnd i) (.entry fld macEntry) })

/-- `delink_entry_from_fltr_list`. -/
def delinkEntryFromFltrList (s : Fdb) (macEntry mapKey : Nat) (fld : FltrField) : Int × Fdb :=
  if !s.filtersInitiated then (-EPERM, s) else
  let item := s.links (.entry fld macEntry)
  let lastDeleted := item.prev.isSome && decide (item.next = item.prev)
  if item.next.isSome && item.prev.isSome then
    let s := { s with
      links := Ring.clear (clPrimitiveRemove s.links (.entry fld macEntry)) (.entry fld macEntry) }
    if lastDeleted then
      match s.fbdFilterMap.get mapKey with
      | some i => (0, { s with
          fbdFilterMap := s.fbdFilterMap.removeItem i
          fdbFltrPool := clPoolPut s.fdbFltrPool i })
      | none => (-EPERM, s)
    else (0, s)
  else (-EPERM, s)

/-- `cl_qlist_insert_tail` on `fdb_vlan_list[vid]`. -/
def vlanListInsertTail (s : Fdb) (vid macEntry : Nat) : Fdb :=
  { s with
    links := clQlistInsertTail s.links (.vlanEnd vid) (.entry .vid macEntry)
    vlanCount := Function.update s.vlanCount vid (s.vlanCount vid + 1) }

/-- `cl_qlist_remove_item` on `fdb_vlan_list[vid]`, and the `memset` of the item after it. -/
def vlanListRemoveItem (s : Fdb) (vid macEntry : Nat) : Fdb :=
  { s with
    links := Ring.clear (clPrimitiveRemove s.links (.entry .vid macEntry)) (.entry .vid macEntry)
    vlanCount := Function.update s.vlanCount vid (s.vlanCount vid - 1) }

/-- `fdb_uc_db_filter_add_entry`. -/
def fdbUcDbFilterAddEntry (s : Fdb) (macEntry : Option Nat) : Int × Fdb :=
  if !s.filtersInitiated then (-EPERM, s) else
  match macEntry with
  | none => (-ENOENT, s)
  | some i =>
    let vid := (s.records i).macParams.vid
    let port := (s.records i).macParams.logPort
    if MAX_VLAN_ENTRIES ≤ vid.toNat then (-EPERM, s) else
    let s := vlanListInsertTail s vid.toNat i
    orBail (linkEntryToFltrList s i (buildPortKey port) .port) fun s =>
    linkEntryToFltrList s i (buildPortVidKey port vid) .vidPort

/-- `fdb_uc_db_filter_modified_entry`; the old entry is a copy whose `mac_params` alone are set. -/
def fdbUcDbFilterModifiedEntry (s : Fdb) (oldMacParams : MacParams) (newMacEntry : Nat) :
    Int × Fdb :=
  if !s.filtersInitiated then (-EPERM, s) else
  let oldLogPort := oldMacParams.logPort
  let newLogPort := (s.records newMacEntry).macParams.logPort
  let vid := (s.records newMacEntry).macParams.vid
  if oldLogPort ≠ newLogPort then
    orBail (delinkEntryFromFltrList s newMacEntry (buildPortKey oldLogPort) .port) fun s =>
    orBail (linkEntryToFltrList s newMacEntry (buildPortKey newLogPort) .port) fun s =>
    orBail (delinkEntryFromFltrList s newMacEntry (buildPortVidKey oldLogPort vid) .vidPort) fun s =>
    linkEntryToFltrList s newMacEntry (buildPortVidKey newLogPort vid) .vidPort
  else (0, s)

/-- The first step of `fdb_uc_db_filter_delete_entry`: out of the list of its vid, if linked. -/
def delinkVidEntry (s : Fdb) (macEntry : Nat) : Fdb :=
  if (s.links (.entry .vid macEntry)).next.isSome && (s.links (.entry .vid macEntry)).prev.isSome then
    vlanListRemoveItem s (s.records macEntry).macParams.vid.toNat macEntry
  else s

/-- `fdb_uc_db_filter_delete_entry`. -/
def fdbUcDbFilterDeleteEntry (s : Fdb) (macEntry : Nat) : Int × Fdb :=
  if !s.filtersInitiated then (-EPERM, s) else
  let s := delinkVidEntry s macEntry
  let params := (s.records macEntry).macParams
  orBail (delinkEntryFromFltrList s macEntry (buildPortKey params.logPort) .port) fun s =>
  delinkEntryFromFltrList s macEntry (buildPortVidKey params.logPort params.vid) .vidPort

/-! ## Walking a list -/

/-- The record a list item lies in.  The offset of the field is subtracted from any pointer; only
an item of that field gives a record, and `none` stands for a pointer to no record. -/
def parentStruct (fld : FltrField) : Node → Option Nat
  | .entry f i => if f = fld then some i else none
  | _ => none

/-- The first entry of a list and its list cookie, the item before it; `none` where the source
would dereference a pointer to no record. -/
def firstOfList (s : Fdb) (endItem : Node) (fld : FltrField) :
    Option (Int × Option Node × Option Nat) :=
  match clQlistHead s.links endItem with
  | none => none
  | some head => (parentStruct fld head).map (fun i => (0, (s.links head).prev, some i))

/-- `fdb_uc_db_filter_get_first_entry`: the error code, the list cookie and the entry. -/
def fdbUcDbFilterGetFirstEntry (s : Fdb) (filter : KeyFilter) :
    Option (Int × Option Node × Option Nat) :=
  if !s.filtersInitiated then some (-EPERM, none, none) else
  match filter.filterByLogPort, filter.filterByVid with
  | true, true =>
    match s.fbdFilterMap.get (buildPortVidKey filter.logPort filter.vid) with
    | some i => firstOfList s (.fltrEnd i) .vidPort
    | none => some (0, none, none)
  | true, false =>
    match s.fbdFilterMap.get (buildPortKey filter.logPort) with
    | some i => firstOfList s (.fltrEnd i) .port
    | none => some (0, none, none)
  | false, true =>
    -- `cl_is_qlist_empty` looks at the count; the source does not check the vid, and reads behind `fdb_vlan_list`
    -- where the list here is empty (see `getFirstAccesses`)
    if s.vlanCount filter.vid.toNat = 0 then some (0, none, none)
    else firstOfList s (.vlanEnd filter.vid.toNat) .vid
  | false, false => some (EINVAL, none, none)

/-- The list field a filter walks. -/
def KeyFilter.field (filter : KeyFilter) : Option FltrField :=
  match filter.filterByLogPort, filter.filterByVid with
  | true, true => some .vidPort
  | true, false => some .port
  | false, true => some .vid
  | false, false => none

/-- `fdb_uc_db_filter_get_next_entry`: the error code and the entry. -/
def fdbUcDbFilterGetNextEntry (s : Fdb) (filter : KeyFilter) (listCookie : Option Node)
    (macItem : Option Nat) : Option (Int × Option Nat) :=
  if !s.filtersInitiated then some (-EPERM, none) else
  match macItem, listCookie with
  | none, _ => some (-ENOENT, none)
  | some _, none => some (-ENOENT, none)
  | some i, some cookie =>
    match filter.field with
    | none => some (-EINVAL, none)
    | some fld =>
      match clQlistNext s.links (.entry fld i) with
      | none => none
      | some next =>
        if next = cookie then some (0, none) else (parentStruct fld next).map (fun j => (0, some j))

/-! ## Counting -/

/-- `fdb_uc_db_filter_get_number_of_vid_entries`. -/
def fdbUcDbFilterGetNumberOfVidEntries (s : Fdb) (vid : UInt16) : Int × Nat :=
  if !s.filtersInitiated then (-EPERM, 0) else
  if MAX_VLAN_ENTRIES ≤ vid.toNat then (0, 0) else (0, s.vlanCount vid.toNat)

/-- The counting loop over a list: `none` when the fuel does not suffice or a link is null. -/
def countEntries (h : Ring.Heap Node) (endItem : Node) : Nat → Node → Nat → Option Nat
  | 0, _, _ => none
  | fuel + 1, itor, count =>
    if itor = endItem then some count else
    match clQlistNext h itor with
    | some n => countEntries h endItem fuel n (count + 1)
    | none => none

/-- The number of steps any list of the FDB takes. -/
def LIST_FUEL : Nat := MAX_FDB_ENTRIES + 1

/-- The list walk shared by the two functions below. -/
def getNumberOfFltrEntries (s : Fdb) (mapKey : Nat) : Option (Int × Nat) :=
  if !s.filtersInitiated then some (-EPERM, 0) else
  match s.fbdFilterMap.get mapKey with
  | some i =>
    match clQlistHead s.links (.fltrEnd i) with
    | some itor => (countEntries s.links (.fltrEnd i) LIST_FUEL itor 0).map (fun c => (0, c))
    | none => none
  | none => some (0, 0)

/-- `fdb_uc_db_filter_get_number_of_port_entries`. -/
def fdbUcDbFilterGetNumberOfPortEntries (s : Fdb) (port : UInt64) : Option (Int × Nat) :=
  getNumberOfFltrEntries s (buildPortKey port)

/-- `fdb_uc_db_filter_get_number_of_port_vid_entries`. -/
def fdbUcDbFilterGetNumberOfPortVidEntries (s : Fdb) (port : UInt64) (vid : UInt16) :
    Option (Int × Nat) :=
  getNumberOfFltrEntries s (buildPortVidKey port vid)

end MlnxLib.CtrlLearn
