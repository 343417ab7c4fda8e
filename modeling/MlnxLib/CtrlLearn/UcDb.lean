import MlnxLib.CtrlLearn.Filters

/-!
# The unicast MAC database

Model of `lib_ctrl_learn_uc_db.c` over the state `Fdb`: records are objects of `main_db_pool`,
stored in `fdb_map` under the key of their MAC address and vid, and indexed by the filter lists.

* `fdbUcDbAddRecord` — creates or overwrites the record first, then links it (new key) or moves
  it between the lists of its old and its new port (known key).
* `fdbUcDbDeleteRecord` — de-links the record, then takes it out of the map and frees it.
* `FdbOp`, `run` — sequences of these two calls, with any arguments and any return codes.
-/

set_option autoImplicit false

namespace MlnxLib.CtrlLearn

/-! ## Life cycle -/

/-- The links after `cl_pool_init` of `main_db_pool`, whose memory is zeroed. -/
def zeroEntryLinks (h : Ring.Heap Node) : Ring.Heap Node
  | .entry _ _ => Ring.Link.null
  | n => h n

/-- `fdb_uc_db_init`; the flags tell which `cl_pool_init` gets its memory. -/
def fdbUcDbInit (s : Fdb) (mainAlloc filterAlloc : Bool) : Int × Fdb :=
  if s.fdbInitiated then (0, s) else
  let s := { s with fdbMap := OrdMap.empty, mainDbPool := clPoolConstruct }
  if !mainAlloc then (-EPERM, s) else
  let s := { s with
    mainDbPool := clPoolInit MAX_FDB_ENTRIES
    records := fun _ => MacEntry.zero
    links := zeroEntryLinks s.links }
  match fdbUcDbFilterInit s filterAlloc with
  | (err, s) => if err ≠ 0 then (-EPERM, s) else (0, { s with fdbInitiated := true })

/-- `fdb_uc_db_get_first_record`. -/
def fdbUcDbGetFirstRecord (s : Fdb) : Int × Option Nat :=
  if !s.fdbInitiated then (-EPERM, none) else (0, s.fdbMap.head)

/-- The loop of `fdb_uc_db_destroy`; `none` when the fuel does not suffice. -/
def fdbUcDbDestroyLoop : Nat → Fdb → Option (Int × Fdb)
  | 0, _ => none
  | fuel + 1, s =>
    match fdbUcDbGetFirstRecord s with
    | (err, macEntry) =>
      if err ≠ 0 then some (err, s) else
      match macEntry with
      | none => some (0, s)
      | some i => fdbUcDbDestroyLoop fuel { s with
          fdbMap := s.fdbMap.removeItem i
          mainDbPool := clPoolPut s.mainDbPool i }

/-- `fdb_uc_db_destroy`. -/
def fdbUcDbDestroy (s : Fdb) : Option (Int × Fdb) :=
  if !s.fdbInitiated then some (-EPERM, s) else fdbUcDbDestroyLoop (s.fdbMap.count + 1) s

/-- `fdb_uc_db_deinit`. -/
def fdbUcDbDeinit (s : Fdb) : Option (Int × Fdb) :=
  if !s.fdbInitiated then some (-EPERM, s) else
  (fdbUcDbDestroy s).bind fun r =>
    if r.1 ≠ 0 then some (-EPERM, r.2) else
    (fdbUcDbFilterDeinit { r.2 with mainDbPool := clPoolConstruct }).map fun r =>
      if r.1 ≠ 0 then (-EPERM, r.2) else (0, { r.2 with fdbInitiated := false })

/-! ## Lookup -/

/-- `fdb_uc_db_next_record`. -/
def fdbUcDbNextRecord (s : Fdb) (macEntry : Option Nat) : Int × Option Nat :=
  if !s.fdbInitiated then (-EPERM, none) else
  match macEntry with
  | none => (-EPERM, none)
  | some i => (0, s.fdbMap.next i)

/-- `fdb_uc_db_get_record_by_key`. -/
def fdbUcDbGetRecordByKey (s : Fdb) (macKey : Nat) : Int × Option Nat :=
  if !s.fdbInitiated then (-EPERM, none) else
  match s.fdbMap.get macKey with
  | some i => (0, some i)
  | none => (-ENOENT, none)

/-- `fdb_uc_db_get_free_pool_count`. -/
def fdbUcDbGetFreePoolCount (s : Fdb) : Int × Nat :=
  if !s.fdbInitiated then (-EPERM, 0) else (0, clPoolCount s.mainDbPool)

/-! ## Adding and deleting -/

/-- `MEM_CLR_P` of a record: its payload and its three list items. -/
def clearRecord (s : Fdb) (i : Nat) : Fdb :=
  { s with
    records := Function.update s.records i MacEntry.zero
    links := Ring.clear (Ring.clear (Ring.clear s.links (.entry .vid i)) (.entry .port i))
      (.entry .vidPort i) }

/-- `fdb_uc_db_create_record`. -/
def fdbUcDbCreateRecord (s : Fdb) (macKey : Nat) : Int × Fdb × Option Nat :=
  if !s.fdbInitiated then (-EPERM, s, none) else
  match clPoolGet s.mainDbPool with
  | none => (-ENOMEM, s, none)
  | some (i, pool) =>
    let s := clearRecord { s with mainDbPool := pool } i
    (0, { s with fdbMap := s.fdbMap.insert macKey i }, some i)

/-- `set_record`. -/
def setRecord (s : Fdb) (cur : Nat) (new : MacEntry) : Fdb :=
  { s with records := Function.update s.records cur new }

/-- `fdb_uc_db_add_record`. -/
def fdbUcDbAddRecord (s : Fdb) (macEntry : Option MacEntry) : Int × Fdb :=
  if !s.fdbInitiated then (-EPERM, s) else
  match macEntry with
  | none => (-EPERM, s)
  | some e =>
    let dbKey := fdbUcConvertMacVlanToKey e.macParams.macAddr e.macParams.vid
    match fdbUcDbGetRecordByKey s dbKey with
    | (err, none) =>
      if err = -ENOENT then
        match fdbUcDbCreateRecord s dbKey with
        | (_, s, some i) => fdbUcDbFilterAddEntry (setRecord s i e) (some i)
        | (err, s, none) => (err, s)
      else (err, s)
    | (_, some i) =>
      let oldMacParams := (s.records i).macParams
      fdbUcDbFilterModifiedEntry (setRecord s i e) oldMacParams i

/-- `fdb_uc_db_delete_record`. -/
def fdbUcDbDeleteRecord (s : Fdb) (macEntry : Option Nat) : Int × Fdb :=
  if !s.fdbInitiated then (-EPERM, s) else
  match macEntry with
  | none => (-EPERM, s)
  | some i =>
    orBail (fdbUcDbFilterDeleteEntry s i) fun s =>
    (0, { s with
      fdbMap := s.fdbMap.removeItem i
      mainDbPool := clPoolPut s.mainDbPool i })

/-! ## Runs -/

/-- A call of the database: `fdb_uc_db_add_record` or `fdb_uc_db_delete_record`. -/
inductive FdbOp where
  | add (macEntry : Option MacEntry)
  | delete (macEntry : Option Nat)
  deriving DecidableEq, Repr

/-- One call; the state it leaves, whatever it returns. -/
def FdbOp.step (s : Fdb) : FdbOp → Fdb
  | .add e => (fdbUcDbAddRecord s e).2
  | .delete i => (fdbUcDbDeleteRecord s i).2

/-- A run of calls. -/
def run (s : Fdb) (ops : List FdbOp) : Fdb := ops.foldl FdbOp.step s

/-- The state after the first `fdb_uc_db_init`. -/
def Fdb.init : Fdb := (fdbUcDbInit Fdb.zero true true).2

/-- A dynamic, ageable entry whose MAC address ends in `mac`, without a cookie. -/
def station (vid : UInt16) (mac : UInt8) (port : UInt64) : MacEntry :=
  ⟨⟨vid, ⟨0, 0, 0, 0, 0, mac⟩, port, .dynamic⟩, none, .ageable⟩

/-- Two stations of VLAN 7, on the ports 5 and 6. -/
def twoStations : List FdbOp := [.add (some (station 7 1 5)), .add (some (station 7 2 6))]

/-- The record of a key, as a value. -/
def Fdb.lookup (s : Fdb) (k : Nat) : Option MacEntry := (s.fdbMap.get k).map s.records

end MlnxLib.CtrlLearn
