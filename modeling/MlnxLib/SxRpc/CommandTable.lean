import Mathlib.Data.UInt
import Mathlib.Order.Nat
import MlnxLib.Lib.OrdMap
import MlnxLib.SxRpc.Defs

/-!
# The command table

Model of `sx_rpc_api_rpc_command_db_init`, `sx_rpc_api_rpc_command_db_deinit` and of the functions of
`sx_rpc_common.c` that they and the dispatcher use for `cmd_map`, the map from command ids to entries.

* `ApiCommand` — an element of the table; `F` is the type of its callback.
* `CommandDb` — the map, and the memory of its entries, which are numbered in the order of their allocation.
* `sxRpcCoreApiCommandSet`, `sxRpcCmdTableInit`, `sxRpcCmdTableDeinit`, `sxRpcCoreApiCommandGet`.
* `LoadComplete` — a load that succeeds has registered the whole table, and a deinit frees it.

An element of the table comes with the answer of `cl_malloc`, for the case that it is called.  The lock is
free, and logging is left out.

Principal results: `tableInit_get` — what is registered after a load; `tableDeinit_spec` — a deinit frees each
entry; `load_complete_iff` — when a load that succeeds is complete.
-/

set_option autoImplicit false

namespace MlnxLib.SxRpc

variable {F : Type}

/-! ## The map -/

/-- `sx_rpc_api_command_t`. -/
structure ApiCommand (F : Type) where
  cmdId : Int32
  name : List UInt8
  func : F
  priority : CmdPriority

/-- The key of a command id, which is converted from `int` to `uint64_t`. -/
def cmdKey (cmdId : Int32) : Nat := cmdId.toInt64.toUInt64.toNat

/-- `sx_rpc_cmd_db_data`: the map, and the commands in its entries. -/
structure CommandDb (F : Type) where
  cmdMap : OrdMap Nat Nat
  entries : Nat → Option (ApiCommand F)
  allocated : Nat

/-- `sx_rpc_core_api_command_set`. -/
def sxRpcCoreApiCommandSet (db : CommandDb F) (cmdData : ApiCommand F) (malloc : Bool) : Int32 × CommandDb F :=
  match db.cmdMap.get (cmdKey cmdData.cmdId) with
  | none =>
    -- `goto out` without an error code
    if malloc = false then (STATUS_SUCCESS, db)
    else (STATUS_SUCCESS, {
      cmdMap := db.cmdMap.insert (cmdKey cmdData.cmdId) db.allocated
      entries := Function.update db.entries db.allocated (some cmdData)
      allocated := db.allocated + 1 })
  | some entry => (STATUS_SUCCESS, { db with entries := Function.update db.entries entry (some cmdData) })

/-- `sx_rpc_cmd_table_init`. -/
def sxRpcCmdTableInit : CommandDb F → List (ApiCommand F × Bool) → Int32 × CommandDb F
  | db, [] => (STATUS_SUCCESS, db)
  | db, (cmdData, malloc) :: table =>
    let r := sxRpcCoreApiCommandSet db cmdData malloc
    if r.1 ≠ 0 then (STATUS_ERROR, r.2) else sxRpcCmdTableInit r.2 table

/-- `sx_rpc_api_rpc_command_db_init`, with the answer of `cl_plock_init`. -/
def sxRpcApiRpcCommandDbInit (db : CommandDb F) (plock : Bool) (table : List (ApiCommand F × Bool)) :
    Int32 × CommandDb F :=
  let db := { db with cmdMap := OrdMap.empty }
  if plock = false then (STATUS_ERROR, db) else sxRpcCmdTableInit db table

/-- `sx_rpc_core_api_command_get`, with what it copies to `*cmd_data`. -/
def sxRpcCoreApiCommandGet (db : CommandDb F) (cmdId : Int32) : Int32 × Option (ApiCommand F) :=
  match db.cmdMap.get (cmdKey cmdId) with
  | none => (STATUS_ERROR, none)
  | some entry => (STATUS_SUCCESS, db.entries entry)

/-- The loop of `sx_rpc_cmd_table_deinit`, with the entries that it has freed; `none` when the fuel does not
suffice. -/
def tableDeinitLoop : Nat → CommandDb F → List Nat → Option Nat → Option (CommandDb F × List Nat)
  | _, db, freed, none => some (db, freed)
  | 0, _, _, some _ => none
  | fuel + 1, db, freed, some mapItem =>
    tableDeinitLoop fuel { db with
      cmdMap := db.cmdMap.removeItem mapItem
      entries := Function.update db.entries mapItem none } (freed ++ [mapItem]) (db.cmdMap.next mapItem)

/-- `sx_rpc_cmd_table_deinit`, which never fails, and so `sx_rpc_api_rpc_command_db_deinit`. -/
def sxRpcCmdTableDeinit (db : CommandDb F) : Option (CommandDb F × List Nat) :=
  tableDeinitLoop db.cmdMap.count db [] db.cmdMap.head

/-! ## Loading -/

/-- The conversion of the command ids. -/
theorem cmdKey_injective : Function.Injective cmdKey := by
  intro a b h
  have hu : a.toInt64.toUInt64 = b.toInt64.toUInt64 := UInt64.toNat.inj h
  have hi : a.toInt64 = b.toInt64 := congrArg Int64.ofUInt64 hu
  rw [← Int32.toInt_inj, ← Int32.toInt_toInt64, hi, Int32.toInt_toInt64]

/-- The entries of the map are different, and in use. -/
structure EntriesInv (db : CommandDb F) : Prop where
  nodup : db.cmdMap.values.Nodup
  allocated : ∀ entry ∈ db.cmdMap.values, entry < db.allocated
  written : ∀ entry ∈ db.cmdMap.values, (db.entries entry).isSome

/-- The command that is registered with an id. -/
def registeredCommand (db : CommandDb F) (cmdId : Int32) : Option (ApiCommand F) :=
  (db.cmdMap.get (cmdKey cmdId)).bind db.entries

section

variable {db : CommandDb F}

theorem entriesInv_empty (db : CommandDb F) : EntriesInv { db with cmdMap := OrdMap.empty } :=
  ⟨List.nodup_nil, List.forall_mem_nil _, List.forall_mem_nil _⟩

/-- A lookup yields the command that is registered. -/
theorem commandGet_eq (h : EntriesInv db) (cmdId : Int32) : sxRpcCoreApiCommandGet db cmdId =
    (if (registeredCommand db cmdId).isSome then STATUS_SUCCESS else STATUS_ERROR,
      registeredCommand db cmdId) := by
  unfold sxRpcCoreApiCommandGet registeredCommand
  cases hget : db.cmdMap.get (cmdKey cmdId) with
  | none => rfl
  | some entry =>
    rw [Option.bind_some, if_pos (h.written entry (OrdMap.get_mem_values hget))]

/-- A command in an entry of its own. -/
theorem EntriesInv.insert (h : EntriesInv db) (cmdData : ApiCommand F)
    (hnew : db.cmdMap.get (cmdKey cmdData.cmdId) = none) :
    EntriesInv ⟨db.cmdMap.insert (cmdKey cmdData.cmdId) db.allocated,
      Function.update db.entries db.allocated (some cmdData), db.allocated + 1⟩ := by
  have hperm := OrdMap.values_insert db.allocated hnew
  have hfresh : db.allocated ∉ db.cmdMap.values := fun hmem => Nat.lt_irrefl _ (h.allocated _ hmem)
  refine ⟨hperm.nodup_iff.mpr (List.nodup_cons.mpr ⟨hfresh, h.nodup⟩), fun entry hentry => ?_, fun entry hentry => ?_⟩
  · rcases List.mem_cons.mp (hperm.mem_iff.mp hentry) with rfl | hold
    · exact Nat.lt_succ_self _
    · exact Nat.lt_succ_of_lt (h.allocated entry hold)
  · dsimp only
    by_cases heq : entry = db.allocated
    · rw [heq, Function.update_self]
      rfl
    · rw [Function.update_of_ne heq]
      exact h.written entry ((List.mem_cons.mp (hperm.mem_iff.mp hentry)).resolve_left heq)

/-- What is registered after a command got an entry of its own. -/
theorem registeredCommand_insert (h : EntriesInv db) (cmdData : ApiCommand F)
    (hnew : db.cmdMap.get (cmdKey cmdData.cmdId) = none) (cmdId : Int32) :
    registeredCommand ⟨db.cmdMap.insert (cmdKey cmdData.cmdId) db.allocated,
      Function.update db.entries db.allocated (some cmdData), db.allocated + 1⟩ cmdId =
      if cmdId = cmdData.cmdId then some cmdData else registeredCommand db cmdId := by
  unfold registeredCommand
  dsimp only
  rw [OrdMap.get_insert _ hnew]
  by_cases heq : cmdId = cmdData.cmdId
  · rw [if_pos heq, if_pos (congrArg cmdKey heq), Option.bind_some, Function.update_self]
  · rw [if_neg heq, if_neg fun hkey => heq (cmdKey_injective hkey)]
    cases hget : db.cmdMap.get (cmdKey cmdId) with
    | none => rfl
    | some entry =>
      have hlt := h.allocated entry (OrdMap.get_mem_values hget)
      rw [Option.bind_some, Option.bind_some, Function.update_of_ne (Nat.ne_of_lt hlt)]

/-- A command in the entry that its id has. -/
theorem EntriesInv.overwrite (h : EntriesInv db) (cmdData : ApiCommand F) (entry : Nat) :
    EntriesInv { db with entries := Function.update db.entries entry (some cmdData) } := by
  refine ⟨h.nodup, h.allocated, fun other hother => ?_⟩
  dsimp only
  by_cases heq : other = entry
  · rw [heq, Function.update_self]
    rfl
  · rw [Function.update_of_ne heq]
    exact h.written other hother

theorem registeredCommand_overwrite (h : EntriesInv db) (cmdData : ApiCommand F) {entry : Nat}
    (hold : db.cmdMap.get (cmdKey cmdData.cmdId) = some entry) (cmdId : Int32) :
    registeredCommand { db with entries := Function.update db.entries entry (some cmdData) } cmdId =
      if cmdId = cmdData.cmdId then some cmdData else registeredCommand db cmdId := by
  unfold registeredCommand
  dsimp only
  by_cases heq : cmdId = cmdData.cmdId
  · rw [if_pos heq, heq, hold, Option.bind_some, Function.update_self]
  · rw [if_neg heq]
    cases hget : db.cmdMap.get (cmdKey cmdId) with
    | none => rfl
    | some other =>
      rw [Option.bind_some, Option.bind_some, Function.update_of_ne]
      rintro rfl
      exact heq (cmdKey_injective (OrdMap.key_unique h.nodup hget hold))

/-- **One element of the table**: it is registered, unless its id is new and there is no memory. -/
theorem commandSet_spec (h : EntriesInv db) (cmdData : ApiCommand F) (malloc : Bool) :
    (sxRpcCoreApiCommandSet db cmdData malloc).1 = STATUS_SUCCESS ∧
    EntriesInv (sxRpcCoreApiCommandSet db cmdData malloc).2 ∧
    ∀ cmdId, registeredCommand (sxRpcCoreApiCommandSet db cmdData malloc).2 cmdId =
      if cmdId = cmdData.cmdId ∧ ((registeredCommand db cmdId).isSome ∨ malloc = true) then some cmdData
      else registeredCommand db cmdId := by
  unfold sxRpcCoreApiCommandSet
  cases hget : db.cmdMap.get (cmdKey cmdData.cmdId) with
  | none =>
    have hnone : registeredCommand db cmdData.cmdId = none := by
      unfold registeredCommand
      rw [hget]
      rfl
    cases malloc with
    | false =>
      refine ⟨rfl, h, fun cmdId => (if_neg fun hset => ?_).symm⟩
      obtain ⟨rfl, hsome | hmalloc⟩ := hset
      · rw [hnone] at hsome
        cases hsome
      · cases hmalloc
    | true =>
      refine ⟨rfl, h.insert cmdData hget, fun cmdId => ?_⟩
      exact (registeredCommand_insert h cmdData hget cmdId).trans
        (if_congr (and_iff_left (Or.inr rfl)).symm rfl rfl)
  | some entry =>
    have hsome : (registeredCommand db cmdData.cmdId).isSome := by
      unfold registeredCommand
      rw [hget]
      exact h.written entry (OrdMap.get_mem_values hget)
    refine ⟨rfl, h.overwrite cmdData entry, fun cmdId => ?_⟩
    exact (registeredCommand_overwrite h cmdData hget cmdId).trans
      (if_congr (and_iff_left_of_imp fun heq => Or.inl (heq ▸ hsome)).symm rfl rfl)

/-- The command of an id after a table, and the one before. -/
def loaded (cmdId : Int32) (table : List (ApiCommand F × Bool)) (old : Option (ApiCommand F)) :
    Option (ApiCommand F) :=
  table.foldl (fun r x => if cmdId = x.1.cmdId ∧ (r.isSome ∨ x.2 = true) then some x.1 else r) old

/-- **The loop over the table** never fails, and registers what there is memory for. -/
theorem tableInit_get : ∀ (table : List (ApiCommand F × Bool)) {db : CommandDb F}, EntriesInv db →
    (sxRpcCmdTableInit db table).1 = STATUS_SUCCESS ∧ EntriesInv (sxRpcCmdTableInit db table).2 ∧
    ∀ cmdId, registeredCommand (sxRpcCmdTableInit db table).2 cmdId =
      loaded cmdId table (registeredCommand db cmdId)
  | [], _, h => ⟨rfl, h, fun _ => rfl⟩
  | (cmdData, malloc) :: table, db, h => by
    obtain ⟨herr, hinv, hget⟩ := commandSet_spec h cmdData malloc
    obtain ⟨herr', hinv', hget'⟩ := tableInit_get table hinv
    have hstep : sxRpcCmdTableInit db ((cmdData, malloc) :: table) =
        sxRpcCmdTableInit (sxRpcCoreApiCommandSet db cmdData malloc).2 table := by
      rw [sxRpcCmdTableInit]
      exact if_neg (not_not.mpr herr)
    rw [hstep]
    refine ⟨herr', hinv', fun cmdId => ?_⟩
    rw [hget', hget]
    rfl

/-- There is memory for an id at one of its elements. -/
theorem isSome_loaded (cmdId : Int32) : ∀ (table : List (ApiCommand F × Bool)) (old : Option (ApiCommand F)),
    (loaded cmdId table old).isSome ↔ old.isSome ∨ ∃ x ∈ table, x.1.cmdId = cmdId ∧ x.2 = true
  | [], old => by simp [loaded]
  | x :: table, old => by
    rw [show loaded cmdId (x :: table) old = loaded cmdId table
      (if cmdId = x.1.cmdId ∧ (old.isSome ∨ x.2 = true) then some x.1 else old) from rfl,
      isSome_loaded cmdId table]
    split
    · rename_i hset
      rw [List.exists_mem_cons_iff]
      obtain ⟨heq, hold | hmalloc⟩ := hset
      · simp [hold]
      · simp [heq, hmalloc]
    · rename_i hskip
      rw [List.exists_mem_cons_iff]
      by_cases hold : old.isSome
      · simp [hold]
      · have hx : ¬(x.1.cmdId = cmdId ∧ x.2 = true) := fun hx => hskip ⟨hx.1.symm, Or.inr hx.2⟩
        simp [hold, hx]

/-- The elements with other ids leave a command as it is. -/
theorem loaded_of_absent (cmdId : Int32) : ∀ (table : List (ApiCommand F × Bool)) (old : Option (ApiCommand F)),
    (∀ x ∈ table, x.1.cmdId ≠ cmdId) → loaded cmdId table old = old
  | [], _, _ => rfl
  | x :: table, old, h => by
    have hx := h x (List.mem_cons_self ..)
    rw [show loaded cmdId (x :: table) old = loaded cmdId table
      (if cmdId = x.1.cmdId ∧ (old.isSome ∨ x.2 = true) then some x.1 else old) from rfl,
      if_neg fun hset => hx hset.1.symm]
    exact loaded_of_absent cmdId table old fun y hy => h y (List.mem_cons_of_mem x hy)

/-- **The last element with an id** is the one that is registered, if there is memory for any. -/
theorem loaded_last {before after : List (ApiCommand F × Bool)} {x : ApiCommand F × Bool}
    (hafter : ∀ y ∈ after, y.1.cmdId ≠ x.1.cmdId)
    (hsome : (loaded x.1.cmdId (before ++ x :: after) none).isSome) :
    loaded x.1.cmdId (before ++ x :: after) none = some x.1 := by
  have hsplit : loaded x.1.cmdId (before ++ x :: after) none = loaded x.1.cmdId [x]
      (loaded x.1.cmdId before none) := by
    rw [← loaded_of_absent x.1.cmdId after (loaded x.1.cmdId [x] _) hafter]
    unfold loaded
    rw [List.foldl_append, List.foldl_cons]
    rfl
  rw [hsplit] at hsome ⊢
  have hone : loaded x.1.cmdId [x] (loaded x.1.cmdId before none) =
      if x.1.cmdId = x.1.cmdId ∧ ((loaded x.1.cmdId before none).isSome ∨ x.2 = true) then some x.1
      else loaded x.1.cmdId before none := rfl
  rw [hone] at hsome ⊢
  split
  · rfl
  · rename_i hskip
    rw [if_neg hskip] at hsome
    exact absurd ⟨rfl, Or.inl hsome⟩ hskip

end

/-! ## Freeing -/

/-- **The loop of the deinit** frees the entries that it has before it, in their order. -/
theorem tableDeinitLoop_spec : ∀ (rest : List Nat) (fuel : Nat) (db : CommandDb F) (freed : List Nat),
    db.cmdMap.values = rest → rest.Nodup → rest.length ≤ fuel →
      ∃ db', tableDeinitLoop fuel db freed rest.head? = some (db', freed ++ rest) ∧
        db'.cmdMap.values = []
  | [], fuel, db, freed, hvalues, _, _ => by
    refine ⟨db, ?_, hvalues⟩
    rw [List.append_nil]
    cases fuel <;> rfl
  | item :: rest, 0, _, _, _, _, hfuel => absurd hfuel (Nat.not_succ_le_zero _)
  | item :: rest, fuel + 1, db, freed, hvalues, hnodup, hfuel => by
    obtain ⟨hnot, hrest⟩ := List.nodup_cons.mp hnodup
    have hsplit : db.cmdMap.values = [] ++ item :: rest := hvalues
    have hnext : db.cmdMap.next item = rest.head? := OrdMap.next_of_split (hvalues ▸ hnodup) hsplit
    have hremoved : (db.cmdMap.removeItem item).values = rest := by
      rw [OrdMap.values_removeItem, hvalues, List.filter_cons_of_neg (by simp), List.filter_eq_self]
      intro other hother
      exact decide_eq_true fun heq => hnot (heq ▸ hother)
    obtain ⟨db', hloop, hempty⟩ := tableDeinitLoop_spec rest fuel { db with
      cmdMap := db.cmdMap.removeItem item
      entries := Function.update db.entries item none } (freed ++ [item]) hremoved hrest (by
        rw [List.length_cons] at hfuel
        omega)
    refine ⟨db', ?_, hempty⟩
    rw [List.head?_cons, tableDeinitLoop, hnext, hloop, List.append_assoc, List.singleton_append]

/-- The map is empty, and each of its entries was freed once. -/
structure Emptied (db db' : CommandDb F) (freed : List Nat) : Prop where
  empty : db'.cmdMap.values = []
  once : freed.Nodup
  all : ∀ entry, entry ∈ freed ↔ entry ∈ db.cmdMap.values

/-- **A deinit** ends, empties the map and frees each entry once. -/
theorem tableDeinit_spec {db : CommandDb F} (h : EntriesInv db) :
    ∃ db' freed, sxRpcCmdTableDeinit db = some (db', freed) ∧ Emptied db db' freed := by
  obtain ⟨db', hloop, hempty⟩ := tableDeinitLoop_spec db.cmdMap.values db.cmdMap.count db [] rfl h.nodup
    (OrdMap.length_values db.cmdMap).le
  refine ⟨db', db.cmdMap.values, ?_, hempty, h.nodup, fun _ => Iff.rfl⟩
  unfold sxRpcCmdTableDeinit
  rw [OrdMap.head_eq, hloop, List.nil_append]

/-! ## Complete loads -/

/-- The lookups succeed for the ids of the table, and yield the last element with the id. -/
structure Loaded (db : CommandDb F) (table : List (ApiCommand F)) : Prop where
  registered : ∀ cmdId, (sxRpcCoreApiCommandGet db cmdId).1 = STATUS_SUCCESS ↔ ∃ x ∈ table, x.cmdId = cmdId
  last : ∀ before x after, table = before ++ x :: after → (∀ y ∈ after, y.cmdId ≠ x.cmdId) →
    sxRpcCoreApiCommandGet db x.cmdId = (STATUS_SUCCESS, some x)

/-- **A load that succeeds is complete**, and a deinit undoes it. -/
def LoadComplete (db : CommandDb F) (plock : Bool) (table : List (ApiCommand F × Bool)) : Prop :=
  (sxRpcApiRpcCommandDbInit db plock table).1 = STATUS_SUCCESS →
    Loaded (sxRpcApiRpcCommandDbInit db plock table).2 (table.map Prod.fst) ∧
    ∃ db' freed, sxRpcCmdTableDeinit (sxRpcApiRpcCommandDbInit db plock table).2 = some (db', freed) ∧
      Emptied (sxRpcApiRpcCommandDbInit db plock table).2 db' freed

/-- **The command table.**  For every table and all answers, a load that succeeds is complete if and only if
the lock cannot be initialised, or there is memory at some element of each id. -/
theorem load_complete_iff (db : CommandDb F) (plock : Bool) (table : List (ApiCommand F × Bool)) :
    LoadComplete db plock table ↔
      (plock = true → ∀ x ∈ table, ∃ y ∈ table, y.1.cmdId = x.1.cmdId ∧ y.2 = true) := by
  cases plock with
  | false =>
    refine iff_of_true (fun hok => ?_) (fun hplock => by cases hplock)
    have herr : (sxRpcApiRpcCommandDbInit db false table).1 = STATUS_ERROR := rfl
    rw [herr] at hok
    exact absurd hok (by decide)
  | true =>
    obtain ⟨hok, hinv, hget⟩ := tableInit_get table (entriesInv_empty db)
    have hinit : sxRpcApiRpcCommandDbInit db true table =
        sxRpcCmdTableInit { db with cmdMap := OrdMap.empty } table := rfl
    have hlookup : ∀ cmdId, sxRpcCoreApiCommandGet (sxRpcApiRpcCommandDbInit db true table).2 cmdId =
        (if (loaded cmdId table none).isSome then STATUS_SUCCESS else STATUS_ERROR, loaded cmdId table none) := by
      intro cmdId
      rw [hinit, commandGet_eq hinv, hget]
      rfl
    have hsome : ∀ cmdId, (sxRpcCoreApiCommandGet (sxRpcApiRpcCommandDbInit db true table).2 cmdId).1 =
        STATUS_SUCCESS ↔ ∃ x ∈ table, x.1.cmdId = cmdId ∧ x.2 = true := by
      intro cmdId
      rw [hlookup, ← (isSome_loaded cmdId table none).trans (or_iff_right (by simp))]
      dsimp only
      split
      · rename_i h
        exact iff_of_true rfl h
      · rename_i h
        exact iff_of_false (by decide) h
    constructor
    · intro h _ x hx
      have hregistered := ((h hok).1.registered x.1.cmdId).mpr ⟨x.1, List.mem_map.mpr ⟨x, hx, rfl⟩, rfl⟩
      exact (hsome x.1.cmdId).mp hregistered
    · intro h _
      refine ⟨⟨fun cmdId => ?_, ?_⟩, tableDeinit_spec hinv⟩
      · rw [hsome]
        constructor
        · rintro ⟨x, hx, heq, -⟩
          exact ⟨x.1, List.mem_map.mpr ⟨x, hx, rfl⟩, heq⟩
        · rintro ⟨c, hc, rfl⟩
          obtain ⟨x, hx, rfl⟩ := List.mem_map.mp hc
          exact h rfl x hx
      · intro before c after hsplit hafter
        obtain ⟨before, rest, rfl, rfl, hrest⟩ := List.map_eq_append_iff.mp hsplit
        obtain ⟨x, after, rfl, rfl, rfl⟩ := List.map_eq_cons_iff.mp hrest
        have hpresent : (loaded x.1.cmdId (before ++ x :: after) none).isSome :=
          (isSome_loaded _ _ none).mpr (Or.inr (h rfl x (List.mem_append_right _ (List.mem_cons_self ..))))
        rw [hlookup, if_pos hpresent, loaded_last (fun y hy => hafter y.1 (List.mem_map.mpr ⟨y, hy, rfl⟩)) hpresent]

/-- The table of one command. -/
def oneCommand : ApiCommand Unit := ⟨-3, [], (), .high⟩

/-- **A command without memory is left out**, and the load succeeds. -/
theorem load_without_memory :
    ¬∀ (db : CommandDb Unit) (plock : Bool) (table : List (ApiCommand Unit × Bool)), LoadComplete db plock table := by
  intro h
  have hloaded := (h ⟨OrdMap.empty, fun _ => none, 0⟩ true [(oneCommand, false)] rfl).1
  have hregistered := (hloaded.registered (-3)).mpr ⟨oneCommand, List.mem_singleton.mpr rfl, rfl⟩
  exact absurd hregistered (by decide)

end MlnxLib.SxRpc
