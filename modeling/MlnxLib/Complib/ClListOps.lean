import MlnxLib.Complib.ArrayInsert
import MlnxLib.Complib.QlistRuns
import MlnxLib.Lib.Simulation

/-!
# The operations of lists

All operations of `cl_list.h` and `cl_list.c` on an initialized list.  A client holds iterators: pointers to pool
objects of the list, or to its end item.

* `ClListOp`, `clListStep` — the operations, on the pointers.
* `Entries` — the iterators of a list with their objects, in order.
* `ClListSpec` — what an operation returns and does to the entries.
* `Shows s xs` — the list has the entries `xs`.
* `Refines` — the same at each step of a run.

`cl_list_remove_all` splices the list into the free list of its pool; `ClList.memory` is the memory of both.  The
functions that are called with the objects do not change the list.

Principal results: `Shows.step` — every operation does what the specification says; `cl_lists_refine` — every run
from `cl_list_init` returns, and is one of the entries.
-/

set_option autoImplicit false

namespace MlnxLib.ClLists

open QcPool Runs

/-! ## Insertions -/

/-- `cl_list_insert_next`. -/
def clListInsertNext (s : ClList) (supply : Supply) (iterator : FreeNode) (object : UInt64) :
    Option (ClStatus × ClList) :=
  insertBy (fun list item => clQlistInsertNext list iterator item) s supply object

/-- `cl_list_insert_prev`. -/
def clListInsertPrev (s : ClList) (supply : Supply) (iterator : FreeNode) (object : UInt64) :
    Option (ClStatus × ClList) :=
  insertBy (fun list item => some ⟨clPrimitiveInsert list.links iterator item, list.count + 1⟩) s supply object

/-! ## Iterators -/

/-- `cl_list_obj`; the end item has none. -/
def clListObj (s : ClList) : FreeNode → Option UInt64
  | .listEnd => none
  | .item a => some (s.object a)

/-- A function of objects, on iterators. -/
def onObjects (s : ClList) (pfnFunc : UInt64 → Bool) (iterator : FreeNode) : Bool :=
  (clListObj s iterator).any pfnFunc

/-- `cl_list_find_from_head`: its loop is that of `cl_qlist_find_from_head`. -/
def clListFindFromHead (s : ClList) (pfnFunc : UInt64 → Bool) : Option FreeNode :=
  clQlistFindFromHead s.list .listEnd (onObjects s pfnFunc)

/-- `cl_list_find_from_tail`. -/
def clListFindFromTail (s : ClList) (pfnFunc : UInt64 → Bool) : Option FreeNode :=
  clQlistFindFromTail s.list .listEnd (onObjects s pfnFunc)

/-- `cl_is_object_in_list`. -/
def clIsObjectInList (s : ClList) (object : UInt64) : Option Bool :=
  (clListFindFromHead s (· == object)).map fun found => found ≠ .listEnd

/-- The loop of `cl_list_apply_func`, from `itor` on: the objects that the function is called with. -/
def applyLoop (s : ClList) : Nat → FreeNode → Option (List UInt64)
  | 0, _ => none
  | _ + 1, .listEnd => some []
  | fuel + 1, .item a =>
    (clQlistNext s.list.links (.item a)).bind fun itor => (applyLoop s fuel itor).map (s.object a :: ·)

/-- `cl_list_apply_func`. -/
def clListApplyFunc (s : ClList) : Option (List UInt64) :=
  (clQlistHead s.list.links .listEnd).bind (applyLoop s (s.list.count + 1))

/-! ## Removals -/

/-- `cl_list_remove_item`; the pool takes back pool objects only. -/
def clListRemoveItem (s : ClList) : FreeNode → Option ClList
  | .listEnd => none
  | .item a => (clQcpoolPut s.pool a).map fun pool =>
    { s with pool := pool, list := clQlistRemoveItem s.list .listEnd (.item a) }

/-- `cl_list_remove_object`: whether the object was found. -/
def clListRemoveObject (s : ClList) (object : UInt64) : Option (Bool × ClList) :=
  (clListFindFromHead s (· == object)).bind fun found =>
    if found ≠ .listEnd then (clListRemoveItem s found).map fun s => (true, s) else some (false, s)

/-- A node of the free list, or of the list. -/
def toNode (l : Bool) : FreeNode → Qlists.Node Bool Addr
  | .listEnd => .listEnd l
  | .item a => .item a

def ofNode : Qlists.Node Bool Addr → FreeNode
  | .listEnd _ => .listEnd
  | .item a => .item a

/-- The memory of the free list, which is list `false`, and the list: an object that is handed out has the links of
the list. -/
def ClList.memory (s : ClList) : Qlists.Lists Bool Addr where
  links
    | .listEnd true => (s.list.links .listEnd).map (toNode true)
    | .listEnd false => (s.pool.pool.freeList.links .listEnd).map (toNode false)
    | .item a =>
      if a ∈ s.pool.handedOut then (s.list.links (.item a)).map (toNode true)
      else (s.pool.pool.freeList.links (.item a)).map (toNode false)
  count l := if l then s.list.count else s.pool.pool.freeList.count

/-- One of the two lists of the memory. -/
def listOf (m : Qlists.Lists Bool Addr) (l : Bool) : Qlist FreeNode :=
  ⟨fun n => (m.links (toNode l n)).map ofNode, m.count l⟩

/-- `cl_list_remove_all`, which is `cl_qcpool_put_list` of the list. -/
def clListRemoveAll (s : ClList) : Option ClList :=
  (Qlists.clQlistInsertListHead s.memory false true).map fun m =>
    { s with
      pool := { s.pool with pool := { s.pool.pool with freeList := listOf m false }, handedOut := [] }
      list := listOf m true }

/-! ## Operations -/

/-- An operation, with what its pool gets from the heap. -/
inductive ClListOp where
  | insertHead (supply : Supply) (object : UInt64)
  | insertTail (supply : Supply) (object : UInt64)
  | insertNext (supply : Supply) (iterator : FreeNode) (object : UInt64)
  | insertPrev (supply : Supply) (iterator : FreeNode) (object : UInt64)
  | insertArrayHead (array : UInt64) (itemCount itemSize : UInt32) (supplies : UInt32 → Supply)
  | insertArrayTail (array : UInt64) (itemCount itemSize : UInt32) (supplies : UInt32 → Supply)
  | removeHead
  | removeTail
  | removeAll
  | removeObject (object : UInt64)
  | removeItem (iterator : FreeNode)
  | isObjectInList (object : UInt64)
  | findFromHead (pfnFunc : UInt64 → Bool)
  | findFromTail (pfnFunc : UInt64 → Bool)
  | applyFunc
  | count
  | isEmpty
  | head
  | tail
  | next (iterator : FreeNode)
  | prev (iterator : FreeNode)
  | obj (iterator : FreeNode)

/-- What an operation returns. -/
inductive ClListReply where
  | status (status : ClStatus)
  | object (object : Option UInt64)
  | iterator (iterator : FreeNode)
  | found (found : Bool)
  | objects (objects : List UInt64)
  | count (count : Nat)
  | done
  deriving DecidableEq, Repr

/-- An operation that reads the list. -/
def reads (s : ClList) (reply : ClListReply) : ClListReply × ClList := (reply, s)

/-- An operation. -/
def clListStep (s : ClList) : ClListOp → Option (ClListReply × ClList)
  | .insertHead supply object => (clListInsertHead s supply object).map fun r => (.status r.1, r.2)
  | .insertTail supply object => (clListInsertTail s supply object).map fun r => (.status r.1, r.2)
  | .insertNext supply iterator object => (clListInsertNext s supply iterator object).map fun r => (.status r.1, r.2)
  | .insertPrev supply iterator object => (clListInsertPrev s supply iterator object).map fun r => (.status r.1, r.2)
  | .insertArrayHead array itemCount itemSize supplies =>
    (clListInsertArrayHead s array itemCount itemSize supplies).map fun r => (.status r.1, r.2)
  | .insertArrayTail array itemCount itemSize supplies =>
    (clListInsertArrayTail s array itemCount itemSize supplies).map fun r => (.status r.1, r.2)
  | .removeHead => (clListRemoveHead s).map fun r => (.object r.1, r.2)
  | .removeTail => (clListRemoveTail s).map fun r => (.object r.1, r.2)
  | .removeAll => (clListRemoveAll s).map fun s => (.done, s)
  | .removeObject object => (clListRemoveObject s object).map fun r => (.found r.1, r.2)
  | .removeItem iterator => (clListRemoveItem s iterator).map fun s => (.done, s)
  | .isObjectInList object => (clIsObjectInList s object).map fun b => reads s (.found b)
  | .findFromHead pfnFunc => (clListFindFromHead s pfnFunc).map fun i => reads s (.iterator i)
  | .findFromTail pfnFunc => (clListFindFromTail s pfnFunc).map fun i => reads s (.iterator i)
  | .applyFunc => (clListApplyFunc s).map fun objects => reads s (.objects objects)
  | .count => some (reads s (.count s.list.count))
  | .isEmpty => some (reads s (.found (clIsQlistEmpty s.list)))
  | .head => (clQlistHead s.list.links .listEnd).map fun i => reads s (.iterator i)
  | .tail => (clQlistPrev s.list.links .listEnd).map fun i => reads s (.iterator i)
  | .next iterator => (clQlistNext s.list.links iterator).map fun i => reads s (.iterator i)
  | .prev iterator => (clQlistPrev s.list.links iterator).map fun i => reads s (.iterator i)
  | .obj iterator => (clListObj s iterator).map fun object => reads s (.object (some object))

/-! ## Entries -/

/-- The iterators of a list, with their objects. -/
abbrev Entries := List (Addr × UInt64)

/-- The iterator of an entry, or the end item. -/
def iteratorOf : Option (Addr × UInt64) → FreeNode
  | none => .listEnd
  | some x => .item x.1

/-- **An insertion** of objects between the entries `as` and `bs` adds all of them, with new iterators, if the pool
supplies pool objects for all, and otherwise none. -/
def InsertSpec (supplied : Bool) (as bs : Entries) (objects : List UInt64) (r : ClListReply) (ys : Entries) : Prop :=
  if supplied then
    ∃ news : Entries, news.map Prod.snd = objects ∧ ((as ++ (news ++ bs)).map Prod.fst).Nodup ∧
      r = .status .success ∧ ys = as ++ (news ++ bs)
  else r = .status .insufficientMemory ∧ ys = as ++ bs

/-- The pool supplies one pool object. -/
def suppliesOne (supply : Supply) (pool : PoolSystem) : Bool := supplied (fun _ => supply) 1 pool

/-- **What an operation returns**, and the entries after it. -/
def ClListSpec (pool : PoolSystem) (xs : Entries) : ClListOp → ClListReply → Entries → Prop
  | .insertHead supply object => InsertSpec (suppliesOne supply pool) [] xs [object]
  | .insertTail supply object => InsertSpec (suppliesOne supply pool) xs [] [object]
  | .insertNext supply iterator object => fun r ys => ∃ as bs, xs = as ++ bs ∧ iteratorOf as.getLast? = iterator ∧
      InsertSpec (suppliesOne supply pool) as bs [object] r ys
  | .insertPrev supply iterator object => fun r ys => ∃ as bs, xs = as ++ bs ∧ iteratorOf bs.head? = iterator ∧
      InsertSpec (suppliesOne supply pool) as bs [object] r ys
  | .insertArrayHead array itemCount itemSize supplies =>
    InsertSpec (supplied supplies itemCount.toNat pool) [] xs (arrayObjects array itemCount itemSize)
  | .insertArrayTail array itemCount itemSize supplies =>
    InsertSpec (supplied supplies itemCount.toNat pool) xs [] (arrayObjects array itemCount itemSize)
  | .removeHead => fun r ys => r = .object (xs.head?.map Prod.snd) ∧ ys = xs.tail
  | .removeTail => fun r ys => r = .object (xs.getLast?.map Prod.snd) ∧ ys = xs.dropLast
  | .removeAll => fun r ys => r = .done ∧ ys = []
  | .removeObject object => fun r ys =>
    r = .found ((xs.map Prod.snd).contains object) ∧ ys = xs.eraseP fun x => x.2 == object
  | .removeItem iterator => fun r ys => r = .done ∧ ys = xs.eraseP fun x => FreeNode.item x.1 == iterator
  | .isObjectInList object => fun r ys => r = .found ((xs.map Prod.snd).contains object) ∧ ys = xs
  | .findFromHead pfnFunc => fun r ys => r = .iterator (iteratorOf (xs.find? fun x => pfnFunc x.2)) ∧ ys = xs
  | .findFromTail pfnFunc => fun r ys =>
    r = .iterator (iteratorOf (xs.reverse.find? fun x => pfnFunc x.2)) ∧ ys = xs
  | .applyFunc => fun r ys => r = .objects (xs.map Prod.snd) ∧ ys = xs
  | .count => fun r ys => r = .count xs.length ∧ ys = xs
  | .isEmpty => fun r ys => r = .found xs.isEmpty ∧ ys = xs
  | .head => fun r ys => r = .iterator (iteratorOf xs.head?) ∧ ys = xs
  | .tail => fun r ys => r = .iterator (iteratorOf xs.getLast?) ∧ ys = xs
  | .next iterator => fun r ys =>
    (∃ as bs, xs = as ++ bs ∧ iteratorOf as.getLast? = iterator ∧ r = .iterator (iteratorOf bs.head?)) ∧ ys = xs
  | .prev iterator => fun r ys =>
    (∃ as bs, xs = as ++ bs ∧ iteratorOf bs.head? = iterator ∧ r = .iterator (iteratorOf as.getLast?)) ∧ ys = xs
  | .obj iterator => fun r ys => (∃ x ∈ xs, iterator = .item x.1 ∧ r = .object (some x.2)) ∧ ys = xs

/-- **The list has these entries.** -/
structure Shows (s : ClList) (xs : Entries) : Prop where
  holds : Holds s (xs.map Prod.fst)
  object : ∀ x ∈ xs, s.object x.1 = x.2

/-- An iterator of the list, or its end item. -/
def Iterates (s : ClList) : FreeNode → Prop
  | .listEnd => True
  | .item a => a ∈ s.pool.handedOut

/-- What callers see to: an iterator is one of the list, and the offset of the last object of an array that goes to the
head fits in 32 bits. -/
def ClListMeets (s : ClList) : ClListOp → Prop
  | .insertNext _ iterator _ => Iterates s iterator
  | .insertPrev _ iterator _ => Iterates s iterator
  | .insertArrayHead _ itemCount itemSize _ => itemSize.toNat * (itemCount.toNat - 1) < 4294967296
  | .removeItem iterator => Iterates s iterator ∧ iterator ≠ .listEnd
  | .next iterator => Iterates s iterator
  | .prev iterator => Iterates s iterator
  | .obj iterator => Iterates s iterator ∧ iterator ≠ .listEnd
  | _ => True

instance (s : ClList) : DecidablePred (Iterates s)
  | .listEnd => isTrue trivial
  | .item a => inferInstanceAs (Decidable (a ∈ s.pool.handedOut))

instance (s : ClList) : DecidablePred (ClListMeets s)
  | .insertNext _ iterator _ => inferInstanceAs (Decidable (Iterates s iterator))
  | .insertPrev _ iterator _ => inferInstanceAs (Decidable (Iterates s iterator))
  | .insertArrayHead _ itemCount itemSize _ =>
    inferInstanceAs (Decidable (itemSize.toNat * (itemCount.toNat - 1) < 4294967296))
  | .removeItem iterator => inferInstanceAs (Decidable (Iterates s iterator ∧ iterator ≠ .listEnd))
  | .next iterator => inferInstanceAs (Decidable (Iterates s iterator))
  | .prev iterator => inferInstanceAs (Decidable (Iterates s iterator))
  | .obj iterator => inferInstanceAs (Decidable (Iterates s iterator ∧ iterator ≠ .listEnd))
  | .insertHead .. | .insertTail .. | .insertArrayTail .. | .removeHead | .removeTail | .removeAll | .removeObject _ |
    .isObjectInList _ | .findFromHead _ | .findFromTail _ | .applyFunc | .count | .isEmpty | .head | .tail =>
    isTrue trivial

/-- The nodes of a list. -/
def Entries.items (xs : Entries) : List FreeNode := (xs.map Prod.fst).map .item

section

variable {s : ClList} {xs as bs : Entries} {x : Addr × UInt64} {iterator : FreeNode}

theorem getLast_items (as : Entries) :
    (FreeNode.listEnd :: Entries.items as).getLast (List.cons_ne_nil _ _) = iteratorOf as.getLast? := by
  induction as using List.reverseRecOn with
  | nil => rfl
  | append_singleton as a ih => simp [Entries.items, iteratorOf]

theorem headD_items (bs : Entries) : (Entries.items bs).headD .listEnd = iteratorOf bs.head? := by
  cases bs with
  | nil => rfl
  | cons b bs => rfl

theorem items_append (as bs : Entries) : Entries.items (as ++ bs) = Entries.items as ++ Entries.items bs := by
  simp [Entries.items]

namespace Shows

theorem list (h : Shows s xs) : IsQlist s.list .listEnd (Entries.items xs) := h.holds.list

theorem nodup (h : Shows s xs) : (xs.map Prod.fst).Nodup := h.holds.nodup

theorem mem_out (h : Shows s xs) {a : Addr} : a ∈ s.pool.handedOut ↔ a ∈ xs.map Prod.fst := h.holds.out.mem_iff

/-- The iterator after the entries `as`. -/
theorem next (h : Shows s (as ++ bs)) :
    clQlistNext s.list.links (iteratorOf as.getLast?) = some (iteratorOf bs.head?) := by
  have hlist := h.list
  rw [items_append] at hlist
  have hnext := hlist.next_last
  rwa [getLast_items, headD_items] at hnext

/-- The iterator before the entries `bs`. -/
theorem prev (h : Shows s (as ++ bs)) :
    clQlistPrev s.list.links (iteratorOf bs.head?) = some (iteratorOf as.getLast?) := by
  have hring := h.list.ring
  rw [items_append] at hring
  have hprev := hring.prev_headD
  rwa [getLast_items, headD_items] at hprev

/-- Where an iterator is. -/
theorem split (h : Shows s xs) (hit : Iterates s iterator) (hne : iterator ≠ .listEnd) :
    ∃ as x bs, xs = as ++ x :: bs ∧ iterator = .item x.1 := by
  cases iterator with
  | listEnd => exact absurd rfl hne
  | item a =>
    obtain ⟨x, hx, rfl⟩ := List.mem_map.mp (h.mem_out.mp hit)
    obtain ⟨as, bs, rfl⟩ := List.append_of_mem hx
    exact ⟨as, x, bs, rfl, rfl⟩

/-- The entries up to an iterator. -/
theorem splitNext (h : Shows s xs) (hit : Iterates s iterator) :
    ∃ as bs, xs = as ++ bs ∧ iteratorOf as.getLast? = iterator := by
  by_cases hend : iterator = .listEnd
  · exact ⟨[], xs, rfl, hend.symm⟩
  · obtain ⟨as, x, bs, rfl, rfl⟩ := h.split hit hend
    exact ⟨as ++ [x], bs, by simp, by simp [iteratorOf]⟩

/-- The entries from an iterator on. -/
theorem splitPrev (h : Shows s xs) (hit : Iterates s iterator) :
    ∃ as bs, xs = as ++ bs ∧ iteratorOf bs.head? = iterator := by
  by_cases hend : iterator = .listEnd
  · exact ⟨xs, [], by simp, hend.symm⟩
  · obtain ⟨as, x, bs, rfl, rfl⟩ := h.split hit hend
    exact ⟨as, x :: bs, rfl, rfl⟩

/-! ## Insertions -/

/-- **One object is inserted** between the entries `as` and `bs`, or the pool has no object. -/
theorem insertBy (h : Shows s (as ++ bs)) {insert : Qlist FreeNode → FreeNode → Option (Qlist FreeNode)}
    (hins : ∀ a, FreeNode.item a ∉ FreeNode.listEnd :: Entries.items (as ++ bs) →
      ∃ list', insert s.list (.item a) = some list' ∧
        IsQlist list' .listEnd (Entries.items as ++ .item a :: Entries.items bs))
    (supply : Supply) (object : UInt64) :
    ∃ r s' ys, ClLists.insertBy insert s supply object = some (r, s') ∧
      InsertSpec (suppliesOne supply s.pool) as bs [object] (.status r) ys ∧ Shows s' ys := by
  obtain ⟨n, hstock⟩ := h.holds.stock
  obtain ⟨r, pool, n', hget, hstock', hfresh⟩ := hstock.get supply
  have hcode : clQcpoolGet s.pool supply = some (r, pool) := hget
  have hsupplies : suppliesOne supply s.pool = r.isSome := by
    unfold suppliesOne supplied
    rw [hcode]
    cases r <;> rfl
  unfold ClLists.insertBy InsertSpec
  rw [hcode, Option.bind_some, hsupplies]
  cases r with
  | none => exact ⟨_, _, _, rfl, ⟨rfl, rfl⟩, Holds.of_stock hstock' h.holds.list, h.object⟩
  | some a =>
    have ha : a ∉ (as ++ bs).map Prod.fst := hfresh a rfl
    obtain ⟨list', hcall, hlist⟩ := hins a (not_mem_nodes ha)
    have hkeys : ((as ++ ([(a, object)] ++ bs)).map Prod.fst).Perm (a :: (as ++ bs).map Prod.fst) := by
      simp
    have hnodup : ((as ++ ([(a, object)] ++ bs)).map Prod.fst).Nodup :=
      hkeys.nodup_iff.mpr (List.nodup_cons.mpr ⟨ha, h.nodup⟩)
    refine ⟨.success, ⟨pool, list', Function.update s.object a object⟩, as ++ ([(a, object)] ++ bs), ?_,
      ⟨[(a, object)], rfl, hnodup, rfl, rfl⟩, Holds.of_stock (hstock'.perm hkeys.symm) ?_, fun x hx => ?_⟩
    · dsimp only
      rw [hcall]
      rfl
    · simpa [Entries.items] using hlist
    · by_cases hxa : x = (a, object)
      · rw [hxa]
        exact Function.update_self ..
      · have hx' : x ∈ as ++ bs := by
          simp only [List.mem_append, List.mem_singleton] at hx ⊢
          tauto
        have hne : x.1 ≠ a := fun he => ha (he ▸ List.mem_map_of_mem hx')
        exact (Function.update_of_ne hne ..).trans (h.object x hx')

/-- **Several objects have been inserted** between the entries `as` and `bs`. -/
theorem inserted (h : Shows s (as ++ bs)) {s' : ClList} (more : List Addr) {objects : List UInt64}
    (hholds : Holds s' (as.map Prod.fst ++ (more ++ bs.map Prod.fst))) (hobjects : more.map s'.object = objects)
    (hsame : ∀ a ∈ (as ++ bs).map Prod.fst, s'.object a = s.object a) :
    ∃ ys, InsertSpec true as bs objects (.status .success) ys ∧ Shows s' ys := by
  have hkeys : (as ++ (more.map (fun a => (a, s'.object a)) ++ bs)).map Prod.fst =
      as.map Prod.fst ++ (more ++ bs.map Prod.fst) := by
    simp [Function.comp_def]
  have hshows : Shows s' (as ++ (more.map (fun a => (a, s'.object a)) ++ bs)) := by
    refine ⟨hkeys ▸ hholds, fun x hx => ?_⟩
    have hold : x ∈ as ++ bs → s'.object x.1 = x.2 := fun hx =>
      (hsame x.1 (List.mem_map_of_mem hx)).trans (h.object x hx)
    simp only [List.mem_append, List.mem_map] at hx hold
    rcases hx with hx | ⟨a, -, rfl⟩ | hx
    · exact hold (Or.inl hx)
    · rfl
    · exact hold (Or.inr hx)
  refine ⟨_, ⟨more.map fun a => (a, s'.object a), ?_, hshows.nodup, rfl, rfl⟩, hshows⟩
  rw [← hobjects, List.map_map]
  rfl

/-- `cl_list_insert_array_tail`. -/
theorem insertArrayTail (h : Shows s xs) (array : UInt64) (itemCount itemSize : UInt32) (supplies : UInt32 → Supply) :
    ∃ r s' ys, clListInsertArrayTail s array itemCount itemSize supplies = some (r, s') ∧
      InsertSpec (supplied supplies itemCount.toNat s.pool) xs [] (arrayObjects array itemCount itemSize) (.status r)
        ys ∧ Shows s' ys := by
  have h' : Shows s (xs ++ []) := by rwa [List.append_nil]
  obtain ⟨r, hloop, hinserted⟩ := insertArray_spec inserts_tail h.holds (· + itemSize.toUInt64) itemCount supplies array
  cases hinserted with
  | all s' more hsupplied hholds hobjects hsame =>
    rw [List.append_nil, foldr_tail] at hholds
    simp only [add_iterate] at hobjects
    rw [hsupplied]
    obtain ⟨ys, hspec, hshows⟩ := h'.inserted more.reverse (by simpa using hholds) hobjects
      (by simpa using hsame)
    exact ⟨_, s', ys, hloop, hspec, hshows⟩
  | none s' hsupplied hholds hsame =>
    rw [hsupplied]
    refine ⟨_, s', xs, hloop, ⟨rfl, (List.append_nil xs).symm⟩, hholds, fun x hx => ?_⟩
    rw [hsame x.1 (List.mem_map_of_mem hx), h.object x hx]

/-- `cl_list_insert_array_head`. -/
theorem insertArrayHead (h : Shows s xs) (array : UInt64) {itemCount itemSize : UInt32} (supplies : UInt32 → Supply)
    (hfits : itemSize.toNat * (itemCount.toNat - 1) < 4294967296) :
    ∃ r s' ys, clListInsertArrayHead s array itemCount itemSize supplies = some (r, s') ∧
      InsertSpec (supplied supplies itemCount.toNat s.pool) [] xs (arrayObjects array itemCount itemSize) (.status r)
        ys ∧ Shows s' ys := by
  have h' : Shows s ([] ++ xs) := h
  obtain ⟨r, hloop, hinserted⟩ := insertArray_spec inserts_head h.holds (· - itemSize.toUInt64) itemCount supplies
    (array + (itemSize * (itemCount - 1)).toUInt64)
  cases hinserted with
  | all s' more hsupplied hholds hobjects hsame =>
    rw [List.append_nil, foldr_head] at hholds
    simp only [sub_iterate] at hobjects
    rw [hsupplied]
    have hmore : more.map s'.object = arrayObjects array itemCount itemSize := by
      have hoffset : itemCount.toNat = 0 ∨ (itemSize * (itemCount - 1)).toUInt64 =
          UInt64.ofNat (itemCount.toNat - 1) * itemSize.toUInt64 := by
        by_cases hzero : itemCount.toNat = 0
        · exact Or.inl hzero
        · exact Or.inr ((offset_eq_iff hzero).mpr hfits)
      rw [← (reverse_eq_arrayObjects array itemCount itemSize _).mpr hoffset, ← hobjects, ← List.map_reverse,
        List.reverse_reverse]
    obtain ⟨ys, hspec, hshows⟩ := h'.inserted more hholds hmore hsame
    exact ⟨_, s', ys, hloop, hspec, hshows⟩
  | none s' hsupplied hholds hsame =>
    rw [hsupplied]
    refine ⟨_, s', xs, hloop, ⟨rfl, rfl⟩, hholds, fun x hx => ?_⟩
    rw [hsame x.1 (List.mem_map_of_mem hx), h.object x hx]

/-! ## Searches -/

theorem onObjects_item (h : Shows s xs) (pfnFunc : UInt64 → Bool) {x : Addr × UInt64} (hx : x ∈ xs) :
    onObjects s pfnFunc (.item x.1) = pfnFunc x.2 := by
  rw [← h.object x hx]
  rfl

/-- A search of the items is one of the entries. -/
theorem find_items (h : Shows s xs) (pfnFunc : UInt64 → Bool) {ys : Entries} (hys : ∀ y ∈ ys, y ∈ xs) :
    ((Entries.items ys).find? (onObjects s pfnFunc)).getD .listEnd = iteratorOf (ys.find? fun x => pfnFunc x.2) := by
  induction ys with
  | nil => rfl
  | cons y ys ih =>
    have hy := h.onObjects_item pfnFunc (hys y (List.mem_cons_self ..))
    change ((FreeNode.item y.1 :: Entries.items ys).find? (onObjects s pfnFunc)).getD .listEnd = _
    rw [List.find?_cons, List.find?_cons, hy]
    cases pfnFunc y.2 with
    | true => rfl
    | false => exact ih fun y hy => hys y (List.mem_cons_of_mem _ hy)

theorem findFromHead (h : Shows s xs) (pfnFunc : UInt64 → Bool) :
    clListFindFromHead s pfnFunc = some (iteratorOf (xs.find? fun x => pfnFunc x.2)) := by
  unfold clListFindFromHead
  rw [h.list.findFromHead, h.find_items pfnFunc fun _ hy => hy]

/-- The last item that matches is the first one from the tail. -/
theorem findFromTail (h : Shows s xs) (pfnFunc : UInt64 → Bool) :
    clListFindFromTail s pfnFunc = some (iteratorOf (xs.reverse.find? fun x => pfnFunc x.2)) := by
  obtain ⟨as, bs, hitems, hbs, has, hfind⟩ := h.list.findFromTail (onObjects s pfnFunc)
  have hreverse : Entries.items xs.reverse = (Entries.items xs).reverse := by
    simp [Entries.items]
  have hnone : bs.reverse.find? (onObjects s pfnFunc) = none := by
    rw [List.find?_eq_none]
    intro b hb
    rw [hbs b (List.mem_reverse.mp hb)]
    exact Bool.false_ne_true
  unfold clListFindFromTail
  rw [hfind, ← h.find_items pfnFunc (fun y hy => List.mem_reverse.mp hy), hreverse, hitems, List.reverse_append,
    List.find?_append, hnone, Option.none_or]
  congr 1
  induction as using List.reverseRecOn with
  | nil => rfl
  | append_singleton as a ih =>
    have ha : onObjects s pfnFunc a = true := has a (by simp)
    simp [ha]

/-- The loop of `cl_list_apply_func` over the entries `bs`. -/
theorem applyLoop_spec : ∀ {as bs : Entries} {fuel : Nat}, Shows s (as ++ bs) → bs.length < fuel →
    applyLoop s fuel (iteratorOf bs.head?) = some (bs.map Prod.snd)
  | _, _, 0, _, hfuel => absurd hfuel (Nat.not_lt_zero _)
  | as, [], fuel + 1, _, _ => rfl
  | as, b :: bs, fuel + 1, h, hfuel => by
    have h' : Shows s ((as ++ [b]) ++ bs) := by simpa using h
    have hnext := h'.next
    rw [List.getLast?_concat] at hnext
    change clQlistNext s.list.links (.item b.1) = some (iteratorOf bs.head?) at hnext
    change applyLoop s (fuel + 1) (.item b.1) = _
    rw [applyLoop, hnext, Option.bind_some, applyLoop_spec h' (Nat.lt_of_succ_lt_succ hfuel), Option.map_some,
      h.object b (by simp), List.map_cons]

/-- **`cl_list_apply_func`** calls the function with each object once, from head to tail. -/
theorem applyFunc (h : Shows s xs) : clListApplyFunc s = some (xs.map Prod.snd) := by
  have h' : Shows s ([] ++ xs) := h
  have hcount : s.list.count = xs.length := by
    rw [h.list.count]
    simp [Entries.items]
  unfold clListApplyFunc
  rw [h.list.head, headD_items, Option.bind_some, h'.applyLoop_spec (by omega)]

/-! ## Removals -/

/-- A pool object goes back to its pool. -/
theorem put (h : Shows s (as ++ x :: bs)) : ∃ pool, clQcpoolPut s.pool x.1 = some pool ∧
    ∀ list', IsQlist list' .listEnd (Entries.items (as ++ bs)) →
      Shows { s with pool := pool, list := list' } (as ++ bs) := by
  obtain ⟨n, hstock⟩ := h.holds.stock
  have hperm : ((as ++ x :: bs).map Prod.fst).Perm (x.1 :: (as ++ bs).map Prod.fst) := by
    simp
  obtain ⟨pool, hput, hstock', -⟩ := hstock.put hperm
  refine ⟨pool, hput, fun list' hlist => ⟨.of_stock hstock' hlist, fun y hy => h.object y ?_⟩⟩
  simp only [List.mem_append, List.mem_cons] at hy ⊢
  tauto

theorem removeItem (h : Shows s (as ++ x :: bs)) :
    ∃ s', clListRemoveItem s (.item x.1) = some s' ∧ Shows s' (as ++ bs) := by
  obtain ⟨pool, hput, hshows⟩ := h.put
  have hlist := h.list
  rw [items_append] at hlist
  have hremoved : IsQlist (clQlistRemoveItem s.list .listEnd (.item x.1)) .listEnd
      (Entries.items as ++ Entries.items bs) := hlist.removeItem
  rw [← items_append] at hremoved
  refine ⟨_, ?_, hshows _ hremoved⟩
  unfold clListRemoveItem
  dsimp only
  rw [hput]
  rfl

/-- **An object is removed** at one end. -/
theorem removeBy (h : Shows s (as ++ x :: bs)) {remove : Qlist FreeNode → FreeNode → Option (FreeNode × Qlist FreeNode)}
    (hremove : ∃ list', remove s.list .listEnd = some (.item x.1, list') ∧
      IsQlist list' .listEnd (Entries.items (as ++ bs))) :
    ∃ s', ClLists.removeBy remove s = some (some x.2, s') ∧ Shows s' (as ++ bs) := by
  obtain ⟨pool, hput, hshows⟩ := h.put
  obtain ⟨list', hcall, hlist⟩ := hremove
  have hempty : clIsQlistEmpty s.list ≠ true := by
    intro he
    rw [h.list.isEmpty_iff] at he
    simp [Entries.items] at he
  refine ⟨_, ?_, hshows list' hlist⟩
  unfold ClLists.removeBy
  rw [if_neg hempty, hcall, Option.bind_some]
  dsimp only
  rw [hput, h.object x (by simp)]
  rfl

theorem removeBy_nil (h : Shows s []) (remove : Qlist FreeNode → FreeNode → Option (FreeNode × Qlist FreeNode)) :
    ClLists.removeBy remove s = some (none, s) := by
  unfold ClLists.removeBy
  rw [if_pos (h.list.isEmpty_iff.mpr rfl)]

theorem removeHead (h : Shows s xs) :
    ∃ s', clListRemoveHead s = some (xs.head?.map Prod.snd, s') ∧ Shows s' xs.tail := by
  cases xs with
  | nil => exact ⟨s, h.removeBy_nil _, h⟩
  | cons x xs =>
    have h' : Shows s ([] ++ x :: xs) := h
    exact h'.removeBy h.list.removeHead

theorem removeTail (h : Shows s xs) :
    ∃ s', clListRemoveTail s = some (xs.getLast?.map Prod.snd, s') ∧ Shows s' xs.dropLast := by
  rcases List.eq_nil_or_concat xs with rfl | ⟨xs, x, rfl⟩
  · exact ⟨s, h.removeBy_nil _, h⟩
  · rw [List.concat_eq_append] at h ⊢
    have hlist := h.list
    rw [items_append] at hlist
    obtain ⟨s', hremove, hshows⟩ : ∃ s', clListRemoveTail s = some (some x.2, s') ∧ Shows s' (xs ++ []) :=
      h.removeBy (by simpa using hlist.removeTail)
    rw [List.append_nil] at hshows
    exact ⟨s', by simpa using hremove, by simpa using hshows⟩

/-- The first entry that matches is removed. -/
theorem eraseP_split {p : Addr × UInt64 → Bool} (has : ∀ y ∈ as, p y = false) (hx : p x = true) :
    (as ++ x :: bs).eraseP p = as ++ bs := by
  rw [List.eraseP_append_right _ fun y hy => by rw [has y hy]; exact Bool.false_ne_true,
    List.eraseP_cons_of_pos hx]

/-- **`cl_list_remove_object`** removes the first entry with the object. -/
theorem removeObject (h : Shows s xs) (object : UInt64) :
    ∃ s', clListRemoveObject s object = some ((xs.map Prod.snd).contains object, s') ∧
      Shows s' (xs.eraseP fun x => x.2 == object) := by
  unfold clListRemoveObject
  rw [h.findFromHead, Option.bind_some]
  cases hfind : xs.find? fun x => x.2 == object with
  | none =>
    have hnone := List.find?_eq_none.mp hfind
    have herase : xs.eraseP (fun x => x.2 == object) = xs := List.eraseP_of_forall_not hnone
    have hcontains : (xs.map Prod.snd).contains object = false := by
      rw [Bool.eq_false_iff, ne_eq, List.contains_iff_mem]
      intro hmem
      obtain ⟨y, hy, rfl⟩ := List.mem_map.mp hmem
      exact hnone y hy (beq_self_eq_true _)
    rw [herase, hcontains]
    exact ⟨s, rfl, h⟩
  | some x =>
    obtain ⟨hx, as, bs, rfl, has⟩ := List.find?_eq_some_iff_append.mp hfind
    obtain ⟨s', hremove, hshows⟩ := h.removeItem
    have hcontains : ((as ++ x :: bs).map Prod.snd).contains object = true := by
      have he : x.2 = object := by simpa using hx
      simp [he]
    rw [eraseP_split (fun y hy => by simpa using has y hy) hx, hcontains]
    refine ⟨s', ?_, hshows⟩
    change (if FreeNode.item x.1 ≠ .listEnd then (clListRemoveItem s (.item x.1)).map fun s => (true, s)
      else some (false, s)) = _
    rw [if_pos nofun, hremove]
    rfl

end Shows

/-! ## The two lists of a memory -/

theorem toNode_injective (l : Bool) : Function.Injective (toNode l) := by
  intro n n' h
  cases n with
  | listEnd =>
    cases n' with
    | listEnd => rfl
    | item a => cases h
  | item a =>
    cases n' with
    | listEnd => cases h
    | item a' =>
      cases h
      rfl

/-- A list of the memory. -/
theorem isQlist_listOf {m : Qlists.Lists Bool Addr} {l : Bool} {addrs : List Addr}
    (h : IsQlist (m.list l) (.listEnd l) (addrs.map .item)) : IsQlist (listOf m l) .listEnd (addrs.map .item) := by
  have hmap : IsQlist (listOf m l) (ofNode (.listEnd l)) ((addrs.map .item).map ofNode) := by
    apply h.map
    · have hnd : addrs.Nodup := h.ring.nodup.of_map _
      have hitems : (addrs.map FreeNode.item).Nodup := hnd.map fun _ _ he => FreeNode.item.inj he
      simpa [ofNode, Function.comp_def] using hitems
    · intro n hn
      have hback : toNode l (ofNode n) = n := by
        rcases List.mem_cons.mp hn with rfl | hn
        · rfl
        · obtain ⟨a, -, rfl⟩ := List.mem_map.mp hn
          rfl
      change (m.links (toNode l (ofNode n))).map ofNode = _
      rw [hback]
      rfl
    · rfl
  simpa [ofNode, Function.comp_def] using hmap

/-- **The memory has both lists.** -/
theorem Holds.represents {items free : List Addr} (h : Holds s items)
    (hacc : Accounts (InBlocks s.pool) s.pool.pool s.pool.handedOut free) :
    Qlists.Represents s.memory fun l => some (if l then items else free) := by
  have hfree : ∀ a ∈ free, a ∉ s.pool.handedOut := fun a ha hout =>
    List.disjoint_of_nodup_append hacc.nodup ha hout
  refine ⟨fun {l addrs} hl => ?_, fun l l' addrs addrs' a hl hl' ha ha' => ?_⟩
  · cases l with
    | true =>
      cases hl
      have hmap : IsQlist (s.memory.list true) (toNode true .listEnd) ((items.map .item).map (toNode true)) := by
        apply h.list.map
        · exact List.Nodup.map (toNode_injective true) h.list.ring.1
        · intro n hn
          rcases List.mem_cons.mp hn with rfl | hn
          · rfl
          · obtain ⟨a, ha, rfl⟩ := List.mem_map.mp hn
            exact if_pos (h.out.mem_iff.mpr ha)
        · rfl
      simpa [toNode, Function.comp_def] using hmap
    | false =>
      cases hl
      have hmap : IsQlist (s.memory.list false) (toNode false .listEnd) ((free.map .item).map (toNode false)) := by
        apply hacc.list.map
        · exact List.Nodup.map (toNode_injective false) hacc.list.ring.1
        · intro n hn
          rcases List.mem_cons.mp hn with rfl | hn
          · rfl
          · obtain ⟨a, ha, rfl⟩ := List.mem_map.mp hn
            exact if_neg (hfree a ha)
        · rfl
      simpa [toNode, Function.comp_def] using hmap
  · have hdisjoint : ∀ b ∈ free, b ∉ items := fun b hb hitem => hfree b hb (h.out.mem_iff.mpr hitem)
    cases l <;> cases l' <;> cases hl <;> cases hl'
    · rfl
    · exact absurd ha' (hdisjoint a ha)
    · exact absurd ha (hdisjoint a ha')
    · rfl

/-- **`cl_list_remove_all`** gives all pool objects back. -/
theorem Shows.removeAll (h : Shows s xs) : ∃ s', clListRemoveAll s = some s' ∧ Shows s' [] := by
  have hholds := h.holds
  obtain ⟨free, hacc⟩ := hholds.accounts
  have hacts : Qlists.Acts s.memory _ (.insertListHead false true) :=
    (hholds.represents hacc).acts_insertListHead ⟨_, rfl⟩ ⟨_, rfl⟩ Bool.false_ne_true
  obtain ⟨m, hstep, hrep, -⟩ := hacts
  obtain ⟨m', hcode, heq⟩ := Option.map_eq_some_iff.mp hstep
  cases heq
  have hfreeList : IsQlist (listOf m false) .listEnd ((xs.map Prod.fst ++ free).map .item) :=
    isQlist_listOf (hrep.list (l := false) rfl)
  have hlist : IsQlist (listOf m true) .listEnd (([] : List Addr).map .item) :=
    isQlist_listOf (hrep.list (l := true) rfl)
  have hcall : clListRemoveAll s = some { s with
      pool := { s.pool with pool := { s.pool.pool with freeList := listOf m false }, handedOut := [] }
      list := listOf m true } := by
    rw [clListRemoveAll, hcode]
    rfl
  have hperm : (free ++ s.pool.handedOut).Perm (xs.map Prod.fst ++ free ++ []) := by
    rw [List.append_nil]
    exact (hholds.out.append_left free).trans List.perm_append_comm
  refine ⟨_, hcall, ⟨⟨xs.map Prod.fst ++ free, hfreeList, hperm.nodup_iff.mp hacc.nodup, ?_, hacc.max, fun a ha => ?_⟩,
    hlist, .refl _, hholds.sizes, hholds.noInit, hholds.grow⟩, nofun⟩
  · rw [← List.length_append, ← hperm.length_eq, List.length_append]
    exact hacc.count
  · exact hacc.place a (hperm.mem_iff.mpr ha)

/-! ## Steps -/

namespace Shows

/-- An insertion next to an iterator, at either end or between two entries. -/
theorem insertNext (h : Shows s (as ++ bs)) (supply : Supply) (object : UInt64) :
    ∃ r s' ys, clListInsertNext s supply (iteratorOf as.getLast?) object = some (r, s') ∧
      InsertSpec (suppliesOne supply s.pool) as bs [object] (.status r) ys ∧ Shows s' ys := by
  refine h.insertBy (fun a ha => ?_) supply object
  have hlist := h.list
  rw [items_append] at hlist ha
  rw [← getLast_items]
  exact hlist.insertNext ha

theorem insertPrev (h : Shows s (as ++ bs)) (supply : Supply) (object : UInt64) :
    ∃ r s' ys, clListInsertPrev s supply (iteratorOf bs.head?) object = some (r, s') ∧
      InsertSpec (suppliesOne supply s.pool) as bs [object] (.status r) ys ∧ Shows s' ys := by
  refine h.insertBy (fun a ha => ⟨_, rfl, ?_⟩) supply object
  have hlist := h.list
  rw [items_append] at hlist ha
  rw [← headD_items]
  exact hlist.insertBefore ha

/-- **`cl_is_object_in_list`** finds the objects of the entries. -/
theorem isObjectInList (h : Shows s xs) (object : UInt64) :
    clIsObjectInList s object = some ((xs.map Prod.snd).contains object) := by
  obtain ⟨s', hremove, -⟩ := h.removeObject object
  unfold clListRemoveObject at hremove
  unfold clIsObjectInList
  obtain ⟨found, hfound, hremove⟩ := Option.bind_eq_some_iff.mp hremove
  rw [hfound, Option.map_some, Option.some_inj]
  split at hremove
  · rename_i hne
    obtain ⟨s'', -, heq⟩ := Option.map_eq_some_iff.mp hremove
    rw [← (Prod.mk.inj heq).1]
    exact decide_eq_true hne
  · rename_i heq
    rw [← (Prod.mk.inj (Option.some.inj hremove)).1]
    exact decide_eq_false heq

/-- **Every operation** does what the specification says. -/
theorem step (h : Shows s xs) {op : ClListOp} (hmeets : ClListMeets s op) :
    ∃ r s' ys, clListStep s op = some (r, s') ∧ ClListSpec s.pool xs op r ys ∧ Shows s' ys := by
  -- an insertion returns a status
  have hinsert : ∀ {call : Option (ClStatus × ClList)} {spec : ClListReply → Entries → Prop},
      (∃ r s' ys, call = some (r, s') ∧ spec (.status r) ys ∧ Shows s' ys) →
      ∃ r s' ys, call.map (fun r => (ClListReply.status r.1, r.2)) = some (r, s') ∧ spec r ys ∧ Shows s' ys := by
    rintro call spec ⟨r, s', ys, rfl, hspec, hshows⟩
    exact ⟨_, s', ys, rfl, hspec, hshows⟩
  cases op with
  | insertHead supply object =>
    have h' : Shows s ([] ++ xs) := h
    exact hinsert (h'.insertBy (fun a ha => h.list.insertHead ha) supply object)
  | insertTail supply object =>
    have h' : Shows s (xs ++ []) := by rwa [List.append_nil]
    exact hinsert (h'.insertPrev supply object)
  | insertNext supply iterator object =>
    obtain ⟨as, bs, rfl, rfl⟩ := h.splitNext hmeets
    obtain ⟨r, s', ys, hcall, hspec, hshows⟩ := hinsert (h.insertNext supply object)
    exact ⟨r, s', ys, hcall, ⟨as, bs, rfl, rfl, hspec⟩, hshows⟩
  | insertPrev supply iterator object =>
    obtain ⟨as, bs, rfl, rfl⟩ := h.splitPrev hmeets
    obtain ⟨r, s', ys, hcall, hspec, hshows⟩ := hinsert (h.insertPrev supply object)
    exact ⟨r, s', ys, hcall, ⟨as, bs, rfl, rfl, hspec⟩, hshows⟩
  | insertArrayHead array itemCount itemSize supplies =>
    exact hinsert (h.insertArrayHead array supplies hmeets)
  | insertArrayTail array itemCount itemSize supplies =>
    exact hinsert (h.insertArrayTail array itemCount itemSize supplies)
  | removeHead =>
    obtain ⟨s', hcall, hshows⟩ := h.removeHead
    exact ⟨_, s', _, by rw [clListStep, hcall, Option.map_some], ⟨rfl, rfl⟩, hshows⟩
  | removeTail =>
    obtain ⟨s', hcall, hshows⟩ := h.removeTail
    exact ⟨_, s', _, by rw [clListStep, hcall, Option.map_some], ⟨rfl, rfl⟩, hshows⟩
  | removeAll =>
    obtain ⟨s', hcall, hshows⟩ := h.removeAll
    exact ⟨_, s', _, by rw [clListStep, hcall, Option.map_some], ⟨rfl, rfl⟩, hshows⟩
  | removeObject object =>
    obtain ⟨s', hcall, hshows⟩ := h.removeObject object
    exact ⟨_, s', _, by rw [clListStep, hcall, Option.map_some], ⟨rfl, rfl⟩, hshows⟩
  | removeItem iterator =>
    obtain ⟨as, x, bs, rfl, rfl⟩ := h.split hmeets.1 hmeets.2
    obtain ⟨s', hcall, hshows⟩ := h.removeItem
    refine ⟨_, s', as ++ bs, by rw [clListStep, hcall, Option.map_some], ⟨rfl, ?_⟩, hshows⟩
    refine (eraseP_split (fun y hy => ?_) (by simp)).symm
    have hnodup := h.nodup
    rw [List.map_append, List.nodup_append] at hnodup
    have hne : y.1 ≠ x.1 := hnodup.2.2 y.1 (List.mem_map_of_mem hy) x.1 (by simp)
    simpa using hne
  | isObjectInList object =>
    exact ⟨_, s, xs, by rw [clListStep, h.isObjectInList, Option.map_some, reads], ⟨rfl, rfl⟩, h⟩
  | findFromHead pfnFunc =>
    exact ⟨_, s, xs, by rw [clListStep, h.findFromHead, Option.map_some, reads], ⟨rfl, rfl⟩, h⟩
  | findFromTail pfnFunc =>
    exact ⟨_, s, xs, by rw [clListStep, h.findFromTail, Option.map_some, reads], ⟨rfl, rfl⟩, h⟩
  | applyFunc => exact ⟨_, s, xs, by rw [clListStep, h.applyFunc, Option.map_some, reads], ⟨rfl, rfl⟩, h⟩
  | count =>
    refine ⟨_, s, xs, by rw [clListStep, reads], ⟨?_, rfl⟩, h⟩
    rw [h.list.count]
    simp [Entries.items]
  | isEmpty =>
    refine ⟨_, s, xs, by rw [clListStep, reads], ⟨?_, rfl⟩, h⟩
    rw [Bool.eq_iff_iff.mpr (h.list.isEmpty_iff.trans (by simp [Entries.items] : _ ↔ xs.isEmpty = true))]
  | head =>
    have h' : Shows s ([] ++ xs) := h
    exact ⟨_, s, xs, by rw [clListStep, h.list.head, headD_items, Option.map_some, reads], ⟨rfl, rfl⟩, h⟩
  | tail =>
    have h' : Shows s (xs ++ []) := by rwa [List.append_nil]
    have hprev : clQlistPrev s.list.links .listEnd = some (iteratorOf xs.getLast?) := h'.prev
    exact ⟨_, s, xs, by rw [clListStep, hprev, Option.map_some, reads], ⟨rfl, rfl⟩, h⟩
  | next iterator =>
    obtain ⟨as, bs, rfl, rfl⟩ := h.splitNext hmeets
    exact ⟨_, s, _, by rw [clListStep, h.next, Option.map_some, reads], ⟨⟨as, bs, rfl, rfl, rfl⟩, rfl⟩, h⟩
  | prev iterator =>
    obtain ⟨as, bs, rfl, rfl⟩ := h.splitPrev hmeets
    exact ⟨_, s, _, by rw [clListStep, h.prev, Option.map_some, reads], ⟨⟨as, bs, rfl, rfl, rfl⟩, rfl⟩, h⟩
  | obj iterator =>
    obtain ⟨as, x, bs, rfl, rfl⟩ := h.split hmeets.1 hmeets.2
    have hx : x ∈ as ++ x :: bs := by simp
    refine ⟨_, s, _, rfl, ⟨⟨x, hx, rfl, ?_⟩, rfl⟩, h⟩
    rw [h.object x hx]

end Shows

/-! ## Runs -/

/-- **A run of the entries** next to that of the code, with what its operations returned and left. -/
def Refines (s : ClList) (xs : Entries) : List ClListOp → List (ClListReply × ClList) → Prop :=
  Follows (fun xs s => Shows s xs) (fun xs s op r _ ys => ClListSpec s.pool xs op r ys) xs s

/-- **Lists refine sequences of entries.**  Every run of operations on a list that was initialized returns, whatever
the heap gives to its pool; each operation returns and does what it does on the entries, and the pointers are those
of the entries in their order. -/
theorem cl_lists_refine (malloc : Bool) (supply : Supply) (minItems : UInt64) (s : ClList)
    (hinit : clListInit malloc supply minItems = some (.success, s)) (ops : List ClListOp)
    (hops : AllMeet (fun s op => (clListStep s op).map Prod.snd) ClListMeets s ops) :
    ∃ rs, trace clListStep s ops = some rs ∧ Refines s [] ops rs := by
  apply exists_follows (R := fun ops xs s => Shows s xs ∧
    AllMeet (fun s op => (clListStep s op).map Prod.snd) ClListMeets s ops)
  · intro ops xs s h
    exact h.1
  · intro op ops xs s h
    obtain ⟨h, hmeets, hrest⟩ := h
    obtain ⟨r, s', ys, hstep, hspec, h'⟩ := h.step hmeets
    have hs' : s' ∈ (clListStep s op).map Prod.snd := by
      rw [hstep]
      rfl
    exact ⟨r, s', ys, hstep, hspec, h', hrest s' hs'⟩
  · exact ⟨⟨clListInit_holds hinit, nofun⟩, hops⟩

end

/-- Two insertions, an array for which the pool is too small, reads, and removals. -/
def sampleOps : List ClListOp :=
  [.insertTail noSupply 4096, .insertNext noSupply (.item ⟨0, 64⟩) 8192, .insertArrayTail 512 2 8 fun _ => noSupply,
    .prev (.item ⟨0, 40⟩), .findFromTail (· == 4096), .removeObject 4096, .insertHead noSupply 1024, .applyFunc,
    .removeAll, .isEmpty]

theorem cl_lists_refine_sample : ∃ rs, trace clListStep sampleList sampleOps = some rs ∧
    rs.map Prod.fst = [.status .success, .status .success, .status .insufficientMemory, .iterator (.item ⟨0, 64⟩),
      .iterator (.item ⟨0, 64⟩), .found true, .status .success, .objects [1024, 8192], .done, .found true] ∧
    Refines sampleList [] sampleOps rs := by
  obtain ⟨rs, hrs, hrefines⟩ :=
    cl_lists_refine true ⟨true, fun _ => .fail⟩ 3 sampleList sampleList_init sampleOps (by decide +kernel)
  have hreplies : (trace clListStep sampleList sampleOps).map (List.map Prod.fst) =
      some [.status .success, .status .success, .status .insufficientMemory, .iterator (.item ⟨0, 64⟩),
        .iterator (.item ⟨0, 64⟩), .found true, .status .success, .objects [1024, 8192], .done, .found true] := by
    decide +kernel
  rw [hrs] at hreplies
  exact ⟨rs, hrs, Option.some.inj hreplies, hrefines⟩

end MlnxLib.ClLists
