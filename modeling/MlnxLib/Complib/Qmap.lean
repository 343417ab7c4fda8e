import Mathlib.Order.Defs.LinearOrder
import MlnxLib.Lib.TreeHeap
import MlnxLib.Complib.Qlist

/-!
# Quick maps

Model of `cl_qmap_t` of `cl_map.c`: a red-black tree of items with parent pointers, and a list of the items in the
order of their keys.

* `ClQmap` — the two items of a map: `nil`, which is the end of the list and stands for the leaves, and `root`,
  whose left child is the root of the tree.
* `Memory` — the fields of all items, and the counts of the maps.
* `rot`, `insBal`, `delBal` — the rotations and the two loops that restore the balance, each with its mirror image
  as one definition with a side.
* `clQmapInsert`, `clQmapRemoveItem`, `clQmapGet` and the like — the calls.

The loops have a fuel of the number of items; keys are of any linear order.
-/

set_option autoImplicit false

namespace MlnxLib.Qmaps

open RedBlack

/-- `cl_qmap_t`: its items `nil` and `root`. -/
structure ClQmap (ν : Type) where
  nil : ν
  root : ν
  ne : nil ≠ root
  deriving DecidableEq, Repr

/-- `cl_map_item_t` of all items: the tree, the list item, and the key; `count` of a map is at its `nil`. -/
structure Memory (ν κ : Type) where
  tree : Heap ν
  links : Ring.Heap ν
  key : ν → κ
  count : ν → Nat

variable {ν κ : Type} [DecidableEq ν] [LinearOrder κ]

/-! ## The tree -/

/-- `__cl_map_is_left_child`. -/
def isLeftChild (h : Heap ν) (item : ν) : Bool := decide (h.child (h.up item) .left = item)

/-- The side of its parent that an item is on. -/
def sideOf (h : Heap ν) (item : ν) : Side := if isLeftChild h item then .left else .right

/-- `__cl_map_get_parent_ptr_to_item`: the parent, and which of its pointers. -/
def parentPtrToItem (h : Heap ν) (item : ν) : ν × Side := (h.up item, sideOf h item)

/-- `__cl_map_rot_left` and `__cl_map_rot_right`: the item goes down on the side `d`. -/
def rot (d : Side) (nil : ν) (h : Heap ν) (item : ν) : Heap ν :=
  let ppRoot := parentPtrToItem h item
  let child := h.child item d.other
  let h := h.setChild ppRoot.1 ppRoot.2 child
  let h := h.setUp child (h.up item)
  let grandchild := h.child child d
  let h := h.setChild item d.other grandchild
  -- the parent of the leaves is not changed
  let h := if grandchild ≠ nil then h.setUp grandchild item else h
  let h := h.setChild child d item
  h.setUp item child

/-- `__cl_map_rot_left`. -/
def clMapRotLeft (map : ClQmap ν) : Heap ν → ν → Heap ν := rot .left map.nil

/-- `__cl_map_rot_right`. -/
def clMapRotRight (map : ClQmap ν) : Heap ν → ν → Heap ν := rot .right map.nil

/-- The end of a turn of `__cl_map_ins_bal`, below a grandparent whose other child is not red. -/
def insEnd (d : Side) (nil : ν) (h : Heap ν) (item : ν) : Heap ν :=
  let h := h.setColor (h.up item) .black
  let h := h.setColor (h.up (h.up item)) .red
  rot d.other nil h (h.up (h.up item))

/-- `__cl_map_ins_bal`; `d` is the side of the grandparent that the parent is on. -/
def insBal (nil : ν) : Nat → Heap ν → ν → Option (Heap ν)
  | 0, _, _ => none
  | fuel + 1, h, item =>
    if h.color (h.up item) = .red then
      let d := sideOf h (h.up item)
      let grandUncle := h.child (h.up (h.up item)) d.other
      if h.color grandUncle = .red then
        let h := h.setColor grandUncle .black
        let h := h.setColor (h.up item) .black
        let h := h.setColor (h.up (h.up item)) .red
        insBal nil fuel h (h.up (h.up item))
      else if sideOf h item ≠ d then
        let parent := h.up item
        let h := rot d nil h parent
        insBal nil fuel (insEnd d nil h parent) parent
      else insBal nil fuel (insEnd d nil h item) item
    else some h

/-- The first part of a turn of `__cl_map_del_bal`: the heap in which the uncle is not red. -/
def delUncle (d : Side) (nil : ν) (h : Heap ν) (item : ν) : Heap ν :=
  let uncle := h.child (h.up item) d.other
  if h.color uncle = .red then
    let h := h.setColor uncle .black
    let h := h.setColor (h.up item) .red
    rot d nil h (h.up item)
  else h

/-- The last part of a turn of `__cl_map_del_bal` that ends the loop. -/
def delEnd (d : Side) (nil : ν) (h : Heap ν) (item : ν) : Heap ν :=
  let uncle := h.child (h.up item) d.other
  let h := h.setColor uncle (h.color (h.up item))
  let h := h.setColor (h.up item) .black
  let h := h.setColor (h.child uncle d.other) .black
  let h := rot d nil h (h.up item)
  h.setColor item .black

/-- `__cl_map_del_bal`; `d` is the side of its parent that the item is on. -/
def delBal (nil root : ν) : Nat → Heap ν → ν → Option (Heap ν)
  | 0, _, _ => none
  | fuel + 1, h, item =>
    if h.color item ≠ .red ∧ h.up item ≠ root then
      let d := sideOf h item
      let h := delUncle d nil h item
      let uncle := h.child (h.up item) d.other
      if h.color (h.child uncle d.other) ≠ .red then
        if h.color (h.child uncle d) ≠ .red then
          let h := h.setColor uncle .red
          delBal nil root fuel h (h.up item)
        else
          let h := h.setColor (h.child uncle d) .black
          let h := h.setColor uncle .red
          let h := rot d.other nil h uncle
          some (delEnd d nil h item)
      else some (delEnd d nil h item)
    else some (h.setColor item .black)

/-! ## Calls -/

/-- `cl_qmap_init`, with `cl_qmap_remove_all`. -/
def clQmapInit (s : Memory ν κ) (map : ClQmap ν) : Memory ν κ :=
  let h := s.tree.setUp map.root map.root
  let h := h.setChild map.root .left map.nil
  let h := h.setChild map.root .right map.nil
  let h := h.setColor map.root .black
  let h := h.setUp map.nil map.nil
  let h := h.setChild map.nil .left map.nil
  let h := h.setChild map.nil .right map.nil
  let h := h.setColor map.nil .black
  { s with
    tree := h.setChild map.root .left map.nil
    links := clQlistInit s.links map.nil
    count := Function.update s.count map.nil 0 }

/-- `__cl_map_root`. -/
def clMapRoot (s : Memory ν κ) (map : ClQmap ν) : ν := s.tree.child map.root .left

/-- `cl_qmap_head`, `cl_qmap_tail`, `cl_qmap_next` and `cl_qmap_prev`; the end of a map is its `nil`. -/
def clQmapHead (s : Memory ν κ) (map : ClQmap ν) : Option ν := (s.links map.nil).next

def clQmapTail (s : Memory ν κ) (map : ClQmap ν) : Option ν := (s.links map.nil).prev

def clQmapNext (s : Memory ν κ) (item : ν) : Option ν := (s.links item).next

def clQmapPrev (s : Memory ν κ) (item : ν) : Option ν := (s.links item).prev

/-- The loop of `cl_qmap_get`. -/
def getLoop (s : Memory ν κ) (map : ClQmap ν) (key : κ) : Nat → ν → Option ν
  | 0, _ => none
  | fuel + 1, item =>
    if item = map.nil then some item
    else if key = s.key item then some item
    else if key < s.key item then getLoop s map key fuel (s.tree.child item .left)
    else getLoop s map key fuel (s.tree.child item .right)

/-- `cl_qmap_get`. -/
def clQmapGet (s : Memory ν κ) (map : ClQmap ν) (key : κ) : Option ν :=
  getLoop s map key (s.count map.nil + 1) (clMapRoot s map)

/-- The loop of `cl_qmap_get_next`. -/
def getNextLoop (s : Memory ν κ) (map : ClQmap ν) (key : κ) : Nat → ν → ν → Option ν
  | 0, _, _ => none
  | fuel + 1, found, item =>
    if item = map.nil then some found
    else if key < s.key item then getNextLoop s map key fuel item (s.tree.child item .left)
    else getNextLoop s map key fuel found (s.tree.child item .right)

/-- `cl_qmap_get_next`. -/
def clQmapGetNext (s : Memory ν κ) (map : ClQmap ν) (key : κ) : Option ν :=
  getNextLoop s map key (s.count map.nil + 1) map.nil (clMapRoot s map)

/-- The loop of `cl_qmap_insert`: the item that has the key, or the one to insert at. -/
def insertLoop (s : Memory ν κ) (map : ClQmap ν) (key : κ) : Nat → ν → ν → Option (Bool × ν)
  | 0, _, _ => none
  | fuel + 1, insertAt, comp =>
    if comp = map.nil then some (false, insertAt)
    else if key = s.key comp then some (true, comp)
    else if key < s.key comp then insertLoop s map key fuel comp (s.tree.child comp .left)
    else insertLoop s map key fuel comp (s.tree.child comp .right)

/-- The fields that `cl_qmap_insert` sets first. -/
def newItem (s : Memory ν κ) (map : ClQmap ν) (key : κ) (item : ν) : Memory ν κ :=
  let h := s.tree.setChild item .left map.nil
  let h := h.setChild item .right map.nil
  { s with tree := h.setColor item .red, key := Function.update s.key item key }

/-- Where `cl_qmap_insert` puts the item: the pointer of the tree, and the item of the list that it goes in front
of. -/
def insertPlace (s : Memory ν κ) (map : ClQmap ν) (key : κ) (insertAt : ν) : Option (Side × ν) :=
  if insertAt = map.root then some (.left, map.nil)
  else if key < s.key insertAt then some (.left, insertAt)
  else (clQmapNext s insertAt).map fun next => (.right, next)

/-- `cl_qmap_insert`: the item with the key after it. -/
def clQmapInsert (s : Memory ν κ) (map : ClQmap ν) (key : κ) (item : ν) : Option (ν × Memory ν κ) :=
  let s := newItem s map key item
  (insertLoop s map key (s.count map.nil + 1) map.root (clMapRoot s map)).bind fun r =>
    if r.1 then some (r.2, s) else
    (insertPlace s map key r.2).bind fun place =>
    let h := (s.tree.setChild r.2 place.1 item).setUp item r.2
    (insBal map.nil (s.count map.nil + 2) h item).map fun h =>
      (item, { s with
        tree := h.setColor (h.child map.root .left) .black
        links := clPrimitiveInsert s.links place.2 item
        count := Function.update s.count map.nil (s.count map.nil + 1) })

/-- The end of `cl_qmap_remove_item`: the substitute gets the place of the item. -/
def exchange (h : Heap ν) (item delItem : ν) : Heap ν :=
  let h := h.setUp delItem (h.up item)
  let h := h.setChild delItem .left (h.child item .left)
  let h := h.setChild delItem .right (h.child item .right)
  let ppItem := parentPtrToItem h item
  let h := h.setChild ppItem.1 ppItem.2 delItem
  let h := h.setUp (h.child item .right) delItem
  let h := h.setUp (h.child item .left) delItem
  h.setColor delItem (h.color item)

/-- The item that leaves the tree first. -/
def delItemOf (s : Memory ν κ) (map : ClQmap ν) (item : ν) : Option ν :=
  if s.tree.child item .right = map.nil ∨ s.tree.child item .left = map.nil then some item
  else clQmapNext s item

/-- `cl_qmap_remove_item`. -/
def clQmapRemoveItem (s : Memory ν κ) (map : ClQmap ν) (item : ν) : Option (Memory ν κ) :=
  if item = map.nil then some s else
  (delItemOf s map item).bind fun delItem =>
    let links := clPrimitiveRemove s.links item
    let child := if s.tree.child delItem .left ≠ map.nil then s.tree.child delItem .left
      else s.tree.child delItem .right
    -- this may be the parent of the leaves
    let h := s.tree.setUp child (s.tree.up delItem)
    let ppItem := parentPtrToItem h delItem
    let h := h.setChild ppItem.1 ppItem.2 child
    (if h.color delItem ≠ .red then delBal map.nil map.root (s.count map.nil + 2) h child else some h).map fun h =>
      { s with
        tree := if delItem ≠ item then exchange h item delItem else h
        links := links
        count := Function.update s.count map.nil (s.count map.nil - 1) }

/-- `cl_qmap_remove`. -/
def clQmapRemove (s : Memory ν κ) (map : ClQmap ν) (key : κ) : Option (ν × Memory ν κ) :=
  (clQmapGet s map key).bind fun item => (clQmapRemoveItem s map item).map fun s => (item, s)

end MlnxLib.Qmaps
