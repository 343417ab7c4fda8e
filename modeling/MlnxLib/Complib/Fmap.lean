import MlnxLib.Complib.QmapMerge

/-!
# Flexi maps

Model of `cl_fmap_t` of `cl_map.c`, a copy of the quick maps with a compare function for the keys.  The copy is
modelled by itself, each mirror image with its own branch.

* `ClFmap` — the two items of a map, and its compare function.
* `clFmapRotLeft`, `clFmapRotRight`, `fmapInsBal`, `fmapDelBal` — the rotations and the loops on the colours.
* `clFmapInsert`, `clFmapRemoveItem`, `clFmapMatch` and the like — the calls.

The memory is that of the quick maps, with the pointers to the keys in the place of the keys.
-/

set_option autoImplicit false

namespace MlnxLib.Fmaps

open RedBlack Qmaps

/-- `cl_fmap_t`: its items `nil` and `root`, and `pfn_compare`. -/
structure ClFmap (ν K : Type) where
  nil : ν
  root : ν
  ne : nil ≠ root
  pfnCompare : K → K → Int

variable {ν K : Type} [DecidableEq ν]

/-! ## The tree -/

/-- `__cl_fmap_is_left_child`. -/
def fmapIsLeftChild (h : Heap ν) (item : ν) : Bool := decide (h.child (h.up item) .left = item)

/-- `__cl_fmap_get_parent_ptr_to_item`. -/
def fmapParentPtrToItem (h : Heap ν) (item : ν) : ν × Side :=
  if fmapIsLeftChild h item then (h.up item, .left) else (h.up item, .right)

/-- `__cl_fmap_rot_left`. -/
def clFmapRotLeft (map : ClFmap ν K) (h : Heap ν) (item : ν) : Heap ν :=
  let ppRoot := fmapParentPtrToItem h item
  let root := h.child item .right
  let h := h.setChild ppRoot.1 ppRoot.2 root
  let h := h.setUp root (h.up item)
  let left := h.child root .left
  let h := h.setChild item .right left
  let h := if left ≠ map.nil then h.setUp left item else h
  let h := h.setChild root .left item
  h.setUp item root

/-- `__cl_fmap_rot_right`. -/
def clFmapRotRight (map : ClFmap ν K) (h : Heap ν) (item : ν) : Heap ν :=
  let ppRoot := fmapParentPtrToItem h item
  let root := h.child item .left
  let h := h.setChild ppRoot.1 ppRoot.2 root
  let h := h.setUp root (h.up item)
  let right := h.child root .right
  let h := h.setChild item .left right
  let h := if right ≠ map.nil then h.setUp right item else h
  let h := h.setChild root .right item
  h.setUp item root

/-- `__cl_fmap_ins_bal`. -/
def fmapInsBal (map : ClFmap ν K) : Nat → Heap ν → ν → Option (Heap ν)
  | 0, _, _ => none
  | fuel + 1, h, item =>
    if h.color (h.up item) = .red then
      if fmapIsLeftChild h (h.up item) then
        let grandUncle := h.child (h.up (h.up item)) .right
        if h.color grandUncle = .red then
          let h := h.setColor grandUncle .black
          let h := h.setColor (h.up item) .black
          let h := h.setColor (h.up (h.up item)) .red
          fmapInsBal map fuel h (h.up (h.up item))
        else
          let turn := if !fmapIsLeftChild h item then (h.up item, clFmapRotLeft map h (h.up item)) else (item, h)
          let item := turn.1
          let h := turn.2.setColor (turn.2.up item) .black
          let h := h.setColor (h.up (h.up item)) .red
          fmapInsBal map fuel (clFmapRotRight map h (h.up (h.up item))) item
      else
        let grandUncle := h.child (h.up (h.up item)) .left
        if h.color grandUncle = .red then
          let h := h.setColor grandUncle .black
          let h := h.setColor (h.up item) .black
          let h := h.setColor (h.up (h.up item)) .red
          fmapInsBal map fuel h (h.up (h.up item))
        else
          let turn := if fmapIsLeftChild h item then (h.up item, clFmapRotRight map h (h.up item)) else (item, h)
          let item := turn.1
          let h := turn.2.setColor (turn.2.up item) .black
          let h := h.setColor (h.up (h.up item)) .red
          fmapInsBal map fuel (clFmapRotLeft map h (h.up (h.up item))) item
    else some h

/-- The end of the left branch of `__cl_fmap_del_bal`. -/
def fmapDelEndLeft (map : ClFmap ν K) (h : Heap ν) (item uncle : ν) : Heap ν :=
  let h := h.setColor uncle (h.color (h.up item))
  let h := h.setColor (h.up item) .black
  let h := h.setColor (h.child uncle .right) .black
  let h := clFmapRotLeft map h (h.up item)
  h.setColor item .black

/-- The end of the right branch of `__cl_fmap_del_bal`. -/
def fmapDelEndRight (map : ClFmap ν K) (h : Heap ν) (item uncle : ν) : Heap ν :=
  let h := h.setColor uncle (h.color (h.up item))
  let h := h.setColor (h.up item) .black
  let h := h.setColor (h.child uncle .left) .black
  let h := clFmapRotRight map h (h.up item)
  h.setColor item .black

/-- `__cl_fmap_del_bal`. -/
def fmapDelBal (map : ClFmap ν K) : Nat → Heap ν → ν → Option (Heap ν)
  | 0, _, _ => none
  | fuel + 1, h, item =>
    if h.color item ≠ .red ∧ h.up item ≠ map.root then
      if fmapIsLeftChild h item then
        let uncle := h.child (h.up item) .right
        let turn := if h.color uncle = .red then
            let h := h.setColor uncle .black
            let h := h.setColor (h.up item) .red
            let h := clFmapRotLeft map h (h.up item)
            (h.child (h.up item) .right, h)
          else (uncle, h)
        let uncle := turn.1
        let h := turn.2
        if h.color (h.child uncle .right) ≠ .red then
          if h.color (h.child uncle .left) ≠ .red then
            let h := h.setColor uncle .red
            fmapDelBal map fuel h (h.up item)
          else
            let h := h.setColor (h.child uncle .left) .black
            let h := h.setColor uncle .red
            let h := clFmapRotRight map h uncle
            some (fmapDelEndLeft map h item (h.child (h.up item) .right))
        else some (fmapDelEndLeft map h item uncle)
      else
        let uncle := h.child (h.up item) .left
        let turn := if h.color uncle = .red then
            let h := h.setColor uncle .black
            let h := h.setColor (h.up item) .red
            let h := clFmapRotRight map h (h.up item)
            (h.child (h.up item) .left, h)
          else (uncle, h)
        let uncle := turn.1
        let h := turn.2
        if h.color (h.child uncle .left) ≠ .red then
          if h.color (h.child uncle .right) ≠ .red then
            let h := h.setColor uncle .red
            fmapDelBal map fuel h (h.up item)
          else
            let h := h.setColor (h.child uncle .right) .black
            let h := h.setColor uncle .red
            let h := clFmapRotLeft map h uncle
            some (fmapDelEndRight map h item (h.child (h.up item) .left))
        else some (fmapDelEndRight map h item uncle)
    else some (h.setColor item .black)

/-! ## Calls -/

/-- `cl_fmap_init`, with `cl_fmap_remove_all`. -/
def clFmapInit (s : Memory ν K) (map : ClFmap ν K) : Memory ν K :=
  let h := s.tree.setUp map.root map.root
  let h := h.setChild map.root .left map.nil
  let h := h.setChild map.root .right map.nil
  let h := h.setColor map.root .black
  let h := h.setUp map.nil map.nil
  let h := h.setChild map.nil .left map.nil
  let h := h.setChild map.nil .right map.nil
  let h := h.setColor map.nil .black
  { s with
    tree := h.setChild map.root .left map.nil
    links := clQlistInit s.links map.nil
    count := Function.update s.count map.nil 0 }

/-- `__cl_fmap_root`. -/
def clFmapRoot (s : Memory ν K) (map : ClFmap ν K) : ν := s.tree.child map.root .left

/-- `cl_fmap_head` and `cl_fmap_next`; the end of a map is its `nil`. -/
def clFmapHead (s : Memory ν K) (map : ClFmap ν K) : Option ν := (s.links map.nil).next

def clFmapNext (s : Memory ν K) (item : ν) : Option ν := (s.links item).next

/-- The loop of `cl_fmap_match`. -/
def matchLoop (s : Memory ν K) (map : ClFmap ν K) (key : K) (pfnCompare : Option (K → K → Int)) : Nat → ν → Option ν
  | 0, _ => none
  | fuel + 1, item =>
    if item ≠ map.nil then
      let cmp := (pfnCompare.getD map.pfnCompare) key (s.key item)
      if cmp = 0 then some item
      else if cmp < 0 then matchLoop s map key pfnCompare fuel (s.tree.child item .left)
      else matchLoop s map key pfnCompare fuel (s.tree.child item .right)
    else some item

/-- `cl_fmap_match`; without a compare function it uses that of the map. -/
def clFmapMatch (s : Memory ν K) (map : ClFmap ν K) (key : K) (pfnCompare : Option (K → K → Int)) : Option ν :=
  matchLoop s map key pfnCompare (s.count map.nil + 1) (clFmapRoot s map)

/-- `cl_fmap_get`. -/
def clFmapGet (s : Memory ν K) (map : ClFmap ν K) (key : K) : Option ν := clFmapMatch s map key (some map.pfnCompare)

/-- The loop of `cl_fmap_get_next`. -/
def fmapGetNextLoop (s : Memory ν K) (map : ClFmap ν K) (key : K) : Nat → ν → ν → Option ν
  | 0, _, _ => none
  | fuel + 1, found, item =>
    if item ≠ map.nil then
      if map.pfnCompare key (s.key item) < 0 then fmapGetNextLoop s map key fuel item (s.tree.child item .left)
      else fmapGetNextLoop s map key fuel found (s.tree.child item .right)
    else some found

/-- `cl_fmap_get_next`. -/
def clFmapGetNext (s : Memory ν K) (map : ClFmap ν K) (key : K) : Option ν :=
  fmapGetNextLoop s map key (s.count map.nil + 1) map.nil (clFmapRoot s map)

/-- What the loop of `cl_fmap_insert` leaves: whether an item has the key, the last result of the compare function,
and that item or the one to insert at. -/
structure Place (ν : Type) where
  present : Bool
  cmp : Int
  insertAt : ν

/-- The loop of `cl_fmap_insert`. -/
def fmapInsertLoop (s : Memory ν K) (map : ClFmap ν K) (key : K) : Nat → Int → ν → ν → Option (Place ν)
  | 0, _, _, _ => none
  | fuel + 1, cmp, insertAt, comp =>
    if comp ≠ map.nil then
      let cmp := map.pfnCompare key (s.key comp)
      if cmp = 0 then some ⟨true, cmp, comp⟩
      else if cmp < 0 then fmapInsertLoop s map key fuel cmp comp (s.tree.child comp .left)
      else fmapInsertLoop s map key fuel cmp comp (s.tree.child comp .right)
    else some ⟨false, cmp, insertAt⟩

/-- The fields that `cl_fmap_insert` sets first. -/
def fmapNewItem (s : Memory ν K) (map : ClFmap ν K) (key : K) (item : ν) : Memory ν K :=
  let h := s.tree.setChild item .left map.nil
  let h := h.setChild item .right map.nil
  { s with tree := h.setColor item .red, key := Function.update s.key item key }

/-- Where `cl_fmap_insert` puts the item, by the last result of the compare function. -/
def fmapInsertPlace (s : Memory ν K) (map : ClFmap ν K) (place : Place ν) : Option (Side × ν) :=
  if place.insertAt = map.root then some (.left, map.nil)
  else if place.cmp < 0 then some (.left, place.insertAt)
  else (clFmapNext s place.insertAt).map fun next => (.right, next)

/-- `cl_fmap_insert`: the item with the key after it. -/
def clFmapInsert (s : Memory ν K) (map : ClFmap ν K) (key : K) (item : ν) : Option (ν × Memory ν K) :=
  let s := fmapNewItem s map key item
  (fmapInsertLoop s map key (s.count map.nil + 1) 0 map.root (clFmapRoot s map)).bind fun place =>
    if place.present then some (place.insertAt, s) else
    (fmapInsertPlace s map place).bind fun slot =>
    let h := (s.tree.setChild place.insertAt slot.1 item).setUp item place.insertAt
    (fmapInsBal map (s.count map.nil + 2) h item).map fun h =>
      (item, { s with
        tree := h.setColor (h.child map.root .left) .black
        links := clPrimitiveInsert s.links slot.2 item
        count := Function.update s.count map.nil (s.count map.nil + 1) })

/-- The item that leaves the tree first. -/
def fmapDelItemOf (s : Memory ν K) (map : ClFmap ν K) (item : ν) : Option ν :=
  if s.tree.child item .right = map.nil ∨ s.tree.child item .left = map.nil then some item
  else clFmapNext s item

/-- The end of `cl_fmap_remove_item`: the substitute gets the place of the item. -/
def fmapExchange (h : Heap ν) (item delItem : ν) : Heap ν :=
  let h := h.setUp delItem (h.up item)
  let h := h.setChild delItem .left (h.child item .left)
  let h := h.setChild delItem .right (h.child item .right)
  let ppItem := fmapParentPtrToItem h item
  let h := h.setChild ppItem.1 ppItem.2 delItem
  let h := h.setUp (h.child item .right) delItem
  let h := h.setUp (h.child item .left) delItem
  h.setColor delItem (h.color item)

/-- `cl_fmap_remove_item`. -/
def clFmapRemoveItem (s : Memory ν K) (map : ClFmap ν K) (item : ν) : Option (Memory ν K) :=
  if item = map.nil then some s else
  (fmapDelItemOf s map item).bind fun delItem =>
    let links := clPrimitiveRemove s.links item
    let child := if s.tree.child delItem .left ≠ map.nil then s.tree.child delItem .left
      else s.tree.child delItem .right
    let h := s.tree.setUp child (s.tree.up delItem)
    let ppItem := fmapParentPtrToItem h delItem
    let h := h.setChild ppItem.1 ppItem.2 child
    (if h.color delItem ≠ .red then fmapDelBal map (s.count map.nil + 2) h child else some h).map fun h =>
      { s with
        tree := if delItem ≠ item then fmapExchange h item delItem else h
        links := links
        count := Function.update s.count map.nil (s.count map.nil - 1) }

/-- `cl_fmap_remove`. -/
def clFmapRemove (s : Memory ν K) (map : ClFmap ν K) (key : K) : Option (ν × Memory ν K) :=
  (clFmapGet s map key).bind fun item => (clFmapRemoveItem s map item).map fun s => (item, s)

/-- One turn of the loop of `cl_fmap_merge`. -/
def fmapMergeTurn (dest src : ClFmap ν K) (s : Memory ν K) (item : ν) : Option (Memory ν K) :=
  (clFmapRemoveItem s src item).bind fun s =>
  (clFmapInsert s dest (s.key item) item).bind fun r =>
    if r.1 ≠ item then (clFmapInsert r.2 src (r.2.key item) item).map (·.2) else some r.2

def fmapMergeLoop (dest src : ClFmap ν K) : Nat → Memory ν K → ν → Option (Memory ν K)
  | 0, _, _ => none
  | fuel + 1, s, item =>
    if item ≠ src.nil then
      (clFmapNext s item).bind fun next =>
        (fmapMergeTurn dest src s item).bind fun s => fmapMergeLoop dest src fuel s next
    else some s

/-- `cl_fmap_merge`. -/
def clFmapMerge (s : Memory ν K) (dest src : ClFmap ν K) : Option (Memory ν K) :=
  (clFmapHead s src).bind fun item => fmapMergeLoop dest src (s.count src.nil + 1) s item

/-- `__cl_fmap_delta_move`: the item after the one that is moved, and the memory. -/
def clFmapDeltaMove (dest src : ClFmap ν K) (s : Memory ν K) (item : ν) : Option (ν × Memory ν K) :=
  (clFmapNext s item).bind fun next => (clFmapRemoveItem s src item).bind fun s =>
    (clFmapInsert s dest (s.key item) item).map fun r => (next, r.2)

/-- The loop of `cl_fmap_delta` on both maps; the compare function is that of the first. -/
def fmapDeltaLoop (map1 map2 new old : ClFmap ν K) : Nat → Memory ν K → ν → ν → Option (Memory ν K × ν × ν)
  | 0, _, _, _ => none
  | fuel + 1, s, item1, item2 =>
    if item1 ≠ map1.nil ∧ item2 ≠ map2.nil then
      let cmp := map1.pfnCompare (s.key item1) (s.key item2)
      if cmp < 0 then
        (clFmapDeltaMove old map1 s item1).bind fun r => fmapDeltaLoop map1 map2 new old fuel r.2 r.1 item2
      else if cmp > 0 then
        (clFmapDeltaMove new map2 s item2).bind fun r => fmapDeltaLoop map1 map2 new old fuel r.2 item1 r.1
      else
        (clFmapNext s item1).bind fun next1 => (clFmapNext s item2).bind fun next2 =>
          fmapDeltaLoop map1 map2 new old fuel s next1 next2
    else some (s, item1, item2)

/-- The two loops on the remainder. -/
def fmapRestLoop (dest src : ClFmap ν K) : Nat → Memory ν K → ν → Option (Memory ν K)
  | 0, _, _ => none
  | fuel + 1, s, item =>
    if item ≠ src.nil then (clFmapDeltaMove dest src s item).bind fun r => fmapRestLoop dest src fuel r.2 r.1
    else some s

/-- `cl_fmap_delta`. -/
def clFmapDelta (s : Memory ν K) (map1 map2 new old : ClFmap ν K) : Option (Memory ν K) :=
  (clFmapHead s map1).bind fun item1 => (clFmapHead s map2).bind fun item2 =>
  (fmapDeltaLoop map1 map2 new old (s.count map1.nil + s.count map2.nil + 1) s item1 item2).bind fun r =>
  (fmapRestLoop new map2 (s.count map2.nil + 1) r.1 r.2.2).bind fun s' =>
    fmapRestLoop old map1 (s.count map1.nil + 1) s' r.2.1

end MlnxLib.Fmaps
