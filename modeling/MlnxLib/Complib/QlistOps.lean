import MlnxLib.Complib.Qlist

/-!
# Quick lists that share their items

Any number of lists over the same items, with the operations of `cl_qlist.h` and `cl_list.c` that insert,
remove and splice.

* `Lists` — the links of all items and end items, and the count of each list.
* `Op`, `codeStep` — an operation, pointer by pointer; `act`, `answer` — what it does to the sequences, and
  what it returns; `Allowed` — what its caller has to see to.
* `Represents s σ` — each list that is initialized has the items of its sequence.

The links of an item that is in no list are arbitrary.  `cl_qlist_move_items` takes a function that depends on
the item only.

Principal results: `Represents.insert`, `Represents.remove` — an item that is inserted or removed at any place
of a list; the links of all other lists are as they were.
-/

set_option autoImplicit false

namespace MlnxLib.Qlists

/-! ## Lists over shared items -/

/-- The end item of a list, or an item. -/
inductive Node (ι κ : Type) where
  | listEnd (l : ι)
  | item (x : κ)
  deriving DecidableEq, Repr

/-- The memory of the lists. -/
structure Lists (ι κ : Type) where
  links : Ring.Heap (Node ι κ)
  count : ι → Nat

variable {ι κ : Type}

/-- A list of the memory. -/
def Lists.list (s : Lists ι κ) (l : ι) : Qlist (Node ι κ) := ⟨s.links, s.count l⟩

/-- `cl_qlist_tail`: the item before the end item. -/
def clQlistTail (h : Ring.Heap (Node ι κ)) (l : ι) : Option (Node ι κ) := clQlistPrev h (.listEnd l)

/-- An item as a position, or the end of the list. -/
def node (l : ι) : Option κ → Node ι κ
  | none => .listEnd l
  | some x => .item x

section Code

variable [DecidableEq ι] [DecidableEq κ]

/-- The memory after an operation on one list. -/
def Lists.set (s : Lists ι κ) (l : ι) (list : Qlist (Node ι κ)) : Lists ι κ :=
  ⟨list.links, Function.update s.count l list.count⟩

/-- `__cl_qlist_reset`, which is all that `cl_qlist_init` does. -/
def clQlistReset (s : Lists ι κ) (l : ι) : Lists ι κ := s.set l ⟨clQlistInit s.links (.listEnd l), 0⟩

/-- `cl_qlist_insert_tail`. -/
def insertTail (s : Lists ι κ) (l : ι) (newItem : Node ι κ) : Lists ι κ :=
  s.set l ⟨clQlistInsertTail s.links (.listEnd l) newItem, s.count l + 1⟩

/-- `cl_qlist_insert_prev`. -/
def insertPrev (s : Lists ι κ) (l : ι) (listItem newItem : Node ι κ) : Lists ι κ :=
  s.set l ⟨clPrimitiveInsert s.links listItem newItem, s.count l + 1⟩

/-- `a->p_next = v`. -/
def writeNext (h : Ring.Heap (Node ι κ)) (a v : Option (Node ι κ)) : Option (Ring.Heap (Node ι κ)) :=
  a.map fun a => Ring.setNext h a v

/-- `a->p_prev = v`. -/
def writePrev (h : Ring.Heap (Node ι κ)) (a v : Option (Node ι κ)) : Option (Ring.Heap (Node ι κ)) :=
  a.map fun a => Ring.setPrev h a v

/-- The end of `cl_qlist_insert_list_head` and of `cl_qlist_insert_list_tail`. -/
def endSplice (s : Lists ι κ) (destList srcList : ι) (h : Ring.Heap (Node ι κ)) : Lists ι κ :=
  clQlistReset ⟨h, Function.update s.count destList (s.count destList + s.count srcList)⟩ srcList

/-- `cl_qlist_insert_list_head`. -/
def clQlistInsertListHead (s : Lists ι κ) (destList srcList : ι) : Option (Lists ι κ) :=
  if clIsQlistEmpty (s.list srcList) then some s else
  (writeNext s.links (clQlistTail s.links srcList) (clQlistHead s.links (.listEnd destList))).bind fun h₁ =>
  (writePrev h₁ (clQlistHead h₁ (.listEnd destList)) (clQlistTail h₁ srcList)).bind fun h₂ =>
  let h₃ := Ring.setNext h₂ (.listEnd destList) (clQlistHead h₂ (.listEnd srcList))
  (writePrev h₃ (clQlistHead h₃ (.listEnd srcList)) (some (.listEnd destList))).map
    (endSplice s destList srcList)

/-- `cl_qlist_insert_list_tail`. -/
def clQlistInsertListTail (s : Lists ι κ) (destList srcList : ι) : Option (Lists ι κ) :=
  if clIsQlistEmpty (s.list srcList) then some s else
  (writeNext s.links (clQlistTail s.links destList) (clQlistHead s.links (.listEnd srcList))).bind fun h₁ =>
  (writePrev h₁ (clQlistHead h₁ (.listEnd srcList)) (clQlistTail h₁ destList)).bind fun h₂ =>
  let h₃ := Ring.setPrev h₂ (.listEnd destList) (clQlistTail h₂ srcList)
  (writeNext h₃ (clQlistTail h₃ srcList) (some (.listEnd destList))).map (endSplice s destList srcList)

/-- The loop of `cl_qlist_move_items`, from `currentItem` on. -/
def moveLoop (srcList destList : ι) (pfnFunc : Node ι κ → Bool) :
    Nat → Lists ι κ → Node ι κ → Option (Lists ι κ)
  | 0, _, _ => none
  | fuel + 1, s, currentItem =>
    if currentItem = .listEnd srcList then some s else
    (clQlistNext s.links currentItem).bind fun next =>
    if pfnFunc currentItem then
      let s := s.set srcList (clQlistRemoveItem (s.list srcList) (.listEnd srcList) currentItem)
      moveLoop srcList destList pfnFunc fuel (insertTail s destList currentItem) next
    else moveLoop srcList destList pfnFunc fuel s next

/-- `cl_qlist_move_items`. -/
def clQlistMoveItems (s : Lists ι κ) (srcList destList : ι) (pfnFunc : Node ι κ → Bool) :
    Option (Lists ι κ) :=
  (clQlistHead s.links (.listEnd srcList)).bind
    (moveLoop srcList destList pfnFunc (s.count srcList + 1) s)

/-! ## Operations -/

/-- An operation; a position is an item of the list, or its end item. -/
inductive Op (ι κ : Type) where
  | init (l : ι)
  | insertHead (l : ι) (x : κ)
  | insertTail (l : ι) (x : κ)
  | insertNext (l : ι) (position : Option κ) (x : κ)
  | insertPrev (l : ι) (position : Option κ) (x : κ)
  | removeItem (l : ι) (x : κ)
  | removeHead (l : ι)
  | removeTail (l : ι)
  | insertListHead (destList srcList : ι)
  | insertListTail (destList srcList : ι)
  | moveItems (srcList destList : ι) (pfnFunc : κ → Bool)

/-- The lists that an operation is about. -/
def Op.lists : Op ι κ → List ι
  | .init l => [l]
  | .insertHead l _ => [l]
  | .insertTail l _ => [l]
  | .insertNext l _ _ => [l]
  | .insertPrev l _ _ => [l]
  | .removeItem l _ => [l]
  | .removeHead l => [l]
  | .removeTail l => [l]
  | .insertListHead destList srcList => [destList, srcList]
  | .insertListTail destList srcList => [destList, srcList]
  | .moveItems srcList destList _ => [srcList, destList]

/-- The function of `cl_qlist_move_items`; it is not called with an end item. -/
def onItems (pfnFunc : κ → Bool) : Node ι κ → Bool
  | .listEnd _ => false
  | .item x => pfnFunc x

/-- An operation of the code: what it returns, and the memory after it. -/
def codeStep (s : Lists ι κ) : Op ι κ → Option (Option (Node ι κ) × Lists ι κ)
  | .init l => some (none, clQlistReset s l)
  | .insertHead l x => (clQlistInsertHead (s.list l) (.listEnd l) (.item x)).map fun q => (none, s.set l q)
  | .insertTail l x => some (none, Qlists.insertTail s l (.item x))
  | .insertNext l position x =>
    (clQlistInsertNext (s.list l) (node l position) (.item x)).map fun q => (none, s.set l q)
  | .insertPrev l position x => some (none, Qlists.insertPrev s l (node l position) (.item x))
  | .removeItem l x => some (none, s.set l (clQlistRemoveItem (s.list l) (.listEnd l) (.item x)))
  | .removeHead l => (clQlistRemoveHead (s.list l) (.listEnd l)).map fun r => (some r.1, s.set l r.2)
  | .removeTail l => (clQlistRemoveTail (s.list l) (.listEnd l)).map fun r => (some r.1, s.set l r.2)
  | .insertListHead destList srcList => (clQlistInsertListHead s destList srcList).map fun s => (none, s)
  | .insertListTail destList srcList => (clQlistInsertListTail s destList srcList).map fun s => (none, s)
  | .moveItems srcList destList pfnFunc =>
    (clQlistMoveItems s srcList destList (onItems pfnFunc)).map fun s => (none, s)

/-! ## Sequences -/

/-- The sequences of the lists that are initialized. -/
abbrev Seqs (ι κ : Type) := ι → Option (List κ)

/-- `x` comes after an item of the sequence. -/
def insertAfter (y x : κ) : List κ → List κ
  | [] => []
  | z :: zs => if z = y then z :: x :: zs else z :: insertAfter y x zs

/-- `x` comes before an item of the sequence. -/
def insertBefore (y x : κ) : List κ → List κ
  | [] => []
  | z :: zs => if z = y then x :: z :: zs else z :: insertBefore y x zs

/-- What an operation does to the sequences. -/
def act (σ : Seqs ι κ) : Op ι κ → Seqs ι κ
  | .init l => Function.update σ l (some [])
  | .insertHead l x => Function.update σ l ((σ l).map (x :: ·))
  | .insertTail l x => Function.update σ l ((σ l).map (· ++ [x]))
  | .insertNext l none x => Function.update σ l ((σ l).map (x :: ·))
  | .insertNext l (some y) x => Function.update σ l ((σ l).map (insertAfter y x))
  | .insertPrev l none x => Function.update σ l ((σ l).map (· ++ [x]))
  | .insertPrev l (some y) x => Function.update σ l ((σ l).map (insertBefore y x))
  | .removeItem l x => Function.update σ l ((σ l).map (·.erase x))
  | .removeHead l => Function.update σ l ((σ l).map List.tail)
  | .removeTail l => Function.update σ l ((σ l).map List.dropLast)
  | .insertListHead destList srcList =>
    Function.update (Function.update σ destList ((σ destList).map ((σ srcList).getD [] ++ ·))) srcList (some [])
  | .insertListTail destList srcList =>
    Function.update (Function.update σ destList ((σ destList).map (· ++ (σ srcList).getD []))) srcList (some [])
  | .moveItems srcList destList pfnFunc =>
    Function.update
      (Function.update σ destList ((σ destList).map (· ++ ((σ srcList).getD []).filter pfnFunc)))
      srcList ((σ srcList).map (·.filter fun x => !pfnFunc x))

/-- What an operation returns: the item, or the end item of an empty list. -/
def answer (σ : Seqs ι κ) : Op ι κ → Option (Node ι κ)
  | .removeHead l => some (node l ((σ l).bind List.head?))
  | .removeTail l => some (node l ((σ l).bind List.getLast?))
  | _ => none

end Code

/-- The item is in no list. -/
def Fresh (σ : Seqs ι κ) (x : κ) : Prop := ∀ l xs, σ l = some xs → x ∉ xs

/-- The position is in the list. -/
def InList (σ : Seqs ι κ) (l : ι) : Option κ → Prop
  | none => ∃ xs, σ l = some xs
  | some x => ∃ xs, σ l = some xs ∧ x ∈ xs

/-- **What the callers see to**: lists are initialized, an item that is inserted is in no list, one that is
removed is in the list, and the lists of an operation are different. -/
def Allowed (σ : Seqs ι κ) : Op ι κ → Prop
  | .init _ => True
  | .insertHead l x => InList σ l none ∧ Fresh σ x
  | .insertTail l x => InList σ l none ∧ Fresh σ x
  | .insertNext l position x => InList σ l position ∧ Fresh σ x
  | .insertPrev l position x => InList σ l position ∧ Fresh σ x
  | .removeItem l x => InList σ l (some x)
  | .removeHead l => InList σ l none
  | .removeTail l => InList σ l none
  | .insertListHead destList srcList => InList σ destList none ∧ InList σ srcList none ∧ destList ≠ srcList
  | .insertListTail destList srcList => InList σ destList none ∧ InList σ srcList none ∧ destList ≠ srcList
  | .moveItems srcList destList _ => InList σ srcList none ∧ InList σ destList none ∧ srcList ≠ destList

/-- The nodes of a list. -/
def nodes (l : ι) (xs : List κ) : List (Node ι κ) := .listEnd l :: xs.map .item

/-- Each item is in one list. -/
def Separate (σ : Seqs ι κ) : Prop :=
  ∀ l l' xs xs' x, σ l = some xs → σ l' = some xs' → x ∈ xs → x ∈ xs' → l = l'

/-- **The lists have the items of their sequences**, and each item is in one list. -/
structure Represents (s : Lists ι κ) (σ : Seqs ι κ) : Prop where
  list : ∀ {l xs}, σ l = some xs → IsQlist (s.list l) (.listEnd l) (xs.map .item)
  separate : Separate σ

/-- The links of the lists but for those of `ls` are as they were. -/
def Untouched (s s' : Lists ι κ) (σ : Seqs ι κ) (ls : List ι) : Prop :=
  ∀ l, l ∉ ls → ∀ xs, σ l = some xs → ∀ n ∈ nodes l xs, s'.links n = s.links n

section

variable {s s' : Lists ι κ} {σ σ' : Seqs ι κ} {l l' : ι} {ls : List ι} {x : κ} {xs xs' as bs : List κ}

theorem item_ne_listEnd : (Node.item x : Node ι κ) ≠ .listEnd l := nofun

@[simp] theorem item_mem_nodes : Node.item x ∈ nodes l xs ↔ x ∈ xs := by
  simp [nodes]

@[simp] theorem listEnd_mem_nodes : Node.listEnd l' ∈ nodes l xs ↔ l' = l := by
  simp [nodes]

namespace Represents

/-- No node is in two lists. -/
theorem disjoint (h : Represents s σ) (hl : σ l = some xs) (hl' : σ l' = some xs') (hne : l ≠ l')
    {n : Node ι κ} (hn : n ∈ nodes l xs) : n ∉ nodes l' xs' := by
  cases n with
  | listEnd m =>
    rw [listEnd_mem_nodes] at hn ⊢
    exact fun hm => hne (hn.symm.trans hm)
  | item x =>
    rw [item_mem_nodes] at hn ⊢
    exact fun hx => hne (h.separate l l' xs xs' x hl hl' hn hx)

theorem ring (h : Represents s σ) (hl : σ l = some xs) : Ring.IsRing s.links (.listEnd l) (xs.map .item) :=
  (h.list hl).ring

theorem nodup (h : Represents s σ) (hl : σ l = some xs) : xs.Nodup := (h.ring hl).nodup.of_map _

/-- The lists that change are right, and the others are as they were. -/
theorem change (h : Represents s σ) (huntouched : Untouched s s' σ ls)
    (hcount : ∀ l, l ∉ ls → s'.count l = s.count l) (hsame : ∀ l, l ∉ ls → σ' l = σ l)
    (hlist : ∀ l ∈ ls, ∀ xs, σ' l = some xs → IsQlist (s'.list l) (.listEnd l) (xs.map .item))
    (hseparate : Separate σ') : Represents s' σ' where
  list {l xs} hl := by
    by_cases hmem : l ∈ ls
    · exact hlist l hmem xs hl
    · rw [hsame l hmem] at hl
      have hq := h.list hl
      exact ⟨hq.ring.frame (huntouched l hmem xs hl), (hcount l hmem).trans hq.count⟩
  separate := hseparate

end Represents

variable [DecidableEq ι]

/-- A list whose items are in no other list. -/
theorem Separate.set (h : Separate σ) (hnew : ∀ x ∈ xs', ∀ l', l' ≠ l → ∀ xs, σ l' = some xs → x ∉ xs) :
    Separate (Function.update σ l (some xs')) := by
  intro l₁ l₂ xs₁ xs₂ x h₁ h₂ hx₁ hx₂
  by_cases hl₁ : l₁ = l <;> by_cases hl₂ : l₂ = l
  · exact hl₁.trans hl₂.symm
  · subst hl₁
    rw [Function.update_self] at h₁
    rw [Function.update_of_ne hl₂] at h₂
    cases h₁
    exact absurd hx₂ (hnew x hx₁ l₂ hl₂ xs₂ h₂)
  · subst hl₂
    rw [Function.update_self] at h₂
    rw [Function.update_of_ne hl₁] at h₁
    cases h₂
    exact absurd hx₁ (hnew x hx₂ l₁ hl₁ xs₁ h₁)
  · rw [Function.update_of_ne hl₁] at h₁
    rw [Function.update_of_ne hl₂] at h₂
    exact h l₁ l₂ xs₁ xs₂ x h₁ h₂ hx₁ hx₂

/-- The items of one list go to another. -/
theorem Separate.splice (h : Separate σ) {destList srcList : ι} (hd : σ destList = some (as ++ bs))
    (hs : σ srcList = some xs) (hne : destList ≠ srcList) :
    Separate (Function.update (Function.update σ destList (some (as ++ (xs ++ bs)))) srcList (some [])) := by
  rw [Function.update_comm hne]
  refine Separate.set (Separate.set h fun y hy => absurd hy List.not_mem_nil) ?_
  intro y hy l hl ys hys hmem
  by_cases hls : l = srcList
  · subst hls
    rw [Function.update_self] at hys
    cases hys
    cases hmem
  · rw [Function.update_of_ne hls] at hys
    rcases List.mem_append.mp hy with hy | hy
    · exact hl (h _ _ _ _ y hys hd hmem (List.mem_append_left _ hy))
    rcases List.mem_append.mp hy with hy | hy
    · exact hls (h _ _ _ _ y hys hs hmem hy)
    · exact hl (h _ _ _ _ y hys hd hmem (List.mem_append_right _ hy))

@[simp] theorem Lists.set_links (s : Lists ι κ) (l : ι) (q : Qlist (Node ι κ)) :
    (s.set l q).links = q.links := rfl

@[simp] theorem Lists.set_list (s : Lists ι κ) (l : ι) (q : Qlist (Node ι κ)) : (s.set l q).list l = q := by
  simp [Lists.set, Lists.list]

theorem Lists.set_count_of_ne (s : Lists ι κ) (q : Qlist (Node ι κ)) (hne : l' ≠ l) :
    (s.set l q).count l' = s.count l' := Function.update_of_ne hne ..

namespace Represents

/-- **An operation on one list.** -/
theorem set (h : Represents s σ) {q : Qlist (Node ι κ)} (hq : IsQlist q (.listEnd l) (xs'.map .item))
    (huntouched : Untouched s (s.set l q) σ [l])
    (hnew : ∀ x ∈ xs', ∀ l', l' ≠ l → ∀ xs, σ l' = some xs → x ∉ xs) :
    Represents (s.set l q) (Function.update σ l (some xs')) := by
  refine h.change huntouched (fun l' hl' => ?_) (fun l' hl' => ?_) (fun l' hl' xs hxs => ?_)
    (Separate.set h.separate hnew)
  · exact Lists.set_count_of_ne s q (by simpa using hl')
  · exact Function.update_of_ne (by simpa using hl') ..
  · rw [List.mem_singleton] at hl'
    subst hl'
    rw [Function.update_self] at hxs
    cases hxs
    rwa [Lists.set_list]

variable [DecidableEq κ]

/-- **An item is inserted** in front of the items `bs`. -/
theorem insert (h : Represents s σ) (hl : σ l = some (as ++ bs)) (hx : Fresh σ x) :
    let s' := s.set l ⟨clPrimitiveInsert s.links ((bs.map .item).headD (.listEnd l)) (.item x), s.count l + 1⟩
    Represents s' (Function.update σ l (some (as ++ x :: bs))) ∧ Untouched s s' σ [l] := by
  have hq := h.list hl
  have hnot : Node.item x ∉ nodes l (as ++ bs) := by
    rw [item_mem_nodes]
    exact hx l _ hl
  rw [nodes, List.map_append] at hnot
  rw [List.map_append] at hq
  have huntouched : Untouched s (s.set l ⟨clPrimitiveInsert s.links ((bs.map .item).headD (.listEnd l))
      (.item x), s.count l + 1⟩) σ [l] := by
    intro l' hl' xs hxs n hn
    have hne : l' ≠ l := by simpa using hl'
    refine hq.ring.insertBefore_split_frame hnot ?_ ?_
    · have hdisj := h.disjoint hxs hl hne hn
      rwa [nodes, List.map_append] at hdisj
    · rintro rfl
      exact hx l' xs hxs (item_mem_nodes.mp hn)
  have hins := hq.insertBefore hnot
  rw [← List.map_cons, ← List.map_append] at hins
  refine ⟨h.set hins huntouched fun y hy l' hne xs hxs hmem => ?_, huntouched⟩
  rcases List.mem_append.mp hy with hy | hy
  · exact hne (h.separate l' l xs _ y hxs hl hmem (List.mem_append_left _ hy))
  rcases List.mem_cons.mp hy with rfl | hy
  · exact hx l' xs hxs hmem
  · exact hne (h.separate l' l xs _ y hxs hl hmem (List.mem_append_right _ hy))

/-- **An item is removed.** -/
theorem remove (h : Represents s σ) (hl : σ l = some (as ++ x :: bs)) :
    let s' := s.set l ⟨clPrimitiveRemove s.links (.item x), s.count l - 1⟩
    Represents s' (Function.update σ l (some (as ++ bs))) ∧ Untouched s s' σ [l] := by
  have hq := h.list hl
  rw [List.map_append, List.map_cons] at hq
  have huntouched : Untouched s (s.set l ⟨clPrimitiveRemove s.links (.item x), s.count l - 1⟩) σ [l] := by
    intro l' hl' xs hxs n hn
    refine hq.ring.unlink_frame ?_
    have hdisj := h.disjoint hxs hl (by simpa using hl') hn
    rwa [nodes, List.map_append, List.map_cons] at hdisj
  have hremove := hq.removeItem
  unfold clQlistRemoveItem at hremove
  rw [if_neg item_ne_listEnd, ← List.map_append] at hremove
  refine ⟨h.set hremove huntouched fun y hy l' hne xs hxs hmem => ?_, huntouched⟩
  refine hne (h.separate l' l xs _ y hxs hl hmem ?_)
  rcases List.mem_append.mp hy with hy | hy
  · exact List.mem_append_left _ hy
  · exact List.mem_append_right _ (List.mem_cons_of_mem _ hy)

/-- A list is emptied. -/
theorem reset (h : Represents s σ) (l : ι) :
    Represents (clQlistReset s l) (Function.update σ l (some [])) ∧ Untouched s (clQlistReset s l) σ [l] := by
  have huntouched : Untouched s (clQlistReset s l) σ [l] := by
    intro l' hl' xs hxs n hn
    refine Ring.reset_of_ne _ ?_
    rintro rfl
    rw [listEnd_mem_nodes] at hn
    exact hl' (by simp [hn])
  exact ⟨h.set (isQlist_init s.links _) huntouched fun x hx => absurd hx List.not_mem_nil, huntouched⟩

end Represents

end

end MlnxLib.Qlists
