import MlnxLib.Lib.Runs
import MlnxLib.Complib.QlistOps

/-!
# Quick lists are sequences

What each operation of `QlistOps` does to the sequences of the lists, and what a run of them does.

* `Acts` — an operation of the code that returns, answers and acts as on the sequences, and leaves the links
  of the other lists.
* `insertListHead_links`, `insertListTail_links` — the pointers after the four writes at the seams.
* `AllAllowed` — a run in which the callers see to what they have to.

Principal results: `Represents.step` — every operation that is allowed `Acts`; `qlists_refine` — the same in
every state of every run.
-/

set_option autoImplicit false

namespace MlnxLib.Qlists

open Runs

variable {ι κ : Type}

section

variable {s s' : Lists ι κ} {σ σ' : Seqs ι κ} {l l' : ι} {ls : List ι} {x : κ} {xs xs' as bs : List κ}
  [DecidableEq ι]

/-! ## Sequences with an item more -/

variable [DecidableEq κ] {y : κ}

theorem insertAfter_split (hy : y ∉ as) : insertAfter y x (as ++ y :: bs) = as ++ y :: x :: bs := by
  induction as with
  | nil => simp [insertAfter]
  | cons a as ih =>
    rw [List.mem_cons, not_or] at hy
    simp [insertAfter, Ne.symm hy.1, ih hy.2]

theorem insertBefore_split (hy : y ∉ as) : insertBefore y x (as ++ y :: bs) = as ++ x :: y :: bs := by
  induction as with
  | nil => simp [insertBefore]
  | cons a as ih =>
    rw [List.mem_cons, not_or] at hy
    simp [insertBefore, Ne.symm hy.1, ih hy.2]

/-! ## What the operations do -/

/-- An operation that returns, acts on the sequences and leaves the other lists. -/
def Acts (s : Lists ι κ) (σ : Seqs ι κ) (op : Op ι κ) : Prop :=
  ∃ s', codeStep s op = some (answer σ op, s') ∧ Represents s' (act σ op) ∧ Untouched s s' σ op.lists

namespace Represents

theorem acts_insertHead (h : Represents s σ) (hl : InList σ l none) (hx : Fresh σ x) :
    Acts s σ (.insertHead l x) := by
  obtain ⟨xs, hxs⟩ := hl
  have hins := h.insert (by simpa using hxs : σ l = some ([] ++ xs)) hx
  refine ⟨_, ?_, ?_, hins.2⟩
  · rw [codeStep, clQlistInsertHead, (h.list hxs).head]
    rfl
  · rw [act, hxs]
    exact hins.1

/-- An item is put at the end of a list. -/
theorem insertTail (h : Represents s σ) (hxs : σ l = some xs) (hx : Fresh σ x) :
    Represents (Qlists.insertTail s l (.item x)) (Function.update σ l (some (xs ++ [x]))) ∧
      Untouched s (Qlists.insertTail s l (.item x)) σ [l] :=
  h.insert (by simpa using hxs : σ l = some (xs ++ [])) hx

theorem acts_insertTail (h : Represents s σ) (hl : InList σ l none) (hx : Fresh σ x) :
    Acts s σ (.insertTail l x) := by
  obtain ⟨xs, hxs⟩ := hl
  have hins := h.insertTail hxs hx
  refine ⟨_, rfl, ?_, hins.2⟩
  rw [act, hxs]
  exact hins.1

theorem acts_insertNext (h : Represents s σ) {position : Option κ} (hl : InList σ l position)
    (hx : Fresh σ x) : Acts s σ (.insertNext l position x) := by
  cases position with
  | none => exact h.acts_insertHead hl hx
  | some y =>
    obtain ⟨xs, hxs, hy⟩ := hl
    obtain ⟨as, bs, rfl, hnot⟩ := List.eq_append_cons_of_mem hy
    have hnext : clQlistNext s.links (Node.item y) = some ((bs.map Node.item).headD (.listEnd l)) := by
      have hr := h.ring hxs
      rw [List.map_append, List.map_cons] at hr
      exact hr.links_of_split.1
    have hins := h.insert (by simpa using hxs : σ l = some ((as ++ [y]) ++ bs)) hx
    refine ⟨_, ?_, ?_, hins.2⟩
    · rw [codeStep, clQlistInsertNext, node]
      dsimp only [Lists.list]
      rw [hnext]
      rfl
    · rw [act, hxs, Option.map_some, insertAfter_split hnot]
      simpa using hins.1

theorem acts_insertPrev (h : Represents s σ) {position : Option κ} (hl : InList σ l position)
    (hx : Fresh σ x) : Acts s σ (.insertPrev l position x) := by
  cases position with
  | none => exact h.acts_insertTail hl hx
  | some y =>
    obtain ⟨xs, hxs, hy⟩ := hl
    obtain ⟨as, bs, rfl, hnot⟩ := List.eq_append_cons_of_mem hy
    have hins := h.insert hxs hx
    refine ⟨_, rfl, ?_, hins.2⟩
    rw [act, hxs, Option.map_some, insertBefore_split hnot]
    exact hins.1

theorem acts_removeItem (h : Represents s σ) (hl : InList σ l (some x)) : Acts s σ (.removeItem l x) := by
  obtain ⟨xs, hxs, hx⟩ := hl
  obtain ⟨as, bs, rfl, hnot⟩ := List.eq_append_cons_of_mem hx
  have hremove := h.remove hxs
  refine ⟨_, ?_, ?_, hremove.2⟩
  · rw [codeStep, clQlistRemoveItem, if_neg item_ne_listEnd]
    rfl
  · rw [act, hxs, Option.map_some, List.erase_append_right _ hnot, List.erase_cons_head]
    exact hremove.1

omit [DecidableEq κ] in
/-- An empty list has nothing to take. -/
theorem take_listEnd (h : Represents s σ) (hxs : σ l = some xs) (hnil : xs = []) :
    Represents (s.set l (s.list l)) (Function.update σ l (some [])) ∧ Untouched s (s.set l (s.list l)) σ [l] := by
  subst hnil
  exact ⟨h.set (h.list hxs) (fun _ _ _ _ _ _ => rfl) fun x hx => absurd hx List.not_mem_nil,
    fun _ _ _ _ _ _ => rfl⟩

theorem acts_removeHead (h : Represents s σ) (hl : InList σ l none) : Acts s σ (.removeHead l) := by
  obtain ⟨xs, hxs⟩ := hl
  have hhead := (h.list hxs).head
  cases xs with
  | nil =>
    have hsame := h.take_listEnd hxs rfl
    refine ⟨_, ?_, ?_, hsame.2⟩
    · rw [codeStep, clQlistRemoveHead, hhead, Option.map_some, answer, hxs]
      simp [clQlistTake, node]
    · rw [act, hxs]
      exact hsame.1
  | cons x xs =>
    have hremove := h.remove (by simpa using hxs : σ l = some ([] ++ x :: xs))
    refine ⟨_, ?_, ?_, hremove.2⟩
    · rw [codeStep, clQlistRemoveHead, hhead, Option.map_some, answer, hxs]
      simp [clQlistTake, node, Lists.list]
    · rw [act, hxs]
      exact hremove.1

theorem acts_removeTail (h : Represents s σ) (hl : InList σ l none) : Acts s σ (.removeTail l) := by
  obtain ⟨xs, hxs⟩ := hl
  have hprev : clQlistPrev s.links (Node.listEnd l) = _ := (h.ring hxs).2.prev_right
  rcases List.eq_nil_or_concat xs with rfl | ⟨xs, x, rfl⟩
  · have hsame := h.take_listEnd hxs rfl
    refine ⟨_, ?_, ?_, hsame.2⟩
    · rw [codeStep, clQlistRemoveTail, Lists.list, hprev, Option.map_some, answer, hxs]
      simp [clQlistTake, node]
    · rw [act, hxs]
      exact hsame.1
  · rw [List.concat_eq_append] at hxs
    have hremove := h.remove hxs
    rw [List.append_nil] at hremove
    refine ⟨_, ?_, ?_, hremove.2⟩
    · rw [codeStep, clQlistRemoveTail, Lists.list, hprev, Option.map_some, answer, hxs]
      simp [clQlistTake, node]
    · rw [act, hxs, Option.map_some, List.dropLast_concat]
      exact hremove.1

/-! ### Splicing -/

omit [DecidableEq ι] [DecidableEq κ] in
/-- The nodes around a seam. -/
theorem mem_seams (m : ι) (as bs : List κ) :
    (Node.listEnd m :: as.map (Node.item (ι := ι))).getLast (List.cons_ne_nil _ _) ∈ nodes m (as ++ bs) ∧
      (bs.map Node.item).headD (.listEnd m) ∈ nodes m (as ++ bs) := by
  constructor
  · have hmem := List.getLast_mem (List.cons_ne_nil (Node.listEnd m) (as.map Node.item))
    rw [nodes, List.map_append, ← List.cons_append]
    exact List.mem_append_left _ hmem
  · cases bs with
    | nil => simp
    | cons b bs => simp

/-- **The items of a list are spliced into another**, between the items `as` and the items `bs`. -/
theorem splice (h : Represents s σ) {destList srcList : ι} (hd : σ destList = some (as ++ bs))
    (hs : σ srcList = some (x :: xs)) (hne : destList ≠ srcList) {h' : Ring.Heap (Node ι κ)}
    (hnext : ∀ n, (h' n).next =
      if n = (Node.listEnd destList :: as.map .item).getLast (List.cons_ne_nil _ _) then some (.item x)
      else if n = (Node.item x :: xs.map .item).getLast (List.cons_ne_nil _ _) then
        some ((bs.map Node.item).headD (.listEnd destList)) else (s.links n).next)
    (hprev : ∀ n, (h' n).prev =
      if n = .item x then some ((Node.listEnd destList :: as.map .item).getLast (List.cons_ne_nil _ _))
      else if n = (bs.map Node.item).headD (.listEnd destList) then
        some ((Node.item x :: xs.map .item).getLast (List.cons_ne_nil _ _)) else (s.links n).prev) :
    let s' := endSplice s destList srcList h'
    Represents s' (Function.update (Function.update σ destList (some (as ++ x :: (xs ++ bs)))) srcList (some [])) ∧
      Untouched s s' σ [destList, srcList] := by
  intro s'
  obtain ⟨hp, hq⟩ := mem_seams destList as bs
  have hX : Node.item x ∈ nodes srcList (x :: xs) := by simp
  have hL : (Node.item x :: xs.map .item).getLast (List.cons_ne_nil _ _) ∈ nodes srcList (x :: xs) :=
    List.mem_cons_of_mem _ (List.getLast_mem _)
  have hend : ∀ {n : Node ι κ}, n ≠ .listEnd srcList → s'.links n = h' n := fun hn => Ring.reset_of_ne _ hn
  have hdest : ∀ n ∈ nodes destList (as ++ bs), n ∉ nodes srcList (x :: xs) := fun n hn => h.disjoint hd hs hne hn
  have hsame : ∀ n, n ∉ nodes destList (as ++ bs) → n ∉ nodes srcList (x :: xs) → s'.links n = s.links n := by
    intro n hnd hns
    rw [hend (by rintro rfl; simp at hns)]
    apply Ring.Link.ext'
    · rw [hnext, if_neg (fun he : n = _ => hnd (he ▸ hp)),
        if_neg (fun he : n = _ => hns (he ▸ hL))]
    · rw [hprev, if_neg (fun he : n = _ => hns (he ▸ hX)),
        if_neg (fun he : n = _ => hnd (he ▸ hq))]
  have huntouched : Untouched s s' σ [destList, srcList] := by
    intro l hl ys hys n hn
    rw [List.mem_cons, List.mem_singleton, not_or] at hl
    exact hsame n (h.disjoint hys hd hl.1 hn) (h.disjoint hys hs hl.2 hn)
  have hring : Ring.IsRing s'.links (.listEnd destList) ((as ++ x :: (xs ++ bs)).map .item) := by
    have hrd := h.ring hd
    have hrs := h.ring hs
    rw [List.map_append] at hrd
    rw [List.map_cons] at hrs
    simp only [nodes, List.map_append, List.map_cons] at hdest hp hq hX hL
    rw [List.map_append, List.map_cons, List.map_append]
    have hpe : (Node.listEnd destList :: as.map .item).getLast (List.cons_ne_nil _ _) ≠ .listEnd srcList :=
      fun he => hdest _ hp (by rw [he]; exact List.mem_cons_self ..)
    have hqe : (bs.map Node.item).headD (.listEnd destList) ≠ .listEnd srcList :=
      fun he => hdest _ hq (by rw [he]; exact List.mem_cons_self ..)
    have hLe : (Node.item x :: xs.map .item).getLast (List.cons_ne_nil _ _) ≠ .listEnd srcList :=
      fun he => hrs.not_mem (he ▸ List.getLast_mem _)
    have hLp : (Node.item x :: xs.map .item).getLast (List.cons_ne_nil _ _) ≠
        (Node.listEnd destList :: as.map .item).getLast (List.cons_ne_nil _ _) :=
      fun he => hdest _ hp (he ▸ hL)
    have hqX : (bs.map Node.item).headD (.listEnd destList) ≠ .item x :=
      fun he => hdest _ hq (he ▸ hX)
    refine hrd.splice hrs (fun n hn hns => hdest n hn (List.mem_cons_of_mem _ hns)) ?_ ?_ ?_ ?_ ?_ ?_ ?_
    · rw [hend hpe, hnext, if_pos rfl]
    · rw [hend item_ne_listEnd, hprev, if_pos rfl]
    · rw [hend hLe, hnext, if_neg hLp, if_pos rfl]
    · rw [hend hqe, hprev, if_neg hqX, if_pos rfl]
    · intro m hmp hmL hme
      rw [hend hme, hnext, if_neg hmp, if_neg hmL]
    · intro m hmX hmq hme
      rw [hend hme, hprev, if_neg hmX, if_neg hmq]
    · exact fun hmem => hdest _ hmem (List.mem_cons_self ..)
  have hcount : s.count destList + s.count srcList = (as ++ x :: (xs ++ bs)).length := by
    have hcd : s.count destList = _ := (h.list hd).count
    have hcs : s.count srcList = _ := (h.list hs).count
    simp only [List.length_map, List.length_append, List.length_cons] at hcd hcs ⊢
    omega
  refine ⟨h.change huntouched (fun l hl => ?_) (fun l hl => ?_) (fun l hl ys hys => ?_) ?_, huntouched⟩
  · rw [List.mem_cons, List.mem_singleton, not_or] at hl
    exact (Function.update_of_ne hl.2 ..).trans (Function.update_of_ne hl.1 ..)
  · rw [List.mem_cons, List.mem_singleton, not_or] at hl
    rw [Function.update_of_ne hl.2, Function.update_of_ne hl.1]
  · rcases List.mem_cons.mp hl with rfl | hl
    · rw [Function.update_of_ne hne, Function.update_self] at hys
      cases hys
      refine ⟨hring, ?_⟩
      rw [List.length_map, ← hcount]
      exact (Function.update_of_ne hne ..).trans (Function.update_self ..)
    · rw [List.mem_singleton] at hl
      subst hl
      rw [Function.update_self] at hys
      cases hys
      have hempty : s'.list l = ⟨clQlistInit h' (.listEnd l), 0⟩ := Lists.set_list ..
      rw [hempty]
      exact isQlist_init h' _
  · exact Separate.splice h.separate hd hs hne

/-! ### The four writes -/

/-- The pointers after `cl_qlist_insert_list_head`. -/
theorem insertListHead_links {destList srcList : ι} {first last next : Node ι κ} (hne : destList ≠ srcList)
    (hcount : clIsQlistEmpty (s.list srcList) ≠ true)
    (hnext : clQlistHead s.links (.listEnd destList) = some next)
    (hlast : clQlistTail s.links srcList = some last) (hlast' : ∀ l, last ≠ .listEnd l)
    (hfirst : clQlistHead s.links (.listEnd srcList) = some first) :
    ∃ h', clQlistInsertListHead s destList srcList = some (endSplice s destList srcList h') ∧
      (∀ n, (h' n).next = if n = .listEnd destList then some first else if n = last then some next
        else (s.links n).next) ∧
      ∀ n, (h' n).prev = if n = first then some (.listEnd destList) else if n = next then some last
        else (s.links n).prev := by
  unfold clQlistHead clQlistNext at hnext hfirst
  unfold clQlistTail clQlistPrev at hlast
  unfold clQlistInsertListHead clQlistHead clQlistNext clQlistTail clQlistPrev writeNext writePrev
  have hnext' : ∀ v, (Ring.setNext s.links last v (.listEnd destList)).next = some next := by
    intro v
    rw [Ring.setNext_next, if_neg (hlast' destList).symm, hnext]
  have hfirst' : ∀ v w, (Ring.setPrev (Ring.setNext s.links last v) next w (.listEnd srcList)).next =
      some first := by
    intro v w
    rw [Ring.setPrev_next, Ring.setNext_next, if_neg (hlast' srcList).symm, hfirst]
  rw [if_neg hcount, hlast, Option.map_some, Option.bind_some, hnext', Ring.setNext_prev, hlast,
    Option.map_some, Option.bind_some]
  dsimp only
  rw [hfirst', Ring.setNext_next, if_neg (fun he => hne (Node.listEnd.inj he).symm), hfirst',
    Option.map_some, Option.map_some]
  refine ⟨_, rfl, fun n => ?_, fun n => ?_⟩
  · simp only [Ring.setPrev_next, Ring.setNext_next, hnext]
  · simp only [Ring.setPrev_prev, Ring.setNext_prev]

/-- The pointers after `cl_qlist_insert_list_tail`. -/
theorem insertListTail_links {destList srcList : ι} {first last prev : Node ι κ} (hne : destList ≠ srcList)
    (hcount : clIsQlistEmpty (s.list srcList) ≠ true)
    (hprev : clQlistTail s.links destList = some prev) (hprev' : prev ≠ .listEnd srcList)
    (hlast : clQlistTail s.links srcList = some last) (hlast' : last ≠ prev)
    (hfirst : clQlistHead s.links (.listEnd srcList) = some first) (hfirst' : ∀ l, first ≠ .listEnd l) :
    ∃ h', clQlistInsertListTail s destList srcList = some (endSplice s destList srcList h') ∧
      (∀ n, (h' n).next = if n = prev then some first else if n = last then some (.listEnd destList)
        else (s.links n).next) ∧
      ∀ n, (h' n).prev = if n = first then some prev else if n = .listEnd destList then some last
        else (s.links n).prev := by
  unfold clQlistHead clQlistNext at hfirst
  unfold clQlistTail clQlistPrev at hprev hlast
  unfold clQlistInsertListTail clQlistHead clQlistNext clQlistTail clQlistPrev writeNext writePrev
  have hfirst₁ : ∀ v, (Ring.setNext s.links prev v (.listEnd srcList)).next = some first := by
    intro v
    rw [Ring.setNext_next, if_neg hprev'.symm, hfirst]
  have hlast₁ : ∀ v w, (Ring.setPrev (Ring.setNext s.links prev v) first w (.listEnd srcList)).prev =
      some last := by
    intro v w
    rw [Ring.setPrev_prev, if_neg (hfirst' srcList).symm, Ring.setNext_prev, hlast]
  rw [if_neg hcount, hprev, Option.map_some, Option.bind_some, hfirst₁, Ring.setNext_prev, hprev,
    Option.map_some, Option.bind_some]
  dsimp only
  rw [hlast₁, Ring.setPrev_prev, if_neg (fun he => hne (Node.listEnd.inj he).symm), hlast₁,
    Option.map_some, Option.map_some]
  refine ⟨_, rfl, fun n => ?_, fun n => ?_⟩
  · simp only [Ring.setPrev_next, Ring.setNext_next]
    split
    · rename_i hn
      rw [if_neg (hn ▸ hlast')]
    · rw [hfirst]
  · simp only [Ring.setPrev_prev, Ring.setNext_prev]
    split
    · rename_i hn
      rw [if_neg (hn ▸ (hfirst' destList).symm)]
    · rfl

section

omit [DecidableEq ι] [DecidableEq κ]

theorem isEmpty_iff (h : Represents s σ) (hxs : σ l = some xs) :
    clIsQlistEmpty (s.list l) = true ↔ xs = [] := by
  rw [(h.list hxs).isEmpty_iff, List.map_eq_nil_iff]

/-- The item before the end item. -/
theorem tail (h : Represents s σ) (hxs : σ l = some xs) : clQlistTail s.links l =
    some ((Node.listEnd l :: xs.map .item).getLast (List.cons_ne_nil _ _)) :=
  (h.ring hxs).2.prev_right

theorem head (h : Represents s σ) (hxs : σ l = some xs) : clQlistHead s.links (.listEnd l) =
    some ((xs.map Node.item).headD (.listEnd l)) :=
  (h.list hxs).head

/-- The last of some items is an item. -/
theorem last_ne_listEnd (x : κ) (xs : List κ) (l : ι) :
    (Node.item x :: xs.map .item).getLast (List.cons_ne_nil _ _) ≠ .listEnd l := by
  intro he
  have hmem := List.getLast_mem (List.cons_ne_nil (Node.item x) (xs.map (Node.item (ι := ι))))
  rw [he, ← List.map_cons, List.mem_map] at hmem
  obtain ⟨_, -, hend⟩ := hmem
  exact item_ne_listEnd hend

end

omit [DecidableEq κ] in
/-- An empty list has nothing to splice. -/
theorem splice_nil (h : Represents s σ) {destList srcList : ι} (hd : σ destList = some xs)
    (hs : σ srcList = some []) :
    Represents s (Function.update (Function.update σ destList (some xs)) srcList (some [])) ∧
      Untouched s s σ [destList, srcList] := by
  rw [← hd, Function.update_eq_self, ← hs, Function.update_eq_self]
  exact ⟨h, fun _ _ _ _ _ _ => rfl⟩

theorem acts_insertListHead (h : Represents s σ) {destList srcList : ι} (hd : InList σ destList none)
    (hs : InList σ srcList none) (hne : destList ≠ srcList) : Acts s σ (.insertListHead destList srcList) := by
  obtain ⟨ys, hys⟩ := hd
  obtain ⟨xs, hxs⟩ := hs
  have hempty := h.isEmpty_iff hxs
  cases xs with
  | nil =>
    have hnil := h.splice_nil hys hxs
    refine ⟨s, ?_, ?_, hnil.2⟩
    · rw [codeStep, clQlistInsertListHead, if_pos (hempty.mpr rfl)]
      rfl
    · rw [act, hys, hxs]
      exact hnil.1
  | cons x xs =>
    obtain ⟨h', hcode, hnext, hprev⟩ := insertListHead_links hne (fun he => nomatch hempty.mp he)
      (h.head hys) (h.tail hxs) (last_ne_listEnd x xs) (h.head hxs)
    have hsplice := h.splice (by simpa using hys : σ destList = some ([] ++ ys)) hxs hne hnext hprev
    refine ⟨_, ?_, ?_, hsplice.2⟩
    · rw [codeStep, hcode]
      rfl
    · rw [act, hys, hxs]
      exact hsplice.1

theorem acts_insertListTail (h : Represents s σ) {destList srcList : ι} (hd : InList σ destList none)
    (hs : InList σ srcList none) (hne : destList ≠ srcList) : Acts s σ (.insertListTail destList srcList) := by
  obtain ⟨ys, hys⟩ := hd
  obtain ⟨xs, hxs⟩ := hs
  have hempty := h.isEmpty_iff hxs
  cases xs with
  | nil =>
    have hnil := h.splice_nil hys hxs
    refine ⟨s, ?_, ?_, hnil.2⟩
    · rw [codeStep, clQlistInsertListTail, if_pos (hempty.mpr rfl)]
      rfl
    · rw [act, hys, hxs, Option.getD_some, Option.map_some, List.append_nil]
      exact hnil.1
  | cons x xs =>
    have hprev := (mem_seams destList ys []).1
    rw [List.append_nil] at hprev
    have hlast : (Node.item x :: xs.map .item).getLast (List.cons_ne_nil _ _) ∈ nodes srcList (x :: xs) :=
      List.mem_cons_of_mem _ (List.getLast_mem _)
    obtain ⟨h', hcode, hnext, hprev⟩ := insertListTail_links hne (fun he => nomatch hempty.mp he) (h.tail hys)
      (fun he => h.disjoint hys hxs hne hprev (by rw [he]; simp)) (h.tail hxs)
      (fun he => h.disjoint hys hxs hne hprev (he ▸ hlast)) (h.head hxs) (fun l => item_ne_listEnd)
    have hsplice := h.splice (by simpa using hys : σ destList = some (ys ++ [])) hxs hne hnext hprev
    refine ⟨_, ?_, ?_, hsplice.2⟩
    · rw [codeStep, hcode]
      rfl
    · rw [act, hys, hxs]
      simpa using hsplice.1

/-! ### Moving -/

omit [DecidableEq κ] in
/-- An item that has been removed is in no list. -/
theorem fresh_of_remove (h : Represents s σ) (hl : σ l = some (as ++ x :: bs)) :
    Fresh (Function.update σ l (some (as ++ bs))) x := by
  intro l' ys hys hx
  by_cases hne : l' = l
  · subst hne
    rw [Function.update_self] at hys
    cases hys
    have hnd := List.nodup_middle.mp (h.nodup hl)
    exact (List.nodup_cons.mp hnd).1 hx
  · rw [Function.update_of_ne hne] at hys
    exact hne (h.separate _ _ _ _ x hys hl hx (by simp))

/-- **The loop moves the items that match**, from the items `rest` on. -/
theorem moveLoop_spec {srcList destList : ι} (hne : srcList ≠ destList) (pfnFunc : κ → Bool) :
    ∀ (rest : List κ) {as ys : List κ} {s : Lists ι κ} {σ : Seqs ι κ} {fuel : Nat}, Represents s σ →
      σ srcList = some (as ++ rest) → σ destList = some ys → rest.length < fuel →
      ∃ s', moveLoop srcList destList (onItems pfnFunc) fuel s
          ((rest.map Node.item).headD (.listEnd srcList)) = some s' ∧
        Represents s' (Function.update (Function.update σ destList (some (ys ++ rest.filter pfnFunc))) srcList
          (some (as ++ rest.filter fun x => !pfnFunc x))) ∧
        Untouched s s' σ [srcList, destList]
  | _, _, _, _, _, 0, _, _, _, hfuel => absurd hfuel (Nat.not_lt_zero _)
  | [], as, ys, s, σ, fuel + 1, h, hs, hd, _ => by
    refine ⟨s, by simp [moveLoop], ?_, fun _ _ _ _ _ _ => rfl⟩
    rw [List.append_nil] at hs
    rw [List.filter_nil, List.filter_nil, List.append_nil, List.append_nil, ← hd, Function.update_eq_self, ← hs,
      Function.update_eq_self]
    exact h
  | x :: rest, as, ys, s, σ, fuel + 1, h, hs, hd, hfuel => by
    rw [List.length_cons] at hfuel
    have hfuel' : rest.length < fuel := by omega
    have hnext : clQlistNext s.links (.item x) = some ((rest.map Node.item).headD (.listEnd srcList)) := by
      have hr := h.ring hs
      rw [List.map_append, List.map_cons] at hr
      exact hr.links_of_split.1
    rw [List.map_cons, List.headD_cons, moveLoop, if_neg item_ne_listEnd, hnext, Option.bind_some, onItems]
    by_cases hx : pfnFunc x = true
    · -- the item goes to the end of the other list, and the loop goes on in the new lists
      rw [if_pos hx, clQlistRemoveItem, if_neg item_ne_listEnd, List.filter_cons_of_pos hx,
        List.filter_cons_of_neg (by simpa using hx)]
      obtain ⟨hremove, huntouched₁⟩ := h.remove hs
      have hd₁ : Function.update σ srcList (some (as ++ rest)) destList = some ys := by
        rw [Function.update_of_ne hne.symm, hd]
      obtain ⟨hinsert, huntouched₂⟩ := hremove.insertTail hd₁ (h.fresh_of_remove hs)
      have hs₂ : Function.update (Function.update σ srcList (some (as ++ rest))) destList (some (ys ++ [x]))
          srcList = some (as ++ rest) := by
        rw [Function.update_of_ne hne, Function.update_self]
      obtain ⟨s', hloop, hrep, huntouched⟩ :=
        moveLoop_spec hne pfnFunc rest hinsert hs₂ (Function.update_self ..) hfuel'
      refine ⟨s', hloop, ?_, fun l hl xs hxs n hn => ?_⟩
      · rw [Function.update_idem, Function.update_comm hne, Function.update_idem, List.append_assoc,
          List.singleton_append, Function.update_comm hne.symm] at hrep
        rwa [Function.update_comm hne.symm]
      · have hl' := hl
        rw [List.mem_cons, List.mem_singleton, not_or] at hl'
        have hxs₁ : Function.update σ srcList (some (as ++ rest)) l = some xs := by
          rw [Function.update_of_ne hl'.1, hxs]
        have hxs₂ : Function.update (Function.update σ srcList (some (as ++ rest))) destList
            (some (ys ++ [x])) l = some xs := by
          rw [Function.update_of_ne hl'.2, hxs₁]
        rw [huntouched l hl xs hxs₂ n hn, huntouched₂ l (by simpa using hl'.2) xs hxs₁ n hn]
        exact huntouched₁ l (by simpa using hl'.1) xs hxs n hn
    · rw [if_neg hx, List.filter_cons_of_neg hx, List.filter_cons_of_pos (by simpa using hx)]
      obtain ⟨s', hloop, hrep, huntouched⟩ :=
        moveLoop_spec hne pfnFunc rest h (by simpa using hs : σ srcList = some ((as ++ [x]) ++ rest)) hd hfuel'
      refine ⟨s', hloop, ?_, huntouched⟩
      simpa using hrep

theorem acts_moveItems (h : Represents s σ) {srcList destList : ι} (pfnFunc : κ → Bool)
    (hs : InList σ srcList none) (hd : InList σ destList none) (hne : srcList ≠ destList) :
    Acts s σ (.moveItems srcList destList pfnFunc) := by
  obtain ⟨xs, hxs⟩ := hs
  obtain ⟨ys, hys⟩ := hd
  have hcount : s.count srcList = _ := (h.list hxs).count
  rw [List.length_map] at hcount
  obtain ⟨s', hloop, hrep, huntouched⟩ := moveLoop_spec hne pfnFunc xs h
    (by simpa using hxs : σ srcList = some ([] ++ xs)) hys (Nat.lt_succ_of_le hcount.ge)
  refine ⟨s', ?_, ?_, huntouched⟩
  · rw [codeStep, clQlistMoveItems, h.head hxs, Option.bind_some, hloop]
    rfl
  · rw [act, hxs, hys]
    exact hrep

/-- **Every operation acts on the sequences.** -/
theorem step (h : Represents s σ) {op : Op ι κ} (hop : Allowed σ op) : Acts s σ op := by
  cases op with
  | init l =>
    have hreset := h.reset l
    exact ⟨_, rfl, hreset.1, hreset.2⟩
  | insertHead l x => exact h.acts_insertHead hop.1 hop.2
  | insertTail l x => exact h.acts_insertTail hop.1 hop.2
  | insertNext l position x => exact h.acts_insertNext hop.1 hop.2
  | insertPrev l position x => exact h.acts_insertPrev hop.1 hop.2
  | removeItem l x => exact h.acts_removeItem hop
  | removeHead l => exact h.acts_removeHead hop
  | removeTail l => exact h.acts_removeTail hop
  | insertListHead destList srcList => exact h.acts_insertListHead hop.1 hop.2.1 hop.2.2
  | insertListTail destList srcList => exact h.acts_insertListTail hop.1 hop.2.1 hop.2.2
  | moveItems srcList destList pfnFunc => exact h.acts_moveItems pfnFunc hop.1 hop.2.1 hop.2.2

end Represents

/-! ## Runs -/

/-- Before any list is initialized. -/
def noLists : Seqs ι κ := fun _ => none

/-- The operations of a run, on the code and on the sequences. -/
def codeRun (s : Lists ι κ) (ops : List (Op ι κ)) : Option (Lists ι κ) :=
  run (fun s op => (codeStep s op).map Prod.snd) s ops

/-- The callers see to what they have to, in every state of a run. -/
def AllAllowed (ops : List (Op ι κ)) : Prop :=
  AllMeet (fun σ op => some (act σ op)) Allowed noLists ops

omit [DecidableEq ι] [DecidableEq κ] in
theorem represents_noLists (s : Lists ι κ) : Represents s noLists where
  list h := nomatch h
  separate _ _ _ _ _ h := nomatch h

/-- A run acts on the sequences. -/
theorem Represents.run : ∀ {s : Lists ι κ} {σ : Seqs ι κ} (ops : List (Op ι κ)), Represents s σ →
    AllMeet (fun σ op => some (act σ op)) Allowed σ ops →
    ∃ s', codeRun s ops = some s' ∧ Represents s' (ops.foldl act σ)
  | s, σ, [], h, _ => ⟨s, rfl, h⟩
  | s, σ, op :: ops, h, hops => by
    obtain ⟨hop, hops⟩ := hops
    obtain ⟨s₁, hstep, h₁, -⟩ := h.step hop
    obtain ⟨s', hrun, h'⟩ := Represents.run ops h₁ (hops _ rfl)
    refine ⟨s', ?_, h'⟩
    unfold codeRun at hrun ⊢
    rw [Runs.run_cons, hstep, Option.map_some, Option.bind_some, hrun]

/-- **Quick lists refine sequences.**  In every run that its callers are allowed to make, from any memory, each
list that is initialized represents its sequence, and every further operation that is allowed returns, answers
and acts as on the sequences, and leaves the links of the other lists. -/
theorem qlists_refine (s : Lists ι κ) (ops : List (Op ι κ)) (h : AllAllowed ops) :
    ∃ s', codeRun s ops = some s' ∧ Represents s' (ops.foldl act noLists) ∧
      ∀ op, Allowed (ops.foldl act noLists) op → Acts s' (ops.foldl act noLists) op := by
  obtain ⟨s', hrun, hrep⟩ := Represents.run ops (represents_noLists s) h
  exact ⟨s', hrun, hrep, fun op hop => hrep.step hop⟩

end

/-- Two lists of one item each, one put into the other. -/
def sampleOps : List (Op Nat Nat) := [.init 0, .init 1, .insertHead 0 5, .insertTail 1 6, .insertListTail 0 1]

theorem sampleOps_allowed : AllAllowed sampleOps := by
  simp [AllAllowed, sampleOps, AllMeet, Allowed, InList, Fresh, act, noLists, Function.update_apply]
  grind

theorem qlists_refine_sample : ∃ s', codeRun ⟨fun _ => Ring.Link.null, fun _ => 0⟩ sampleOps = some s' ∧
    Represents s' (sampleOps.foldl act noLists) ∧
    ∀ op, Allowed (sampleOps.foldl act noLists) op → Acts s' (sampleOps.foldl act noLists) op :=
  qlists_refine _ sampleOps sampleOps_allowed

end MlnxLib.Qlists
