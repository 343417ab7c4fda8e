import MlnxLib.Complib.QmapInsert

/-!
# Removal from quick maps

* `Elsewhere` — what a removal leaves of a tree; it may write the parent of the leaves.
* `cut_spec` — a node with one subtree at most goes, and the tree is balanced again.
* `IsZip.exchange` — another item in the place of an item.

Principal result: `clQmapRemoveItem_spec` — the item goes, whether it or its substitute leaves the tree first; the
map is well formed again, and everything outside of it is as it was.
-/

set_option autoImplicit false

namespace MlnxLib.Qmaps

open RedBlack RedBlack.ColorTree

variable {ν κ : Type} [DecidableEq ν] [LinearOrder κ] {h h' : Heap ν} {nil root : ν} {t : ColorTree ν} {p : TreePath ν}

/-- Everything but the nodes of a tree, the pointer to it, and the links of its leaves is as it was. -/
structure Elsewhere (h h' : Heap ν) (nil root : ν) (S : List ν) : Prop where
  nodes : ∀ z, z ≠ nil → z ≠ root → z ∉ S → SameNode h h' z
  up : h'.up root = h.up root
  color : h'.color root = h.color root
  nilColor : h'.color nil = h.color nil

omit [DecidableEq ν] in
theorem Elsewhere.trans {h'' : Heap ν} {S S' : List ν} (h₁ : Elsewhere h h' nil root S)
    (h₂ : Elsewhere h' h'' nil root S') (hsub : ∀ z ∈ S', z ∈ S) : Elsewhere h h'' nil root S :=
  ⟨fun z hnil hroot hS => (h₁.nodes z hnil hroot hS).trans (h₂.nodes z hnil hroot fun hm => hS (hsub z hm)),
    h₂.up.trans h₁.up, h₂.color.trans h₁.color, h₂.nilColor.trans h₁.nilColor⟩

omit [DecidableEq ν] in
theorem Turned.elsewhere {t' : ColorTree ν} {p' : TreePath ν} (hturn : Turned nil root h t p h' t' p') :
    Elsewhere h h' nil root (plug p t).items :=
  ⟨fun z _ => hturn.within.nodes z, hturn.within.up, hturn.within.color, hturn.color_nil⟩

/-! ## A node with one subtree -/

section Cut

variable {d : Side} {c : Color} {y : ν}

/-- The two writes of the removal are in the tree. -/
theorem Elsewhere.cut (hz : IsZip h nil root (onSide d c leaf y t) p) :
    Elsewhere h ((h.setUp (t.ptr nil) (top root p)).setChild (top root p) (slot p) (t.ptr nil)) nil root
      (plug p (onSide d c leaf y t)).items := by
  have hroot := hz.above (List.mem_cons_self ..)
  have hmem : ∀ z, z ∉ (plug p (onSide d c leaf y t)).items → z ∉ t.items ∧ z ∉ pathItems p := by
    intro z hm
    rw [(perm_items_plug _ _).mem_iff, List.mem_append, mem_items_onSide] at hm
    tauto
  refine ⟨fun z hnil hzr hm => ?_, ?_, rfl, rfl⟩
  · obtain ⟨hzt, hzp⟩ := hmem z hm
    have htop : z ≠ top root p := by
      rintro rfl
      rcases List.mem_cons.mp (IsZip.top_mem root p) with he | hm
      · exact hzr he
      · exact hzp hm
    refine ⟨fun e => ?_, ?_, rfl⟩
    · simp [htop]
    · simp [ne_ptr hnil hzt]
  · have hne : root ≠ t.ptr nil := ne_ptr hroot.1 fun hm => hroot.2 (mem_items_onSide.mpr (Or.inr (Or.inr hm)))
    simp [hne]

/-- The child that takes the place. -/
theorem child_cut (hz : IsZip h nil root (onSide d c leaf y t) p) :
    (if h.child y .left ≠ nil then h.child y .left else h.child y .right) = t.ptr nil := by
  obtain ⟨-, -, hnear, hfar, -, -⟩ := isTree_onSide.mp hz.tree
  rw [ptr] at hnear
  cases d with
  | left => rw [hnear, if_neg (not_not.mpr rfl), hfar.symm, Side.other]
  | right =>
    rw [Side.other] at hfar
    rw [hfar, hnear]
    split
    · rfl
    · next hnil => exact (not_not.mp hnil).symm

/-- **The removal of a node with one subtree**, with the loop on the colours. -/
theorem cut_spec {fuel m : Nat} (hz : IsZip h nil root (onSide d c leaf y t) p)
    (hb : IsRedBlack (plug p (onSide d c leaf y t)) .black m) (hnil : h.color nil = .black)
    (hfuel : p.length + 1 < fuel) :
    ∃ h' T n, (if c ≠ .red then delBal nil root fuel
        ((h.setUp (t.ptr nil) (top root p)).setChild (top root p) (slot p) (t.ptr nil)) (t.ptr nil)
      else some ((h.setUp (t.ptr nil) (top root p)).setChild (top root p) (slot p) (t.ptr nil))) = some h' ∧
      IsZip h' nil root T [] ∧ T.items = (plug p t).items ∧ IsRedBlack T .black n ∧
      Elsewhere h h' nil root (plug p (onSide d c leaf y t)).items := by
  have hcut := hz.cut
  have helse := Elsewhere.cut hz
  have hsub : ∀ z ∈ (plug p t).items, z ∈ (plug p (onSide d c leaf y t)).items := by
    intro z hm
    rw [(perm_items_plug _ _).mem_iff, List.mem_append] at hm ⊢
    exact hm.imp_left fun hm => mem_items_onSide.mpr (Or.inr (Or.inr hm))
  obtain ⟨c₁, c₂, n, hp, ht, -⟩ := hb.unplug
  cases c with
  | red =>
    obtain ⟨-, -, hfar⟩ := ht.of_redOn
    obtain ⟨k, hk⟩ := hp.plug hfar nofun
    exact ⟨_, _, k, if_neg (not_not.mpr rfl), isZip_plug.mp hcut, rfl, hk, helse⟩
  | black =>
    obtain ⟨k, -, c₃, rfl, -, -, hfar⟩ := ht.of_blackOn
    have hne : top root p ≠ t.ptr nil := by
      obtain ⟨hn, hi⟩ := hz.above (IsZip.top_mem _ p)
      exact ne_ptr hn fun hm => hi (mem_items_onSide.mpr (Or.inr (Or.inr hm)))
    obtain ⟨h', T, k', hloop, hturn, hT⟩ := delBal_spec fuel hcut (by simp) hnil hp (.of_balanced hfar) hfuel
    refine ⟨h', T, k', ?_, hturn.zip, hturn.items, hT, helse.trans hturn.elsewhere hsub⟩
    rw [if_pos nofun]
    exact hloop

end Cut

/-! ## The substitute -/

section Exchange

variable {c : Color} {l r : ColorTree ν} {x y q : ν} {e : Side}

/-- The pointers after the exchange. -/
theorem exchange_child (hpp : parentPtrToItem h x = (q, e)) (hyx : y ≠ x) (hyq : y ≠ q) (z : ν) (d : Side) :
    (exchange h x y).child z d = if z = q ∧ d = e then y else if z = y then h.child x d else h.child z d := by
  have hup : h.up x = q := congrArg Prod.fst hpp
  have hside : (if h.child q .left = x then Side.left else Side.right) = e := by
    have hside := congrArg Prod.snd hpp
    simpa [parentPtrToItem, sideOf, isLeftChild, hup] using hside
  unfold exchange parentPtrToItem sideOf isLeftChild
  cases d <;> simp [hyx.symm, hyq.symm, hup, hside]

theorem exchange_up (hpp : parentPtrToItem h x = (q, e)) (hyx : y ≠ x) (hxq : x ≠ q) (z : ν) :
    (exchange h x y).up z =
      if z = h.child x .left ∨ z = h.child x .right then y else if z = y then q else h.up z := by
  have hup : h.up x = q := congrArg Prod.fst hpp
  unfold exchange parentPtrToItem
  by_cases hl : z = h.child x .left <;> simp [hyx.symm, hup, hxq, hl]

theorem exchange_color (z : ν) :
    (exchange h x y).color z = if z = y then h.color x else h.color z := by
  unfold exchange
  simp

omit [DecidableEq ν] in
/-- The subtrees of a node. -/
theorem nodup_node (hnd : (node c l x r).items.Nodup) :
    x ∉ l.items ∧ x ∉ r.items ∧ l.items.Nodup ∧ r.items.Nodup ∧ l.items.Disjoint r.items := by
  rw [ColorTree.items, List.nodup_append', List.nodup_cons, List.disjoint_cons_right] at hnd
  obtain ⟨hl, ⟨hxr, hr⟩, hxl, hdisj⟩ := hnd
  exact ⟨hxl, hxr, hl, hr, hdisj⟩

/-- **Another item** in the place of an item. -/
theorem exchange_spec (hz : IsZip h nil root (node c l x r) p)
    (hy : y ∉ nil :: root :: ((node c l x r).items ++ pathItems p)) :
    IsZip (exchange h x y) nil root (node c l y r) p ∧
      Elsewhere h (exchange h x y) nil root (y :: (plug p (node c l x r)).items) := by
  have htop := IsZip.top_mem root p
  obtain ⟨hcolor, hup, hleft, hright, hl, hr⟩ := hz.tree
  have hpp : parentPtrToItem h x = (top root p, slot p) := parentPtr_eq hz node_ne_leaf
  have hnd := hz.nodup
  obtain ⟨hnilNot, hnd'⟩ := List.nodup_cons.mp hnd
  obtain ⟨hxl, hxr, hndl, hndr, hdisj⟩ := nodup_node ((List.nodup_cons.mp hnd').2).of_append_left
  have hynot := hy
  simp only [ColorTree.items, List.mem_cons, List.mem_append, not_or] at hynot hnilNot
  obtain ⟨hynil, hyroot, ⟨hyl, hyx, hyr⟩, hyp⟩ := hynot
  obtain ⟨-, ⟨hnill, -, hnilr⟩, -⟩ := hnilNot
  have hitems : ∀ z, z ∈ l.items ∨ z = x ∨ z ∈ r.items → z ≠ top root p := by
    rintro z hm rfl
    exact (hz.above htop).2 (by simpa [ColorTree.items] using hm)
  have hyq : y ≠ top root p := by
    rintro rfl
    rcases List.mem_cons.mp htop with he | hm
    · exact hyroot he
    · exact hyp hm
  have hxq : x ≠ top root p := hitems x (Or.inr (Or.inl rfl))
  have hchild := exchange_child hpp hyx hyq
  have hups := exchange_up hpp hyx hxq
  have hcol := exchange_color (h := h) (x := x) (y := y)
  rw [hleft, hright] at hups
  have hsame : ∀ z, z ≠ y → z ≠ top root p → z ≠ l.ptr nil → z ≠ r.ptr nil → SameNode h (exchange h x y) z := by
    intro z hzy hzq hzl hzr
    refine ⟨fun d => ?_, ?_, ?_⟩
    · rw [hchild, if_neg (fun he => hzq he.1), if_neg hzy]
    · rw [hups, if_neg (not_or.mpr ⟨hzl, hzr⟩), if_neg hzy]
    · rw [hcol, if_neg hzy]
  have houter : ∀ z ∈ root :: pathItems p, z ≠ y ∧ z ≠ l.ptr nil ∧ z ≠ r.ptr nil := by
    intro z hm
    obtain ⟨hznil, hzt⟩ := hz.above hm
    simp only [ColorTree.items, List.mem_append, List.mem_cons, not_or] at hzt
    refine ⟨?_, ne_ptr hznil hzt.1, ne_ptr hznil hzt.2.2⟩
    rintro rfl
    rcases List.mem_cons.mp hm with he | hm
    · exact hyroot he
    · exact hyp hm
  -- a subtree gets the new item as its parent
  have hsubtree : ∀ {u v : ColorTree ν}, IsTree h nil x u → u.items.Nodup → u.items.Disjoint v.items → nil ∉ u.items →
      y ∉ u.items → (∀ z ∈ u.items, z ≠ top root p) →
      (∀ z, (z = l.ptr nil ∨ z = r.ptr nil) ↔ (z = u.ptr nil ∨ z = v.ptr nil)) →
      IsTree (exchange h x y) nil y u := by
    intro u v hu hnu huv hnilu hyu huq hptrs
    have hptr : u ≠ leaf → u.ptr nil ≠ y := fun hne he => hyu (he ▸ ptr_mem _ hne)
    refine hu.reparent hnu (fun z hm hne => ?_) fun hne => ⟨fun d => ?_, ?_, ?_⟩
    · have hzv : z ≠ v.ptr nil := ne_ptr (fun he => hnilu (he ▸ hm)) fun hv => huv hm hv
      have hnot := not_or.mp (mt (hptrs z).mp (not_or.mpr ⟨hne, hzv⟩))
      exact hsame z (fun he => hyu (he ▸ hm)) (huq z hm) hnot.1 hnot.2
    · rw [hchild, if_neg (fun he => huq _ (ptr_mem _ hne) he.1), if_neg (hptr hne)]
    · rw [hcol, if_neg (hptr hne)]
    · rw [hups, if_pos ((hptrs _).mpr (Or.inl rfl))]
  have hq := houter _ htop
  refine ⟨hz.replace ⟨?_, ?_, ?_, ?_, ?_, ?_⟩ ?_ (fun z hm hzq => ?_) (fun _ => ⟨?_, ?_, ?_⟩) ?_, ?_⟩
  · rw [hcol, if_pos rfl, hcolor]
  · rw [hups, if_neg (not_or.mpr ⟨ne_ptr hynil hyl, ne_ptr hynil hyr⟩), if_pos rfl]
  · rw [hchild, if_neg (fun he => hyq he.1), if_pos rfl, hleft]
  · rw [hchild, if_neg (fun he => hyq he.1), if_pos rfl, hright]
  · exact hsubtree (v := r) hl hndl hdisj hnill hyl (fun z hm => hitems z (Or.inl hm)) fun _ => Iff.rfl
  · exact hsubtree (v := l) hr hndr (List.disjoint_comm.mp hdisj) hnilr hyr
      (fun z hm => hitems z (Or.inr (Or.inr hm))) fun _ => or_comm
  · have hnew := List.nodup_cons.mpr ⟨hy, hnd⟩
    have hold : (y :: nil :: root :: ((node c l x r).items ++ pathItems p)).Perm
        (x :: nil :: root :: ((node c l y r).items ++ pathItems p)) := by
      rw [List.perm_iff_count]
      intro z
      simp only [ColorTree.items, List.count_cons, List.count_append]
      omega
    exact (List.nodup_cons.mp (hold.nodup_iff.mp hnew)).2
  · obtain ⟨hzy, hzl, hzr⟩ := houter z hm
    exact hsame z hzy hzq hzl hzr
  · rw [hcol, if_neg hq.1]
  · rw [hups, if_neg (not_or.mpr hq.2), if_neg hq.1]
  · rw [hchild, if_neg (fun he => Side.other_ne _ he.2), if_neg hq.1]
  · rw [hchild, if_pos ⟨rfl, rfl⟩, ptr]
  · have hroot := houter root (List.mem_cons_self ..)
    refine ⟨fun z hzn hzr hm => ?_, ?_, ?_, ?_⟩
    · rw [List.mem_cons, (perm_items_plug _ _).mem_iff, List.mem_append, ColorTree.items, List.mem_append,
        List.mem_cons, not_or, not_or, not_or, not_or] at hm
      obtain ⟨hzy, ⟨hzl, -, hzr'⟩, hzp⟩ := hm
      refine hsame z hzy ?_ (ne_ptr hzn hzl) (ne_ptr hzn hzr')
      rintro rfl
      rcases List.mem_cons.mp htop with he | hm
      · exact hzr he
      · exact hzp hm
    · rw [hups, if_neg (not_or.mpr hroot.2), if_neg hroot.1]
    · rw [hcol, if_neg hroot.1]
    · rw [hcol, if_neg (Ne.symm hynil)]

end Exchange

/-! ## The call -/

section Call

variable {s : Memory ν κ} {map : ClQmap ν} {as bs : List ν} {item y : ν} {d : Side} {c : Color}

omit [LinearOrder κ] in
/-- The call, with the child that takes the place of the item that leaves the tree. -/
theorem removeItem_eq (hz : IsZip s.tree map.nil map.root (onSide d c leaf y t) p) (hitem : item ≠ map.nil)
    (hdel : delItemOf s map item = some y) {h' : Heap ν}
    (hloop : (if c ≠ .red then delBal map.nil map.root (s.count map.nil + 2)
        ((s.tree.setUp (t.ptr map.nil) (top map.root p)).setChild (top map.root p) (slot p) (t.ptr map.nil))
        (t.ptr map.nil)
      else some ((s.tree.setUp (t.ptr map.nil) (top map.root p)).setChild (top map.root p) (slot p) (t.ptr map.nil))) =
        some h') :
    clQmapRemoveItem s map item = some { s with
      tree := if y ≠ item then exchange h' item y else h'
      links := clPrimitiveRemove s.links item
      count := Function.update s.count map.nil (s.count map.nil - 1) } := by
  obtain ⟨hcolor, hup, -, -, -, -⟩ := isTree_onSide.mp hz.tree
  have hpp := parentPtr_eq hz onSide_ne_leaf
  rw [ptr_onSide] at hpp
  have hyt : y ≠ t.ptr map.nil := by
    have hnd := hz.nodup
    rw [items_onSide, List.nodup_cons, List.nodup_cons, List.nodup_append', nodup_between, List.mem_cons,
      List.mem_append, mem_between] at hnd
    exact ne_ptr (fun he => hnd.1 (by simp [he])) hnd.2.2.1.2.1
  have hpp' : parentPtrToItem (s.tree.setUp (t.ptr map.nil) (top map.root p)) y = (top map.root p, slot p) := by
    rw [← hpp]
    simp [parentPtrToItem, sideOf, isLeftChild, hyt]
  unfold clQmapRemoveItem
  rw [if_neg hitem, hdel, Option.bind_some]
  dsimp only
  rw [child_cut hz, hup, hpp']
  dsimp only
  rw [Heap.setChild_color, Heap.setUp_color, hcolor, hloop, Option.map_some]

/-- The map without the item. -/
theorem removed_isQmap (h : IsQmap s map (as ++ item :: bs)) {T : ColorTree ν} {n : Nat} {h' : Heap ν}
    (hz : IsZip h' map.nil map.root T []) (hitems : T.items = as ++ bs) (hb : IsRedBlack T .black n)
    (he : Elsewhere s.tree h' map.nil map.root (as ++ item :: bs)) :
    IsQmap { s with
      tree := h'
      links := clPrimitiveRemove s.links item
      count := Function.update s.count map.nil (s.count map.nil - 1) } map (as ++ bs) ∧
    Outside s { s with
      tree := h'
      links := clPrimitiveRemove s.links item
      count := Function.update s.count map.nil (s.count map.nil - 1) } (map.nodes (as ++ item :: bs)) := by
  refine ⟨⟨⟨T, n, hz, hitems, hb⟩, he.up.trans h.rootUp, he.color.trans h.rootColor, he.nilColor.trans h.nilColor,
    h.sorted.sublist ((List.sublist_cons_self item bs).append_left as), h.list.unlink, ?_⟩, fun x hx => ?_⟩
  · simp [h.count]
  · unfold ClQmap.nodes at hx
    simp only [List.mem_cons, not_or] at hx
    obtain ⟨hxnil, hxroot, hxitems⟩ := hx
    refine ⟨he.nodes x hxnil hxroot hxitems, h.list.unlink_frame ?_, rfl, ?_⟩
    · rw [List.mem_cons, not_or]
      exact ⟨hxnil, hxitems⟩
    · simp [hxnil]

omit [DecidableEq ν] [LinearOrder κ] in
/-- The items without that of a node with one subtree. -/
theorem items_cut (hitems : (plug p (onSide d c leaf item t)).items = as ++ item :: bs)
    (hnd : (as ++ item :: bs).Nodup) :
    (plug p t).items = as ++ bs := by
  rw [List.nodup_middle, List.nodup_cons, List.mem_append, not_or] at hnd
  obtain ⟨⟨has, hbs⟩, -⟩ := hnd
  rw [items_plug, items_onSide] at hitems
  rw [items_plug]
  cases d with
  | left =>
    have hsplit : as ++ item :: bs = before p ++ item :: (t.items ++ after p) := by
      rw [← hitems]
      simp [between, ColorTree.items]
    obtain ⟨rfl, -, rfl⟩ := (List.append_cons_inj_of_notMem has hbs).mp hsplit
    rfl
  | right =>
    have hsplit : as ++ item :: bs = (before p ++ t.items) ++ item :: after p := by
      rw [← hitems]
      simp [between, ColorTree.items]
    obtain ⟨rfl, -, rfl⟩ := (List.append_cons_inj_of_notMem has hbs).mp hsplit
    rw [List.append_assoc]

omit [DecidableEq ν] in
/-- The steps of the loop on the colours. -/
theorem length_path (h : IsQmap s map (as ++ item :: bs)) (hitems : (plug p t).items = as ++ item :: bs)
    (hne : t ≠ leaf) :
    p.length + 1 < s.count map.nil + 2 := by
  have hlen := (perm_items_plug p t).length_eq
  have hpath := length_le_pathItems p
  have hmem : t.ptr map.nil ∈ t.items := ptr_mem _ hne
  have hpos := List.length_pos_of_mem hmem
  rw [hitems, ← h.count, List.length_append] at hlen
  omega

/-- An item with one subtree leaves the tree. -/
theorem remove_one {m : Nat} (h : IsQmap s map (as ++ item :: bs))
    (hz : IsZip s.tree map.nil map.root (onSide d c leaf item t) p)
    (hb : IsRedBlack (plug p (onSide d c leaf item t)) .black m)
    (hitems : (plug p (onSide d c leaf item t)).items = as ++ item :: bs) :
    ∃ s', clQmapRemoveItem s map item = some s' ∧ IsQmap s' map (as ++ bs) ∧ s'.key = s.key ∧
      Outside s s' (map.nodes (as ++ item :: bs)) := by
  have hnd := (List.nodup_cons.mp (List.nodup_cons.mp h.nodup).2).2
  have hitem : item ≠ map.nil := by
    have hptr := ptr_ne_nil hz onSide_ne_leaf
    rwa [ptr_onSide] at hptr
  have hdel : delItemOf s map item = some item := by
    obtain ⟨-, -, hnear, -, -, -⟩ := isTree_onSide.mp hz.tree
    rw [delItemOf, if_pos]
    cases d with
    | left => exact Or.inr hnear
    | right => exact Or.inl hnear
  obtain ⟨h', T, n, hloop, hT, hTitems, hTb, helse⟩ :=
    cut_spec hz hb h.nilColor (length_path h hitems onSide_ne_leaf)
  rw [hitems] at helse
  rw [items_cut hitems hnd] at hTitems
  obtain ⟨hmap, hout⟩ := removed_isQmap h hT hTitems hTb helse
  refine ⟨_, removeItem_eq hz hitem hdel hloop, ?_⟩
  rw [if_neg (not_not.mpr rfl)]
  exact ⟨hmap, rfl, hout⟩

/-- The item after it leaves the tree, and takes the place of an item with two subtrees. -/
theorem remove_two {m : Nat} {l r : ColorTree ν} (h : IsQmap s map (as ++ item :: bs))
    (hz : IsZip s.tree map.nil map.root (node c l item r) p) (hb : IsRedBlack (plug p (node c l item r)) .black m)
    (hitems : (plug p (node c l item r)).items = as ++ item :: bs) (hl : l ≠ leaf) (hr : r ≠ leaf) :
    ∃ s', clQmapRemoveItem s map item = some s' ∧ IsQmap s' map (as ++ bs) ∧ s'.key = s.key ∧
      Outside s s' (map.nodes (as ++ item :: bs)) := by
  have hnodes := h.nodup
  have hnd := (List.nodup_cons.mp (List.nodup_cons.mp hnodes).2).2
  have hnd' := hnd
  rw [List.nodup_middle, List.nodup_cons, List.mem_append, not_or] at hnd'
  obtain ⟨⟨has, hbs⟩, -⟩ := hnd'
  have hitem : item ≠ map.nil := ptr_ne_nil hz node_ne_leaf
  obtain ⟨-, -, hleft, hright, -, -⟩ := hz.tree
  have hlnil : l.ptr map.nil ≠ map.nil := ptr_ne_nil (isZip_cons.mpr hz : IsZip _ _ _ l (⟨.left, c, item, r⟩ :: p)) hl
  have hrnil : r.ptr map.nil ≠ map.nil := ptr_ne_nil (isZip_cons.mpr hz : IsZip _ _ _ r (⟨.right, c, item, l⟩ :: p)) hr
  obtain ⟨q, cy, y, ry, rfl, hfirst⟩ := exists_first hr
  have hsplit : as ++ item :: bs = (before p ++ l.items) ++ item :: y :: ((ry.items ++ after q) ++ after p) := by
    rw [← hitems]
    simp [items_plug, ColorTree.items, hfirst]
  obtain ⟨hasEq, -, hbsEq⟩ := (List.append_cons_inj_of_notMem has hbs).mp hsplit
  have hdel : delItemOf s map item = some y := by
    have hnext := (h.links rfl).1
    rw [hbsEq, List.headD_cons] at hnext
    rw [delItemOf, hleft, hright, if_neg (not_or.mpr ⟨hrnil, hlnil⟩), hnext]
  -- the place of the item after it
  have hplug : ∀ u : ColorTree ν, plug (q ++ ⟨.right, c, item, l⟩ :: p) u = plug p (node c l item (plug q u)) := by
    intro u
    rw [plug_append]
    rfl
  have hzy : IsZip s.tree map.nil map.root (onSide .left cy leaf y ry) (q ++ ⟨.right, c, item, l⟩ :: p) :=
    isZip_append.mpr (isZip_cons.mpr hz)
  have hall : (plug (q ++ ⟨.right, c, item, l⟩ :: p) (onSide .left cy leaf y ry)).items = as ++ item :: bs := by
    rw [hplug]
    exact hitems
  rw [← hplug] at hb
  obtain ⟨h', T, n, hloop, hT, hTitems, hTb, helse⟩ :=
    cut_spec (d := .left) hzy hb h.nilColor (length_path h hall onSide_ne_leaf)
  have hTsplit : T.items = as ++ item :: (ry.items ++ after q ++ after p) := by
    rw [hTitems, hplug, hasEq]
    simp [items_plug, ColorTree.items, hfirst]
  have hmem : item ∈ T.items := by
    rw [hTsplit]
    simp
  obtain ⟨p', c', l', r', rfl⟩ := exists_plug hmem
  have hy : y ∉ map.nil :: map.root :: ((node c' l' item r').items ++ pathItems p') := by
    have hperm := perm_items_plug p' (node c' l' item r')
    rw [hTsplit] at hperm
    rw [List.mem_cons, List.mem_cons, ← hperm.mem_iff]
    unfold ClQmap.nodes at hnodes
    rw [hbsEq] at hnodes
    have hfresh : (y :: map.nil :: map.root :: (as ++ item :: (ry.items ++ after q ++ after p))).Nodup := by
      refine List.Perm.nodup ?_ hnodes
      rw [List.perm_iff_count]
      intro z
      simp only [List.count_cons, List.count_append]
      omega
    have hfreshNot := (List.nodup_cons.mp hfresh).1
    rwa [List.mem_cons, List.mem_cons] at hfreshNot
  obtain ⟨hzz, helse'⟩ := exchange_spec (isZip_plug.mpr hT) hy
  obtain ⟨k, hk⟩ := hTb.rename y
  have hnew : (plug p' (node c' l' y r')).items = as ++ bs := by
    have hsplit' : as ++ item :: (ry.items ++ after q ++ after p) =
        (before p' ++ l'.items) ++ item :: (r'.items ++ after p') := by
      rw [← hTsplit]
      simp [items_plug, ColorTree.items]
    have hbs' : item ∉ ry.items ++ after q ++ after p := by
      rw [hbsEq] at hbs
      exact fun hm => hbs (List.mem_cons_of_mem _ hm)
    obtain ⟨hasEq', -, hbsEq'⟩ := (List.append_cons_inj_of_notMem has hbs').mp hsplit'
    rw [hbsEq, hbsEq', hasEq']
    simp [items_plug, ColorTree.items]
  rw [hall] at helse
  have hsub : ∀ z ∈ y :: (plug p' (node c' l' item r')).items, z ∈ as ++ item :: bs := by
    intro z hm
    rw [hTsplit] at hm
    rw [hbsEq]
    simp only [List.mem_cons, List.mem_append] at hm ⊢
    tauto
  obtain ⟨hmap, hout⟩ := removed_isQmap h (isZip_plug.mp hzz) hnew hk (helse.trans helse' hsub)
  have hyitem : y ≠ item := by
    rintro rfl
    exact hbs (hbsEq ▸ List.mem_cons_self ..)
  refine ⟨_, removeItem_eq hzy hitem hdel hloop, ?_⟩
  rw [if_pos hyitem]
  exact ⟨hmap, rfl, hout⟩

/-- **`cl_qmap_remove_item`** of an item of the map. -/
theorem clQmapRemoveItem_spec (h : IsQmap s map (as ++ item :: bs)) :
    ∃ s', clQmapRemoveItem s map item = some s' ∧ IsQmap s' map (as ++ bs) ∧ s'.key = s.key ∧
      Outside s s' (map.nodes (as ++ item :: bs)) := by
  obtain ⟨t, m, hz, hitems, hb⟩ := h.tree
  have hmem : item ∈ t.items := by
    rw [hitems]
    simp
  obtain ⟨p, c, l, r, rfl⟩ := exists_plug hmem
  have hzp := isZip_plug.mpr hz
  by_cases hl : l = leaf
  · subst hl
    exact remove_one (d := .left) h hzp hb hitems
  by_cases hr : r = leaf
  · subst hr
    exact remove_one (d := .right) h hzp hb hitems
  exact remove_two h hzp hb hitems hl hr

omit [LinearOrder κ] in
/-- The end of a map is not removed. -/
theorem clQmapRemoveItem_end : clQmapRemoveItem s map map.nil = some s := by
  rw [clQmapRemoveItem, if_pos rfl]

end Call

end MlnxLib.Qmaps
