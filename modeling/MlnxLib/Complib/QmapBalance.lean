import MlnxLib.Complib.Qmap

/-!
# Rotations and the balance of quick maps

What the rotations and the two loops on the colours do to the tree that the pointers represent.

* `IsZip.rot` — a rotation at a place of the tree.
* `insBal_spec` — the loop after an insertion, with a red subtree at its place.
* `delBal_spec` — the loop after a removal, with a subtree that is one short at its place.

Each of them keeps the items in their order and leaves all other nodes as they were.
-/

set_option autoImplicit false

namespace MlnxLib.Qmaps

open RedBlack RedBlack.ColorTree

variable {ν : Type} [DecidableEq ν] {h h' : Heap ν} {nil root : ν} {t s : ColorTree ν} {p : TreePath ν} {d : Side}

/-! ## Places -/

/-- Everything but the nodes of a tree, and the pointer to it, is as it was. -/
structure Within (h h' : Heap ν) (root : ν) (S : List ν) : Prop where
  nodes : ∀ z, z ≠ root → z ∉ S → SameNode h h' z
  up : h'.up root = h.up root
  color : h'.color root = h.color root

/-- **The same items** at another place of a tree of another form. -/
structure Turned (nil root : ν) (h : Heap ν) (t : ColorTree ν) (p : TreePath ν) (h' : Heap ν) (t' : ColorTree ν)
    (p' : TreePath ν) :
    Prop where
  zip : IsZip h' nil root t' p'
  items : (plug p' t').items = (plug p t).items
  within : Within h h' root (plug p t).items

omit [DecidableEq ν] in
theorem Turned.refl (hz : IsZip h nil root t p) : Turned nil root h t p h t p :=
  ⟨hz, rfl, ⟨fun _ _ _ => .refl h _, rfl, rfl⟩⟩

omit [DecidableEq ν] in
theorem Turned.trans {h'' : Heap ν} {t' t'' : ColorTree ν} {p' p'' : TreePath ν} (h₁ : Turned nil root h t p h' t' p')
    (h₂ : Turned nil root h' t' p' h'' t'' p'') : Turned nil root h t p h'' t'' p'' := by
  obtain ⟨hz, hitems, hnodes, hup, hcolor⟩ := h₁
  obtain ⟨hz', hitems', hnodes', hup', hcolor'⟩ := h₂
  refine ⟨hz', hitems'.trans hitems, fun z hr hS => (hnodes z hr hS).trans (hnodes' z hr ?_), hup'.trans hup,
    hcolor'.trans hcolor⟩
  rw [hitems]
  exact hS

omit [DecidableEq ν] in
theorem not_mem_plug (hz : IsZip h nil root t p) : nil ≠ root ∧ nil ∉ (plug p t).items ∧ root ∉ (plug p t).items := by
  have hnd := hz.nodup
  have hperm := perm_items_plug p t
  rw [List.nodup_cons, List.nodup_cons, List.mem_cons, not_or, ← hperm.mem_iff, ← hperm.mem_iff] at hnd
  exact ⟨hnd.1.1, hnd.1.2, hnd.2.1⟩

omit [DecidableEq ν] in
theorem Turned.color_nil {t' : ColorTree ν} {p' : TreePath ν} (h₁ : Turned nil root h t p h' t' p') :
    h'.color nil = h.color nil := by
  obtain ⟨hne, hnil, -⟩ := not_mem_plug h₁.zip
  rw [h₁.items] at hnil
  exact (h₁.within.nodes nil hne hnil).color

omit [DecidableEq ν] in
/-- The pointers to a subtree and to its sibling. -/
theorem sibling_ptr_ne {f : Frame ν} (hnd : (nil :: root :: (t.items ++ pathItems (f :: p))).Nodup)
    (hne : t ≠ leaf ∨ f.sibling ≠ leaf) : f.sibling.ptr nil ≠ t.ptr nil := by
  rw [List.nodup_cons, List.nodup_cons, List.nodup_append', List.mem_cons, List.mem_append] at hnd
  obtain ⟨hnil, -, -, -, hdisj⟩ := hnd
  have hsibling : ∀ z ∈ f.sibling.items, z ∈ pathItems (f :: p) := fun z hz =>
    List.mem_cons_of_mem _ (List.mem_append_left _ hz)
  intro heq
  by_cases ht : t = leaf
  · subst ht
    have hmem := ptr_mem nil (hne.resolve_left (not_not.mpr rfl))
    rw [heq] at hmem
    exact hnil (Or.inr (Or.inr (hsibling _ hmem)))
  · have hmem := ptr_mem nil ht
    by_cases hs : f.sibling = leaf
    · rw [← heq, hs] at hmem
      exact hnil (Or.inr (Or.inl hmem))
    · have hmem' := ptr_mem nil hs
      rw [heq] at hmem'
      exact hdisj hmem (hsibling _ hmem')

/-- **The side of a place**, read from the pointers of its parent. -/
theorem sideOf_eq (hz : IsZip h nil root t p) (hup : h.up (t.ptr nil) = top root p)
    (hne : t ≠ leaf ∨ ∀ f ∈ p.head?, f.sibling ≠ leaf) : sideOf h (t.ptr nil) = slot p := by
  have hslot := hz.child_top
  unfold sideOf isLeftChild
  rw [hup]
  cases p with
  | nil =>
    have hleft : h.child root .left = t.ptr nil := hslot
    rw [top, decide_eq_true hleft, if_pos rfl, slot]
  | cons f p =>
    obtain ⟨d, c, x, s⟩ := f
    cases d with
    | left =>
      have hleft : h.child x .left = t.ptr nil := hslot
      rw [top, decide_eq_true hleft, if_pos rfl, slot]
    | right =>
      have hother : h.child x .left = s.ptr nil := hz.path.2.2.2.1
      have hnot : h.child x .left ≠ t.ptr nil := by
        rw [hother]
        exact sibling_ptr_ne hz.nodup (hne.imp_right fun hs => hs _ rfl)
      rw [top, decide_eq_false hnot, if_neg Bool.false_ne_true, slot]

theorem parentPtr_eq (hz : IsZip h nil root t p) (hne : t ≠ leaf) :
    parentPtrToItem h (t.ptr nil) = (top root p, slot p) := by
  have hup := hz.up_ptr hne
  rw [parentPtrToItem, sideOf_eq hz hup (Or.inl hne), hup]

/-! ## Rotations -/

section Rotation

variable {a c : ν} {ca cc : Color} {w b z : ColorTree ν}

variable (nil d) in
/-- The pointers after a rotation. -/
theorem rot_child {q : ν} {e : Side} (hpp : parentPtrToItem h a = (q, e)) (hc : h.child a d.other = c)
    (hcq : c ≠ q) (y : ν) (e' : Side) :
    (rot d nil h a).child y e' =
      if y = c ∧ e' = d then a else if y = a ∧ e' = d.other then h.child c d
      else if y = q ∧ e' = e then c else h.child y e' := by
  unfold rot
  simp only [hpp, hc]
  split <;> simp [hcq]

variable (nil d) in
theorem rot_up {q : ν} {e : Side} (hpp : parentPtrToItem h a = (q, e)) (hc : h.child a d.other = c)
    (hcq : c ≠ q) (y : ν) :
    (rot d nil h a).up y =
      if y = a then c else if h.child c d ≠ nil ∧ y = h.child c d then a
      else if y = c then q else h.up y := by
  have hup : h.up a = q := congrArg Prod.fst hpp
  unfold rot
  simp only [hpp, hc]
  by_cases hnil : h.child c d = nil <;> simp [hcq, hnil, hup]

variable (nil d) in
theorem rot_color (y : ν) : (rot d nil h a).color y = h.color y := by
  unfold rot
  dsimp only
  split <;> rfl

/-- **A rotation** at a place: the item goes down on the side `d`. -/
theorem Turned.rot (hz : IsZip h nil root (onSide d ca w a (onSide d cc b c z)) p) :
    Turned nil root h (onSide d ca w a (onSide d cc b c z)) p (Qmaps.rot d nil h a)
      (onSide d cc (onSide d ca w a b) c z) p := by
  have hpp := parentPtr_eq hz onSide_ne_leaf
  rw [ptr_onSide] at hpp
  obtain ⟨hca, hupa, had, hao, hw, hc⟩ := isTree_onSide.mp hz.tree
  obtain ⟨hcc, hupc, hcd, hco, hb, hzz⟩ := isTree_onSide.mp hc
  rw [ptr_onSide] at hao
  have hnd := hz.nodup
  have hQ := IsZip.top_mem root p
  have hitems : (onSide d ca w a (onSide d cc b c z)).items = between d w.items a (between d b.items c z.items) := by
    rw [items_onSide, items_onSide]
  have hitems' : (onSide d cc (onSide d ca w a b) c z).items = between d w.items a (between d b.items c z.items) := by
    rw [items_onSide, items_onSide, between_rotate]
  have hnd' := hnd
  rw [hitems] at hnd hnd'
  simp only [List.nodup_cons, List.nodup_append', nodup_between, mem_between, List.mem_cons, List.mem_append,
    not_or] at hnd hQ
  obtain ⟨⟨-, ⟨-, -, hnilb, -, -⟩, -⟩, ⟨⟨hrootw, hroota, hrootb, hrootc, hrootz⟩, -⟩,
    ⟨haw, ⟨hab, hac, haz⟩, -, ⟨hcb, hcz, hndb, -, hbz⟩, hdisj⟩, -, hpath⟩ := hnd
  -- the node above is none of those that turn
  have hqne : ∀ y, (y ∈ w.items ∨ y = a ∨ y ∈ b.items ∨ y = c ∨ y ∈ z.items) → y ≠ top root p := by
    rintro y hy rfl
    rcases hQ with hQ | hQ
    · rw [hQ] at hy
      tauto
    · exact hpath (mem_between.mpr (by rw [mem_between]; exact hy)) hQ
  have hptrb : ∀ y ∉ b.items, b ≠ leaf → y ≠ b.ptr nil := by
    rintro y hy hne rfl
    exact hy (ptr_mem _ hne)
  have hcq : c ≠ top root p := hqne c (by simp)
  have hbnil : b.ptr nil ≠ nil ↔ b ≠ leaf := not_congr (ptr_eq_nil hnilb)
  have hchild := rot_child nil d hpp hao hcq
  have hup := rot_up nil d hpp hao hcq
  have hcolor := rot_color nil d (h := h) (a := a)
  rw [hcd] at hchild hup
  have hsame : ∀ y, y ≠ a → y ≠ c → y ≠ top root p → (b ≠ leaf → y ≠ b.ptr nil) →
      SameNode h (Qmaps.rot d nil h a) y := by
    intro y hya hyc hyq hyb
    refine ⟨fun e => ?_, ?_, hcolor y⟩
    · rw [hchild, if_neg (fun he => hyc he.1), if_neg (fun he => hya he.1), if_neg (fun he => hyq he.1)]
    · rw [hup, if_neg hya, if_neg (fun he => hyb (hbnil.mp he.1) he.2), if_neg hyc]
  have hwithin : Within h (Qmaps.rot d nil h a) root (plug p (onSide d ca w a (onSide d cc b c z))).items := by
    refine ⟨fun y hyroot hy => ?_, ?_, hcolor root⟩
    · rw [(perm_items_plug _ _).mem_iff, hitems, List.mem_append, not_or] at hy
      simp only [mem_between, not_or] at hy
      obtain ⟨⟨-, hya, hyb, hyc, -⟩, hyp⟩ := hy
      refine hsame y hya hyc ?_ (hptrb y hyb)
      rintro rfl
      exact hQ.elim hyroot hyp
    · rw [hup, if_neg hroota, if_neg (fun he => hptrb root hrootb (hbnil.mp he.1) he.2), if_neg hrootc]
  have houter : ∀ y ∈ root :: pathItems p, y ∉ between d w.items a (between d b.items c z.items) := by
    intro y hy hmem
    rcases List.mem_cons.mp hy with rfl | hy
    · simp only [mem_between] at hmem
      tauto
    · exact hpath hmem hy
  have hca' : c ≠ a := Ne.symm hac
  have hother : d ≠ d.other := (Side.other_ne d).symm
  have hqa : top root p ≠ a := (hqne a (by simp)).symm
  have hqb : b ≠ leaf → top root p ≠ b.ptr nil := fun hne => (hqne _ (by simp [ptr_mem _ hne])).symm
  refine ⟨hz.replace ?_ ?_ (fun y hy hyq => ?_) (fun _ => ⟨hcolor _, ?_, ?_⟩) ?_,
    by rw [items_plug, items_plug, hitems, hitems'], hwithin⟩
  · refine isTree_onSide.mpr ⟨(hcolor c).trans hcc, ?_, ?_, ?_, isTree_onSide.mpr ⟨(hcolor a).trans hca, ?_, ?_, ?_,
      ?_, ?_⟩, ?_⟩
    · rw [hup, if_neg hca', if_neg (fun he => hptrb c hcb (hbnil.mp he.1) he.2), if_pos rfl]
    · rw [hchild, if_pos ⟨rfl, rfl⟩, ptr_onSide]
    · rw [hchild, if_neg (fun he => hother he.2.symm), if_neg (fun he => hca' he.1), if_neg (fun he => hcq he.1), hco]
    · rw [hup, if_pos rfl]
    · rw [hchild, if_neg (fun he => hac he.1), if_neg (fun he => hother he.2), if_neg (fun he => hqa he.1.symm), had]
    · rw [hchild, if_neg (fun he => hac he.1), if_pos ⟨rfl, rfl⟩]
    · refine hw.congr fun y hy => hsame y ?_ ?_ (hqne y (Or.inl hy)) ?_
      · rintro rfl
        exact haw hy
      · rintro rfl
        exact hdisj hy (by simp)
      · rintro hne rfl
        exact hdisj hy (by simp [ptr_mem _ hne])
    · refine hb.reparent hndb (fun y hy hyb => hsame y ?_ ?_ (hqne y (by simp [hy])) fun _ => hyb) fun hne => ?_
      · rintro rfl
        exact hab hy
      · rintro rfl
        exact hcb hy
      · have hba : b.ptr nil ≠ a := fun he => hab (he ▸ ptr_mem _ hne)
        have hbc : b.ptr nil ≠ c := fun he => hcb (he ▸ ptr_mem _ hne)
        refine ⟨fun e => ?_, hcolor _, ?_⟩
        · rw [hchild, if_neg (fun he => hbc he.1), if_neg (fun he => hba he.1),
            if_neg (fun he => hqb hne he.1.symm)]
        · rw [hup, if_neg hba, if_pos ⟨hbnil.mpr hne, rfl⟩]
    · refine hzz.congr fun y hy => hsame y ?_ ?_ (hqne y (by simp [hy])) ?_
      · rintro rfl
        exact haz hy
      · rintro rfl
        exact hcz hy
      · rintro hne rfl
        exact hbz (ptr_mem _ hne) hy
  · rw [hitems']
    exact hnd'
  · have hy' := houter y hy
    simp only [mem_between, not_or] at hy'
    exact hsame y hy'.2.1 hy'.2.2.2.1 hyq (hptrb y hy'.2.2.1)
  · rw [hup, if_neg hqa, if_neg (fun he => hqb (hbnil.mp he.1) he.2), if_neg hcq.symm]
  · rw [hchild, if_neg (fun he => hcq he.1.symm), if_neg (fun he => hqa he.1),
      if_neg (fun he => Side.other_ne _ he.2)]
  · rw [hchild, if_neg (fun he => hcq he.1.symm), if_neg (fun he => hqa he.1), if_pos ⟨rfl, rfl⟩, ptr_onSide]

/-- **Writing the colour** of a place. -/
theorem Turned.recolor (hz : IsZip h nil root t p) (hne : t ≠ leaf) (cl : Color) :
    Turned nil root h t p (h.setColor (t.ptr nil) cl) (t.setColor cl) p := by
  obtain ⟨-, -, hroot⟩ := not_mem_plug hz
  have hmem : t.ptr nil ∈ (plug p t).items := by
    rw [(perm_items_plug p t).mem_iff]
    exact List.mem_append_left _ (ptr_mem _ hne)
  refine ⟨hz.recolor hne cl, by rw [items_plug, items_plug, items_setColor], ⟨fun y _ hy => ?_, rfl, ?_⟩⟩
  · have hyt : y ≠ t.ptr nil := fun he => hy (he ▸ hmem)
    exact ⟨fun _ => rfl, rfl, by rw [Heap.setColor_color, if_neg hyt]⟩
  · have hrt : root ≠ t.ptr nil := fun he => hroot (he ▸ hmem)
    rw [Heap.setColor_color, if_neg hrt]

end Rotation

section Moves

variable {f : Frame ν} {t' : ColorTree ν} {p' : TreePath ν}

omit [DecidableEq ν] in
/-- The place above. -/
theorem Turned.up (hturn : Turned nil root h t p h' t' (f :: p')) :
    Turned nil root h t p h' (onSide f.side f.color t' f.item f.sibling) p' :=
  ⟨isZip_cons.mp hturn.zip, hturn.items, hturn.within⟩

omit [DecidableEq ν] in
/-- A place below. -/
theorem Turned.down {d : Side} {c : Color} {x : ν} {s : ColorTree ν}
    (hturn : Turned nil root h t p h' (onSide d c t' x s) p') :
    Turned nil root h t p h' t' (⟨d, c, x, s⟩ :: p') :=
  ⟨isZip_cons.mpr hturn.zip, hturn.items, hturn.within⟩

omit [DecidableEq ν] in
/-- The place of the sibling. -/
theorem Turned.sibling {d : Side} {c : Color} {x : ν} {s : ColorTree ν}
    (hturn : Turned nil root h t p h' t' (⟨d, c, x, s⟩ :: p')) :
    Turned nil root h t p h' s (⟨d.other, c, x, t'⟩ :: p') := by
  have hup := hturn.up
  rw [← onSide_other] at hup
  exact hup.down

/-- A colour written after other turns. -/
theorem Turned.setColor (hturn : Turned nil root h t p h' t' p') (hne : t' ≠ leaf) {x : ν} (hx : t'.ptr nil = x)
    (c : Color) : Turned nil root h t p (h'.setColor x c) (t'.setColor c) p' := by
  subst hx
  exact hturn.trans (.recolor hturn.zip hne c)

end Moves

/-! ## After an insertion -/

section Insertion

variable {cb cg : Color} {b g : ν} {u : ColorTree ν}

theorem Turned.insEnd (hz : IsZip h nil root t (⟨d, cb, b, s⟩ :: ⟨d, cg, g, u⟩ :: p)) (hne : t ≠ leaf) :
    Turned nil root h t (⟨d, cb, b, s⟩ :: ⟨d, cg, g, u⟩ :: p) (insEnd d nil h (t.ptr nil)) t
      (⟨d, .black, b, onSide d .red s g u⟩ :: p) := by
  have hb : h.up (t.ptr nil) = b := hz.up_ptr hne
  have hg : h.up b = g := hz.path.2.1
  have hparent := (Turned.refl hz).up.setColor onSide_ne_leaf (ptr_onSide ..) .black
  rw [setColor_onSide] at hparent
  have hgrand := hparent.up.setColor onSide_ne_leaf (ptr_onSide ..) .red
  rw [setColor_onSide] at hgrand
  -- seen from the other side
  have hmirror : onSide d .red (onSide d .black t b s) g u =
      onSide d.other .red u g (onSide d.other .black s b t) := by
    rw [onSide_other, onSide_other]
  dsimp only at hgrand
  rw [hmirror] at hgrand
  have hrot := hgrand.trans (.rot hgrand.zip)
  rw [onSide_other, onSide_other] at hrot
  unfold Qmaps.insEnd
  simp only [Heap.setColor_up, hb, hg]
  exact hrot.down

/-- **The loop after an insertion**: at its end the red subtree is below a black node. -/
theorem insBal_spec : ∀ (fuel : Nat) {h : Heap ν} {t : ColorTree ν} {p : TreePath ν} {n : Nat} {c : Color},
    IsZip h nil root t p → h.color root = .black → h.color nil = .black → IsRedBlack t .red n →
      IsRedBlackPath p c n → p.length < fuel → ∃ h' t' p' n', insBal nil fuel h (t.ptr nil) = some h' ∧
        Turned nil root h t p h' t' p' ∧ IsRedBlack t' .red n' ∧ IsRedBlackPath p' .black n'
  | 0, _, _, _, _, _, _, _, _, _, _, hfuel => absurd hfuel (Nat.not_lt_zero _)
  | fuel + 1, h, t, p, n, .black, hz, hroot, _, ht, hp, _ => by
    have hne : t ≠ leaf := ne_leaf_of_red ht.color_eq
    have hup : h.color (h.up (t.ptr nil)) = .black := by
      rw [hz.up_ptr hne]
      cases hp with
      | top => exact hroot
      | black d x hs hp => exact hz.path.1
    have hstop : h.color (h.up (t.ptr nil)) ≠ .red := by rw [hup]; nofun
    exact ⟨h, t, p, n, by rw [insBal, if_neg hstop], .refl hz, ht, hp⟩
  | fuel + 1, h, t, p, n, .red, hz, hroot, hnil, ht, hp, hfuel => by
    obtain ⟨d₁, b, s, d₂, g, u, p', c₁, c₂, rfl, hs, hu, hp'⟩ := hp.grandparent
    have hne : t ≠ leaf := ne_leaf_of_red ht.color_eq
    have hb : h.up (t.ptr nil) = b := hz.up_ptr hne
    have hg : h.up b = g := hz.path.2.1
    have hred : h.color b = .red := hz.path.1
    have hzb := isZip_cons.mp hz
    have hside : sideOf h b = d₂ := by
      have hup := hzb.up_ptr onSide_ne_leaf
      have hsideOf := sideOf_eq hzb hup (Or.inl onSide_ne_leaf)
      rw [ptr_onSide] at hsideOf
      exact hsideOf
    have huncle : h.child g d₂.other = u.ptr nil := hzb.path.2.2.2.1
    have hzu := (Turned.refl hz).up.sibling
    have hcolor : h.color (u.ptr nil) = u.color := hzu.zip.color_ptr hnil
    rw [List.length_cons, List.length_cons] at hfuel
    rw [insBal, hb, if_pos hred]
    dsimp only
    rw [hside, hg, huncle, hcolor]
    by_cases hured : u.color = .red
    · rw [if_pos hured]
      -- the colours are written, and the loop goes on from the grandparent
      have hturn := hzu.setColor (ne_leaf_of_red hured) rfl .black
      have hparent := hturn.sibling.setColor onSide_ne_leaf (ptr_onSide ..) .black
      rw [Side.other_other, setColor_onSide] at hparent
      have hgrand := hparent.up.setColor onSide_ne_leaf (ptr_onSide ..) .red
      rw [setColor_onSide] at hgrand
      rw [hu.color_eq] at hured
      subst hured
      obtain ⟨h', t', p'', n', hloop, hturned, ht', hp''⟩ := insBal_spec fuel hgrand.zip
        (hgrand.within.color.trans hroot) (hgrand.color_nil.trans hnil) (ht.recolour hs hu) hp' (by omega)
      rw [ptr_onSide] at hloop
      refine ⟨h', t', p'', n', ?_, hgrand.trans hturned, ht', hp''⟩
      simp only [Heap.setColor_up, hb, hg]
      exact hloop
    · rw [if_neg hured]
      have hsame : sideOf h (t.ptr nil) = d₁ := by
        have hup := hz.up_ptr hne
        exact sideOf_eq hz hup (Or.inl hne)
      rw [hsame]
      have hublack : IsRedBlack u .black n := by
        cases c₁ with
        | red => exact absurd hu.color_eq hured
        | black => exact hu
      by_cases hd : d₁ = d₂
      · subst hd
        rw [if_neg (not_not.mpr rfl)]
        have hend := Turned.insEnd hz hne
        obtain ⟨h', t', p'', n', hloop, hturned, ht', hp''⟩ := insBal_spec fuel hend.zip
          (hend.within.color.trans hroot) (hend.color_nil.trans hnil) ht
          (.black d₁ b (.redOn d₁ g hs hublack) hp') (by rw [List.length_cons]; omega)
        exact ⟨h', t', p'', n', hloop, hend.trans hturned, ht', hp''⟩
      · obtain rfl := Side.eq_other_of_ne hd
        rw [if_pos hd]
        -- the item comes to the side of its parent
        obtain ⟨near, x, far, htree⟩ := exists_onSide d₂ hne
        rw [ht.color_eq] at htree
        have hmirror : onSide d₂.other .red t b s = onSide d₂ .red s b (onSide d₂ .red near x far) := by
          rw [onSide_other, ← htree]
        have hzb' := (Turned.refl hz).up
        dsimp only at hzb'
        rw [hmirror] at hzb'
        have hrot := (hzb'.trans (.rot hzb'.zip)).down
        rw [htree] at ht
        obtain ⟨-, hnear, hfar⟩ := ht.of_redOn
        have hend := hrot.trans (.insEnd hrot.zip onSide_ne_leaf)
        rw [ptr_onSide] at hend
        have hlow : IsRedBlack (onSide d₂ .red s b near) .red n := .redOn d₂ b hs hnear
        obtain ⟨h', t', p'', n', hloop, hturned, ht', hp''⟩ := insBal_spec fuel hend.zip
          (hend.within.color.trans hroot) (hend.color_nil.trans hnil) hlow
          (.black d₂ x (.redOn d₂ g hfar hublack) hp') (by rw [List.length_cons]; omega)
        rw [ptr_onSide] at hloop
        exact ⟨h', t', p'', n', hloop, hend.trans hturned, ht', hp''⟩

end Insertion

/-! ## After a removal -/

section Removal

variable {c cw : Color} {a w : ν} {near far : ColorTree ν}

omit [DecidableEq ν] in
/-- The whole tree. -/
theorem Turned.toRoot {t' : ColorTree ν} {p' : TreePath ν} (hturn : Turned nil root h t p h' t' p') :
    Turned nil root h t p h' (plug p' t') [] :=
  ⟨isZip_plug.mp hturn.zip, hturn.items, hturn.within⟩

theorem setColor_self {x : ν} {cl : Color} (hcolor : h.color x = cl) : h.setColor x cl = h := by
  subst hcolor
  unfold Heap.setColor
  rw [Function.update_eq_self]

/-- A root that becomes black; the leaves are. -/
theorem Turned.blacken (hz : IsZip h nil root t p) (hnil : h.color nil = .black) :
    Turned nil root h t p (h.setColor (t.ptr nil) .black) (t.setColor .black) p := by
  cases t with
  | leaf =>
    have hself : h.setColor (ptr nil leaf) .black = h := setColor_self hnil
    rw [hself]
    exact .refl hz
  | node c l x r => exact .recolor hz nofun .black

/-- **The uncle is not red** after the first part of a turn. -/
theorem Turned.delUncle (hz : IsZip h nil root t (⟨d, c, a, onSide d .red near w far⟩ :: p))
    (hup : h.up (t.ptr nil) = a) :
    Turned nil root h t (⟨d, c, a, onSide d .red near w far⟩ :: p) (delUncle d nil h (t.ptr nil)) t
      (⟨d, .red, a, near⟩ :: ⟨d, .black, w, far⟩ :: p) := by
  have hchild : h.child a d.other = w := by
    have hother := hz.path.2.2.2.1
    rw [ptr_onSide] at hother
    exact hother
  have hzw := (Turned.refl hz).sibling
  have hred : h.color w = .red := (isTree_onSide.mp hzw.zip.tree).1
  have huncle := (hzw.setColor onSide_ne_leaf (ptr_onSide ..) .black).sibling
  rw [setColor_onSide, Side.other_other] at huncle
  have hparent := huncle.up.setColor onSide_ne_leaf (ptr_onSide ..) .red
  rw [setColor_onSide] at hparent
  have hrot := hparent.trans (.rot hparent.zip)
  unfold Qmaps.delUncle
  simp only [hup, hchild, hred, if_true, Heap.setColor_up]
  exact hrot.down.down

/-- **The last part of a turn** that ends the loop. -/
theorem Turned.delEnd (hz : IsZip h nil root t (⟨d, c, a, onSide d cw near w far⟩ :: p))
    (hup : h.up (t.ptr nil) = a) (hnil : h.color nil = .black) (hblack : t.color = .black) (hfar : far ≠ leaf) :
    Turned nil root h t (⟨d, c, a, onSide d cw near w far⟩ :: p) (delEnd d nil h (t.ptr nil))
      (onSide d c (onSide d .black t a near) w (far.setColor .black)) p := by
  have hchild : h.child a d.other = w := by
    have hother := hz.path.2.2.2.1
    rw [ptr_onSide] at hother
    exact hother
  have hcolor : h.color a = c := hz.path.1
  have hfarptr : h.child w d.other = far.ptr nil :=
    (isTree_onSide.mp (Turned.refl hz).sibling.zip.tree).2.2.2.1
  -- the colour of the uncle, of the parent, and of the subtree on the far side
  have huncle := (Turned.refl hz).sibling.setColor onSide_ne_leaf (ptr_onSide ..) c
  rw [setColor_onSide] at huncle
  have hparent := huncle.sibling.up.setColor onSide_ne_leaf (ptr_onSide ..) .black
  rw [setColor_onSide, Side.other_other] at hparent
  have hmirror : onSide d c near w far = onSide d.other c far w near := by rw [onSide_other]
  have hdown := hparent.down.sibling
  rw [hmirror] at hdown
  have hfarBlack := (hdown.down.setColor hfar rfl .black).up.up
  dsimp only at hfarBlack
  rw [onSide_other, onSide_other] at hfarBlack
  have hrot := hfarBlack.trans (.rot hfarBlack.zip)
  have hitem := hrot.down.down.zip.color_ptr (hrot.color_nil.trans hnil)
  rw [hblack] at hitem
  unfold Qmaps.delEnd
  simp only [hup, hchild, hcolor, hfarptr, Heap.setColor_up, Heap.setColor_child]
  rw [setColor_self hitem]
  exact hrot

omit [DecidableEq ν] in
/-- The parent of a place, also of a leaf. -/
theorem Turned.up_ptr {f : Frame ν} {p' : TreePath ν} (hturn : Turned nil root h t p h' t (f :: p'))
    (hup : h.up (t.ptr nil) = f.item) : h'.up (t.ptr nil) = f.item := by
  by_cases hne : t = leaf
  · subst hne
    obtain ⟨hroot, hnil, -⟩ := not_mem_plug hturn.zip
    rw [hturn.items] at hnil
    exact (hturn.within.nodes nil hroot hnil).up.trans hup
  · exact hturn.zip.up_ptr hne

/-- **After the first part of a turn** the sibling is black. -/
theorem Turned.exists_delUncle {n : Nat} {c' : Color} {s : ColorTree ν} (hz : IsZip h nil root t (⟨d, c, a, s⟩ :: p))
    (hup : h.up (t.ptr nil) = a) (hp : IsRedBlackPath (⟨d, c, a, s⟩ :: p) c' (n + 1)) :
    ∃ c₁ near w far q c'', Turned nil root h t (⟨d, c, a, s⟩ :: p) (Qmaps.delUncle d nil h (t.ptr nil)) t
        (⟨d, c₁, a, onSide d .black near w far⟩ :: q) ∧
      IsRedBlackPath (⟨d, c₁, a, onSide d .black near w far⟩ :: q) c'' (n + 1) ∧ (q = p ∨ c₁ = .red) := by
  have hsne := Short.sibling_ne_leaf hp
  obtain ⟨near, w, far, hs⟩ := exists_onSide d hsne
  cases hcolor : s.color with
  | red =>
    rw [hcolor] at hs
    subst hs
    obtain ⟨rfl, hnear, hp'⟩ := Short.red_sibling hp
    have hnne := Short.sibling_ne_leaf hp'
    obtain ⟨near₁, w₁, far₁, hn⟩ := exists_onSide d hnne
    rw [hnear] at hn
    subst hn
    exact ⟨_, _, _, _, _, _, .delUncle hz hup, hp', Or.inr rfl⟩
  | black =>
    have hptr : h.color (s.ptr nil) = .black := by
      have htree := (Turned.refl hz).sibling.zip.tree
      cases s with
      | leaf => exact absurd rfl hsne
      | node cs l x r => exact htree.1.trans hcolor
    have hkeep : Qmaps.delUncle d nil h (t.ptr nil) = h := by
      have huncle : h.child a d.other = s.ptr nil := hz.path.2.2.2.1
      have hnot : h.color (s.ptr nil) ≠ .red := by rw [hptr]; nofun
      unfold Qmaps.delUncle
      dsimp only
      rw [hup, huncle, if_neg hnot]
    rw [hcolor] at hs
    subst hs
    rw [hkeep]
    exact ⟨_, _, _, _, _, _, .refl hz, hp, Or.inl rfl⟩

/-- The end of the loop at a red subtree, or at the top. -/
theorem delBal_end (fuel : Nat) {n : Nat} {c : Color} (hz : IsZip h nil root t p) (hup : h.up (t.ptr nil) = top root p)
    (hnil : h.color nil = .black) (hp : IsRedBlackPath p c (n + 1)) (ht : Short t n)
    (hend : t.color = .red ∨ p = []) :
    ∃ h' t' m, delBal nil root (fuel + 1) h (t.ptr nil) = some h' ∧ Turned nil root h t p h' t' [] ∧
      IsRedBlack t' .black m := by
  obtain ⟨m, hm⟩ := ht.plug hp hend
  have hstop : ¬(h.color (t.ptr nil) ≠ .red ∧ h.up (t.ptr nil) ≠ root) := by
    rw [hz.color_ptr hnil, hup]
    rintro ⟨hblack, hroot⟩
    rcases hend with hred | rfl
    · exact hblack hred
    · exact hroot rfl
  exact ⟨_, _, m, by rw [delBal, if_neg hstop], (Turned.blacken hz hnil).toRoot, hm⟩

/-- **The loop after a removal**: the tree is balanced again. -/
theorem delBal_spec : ∀ (fuel : Nat) {h : Heap ν} {t : ColorTree ν} {p : TreePath ν} {n : Nat} {c : Color},
    IsZip h nil root t p → h.up (t.ptr nil) = top root p → h.color nil = .black → IsRedBlackPath p c (n + 1) →
      Short t n → p.length + 1 < fuel → ∃ h' t' m, delBal nil root fuel h (t.ptr nil) = some h' ∧
        Turned nil root h t p h' t' [] ∧ IsRedBlack t' .black m
  | 0, _, _, _, _, _, _, _, _, _, _, hfuel => absurd hfuel (Nat.not_lt_zero _)
  | fuel + 1, h, t, [], n, c, hz, hup, hnil, hp, ht, _ => delBal_end fuel hz hup hnil hp ht (Or.inr rfl)
  | fuel + 1, h, t, ⟨d, ca, a, s⟩ :: p, n, c, hz, hup, hnil, hp, ht, hfuel => by
    by_cases hred : t.color = .red
    · exact delBal_end fuel hz hup hnil hp ht (Or.inl hred)
    have hblack : t.color = .black := by
      cases hc : t.color with
      | red => exact absurd hc hred
      | black => rfl
    have htb := ht.balanced_of_black hblack
    have haroot : a ≠ root := by
      obtain ⟨-, -, hroot⟩ := not_mem_plug hz
      rintro rfl
      refine hroot ((perm_items_plug _ t).mem_iff.mpr (List.mem_append_right _ (List.mem_cons_self ..)))
    have hsne := Short.sibling_ne_leaf hp
    have hup' : h.up (t.ptr nil) = a := hup
    have hgo : h.color (t.ptr nil) ≠ .red ∧ h.up (t.ptr nil) ≠ root := by
      rw [hz.color_ptr hnil, hup']
      exact ⟨hred, haroot⟩
    have hside : sideOf h (t.ptr nil) = d := by
      refine sideOf_eq hz hup (Or.inr ?_)
      rintro f ⟨⟩
      exact hsne
    rw [List.length_cons] at hfuel
    rw [delBal, if_pos hgo, hside]
    dsimp only
    obtain ⟨c₁, near, w, far, q, c', hturn, hq, hlen⟩ := Turned.exists_delUncle hz hup' hp
    have hup₁ := hturn.up_ptr hup'
    have hnil₁ := hturn.color_nil.trans hnil
    have hw := (Turned.refl hturn.zip).sibling
    have hmirror : onSide d .black near w far = onSide d.other .black far w near := by rw [onSide_other]
    have hfarZip := hw
    rw [hmirror] at hfarZip
    have hnearColor := hw.down.zip.color_ptr hnil₁
    have hfarColor := hfarZip.down.zip.color_ptr hnil₁
    obtain ⟨-, -, hnearPtr, hfarPtr, -, -⟩ := isTree_onSide.mp hw.zip.tree
    have huncle : (delUncle d nil h (t.ptr nil)).child a d.other = w := by
      have hother := hturn.zip.path.2.2.2.1
      rw [ptr_onSide] at hother
      exact hother
    rw [hup₁, huncle, hfarPtr, hfarColor, hnearPtr, hnearColor]
    by_cases hfar : far.color = .red
    · rw [if_neg (not_not.mpr hfar)]
      obtain ⟨m, hm⟩ := Short.red_far htb hq hfar
      have hend := hturn.trans (.delEnd hturn.zip hup₁ hnil₁ hblack (ne_leaf_of_red hfar))
      exact ⟨_, _, m, rfl, hend.toRoot, hm⟩
    rw [if_pos hfar]
    have hfarBlack : far.color = .black := by
      cases hc : far.color with
      | red => exact absurd hc hfar
      | black => rfl
    by_cases hnear : near.color = .red
    · rw [if_neg (not_not.mpr hnear)]
      -- the red subtree on the near side is brought to the far side
      obtain ⟨near₁, v, near₂, hn⟩ := exists_onSide d (ne_leaf_of_red hnear)
      rw [hnear] at hn
      subst hn
      have hq' := Short.red_near hq hfarBlack
      have hv := (hturn.sibling.down.setColor onSide_ne_leaf (ptr_onSide ..) .black).up.setColor onSide_ne_leaf
        (ptr_onSide ..) .red
      rw [setColor_onSide, setColor_onSide] at hv
      dsimp only at hv
      have hflip : onSide d .red (onSide d .black near₁ v near₂) w far =
          onSide d.other .red far w (onSide d.other .black near₂ v near₁) := by
        rw [onSide_other, onSide_other]
      rw [hflip] at hv
      have hrot := (hv.trans (.rot hv.zip)).sibling
      rw [onSide_other, onSide_other, Side.other_other] at hrot
      obtain ⟨m, hm⟩ := Short.red_far htb hq' color_onSide
      have hend := hrot.trans (.delEnd hrot.zip (hrot.up_ptr hup') (hrot.color_nil.trans hnil) hblack onSide_ne_leaf)
      refine ⟨_, _, m, ?_, hend.toRoot, hm⟩
      rw [ptr_onSide]
    · rw [if_pos hnear]
      have hnearBlack : near.color = .black := by
        cases hc : near.color with
        | red => exact absurd hc hnear
        | black => rfl
      obtain ⟨c'', k, hq', hshort⟩ := Short.up htb hq hnearBlack hfarBlack
      have hnext := ((hturn.sibling.setColor onSide_ne_leaf (ptr_onSide ..) .red).sibling).up
      rw [setColor_onSide, Side.other_other] at hnext
      dsimp only at hnext
      have hupa := hnext.zip.up_ptr onSide_ne_leaf
      have hnilNext := hnext.color_nil.trans hnil
      suffices hloop : ∃ h' t' m, delBal nil root fuel ((delUncle d nil h (t.ptr nil)).setColor w .red) a = some h' ∧
          Turned nil root ((delUncle d nil h (t.ptr nil)).setColor w .red)
            (onSide d c₁ t a (onSide d .red near w far)) q h' t' [] ∧ IsRedBlack t' .black m by
        obtain ⟨h', t', m, hrun, hturned, hm⟩ := hloop
        refine ⟨h', t', m, ?_, hnext.trans hturned, hm⟩
        rw [Heap.setColor_up, hup₁]
        exact hrun
      by_cases hstop : c₁ = .red
      · obtain ⟨fuel, rfl⟩ := Nat.exists_eq_succ_of_ne_zero (by omega : fuel ≠ 0)
        have hend := delBal_end fuel hnext.zip hupa hnilNext hq' hshort (Or.inl (color_onSide.trans hstop))
        rw [ptr_onSide] at hend
        exact hend
      · obtain rfl := hlen.resolve_right hstop
        have hend := delBal_spec fuel hnext.zip hupa hnilNext hq' hshort (by omega)
        rw [ptr_onSide] at hend
        exact hend

end Removal

end MlnxLib.Qmaps
