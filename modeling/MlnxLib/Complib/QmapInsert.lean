import MlnxLib.Complib.QmapSearch

/-!
# Insertion into quick maps

* `insertLoop_spec` — the search for the place of a key.
* `insert_at` — the new item in that place.

Principal result: `clQmapInsert_spec` — an item with a key that is there is not inserted, and with another one it
is, at its place in the order; the map is well formed again, and everything outside of it is as it was.
-/

set_option autoImplicit false

namespace MlnxLib.Qmaps

open RedBlack RedBlack.ColorTree

variable {ν κ : Type} [DecidableEq ν] [LinearOrder κ] {s s' : Memory ν κ} {map : ClQmap ν} {items : List ν} {key : κ}

/-- **The search for a place**: an item with the key, or a leaf in the place of the key. -/
theorem insertLoop_spec : ∀ {t : ColorTree ν} {p : TreePath ν} {fuel : Nat}, IsZip s.tree map.nil map.root t p →
    (plug p t).items.Pairwise (fun x y => s.key x < s.key y) → Between s key p → t.height < fuel →
      (∃ x ∈ t.items, s.key x = key ∧ insertLoop s map key fuel (top map.root p) (t.ptr map.nil) = some (true, x)) ∨
        ∃ q, plug q leaf = plug p t ∧ Between s key q ∧
          insertLoop s map key fuel (top map.root p) (t.ptr map.nil) = some (false, top map.root q)
  | _, _, 0, _, _, _, hfuel => absurd hfuel (Nat.not_lt_zero _)
  | leaf, p, fuel + 1, hz, _, hb, _ => Or.inr ⟨p, rfl, hb, by rw [ptr, insertLoop, if_pos rfl]⟩
  | node c l x r, p, fuel + 1, hz, hsorted, hb, hfuel => by
    obtain ⟨-, -, hleft, hright, -, -⟩ := hz.tree
    have hnil : x ≠ map.nil := ptr_ne_nil hz node_ne_leaf
    rw [height] at hfuel
    have hl : l.height < fuel := by omega
    have hr : r.height < fuel := by omega
    rw [ptr, insertLoop, if_neg hnil]
    by_cases heq : key = s.key x
    · rw [if_pos heq]
      exact Or.inl ⟨x, by simp [ColorTree.items], heq.symm, rfl⟩
    rw [if_neg heq]
    by_cases hlt : key < s.key x
    · rw [if_pos hlt, hleft]
      have hz' : IsZip s.tree map.nil map.root l (⟨.left, c, x, r⟩ :: p) := isZip_cons.mpr hz
      rcases insertLoop_spec hz' hsorted ⟨hb.before, after_left hsorted hlt hb.after⟩ hl with
        ⟨y, hy, hkey, hloop⟩ | ⟨q, hq, hbq, hloop⟩
      · exact Or.inl ⟨y, List.mem_append_left _ hy, hkey, hloop⟩
      · exact Or.inr ⟨q, hq, hbq, hloop⟩
    · rw [if_neg hlt, hright]
      have hgt : s.key x < key := lt_of_le_of_ne (not_lt.mp hlt) fun he => heq he.symm
      have hz' : IsZip s.tree map.nil map.root r (⟨.right, c, x, l⟩ :: p) := isZip_cons.mpr hz
      rcases insertLoop_spec hz' hsorted
        ⟨before_right hsorted hgt (fun k hk => lt_trans hk hgt) hb.before, hb.after⟩ hr with
        ⟨y, hy, hkey, hloop⟩ | ⟨q, hq, hbq, hloop⟩
      · exact Or.inl ⟨y, List.mem_append_right _ (List.mem_cons_of_mem _ hy), hkey, hloop⟩
      · exact Or.inr ⟨q, hq, hbq, hloop⟩

/-! ## The call -/

section Call

variable {item : ν} {q : TreePath ν}

omit [LinearOrder κ] in
/-- The fields that are set first are those of the item. -/
theorem sameItem_newItem {x : ν} (hx : x ≠ item) : SameItem s (newItem s map key item) x := by
  refine ⟨⟨fun d => ?_, rfl, ?_⟩, rfl, ?_, rfl⟩
  · simp [newItem, hx]
  · simp [newItem, hx]
  · simp [newItem, hx]

omit [DecidableEq ν] [LinearOrder κ] in
theorem length_le_pathItems : ∀ p : TreePath ν, p.length ≤ (pathItems p).length
  | [] => Nat.zero_le _
  | f :: p => by
    have ih := length_le_pathItems p
    simp only [pathItems, List.length_cons, List.length_append]
    omega

/-- **Where the item goes**, in the tree and in the list. -/
theorem insertPlace_spec (hz : IsZip s.tree map.nil map.root leaf q) (hb : Between s key q)
    (hlist : Ring.IsRing s.links map.nil (before q ++ after q)) :
    insertPlace s map key (top map.root q) = some (slot q, (after q).headD map.nil) := by
  cases q with
  | nil => rw [insertPlace, top, if_pos rfl, slot, after, List.headD_nil]
  | cons f q =>
    obtain ⟨d, c, x, r⟩ := f
    have hroot : x ≠ map.root := by
      rintro rfl
      have hnd := (List.nodup_cons.mp hz.nodup).2
      exact (List.nodup_cons.mp hnd).1 (List.mem_append_right _ (List.mem_cons_self ..))
    rw [insertPlace, top, if_neg hroot, slot]
    cases d with
    | left =>
      have hlt : key < s.key x := hb.after x (by simp [after])
      rw [if_pos hlt, after, List.cons_append, List.headD_cons]
    | right =>
      have hlt : s.key x < key := hb.before x (by simp [before])
      have hsplit : before (⟨.right, c, x, r⟩ :: q) ++ after (⟨.right, c, x, r⟩ :: q) =
          (before q ++ r.items) ++ x :: after q := by simp [before, after]
      rw [hsplit] at hlist
      rw [if_neg (lt_asymm hlt), clQmapNext, hlist.links_of_split.1]
      rfl

/-- A key that is not there: the new item is in its place. -/
theorem insert_at (h : IsQmap s map items) (hitem : item ∉ map.nodes items) (hkey : s.key item = key)
    (hleft : s.tree.child item .left = map.nil) (hright : s.tree.child item .right = map.nil)
    (hred : s.tree.color item = .red) (hz : IsZip s.tree map.nil map.root leaf q) (hb : Between s key q)
    (hitems : before q ++ after q = items) {c : Color} (hp : IsRedBlackPath q c 0) :
    ∃ h', insBal map.nil (s.count map.nil + 2)
        ((s.tree.setChild (top map.root q) (slot q) item).setUp item (top map.root q)) item = some h' ∧
      IsQmap { s with
        tree := h'.setColor (h'.child map.root .left) .black
        links := clPrimitiveInsert s.links ((after q).headD map.nil) item
        count := Function.update s.count map.nil (s.count map.nil + 1) } map (before q ++ item :: after q) ∧
      Outside s { s with
        tree := h'.setColor (h'.child map.root .left) .black
        links := clPrimitiveInsert s.links ((after q).headD map.nil) item
        count := Function.update s.count map.nil (s.count map.nil + 1) } (map.nodes (item :: items)) := by
  have hperm := perm_pathItems q []
  simp only [List.nil_append] at hperm
  rw [hitems] at hperm
  unfold ClQmap.nodes at hitem
  have hnew : item ∉ map.nil :: map.root :: pathItems q := by
    rw [List.mem_cons, List.mem_cons, ← hperm.mem_iff, ← List.mem_cons, ← List.mem_cons]
    exact hitem
  have hgraft := IsZip.graft hz hnew hleft hright hred
  have hfuel : q.length < s.count map.nil + 2 := by
    have hlen := length_le_pathItems q
    rw [h.count, hperm.length_eq]
    omega
  obtain ⟨h', t', p', n', hbal, hturn, ht', hp'⟩ :=
    insBal_spec (s.count map.nil + 2) hgraft h.rootColor h.nilColor (.red item .leaf .leaf) hp hfuel
  have hall : (plug q (node .red leaf item leaf)).items = before q ++ item :: after q := by
    rw [items_plug]
    rfl
  have hne : plug p' t' ≠ leaf := by
    intro hleaf
    have hempty := hturn.items
    rw [hleaf, hall] at hempty
    exact absurd hempty.symm (by simp [ColorTree.items])
  have hblack := hturn.toRoot.setColor hne rfl .black
  have hptr : h'.child map.root .left = (plug p' t').ptr map.nil := hturn.toRoot.zip.path
  rw [← hptr] at hblack
  obtain ⟨m, hm⟩ := hp'.plug_blacken ht'
  obtain ⟨hnilRoot, hnilItem, hrootItem⟩ : item ≠ map.nil ∧ item ≠ map.root ∧ item ∉ items := by
    simpa only [List.mem_cons, not_or] using hitem
  have hlist := h.list
  rw [← hitems] at hlist
  have hring : item ∉ map.nil :: (before q ++ after q) := by
    rw [hitems, List.mem_cons, not_or]
    exact ⟨hnilRoot, hrootItem⟩
  refine ⟨h', hbal, ⟨⟨_, m, hblack.zip, hblack.items.trans hall, hm⟩, ?_, ?_, ?_, ?_,
    hlist.insertBefore_split hring, ?_⟩, fun x hx => ?_⟩
  · have hup := hblack.within.up
    rw [Heap.setUp_up, if_neg hnilItem.symm, Heap.setChild_up] at hup
    exact hup.trans h.rootUp
  · exact hblack.within.color.trans h.rootColor
  · exact hblack.color_nil.trans h.nilColor
  · have hsorted := h.sorted
    rw [← hitems, List.pairwise_append] at hsorted
    obtain ⟨hbefore, hafter, hcross⟩ := hsorted
    refine List.pairwise_append.mpr ⟨hbefore, List.pairwise_cons.mpr ⟨fun y hy => ?_, hafter⟩, fun x hx y hy => ?_⟩
    · exact hkey ▸ hb.after y hy
    · rcases List.mem_cons.mp hy with rfl | hy
      · exact hkey ▸ hb.before x hx
      · exact hcross x hx y hy
  · have hlen := congrArg List.length hitems
    rw [List.length_append] at hlen
    simp only [Function.update_self, h.count, List.length_append, List.length_cons]
    omega
  · unfold ClQmap.nodes at hx
    obtain ⟨hxnil, hxroot, hxitem, hxitems⟩ : x ≠ map.nil ∧ x ≠ map.root ∧ x ≠ item ∧ x ∉ items := by
      simpa only [List.mem_cons, not_or] using hx
    have hxtop : x ≠ top map.root q := by
      rintro rfl
      rcases List.mem_cons.mp (IsZip.top_mem map.root q) with hm | hm
      · exact hxroot hm
      · exact hxitems (hperm.mem_iff.mpr hm)
    have hnode := hblack.within.nodes x hxroot (by rw [hall, ← hitems] at *; simpa [hxitem] using hxitems)
    refine ⟨⟨fun d => ?_, ?_, hnode.color⟩, ?_, rfl, ?_⟩
    · rw [hnode.child]
      simp [hxtop]
    · rw [hnode.up]
      simp [hxitem]
    · refine hlist.insertBefore_split_frame hring ?_ hxitem
      rw [hitems, List.mem_cons, not_or]
      exact ⟨hxnil, hxitems⟩
    · simp [hxnil]

/-- **Where an item is** after its insertion: in its place, unless another one has the key. -/
def Placed (s s' : Memory ν κ) (map : ClQmap ν) (items : List ν) (key : κ) (item r : ν) : Prop :=
  (r ∈ items ∧ s.key r = key ∧ IsQmap s' map items) ∨ (r = item ∧ ∃ as bs, items = as ++ bs ∧
    (∀ x ∈ as, s.key x < key) ∧ (∀ x ∈ bs, key < s.key x) ∧ IsQmap s' map (as ++ item :: bs))

/-- **What an insertion leaves.** -/
structure Inserted (s s' : Memory ν κ) (map : ClQmap ν) (items : List ν) (key : κ) (item r : ν) : Prop where
  key_eq : s'.key = Function.update s.key item key
  outside : Outside s s' (map.nodes (item :: items))
  placed : Placed s s' map items key item r

/-- **`cl_qmap_insert`** of an item that is not in the map. -/
theorem clQmapInsert_spec (h : IsQmap s map items) (key : κ) (hitem : item ∉ map.nodes items) :
    ∃ r s', clQmapInsert s map key item = some (r, s') ∧ Inserted s s' map items key item r := by
  have hne : ∀ x ∈ map.nodes items, x ≠ item := fun x hx he => hitem (he ▸ hx)
  have hold : ∀ x ∈ items, (newItem s map key item).key x = s.key x := fun x hx =>
    (sameItem_newItem (hne x (List.mem_cons_of_mem _ (List.mem_cons_of_mem _ hx)))).key
  have hnew : IsQmap (newItem s map key item) map items := h.frame fun x hx => sameItem_newItem (hne x hx)
  have hout : Outside s (newItem s map key item) (map.nodes (item :: items)) := by
    intro x hx
    refine sameItem_newItem ?_
    rintro rfl
    exact hx (List.mem_cons_of_mem _ (List.mem_cons_of_mem _ (List.mem_cons_self ..)))
  obtain ⟨t, n, hz, hitems, hb⟩ := hnew.tree
  have hroot : clMapRoot (newItem s map key item) map = t.ptr map.nil := hz.path
  have hheight : t.height < (newItem s map key item).count map.nil + 1 := by
    rw [hnew.count, ← hitems]
    exact Nat.lt_succ_of_le t.height_le_length
  have hsorted := hnew.sorted
  rw [← hitems] at hsorted
  unfold clQmapInsert
  dsimp only
  rw [hroot]
  have hempty : Between (newItem s map key item) key [] := ⟨nofun, nofun⟩
  rcases insertLoop_spec hz hsorted hempty hheight with ⟨x, hx, hkey, hloop⟩ | ⟨q, hq, hbetween, hloop⟩
  · rw [hitems] at hx
    rw [top] at hloop
    rw [hloop]
    exact ⟨x, _, rfl, ⟨rfl, hout, Or.inl ⟨hx, (hold x hx).symm.trans hkey, hnew⟩⟩⟩
  · rw [top] at hloop
    rw [plug] at hq
    have hleaf : IsZip (newItem s map key item).tree map.nil map.root leaf q := by
      rw [isZip_plug, hq]
      exact hz
    have hsides : before q ++ after q = items := by
      rw [← hitems, ← hq, items_plug, ColorTree.items, List.nil_append]
    rw [← hq] at hb
    obtain ⟨c, c', m, hp, hzero, -⟩ := hb.unplug
    cases hzero
    have hlist := hnew.list
    rw [← hsides] at hlist
    obtain ⟨h', hbal, hmap, hout'⟩ := insert_at hnew hitem (by simp [newItem]) (by simp [newItem]) (by simp [newItem])
      (by simp [newItem]) hleaf hbetween hsides hp
    rw [hloop, Option.bind_some, if_neg Bool.false_ne_true, insertPlace_spec hleaf hbetween hlist, Option.bind_some]
    dsimp only
    rw [hbal, Option.map_some]
    refine ⟨item, _, rfl, ⟨rfl, hout.trans hout', Or.inr ⟨rfl, before q, after q, hsides.symm, fun x hx => ?_,
      fun x hx => ?_, hmap⟩⟩⟩
    · rw [← hold x (hsides ▸ List.mem_append_left _ hx)]
      exact hbetween.before x hx
    · rw [← hold x (hsides ▸ List.mem_append_right _ hx)]
      exact hbetween.after x hx

end Call

end MlnxLib.Qmaps
