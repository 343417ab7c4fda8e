import MlnxLib.Lib.Ring

/-!
# Families of disjoint rings

Many intrusive lists usually share one heap: a fixed array of list heads, or heads that are
allocated when the first item arrives and released with the last one.  A *family* gives, for
every location `l`, its sentinel when the list exists (`ends l`) and its items (`L l`).  An item
is in at most one list, and the links of an item in no list are null, so that the links of an
item alone tell whether it is linked.

Principal results: `Family.append`, `Family.remove`, `Family.openEnd`, `Family.closeEnd` — the
pointer operations act on the lists; `Family.alone_iff` — what the two pointers of an item say
about the list it is in.
-/

set_option autoImplicit false

namespace Ring

variable {α ι : Type}

/-- Pairwise disjoint rings over one heap, indexed by locations. -/
structure Family (item : α → Prop) (h : Heap α) (ends : ι → Option α) (L : ι → List α) : Prop where
  ring : ∀ {l e}, ends l = some e → IsRing h e (L l)
  closed : ∀ {l}, ends l = none → L l = []
  end_inj : ∀ {l l' e}, ends l = some e → ends l' = some e → l = l'
  end_not_item : ∀ {l e}, ends l = some e → ¬ item e
  items : ∀ {l x}, x ∈ L l → item x
  disj : ∀ {l l' x}, x ∈ L l → x ∈ L l' → l = l'
  free : ∀ {x}, item x → (∀ l, x ∉ L l) → h x = Link.null

namespace Family

variable {item : α → Prop} {h : Heap α} {ends : ι → Option α} {L : ι → List α}

/-! ## Reading the links of an item -/

theorem exists_end (hf : Family item h ends L) {l : ι} {x : α} (hx : x ∈ L l) :
    ∃ e, ends l = some e := by
  cases he : ends l with
  | some e => exact ⟨e, rfl⟩
  | none => rw [hf.closed he] at hx; cases hx

theorem links_of_mem (hf : Family item h ends L) {l : ι} {x : α} (hx : x ∈ L l) :
    ∃ n p, (h x).next = some n ∧ (h x).prev = some p := by
  obtain ⟨e, he⟩ := hf.exists_end hx
  exact (hf.ring he).links_some hx

/-- **An item is alone in its list exactly when its two pointers agree.** -/
theorem alone_iff (hf : Family item h ends L) {l : ι} {x : α} (hx : x ∈ L l) :
    (h x).next = (h x).prev ↔ L l = [x] := by
  obtain ⟨e, he⟩ := hf.exists_end hx
  exact (hf.ring he).next_eq_prev_iff hx

theorem nodup (hf : Family item h ends L) (l : ι) : (L l).Nodup := by
  cases he : ends l with
  | some e => exact (hf.ring he).nodup
  | none => rw [hf.closed he]; exact List.nodup_nil

theorem item_ne_end (hf : Family item h ends L) {l : ι} {x e : α} (hx : item x)
    (he : ends l = some e) : x ≠ e := by
  rintro rfl
  exact hf.end_not_item he hx

/-- A node of one ring is not a node of another. -/
theorem not_mem_other (hf : Family item h ends L) {l l' : ι} {e e' n : α} (hl : l ≠ l')
    (he : ends l = some e) (he' : ends l' = some e') (hn : n ∈ e' :: L l') : n ∉ e :: L l := by
  intro hmem
  rcases List.mem_cons.mp hn with rfl | hn <;> rcases List.mem_cons.mp hmem with rfl | hmem
  · exact hl (hf.end_inj he he')
  · exact hf.end_not_item he' (hf.items hmem)
  · exact hf.end_not_item he (hf.items hn)
  · exact hl (hf.disj hmem hn)

/-! ## Operations -/

section Operations

variable [DecidableEq α]

theorem clear_of_null {x : α} (hx : h x = Link.null) : clear h x = h := by
  unfold clear
  rw [← hx]
  exact Function.update_eq_self x h

/-- Links that are null may be cleared again. -/
theorem clear_free (hf : Family item h ends L) {x : α} (hx : item x) (hfree : ∀ l, x ∉ L l) :
    clear h x = h := clear_of_null (hf.free hx hfree)

variable [DecidableEq ι]

/-- **Inserting a free item in front of the sentinel appends it to the list.** -/
theorem append (hf : Family item h ends L) {l : ι} {e x : α} (he : ends l = some e)
    (hx : item x) (hfree : ∀ l', x ∉ L l') :
    Family item (insertBefore h e x) ends (Function.update L l (L l ++ [x])) := by
  have hr := hf.ring he
  have hxe : x ≠ e := hf.item_ne_end hx he
  have hxl : x ∉ e :: L l := by simp [hxe, hfree l]
  have hmem : ∀ {l' y}, y ∈ Function.update L l (L l ++ [x]) l' → y ∈ L l' ∨ (l' = l ∧ y = x) := by
    intro l' y hy
    by_cases hl : l' = l
    · subst hl
      rw [Function.update_self] at hy
      rcases List.mem_append.mp hy with hy | hy
      · exact Or.inl hy
      · exact Or.inr ⟨rfl, List.mem_singleton.mp hy⟩
    · rw [Function.update_of_ne hl] at hy
      exact Or.inl hy
  refine ⟨?_, ?_, hf.end_inj, hf.end_not_item, ?_, ?_, ?_⟩
  · intro l' e' he'
    by_cases hl : l' = l
    · subst hl
      rw [he] at he'
      cases he'
      rw [Function.update_self]
      exact hr.insertBefore hxl
    · rw [Function.update_of_ne hl]
      refine (hf.ring he').frame (fun n hn => hr.insertBefore_frame hxl ?_ ?_)
      · exact hf.not_mem_other (Ne.symm hl) he he' hn
      · rintro rfl
        rcases List.mem_cons.mp hn with rfl | hn
        · exact hf.end_not_item he' hx
        · exact hfree l' hn
  · intro l' hl'
    have hl : l' ≠ l := by rintro rfl; rw [he] at hl'; cases hl'
    rw [Function.update_of_ne hl]
    exact hf.closed hl'
  · intro l' y hy
    rcases hmem hy with hy | ⟨-, rfl⟩
    · exact hf.items hy
    · exact hx
  · intro l' l'' y hy hy'
    rcases hmem hy with g | ⟨hl, hyx⟩ <;> rcases hmem hy' with g' | ⟨hl', hyx'⟩
    · exact hf.disj g g'
    · exact absurd (hyx' ▸ g) (hfree _)
    · exact absurd (hyx ▸ g') (hfree _)
    · rw [hl, hl']
  · intro y hy hyl
    have hyx : y ≠ x := by
      rintro rfl
      exact hyl l (by rw [Function.update_self]; simp)
    have hyl' : ∀ l', y ∉ L l' := by
      intro l' hm
      by_cases hl : l' = l
      · subst hl
        exact hyl l' (by rw [Function.update_self]; simp [hm])
      · exact hyl l' (by rwa [Function.update_of_ne hl])
    rw [hr.insertBefore_frame hxl (by simp [hf.item_ne_end hy he, hyl' l]) hyx]
    exact hf.free hy hyl'

/-- **Unlinking an item and clearing its links removes it from its list.** -/
theorem remove (hf : Family item h ends L) {l : ι} {x : α} (hx : x ∈ L l) :
    Family item (clear (unlink h x) x) ends (Function.update L l ((L l).erase x)) := by
  obtain ⟨e, he⟩ := hf.exists_end hx
  have hnd := hf.nodup l
  have hxi := hf.items hx
  obtain ⟨as, bs, hab⟩ := List.append_of_mem hx
  have hr : IsRing h e (as ++ x :: bs) := by rw [← hab]; exact hf.ring he
  have hxas : x ∉ as := fun hm => by
    rw [hab] at hnd
    exact List.disjoint_of_nodup_append hnd hm (by simp)
  have herase : (L l).erase x = as ++ bs := by
    rw [hab, List.erase_append_right _ hxas, List.erase_cons_head]
  have hnot : x ∉ as ++ bs := by
    rw [← herase]
    exact hnd.not_mem_erase
  have hsub : ∀ {l' y}, y ∈ Function.update L l ((L l).erase x) l' → y ∈ L l' ∧ y ≠ x := by
    intro l' y hy
    by_cases hl : l' = l
    · subst hl
      rw [Function.update_self] at hy
      exact ⟨List.mem_of_mem_erase hy, fun hyx => hnd.not_mem_erase (hyx ▸ hy)⟩
    · rw [Function.update_of_ne hl] at hy
      exact ⟨hy, fun hyx => hl (hf.disj (hyx ▸ hy) hx)⟩
  have hother : ∀ n, n ∉ e :: L l → clear (unlink h x) x n = h n := by
    intro n hn
    rw [hab] at hn
    have hnx : n ≠ x := fun hnx => hn (by simp [hnx])
    rw [clear_of_ne _ hnx, hr.unlink_frame hn]
  refine ⟨?_, ?_, hf.end_inj, hf.end_not_item, fun hy => hf.items (hsub hy).1,
    fun hy hy' => hf.disj (hsub hy).1 (hsub hy').1, ?_⟩
  · intro l' e' he'
    by_cases hl : l' = l
    · subst hl
      rw [he] at he'
      cases he'
      rw [Function.update_self, herase]
      refine hr.unlink.frame (fun n hn => clear_of_ne _ ?_)
      rintro rfl
      rcases List.mem_cons.mp hn with rfl | hn
      · exact hf.end_not_item he hxi
      · exact hnot hn
    · rw [Function.update_of_ne hl]
      exact (hf.ring he').frame (fun n hn =>
        hother n (hf.not_mem_other (Ne.symm hl) he he' hn))
  · intro l' hl'
    have hl : l' ≠ l := by rintro rfl; rw [he] at hl'; cases hl'
    rw [Function.update_of_ne hl]
    exact hf.closed hl'
  · intro y hy hyl
    by_cases hyx : y = x
    · rw [hyx]; exact clear_self _ _
    · have hyl' : ∀ l', y ∉ L l' := by
        intro l' hm
        by_cases hl : l' = l
        · subst hl
          exact hyl l' (by rw [Function.update_self]; exact (List.mem_erase_of_ne hyx).mpr hm)
        · exact hyl l' (by rwa [Function.update_of_ne hl])
      rw [hother y (by simp [hf.item_ne_end hy he, hyl' l])]
      exact hf.free hy hyl'

/-- **A new sentinel, pointing to itself, opens an empty list.** -/
theorem openEnd (hf : Family item h ends L) {l : ι} {e : α} (hl : ends l = none) (hi : ¬ item e)
    (hfresh : ∀ l', ends l' ≠ some e) :
    Family item (reset h e) (Function.update ends l (some e)) L := by
  have hinv : ∀ {l' e'}, Function.update ends l (some e) l' = some e' →
      (l' = l ∧ e' = e) ∨ (l' ≠ l ∧ ends l' = some e') := by
    intro l' e' he'
    by_cases hll : l' = l
    · subst hll
      rw [Function.update_self] at he'
      cases he'
      exact Or.inl ⟨rfl, rfl⟩
    · rw [Function.update_of_ne hll] at he'
      exact Or.inr ⟨hll, he'⟩
  refine ⟨?_, ?_, ?_, ?_, hf.items, hf.disj, ?_⟩
  · intro l' e' he'
    rcases hinv he' with ⟨rfl, rfl⟩ | ⟨-, g⟩
    · rw [hf.closed hl]; exact isRing_reset h e'
    · refine (hf.ring g).frame (fun n hn => reset_of_ne _ ?_)
      rintro rfl
      rcases List.mem_cons.mp hn with rfl | hn
      · exact hfresh l' g
      · exact hi (hf.items hn)
  · intro l' hl'
    by_cases hll : l' = l
    · subst hll; exact hf.closed hl
    · rw [Function.update_of_ne hll] at hl'
      exact hf.closed hl'
  · intro l' l'' e' he' he''
    rcases hinv he' with ⟨rfl, rfl⟩ | ⟨-, g⟩ <;> rcases hinv he'' with ⟨rfl, hee⟩ | ⟨-, g'⟩
    · rfl
    · exact absurd g' (hfresh l'')
    · exact absurd (hee ▸ g) (hfresh l')
    · exact hf.end_inj g g'
  · intro l' e' he'
    rcases hinv he' with ⟨-, rfl⟩ | ⟨-, g⟩
    · exact hi
    · exact hf.end_not_item g
  · intro x hx hxl
    have hxe : x ≠ e := by rintro rfl; exact hi hx
    rw [reset_of_ne _ hxe]
    exact hf.free hx hxl

end Operations

/-- **The sentinel of an empty list may go away.** -/
theorem closeEnd [DecidableEq ι] (hf : Family item h ends L) {l : ι} (hl : L l = []) :
    Family item h (Function.update ends l none) L := by
  have hinv : ∀ {l' e'}, Function.update ends l none l' = some e' → ends l' = some e' := by
    intro l' e' he'
    by_cases hll : l' = l
    · subst hll; rw [Function.update_self] at he'; cases he'
    · rwa [Function.update_of_ne hll] at he'
  refine ⟨fun he => hf.ring (hinv he), ?_, fun he he' => hf.end_inj (hinv he) (hinv he'),
    fun he => hf.end_not_item (hinv he), hf.items, hf.disj, hf.free⟩
  intro l' hl'
  by_cases hll : l' = l
  · subst hll; exact hl
  · rw [Function.update_of_ne hll] at hl'
    exact hf.closed hl'

end Family

end Ring
