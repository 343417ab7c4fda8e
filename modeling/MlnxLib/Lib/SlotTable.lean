import Mathlib.Data.Finset.Card
import Mathlib.Data.Fintype.Card
import Mathlib.Data.Fin.Basic
import Mathlib.Logic.Function.Iterate

/-!
# Tables of slots

A table is a fixed array of keys, one of which marks a free slot.  Keys are put into the first free
slot and looked up by a search for the first slot that holds them.

* `firstWith t k` — the search; `put`, `drop`, `dropWhere` — the updates that search by themselves.
* `occupied`, `used` — the slots in use and the keys in them; `Distinct` — no key is in two slots.
* `Counted num t` — a table of distinct keys with a counter of them.
* `slotsWith t k` — the slots that hold a key, which may be the mark of the free ones.

Principal results: `Counted.fill`, `Counted.clear` — a new key put into a free slot, and a key taken
out, keep the counter exact; `used_put`, `used_drop`, `used_dropWhere` — what the updates do to the keys
in use.
-/

set_option autoImplicit false

namespace MlnxLib.SlotTable

variable {n : Nat} {κ : Type} [DecidableEq κ]

/-! ## Searching -/

/-- The first slot that holds `k`. -/
def firstWith (t : Fin n → κ) (k : κ) : Option (Fin n) := Fin.find? fun i => t i == k

theorem firstWith_eq_some_iff {t : Fin n → κ} {k : κ} {i : Fin n} :
    firstWith t k = some i ↔ t i = k ∧ ∀ j, j < i → t j ≠ k := by
  rw [firstWith, Fin.find?_eq_some_iff]
  simp

theorem firstWith_eq_none_iff {t : Fin n → κ} {k : κ} : firstWith t k = none ↔ ∀ i, t i ≠ k := by
  rw [firstWith, Fin.find?_eq_none_iff]
  simp

theorem apply_of_firstWith {t : Fin n → κ} {k : κ} {i : Fin n} (h : firstWith t k = some i) : t i = k :=
  (firstWith_eq_some_iff.mp h).1

/-! ## The keys in use -/

/-- The slots in use. -/
def occupied (free : κ) (t : Fin n → κ) : Finset (Fin n) := Finset.univ.filter fun i => t i ≠ free

/-- The keys in use. -/
def used (free : κ) (t : Fin n → κ) : Finset κ := (occupied free t).image t

/-- No key is in two slots. -/
def Distinct (free : κ) (t : Fin n → κ) : Prop := ∀ i j, t i ≠ free → t i = t j → i = j

theorem mem_occupied {free : κ} {t : Fin n → κ} {i : Fin n} : i ∈ occupied free t ↔ t i ≠ free := by
  simp [occupied]

section Fill

variable {free k : κ} {t : Fin n → κ} {i : Fin n}

theorem occupied_fill (hi : t i = free) (hk : ∀ j, t j ≠ k) :
    occupied free (Function.update t i k) = insert i (occupied free t) := by
  have hkf : k ≠ free := fun he => hk i (hi.trans he.symm)
  ext j
  rw [Finset.mem_insert, mem_occupied, mem_occupied]
  by_cases hj : j = i
  · subst hj
    simp [hkf]
  · simp [hj]

theorem card_occupied_fill (hi : t i = free) (hk : ∀ j, t j ≠ k) :
    (occupied free (Function.update t i k)).card = (occupied free t).card + 1 := by
  rw [occupied_fill hi hk, Finset.card_insert_of_notMem]
  rw [mem_occupied]
  exact fun hne => hne hi

omit [DecidableEq κ] in
theorem distinct_fill (hd : Distinct free t) (hk : ∀ j, t j ≠ k) :
    Distinct free (Function.update t i k) := by
  intro a b ha hab
  by_cases hai : a = i <;> by_cases hbi : b = i
  · rw [hai, hbi]
  · rw [hai, Function.update_self, Function.update_of_ne hbi] at hab
    exact absurd hab.symm (hk b)
  · rw [hbi, Function.update_self, Function.update_of_ne hai] at hab
    exact absurd hab (hk a)
  · rw [Function.update_of_ne hai] at ha hab
    rw [Function.update_of_ne hbi] at hab
    exact hd a b ha hab

end Fill

section Clear

variable {free k : κ} {t : Fin n → κ} {i : Fin n}

theorem occupied_clear : occupied free (Function.update t i free) = (occupied free t).erase i := by
  ext j
  rw [Finset.mem_erase, mem_occupied, mem_occupied]
  by_cases hj : j = i
  · subst hj
    simp
  · simp [hj]

theorem card_occupied_clear (hi : t i ≠ free) :
    (occupied free (Function.update t i free)).card + 1 = (occupied free t).card := by
  rw [occupied_clear]
  exact Finset.card_erase_add_one (mem_occupied.mpr hi)

omit [DecidableEq κ] in
theorem distinct_clear (hd : Distinct free t) : Distinct free (Function.update t i free) := by
  intro a b ha hab
  have hai : a ≠ i := by
    rintro rfl
    exact ha (Function.update_self ..)
  rw [Function.update_of_ne hai] at ha hab
  by_cases hbi : b = i
  · rw [hbi, Function.update_self] at hab
    exact absurd hab ha
  · rw [Function.update_of_ne hbi] at hab
    exact hd a b ha hab

end Clear

/-! ## A counted table -/

/-- No key is in two slots, and `num` slots are in use. -/
structure Counted (free : κ) (num : Nat) (t : Fin n → κ) : Prop where
  card : (occupied free t).card = num
  distinct : Distinct free t

namespace Counted

variable {free k : κ} {num : Nat} {t : Fin n → κ} {i : Fin n}

theorem empty : Counted free 0 (fun _ : Fin n => free) := by
  refine ⟨?_, fun _ _ h => absurd rfl h⟩
  rw [Finset.card_eq_zero]
  ext i
  simp [mem_occupied]

/-- There is room while a slot is free. -/
theorem num_lt (h : Counted free num t) (hi : t i = free) : num < n := by
  have hlt : (occupied free t).card < (Finset.univ : Finset (Fin n)).card := by
    refine Finset.card_lt_card (Finset.ssubset_univ_iff.mpr fun he => ?_)
    have hmem : i ∈ occupied free t := by
      rw [he]
      exact Finset.mem_univ i
    exact mem_occupied.mp hmem hi
  rw [h.card, Finset.card_univ, Fintype.card_fin] at hlt
  exact hlt

/-- Something is counted while a key is held. -/
theorem num_pos (h : Counted free num t) (hi : t i ≠ free) : 0 < num := by
  rw [← h.card]
  exact Finset.card_pos.mpr ⟨i, mem_occupied.mpr hi⟩

/-- **A new key goes into a free slot.** -/
theorem fill (h : Counted free num t) (hi : t i = free) (hk : ∀ j, t j ≠ k) :
    Counted free (num + 1) (Function.update t i k) := by
  refine ⟨?_, distinct_fill h.distinct hk⟩
  rw [card_occupied_fill hi hk, h.card]

/-- **A key leaves its slot.** -/
theorem clear (h : Counted free (num + 1) t) (hi : t i ≠ free) :
    Counted free num (Function.update t i free) := by
  refine ⟨?_, distinct_clear h.distinct⟩
  have hcard := card_occupied_clear hi
  rw [h.card] at hcard
  exact Nat.succ.inj hcard

end Counted

/-! ## Updates that search -/

/-- Put `k` into the first free slot; without one, nothing happens. -/
def put (free : κ) (t : Fin n → κ) (k : κ) : Fin n → κ :=
  match firstWith t free with
  | some i => Function.update t i k
  | none => t

/-- Free the first slot that holds `k`. -/
def drop (free : κ) (t : Fin n → κ) (k : κ) : Fin n → κ :=
  match firstWith t k with
  | some i => Function.update t i free
  | none => t

/-- Free all slots whose key is in `l`. -/
def dropWhere (free : κ) (t : Fin n → κ) (l : List κ) : Fin n → κ := fun i => if t i ∈ l then free else t i

section

variable {free k k' : κ} {t : Fin n → κ} {l : List κ}

theorem mem_used : k ∈ used free t ↔ k ≠ free ∧ ∃ i, t i = k := by
  unfold used
  rw [Finset.mem_image]
  constructor
  · rintro ⟨i, hi, rfl⟩
    exact ⟨mem_occupied.mp hi, i, rfl⟩
  · rintro ⟨hk, i, rfl⟩
    exact ⟨i, mem_occupied.mpr hk, rfl⟩

theorem ne_of_not_mem_used (hk : k ≠ free) (h : k ∉ used free t) (i : Fin n) : t i ≠ k :=
  fun hi => h (mem_used.mpr ⟨hk, i, hi⟩)

/-- Distinct keys are as many as the slots they are in. -/
theorem card_used (hd : Distinct free t) : (used free t).card = (occupied free t).card :=
  Finset.card_image_of_injOn fun i hi j _ hij => hd i j (mem_occupied.mp hi) hij

/-- A slot is free while there are fewer keys than slots. -/
theorem exists_free (hd : Distinct free t) (h : (used free t).card < n) : ∃ i, t i = free := by
  by_contra hfull
  have hall : occupied free t = Finset.univ :=
    Finset.eq_univ_iff_forall.mpr fun i => mem_occupied.mpr fun hi => hfull ⟨i, hi⟩
  rw [card_used hd, hall, Finset.card_univ, Fintype.card_fin] at h
  exact Nat.lt_irrefl n h

theorem used_put (hroom : ∃ i, t i = free) (hk : k ≠ free) :
    used free (put free t k) = insert k (used free t) := by
  unfold put
  split
  · rename_i i hi
    have hfree := apply_of_firstWith hi
    ext x
    rw [Finset.mem_insert, mem_used, mem_used]
    constructor
    · rintro ⟨hx, j, hj⟩
      by_cases hji : j = i
      · rw [hji, Function.update_self] at hj
        exact Or.inl hj.symm
      · rw [Function.update_of_ne hji] at hj
        exact Or.inr ⟨hx, j, hj⟩
    · rintro (rfl | ⟨hx, j, hj⟩)
      · exact ⟨hk, i, Function.update_self ..⟩
      · refine ⟨hx, j, ?_⟩
        rw [Function.update_of_ne, hj]
        rintro rfl
        exact hx (hj.symm.trans hfree)
  · rename_i hnone
    obtain ⟨i, hi⟩ := hroom
    exact absurd hi (firstWith_eq_none_iff.mp hnone i)

theorem distinct_put (hd : Distinct free t) (hk : k ≠ free) (h : k ∉ used free t) :
    Distinct free (put free t k) := by
  unfold put
  split
  · exact distinct_fill hd (ne_of_not_mem_used hk h)
  · exact hd

theorem used_drop (hd : Distinct free t) (hk : k ≠ free) :
    used free (drop free t k) = (used free t).erase k := by
  unfold drop
  split
  · rename_i i hi
    have hik := apply_of_firstWith hi
    ext x
    rw [Finset.mem_erase, mem_used, mem_used]
    constructor
    · rintro ⟨hx, j, hj⟩
      have hji : j ≠ i := by
        rintro rfl
        rw [Function.update_self] at hj
        exact hx hj.symm
      rw [Function.update_of_ne hji] at hj
      refine ⟨?_, hx, j, hj⟩
      rintro rfl
      exact hji (hd j i (fun hfree => hx (hj.symm.trans hfree)) (hj.trans hik.symm))
    · rintro ⟨hxk, hx, j, hj⟩
      refine ⟨hx, j, ?_⟩
      rw [Function.update_of_ne, hj]
      rintro rfl
      exact hxk (hj.symm.trans hik)
  · rename_i hnone
    rw [Finset.erase_eq_of_notMem]
    rw [mem_used]
    rintro ⟨-, i, hi⟩
    exact firstWith_eq_none_iff.mp hnone i hi

theorem distinct_drop (hd : Distinct free t) : Distinct free (drop free t k) := by
  unfold drop
  split
  · exact distinct_clear hd
  · exact hd

/-- A slot is freed or stays as it is. -/
theorem drop_apply (i : Fin n) : drop free t k i = free ∨ drop free t k i = t i := by
  unfold drop
  cases firstWith t k with
  | some j =>
    by_cases hij : i = j
    · rw [hij]
      exact Or.inl (Function.update_self ..)
    · exact Or.inr (Function.update_of_ne hij ..)
  | none => exact Or.inr rfl

theorem used_dropWhere : used free (dropWhere free t l) = (used free t).filter (· ∉ l) := by
  ext x
  rw [Finset.mem_filter, mem_used, mem_used]
  unfold dropWhere
  constructor
  · rintro ⟨hx, i, hi⟩
    split at hi
    · exact absurd hi.symm hx
    · rename_i hmem
      exact ⟨⟨hx, i, hi⟩, fun hxl => hmem (hi.symm ▸ hxl)⟩
  · rintro ⟨⟨hx, i, hi⟩, hxl⟩
    refine ⟨hx, i, ?_⟩
    rw [if_neg, hi]
    rw [hi]
    exact hxl

theorem distinct_dropWhere (hd : Distinct free t) : Distinct free (dropWhere free t l) := by
  intro i j hi hij
  unfold dropWhere at hi hij
  split at hi
  · exact absurd rfl hi
  · rename_i hil
    rw [if_neg hil] at hij
    split at hij
    · exact absurd hij hi
    · exact hd i j hi hij

end

/-! ## The same key in many slots -/

/-- The slots that hold `k`. -/
def slotsWith (t : Fin n → κ) (k : κ) : Finset (Fin n) := Finset.univ.filter fun i => t i = k

section

variable {free k k' : κ} {t : Fin n → κ} {l : List κ}

theorem mem_slotsWith {i : Fin n} : i ∈ slotsWith t k ↔ t i = k := by
  simp [slotsWith]

theorem card_slotsWith_eq_zero : (slotsWith t k).card = 0 ↔ ∀ i, t i ≠ k := by
  rw [Finset.card_eq_zero, Finset.eq_empty_iff_forall_notMem]
  simp only [mem_slotsWith, ne_eq]

/-- A full table takes no key. -/
theorem put_of_full (h : (slotsWith t free).card = 0) : put free t k = t := by
  unfold put
  rw [firstWith_eq_none_iff.mpr (card_slotsWith_eq_zero.mp h)]

theorem put_of_firstWith {i : Fin n} (h : firstWith t free = some i) :
    put free t k = Function.update t i k := by
  unfold put
  rw [h]

/-- The first free slot is taken. -/
theorem slotsWith_update {j : Fin n} (hk : k ≠ free) :
    slotsWith (Function.update t j k) free = (slotsWith t free).erase j := by
  ext i
  rw [Finset.mem_erase, mem_slotsWith, mem_slotsWith]
  by_cases hij : i = j
  · subst hij
    simp [hk]
  · simp [hij]

/-- A key takes one of the free slots. -/
theorem card_free_put (hk : k ≠ free) :
    (slotsWith (put free t k) free).card = (slotsWith t free).card - 1 := by
  unfold put
  split
  · rename_i i hi
    rw [slotsWith_update hk, Finset.card_erase_of_mem (mem_slotsWith.mpr (apply_of_firstWith hi))]
  · rename_i hnone
    rw [card_slotsWith_eq_zero.mpr (firstWith_eq_none_iff.mp hnone)]

/-- No key gets more than one slot. -/
theorem card_slotsWith_put_le : (slotsWith (put free t k) k').card ≤ (slotsWith t k').card + 1 := by
  unfold put
  split
  · rename_i i _
    refine (Finset.card_le_card fun j hj => ?_).trans (Finset.card_insert_le i _)
    rw [Finset.mem_insert]
    by_cases hji : j = i
    · exact Or.inl hji
    · rw [mem_slotsWith, Function.update_of_ne hji] at hj
      exact Or.inr (mem_slotsWith.mpr hj)
  · exact Nat.le_succ _

/-- **A key that is put many times** takes as many of the free slots. -/
theorem card_free_put_iterate (hk : k ≠ free) : ∀ (m : Nat) (t : Fin n → κ),
    (slotsWith ((fun t => put free t k)^[m] t) free).card = (slotsWith t free).card - m
  | 0, _ => rfl
  | m + 1, t => by
    rw [Function.iterate_succ_apply, card_free_put_iterate hk m, card_free_put hk]
    omega

/-- **The slots that a key takes** are the first of the free ones. -/
theorem put_iterate_apply (hk : k ≠ free) (i : Fin n) : ∀ (m : Nat) (t : Fin n → κ),
    (fun t => put free t k)^[m] t i =
      if t i = free ∧ ((slotsWith t free).filter (· < i)).card < m then k else t i
  | 0, t => by
    rw [if_neg (fun h => Nat.not_lt_zero _ h.2)]
    rfl
  | m + 1, t => by
    rw [Function.iterate_succ_apply, put_iterate_apply hk i m]
    cases hj : firstWith t free with
    | none =>
      have hnone := firstWith_eq_none_iff.mp hj
      rw [put_of_full (card_slotsWith_eq_zero.mpr hnone), if_neg (fun h => hnone i h.1),
        if_neg (fun h => hnone i h.1)]
    | some j =>
      have hbefore : ∀ i', i' < j → t i' ≠ free := (firstWith_eq_some_iff.mp hj).2
      rw [put_of_firstWith hj, slotsWith_update hk]
      by_cases hij : i = j
      · subst hij
        have hnone : (slotsWith t free).filter (· < i) = ∅ := by
          ext i'
          simp only [Finset.mem_filter, mem_slotsWith, Finset.notMem_empty, iff_false, not_and]
          exact fun hfree hlt => hbefore i' hlt hfree
        rw [Function.update_self, if_neg (fun h => hk h.1), hnone, Finset.card_empty,
          if_pos ⟨apply_of_firstWith hj, Nat.succ_pos m⟩]
      · rw [Function.update_of_ne hij]
        by_cases hfree : t i = free
        · -- the first free slot is one of those before `i`
          have hlt : j < i := by
            have hnot : ¬i < j := fun hlt => hbefore i hlt hfree
            exact lt_of_le_of_ne (not_lt.mp hnot) (Ne.symm hij)
          have hmem : j ∈ (slotsWith t free).filter (· < i) :=
            Finset.mem_filter.mpr ⟨mem_slotsWith.mpr (apply_of_firstWith hj), hlt⟩
          have hpos := Finset.card_pos.mpr ⟨j, hmem⟩
          rw [Finset.filter_erase, Finset.card_erase_of_mem hmem]
          refine if_congr (and_congr_right' ?_) rfl rfl
          omega
        · rw [if_neg (fun h => hfree h.1), if_neg (fun h => hfree h.1)]

/-- With one free slot at most, many times are as good as once. -/
theorem put_iterate_of_le (hk : k ≠ free) (h : (slotsWith t free).card ≤ 1) (m : Nat) :
    (fun t => put free t k)^[m + 1] t = put free t k := by
  have hfull : (slotsWith (put free t k) free).card = 0 := by
    rw [card_free_put hk]
    omega
  rw [Function.iterate_succ_apply]
  exact Function.iterate_fixed (put_of_full hfull) m

/-- The keys of the list have left the table. -/
theorem card_slotsWith_dropWhere (hmem : k ∈ l) (hk : k ≠ free) :
    (slotsWith (dropWhere free t l) k).card = 0 := by
  rw [card_slotsWith_eq_zero]
  intro i hi
  unfold dropWhere at hi
  split at hi
  · exact hk hi.symm
  · rename_i hnot
    exact hnot (hi ▸ hmem)

/-- The slots that are free after the keys of the list have left. -/
theorem slotsWith_free_dropWhere :
    slotsWith (dropWhere free t l) free = Finset.univ.filter fun i => t i = free ∨ t i ∈ l := by
  ext i
  rw [mem_slotsWith, Finset.mem_filter]
  unfold dropWhere
  split
  · rename_i hmem
    simp [hmem]
  · rename_i hnot
    simp [hnot]

end

end MlnxLib.SlotTable
