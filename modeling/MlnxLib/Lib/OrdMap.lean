import Mathlib.Order.Lattice
import Mathlib.Data.List.Basic
import Mathlib.Data.List.Perm.Basic
import Mathlib.Data.List.Nodup

/-!
# Finite maps kept in key order

A finite map from a linearly ordered key type, stored as the list of its entries in strictly
increasing key order.  The order is a field of the structure, so every map that can be built
has unique keys and is traversed in order.  Items are removed by value, as intrusive maps do:
the item itself is the handle.

Principal results: `mem_entries_iff` (lookup is membership), `get_insert`, `get_removeItem`
(how lookups see an update), `perm_insert`, `perm_removeItem` (what an update does to the
entries), and `next_of_split` (the traversal follows the entry list).
-/

set_option autoImplicit false

/-- A finite map with its entries in strictly increasing key order. -/
structure OrdMap (κ α : Type) [LinearOrder κ] where
  entries : List (κ × α)
  sorted : entries.Pairwise (fun a b => a.1 < b.1)

namespace OrdMap

variable {κ α : Type} [LinearOrder κ]

@[ext] theorem ext {m m' : OrdMap κ α} (h : m.entries = m'.entries) : m = m' := by
  cases m; cases m'; simp_all

def empty : OrdMap κ α := ⟨[], List.Pairwise.nil⟩

def count (m : OrdMap κ α) : Nat := m.entries.length

def values (m : OrdMap κ α) : List α := m.entries.map (·.2)

def get (m : OrdMap κ α) (k : κ) : Option α := (m.entries.find? (fun p => p.1 == k)).map (·.2)

/-- Sorted insertion; a key that is present keeps its entry. -/
def insertList (k : κ) (v : α) : List (κ × α) → List (κ × α)
  | [] => [(k, v)]
  | p :: t => if k < p.1 then (k, v) :: p :: t else if p.1 < k then p :: insertList k v t else p :: t

theorem mem_insertList {k : κ} {v : α} {p : κ × α} : ∀ {l : List (κ × α)},
    p ∈ insertList k v l → p = (k, v) ∨ p ∈ l
  | [], h => by simpa [insertList] using h
  | q :: t, h => by
    unfold insertList at h
    split at h
    · simpa using h
    · split at h
      · rcases List.mem_cons.mp h with rfl | h
        · simp
        · rcases mem_insertList h with h | h
          · exact Or.inl h
          · exact Or.inr (List.mem_cons_of_mem _ h)
      · exact Or.inr h

theorem insertList_sorted {k : κ} {v : α} : ∀ {l : List (κ × α)},
    l.Pairwise (fun a b => a.1 < b.1) → (insertList k v l).Pairwise (fun a b => a.1 < b.1)
  | [], _ => by simp [insertList]
  | q :: t, h => by
    obtain ⟨hq, ht⟩ := List.pairwise_cons.mp h
    unfold insertList
    split
    · rename_i hk
      refine List.pairwise_cons.mpr ⟨fun p hp => ?_, h⟩
      rcases List.mem_cons.mp hp with rfl | hp
      · exact hk
      · exact lt_trans hk (hq p hp)
    · split
      · rename_i hk
        refine List.pairwise_cons.mpr ⟨fun p hp => ?_, insertList_sorted ht⟩
        rcases mem_insertList hp with rfl | hp
        · exact hk
        · exact hq p hp
      · exact h

def insert (m : OrdMap κ α) (k : κ) (v : α) : OrdMap κ α :=
  ⟨insertList k v m.entries, insertList_sorted m.sorted⟩

/-- Remove the item `v`, wherever it is. -/
def removeItem [DecidableEq α] (m : OrdMap κ α) (v : α) : OrdMap κ α :=
  ⟨m.entries.filter (fun p => decide (p.2 ≠ v)), m.sorted.filter _⟩

def head (m : OrdMap κ α) : Option α := m.entries.head?.map (·.2)

/-- The item after `v` in key order. -/
def next [DecidableEq α] (m : OrdMap κ α) (v : α) : Option α :=
  ((m.entries.dropWhile (fun p => decide (p.2 ≠ v))).tail.head?).map (·.2)

/-! ## Lookup -/

theorem keys_nodup (m : OrdMap κ α) : (m.entries.map (·.1)).Nodup := by
  have := m.sorted.map (S := fun a b => a < b) Prod.fst (fun _ _ h => h)
  exact this.imp (fun h => ne_of_lt h)

/-- **Lookup is membership of the entry.** -/
theorem mem_entries_iff {m : OrdMap κ α} {k : κ} {v : α} :
    (k, v) ∈ m.entries ↔ m.get k = some v := by
  unfold get
  constructor
  · intro h
    have hnd := m.keys_nodup
    generalize m.entries = l at h hnd
    induction l with
    | nil => cases h
    | cons p t ih =>
      simp only [List.map_cons, List.nodup_cons, List.mem_map, not_exists, not_and] at hnd
      rcases List.mem_cons.mp h with h | h
      · subst h; simp
      · have hne : p.1 ≠ k := fun he => hnd.1 _ h he.symm
        simp only [List.find?_cons, beq_eq_false_iff_ne.mpr hne]
        exact ih h hnd.2
  · intro h
    cases hf : m.entries.find? (fun p => p.1 == k) with
    | none => rw [hf] at h; cases h
    | some p =>
      rw [hf] at h
      have hm := List.mem_of_find?_eq_some hf
      have hp := List.find?_some hf
      simp only [beq_iff_eq] at hp
      simp only [Option.map_some, Option.some.injEq] at h
      rw [← hp, ← h]
      exact hm

theorem get_eq_none_iff {m : OrdMap κ α} {k : κ} :
    m.get k = none ↔ ∀ v, (k, v) ∉ m.entries := by
  constructor
  · intro h v hv
    rw [mem_entries_iff, h] at hv
    cases hv
  · intro h
    cases hg : m.get k with
    | none => rfl
    | some v => exact absurd (mem_entries_iff.mpr hg) (h v)

theorem get_mem_values {m : OrdMap κ α} {k : κ} {v : α} (h : m.get k = some v) :
    v ∈ m.values :=
  List.mem_map.mpr ⟨(k, v), mem_entries_iff.mpr h, rfl⟩

theorem mem_values_iff {m : OrdMap κ α} {v : α} : v ∈ m.values ↔ ∃ k, m.get k = some v := by
  constructor
  · intro h
    obtain ⟨p, hp, rfl⟩ := List.mem_map.mp h
    exact ⟨p.1, mem_entries_iff.mp hp⟩
  · rintro ⟨k, h⟩; exact get_mem_values h

/-- With distinct items, an item determines its key. -/
theorem key_unique {m : OrdMap κ α} (hnd : m.values.Nodup) {k k' : κ} {v : α}
    (h : m.get k = some v) (h' : m.get k' = some v) : k = k' := by
  have h₁ := mem_entries_iff.mpr h
  have h₂ := mem_entries_iff.mpr h'
  have := List.inj_on_of_nodup_map hnd h₁ h₂ rfl
  exact congrArg Prod.fst this

@[simp] theorem get_empty (k : κ) : (empty : OrdMap κ α).get k = none := rfl
@[simp] theorem values_empty : (empty : OrdMap κ α).values = [] := rfl
@[simp] theorem count_empty : (empty : OrdMap κ α).count = 0 := rfl

theorem length_values (m : OrdMap κ α) : m.values.length = m.count := by
  simp [values, count]

theorem head_eq (m : OrdMap κ α) : m.head = m.values.head? := by
  unfold head values
  cases m.entries <;> rfl

/-- The entries with greater keys are those behind the entry of a key. -/
theorem entries_split {m : OrdMap κ α} {k : κ} {v : α} (h : m.get k = some v) :
    ∃ as bs, m.entries = as ++ (k, v) :: bs ∧ m.entries.filter (fun p => decide (k < p.1)) = bs := by
  obtain ⟨as, bs, hsplit⟩ := List.append_of_mem (mem_entries_iff.mpr h)
  have hsorted := m.sorted
  rw [hsplit, List.pairwise_append, List.pairwise_cons] at hsorted
  obtain ⟨-, ⟨hbehind, -⟩, hbefore⟩ := hsorted
  have has : as.filter (fun p => decide (k < p.1)) = [] := by
    refine List.filter_eq_nil_iff.mpr (fun p hp => ?_)
    have hlt := hbefore p hp (k, v) (List.mem_cons_self ..)
    simpa using le_of_lt hlt
  have hbs : bs.filter (fun p => decide (k < p.1)) = bs :=
    List.filter_eq_self.mpr (fun p hp => decide_eq_true (hbehind p hp))
  refine ⟨as, bs, hsplit, ?_⟩
  rw [hsplit, List.filter_append, List.filter_cons, has, hbs]
  simp

/-! ## Insertion -/

theorem insertList_perm {k : κ} {v : α} : ∀ {l : List (κ × α)}, (∀ p ∈ l, p.1 ≠ k) →
    (insertList k v l).Perm ((k, v) :: l)
  | [], _ => by simp [insertList]
  | q :: t, h => by
    unfold insertList
    split
    · exact List.Perm.refl _
    · rename_i hnlt
      have hq : q.1 < k := lt_of_le_of_ne (not_lt.mp hnlt) (h q (by simp))
      rw [if_pos hq]
      exact ((insertList_perm (fun p hp => h p (List.mem_cons_of_mem _ hp))).cons q).trans
        (List.Perm.swap _ _ _)

/-- **Inserting an absent key adds exactly one entry.** -/
theorem perm_insert {m : OrdMap κ α} {k : κ} (v : α) (h : m.get k = none) :
    (m.insert k v).entries.Perm ((k, v) :: m.entries) :=
  insertList_perm (fun p hp he => get_eq_none_iff.mp h p.2 (by rw [← he]; exact hp))

theorem values_insert {m : OrdMap κ α} {k : κ} (v : α) (h : m.get k = none) :
    (m.insert k v).values.Perm (v :: m.values) := by
  simpa [values] using (perm_insert v h).map (·.2)

theorem get_insert {m : OrdMap κ α} {k : κ} (v : α) (h : m.get k = none) (k' : κ) :
    (m.insert k v).get k' = if k' = k then some v else m.get k' := by
  have hperm := perm_insert v h
  split
  · rename_i he
    subst he
    exact mem_entries_iff.mp (hperm.mem_iff.mpr (by simp))
  · rename_i he
    cases hg : m.get k' with
    | some w =>
      exact mem_entries_iff.mp (hperm.mem_iff.mpr
        (List.mem_cons_of_mem _ (mem_entries_iff.mpr hg)))
    | none =>
      refine get_eq_none_iff.mpr (fun w hw => ?_)
      rcases List.mem_cons.mp (hperm.mem_iff.mp hw) with hw | hw
      · exact he (congrArg Prod.fst hw)
      · exact get_eq_none_iff.mp hg w hw

/-- **Inserting between two parts** of the entries. -/
theorem insertList_split {k : κ} {v : α} {bs : List (κ × α)} (hbs : ∀ p ∈ bs, k < p.1) :
    ∀ {as : List (κ × α)}, (∀ p ∈ as, p.1 < k) → insertList k v (as ++ bs) = as ++ (k, v) :: bs
  | [], _ => by
    cases bs with
    | nil => rfl
    | cons p bs =>
      have hp : k < p.1 := hbs p (List.mem_cons_self ..)
      rw [List.nil_append, List.nil_append, insertList, if_pos hp]
  | p :: as, has => by
    have hp : p.1 < k := has p (List.mem_cons_self ..)
    have hrest : insertList k v (as ++ bs) = as ++ (k, v) :: bs :=
      insertList_split hbs fun q hq => has q (List.mem_cons_of_mem _ hq)
    rw [List.cons_append, insertList, if_neg (lt_asymm hp), if_pos hp, hrest, List.cons_append]

theorem entries_insert_split {m : OrdMap κ α} {k : κ} (v : α) {as bs : List (κ × α)}
    (h : m.entries = as ++ bs) (has : ∀ p ∈ as, p.1 < k) (hbs : ∀ p ∈ bs, k < p.1) :
    (m.insert k v).entries = as ++ (k, v) :: bs := by
  change insertList k v m.entries = _
  rw [h]
  exact insertList_split hbs has

/-- The key of an item. -/
def keyOf [DecidableEq α] (m : OrdMap κ α) (v : α) : Option κ :=
  (m.entries.find? (fun p => decide (p.2 = v))).map (·.1)

theorem keyOf_eq [DecidableEq α] {m : OrdMap κ α} (hnd : m.values.Nodup) {k : κ} {v : α}
    (h : (k, v) ∈ m.entries) : m.keyOf v = some k := by
  have hsome : (m.entries.find? (fun p => decide (p.2 = v))).isSome = true :=
    List.find?_isSome.mpr ⟨(k, v), h, decide_eq_true rfl⟩
  obtain ⟨⟨k', v'⟩, hfind⟩ := Option.isSome_iff_exists.mp hsome
  have hmem := List.mem_of_find?_eq_some hfind
  have hval := List.find?_some hfind
  obtain rfl : v' = v := of_decide_eq_true hval
  unfold keyOf
  rw [hfind, Option.map_some, key_unique hnd (mem_entries_iff.mp hmem) (mem_entries_iff.mp h)]

/-! ## Removal -/

section Removal

variable [DecidableEq α]

theorem mem_removeItem {m : OrdMap κ α} {v : α} {p : κ × α} :
    p ∈ (m.removeItem v).entries ↔ p ∈ m.entries ∧ p.2 ≠ v := by
  simp [removeItem, List.mem_filter]

theorem get_removeItem {m : OrdMap κ α} (v : α) (k : κ) :
    (m.removeItem v).get k = if m.get k = some v then none else m.get k := by
  split
  · rename_i h
    refine get_eq_none_iff.mpr (fun w hw => ?_)
    obtain ⟨hw, hne⟩ := mem_removeItem.mp hw
    rw [mem_entries_iff, h, Option.some.injEq] at hw
    exact hne hw.symm
  · rename_i h
    cases hg : m.get k with
    | some w =>
      refine mem_entries_iff.mp (mem_removeItem.mpr ⟨mem_entries_iff.mpr hg, ?_⟩)
      rintro rfl
      exact h hg
    | none =>
      exact get_eq_none_iff.mpr (fun w hw =>
        get_eq_none_iff.mp hg w (mem_removeItem.mp hw).1)

theorem values_removeItem (m : OrdMap κ α) (v : α) :
    (m.removeItem v).values = m.values.filter (fun w => decide (w ≠ v)) := by
  unfold values removeItem
  simp only [List.filter_map]
  rfl

/-- **Removing an item** between two parts of the entries. -/
theorem entries_removeItem_split {m : OrdMap κ α} (hnd : m.values.Nodup) {k : κ} {v : α}
    {as bs : List (κ × α)} (h : m.entries = as ++ (k, v) :: bs) : (m.removeItem v).entries = as ++ bs := by
  unfold values at hnd
  rw [h, List.map_append, List.map_cons] at hnd
  have hnot : v ∉ as.map (·.2) ++ bs.map (·.2) := (List.nodup_middle.mp hnd).notMem
  rw [← List.map_append] at hnot
  have hkeep : (as ++ bs).filter (fun p => decide (p.2 ≠ v)) = as ++ bs :=
    List.filter_eq_self.mpr fun p hp => decide_eq_true fun he => hnot (he ▸ List.mem_map_of_mem hp)
  rw [List.filter_append] at hkeep
  change m.entries.filter (fun p => decide (p.2 ≠ v)) = _
  rw [h, List.filter_append, List.filter_cons, if_neg (by simp), hkeep]

/-- **Removing a stored item takes exactly one entry away.** -/
theorem count_removeItem {m : OrdMap κ α} (hnd : m.values.Nodup) {v : α} (hv : v ∈ m.values) :
    (m.removeItem v).count + 1 = m.count := by
  rw [← length_values, ← length_values, values_removeItem]
  have hf : m.values.filter (fun w => decide (w ≠ v)) = m.values.erase v := by
    rw [hnd.erase_eq_filter v]
    exact List.filter_congr (fun w _ => by by_cases hw : w = v <;> simp [hw])
  rw [hf, List.length_erase_of_mem hv]
  have := List.length_pos_of_mem hv
  omega

/-! ## Traversal -/

/-- The item after `v` is the next one of the value list. -/
theorem next_of_split {m : OrdMap κ α} (hnd : m.values.Nodup) {as bs : List α} {v : α}
    (h : m.values = as ++ v :: bs) : m.next v = bs.head? := by
  unfold next
  unfold values at h hnd
  have key : ∀ (l : List (κ × α)) (as : List α), l.map (·.2) = as ++ v :: bs →
      (l.map (·.2)).Nodup →
      ((l.dropWhile (fun p => decide (p.2 ≠ v))).tail.head?).map (·.2) = bs.head? := by
    intro l
    induction l with
    | nil => intro as h; simp at h
    | cons p t ih =>
      intro as h hnd
      cases as with
      | nil =>
        simp only [List.map_cons, List.nil_append, List.cons.injEq] at h
        have hd : ((p :: t).dropWhile (fun p => decide (p.2 ≠ v))) = p :: t := by
          simp [h.1]
        rw [hd, List.tail_cons, ← List.head?_map, h.2]
      | cons a as =>
        simp only [List.map_cons, List.cons_append, List.cons.injEq] at h
        have hne : p.2 ≠ v := by
          rintro rfl
          simp only [List.map_cons, List.nodup_cons] at hnd
          exact hnd.1 (by rw [h.2]; simp)
        have hd : ((p :: t).dropWhile (fun p => decide (p.2 ≠ v))) =
            t.dropWhile (fun p => decide (p.2 ≠ v)) := by
          simp [hne]
        rw [hd]
        exact ih as h.2 (List.nodup_cons.mp hnd).2
  exact key m.entries as h hnd

end Removal

end OrdMap
