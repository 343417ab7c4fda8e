import Mathlib.Data.List.Perm.Basic

/-!
# Partial maps and the lists that hold them

A list of items with keys holds a partial map from keys to items, if it has the item of each key.

* `IndexedBy key M items` — the list holds the map.
* `within M O`, `without M O` — the part of a map whose keys another one has, and the part whose keys it has not.
* `union M O` — the items of the first map, and those of the second one under the other keys.

Principal results: `IndexedBy.within`, `IndexedBy.without`, `IndexedBy.union` — the lists of these maps are filtered
and put together.
-/

set_option autoImplicit false

namespace MlnxLib.PartialMaps

variable {ν κ μ : Type}

/-- The part of a map whose keys another one has. -/
def within (M : κ → Option ν) (O : κ → Option μ) (k : κ) : Option ν := if (O k).isSome then M k else none

/-- The part of a map whose keys another one has not. -/
def without (M : κ → Option ν) (O : κ → Option μ) (k : κ) : Option ν := if (O k).isSome then none else M k

/-- The items of the first map, and those of the second one under the other keys. -/
def union (M O : κ → Option ν) (k : κ) : Option ν := (M k).or (O k)

/-- **A list holds a map**: it has the item of each key, and no others. -/
def IndexedBy (key : ν → κ) (M : κ → Option ν) (items : List ν) : Prop :=
  ∀ k x, M k = some x ↔ x ∈ items ∧ key x = k

namespace IndexedBy

variable {key key' : ν → κ} {M O : κ → Option ν} {items items' other : List ν} {k : κ} {x : ν}

theorem empty (key : ν → κ) : IndexedBy key (fun _ => none) [] := by
  intro k x
  simp

theorem get (h : IndexedBy key M items) (hx : x ∈ items) : M (key x) = some x := (h _ x).mpr ⟨hx, rfl⟩

theorem isSome_iff (h : IndexedBy key M items) : (M k).isSome ↔ k ∈ items.map key := by
  rw [Option.isSome_iff_exists, List.mem_map]
  exact exists_congr fun x => h k x

theorem eq_none_iff (h : IndexedBy key M items) : M k = none ↔ k ∉ items.map key := by
  rw [← h.isSome_iff, Option.not_isSome_iff_eq_none]

theorem perm (h : IndexedBy key M items) (hp : items'.Perm items) : IndexedBy key M items' := by
  intro k x
  rw [hp.mem_iff]
  exact h k x

/-- The keys of the items are all that counts. -/
theorem congr_key (h : IndexedBy key M items) (hkey : ∀ x ∈ items, key' x = key x) : IndexedBy key' M items := by
  intro k x
  rw [h k x]
  refine and_congr_right fun hx => ?_
  rw [hkey x hx]

variable [DecidableEq κ]

theorem within (h : IndexedBy key M items) (ho : IndexedBy key O other) :
    IndexedBy key (within M O) (items.filter fun x => key x ∈ other.map key) := by
  intro k x
  rw [List.mem_filter, decide_eq_true_iff, PartialMaps.within]
  split
  next hsome =>
    rw [h k x]
    constructor
    · rintro ⟨hx, rfl⟩
      exact ⟨⟨hx, ho.isSome_iff.mp hsome⟩, rfl⟩
    · rintro ⟨⟨hx, -⟩, hk⟩
      exact ⟨hx, hk⟩
  next hnone =>
    refine ⟨nofun, ?_⟩
    rintro ⟨⟨-, hk⟩, rfl⟩
    exact absurd (ho.isSome_iff.mpr hk) hnone

theorem without (h : IndexedBy key M items) (ho : IndexedBy key O other) :
    IndexedBy key (without M O) (items.filter fun x => key x ∉ other.map key) := by
  intro k x
  rw [List.mem_filter, decide_eq_true_iff, PartialMaps.without]
  split
  next hsome =>
    refine ⟨nofun, ?_⟩
    rintro ⟨⟨-, hk⟩, rfl⟩
    exact absurd (ho.isSome_iff.mp hsome) hk
  next hnone =>
    rw [h k x]
    constructor
    · rintro ⟨hx, rfl⟩
      exact ⟨⟨hx, mt ho.isSome_iff.mpr hnone⟩, rfl⟩
    · rintro ⟨⟨hx, -⟩, hk⟩
      exact ⟨hx, hk⟩

theorem union (h : IndexedBy key M items) (ho : IndexedBy key O other) :
    IndexedBy key (union M O) (items ++ other.filter fun x => key x ∉ items.map key) := by
  intro k x
  rw [PartialMaps.union, Option.or_eq_some_iff, List.mem_append, List.mem_filter, decide_eq_true_iff, h k x, ho k x,
    h.eq_none_iff]
  constructor
  · rintro (⟨hx, hk⟩ | ⟨hk, hx, rfl⟩)
    · exact ⟨Or.inl hx, hk⟩
    · exact ⟨Or.inr ⟨hx, hk⟩, rfl⟩
  · rintro ⟨hx | ⟨hx, hk⟩, rfl⟩
    · exact Or.inl ⟨hx, rfl⟩
    · exact Or.inr ⟨hk, hx, rfl⟩

end IndexedBy

end MlnxLib.PartialMaps
