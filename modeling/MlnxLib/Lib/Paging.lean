import Mathlib.Data.List.Basic
import Mathlib.Algebra.Ring.Nat
import Mathlib.Order.Nat

/-!
# Cutting a sequence into pages

A sequence read page by page, with a page size of its own for every call: the pages, where each
one starts, and that together they are the sequence.

Principal results: `flatten_pages` — the pages up to `m` are the first `offset n m` items;
`exists_last_page` — with positive page sizes the sequence ends; `page_split` — where the last
item of a page stands in the sequence.
-/

set_option autoImplicit false

namespace Paging

variable {α : Type}

/-- The number of items in the pages before page `k`. -/
def offset (n : Nat → Nat) : Nat → Nat
  | 0 => 0
  | k + 1 => offset n k + n k

/-- Page `k` of the sequence. -/
def page (xs : List α) (n : Nat → Nat) (k : Nat) : List α := (xs.drop (offset n k)).take (n k)

/-- **The pages make up the sequence.** -/
theorem flatten_pages (xs : List α) (n : Nat → Nat) : ∀ m : Nat,
    ((List.range m).map (page xs n)).flatten = xs.take (offset n m)
  | 0 => by simp [offset]
  | m + 1 => by
    rw [List.range_succ, List.map_append, List.flatten_append, flatten_pages xs n m, offset,
      List.take_add]
    simp [page]

theorem le_offset {n : Nat → Nat} (hn : ∀ k, 1 ≤ n k) : ∀ m : Nat, m ≤ offset n m
  | 0 => Nat.le_refl 0
  | m + 1 => by
    have ih := le_offset hn m
    have := hn m
    simp only [offset]
    omega

/-- **Positive page sizes reach the end.** -/
theorem exists_last_page (xs : List α) {n : Nat → Nat} (hn : ∀ k, 1 ≤ n k) :
    ∃ m, xs.length ≤ offset n m ∧ ∀ k, k < m → offset n k < xs.length := by
  have hex : ∃ m, xs.length ≤ offset n m := ⟨xs.length, le_offset hn _⟩
  refine ⟨Nat.find hex, Nat.find_spec hex, fun k hk => ?_⟩
  exact Nat.lt_of_not_le (Nat.find_min hex hk)

/-- **The last item of a page**: the next page starts right after it. -/
theorem page_split {xs : List α} {n : Nat → Nat} {k : Nat} (hk : offset n k < xs.length)
    (hn : 1 ≤ n k) :
    ∃ as x, (page xs n k).getLast? = some x ∧ xs = as ++ x :: xs.drop (offset n (k + 1)) := by
  have hne : page xs n k ≠ [] := by
    apply List.ne_nil_of_length_pos
    simp only [page, List.length_take, List.length_drop]
    omega
  obtain ⟨ys, x, hys⟩ := List.eq_nil_or_concat (page xs n k) |>.resolve_left hne
  rw [List.concat_eq_append] at hys
  refine ⟨xs.take (offset n k) ++ ys, x, by rw [hys]; simp, ?_⟩
  have hrest : xs.drop (offset n k) = page xs n k ++ xs.drop (offset n (k + 1)) := by
    rw [page, offset, ← List.drop_drop, List.take_append_drop]
  calc xs = xs.take (offset n k) ++ xs.drop (offset n k) := (List.take_append_drop _ xs).symm
    _ = xs.take (offset n k) ++ (ys ++ [x] ++ xs.drop (offset n (k + 1))) := by rw [hrest, hys]
    _ = xs.take (offset n k) ++ ys ++ x :: xs.drop (offset n (k + 1)) := by simp

end Paging
