import Mathlib.Order.Nat
import MlnxLib.Lib.Ring
import MlnxLib.Lib.OrdMap

/-!
# The complib containers as the upper libraries see them

* `Pool` — `cl_pool_t` of `cl_pool.c` with `grow_size = 0`: a fixed number of objects and a
  LIFO free list.  `cl_qcpool_grow` pushes the objects at the head one by one, so the untouched
  part of the free list counts down; `cl_pool_put` pushes in front of it.
* `QMap` — `cl_qmap_t` seen through its interface: a map from 64-bit keys (as their values) to
  items, traversed in key order.
* `clPrimitiveInsert`, `clPrimitiveRemove`, `clQlistInsertTail`, `clQlistHead` and the like — the
  pointer level of `cl_qlist.h`.

Objects of a pool are named by their index; a pointer to an object is that index.
-/

set_option autoImplicit false

namespace MlnxLib

/-! ## Pools -/

/-- The free list of a pool: the objects put back, then the ones never handed out. -/
structure Pool where
  returned : List Nat
  untouched : Nat
  deriving DecidableEq, Repr

/-- The free list, head first. -/
def Pool.free (p : Pool) : List Nat := p.returned ++ (List.range p.untouched).reverse

/-- `cl_pool_init(pool, n, n, 0, ...)` when its allocation succeeds. -/
def clPoolInit (n : Nat) : Pool := ⟨[], n⟩

/-- A pool after `cl_pool_construct` or `cl_pool_destroy`. -/
def clPoolConstruct : Pool := ⟨[], 0⟩

/-- `cl_pool_get`: the head of the free list, `none` when it is empty. -/
def clPoolGet (p : Pool) : Option (Nat × Pool) :=
  match p.returned, p.untouched with
  | i :: rest, _ => some (i, { p with returned := rest })
  | [], n + 1 => some (n, { p with untouched := n })
  | [], 0 => none

/-- `cl_pool_put`. -/
def clPoolPut (p : Pool) (i : Nat) : Pool := { p with returned := i :: p.returned }

/-- `cl_pool_count`. -/
def clPoolCount (p : Pool) : Nat := p.returned.length + p.untouched

theorem clPoolCount_eq (p : Pool) : clPoolCount p = p.free.length := by
  simp [clPoolCount, Pool.free]

/-- **`cl_pool_get` takes the head of the free list.** -/
theorem clPoolGet_some {p q : Pool} {i : Nat} (h : clPoolGet p = some (i, q)) :
    p.free = i :: q.free := by
  obtain ⟨r, u⟩ := p
  unfold clPoolGet at h
  split at h
  · rename_i j rest _ hr
    simp only at hr
    cases h
    subst hr
    rfl
  · rename_i n hr hu
    simp only at hr hu
    cases h
    subst hr hu
    simp [Pool.free, List.range_succ]
  · cases h

theorem clPoolGet_none_iff {p : Pool} : clPoolGet p = none ↔ clPoolCount p = 0 := by
  obtain ⟨r, u⟩ := p
  cases r with
  | nil => cases u <;> simp [clPoolGet, clPoolCount]
  | cons i r => simp [clPoolGet, clPoolCount]

theorem clPoolGet_count {p q : Pool} {i : Nat} (h : clPoolGet p = some (i, q)) :
    clPoolCount q + 1 = clPoolCount p := by
  rw [clPoolCount_eq, clPoolCount_eq, clPoolGet_some h, List.length_cons]

@[simp] theorem clPoolPut_free (p : Pool) (i : Nat) : (clPoolPut p i).free = i :: p.free := rfl

@[simp] theorem clPoolPut_count (p : Pool) (i : Nat) :
    clPoolCount (clPoolPut p i) = clPoolCount p + 1 := by
  simp [clPoolPut, clPoolCount]; omega

@[simp] theorem clPoolInit_count (n : Nat) : clPoolCount (clPoolInit n) = n := by
  simp [clPoolInit, clPoolCount]

/-! ## Maps and lists -/

/-- `cl_qmap_t`, keyed by the values of 64-bit keys. -/
abbrev QMap := OrdMap Nat Nat

/-- The free objects of a pool and the items of a map are together the `n` objects of the pool,
each of them once. -/
def Conserves (pool : Pool) (m : QMap) (n : Nat) : Prop :=
  (pool.free ++ m.values).Perm (List.range n)

namespace Conserves

variable {pool q : Pool} {m : QMap} {n i k : Nat}

theorem init (n : Nat) : Conserves (clPoolInit n) OrdMap.empty n := by
  unfold Conserves clPoolInit Pool.free
  simp

/-- **Pool conservation.** -/
theorem count (h : Conserves pool m n) : m.count + clPoolCount pool = n := by
  have hlen := h.length_eq
  rw [List.length_append, List.length_range, ← clPoolCount_eq, OrdMap.length_values] at hlen
  omega

theorem nodup (h : Conserves pool m n) : (pool.free ++ m.values).Nodup :=
  h.nodup_iff.mpr List.nodup_range

theorem values_nodup (h : Conserves pool m n) : m.values.Nodup := h.nodup.of_append_right

theorem fresh (h : Conserves pool m n) (hg : clPoolGet pool = some (i, q)) : i ∉ m.values := by
  have hnd := h.nodup
  rw [clPoolGet_some hg] at hnd
  intro hi
  exact List.disjoint_of_nodup_append hnd (List.mem_cons_self ..) hi

/-- Handing an object out into the map. -/
theorem get (h : Conserves pool m n) (hg : clPoolGet pool = some (i, q)) (hk : m.get k = none) :
    Conserves q (m.insert k i) n := by
  unfold Conserves at h ⊢
  have hv := OrdMap.values_insert i hk
  rw [clPoolGet_some hg] at h
  exact (hv.append_left _).trans (List.perm_middle.trans h)

/-- Taking an object out of the map and back to the pool. -/
theorem put (h : Conserves pool m n) (hi : i ∈ m.values) :
    Conserves (clPoolPut pool i) (m.removeItem i) n := by
  have hnd := h.values_nodup
  have hf : (m.removeItem i).values = m.values.erase i := by
    rw [OrdMap.values_removeItem, hnd.erase_eq_filter i]
    exact List.filter_congr (fun w _ => by by_cases hw : w = i <;> simp [hw])
  unfold Conserves at h ⊢
  rw [clPoolPut_free, hf]
  have hback := (List.perm_cons_erase hi).symm.append_left pool.free
  exact List.perm_middle.symm.trans (hback.trans h)

end Conserves

section

variable {α : Type} [DecidableEq α]

/-- `__cl_primitive_insert`. -/
def clPrimitiveInsert (h : Ring.Heap α) (listItem newItem : α) : Ring.Heap α :=
  Ring.insertBefore h listItem newItem

/-- `__cl_primitive_remove`. -/
def clPrimitiveRemove (h : Ring.Heap α) (listItem : α) : Ring.Heap α := Ring.unlink h listItem

/-- `cl_qlist_init`: the end item points to itself. -/
def clQlistInit (h : Ring.Heap α) (endItem : α) : Ring.Heap α := Ring.reset h endItem

/-- `cl_qlist_insert_tail`: in front of the end item. -/
def clQlistInsertTail (h : Ring.Heap α) (endItem newItem : α) : Ring.Heap α :=
  clPrimitiveInsert h endItem newItem

/-- `cl_qlist_next`. -/
def clQlistNext (h : Ring.Heap α) (listItem : α) : Option α := (h listItem).next

/-- `cl_qlist_head`: the item after the end item. -/
def clQlistHead (h : Ring.Heap α) (endItem : α) : Option α := clQlistNext h endItem

end

end MlnxLib
