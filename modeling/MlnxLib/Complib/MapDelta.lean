import MlnxLib.Complib.MapMerge

/-!
# The difference of two maps

Model of `cl_map_delta`: the pairs whose keys are in one of two maps only go to two other maps; if there is no
memory for one of them, all of them go back.

* `deltaMove` — `__cl_map_delta_move`; `revert` — `__cl_map_revert`, by two merges.
* `deltaLoop`, `newLoop`, `oldLoop` — the three loops, `clMapDelta` — the call.
* `HalfMoved M N src dest` — of the pairs `M`, some whose keys are not in `N` have been moved from `src` to `dest`,
  and the pool of `src` has a free item for each of them.
* `onlyKeys N cs` — the keys of `cs` that are not in `N`: those that are to be moved.
* `DeltaInv` — the loops, with the cursors behind the common keys.

Principal result: `delta_all_or_nothing` — for every two maps, whatever the heap supplies at each call, the
difference is complete if the pools of the two other maps have an item for each key that is to be moved, and
otherwise everything is as it was; the pools of the two maps never take memory from the heap.
-/

set_option autoImplicit false

namespace MlnxLib.ClMaps

open QcPool

/-- The arguments of `cl_map_delta`. -/
structure DeltaMaps (κ O : Type) [LinearOrder κ] where
  map1 : ClMap κ O
  map2 : ClMap κ O
  new : ClMap κ O
  old : ClMap κ O

/-- What the heap supplies for each key at each insertion: the moves, the way back of a move that fails, and
those of the merges. -/
structure DeltaSupplies (κ : Type) where
  new : κ → Supply
  old : κ → Supply
  back1 : κ → Supply
  back2 : κ → Supply
  revert1 : κ → Supply
  revert2 : κ → Supply
  revertNew : κ → Supply
  revertOld : κ → Supply

section

variable {κ O : Type} [LinearOrder κ] [DecidableEq O]

/-! ## Moves -/

/-- `__cl_map_delta_move`: the status, the iterator, and the two maps. -/
def deltaMove (dest src : ClMap κ O) (forDest forSrc : κ → Supply) (itor : Addr) :
    Option (ClStatus × Option Addr × ClMap κ O × ClMap κ O) :=
  let next := src.qmap.next itor
  (src.qmap.keyOf itor).bind fun key =>
  (clMapRemoveItem src (some itor)).bind fun removed =>
  (clMapInsert dest (forDest key) key (src.object itor)).bind fun r =>
    if r.1 = none then
      (clMapInsert removed (forSrc key) key (src.object itor)).map fun back =>
        (.insufficientMemory, some itor, r.2, back.2)
    else some (.success, next, r.2, removed)

/-- `__cl_map_revert`. -/
def revert (w : DeltaSupplies κ) (m : DeltaMaps κ O) : Option (DeltaMaps κ O) :=
  (clMapMerge m.map1 m.old w.revert1 w.revertOld).bind fun r₁ =>
  (clMapMerge m.map2 m.new w.revert2 w.revertNew).map fun r₂ => ⟨r₁.2.1, r₂.2.1, r₂.2.2, r₁.2.2⟩

/-- `__cl_map_delta_move(p_old, p_map1, &itor1)`. -/
def moveOld (w : DeltaSupplies κ) (m : DeltaMaps κ O) (itor1 : Addr) :
    Option (ClStatus × Option Addr × DeltaMaps κ O) :=
  (deltaMove m.old m.map1 w.old w.back1 itor1).map fun r =>
    (r.1, r.2.1, { m with old := r.2.2.1, map1 := r.2.2.2 })

/-- `__cl_map_delta_move(p_new, p_map2, &itor2)`. -/
def moveNew (w : DeltaSupplies κ) (m : DeltaMaps κ O) (itor2 : Addr) :
    Option (ClStatus × Option Addr × DeltaMaps κ O) :=
  (deltaMove m.new m.map2 w.new w.back2 itor2).map fun r =>
    (r.1, r.2.1, { m with new := r.2.2.1, map2 := r.2.2.2 })

/-! ## Loops -/

/-- `while (itor1 != cl_map_end(p_map1))`. -/
def oldLoop (w : DeltaSupplies κ) : Nat → Option Addr → DeltaMaps κ O → Option (ClStatus × DeltaMaps κ O)
  | 0, _, _ => none
  | _ + 1, none, m => some (.success, m)
  | fuel + 1, some itor1, m =>
    (moveOld w m itor1).bind fun r =>
      if r.1 ≠ .success then (revert w r.2.2).map fun m => (r.1, m)
      else oldLoop w fuel r.2.1 r.2.2

/-- `while (itor2 != cl_map_end(p_map2))`, and the loop after it. -/
def newLoop (w : DeltaSupplies κ) :
    Nat → Option Addr → Option Addr → DeltaMaps κ O → Option (ClStatus × DeltaMaps κ O)
  | 0, _, _, _ => none
  | fuel + 1, itor1, none, m => oldLoop w fuel itor1 m
  | fuel + 1, itor1, some itor2, m =>
    (moveNew w m itor2).bind fun r =>
      if r.1 ≠ .success then (revert w r.2.2).map fun m => (r.1, m)
      else newLoop w fuel itor1 r.2.1 r.2.2

/-- The loop over both maps, and those after it. -/
def deltaLoop (w : DeltaSupplies κ) :
    Nat → Option Addr → Option Addr → DeltaMaps κ O → Option (ClStatus × DeltaMaps κ O)
  | 0, _, _, _ => none
  | fuel + 1, some itor1, some itor2, m =>
    (m.map1.qmap.keyOf itor1).bind fun key1 => (m.map2.qmap.keyOf itor2).bind fun key2 =>
    if key1 < key2 then
      (moveOld w m itor1).bind fun r =>
        if r.1 ≠ .success then (revert w r.2.2).map fun m => (r.1, m)
        else deltaLoop w fuel r.2.1 (some itor2) r.2.2
    else if key2 < key1 then
      (moveNew w m itor2).bind fun r =>
        if r.1 ≠ .success then (revert w r.2.2).map fun m => (r.1, m)
        else deltaLoop w fuel (some itor1) r.2.1 r.2.2
    else deltaLoop w fuel (m.map1.qmap.next itor1) (m.map2.qmap.next itor2) m
  | fuel + 1, itor1, itor2, m => newLoop w fuel itor1 itor2 m

/-- `cl_map_delta`. -/
def clMapDelta (w : DeltaSupplies κ) (m : DeltaMaps κ O) : Option (ClStatus × DeltaMaps κ O) :=
  deltaLoop w (m.map1.qmap.count + m.map2.qmap.count + 3) m.map1.qmap.head m.map2.qmap.head m

/-! ## One of the two sides -/

variable {M N : κ → Option O} {src dest : ClMap κ O} {blocks : Nat} {forDest forSrc : κ → Supply}

/-- The keys of some entries that are not in the other map. -/
def onlyKeys (N : κ → Option O) (cs : List (κ × Addr)) : List κ := (cs.map (·.1)).filter fun k => (N k).isNone

/-- **Pairs on their way** from `src` to `dest`. -/
structure HalfMoved (M N : κ → Option O) (blocks : Nat) (src dest : ClMap κ O) : Prop where
  split : ∀ k, (clMapGet src k = M k ∧ clMapGet dest k = none) ∨
    (clMapGet src k = none ∧ clMapGet dest k = M k ∧ N k = none)
  /-- The pool of the source has a free item for each pair that has left it. -/
  srcStored : ∃ n, dest.keys.length ≤ n ∧ Stored src n
  destStored : ∃ n, Stored dest n
  blocks : src.pool.blocks = blocks

/-- **The pairs of one side** are separated by the keys of the other. -/
structure Separated (M N : κ → Option O) (blocks : Nat) (src dest : ClMap κ O) : Prop where
  inSrc : ∀ k, clMapGet src k = if N k = none then none else M k
  inDest : ∀ k, clMapGet dest k = if N k = none then M k else none
  srcStored : ∃ n, Stored src n
  destStored : ∃ n, Stored dest n
  blocks : src.pool.blocks = blocks

/-- **One side is as it was.** -/
structure Restored (M : κ → Option O) (blocks : Nat) (src dest : ClMap κ O) : Prop where
  inSrc : ∀ k, clMapGet src k = M k
  empty : dest.qmap.entries = []
  srcStored : ∃ n, Stored src n
  destStored : ∃ n, Stored dest n
  blocks : src.pool.blocks = blocks

omit [LinearOrder κ] [DecidableEq O] in
/-- A key of the other map is not to be moved. -/
theorem onlyKeys_cons {key : κ} {item : Addr} {cs : List (κ × Addr)} (hsome : N key ≠ none) :
    onlyKeys N ((key, item) :: cs) = onlyKeys N cs := by
  unfold onlyKeys
  rw [List.map_cons, List.filter_cons_of_neg]
  rw [Option.isNone_iff_eq_none]
  exact hsome

omit [DecidableEq O] in
theorem key_not_after {s : ClMap κ O} {as bs : List (κ × Addr)} {key : κ} {item : Addr}
    (hentries : s.qmap.entries = as ++ (key, item) :: bs) : key ∉ bs.map (·.1) := by
  have hnd := s.qmap.keys_nodup
  rw [hentries, List.map_append, List.map_cons, List.nodup_append, List.nodup_cons] at hnd
  exact hnd.2.1.1

namespace HalfMoved

omit [DecidableEq O] in
/-- **A move** of a pair whose key is not in the other map; it fails if the pool has no item for it. -/
theorem move (h : HalfMoved M N blocks src dest) (forDest forSrc : κ → Supply) {as bs : List (κ × Addr)} {key : κ}
    {item : Addr} (hentries : src.qmap.entries = as ++ (key, item) :: bs) (hother : N key = none) :
    ∃ status itor dest' src', deltaMove dest src forDest forSrc item = some (status, itor, dest', src') ∧
      HalfMoved M N blocks src' dest' ∧
      ((status = .success ∧ itor = bs.head?.map (·.2) ∧ src'.qmap.entries = as ++ bs ∧
          serves dest' forDest (onlyKeys N bs) dest'.pool =
            serves dest forDest (onlyKeys N ((key, item) :: bs)) dest.pool) ∨
        (status = .insufficientMemory ∧
          serves dest forDest (onlyKeys N ((key, item) :: bs)) dest.pool = false)) := by
  obtain ⟨n, hfree, hsrc⟩ := h.srcStored
  obtain ⟨nd, hdest⟩ := h.destStored
  obtain ⟨hkey, hnext, hitem, hsome⟩ := hsrc.get_entry hentries
  obtain ⟨object, hobject⟩ := Option.ne_none_iff_exists'.mp hsome
  rw [hobject] at hitem
  obtain ⟨hin, habsent⟩ := (h.split key).resolve_right fun hgone => hsome hgone.1
  obtain ⟨removed, hremove, hstored, hentries', hget, hblocks⟩ := clMapRemoveItem_spec hsrc hentries
  obtain ⟨item', n', back, hback, hstored', hfree', -, hget', hblocks'⟩ :=
    clMapInsert_back hsrc hentries hobject hremove (forSrc key)
  obtain ⟨r, hinsert, hend⟩ := clMapInsert_spec hdest (forDest key) key object
  have honly : onlyKeys N ((key, item) :: bs) = key :: onlyKeys N bs := by
    unfold onlyKeys
    rw [List.map_cons, List.filter_cons_of_pos (by rw [hother]; rfl)]
  unfold deltaMove
  rw [hnext, hkey, Option.bind_some, hremove, Option.bind_some, hitem, hinsert, Option.bind_some, honly, serves,
    habsent]
  cases hend with
  | added item' nd' dest' _ hpool hdest' hqmap hgetDest _ =>
    rw [if_neg (Option.some_ne_none object)]
    have hrest : serves dest' forDest (onlyKeys N bs) dest'.pool = serves dest forDest (onlyKeys N bs) dest'.pool := by
      refine serves_congr _ fun k hk => ?_
      rw [hgetDest, if_neg]
      rintro rfl
      exact key_not_after hentries (List.mem_of_mem_filter hk)
    have hserves : itemFor (none : Option O).isSome dest.pool (forDest key) = some dest'.pool := hpool
    rw [hserves]
    refine ⟨_, _, dest', removed, rfl, ⟨fun k => ?_, ⟨n + 1, ?_, hstored⟩, ⟨nd', hdest'⟩,
      hblocks.trans h.blocks⟩, Or.inl ⟨rfl, rfl, hentries', hrest⟩⟩
    · rw [hget, hgetDest]
      by_cases hk : k = key
      · subst hk
        rw [if_pos rfl, if_pos rfl]
        exact Or.inr ⟨rfl, hobject.symm.trans hin, hother⟩
      · rw [if_neg hk, if_neg hk]
        exact h.split k
    · have hperm := OrdMap.perm_insert item' (hdest.get_eq_none.mp habsent)
      unfold ClMap.keys at hfree ⊢
      rw [hqmap, List.length_map, hperm.length_eq, List.length_cons]
      rw [List.length_map] at hfree
      exact Nat.succ_le_succ hfree
  | there found _ _ hfound =>
    rw [habsent] at hfound
    cases hfound
  | noItem nd' dest' hpool hdest' hqmap hgetDest _ =>
    rw [if_pos rfl, hback, Option.map_some, hpool]
    refine ⟨_, _, dest', back, rfl, ⟨fun k => ?_, ⟨n', ?_, hstored'⟩, ⟨nd', hdest'⟩,
      hblocks'.trans h.blocks⟩, Or.inr ⟨rfl, rfl⟩⟩
    · rw [hget', hgetDest]
      exact h.split k
    · unfold ClMap.keys at hfree ⊢
      rw [hqmap]
      exact hfree.trans hfree'

/-- **The way back** of everything that was moved: the heap is not asked. -/
theorem merge_back (h : HalfMoved M N blocks src dest) (forSrc forDest : κ → Supply) :
    ∃ src' dest', clMapMerge src dest forSrc forDest = some (.success, src', dest') ∧
      Restored M blocks src' dest' := by
  obtain ⟨n, hfree, hsrc⟩ := h.srcStored
  obtain ⟨nd, hdest⟩ := h.destStored
  obtain ⟨status, src', dest', keys, left, hmerge, hkeys, hend⟩ := clMapMerge_spec hsrc hdest forSrc forDest
  have hlen := congrArg List.length hkeys
  rw [List.length_append] at hlen
  obtain ⟨rfl, hblocks⟩ := hend.free (by omega)
  obtain rfl := hend.done rfl
  rw [List.append_nil] at hkeys
  have hmem : ∀ k, k ∈ keys ↔ clMapGet dest k ≠ none := fun k => by rw [← hkeys, hdest.mem_keys]
  refine ⟨src', dest', hmerge, fun k => ?_, ?_, hend.destStored, hend.srcStored, hblocks.trans h.blocks⟩
  · rw [hend.merged.inDest]
    rcases h.split k with ⟨hin, hout⟩ | ⟨hin, hout, -⟩
    · simp [hmem, hin, hout]
    · by_cases hk : M k = none <;> simp [hmem, hin, hout, hk]
  · obtain ⟨nd', hdest'⟩ := hend.srcStored
    have hempty : dest'.keys = [] := by
      refine List.eq_nil_iff_forall_not_mem.mpr fun k hk => hdest'.mem_keys.mp hk ?_
      rw [hend.merged.inSrc]
      rcases h.split k with ⟨-, hout⟩ | ⟨hin, -, -⟩
      · simp [hmem, hout]
      · by_cases hk : clMapGet dest k = none <;> simp [hmem, hin, hk]
    exact List.map_eq_nil_iff.mp hempty

omit [DecidableEq O] in
/-- The keys that are behind no cursor of the other side, and not in what is left of it. -/
theorem absent (h : HalfMoved N M blocks src dest) {key : κ} (hsome : M key ≠ none) (hkey : key ∉ src.keys) :
    N key = none := by
  obtain ⟨n, -, hsrc⟩ := h.srcStored
  rcases h.split key with ⟨hin, -⟩ | ⟨-, -, hnone⟩
  · rw [← hin]
    by_contra hne
    exact hkey (hsrc.mem_keys.mpr hne)
  · exact absurd hnone hsome

omit [DecidableEq O] in
/-- A key that is still in the source. -/
theorem ne_none_of_get (h : HalfMoved M N blocks src dest) {key : κ} (hsome : clMapGet src key ≠ none) :
    M key ≠ none := by
  rw [← ((h.split key).resolve_right fun hgone => hsome hgone.1).1]
  exact hsome

omit [DecidableEq O] in
/-- When what is left of the two maps has the same keys, the pairs are separated. -/
theorem separated (h : HalfMoved M N blocks src dest) (hin : ∀ k, N k = none → clMapGet src k = none) :
    Separated M N blocks src dest := by
  obtain ⟨n, -, hsrc⟩ := h.srcStored
  refine ⟨fun k => ?_, fun k => ?_, ⟨n, hsrc⟩, h.destStored, h.blocks⟩
  · rcases h.split k with ⟨hsame, -⟩ | ⟨hgone, -, hnone⟩
    · split
      · rename_i hnone
        exact hin k hnone
      · exact hsame
    · rw [if_pos hnone, hgone]
  · rcases h.split k with ⟨hsame, hout⟩ | ⟨-, hout, hnone⟩
    · split
      · rename_i hnone
        rw [hout, ← hsame, hin k hnone]
      · exact hout
    · rw [if_pos hnone, hout]

end HalfMoved

/-! ## Both sides -/

variable {M1 M2 : κ → Option O} {blocks1 blocks2 : Nat} {m : DeltaMaps κ O} {as1 bs1 as2 bs2 : List (κ × Addr)}
  {w : DeltaSupplies κ} {served1 served2 : Bool}

/-- **All or nothing**: all if there is an item for each pair that is to be moved from the two maps, and otherwise
nothing. -/
def AllOrNothing (M1 M2 : κ → Option O) (blocks1 blocks2 : Nat) (served1 served2 : Bool)
    (result : Option (ClStatus × DeltaMaps κ O)) : Prop :=
  ∃ status m', result = some (status, m') ∧
    ((status = .success ∧ (served1 = true ∧ served2 = true) ∧
        Separated M1 M2 blocks1 m'.map1 m'.old ∧ Separated M2 M1 blocks2 m'.map2 m'.new) ∨
      (status = .insufficientMemory ∧ ¬(served1 = true ∧ served2 = true) ∧
        Restored M1 blocks1 m'.map1 m'.old ∧ Restored M2 blocks2 m'.map2 m'.new))

/-- **The loops**: behind the cursors of the two maps are their common keys, and the pools have an item for each key
that is still to be moved if they had one for each. -/
structure DeltaInv (M1 M2 : κ → Option O) (blocks1 blocks2 : Nat) (served1 served2 : Bool) (w : DeltaSupplies κ)
    (m : DeltaMaps κ O) (as1 bs1 as2 bs2 : List (κ × Addr)) : Prop where
  one : HalfMoved M1 M2 blocks1 m.map1 m.old
  two : HalfMoved M2 M1 blocks2 m.map2 m.new
  entries1 : m.map1.qmap.entries = as1 ++ bs1
  entries2 : m.map2.qmap.entries = as2 ++ bs2
  common : as1.map (·.1) = as2.map (·.1)
  serves1 : serves m.old w.old (onlyKeys M2 bs1) m.old.pool = served1
  serves2 : serves m.new w.new (onlyKeys M1 bs2) m.new.pool = served2

namespace DeltaInv

/-- Everything goes back after a move that failed. -/
theorem revert (h1 : HalfMoved M1 M2 blocks1 m.map1 m.old) (h2 : HalfMoved M2 M1 blocks2 m.map2 m.new)
    (hnot : ¬(served1 = true ∧ served2 = true)) :
    AllOrNothing M1 M2 blocks1 blocks2 served1 served2
      ((ClMaps.revert w m).map fun m => (ClStatus.insufficientMemory, m)) := by
  obtain ⟨map1, old, hmerge1, hrestored1⟩ := h1.merge_back w.revert1 w.revertOld
  obtain ⟨map2, new, hmerge2, hrestored2⟩ := h2.merge_back w.revert2 w.revertNew
  refine ⟨.insufficientMemory, ⟨map1, map2, new, old⟩, ?_,
    Or.inr ⟨rfl, hnot, hrestored1, hrestored2⟩⟩
  unfold ClMaps.revert
  rw [hmerge1, Option.bind_some, hmerge2]
  rfl

omit [DecidableEq O] in
/-- The key at a cursor is not behind it. -/
theorem key_not_behind {key : κ} {item : Addr} {cs : List (κ × Addr)} {s : ClMap κ O}
    (hentries : s.qmap.entries = as1 ++ (key, item) :: cs) : key ∉ as1.map (·.1) := by
  have hnd := s.qmap.keys_nodup
  rw [hentries, List.map_append, List.map_cons] at hnd
  intro hmem
  exact List.disjoint_of_nodup_append hnd hmem (List.mem_cons_self ..)

omit [DecidableEq O] in
/-- **The key at the first cursor** is not in the second map when it is not at its cursor or behind that. -/
theorem absent1 (h : DeltaInv M1 M2 blocks1 blocks2 served1 served2 w m as1 bs1 as2 bs2) {key : κ} {item : Addr}
    {cs : List (κ × Addr)} (hbs : bs1 = (key, item) :: cs) (hother : key ∉ bs2.map (·.1)) : M2 key = none := by
  have hentries := h.entries1
  rw [hbs] at hentries
  obtain ⟨n, -, hsrc⟩ := h.one.srcStored
  obtain ⟨-, -, -, hsome⟩ := hsrc.get_entry hentries
  refine h.two.absent (h.one.ne_none_of_get hsome) fun hmem => ?_
  unfold ClMap.keys at hmem
  rw [h.entries2, List.map_append, ← h.common] at hmem
  rcases List.mem_append.mp hmem with hmem | hmem
  · exact key_not_behind hentries hmem
  · exact hother hmem

omit [DecidableEq O] in
theorem absent2 (h : DeltaInv M1 M2 blocks1 blocks2 served1 served2 w m as1 bs1 as2 bs2) {key : κ} {item : Addr}
    {cs : List (κ × Addr)} (hbs : bs2 = (key, item) :: cs) (hother : key ∉ bs1.map (·.1)) : M1 key = none := by
  have hswap : DeltaInv M2 M1 blocks2 blocks1 served2 served1 { w with new := w.old, old := w.new }
      ⟨m.map2, m.map1, m.old, m.new⟩ as2 bs2 as1 bs1 :=
    ⟨h.two, h.one, h.entries2, h.entries1, h.common.symm, h.serves2, h.serves1⟩
  exact hswap.absent1 hbs hother

/-- A turn of a loop on the first map. -/
theorem moveOld (h : DeltaInv M1 M2 blocks1 blocks2 served1 served2 w m as1 bs1 as2 bs2) {key : κ} {item : Addr}
    {cs : List (κ × Addr)} (hbs : bs1 = (key, item) :: cs) (hother : key ∉ bs2.map (·.1)) :
    ∃ status itor m', ClMaps.moveOld w m item = some (status, itor, m') ∧
      ((status = .success ∧ itor = cs.head?.map (·.2) ∧
          DeltaInv M1 M2 blocks1 blocks2 served1 served2 w m' as1 cs as2 bs2) ∨
        (status ≠ .success ∧ AllOrNothing M1 M2 blocks1 blocks2 served1 served2
          ((ClMaps.revert w m').map fun m => (status, m)))) := by
  have hentries := h.entries1
  rw [hbs] at hentries
  obtain ⟨status, itor, old, map1, hmove, hmoved, hend⟩ := h.one.move w.old w.back1 hentries (h.absent1 hbs hother)
  refine ⟨status, itor, { m with old := old, map1 := map1 }, by rw [ClMaps.moveOld, hmove, Option.map_some], ?_⟩
  have hserves := h.serves1
  rw [hbs] at hserves
  rcases hend with ⟨rfl, rfl, hentries', hrest⟩ | ⟨rfl, hnone⟩
  · exact Or.inl ⟨rfl, rfl, hmoved, h.two, hentries', h.entries2, h.common, hrest.trans hserves, h.serves2⟩
  · refine Or.inr ⟨nofun, revert hmoved h.two fun hserved => ?_⟩
    rw [← hserves, hnone] at hserved
    exact Bool.false_ne_true hserved.1

/-- A turn of a loop on the second map. -/
theorem moveNew (h : DeltaInv M1 M2 blocks1 blocks2 served1 served2 w m as1 bs1 as2 bs2) {key : κ} {item : Addr}
    {cs : List (κ × Addr)} (hbs : bs2 = (key, item) :: cs) (hother : key ∉ bs1.map (·.1)) :
    ∃ status itor m', ClMaps.moveNew w m item = some (status, itor, m') ∧
      ((status = .success ∧ itor = cs.head?.map (·.2) ∧
          DeltaInv M1 M2 blocks1 blocks2 served1 served2 w m' as1 bs1 as2 cs) ∨
        (status ≠ .success ∧ AllOrNothing M1 M2 blocks1 blocks2 served1 served2
          ((ClMaps.revert w m').map fun m => (status, m)))) := by
  have hentries := h.entries2
  rw [hbs] at hentries
  obtain ⟨status, itor, new, map2, hmove, hmoved, hend⟩ := h.two.move w.new w.back2 hentries (h.absent2 hbs hother)
  refine ⟨status, itor, { m with new := new, map2 := map2 }, by rw [ClMaps.moveNew, hmove, Option.map_some], ?_⟩
  have hserves := h.serves2
  rw [hbs] at hserves
  rcases hend with ⟨rfl, rfl, hentries', hrest⟩ | ⟨rfl, hnone⟩
  · exact Or.inl ⟨rfl, rfl, h.one, hmoved, h.entries1, hentries', h.common, h.serves1, hrest.trans hserves⟩
  · refine Or.inr ⟨nofun, revert h.one hmoved fun hserved => ?_⟩
    rw [← hserves, hnone] at hserved
    exact Bool.false_ne_true hserved.2

omit [DecidableEq O] in
/-- **The end**: what is left in the two maps are the common keys. -/
theorem done (h : DeltaInv M1 M2 blocks1 blocks2 served1 served2 w m as1 [] as2 []) :
    AllOrNothing M1 M2 blocks1 blocks2 served1 served2 (some (.success, m)) := by
  obtain ⟨n1, -, hsrc1⟩ := h.one.srcStored
  obtain ⟨n2, -, hsrc2⟩ := h.two.srcStored
  have hkeys : m.map1.keys = m.map2.keys := by
    unfold ClMap.keys
    rw [h.entries1, h.entries2, List.append_nil, List.append_nil, h.common]
  have hsame : ∀ k, clMapGet m.map1 k = none ↔ clMapGet m.map2 k = none := by
    intro k
    have hmem := hsrc1.mem_keys (k := k)
    rw [hkeys, hsrc2.mem_keys] at hmem
    exact not_iff_not.mp hmem.symm
  refine ⟨.success, m, rfl, Or.inl ⟨rfl, ⟨h.serves1.symm, h.serves2.symm⟩, h.one.separated fun k hnone => ?_,
    h.two.separated fun k hnone => ?_⟩⟩
  · rw [hsame]
    rcases h.two.split k with ⟨hin, -⟩ | ⟨hin, -⟩
    · exact hin.trans hnone
    · exact hin
  · rw [← hsame]
    rcases h.one.split k with ⟨hin, -⟩ | ⟨hin, -⟩
    · exact hin.trans hnone
    · exact hin

/-! ### The three loops -/

/-- The loop over the remainder of the first map. -/
theorem oldLoop : ∀ (bs : List (κ × Addr)) {m : DeltaMaps κ O} {fuel : Nat}, bs.length < fuel →
    DeltaInv M1 M2 blocks1 blocks2 served1 served2 w m as1 bs as2 [] →
      AllOrNothing M1 M2 blocks1 blocks2 served1 served2 (ClMaps.oldLoop w fuel (bs.head?.map (·.2)) m)
  | _, _, 0, hfuel, _ => absurd hfuel (Nat.not_lt_zero _)
  | [], m, fuel + 1, _, h => h.done
  | (key, item) :: bs, m, fuel + 1, hfuel, h => by
    obtain ⟨status, itor, m', hmove, hend⟩ := h.moveOld (w := w) rfl List.not_mem_nil
    rw [List.head?_cons, Option.map_some, ClMaps.oldLoop, hmove, Option.bind_some]
    rcases hend with ⟨rfl, rfl, h'⟩ | ⟨hfails, hreverted⟩
    · rw [if_neg (not_not.mpr rfl)]
      exact oldLoop bs (Nat.lt_of_succ_lt_succ hfuel) h'
    · rw [if_pos hfails]
      exact hreverted

/-- The loop over the remainder of the second map, and the one after it; one of the two maps has none. -/
theorem newLoop : ∀ (bs : List (κ × Addr)) {bs1 : List (κ × Addr)} {m : DeltaMaps κ O} {fuel : Nat},
    bs1.length + bs.length + 1 < fuel → (bs1 = [] ∨ bs = []) →
      DeltaInv M1 M2 blocks1 blocks2 served1 served2 w m as1 bs1 as2 bs →
      AllOrNothing M1 M2 blocks1 blocks2 served1 served2
        (ClMaps.newLoop w fuel (bs1.head?.map (·.2)) (bs.head?.map (·.2)) m)
  | _, _, _, 0, hfuel, _, _ => absurd hfuel (Nat.not_lt_zero _)
  | [], bs1, m, fuel + 1, hfuel, _, h => by
    rw [List.head?_nil, Option.map_none, ClMaps.newLoop]
    exact oldLoop bs1 (by rw [List.length_nil] at hfuel; omega) h
  | (key, item) :: bs, bs1, m, fuel + 1, hfuel, hone, h => by
    obtain rfl : bs1 = [] := hone.resolve_right (List.cons_ne_nil _ _)
    obtain ⟨status, itor, m', hmove, hend⟩ := h.moveNew (w := w) rfl List.not_mem_nil
    rw [List.head?_cons, Option.map_some, ClMaps.newLoop, hmove, Option.bind_some]
    rcases hend with ⟨rfl, rfl, h'⟩ | ⟨hfails, hreverted⟩
    · rw [if_neg (not_not.mpr rfl)]
      exact newLoop bs (by rw [List.length_cons] at hfuel; omega) (Or.inl rfl) h'
    · rw [if_pos hfails]
      exact hreverted

omit [DecidableEq O] in
/-- A key before the one at the cursor of a map is not behind the cursor. -/
theorem key_not_ahead {s : ClMap κ O} {as cs : List (κ × Addr)} {key key' : κ} {item : Addr}
    (hentries : s.qmap.entries = as ++ (key', item) :: cs) (hlt : key < key') :
    key ∉ ((key', item) :: cs).map (·.1) := by
  have hsorted := s.qmap.sorted
  rw [hentries, List.pairwise_append, List.pairwise_cons] at hsorted
  obtain ⟨-, ⟨hbehind, -⟩, -⟩ := hsorted
  intro hmem
  obtain ⟨p, hp, rfl⟩ := List.mem_map.mp hmem
  rcases List.mem_cons.mp hp with rfl | hp
  · exact lt_irrefl _ hlt
  · exact lt_asymm hlt (hbehind p hp)

omit [DecidableEq O] in
/-- Both cursors go on from a common key. -/
theorem skip {key : κ} {item1 item2 : Addr} {cs1 cs2 : List (κ × Addr)}
    (h : DeltaInv M1 M2 blocks1 blocks2 served1 served2 w m as1 ((key, item1) :: cs1) as2 ((key, item2) :: cs2)) :
    DeltaInv M1 M2 blocks1 blocks2 served1 served2 w m (as1 ++ [(key, item1)]) cs1 (as2 ++ [(key, item2)]) cs2 := by
  obtain ⟨n1, -, hsrc1⟩ := h.one.srcStored
  obtain ⟨n2, -, hsrc2⟩ := h.two.srcStored
  have hsome1 := h.one.ne_none_of_get (hsrc1.get_entry h.entries1).2.2.2
  have hsome2 := h.two.ne_none_of_get (hsrc2.get_entry h.entries2).2.2.2
  refine ⟨h.one, h.two, ?_, ?_, ?_, ?_, ?_⟩
  · rw [h.entries1, List.append_assoc, List.singleton_append]
  · rw [h.entries2, List.append_assoc, List.singleton_append]
  · rw [List.map_append, List.map_append, h.common]
    rfl
  · rw [← h.serves1, onlyKeys_cons hsome2]
  · rw [← h.serves2, onlyKeys_cons hsome1]

/-- **The loop over both maps**, by the number of pairs that it has not come to. -/
theorem deltaLoop : ∀ (fuel : Nat) {bs1 bs2 as1 as2 : List (κ × Addr)} {m : DeltaMaps κ O},
    bs1.length + bs2.length + 2 < fuel → DeltaInv M1 M2 blocks1 blocks2 served1 served2 w m as1 bs1 as2 bs2 →
      AllOrNothing M1 M2 blocks1 blocks2 served1 served2
        (ClMaps.deltaLoop w fuel (bs1.head?.map (·.2)) (bs2.head?.map (·.2)) m)
  | 0, _, _, _, _, _, hfuel, _ => absurd hfuel (Nat.not_lt_zero _)
  | fuel + 1, [], bs2, as1, as2, m, hfuel, h => by
    have hloop : ClMaps.deltaLoop w (fuel + 1) none (bs2.head?.map (·.2)) m =
        ClMaps.newLoop w fuel none (bs2.head?.map (·.2)) m := rfl
    rw [List.head?_nil, Option.map_none, hloop]
    exact newLoop bs2 (Nat.lt_of_succ_lt_succ hfuel) (Or.inl rfl) h
  | fuel + 1, (key1, item1) :: cs1, [], as1, as2, m, hfuel, h =>
    newLoop [] (Nat.lt_of_succ_lt_succ hfuel) (Or.inr rfl) h
  | fuel + 1, (key1, item1) :: cs1, (key2, item2) :: cs2, as1, as2, m, hfuel, h => by
    obtain ⟨n1, -, hsrc1⟩ := h.one.srcStored
    obtain ⟨n2, -, hsrc2⟩ := h.two.srcStored
    obtain ⟨hkey1, hnext1, -, -⟩ := hsrc1.get_entry h.entries1
    obtain ⟨hkey2, hnext2, -, -⟩ := hsrc2.get_entry h.entries2
    rw [List.length_cons, List.length_cons] at hfuel
    rw [List.head?_cons, Option.map_some, List.head?_cons, Option.map_some, ClMaps.deltaLoop, hkey1,
      Option.bind_some, hkey2, Option.bind_some]
    rcases lt_trichotomy key1 key2 with hlt | heq | hgt
    · obtain ⟨status, itor, m', hmove, hend⟩ := h.moveOld (w := w) rfl (key_not_ahead h.entries2 hlt)
      rw [if_pos hlt, hmove, Option.bind_some]
      rcases hend with ⟨rfl, rfl, h'⟩ | ⟨hfails, hreverted⟩
      · rw [if_neg (not_not.mpr rfl)]
        exact deltaLoop fuel (by rw [List.length_cons]; omega) h'
      · rw [if_pos hfails]
        exact hreverted
    · subst heq
      rw [if_neg (lt_irrefl _), if_neg (lt_irrefl _), hnext1, hnext2]
      exact deltaLoop fuel (by omega) h.skip
    · obtain ⟨status, itor, m', hmove, hend⟩ := h.moveNew (w := w) rfl (key_not_ahead h.entries1 hgt)
      rw [if_neg (lt_asymm hgt), if_pos hgt, hmove, Option.bind_some]
      rcases hend with ⟨rfl, rfl, h'⟩ | ⟨hfails, hreverted⟩
      · rw [if_neg (not_not.mpr rfl)]
        exact deltaLoop fuel (by rw [List.length_cons]; omega) h'
      · rw [if_pos hfails]
        exact hreverted

end DeltaInv

/-! ## The call -/

omit [DecidableEq O] in
/-- Nothing has been moved. -/
theorem HalfMoved.start {n nd : Nat} (hsrc : Stored src n) (hdest : Stored dest nd)
    (hempty : dest.qmap.entries = []) (N : κ → Option O) :
    HalfMoved (clMapGet src) N src.pool.blocks src dest := by
  have hkeys : dest.keys = [] := List.map_eq_nil_iff.mpr hempty
  refine ⟨fun k => Or.inl ⟨rfl, ?_⟩, ⟨n, ?_, hsrc⟩, ⟨nd, hdest⟩, rfl⟩
  · by_contra hne
    have hmem := hdest.mem_keys.mpr hne
    rw [hkeys] at hmem
    cases hmem
  · rw [hkeys]
    exact Nat.zero_le n

/-- **The difference of two maps** is all or nothing: for all maps with non-`NULL` objects and empty maps for the
result, whatever the heap supplies at each call.  The pairs are separated by the keys of the other map if the pools
of the empty maps have an item for each pair that is to be moved; otherwise the two maps have the pairs that they had
and the others are empty.  The pools of the two maps have the blocks they had. -/
theorem delta_all_or_nothing (m : DeltaMaps κ O) (n1 n2 n3 n4 : Nat) (h1 : Stored m.map1 n1)
    (h2 : Stored m.map2 n2) (h3 : Stored m.new n3) (h4 : Stored m.old n4) (hnew : m.new.qmap.entries = [])
    (hold : m.old.qmap.entries = []) (w : DeltaSupplies κ) :
    AllOrNothing (clMapGet m.map1) (clMapGet m.map2) m.map1.pool.blocks m.map2.pool.blocks
      (serves m.old w.old (onlyKeys (clMapGet m.map2) m.map1.qmap.entries) m.old.pool)
      (serves m.new w.new (onlyKeys (clMapGet m.map1) m.map2.qmap.entries) m.new.pool) (clMapDelta w m) := by
  have hinv : DeltaInv (clMapGet m.map1) (clMapGet m.map2) m.map1.pool.blocks m.map2.pool.blocks
      (serves m.old w.old (onlyKeys (clMapGet m.map2) m.map1.qmap.entries) m.old.pool)
      (serves m.new w.new (onlyKeys (clMapGet m.map1) m.map2.qmap.entries) m.new.pool) w m
      [] m.map1.qmap.entries [] m.map2.qmap.entries :=
    ⟨.start h1 h4 hold _, .start h2 h3 hnew _, rfl, rfl, rfl, rfl, rfl⟩
  exact hinv.deltaLoop (m.map1.qmap.count + m.map2.qmap.count + 3) (Nat.lt_succ_self _)

end

/-- A heap that has no memory. -/
def DeltaSupplies.exhausted : DeltaSupplies Nat :=
  let exhausted : Nat → Supply := fun _ => ⟨false, fun _ => .fail⟩
  ⟨exhausted, exhausted, exhausted, exhausted, exhausted, exhausted, exhausted, exhausted⟩

/-- A map with objects under the keys 1, 2 and 3. -/
def threeMap : ClMap Nat Nat :=
  ((clMapInsert sampleMap plenty 2 (some 8)).bind fun r => clMapInsert r.2 plenty 3 (some 9)).elim sampleMap (·.2)

theorem threeMap_stored : ∃ n, Stored threeMap n := by
  obtain ⟨n, hstored⟩ := sampleMap_stored
  obtain ⟨r, hinsert, hend⟩ := clMapInsert_spec hstored plenty 2 8
  obtain ⟨n', hstored'⟩ := hend.stored
  obtain ⟨r', hinsert', hend'⟩ := clMapInsert_spec hstored' plenty 3 9
  unfold threeMap
  rw [hinsert, Option.bind_some, hinsert']
  exact hend'.stored

/-- **The third move fails**: the pool of `p_old` has two items, and there is no memory for more. -/
theorem delta_all_or_nothing_rollback :
    serves emptyMap DeltaSupplies.exhausted.old [1, 2] emptyMap.pool = true ∧
    serves emptyMap DeltaSupplies.exhausted.old (onlyKeys (clMapGet emptyMap) threeMap.qmap.entries)
      emptyMap.pool = false ∧
    AllOrNothing (clMapGet threeMap) (clMapGet emptyMap) threeMap.pool.blocks emptyMap.pool.blocks
      (serves emptyMap DeltaSupplies.exhausted.old (onlyKeys (clMapGet emptyMap) threeMap.qmap.entries) emptyMap.pool)
      (serves emptyMap DeltaSupplies.exhausted.new (onlyKeys (clMapGet threeMap) emptyMap.qmap.entries) emptyMap.pool)
      (clMapDelta .exhausted ⟨threeMap, emptyMap, emptyMap, emptyMap⟩) := by
  obtain ⟨n, hthree⟩ := threeMap_stored
  obtain ⟨hnothing, m, hempty⟩ := emptyMap_stored
  exact ⟨by decide +kernel, by decide +kernel, delta_all_or_nothing ⟨threeMap, emptyMap, emptyMap, emptyMap⟩
    n m m m hthree hempty hempty hempty hnothing hnothing .exhausted⟩

end MlnxLib.ClMaps
