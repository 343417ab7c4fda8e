import MlnxLib.Complib.ClMapTree
import MlnxLib.Complib.QmapStore
import MlnxLib.Lib.Simulation

/-!
# Maps refine finite maps of objects

Runs of calls on a `cl_map_t` with its tree and its pool, where an allocation may fail at any insertion.

* `MapCall`, `mapStep` — the calls.
* `Agrees t M` — reading the map in any way gives the finite map `M` from keys to objects, and the pool has all
  other items.
* `Effect` — what a call returns, and what it does to the finite map.
* `Refines` — the same at each step of a run.

Principal result: `cl_map_refines` — every run from `cl_map_init` returns, and is one of the finite map.
-/

set_option autoImplicit false

namespace MlnxLib.MapTrees

open QcPool Qmaps Runs

/-- The calls on a map; an insertion has the results of the allocations that it may ask for. -/
inductive MapCall (κ O : Type) where
  | insert (supply : Supply) (key : κ) (object : O)
  | get (key : κ)
  | getNext (key : κ)
  | remove (key : κ)
  | removeItem (itor : MapNode)
  | removeAll

section

variable {κ O : Type} [LinearOrder κ]

/-- A call: the object that it returns, if it does, and the map after it. -/
def mapStep (t : ClMap κ O) : MapCall κ O → Option (Option O × ClMap κ O)
  | .insert supply key object => clMapInsert t supply key (some object)
  | .get key => (clMapGet t key).map fun r => (r, t)
  | .getNext key => (clMapGetNext t key).map fun r => (r, t)
  | .remove key => clMapRemove t key
  | .removeItem itor => (clMapRemoveItem t itor).map fun t => (none, t)
  | .removeAll => (clMapRemoveAll t).map fun t => (none, t)

/-- What the callers see to: an iterator is the end of the map, or an item of it. -/
def MapLegal (t : ClMap κ O) : MapCall κ O → Prop
  | .removeItem itor => itor = theQmap.nil ∨ itor ∈ theQmap.items t.qmap
  | _ => True

instance (t : ClMap κ O) : ∀ call, Decidable (MapLegal t call)
  | .removeItem _ => inferInstanceAs (Decidable (_ ∨ _))
  | .insert .. => isTrue trivial
  | .get _ => isTrue trivial
  | .getNext _ => isTrue trivial
  | .remove _ => isTrue trivial
  | .removeAll => isTrue trivial

/-- The pairs of a map, with `cl_map_head`, `cl_map_next`, `cl_map_key` and `cl_map_obj`. -/
def clMapPairs (t : ClMap κ O) : Option (List (κ × Option O)) :=
  clQmapApplyFunc t.qmap theQmap (fun pairs x => pairs ++ [(t.qmap.key x, clQmapObj t.object x)]) []

/-! ## The finite map -/

/-- **Reading the map** gives the finite map, and the items that are not in it are in the pool. -/
structure Agrees (t : ClMap κ O) (M : κ → Option O) : Prop where
  get : ∀ key, clMapGet t key = some (M key)
  pairs : ∃ l : List (κ × O), clMapPairs t = some (l.map fun p => (p.1, some p.2)) ∧
    l.Pairwise (fun p q => p.1 < q.1) ∧ (∀ k o, M k = some o ↔ (k, o) ∈ l) ∧ clMapCount t = l.length
  conserved : t.pool.pool.freeList.count + clMapCount t = t.pool.pool.numObjects.toNat

/-- The object of the least greater key, or `NULL`. -/
def IsNextObject (M : κ → Option O) (key : κ) (r : Option O) : Prop :=
  (r = none ∧ ∀ k, key < k → M k = none) ∨
    ∃ k, key < k ∧ M k = r ∧ r ≠ none ∧ ∀ k', key < k' → M k' ≠ none → k ≤ k'

/-- The pool has no free item, and cannot grow: its heap gives nothing, or it has as many objects as it may. -/
def Exhausted (pool : PoolSystem) (supply : Supply) : Prop :=
  pool.pool.freeList.count = 0 ∧ (pool.pool.growSize = 0 ∨ NoGrowth pool supply)

/-- **What a call returns**, and what it does to the finite map.  An insertion may return `NULL` if the pool has no
free item and cannot grow. -/
def Effect (t : ClMap κ O) (M : κ → Option O) : MapCall κ O → Option O → (κ → Option O) → Prop
  | .insert supply key object, r, M' =>
    (M key = none ∧ r = some object ∧ M' = Function.update M key (some object)) ∨
      (M key ≠ none ∧ r = M key ∧ M' = M) ∨ (Exhausted t.pool supply ∧ r = none ∧ M' = M)
  | .get key, r, M' => r = M key ∧ M' = M
  | .getNext key, r, M' => IsNextObject M key r ∧ M' = M
  | .remove key, r, M' => r = M key ∧ M' = Function.update M key none
  | .removeItem itor, r, M' =>
    r = none ∧ M' = if itor = theQmap.nil then M else Function.update M (t.qmap.key itor) none
  | .removeAll, r, M' => r = none ∧ M' = fun _ => none

/-- **A run of the finite map** next to that of the code, with what its calls returned and left. -/
def Refines (t : ClMap κ O) (M : κ → Option O) : List (MapCall κ O) → List (Option O × ClMap κ O) → Prop :=
  Follows (fun M t => Agrees t M) (fun M t call r _ M' => Effect t M call r M') M t

/-- The map is seen as a map through the interface, which holds the finite map. -/
def Holds (t : ClMap κ O) (M : κ → Option O) : Prop :=
  ∃ s n, Shows t s ∧ ClMaps.Stored s n ∧ ∀ k, ClMaps.clMapGet s k = M k

variable {t t' : ClMap κ O} {s : ClMaps.ClMap κ O} {M : κ → Option O} {n : Nat} {key : κ} {a : Addr}

theorem Shows.count_eq (h : Shows t s) : clMapCount t = s.qmap.values.length := by
  rw [clMapCount, h.isQmap.count, List.length_map]

theorem Shows.freeCount (h : Shows t s) (hstored : ClMaps.Stored s n) : t.pool.pool.freeList.count = n := by
  obtain ⟨free, rfl, hacc⟩ := hstored.stock.accounts
  rw [h.pool, hacc.list.count, List.length_map]

theorem Shows.conserved (h : Shows t s) (hstored : ClMaps.Stored s n) :
    t.pool.pool.freeList.count + clMapCount t = t.pool.pool.numObjects.toNat := by
  obtain ⟨free, hlen, hacc⟩ := hstored.stock.accounts
  rw [h.freeCount hstored, h.count_eq, h.pool, ← hacc.count, hlen, hstored.stock.out.length_eq]

/-- **A pool without an item** for an insertion is exhausted. -/
theorem Shows.exhausted (h : Shows t s) (hstored : ClMaps.Stored s n) {supply : Supply}
    (hnone : ClMaps.itemFor false s.pool supply = none) : Exhausted t.pool supply := by
  obtain ⟨r, pool, n', hget, -⟩ := hstored.stock.get supply
  unfold ClMaps.itemFor at hnone
  rw [hget] at hnone
  cases r with
  | some item => cases hnone
  | none =>
    obtain ⟨free, -, hacc⟩ := hstored.stock.accounts
    obtain ⟨rfl, hgrow⟩ := (getBy_spec takes_removeHead hacc hget).2.2 rfl
    rw [h.pool]
    exact ⟨hacc.list.count, hgrow⟩

/-- The objects of the items are those of their keys. -/
theorem Shows.object_eq (h : Shows t s) (ha : a ∈ s.qmap.values) :
    t.object a = ClMaps.clMapGet s (t.qmap.key (.item a)) := by
  rw [ClMaps.clMapGet, h.get_iff.mpr ⟨ha, rfl⟩, Option.bind_some, h.object]

omit [LinearOrder κ] in
theorem foldl_pairs (f : MapNode → κ × Option O) : ∀ (items : List MapNode) (pairs : List (κ × Option O)),
    items.foldl (fun pairs x => pairs ++ [f x]) pairs = pairs ++ items.map f
  | [], pairs => (List.append_nil pairs).symm
  | x :: items, pairs => by
    rw [List.foldl_cons, foldl_pairs f items, List.map_cons, List.append_assoc, List.singleton_append]

theorem exists_pairs (h : Shows t s) (hstored : ClMaps.Stored s n) : ∀ items ⊆ s.qmap.values,
    ∃ l : List (κ × O), l.map (fun p => (p.1, some p.2)) =
      items.map fun a => (t.qmap.key (.item a), t.object a) := by
  intro items hitems
  induction items with
  | nil => exact ⟨[], rfl⟩
  | cons a items ih =>
    obtain ⟨l, hl⟩ := ih fun b hb => hitems (List.mem_cons_of_mem _ hb)
    have hne := hstored.objects a (hitems (List.mem_cons_self ..))
    rw [← h.object] at hne
    obtain ⟨o, ho⟩ := Option.ne_none_iff_exists'.mp hne
    exact ⟨(t.qmap.key (.item a), o) :: l, by rw [List.map_cons, List.map_cons, hl, ho]⟩

/-- **A map that holds a finite map** is read as it. -/
theorem Holds.agrees (h : Holds t M) : Agrees t M := by
  obtain ⟨s, n, h, hstored, hget⟩ := h
  refine ⟨fun key => by rw [h.get, hget], ?_, h.conserved hstored⟩
  obtain ⟨l, hl⟩ := exists_pairs h hstored s.qmap.values (List.Subset.refl _)
  have hkeys : l.map (·.1) = (s.qmap.values.map .item).map t.qmap.key := by
    have hfst := congrArg (List.map Prod.fst) hl
    rw [List.map_map, List.map_map] at hfst
    rw [List.map_map]
    exact hfst
  refine ⟨l, ?_, ?_, fun k o => ?_, ?_⟩
  · rw [clMapPairs, clQmapApplyFunc_spec h.isQmap, foldl_pairs, hl, List.nil_append, List.map_map]
    rfl
  · have hsorted : (l.map (·.1)).Pairwise (· < ·) := by
      rw [hkeys, List.pairwise_map]
      exact h.isQmap.sorted
    exact List.pairwise_map.mp hsorted
  · have hmem : (k, o) ∈ l ↔ (k, some o) ∈ l.map fun p => (p.1, some p.2) := by
      rw [List.mem_map]
      constructor
      · intro hko
        exact ⟨(k, o), hko, rfl⟩
      · rintro ⟨⟨k', o'⟩, hko, heq⟩
        obtain ⟨rfl, ho⟩ := Prod.mk.inj heq
        have ho' : o' = o := Option.some.inj ho
        exact ho' ▸ hko
    rw [hmem, hl, List.mem_map, ← hget]
    constructor
    · intro hsome
      obtain ⟨a, ha, ho⟩ := Option.bind_eq_some_iff.mp hsome
      obtain ⟨hin, rfl⟩ := h.get_iff.mp ha
      exact ⟨a, hin, by rw [h.object, ho]⟩
    · rintro ⟨a, ha, heq⟩
      obtain ⟨rfl, ho⟩ := Prod.mk.inj heq
      rw [← h.object_eq ha, ho]
  · have hlen := congrArg List.length hkeys
    rw [List.length_map, List.length_map, List.length_map] at hlen
    rw [h.count_eq, hlen]

/-! ## The calls -/

/-- A call that returns, and does to the finite map what it should. -/
def Performs (t : ClMap κ O) (M : κ → Option O) (call : MapCall κ O) : Prop :=
  ∃ r t' M', mapStep t call = some (r, t') ∧ Effect t M call r M' ∧ Holds t' M'

theorem Holds.insert (h : Holds t M) (supply : Supply) (key : κ) (object : O) :
    Performs t M (.insert supply key object) := by
  obtain ⟨s, n, h, hstored, hget⟩ := h
  obtain ⟨⟨r, s'⟩, hinsert, hend⟩ := ClMaps.clMapInsert_spec hstored supply key object
  obtain ⟨t', hstep, h'⟩ := h.insert hstored supply key (some object) hinsert
  cases hend with
  | added item n' s' habsent hpool hstored' hqmap hget' hfree =>
    rw [hget] at habsent
    refine ⟨_, t', _, hstep, Or.inl ⟨habsent, rfl, rfl⟩, s', n', h', hstored', fun k => ?_⟩
    rw [hget', hget, Function.update_apply]
  | there found n' s' hfound hpool hstored' hqmap hget' hfree =>
    rw [hget] at hfound
    refine ⟨_, t', M, hstep, Or.inr (Or.inl ⟨hfound ▸ Option.some_ne_none found, hfound.symm, rfl⟩), s', n', h',
      hstored', fun k => ?_⟩
    rw [hget', hget]
  | noItem n' s' hpool hstored' hqmap hget' =>
    refine ⟨_, t', M, hstep, Or.inr (Or.inr ⟨h.exhausted hstored (hpool false), rfl, rfl⟩), s', n', h', hstored',
      fun k => ?_⟩
    rw [hget', hget]

theorem Holds.get (h : Holds t M) (key : κ) : Performs t M (.get key) := by
  have hread := h.agrees.get key
  exact ⟨M key, t, M, by rw [mapStep, hread, Option.map_some], ⟨rfl, rfl⟩, h⟩

theorem Holds.getNext (h : Holds t M) (key : κ) : Performs t M (.getNext key) := by
  obtain ⟨s, n, hshows, hstored, hget⟩ := h
  obtain ⟨asN, bsN, hsplit, has, hbs, hnext⟩ := clQmapGetNext_spec hshows.isQmap key
  obtain ⟨as, bs, hvalues, rfl, rfl⟩ := List.map_eq_append_iff.mp hsplit
  -- the greater keys with objects are those of the items behind
  have hbehind : ∀ k, key < k → M k ≠ none → ∃ b ∈ bs, t.qmap.key (.item b) = k := by
    intro k hlt hne
    obtain ⟨o, ho⟩ := Option.ne_none_iff_exists'.mp hne
    rw [← hget] at ho
    obtain ⟨b, hb, -⟩ := Option.bind_eq_some_iff.mp ho
    obtain ⟨hmem, rfl⟩ := hshows.get_iff.mp hb
    rw [hvalues] at hmem
    refine ⟨b, (List.mem_append.mp hmem).resolve_left fun hin => ?_, rfl⟩
    exact absurd (has _ (List.mem_map_of_mem hin)) (not_le.mpr hlt)
  cases bs with
  | nil =>
    refine ⟨none, t, M, ?_, ⟨Or.inl ⟨rfl, fun k hlt => ?_⟩, rfl⟩, s, n, hshows, hstored, hget⟩
    · rw [mapStep, clMapGetNext, hnext]
      rfl
    · by_contra hne
      obtain ⟨b, hb, -⟩ := hbehind k hlt hne
      cases hb
  | cons b bs =>
    have hb : b ∈ s.qmap.values := by
      rw [hvalues]
      simp
    have hobject := hshows.object_eq hb
    have hsorted := hshows.isQmap.sorted
    rw [hvalues, List.map_append, List.map_cons, List.pairwise_append, List.pairwise_cons] at hsorted
    refine ⟨t.object b, t, M, ?_, ⟨Or.inr ⟨t.qmap.key (.item b), hbs _ (List.mem_cons_self ..), ?_, ?_, ?_⟩, rfl⟩, s, n,
      hshows, hstored, hget⟩
    · rw [mapStep, clMapGetNext, hnext]
      rfl
    · rw [hobject, hget]
    · rw [hshows.object]
      exact hstored.objects b hb
    · intro k hlt hne
      obtain ⟨c, hc, rfl⟩ := hbehind k hlt hne
      rcases List.mem_cons.mp hc with rfl | hc
      · exact le_refl _
      · exact (hsorted.2.1.1 _ (List.mem_map_of_mem hc)).le

/-- An item goes back to the pool. -/
theorem Shows.giveBack {s : ClMaps.ClMap κ O} (hshows : Shows t s) (hstored : ClMaps.Stored s n)
    (hget : ∀ k, ClMaps.clMapGet s k = M k) (ha : a ∈ s.qmap.values) :
    ∃ t', MapTrees.giveBack t (.item a) = some t' ∧ t'.object = t.object ∧
      Holds t' (Function.update M (t.qmap.key (.item a)) none) := by
  obtain ⟨t', s', hback, -, hshows', hstored', -, hobject, hget', -, -⟩ := hshows.removeItem hstored ha
  refine ⟨t', hback, hobject, s', n + 1, hshows', hstored', fun k => ?_⟩
  rw [hget', hget, Function.update_apply]

theorem Holds.remove (h : Holds t M) (key : κ) : Performs t M (.remove key) := by
  have hheld := h
  obtain ⟨s, n, hshows, hstored, hget⟩ := hheld
  rcases clQmapGet_spec hshows.isQmap key with ⟨x, hx, rfl, hfound⟩ | ⟨hnone, hfound⟩
  · obtain ⟨a, ha, rfl⟩ := List.mem_map.mp hx
    obtain ⟨t', hback, hobject, h'⟩ := hshows.giveBack hstored hget ha
    have hback' := hback
    unfold MapTrees.giveBack at hback'
    obtain ⟨qmap, hremove, hrest⟩ := Option.bind_eq_some_iff.mp hback'
    obtain ⟨pool, hput, rfl⟩ := Option.map_eq_some_iff.mp hrest
    have hne : MapNode.item a ≠ theQmap.nil := nofun
    refine ⟨t.object a, _, _, ?_, ⟨?_, rfl⟩, h'⟩
    · rw [mapStep, clMapRemove, clQmapRemove, hfound, Option.bind_some, hremove, Option.map_some, Option.bind_some]
      dsimp only
      rw [if_neg hne, hput]
      rfl
    · rw [hshows.object_eq ha, hget]
  · have hkey : M key = none := by
      rw [← hget, hstored.get_eq_none]
      refine Option.eq_none_iff_forall_ne_some.mpr fun a hsome => ?_
      obtain ⟨ha, hkey⟩ := hshows.get_iff.mp hsome
      exact hnone _ (List.mem_map_of_mem ha) hkey
    refine ⟨none, t, M, ?_, ⟨hkey.symm, ?_⟩, h⟩
    · rw [mapStep, clMapRemove, clQmapRemove, hfound, Option.bind_some, clQmapRemoveItem_end, Option.map_some,
        Option.bind_some, if_pos rfl]
    · rw [← hkey, Function.update_eq_self]

theorem Holds.removeItem (h : Holds t M) {itor : MapNode} (hlegal : MapLegal t (.removeItem itor)) :
    Performs t M (.removeItem itor) := by
  have hheld := h
  obtain ⟨s, n, hshows, hstored, hget⟩ := hheld
  rcases hlegal with rfl | hitor
  · refine ⟨none, t, M, ?_, ⟨rfl, (if_pos rfl).symm⟩, h⟩
    rw [mapStep, clMapRemoveItem, if_pos rfl, Option.map_some]
  · rw [hshows.isQmap.items_eq] at hitor
    obtain ⟨a, ha, rfl⟩ := List.mem_map.mp hitor
    obtain ⟨t', hback, -, h'⟩ := hshows.giveBack hstored hget ha
    have hne : MapNode.item a ≠ theQmap.nil := nofun
    refine ⟨none, t', _, ?_, ⟨rfl, (if_neg hne).symm⟩, h'⟩
    rw [mapStep, clMapRemoveItem, if_neg hne, hback, Option.map_some]

/-- **The loop of `cl_map_remove_all`** ends with no item in the map. -/
theorem removeAllLoop_spec : ∀ (fuel : Nat) {t : ClMap κ O} {s : ClMaps.ClMap κ O} {n : Nat}, Shows t s →
    ClMaps.Stored s n → s.qmap.values.length < fuel →
    ∃ t' s' n', removeAllLoop fuel t = some t' ∧ Shows t' s' ∧ ClMaps.Stored s' n' ∧ s'.qmap.values = []
  | 0, _, _, _, _, _, hfuel => absurd hfuel (Nat.not_lt_zero _)
  | fuel + 1, t, s, n, h, hstored, hfuel => by
    rw [removeAllLoop]
    cases hvalues : s.qmap.values with
    | nil =>
      have hcount : clMapCount t = 0 := by rw [h.count_eq, hvalues, List.length_nil]
      exact ⟨t, s, n, if_pos hcount, h, hstored, hvalues⟩
    | cons a rest =>
      have hcount : clMapCount t ≠ 0 := by
        rw [h.count_eq, hvalues, List.length_cons]
        exact Nat.succ_ne_zero _
      have hhead : clQmapHead t.qmap theQmap = some (.item a) := by
        rw [h.isQmap.head, hvalues, List.map_cons, List.headD_cons]
      have ha : a ∈ s.qmap.values := hvalues ▸ List.mem_cons_self ..
      obtain ⟨t₁, s₁, hback, -, h₁, hstored₁, hvalues₁, -, -, -, -⟩ := h.removeItem hstored ha
      rw [hvalues, List.erase_cons_head] at hvalues₁
      rw [hvalues, List.length_cons] at hfuel
      rw [if_neg hcount, hhead, Option.bind_some, hback, Option.bind_some]
      by_cases hrest : rest = []
      · have hcount₁ : clMapCount t₁ = 0 := by rw [h₁.count_eq, hvalues₁, hrest, List.length_nil]
        rw [if_pos hcount₁]
        exact removeAllLoop_spec fuel h₁ hstored₁ (by rw [hvalues₁]; omega)
      · have hcount₁ : clMapCount t₁ ≠ 0 := by
          rw [h₁.count_eq, hvalues₁]
          exact fun he => hrest (List.eq_nil_of_length_eq_zero he)
        have htail : clQmapTail t₁.qmap theQmap = some (.item (rest.getLast hrest)) := by
          have hlast := h₁.isQmap.list.2.prev_right
          simp only [hvalues₁] at hlast
          rw [List.getLast_cons (by simpa using hrest), List.getLast_map] at hlast
          exact hlast
        have hlast : rest.getLast hrest ∈ s₁.qmap.values := hvalues₁ ▸ List.getLast_mem hrest
        obtain ⟨t₂, s₂, hback₂, -, h₂, hstored₂, hvalues₂, -, -, -, -⟩ := h₁.removeItem hstored₁ hlast
        rw [if_neg hcount₁, htail, Option.bind_some, hback₂, Option.bind_some]
        refine removeAllLoop_spec fuel h₂ hstored₂ ?_
        have hlen := List.length_erase_of_mem hlast
        rw [← hvalues₂, hvalues₁] at hlen
        omega

theorem Holds.removeAll (h : Holds t M) : Performs t M .removeAll := by
  obtain ⟨s, n, hshows, hstored, -⟩ := h
  have hfuel : s.qmap.values.length < clMapCount t + 1 := by
    rw [hshows.count_eq]
    exact Nat.lt_succ_self _
  obtain ⟨t', s', n', hloop, hshows', hstored', hvalues⟩ := removeAllLoop_spec _ hshows hstored hfuel
  refine ⟨none, t', fun _ => none, ?_, ⟨rfl, rfl⟩, s', n', hshows', hstored', fun k => ?_⟩
  · rw [mapStep, clMapRemoveAll, hloop, Option.map_some]
  · rw [hstored'.get_eq_none]
    refine Option.eq_none_iff_forall_ne_some.mpr fun a hsome => ?_
    have ha := OrdMap.get_mem_values hsome
    rw [hvalues] at ha
    cases ha

/-- **Every call** does to the finite map what it should. -/
theorem Holds.step (h : Holds t M) {call : MapCall κ O} (hlegal : MapLegal t call) : Performs t M call := by
  cases call with
  | insert supply key object => exact h.insert supply key object
  | get key => exact h.get key
  | getNext key => exact h.getNext key
  | remove key => exact h.remove key
  | removeItem itor => exact h.removeItem hlegal
  | removeAll => exact h.removeAll

/-! ## Runs -/

theorem Holds.run (h : Holds t M) (calls : List (MapCall κ O))
    (hcalls : AllMeet (fun t call => (mapStep t call).map Prod.snd) MapLegal t calls) :
    ∃ rs, trace mapStep t calls = some rs ∧ Refines t M calls rs := by
  apply exists_follows (R := fun calls M t => Holds t M ∧
    AllMeet (fun t call => (mapStep t call).map Prod.snd) MapLegal t calls)
  · intro calls M t h
    exact h.1.agrees
  · intro call calls M t h
    obtain ⟨h, hlegal, hcalls⟩ := h
    obtain ⟨r, t', M', hstep, heffect, h'⟩ := h.step hlegal
    have ht' : t' ∈ (mapStep t call).map Prod.snd := by
      rw [hstep]
      rfl
    exact ⟨r, t', M', hstep, heffect, h', hcalls t' ht'⟩
  · exact ⟨h, hcalls⟩

/-- A map after `cl_map_init` holds the finite map without objects. -/
theorem holds_init {memory : Memory MapNode κ} {malloc : Bool} {supply : Supply} {minItems : UInt32}
    (hinit : clMapInit memory malloc supply minItems = some (.success, t)) : Holds t fun _ => none := by
  unfold clMapInit at hinit
  obtain ⟨⟨status, pool⟩, hpool, heq⟩ := Option.map_eq_some_iff.mp hinit
  cases heq
  have hiface : ClMaps.clMapInit malloc supply minItems =
      some (.success, (⟨.empty, pool, fun _ => none⟩ : ClMaps.ClMap κ O)) := by
    rw [ClMaps.clMapInit, hpool, Option.map_some]
  obtain ⟨-, n, hstored⟩ := ClMaps.clMapInit_stored hiface
  refine ⟨⟨.empty, pool, fun _ => none⟩, n, ⟨?_, rfl, rfl, rfl⟩, hstored, fun _ => rfl⟩
  exact (isQmap_init memory theQmap).1

/-- **Maps refine finite maps of objects.**  Every run of calls on a map that was initialized returns, whatever the
allocations give.  Each call returns and does what it does on the finite map from keys to objects; an insertion
returns `NULL`, and changes nothing, only if the pool had no free item and could not grow.  Before and after each
call the map is read as the finite map, in the order of its keys, and its items and the free ones are all objects of
the pool. -/
theorem cl_map_refines (memory : Memory MapNode κ) (malloc : Bool) (supply : Supply) (minItems : UInt32)
    (t : ClMap κ O) (hinit : clMapInit memory malloc supply minItems = some (.success, t))
    (calls : List (MapCall κ O))
    (hcalls : AllMeet (fun t call => (mapStep t call).map Prod.snd) MapLegal t calls) :
    ∃ rs, trace mapStep t calls = some rs ∧ Refines t (fun _ => none) calls rs :=
  (holds_init hinit).run calls hcalls

/-! ## A run -/

def sampleSupply : Supply := ⟨true, fun _ => .item 0⟩

def sampleMemory : Memory MapNode Nat :=
  ⟨⟨fun _ _ => .nil, fun _ => .nil, fun _ => .black⟩, fun _ => Ring.Link.null, fun _ => 0, fun _ => 0⟩

/-- A map that was initialized. -/
def sampleMap : ClMap Nat Nat :=
  (clMapInit sampleMemory true sampleSupply 0).elim ⟨sampleMemory, .start, fun _ => none⟩ (·.2)

/-- Insertions, one without memory and one under a key that is there, a search, and removals by key, by iterator and
of all. -/
def sampleCalls : List (MapCall Nat Nat) :=
  [.insert { sampleSupply with malloc := false } 2 20, .insert sampleSupply 2 20, .insert sampleSupply 1 10,
    .insert sampleSupply 2 30, .getNext 1, .remove 1, .removeItem (.item ⟨0, 2000⟩), .insert sampleSupply 5 50,
    .removeItem .nil, .removeAll]

theorem sampleMap_init : clMapInit sampleMemory true sampleSupply 0 = some (.success, sampleMap) := by
  have hstatus : (clMapInit (O := Nat) sampleMemory true sampleSupply 0).map (·.1) = some .success := by
    decide +kernel
  obtain ⟨⟨status, t⟩, hinit, rfl⟩ := Option.map_eq_some_iff.mp hstatus
  rw [sampleMap, hinit]
  rfl

theorem sampleCalls_legal :
    AllMeet (fun t call => (mapStep t call).map Prod.snd) MapLegal sampleMap sampleCalls := by
  decide +kernel

theorem cl_map_refines_sample :
    ∃ rs, trace mapStep sampleMap sampleCalls = some rs ∧ Refines sampleMap (fun _ => none) sampleCalls rs :=
  cl_map_refines sampleMemory true sampleSupply 0 sampleMap sampleMap_init sampleCalls sampleCalls_legal

end

end MlnxLib.MapTrees
