import MlnxLib.Complib.ClMap

/-!
# Merging maps

Model of `cl_map_merge`: the pairs of a source map go to a destination map, except those whose keys are there.

* `mergeTurn` — a turn of the loop: the item leaves the source, its object goes to the destination, and back to
  the source when `cl_map_insert` returned another object or `NULL`.
* `mergeLoop`, `clMapMerge` — the loop and the call.
* `serves` — the destination's pool has an item for each of some keys.
* `Merged` — what the turns for some keys leave, key by key.

Each key has at most one turn, so that a supply for each key is one for each turn.

Principal result: `merge_conserves_iff` — no pair is lost and the source keeps the pairs whose keys were in the
destination, exactly if the loop does not come to a key with the same object in both maps.
-/

set_option autoImplicit false

namespace MlnxLib.ClMaps

open QcPool

section

variable {κ O : Type} [LinearOrder κ] [DecidableEq O]

/-! ## The loop -/

/-- A turn of the loop of `cl_map_merge`: a status other than success ends it. -/
def mergeTurn (dest src : ClMap κ O) (forDest forSrc : κ → Supply) (itor : Addr) :
    Option (ClStatus × ClMap κ O × ClMap κ O) :=
  (src.qmap.keyOf itor).bind fun key =>
  (clMapRemoveItem src (some itor)).bind fun removed =>
  (clMapInsert dest (forDest key) key (src.object itor)).bind fun r =>
    if r.1 = src.object itor then some (.success, r.2, removed)
    else (clMapInsert removed (forSrc key) key (src.object itor)).map fun back =>
      (if r.1 = none then .insufficientMemory else .success, r.2, back.2)

def mergeLoop (forDest forSrc : κ → Supply) :
    Nat → Option Addr → ClMap κ O → ClMap κ O → Option (ClStatus × ClMap κ O × ClMap κ O)
  | 0, _, _, _ => none
  | _ + 1, none, dest, src => some (.success, dest, src)
  | fuel + 1, some itor, dest, src =>
    let next := src.qmap.next itor
    (mergeTurn dest src forDest forSrc itor).bind fun r =>
      if r.1 ≠ .success then some r else mergeLoop forDest forSrc fuel next r.2.1 r.2.2

/-- `cl_map_merge`. -/
def clMapMerge (dest src : ClMap κ O) (forDest forSrc : κ → Supply) :
    Option (ClStatus × ClMap κ O × ClMap κ O) :=
  mergeLoop forDest forSrc (src.qmap.count + 1) src.qmap.head dest src

/-! ## What it leaves -/

/-- The pool has an item for each of the keys, one after the other. -/
def serves (dest : ClMap κ O) (forDest : κ → Supply) : List κ → PoolSystem → Bool
  | [], _ => true
  | key :: keys, pool =>
    match itemFor (clMapGet dest key).isSome pool (forDest key) with
    | some pool => serves dest forDest keys pool
    | none => false

/-- **The maps after the turns of some keys.** -/
structure Merged (dest src : ClMap κ O) (keys : List κ) (dest' src' : ClMap κ O) : Prop where
  inDest : ∀ k, clMapGet dest' k =
    if k ∈ keys ∧ clMapGet dest k = none then clMapGet src k else clMapGet dest k
  inSrc : ∀ k, clMapGet src' k =
    if k ∈ keys ∧ (clMapGet dest k = none ∨ clMapGet dest k = clMapGet src k) then none else clMapGet src k

/-- **A merge conserves the pairs**: each pair of the source is still there or is new in the destination, the
destination keeps its own, and after a success the source has those whose keys were in the destination. -/
def Conserves (dest src : ClMap κ O) (result : Option (ClStatus × ClMap κ O × ClMap κ O)) : Prop :=
  ∃ status dest' src', result = some (status, dest', src') ∧
    (∀ k o, clMapGet src k = some o →
      clMapGet src' k = some o ∨ (clMapGet dest k = none ∧ clMapGet dest' k = some o)) ∧
    (∀ k o, clMapGet dest k = some o → clMapGet dest' k = some o) ∧
    (status = .success →
      ∀ k o, clMapGet src' k = some o ↔ clMapGet src k = some o ∧ clMapGet dest k ≠ none)

variable {dest src dest' src' : ClMap κ O} {forDest forSrc : κ → Supply} {n m : Nat}

theorem Merged.refl (dest src : ClMap κ O) : Merged dest src [] dest src :=
  ⟨fun _ => by simp, fun _ => by simp⟩

/-- The turn of a key, and those of other keys. -/
theorem Merged.cons {key : κ} {keys : List κ} {dest₁ src₁ : ClMap κ O} (hkey : key ∉ keys)
    (h₁ : Merged dest src [key] dest₁ src₁) (h : Merged dest₁ src₁ keys dest' src') :
    Merged dest src (key :: keys) dest' src' := by
  constructor
  · intro k
    have hd := h.inDest k
    have hd₁ := h₁.inDest k
    have hs₁ := h₁.inSrc k
    by_cases hk : k = key
    · subst hk
      rw [if_neg fun hmem => hkey hmem.1] at hd
      rw [hd, hd₁]
      simp
    · have hone : k ∉ [key] := by simpa using hk
      rw [if_neg fun hmem => hone hmem.1] at hd₁ hs₁
      rw [hd, hd₁, hs₁]
      simp [hk]
  · intro k
    have hs := h.inSrc k
    have hd₁ := h₁.inDest k
    have hs₁ := h₁.inSrc k
    by_cases hk : k = key
    · subst hk
      rw [if_neg fun hmem => hkey hmem.1] at hs
      rw [hs, hs₁]
      simp
    · have hone : k ∉ [key] := by simpa using hk
      rw [if_neg fun hmem => hone hmem.1] at hd₁ hs₁
      rw [hs, hd₁, hs₁]
      simp [hk]

omit [DecidableEq O] in
theorem serves_congr {dest₁ : ClMap κ O} : ∀ {keys : List κ} (pool : PoolSystem),
    (∀ k ∈ keys, clMapGet dest₁ k = clMapGet dest k) →
      serves dest₁ forDest keys pool = serves dest forDest keys pool
  | [], _, _ => rfl
  | key :: keys, pool, h => by
    unfold serves
    rw [h key (List.mem_cons_self ..)]
    split
    · exact serves_congr _ fun k hk => h k (List.mem_cons_of_mem _ hk)
    · rfl

omit [DecidableEq O] in
/-- A pool that serves some keys serves the first ones. -/
theorem serves_of_append {more : List κ} : ∀ {keys : List κ} {pool : PoolSystem},
    serves dest forDest (keys ++ more) pool = true → serves dest forDest keys pool = true
  | [], _, _ => rfl
  | key :: keys, pool, h => by
    rw [List.cons_append, serves] at h
    unfold serves
    split
    · rename_i pool' hpool
      rw [hpool] at h
      exact serves_of_append h
    · rename_i hpool
      rw [hpool] at h
      exact h

/-- **The end of a turn** for a key of the source: it is served, or the maps have the pairs that they had. -/
theorem mergeTurn_spec (hdest : Stored dest n) (hsrc : Stored src m) {as bs : List (κ × Addr)} {key : κ}
    {item : Addr} (hentries : src.qmap.entries = as ++ (key, item) :: bs) (forDest forSrc : κ → Supply) :
    ∃ status dest' src' n' m' as', mergeTurn dest src forDest forSrc item = some (status, dest', src') ∧
      Stored dest' n' ∧ Stored src' m' ∧ src'.pool.blocks = src.pool.blocks ∧
      ((status = .success ∧ itemFor (clMapGet dest key).isSome dest.pool (forDest key) = some dest'.pool ∧
          Merged dest src [key] dest' src' ∧ src'.qmap.entries = as' ++ bs ∧
          (0 < n → n ≤ n' + 1 ∧ dest'.pool.blocks = dest.pool.blocks)) ∨
        (status = .insufficientMemory ∧ itemFor (clMapGet dest key).isSome dest.pool (forDest key) = none ∧
          Merged dest src [] dest' src' ∧ n = 0)) := by
  obtain ⟨hkey, -, hitem, hsome⟩ := hsrc.get_entry hentries
  obtain ⟨object, hobject⟩ := Option.ne_none_iff_exists'.mp hsome
  rw [hobject] at hitem
  obtain ⟨removed, hremove, hstored, hentries', hget, hblocks⟩ := clMapRemoveItem_spec hsrc hentries
  obtain ⟨item', m', back, hback, hstored', -, hentries'', hget', hblocks'⟩ :=
    clMapInsert_back hsrc hentries hobject hremove (forSrc key)
  obtain ⟨r, hinsert, hend⟩ := clMapInsert_spec hdest (forDest key) key object
  unfold mergeTurn
  rw [hkey, Option.bind_some, hremove, Option.bind_some, hitem, hinsert, Option.bind_some]
  cases hend with
  | added item n' dest' habsent hpool hdest' hqmap hgetDest hfree =>
    rw [if_pos rfl]
    refine ⟨_, _, _, n', _, as, rfl, hdest', hstored, hblocks, Or.inl ⟨rfl, ?_, ⟨fun k => ?_, fun k => ?_⟩,
      hentries', hfree⟩⟩
    · rw [habsent]
      exact hpool
    · rw [hgetDest]
      by_cases hk : k = key
      · subst hk
        simp [habsent, hobject]
      · simp [hk]
    · rw [hget]
      by_cases hk : k = key
      · subst hk
        simp [habsent]
      · simp [hk]
  | there found n' dest' hfound hpool hdest' hqmap hgetDest hfree =>
    have hserved : itemFor (clMapGet dest key).isSome dest.pool (forDest key) = some dest'.pool := by
      rw [hfound]
      exact hpool
    by_cases hsame : found = object
    · -- the object of the destination's pair is taken for the one that was inserted
      subst hsame
      rw [if_pos rfl]
      refine ⟨_, _, _, n', _, as, rfl, hdest', hstored, hblocks, Or.inl ⟨rfl, hserved,
        ⟨fun k => ?_, fun k => ?_⟩, hentries', hfree⟩⟩
      · rw [hgetDest]
        by_cases hk : k = key
        · subst hk
          simp [hfound]
        · simp [hk]
      · rw [hget]
        by_cases hk : k = key
        · subst hk
          simp [hfound, hobject]
        · simp [hk]
    · have hother : some found ≠ some object := fun he => hsame (Option.some.inj he)
      rw [if_neg hother, hback, Option.map_some, if_neg (Option.some_ne_none found)]
      refine ⟨_, _, _, n', m', as ++ [(key, item')], rfl, hdest', hstored', hblocks', Or.inl ⟨rfl, hserved,
        ⟨fun k => ?_, fun k => ?_⟩, ?_, hfree⟩⟩
      · rw [hgetDest]
        by_cases hk : k = key
        · subst hk
          simp [hfound]
        · simp [hk]
      · rw [hget']
        by_cases hk : k = key
        · subst hk
          simp [hfound, hobject, hsame]
        · simp [hk]
      · rw [hentries'', List.append_assoc, List.singleton_append]
  | noItem n' dest' hpool hdest' hqmap hgetDest hnone =>
    have hother : none ≠ some object := (Option.some_ne_none object).symm
    rw [if_neg hother, hback, Option.map_some, if_pos rfl]
    exact ⟨_, _, _, n', m', as, rfl, hdest', hstored', hblocks', Or.inr ⟨rfl, hpool _,
      ⟨fun k => by rw [hgetDest]; simp, fun k => by rw [hget']; simp⟩, hnone⟩⟩

/-- **The end of a merge** after the turns of `keys`, before those of `left`. -/
structure MergeEnd (dest src : ClMap κ O) (n : Nat) (forDest : κ → Supply) (keys left : List κ) (status : ClStatus)
    (dest' src' : ClMap κ O) : Prop where
  served : serves dest forDest keys dest.pool = true
  merged : Merged dest src keys dest' src'
  destStored : ∃ n', Stored dest' n'
  srcStored : ∃ m', Stored src' m'
  srcBlocks : src'.pool.blocks = src.pool.blocks
  /-- With a free item for each key, the heap is not asked. -/
  free : keys.length + left.length ≤ n → left = [] ∧ dest'.pool.blocks = dest.pool.blocks
  done : left = [] → status = .success
  stuck : ∀ k ks, left = k :: ks → status = .insufficientMemory ∧ serves dest forDest (keys ++ [k]) dest.pool = false

/-- A turn that is served, and the turns after it. -/
theorem MergeEnd.cons {key : κ} {keys left : List κ} {status : ClStatus} {dest₁ src₁ : ClMap κ O} {n₁ : Nat}
    (hkeys : key ∉ keys ++ left)
    (hpool : itemFor (clMapGet dest key).isSome dest.pool (forDest key) = some dest₁.pool)
    (hturn : Merged dest src [key] dest₁ src₁) (hblocks : src₁.pool.blocks = src.pool.blocks)
    (hfree : 0 < n → n ≤ n₁ + 1 ∧ dest₁.pool.blocks = dest.pool.blocks)
    (h : MergeEnd dest₁ src₁ n₁ forDest keys left status dest' src') :
    MergeEnd dest src n forDest (key :: keys) left status dest' src' := by
  have hsame : ∀ ks : List κ, key ∉ ks → ∀ k ∈ ks, clMapGet dest₁ k = clMapGet dest k := by
    intro ks hnot k hk
    have hne : k ∉ [key] := fun he => hnot (List.mem_singleton.mp he ▸ hk)
    rw [hturn.inDest, if_neg fun hmem => hne hmem.1]
  have hcons : ∀ ks : List κ, key ∉ ks →
      serves dest forDest (key :: ks) dest.pool = serves dest₁ forDest ks dest₁.pool := by
    intro ks hnot
    rw [serves, hpool]
    exact (serves_congr _ (hsame ks hnot)).symm
  have hkey : key ∉ keys := fun hmem => hkeys (List.mem_append_left _ hmem)
  refine ⟨(hcons keys hkey).trans h.served, hturn.cons hkey h.merged, h.destStored, h.srcStored,
    h.srcBlocks.trans hblocks, fun hle => ?_, h.done, fun k ks hleft => ?_⟩
  · rw [List.length_cons] at hle
    obtain ⟨hcount, hsameBlocks⟩ := hfree (by omega)
    obtain ⟨hleft, hrest⟩ := h.free (by omega)
    exact ⟨hleft, hrest.trans hsameBlocks⟩
  · obtain ⟨hstatus, hserves⟩ := h.stuck k ks hleft
    have hnot : key ∉ keys ++ [k] := by
      intro hmem
      rcases List.mem_append.mp hmem with hmem | hmem
      · exact hkey hmem
      · exact hkeys (List.mem_append_right _ (by rw [hleft, List.mem_singleton.mp hmem]; exact List.mem_cons_self ..))
    exact ⟨hstatus, (hcons _ hnot).trans hserves⟩

/-- **The loop** over the entries `bs` that it has not come to. -/
theorem mergeLoop_spec (forDest forSrc : κ → Supply) : ∀ (bs : List (κ × Addr)) {dest src : ClMap κ O}
    {n m fuel : Nat} {as : List (κ × Addr)}, Stored dest n → Stored src m → src.qmap.entries = as ++ bs →
      bs.length < fuel → ∃ status dest' src' keys left,
        mergeLoop forDest forSrc fuel (bs.head?.map (·.2)) dest src = some (status, dest', src') ∧
        bs.map (·.1) = keys ++ left ∧ MergeEnd dest src n forDest keys left status dest' src'
  | _, _, _, _, _, 0, _, _, _, _, hfuel => absurd hfuel (Nat.not_lt_zero _)
  | [], dest, src, n, m, fuel + 1, as, hdest, hsrc, _, _ =>
    ⟨.success, dest, src, [], [], rfl, rfl, rfl, .refl dest src, ⟨n, hdest⟩, ⟨m, hsrc⟩, rfl,
      fun _ => ⟨rfl, rfl⟩, fun _ => rfl, nofun⟩
  | (key, item) :: bs, dest, src, n, m, fuel + 1, as, hdest, hsrc, hentries, hfuel => by
    obtain ⟨-, hnext, -, -⟩ := hsrc.get_entry hentries
    have hnot : key ∉ bs.map (·.1) := by
      have hnd := src.qmap.keys_nodup
      rw [hentries, List.map_append, List.map_cons, List.nodup_append, List.nodup_cons] at hnd
      exact hnd.2.1.1
    obtain ⟨status, dest₁, src₁, n₁, m₁, as', hturn, hdest₁, hsrc₁, hblocks, hend⟩ :=
      mergeTurn_spec hdest hsrc hentries forDest forSrc
    rw [List.head?_cons, Option.map_some, mergeLoop, hturn, Option.bind_some, hnext]
    rcases hend with ⟨rfl, hpool, hmerged, hentries₁, hfree⟩ | ⟨rfl, hpool, hmerged, hnone⟩
    · rw [if_neg (not_not.mpr rfl)]
      obtain ⟨status', dest', src', keys, left, hloop, hsplit, hrest⟩ :=
        mergeLoop_spec forDest forSrc bs hdest₁ hsrc₁ hentries₁ (Nat.lt_of_succ_lt_succ hfuel)
      refine ⟨status', dest', src', key :: keys, left, hloop, ?_,
        .cons (hsplit ▸ hnot) hpool hmerged hblocks hfree hrest⟩
      rw [List.map_cons, hsplit, List.cons_append]
    · have hfails : ClStatus.insufficientMemory ≠ .success := nofun
      rw [if_pos hfails]
      refine ⟨_, dest₁, src₁, [], key :: bs.map (·.1), rfl, rfl, rfl, hmerged, ⟨n₁, hdest₁⟩, ⟨m₁, hsrc₁⟩, hblocks,
        fun hle => ?_, nofun, ?_⟩
      · rw [hnone] at hle
        cases hle
      · rintro k ks ⟨⟩
        refine ⟨rfl, ?_⟩
        rw [List.nil_append, serves, hpool]

/-- **`cl_map_merge`** comes to an end. -/
theorem clMapMerge_spec (hdest : Stored dest n) (hsrc : Stored src m) (forDest forSrc : κ → Supply) :
    ∃ status dest' src' keys left, clMapMerge dest src forDest forSrc = some (status, dest', src') ∧
      src.keys = keys ++ left ∧ MergeEnd dest src n forDest keys left status dest' src' := by
  have hentries : src.qmap.entries = [] ++ src.qmap.entries := rfl
  exact mergeLoop_spec forDest forSrc src.qmap.entries hdest hsrc hentries (Nat.lt_succ_self _)

/-! ## Conservation -/

/-- The loop comes to a key with the same object in both maps. -/
def MeetsShared (dest src : ClMap κ O) (forDest : κ → Supply) : Prop :=
  ∃ as key bs, src.keys = as ++ key :: bs ∧ clMapGet dest key = clMapGet src key ∧
    serves dest forDest (as ++ [key]) dest.pool = true

/-- The keys that had their turns are those up to which the pool serves. -/
theorem MergeEnd.mem_keys_iff {keys left as bs : List κ} {key : κ} {status : ClStatus}
    (h : MergeEnd dest src n forDest keys left status dest' src') (hnd : (keys ++ left).Nodup)
    (hsplit : keys ++ left = as ++ key :: bs) :
    key ∈ keys ↔ serves dest forDest (as ++ [key]) dest.pool = true := by
  have hbehind : ∀ cs, as = keys ++ cs → left = cs ++ key :: bs →
      (key ∈ keys ↔ serves dest forDest (as ++ [key]) dest.pool = true) := by
    rintro cs rfl hleft
    have hnot : key ∉ keys := by
      intro hmem
      have hin : key ∈ left := by
        rw [hleft]
        exact List.mem_append_right _ (List.mem_cons_self ..)
      exact List.disjoint_of_nodup_append hnd hmem hin
    refine iff_of_false hnot fun hserves => ?_
    -- the key before which the pool had no item is `key` or one before it
    obtain ⟨k, more, hfirst⟩ : ∃ k more, cs ++ [key] = k :: more := by
      cases cs with
      | nil => exact ⟨key, [], rfl⟩
      | cons c cs => exact ⟨c, cs ++ [key], rfl⟩
    have hstuck : left = k :: (more ++ bs) := by
      rw [hleft, List.append_cons, hfirst, List.cons_append]
    rw [List.append_assoc, hfirst, List.append_cons] at hserves
    have hprefix := serves_of_append hserves
    rw [(h.stuck k _ hstuck).2] at hprefix
    cases hprefix
  rcases List.append_eq_append_iff.mp hsplit with ⟨cs, has, hleft⟩ | ⟨cs, hkeys, hrest⟩
  · exact hbehind cs has hleft
  · cases cs with
    | nil => exact hbehind [] (by rw [hkeys, List.append_nil, List.append_nil]) hrest.symm
    | cons c cs =>
      obtain ⟨rfl, -⟩ := List.cons.inj hrest
      have hserved := h.served
      rw [hkeys, List.append_cons] at hserved
      refine iff_of_true ?_ (serves_of_append hserved)
      rw [hkeys]
      exact List.mem_append_right _ (List.mem_cons_self ..)

theorem MergeEnd.conserves_iff {keys left : List κ} {status : ClStatus} (hsrc : Stored src m)
    (h : MergeEnd dest src n forDest keys left status dest' src') (hkeys : src.keys = keys ++ left) :
    Conserves dest src (some (status, dest', src')) ↔
      ∀ k ∈ keys, clMapGet dest k ≠ clMapGet src k := by
  have hmem : ∀ k ∈ keys, clMapGet src k ≠ none := fun k hk =>
    hsrc.mem_keys.mp (by rw [hkeys]; exact List.mem_append_left _ hk)
  constructor
  · rintro ⟨status', dest₁, src₁, heq, hkept, -, -⟩ k hk hshared
    cases heq
    obtain ⟨object, hobject⟩ := Option.ne_none_iff_exists'.mp (hmem k hk)
    have hlost := h.merged.inSrc k
    rw [if_pos ⟨hk, Or.inr hshared⟩] at hlost
    rcases hkept k object hobject with hthere | ⟨hnone, -⟩
    · rw [hlost] at hthere
      cases hthere
    · rw [hshared, hobject] at hnone
      cases hnone
  · intro hother
    have hin : ∀ k, clMapGet src' k = if k ∈ keys ∧ clMapGet dest k = none then none else clMapGet src k := by
      intro k
      rw [h.merged.inSrc k]
      by_cases hk : k ∈ keys
      · simp [hk, hother k hk]
      · simp [hk]
    refine ⟨status, dest', src', rfl, fun k o hobject => ?_, fun k o hobject => ?_, fun hsuccess k o => ?_⟩
    · by_cases hnew : k ∈ keys ∧ clMapGet dest k = none
      · exact Or.inr ⟨hnew.2, by rw [h.merged.inDest, if_pos hnew, hobject]⟩
      · exact Or.inl (by rw [hin, if_neg hnew, hobject])
    · rw [h.merged.inDest, if_neg, hobject]
      rintro ⟨-, hnone⟩
      rw [hobject] at hnone
      cases hnone
    · have hall : left = [] := by
        cases left with
        | nil => rfl
        | cons k ks =>
          have hstuck := (h.stuck k ks rfl).1
          rw [hsuccess] at hstuck
          cases hstuck
      rw [hall, List.append_nil] at hkeys
      rw [hin]
      by_cases hnone : clMapGet dest k = none
      · by_cases hk : k ∈ keys
        · simp [hk, hnone]
        · have habsent : clMapGet src k = none := by
            by_contra hne
            exact hk (hkeys ▸ hsrc.mem_keys.mpr hne)
          simp [hk, habsent]
      · simp [hnone]

/-- **A merge of maps.**  For all maps with non-`NULL` objects, whatever the heap supplies, a merge conserves the
pairs if and only if it does not come to a key that has the same object in both maps. -/
theorem merge_conserves_iff (dest src : ClMap κ O) (n m : Nat) (hdest : Stored dest n) (hsrc : Stored src m)
    (forDest forSrc : κ → Supply) :
    Conserves dest src (clMapMerge dest src forDest forSrc) ↔ ¬MeetsShared dest src forDest := by
  obtain ⟨status, dest', src', keys, left, hrun, hkeys, hend⟩ := clMapMerge_spec hdest hsrc forDest forSrc
  have hnd : (keys ++ left).Nodup := hkeys ▸ src.qmap.keys_nodup
  rw [hrun, hend.conserves_iff hsrc hkeys]
  constructor
  · rintro hother ⟨as, key, bs, hsplit, hshared, hserves⟩
    rw [hkeys] at hsplit
    exact hother key ((hend.mem_keys_iff hnd hsplit).mpr hserves) hshared
  · intro hmeets k hk hshared
    obtain ⟨as, bs, hsplit⟩ := List.append_of_mem (List.mem_append_left left hk)
    exact hmeets ⟨as, k, bs, hkeys.trans hsplit, hshared, (hend.mem_keys_iff hnd hsplit).mp hk⟩

end

/-- A heap that has memory. -/
def plenty : Supply := ⟨true, fun _ => .fail⟩

/-- A map with nothing in it. -/
def emptyMap : ClMap Nat Nat :=
  (clMapInit true plenty 2 : Option (ClStatus × ClMap Nat Nat)).elim ⟨.empty, .start, fun _ => none⟩ (·.2)

theorem emptyMap_stored : emptyMap.qmap.entries = [] ∧ ∃ n, Stored emptyMap n := by
  have hstatus : (clMapInit true plenty 2 : Option (ClStatus × ClMap Nat Nat)).map Prod.fst = some .success := by
    decide +kernel
  obtain ⟨⟨status, s⟩, hrun, heq⟩ := Option.map_eq_some_iff.mp hstatus
  cases heq
  have hempty := clMapInit_stored hrun
  unfold emptyMap
  rw [hrun]
  exact hempty

/-- A map with the object 7 under the key 1. -/
def sampleMap : ClMap Nat Nat :=
  (clMapInsert emptyMap plenty 1 (some 7)).elim emptyMap (·.2)

theorem sampleMap_stored : ∃ n, Stored sampleMap n := by
  obtain ⟨-, n, hstored⟩ := emptyMap_stored
  obtain ⟨r, hinsert, hend⟩ := clMapInsert_spec hstored plenty 1 7
  unfold sampleMap
  rw [hinsert]
  exact hend.stored

theorem merge_conserves_iff_sample :
    Conserves sampleMap sampleMap (clMapMerge sampleMap sampleMap (fun _ => plenty) fun _ => plenty) ↔
      ¬MeetsShared sampleMap sampleMap fun _ => plenty := by
  obtain ⟨n, hstored⟩ := sampleMap_stored
  exact merge_conserves_iff sampleMap sampleMap n n hstored hstored (fun _ => plenty) fun _ => plenty

/-- **A shared object** under one key is lost from the source. -/
theorem shared_object_lost :
    ¬∀ (dest src : ClMap Nat Nat) (n m : Nat), Stored dest n → Stored src m → ∀ forDest forSrc : Nat → Supply,
      Conserves dest src (clMapMerge dest src forDest forSrc) := by
  intro h
  obtain ⟨n, hstored⟩ := sampleMap_stored
  obtain ⟨status, dest', src', hrun, hkept, -, -⟩ :=
    h sampleMap sampleMap n n hstored hstored (fun _ => plenty) fun _ => plenty
  have hin : clMapGet sampleMap 1 = some 7 := by decide +kernel
  have hout : (clMapMerge sampleMap sampleMap (fun _ => plenty) fun _ => plenty).map
      (fun r => clMapGet r.2.2 1) = some none := by decide +kernel
  rw [hrun, Option.map_some, Option.some.injEq] at hout
  rcases hkept 1 7 hin with hthere | ⟨hnone, -⟩
  · rw [hout] at hthere
    cases hthere
  · rw [hin] at hnone
    cases hnone

end MlnxLib.ClMaps
