import MlnxLib.Complib.ClMap
import MlnxLib.Complib.QmapRuns

/-!
# Maps over the tree

Model of `cl_map_t` of `cl_map.c` down to the red-black tree of its quick map and the free list of its pool.

* `MapNode`, `theQmap` — the items of the quick map of a map.
* `ClMap` — `cl_map_t`, with the tree, the pool and the objects.
* `clMapInsert`, `clMapGet`, `clMapGetNext`, `clMapRemoveItem`, `clMapRemove`, `clMapRemoveAll` — the calls.
* `Shows t s` — the tree has the entries of the map `s` that the quick map is seen as through its interface.

Principal results: `Shows.insert`, `Shows.removeItem` — the calls on the tree are those through the interface.
-/

set_option autoImplicit false

namespace MlnxLib.MapTrees

open QcPool Qmaps

/-! ## Maps -/

/-- The items of the quick map of a map: its end, its root, and those in the objects of the pool. -/
inductive MapNode where
  | nil
  | root
  | item (a : Addr)
  deriving DecidableEq, Repr

/-- `qmap` of a map. -/
def theQmap : ClQmap MapNode := ⟨.nil, .root, by decide⟩

/-- `cl_map_t`, and `p_object` of its items; `none` is `NULL`. -/
structure ClMap (κ O : Type) where
  qmap : Memory MapNode κ
  pool : PoolSystem
  object : Addr → Option O

/-- `cl_qmap_obj` of an item that is not the end of the map. -/
def clQmapObj {O : Type} (object : Addr → Option O) : MapNode → Option O
  | .item a => object a
  | _ => none

/-- `cl_qpool_put` of the pool item of an item of the map. -/
def putItem (pool : PoolSystem) : MapNode → Option PoolSystem
  | .item a => clQpoolPut pool a
  | _ => none

section

variable {κ O : Type} [LinearOrder κ]

/-- `cl_map_init`; the map is in any memory. -/
def clMapInit (memory : Memory MapNode κ) (malloc : Bool) (supply : Supply) (minItems : UInt32) :
    Option (ClStatus × ClMap κ O) :=
  (clQpoolInit malloc supply minItems.toUInt64 0 (ClMaps.mapGrowSize minItems).toUInt64 ClMaps.MAP_OBJ_SIZE).map
    fun r => (r.1, ⟨clQmapInit memory theQmap, r.2, fun _ => none⟩)

/-- `cl_map_count`. -/
def clMapCount (t : ClMap κ O) : Nat := t.qmap.count theQmap.nil

/-- `cl_map_insert`. -/
def clMapInsert (t : ClMap κ O) (supply : Supply) (key : κ) (object : Option O) : Option (Option O × ClMap κ O) :=
  (clQpoolGet t.pool supply).bind fun r =>
    match r.1 with
    | none => some (none, { t with pool := r.2 })
    | some mapObj =>
      let objects := Function.update t.object mapObj object
      (clQmapInsert t.qmap theQmap key (.item mapObj)).bind fun atKey =>
        if atKey.1 ≠ .item mapObj then
          (clQpoolPut r.2 mapObj).map fun pool => (clQmapObj objects atKey.1, ⟨atKey.2, pool, objects⟩)
        else some (clQmapObj objects atKey.1, ⟨atKey.2, r.2, objects⟩)

/-- `cl_map_get`. -/
def clMapGet (t : ClMap κ O) (key : κ) : Option (Option O) :=
  (clQmapGet t.qmap theQmap key).map fun item => if item = theQmap.nil then none else clQmapObj t.object item

/-- `cl_map_get_next`. -/
def clMapGetNext (t : ClMap κ O) (key : κ) : Option (Option O) :=
  (clQmapGetNext t.qmap theQmap key).map fun item => if item = theQmap.nil then none else clQmapObj t.object item

/-- `cl_qmap_remove_item` and `cl_qpool_put`, of an item that is not the end of the map. -/
def giveBack (t : ClMap κ O) (item : MapNode) : Option (ClMap κ O) :=
  (clQmapRemoveItem t.qmap theQmap item).bind fun qmap =>
    (putItem t.pool item).map fun pool => { t with qmap := qmap, pool := pool }

/-- `cl_map_remove_item`. -/
def clMapRemoveItem (t : ClMap κ O) (itor : MapNode) : Option (ClMap κ O) :=
  if itor = theQmap.nil then some t else giveBack t itor

/-- `cl_map_remove`. -/
def clMapRemove (t : ClMap κ O) (key : κ) : Option (Option O × ClMap κ O) :=
  (clQmapRemove t.qmap theQmap key).bind fun r =>
    if r.1 = theQmap.nil then some (none, { t with qmap := r.2 })
    else (putItem t.pool r.1).map fun pool => (clQmapObj t.object r.1, { t with qmap := r.2, pool := pool })

/-- The loop of `cl_map_remove_all`: an item from the head and, if there is another one, an item from the tail. -/
def removeAllLoop : Nat → ClMap κ O → Option (ClMap κ O)
  | 0, _ => none
  | fuel + 1, t =>
    if clMapCount t = 0 then some t else
    (clQmapHead t.qmap theQmap).bind fun head => (giveBack t head).bind fun t =>
      if clMapCount t = 0 then removeAllLoop fuel t else
      (clQmapTail t.qmap theQmap).bind fun tail => (giveBack t tail).bind fun t => removeAllLoop fuel t

/-- `cl_map_remove_all`. -/
def clMapRemoveAll (t : ClMap κ O) : Option (ClMap κ O) := removeAllLoop (clMapCount t + 1) t

/-! ## The tree and the interface -/

/-- **The tree shows a map**: it has its items with their keys, and pool and objects are the same. -/
structure Shows (t : ClMap κ O) (s : ClMaps.ClMap κ O) : Prop where
  isQmap : IsQmap t.qmap theQmap (s.qmap.values.map .item)
  entries : s.qmap.entries = s.qmap.values.map fun a => (t.qmap.key (.item a), a)
  pool : t.pool = s.pool
  object : t.object = s.object

variable {t : ClMap κ O} {s : ClMaps.ClMap κ O} {n : Nat} {key : κ} {a : Addr} {as bs items : List Addr}

omit [LinearOrder κ] in
theorem map_snd_entries (f : Addr → κ) (items : List Addr) : (items.map fun a => (f a, a)).map (·.2) = items := by
  rw [List.map_map]
  exact List.map_id items

theorem not_mem_nodes (ha : a ∉ items) : MapNode.item a ∉ theQmap.nodes (items.map .item) := by
  simpa [ClQmap.nodes, theQmap] using ha

namespace Shows

theorem get_iff (h : Shows t s) : s.qmap.get key = some a ↔ a ∈ s.qmap.values ∧ t.qmap.key (.item a) = key := by
  rw [← OrdMap.mem_entries_iff, h.entries, List.mem_map]
  constructor
  · rintro ⟨b, hb, hpair⟩
    obtain ⟨hkey, rfl⟩ := Prod.mk.inj hpair
    exact ⟨hb, hkey⟩
  · rintro ⟨ha, rfl⟩
    exact ⟨a, ha, rfl⟩

/-- A part of the items and the same part of the entries. -/
theorem entries_split (h : Shows t s) (hsplit : s.qmap.values = as ++ bs) :
    s.qmap.entries = (as.map fun a => (t.qmap.key (.item a), a)) ++ bs.map fun a => (t.qmap.key (.item a), a) := by
  rw [h.entries, hsplit, List.map_append]

/-- A search ends at the item of the key, or at the end of the map. -/
theorem get (h : Shows t s) (key : κ) : clMapGet t key = some (ClMaps.clMapGet s key) := by
  unfold clMapGet ClMaps.clMapGet
  rcases clQmapGet_spec h.isQmap key with ⟨x, hx, hkey, hget⟩ | ⟨hnone, hget⟩
  · obtain ⟨a, ha, rfl⟩ := List.mem_map.mp hx
    rw [hget, h.get_iff.mpr ⟨ha, hkey⟩, Option.bind_some, ← h.object]
    rfl
  · have hget' : s.qmap.get key = none := by
      refine Option.eq_none_iff_forall_ne_some.mpr fun a hsome => ?_
      obtain ⟨ha, hkey⟩ := h.get_iff.mp hsome
      exact hnone _ (List.mem_map_of_mem ha) hkey
    rw [hget, hget', Option.map_some, if_pos rfl]
    rfl

/-- **An insertion** into the tree is one through the interface. -/
theorem insert (h : Shows t s) (hstored : ClMaps.Stored s n) (supply : Supply) (key : κ) (object : Option O)
    {r : Option O × ClMaps.ClMap κ O} (hinsert : ClMaps.clMapInsert s supply key object = some r) :
    ∃ t', clMapInsert t supply key object = some (r.1, t') ∧ Shows t' r.2 := by
  obtain ⟨got, pool, n', hget, -, hfresh, -⟩ := hstored.stock.get_spec supply
  unfold ClMaps.clMapInsert at hinsert
  unfold clMapInsert
  rw [hget, Option.bind_some] at hinsert
  rw [h.pool, hget, Option.bind_some]
  cases got with
  | none =>
    cases hinsert
    exact ⟨_, rfl, h.isQmap, h.entries, rfl, h.object⟩
  | some mapObj =>
    have hnew : mapObj ∉ s.qmap.values := hfresh mapObj rfl
    obtain ⟨x, qmap, hqmap, hkey, -, hplaced⟩ := clQmapInsert_spec h.isQmap key (not_mem_nodes hnew)
    have hsame : ∀ b ∈ s.qmap.values, qmap.key (.item b) = t.qmap.key (.item b) := by
      intro b hb
      have hne : MapNode.item b ≠ .item mapObj := fun he => hnew (MapNode.item.inj he ▸ hb)
      rw [hkey, Function.update_of_ne hne]
    dsimp only at hinsert ⊢
    rw [hqmap, Option.bind_some]
    dsimp only
    rcases hplaced with ⟨hx, hxkey, hmap⟩ | ⟨rfl, asN, bsN, hsplit, has, hbs, hmap⟩
    · -- the key is there, and the new item goes back to the pool
      obtain ⟨b, hb, rfl⟩ := List.mem_map.mp hx
      have hthere : s.qmap.get key = some b := h.get_iff.mpr ⟨hb, hxkey⟩
      have hne : b ≠ mapObj := fun he => hnew (he ▸ hb)
      have hne' : MapNode.item b ≠ .item mapObj := fun he => hne (MapNode.item.inj he)
      unfold ClMaps.clQmapInsert at hinsert
      rw [hthere] at hinsert
      dsimp only at hinsert
      rw [if_pos hne] at hinsert
      obtain ⟨pool', hput, rfl⟩ := Option.map_eq_some_iff.mp hinsert
      refine ⟨⟨qmap, pool', Function.update t.object mapObj object⟩, ?_, hmap, ?_, rfl, by rw [h.object]⟩
      · rw [if_pos hne', hput, h.object]
        rfl
      · change s.qmap.entries = s.qmap.values.map fun a => (qmap.key (.item a), a)
        rw [h.entries]
        exact List.map_congr_left fun b hb => by rw [hsame b hb]
    · -- the item goes between those with smaller and those with greater keys
      obtain ⟨as, bs, hvalues, rfl, rfl⟩ := List.map_eq_append_iff.mp hsplit
      have habsent : s.qmap.get key = none := by
        refine Option.eq_none_iff_forall_ne_some.mpr fun b hsome => ?_
        obtain ⟨hb, hbkey⟩ := h.get_iff.mp hsome
        rw [hvalues] at hb
        rcases List.mem_append.mp hb with hb | hb
        · exact absurd hbkey (ne_of_lt (has _ (List.mem_map_of_mem hb)))
        · exact absurd hbkey (ne_of_gt (hbs _ (List.mem_map_of_mem hb)))
      unfold ClMaps.clQmapInsert at hinsert
      rw [habsent] at hinsert
      dsimp only at hinsert
      rw [if_neg (not_not.mpr rfl), Option.some.injEq] at hinsert
      subst hinsert
      have hentries := OrdMap.entries_insert_split mapObj (h.entries_split hvalues)
        (k := key) (fun p hp => ?_) fun p hp => ?_
      · have hvalues' : (s.qmap.insert key mapObj).values = as ++ mapObj :: bs := by
          unfold OrdMap.values
          rw [hentries, List.map_append, List.map_cons, map_snd_entries, map_snd_entries]
        refine ⟨⟨qmap, pool, Function.update t.object mapObj object⟩, ?_, ?_, ?_, rfl, by rw [h.object]⟩
        · rw [if_neg (not_not.mpr rfl), h.object]
          rfl
        · change IsQmap qmap theQmap ((s.qmap.insert key mapObj).values.map .item)
          rw [hvalues', List.map_append, List.map_cons]
          exact hmap
        · change (s.qmap.insert key mapObj).entries = (s.qmap.insert key mapObj).values.map _
          have hself : qmap.key (.item mapObj) = key := by rw [hkey, Function.update_self]
          have hparts : ∀ cs ⊆ s.qmap.values, (cs.map fun a => (t.qmap.key (.item a), a)) =
              cs.map fun a => (qmap.key (.item a), a) := fun cs hcs =>
            List.map_congr_left fun b hb => by rw [hsame b (hcs hb)]
          rw [hentries, hvalues', List.map_append, List.map_cons, hself,
            hparts as (hvalues ▸ List.subset_append_left ..), hparts bs (hvalues ▸ List.subset_append_right ..)]
      · obtain ⟨b, hb, rfl⟩ := List.mem_map.mp hp
        exact has _ (List.mem_map_of_mem hb)
      · obtain ⟨b, hb, rfl⟩ := List.mem_map.mp hp
        exact hbs _ (List.mem_map_of_mem hb)

/-- **A removal** from the tree is one through the interface. -/
theorem removeItem (h : Shows t s) (hstored : ClMaps.Stored s n) (ha : a ∈ s.qmap.values) :
    ∃ t' s', giveBack t (.item a) = some t' ∧ ClMaps.clMapRemoveItem s (some a) = some s' ∧ Shows t' s' ∧
      ClMaps.Stored s' (n + 1) ∧ s'.qmap.values = s.qmap.values.erase a ∧ t'.object = t.object ∧
      (∀ k, ClMaps.clMapGet s' k = if k = t.qmap.key (.item a) then none else ClMaps.clMapGet s k) ∧
      t'.pool.blocks = t.pool.blocks ∧ t'.qmap.key = t.qmap.key := by
  obtain ⟨as, bs, hsplit⟩ := List.append_of_mem ha
  have hentries := h.entries_split hsplit
  rw [List.map_cons] at hentries
  obtain ⟨s', hremove, hstored', hentries', hget, hblocks⟩ := ClMaps.clMapRemoveItem_spec hstored hentries
  have hvalues' : s'.qmap.values = as ++ bs := by
    unfold OrdMap.values
    rw [hentries', List.map_append, map_snd_entries, map_snd_entries]
  have hq := h.isQmap
  rw [hsplit, List.map_append, List.map_cons] at hq
  obtain ⟨qmap, hremoveQ, hmap, hkey, -⟩ := clQmapRemoveItem_spec hq
  have hremove' := hremove
  unfold ClMaps.clMapRemoveItem at hremove'
  obtain ⟨pool, hput, rfl⟩ := Option.map_eq_some_iff.mp hremove'
  have herase : s.qmap.values.erase a = as ++ bs := by
    have hnd := hstored.nodup
    rw [hsplit] at hnd ⊢
    have hnot : a ∉ as := fun hin => (List.nodup_middle.mp hnd).notMem (List.mem_append_left _ hin)
    rw [List.erase_append_right _ hnot, List.erase_cons_head]
  refine ⟨{ t with qmap := qmap, pool := pool }, _, ?_, hremove, ⟨?_, ?_, rfl, h.object⟩, hstored', ?_, rfl, hget, ?_,
    hkey⟩
  · have hput' : putItem t.pool (.item a) = some pool := by
      rw [h.pool]
      exact hput
    rw [giveBack, hremoveQ, Option.bind_some, hput', Option.map_some]
  · rw [hvalues', List.map_append]
    exact hmap
  · rw [hentries', hvalues', List.map_append, hkey]
  · rw [hvalues', herase]
  · rw [h.pool]
    exact hblocks

end Shows

end

end MlnxLib.MapTrees
