import Mathlib.Data.Finset.Card
import MlnxLib.CtrlLearn.Conservation

/-!
# Room in the head pool

A key has a list head as long as an item is linked there: a port item of a record, at the key of its port,
or a port-and-vid item, of which each record has one.  The heads in use are therefore at most the ports
and the records together, in every state and also between the de-links and links of one call.

* `CoveredBy L Q R` — the items of the filter lists are those of the ports `Q` and of the records `R`.

Principal results: `CoveredBy.heads_le`, `CoveredBy.heads_add_cost_le` — heads are at most ports and
records, also with one more at the key of a port; `linkAllCost_le`, `canMove_of_room` — the links of a
new record and of a record that moves find their heads, whatever 64-bit ports there are.
-/

set_option autoImplicit false

namespace MlnxLib.CtrlLearn

/-- The slots of the stored records. -/
def Fdb.slots (s : Fdb) : Finset Nat := s.fdbMap.values.toFinset

/-- The port of a record. -/
def Fdb.portOf (s : Fdb) (i : Nat) : UInt64 := (s.records i).macParams.logPort

theorem Fdb.mem_slots {s : Fdb} {i : Nat} : i ∈ s.slots ↔ i ∈ s.fdbMap.values := List.mem_toFinset

theorem FdbInv.slots_card {s : Fdb} {L : Index} (h : FdbInv s L) : s.slots.card = s.fdbMap.count := by
  rw [Fdb.slots, List.toFinset_card_of_nodup h.pool.values_nodup, OrdMap.length_values]

/-! ## Covers -/

/-- The items that the filter lists hold: port items at the keys of `Q`, and port-and-vid items of `R`. -/
structure CoveredBy (L : Index) (Q : Finset UInt64) (R : Finset Nat) : Prop where
  vid : ∀ {k i}, .entry .vid i ∉ L (.key k)
  port : ∀ {k i}, .entry .port i ∈ L (.key k) → ∃ p ∈ Q, k = buildPortKey p
  vidPort : ∀ {k i}, .entry .vidPort i ∈ L (.key k) → i ∈ R

/-- A head cost is at most one. -/
theorem headCost_le_one (L : Index) (k : Nat) : headCost L k ≤ 1 := by
  unfold headCost
  split <;> omega

namespace CoveredBy

variable {s : Fdb} {L L' : Index} {Q : Finset UInt64} {R : Finset Nat}

/-- **Heads are at most ports and records.** -/
theorem heads_le (hc : CoveredBy L Q R) (hr : Represents s L) :
    s.fbdFilterMap.count ≤ Q.card + R.card := by
  classical
  let keys := (s.fbdFilterMap.entries.map (·.1)).toFinset
  have hcount : s.fbdFilterMap.count = keys.card := by
    rw [List.toFinset_card_of_nodup s.fbdFilterMap.keys_nodup, List.length_map]
    rfl
  -- a key of no port in `Q` has the port-and-vid item of a record, which is linked nowhere else
  have hitem : ∀ k, ∃ i, k ∈ keys → (¬ ∃ p ∈ Q, k = buildPortKey p) →
      i ∈ R ∧ .entry .vidPort i ∈ L (.key k) := by
    intro k
    by_cases hk : k ∈ keys ∧ ¬ ∃ p ∈ Q, k = buildPortKey p
    · obtain ⟨hk, hp⟩ := hk
      obtain ⟨⟨k', j⟩, hmem, rfl⟩ := List.mem_map.mp (List.mem_toFinset.mp hk)
      obtain ⟨n, hn⟩ := List.exists_mem_of_ne_nil _ (hr.heads (OrdMap.mem_entries_iff.mp hmem))
      cases n with
      | vlanEnd v => exact absurd (hr.family.items hn) id
      | fltrEnd j => exact absurd (hr.family.items hn) id
      | entry f i =>
        cases f with
        | vid => exact absurd hn hc.vid
        | port => exact absurd (hc.port hn) hp
        | vidPort => exact ⟨i, fun _ _ => ⟨hc.vidPort hn, hn⟩⟩
    · exact ⟨0, fun h h' => absurd ⟨h, h'⟩ hk⟩
  choose item hitem using hitem
  have hports : (keys.filter fun k => ∃ p ∈ Q, k = buildPortKey p).card ≤ Q.card := by
    refine (Finset.card_le_card ?_).trans (Finset.card_image_le (f := buildPortKey) (s := Q))
    intro k hk
    obtain ⟨p, hp, rfl⟩ := (Finset.mem_filter.mp hk).2
    exact Finset.mem_image_of_mem _ hp
  have hrecords : (keys.filter fun k => ¬ ∃ p ∈ Q, k = buildPortKey p).card ≤ R.card := by
    refine Finset.card_le_card_of_injOn item ?_ ?_
    · intro k hk
      obtain ⟨hk, hp⟩ := Finset.mem_filter.mp hk
      exact (hitem k hk hp).1
    · intro k hk k' hk' heq
      obtain ⟨hk, hp⟩ := Finset.mem_filter.mp hk
      obtain ⟨hk', hp'⟩ := Finset.mem_filter.mp hk'
      have hl := (hitem k hk hp).2
      have hl' := (hitem k' hk' hp').2
      rw [heq] at hl
      exact Loc.key.inj (hr.family.disj hl hl')
  rw [hcount, ← Finset.card_filter_add_card_filter_not (fun k => ∃ p ∈ Q, k = buildPortKey p)]
  omega

/-- **A link at the key of a port of the cover** finds its head: a key without a head is one port less. -/
theorem heads_add_cost_le (hc : CoveredBy L Q R) (hr : Represents s L) {p : UInt64} (hp : p ∈ Q) :
    s.fbdFilterMap.count + headCost L (buildPortKey p) ≤ Q.card + R.card := by
  unfold headCost
  split
  · rename_i hnil
    have herase : CoveredBy L (Q.erase p) R := by
      refine ⟨hc.vid, fun {k i} hi => ?_, hc.vidPort⟩
      obtain ⟨q, hq, rfl⟩ := hc.port hi
      refine ⟨q, Finset.mem_erase.mpr ⟨?_, hq⟩, rfl⟩
      rintro rfl
      rw [hnil] at hi
      cases hi
    have hle := herase.heads_le hr
    have hcard := Finset.card_erase_of_mem hp
    have hpos := Finset.card_pos.mpr ⟨p, hp⟩
    omega
  · exact hc.heads_le hr

theorem insert_port (hc : CoveredBy L Q R) {p : UInt64} (hp : p ∈ Q) (i : Nat) :
    CoveredBy (L.insert (.key (buildPortKey p)) (.entry .port i)) Q R := by
  refine ⟨fun {k j} hj => ?_, fun {k j} hj => ?_, fun {k j} hj => ?_⟩
  · exact hc.vid (by simpa [Index.mem_insert] using hj)
  · rcases Index.mem_insert.mp hj with hj | ⟨hk, -⟩
    · exact hc.port hj
    · exact ⟨p, hp, Loc.key.inj hk⟩
  · exact hc.vidPort (by simpa [Index.mem_insert] using hj)

theorem remove (hc : CoveredBy L Q R) (hr : Represents s L) {l : Loc} {x : Node} (hx : x ∈ L l) :
    CoveredBy (L.remove l x) Q R :=
  ⟨fun {_ _} hi => hc.vid ((hr.mem_remove hx).mp hi).1, fun {_ _} hi => hc.port ((hr.mem_remove hx).mp hi).1,
    fun {_ _} hi => hc.vidPort ((hr.mem_remove hx).mp hi).1⟩

theorem remove_vidPort (hc : CoveredBy L Q R) (hr : Represents s L) {l : Loc} {i : Nat}
    (hx : .entry .vidPort i ∈ L l) : CoveredBy (L.remove l (.entry .vidPort i)) Q (R.erase i) := by
  refine ⟨(hc.remove hr hx).vid, (hc.remove hr hx).port, fun {k j} hj => ?_⟩
  obtain ⟨hj, hne⟩ := (hr.mem_remove hx).mp hj
  refine Finset.mem_erase.mpr ⟨?_, hc.vidPort hj⟩
  rintro rfl
  exact hne rfl

theorem mono (hc : CoveredBy L Q R) {Q' : Finset UInt64} (h : Q ⊆ Q') : CoveredBy L Q' R := by
  refine ⟨hc.vid, fun {k i} hi => ?_, hc.vidPort⟩
  obtain ⟨p, hp, hk⟩ := hc.port hi
  exact ⟨p, h hp, hk⟩

end CoveredBy

/-! ## Room for one call -/

section Room

variable {s : Fdb} {L : Index}

/-- The items of a reachable state are those of its ports and its records. -/
theorem FdbInv.coveredBy (h : FdbInv s L) : CoveredBy L (s.slots.image s.portOf) s.slots := by
  refine ⟨fun {k i} hi => ?_, fun {k i} hi => ?_, fun {k i} hi => Fdb.mem_slots.mpr (h.owned hi)⟩
  · cases (h.home i).vid hi
  · have hslot := Fdb.mem_slots.mpr (h.owned hi)
    exact ⟨s.portOf i, Finset.mem_image_of_mem _ hslot, Loc.key.inj ((h.home i).port hi)⟩

/-- **A new record finds its heads.** -/
theorem linkAllCost_le (h : FdbInv s L) {i j : Nat} {pool : Pool} {p : MacParams}
    (hp : clPoolGet s.mainDbPool = some (j, pool))
    (hports : (insert p.logPort (s.slots.image s.portOf)).card ≤ MAX_PORT_ENTRIES) :
    linkAllCost L i p ≤ clPoolCount s.fdbFltrPool := by
  have hcover := h.coveredBy.mono (Finset.subset_insert p.logPort _)
  have hheads := hcover.heads_add_cost_le h.index (Finset.mem_insert_self p.logPort _)
  have hcost := headCost_le_one (L.insert (.key (buildPortKey p.logPort)) (.entry .port i))
    (buildPortVidKey p.logPort p.vid)
  have hslots := h.slots_card
  have hmain := h.pool.count
  have hfltr := h.index.pool.count
  have hpos := clPoolGet_count hp
  unfold linkAllCost
  unfold MAX_FILTER_ENTRIES MAX_FDB_ENTRIES MAX_PORT_ENTRIES at *
  omega

section Move

variable {i : Nat} {p q : MacParams}

/-- Without its port item, the ports of the other records cover the heads. -/
theorem coveredBy_remove_port (h : FdbInv s L) (hlp : .entry .port i ∈ L (.key (buildPortKey p.logPort))) :
    CoveredBy (L.remove (.key (buildPortKey p.logPort)) (.entry .port i))
      (insert q.logPort ((s.slots.erase i).image s.portOf)) s.slots := by
  have hcover := h.coveredBy.remove h.index hlp
  refine ⟨hcover.vid, fun {k j} hj => ?_, hcover.vidPort⟩
  obtain ⟨hj, hne⟩ := (h.index.mem_remove hlp).mp hj
  have hji : j ≠ i := by
    rintro rfl
    exact hne rfl
  have hslot := Finset.mem_erase.mpr ⟨hji, Fdb.mem_slots.mpr (h.owned hj)⟩
  exact ⟨s.portOf j, Finset.mem_insert_of_mem (Finset.mem_image_of_mem _ hslot),
    Loc.key.inj ((h.home j).port hj)⟩

/-- **The port item of a record that moves finds its head**, which may be the one just given back. -/
theorem canSwap_of_room (h : FdbInv s L) (hlp : .entry .port i ∈ L (.key (buildPortKey p.logPort)))
    (hports : (insert q.logPort ((s.slots.erase i).image s.portOf)).card ≤ MAX_PORT_ENTRIES) :
    CanSwap L (buildPortKey p.logPort) (buildPortKey q.logPort) (.entry .port i)
      (clPoolCount s.fdbFltrPool) := by
  obtain ⟨-, hr₁, -, hcount₁, -⟩ := delink_spec h.index hlp
  have hroom := (coveredBy_remove_port (q := q) h hlp).heads_add_cost_le hr₁
    (Finset.mem_insert_self q.logPort _)
  have hslots := h.slots_card
  have hmain := h.pool.count
  have hfltr := hr₁.pool.count
  refine ⟨hlp, ?_⟩
  unfold MAX_FILTER_ENTRIES MAX_FDB_ENTRIES MAX_PORT_ENTRIES at *
  omega

/-- **A record that moves finds its heads**, also between its de-links and its links. -/
theorem canMove_of_room (h : FdbInv s L) (hi : i ∈ s.fdbMap.values)
    (hlp : .entry .port i ∈ L (.key (buildPortKey p.logPort)))
    (hlv : .entry .vidPort i ∈ L (.key (buildPortVidKey p.logPort q.vid)))
    (hports : (insert q.logPort ((s.slots.erase i).image s.portOf)).card ≤ MAX_PORT_ENTRIES) :
    CanMove L i p q (clPoolCount s.fdbFltrPool) := by
  have hswap := canSwap_of_room h hlp hports
  obtain ⟨-, hr₂, -, hcount₂⟩ := swap_spec h.index hswap
  have hr₂ : Represents _ (movePort L i p q) := hr₂
  have hmem₂ : .entry .vidPort i ∈ movePort L i p q (.key (buildPortVidKey p.logPort q.vid)) :=
    (h.index.mem_swap hlp).mpr (Or.inl ⟨hlv, by simp⟩)
  have hcover₂ : CoveredBy (movePort L i p q)
      (insert q.logPort ((s.slots.erase i).image s.portOf)) s.slots :=
    (coveredBy_remove_port h hlp).insert_port (Finset.mem_insert_self _ _) i
  -- without the port-and-vid item of the record, there is one record less
  obtain ⟨-, hr₃, -, hcount₃, -⟩ := delink_spec hr₂ hmem₂
  have hroom := (hcover₂.remove_vidPort hr₂ hmem₂).heads_le hr₃
  have hslot := Fdb.mem_slots.mpr hi
  have hcard := Finset.card_erase_of_mem hslot
  have hpos := Finset.card_pos.mpr ⟨i, hslot⟩
  have hcost := headCost_le_one ((movePort L i p q).remove (.key (buildPortVidKey p.logPort q.vid))
    (.entry .vidPort i)) (buildPortVidKey q.logPort q.vid)
  have hslots := h.slots_card
  have hmain := h.pool.count
  have hfltr := hr₃.pool.count
  refine ⟨hswap, hmem₂, ?_⟩
  unfold MAX_FILTER_ENTRIES MAX_FDB_ENTRIES MAX_PORT_ENTRIES at *
  omega

end Move

end Room

end MlnxLib.CtrlLearn
