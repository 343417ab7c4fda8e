import Mathlib.Order.Fin.Basic
import MlnxLib.Complib.FmapAgree
import MlnxLib.Complib.QmapStore

/-!
# Runs of flexi maps and quick maps

Corresponding calls on flexi maps and on quick maps, with the compare functions embedded into the order of the keys.

* `fmapStep` — the calls on flexi maps, next to `qmapStep`.
* `Call.toQmap` — the corresponding call on quick maps, with the embedded key.
* `fmapStep_eq` — both return the same item, and leave the same trees, lists and counts.

Principal result: `fmaps_agree` — the same for every run, from any memory; and every run of legal calls returns.
-/

set_option autoImplicit false

namespace MlnxLib.Fmaps

open RedBlack Qmaps Runs

variable {ν K κ : Type} [DecidableEq ν]

/-- A call: the item that it returns, if it does, and the memory after it. -/
def fmapStep (s : Memory ν K) : Call (ClFmap ν K) ν K → Option (Option ν × Memory ν K)
  | .insert map key item => (clFmapInsert s map key item).map fun r => (some r.1, r.2)
  | .find map key => (clFmapMatch s map key none).map fun item => (some item, s)
  | .get map key => (clFmapGet s map key).map fun item => (some item, s)
  | .getNext map key => (clFmapGetNext s map key).map fun item => (some item, s)
  | .remove map key => (clFmapRemove s map key).map fun r => (some r.1, r.2)
  | .removeItem map item => (clFmapRemoveItem s map item).map fun s => (none, s)
  | .merge dest src => (clFmapMerge s dest src).map fun s => (none, s)
  | .delta map1 map2 new old => (clFmapDelta s map1 map2 new old).map fun s => (none, s)

/-- The corresponding call on quick maps. -/
def toQmapCall (e : K → κ) : Call (ClFmap ν K) ν K → Call (ClQmap ν) ν κ
  | .insert map key item => .insert map.toQmap (e key) item
  | .find map key => .find map.toQmap (e key)
  | .get map key => .get map.toQmap (e key)
  | .getNext map key => .getNext map.toQmap (e key)
  | .remove map key => .remove map.toQmap (e key)
  | .removeItem map item => .removeItem map.toQmap item
  | .merge dest src => .merge dest.toQmap src.toQmap
  | .delta map1 map2 new old => .delta map1.toQmap map2.toQmap new.toQmap old.toQmap

/-- `cl_fmap_init` of all maps. -/
def fmapInitAll (s : Memory ν K) (maps : List (ClFmap ν K)) : Memory ν K := maps.foldl clFmapInit s

/-- What the callers see to, as for the quick maps; it does not look at keys. -/
def FmapLegal (maps : List (ClFmap ν K)) (s : Memory ν K) (call : Call (ClFmap ν K) ν K) : Prop :=
  Legal (maps.map ClFmap.toQmap) s (toQmapCall id call)

instance (maps : List (ClFmap ν K)) (s : Memory ν K) (call : Call (ClFmap ν K) ν K) :
    Decidable (FmapLegal maps s call) :=
  inferInstanceAs (Decidable (Legal (maps.map ClFmap.toQmap) s (toQmapCall id call)))

theorem fmapInitAll_eq (e : K → κ) : ∀ (maps : List (ClFmap ν K)) (s : Memory ν K),
    withKeys e (fmapInitAll s maps) = initAll (withKeys e s) (maps.map ClFmap.toQmap)
  | [], _ => rfl
  | map :: maps, s => fmapInitAll_eq e maps (clFmapInit s map)

theorem fmapLegal_iff (e : K → κ) {maps : List (ClFmap ν K)} {s : Memory ν K} {call : Call (ClFmap ν K) ν K} :
    FmapLegal maps s call ↔ Legal (maps.map ClFmap.toQmap) (withKeys e s) (toQmapCall e call) := by
  unfold FmapLegal Legal
  cases call <;> exact Iff.rfl

variable [LinearOrder κ] {e : K → κ}

/-- **A call on flexi maps is that on quick maps**, from any memory. -/
theorem fmapStep_eq (s : Memory ν K) (call : Call (ClFmap ν K) ν K)
    (he : ∀ map ∈ call.maps, Embeds map.pfnCompare e) :
    qmapStep (withKeys e s) (toQmapCall e call) = (fmapStep s call).map (Prod.map id (withKeys e)) := by
  cases call with
  | insert map key item =>
    rw [fmapStep, toQmapCall, qmapStep, ← clFmapInsert_eq (he map (List.mem_singleton_self _)), Option.map_map,
      Option.map_map]
    rfl
  | find map key =>
    rw [fmapStep, toQmapCall, qmapStep, clFmapMatch_eq (he map (List.mem_singleton_self _)) rfl, Option.map_map]
    rfl
  | get map key =>
    rw [fmapStep, toQmapCall, qmapStep, clFmapGet, clFmapMatch_eq (he map (List.mem_singleton_self _)) rfl,
      Option.map_map]
    rfl
  | getNext map key =>
    rw [fmapStep, toQmapCall, qmapStep, clFmapGetNext_eq (he map (List.mem_singleton_self _)), Option.map_map]
    rfl
  | remove map key =>
    rw [fmapStep, toQmapCall, qmapStep, ← clFmapRemove_eq (he map (List.mem_singleton_self _)), Option.map_map,
      Option.map_map]
    rfl
  | removeItem map item =>
    rw [fmapStep, toQmapCall, qmapStep, ← clFmapRemoveItem_eq, Option.map_map, Option.map_map]
    rfl
  | merge dest src =>
    have hdest := he dest (List.mem_cons_self ..)
    have hsrc := he src (List.mem_cons_of_mem _ (List.mem_singleton_self _))
    rw [fmapStep, toQmapCall, qmapStep, ← clFmapMerge_eq hdest hsrc, Option.map_map, Option.map_map]
    rfl
  | delta map1 map2 new old =>
    have h1 := he map1 (by simp [Call.maps])
    have hnew := he new (by simp [Call.maps])
    have hold := he old (by simp [Call.maps])
    rw [fmapStep, toQmapCall, qmapStep, ← clFmapDelta_eq h1 hnew hold, Option.map_map, Option.map_map]
    rfl

omit [DecidableEq ν] [LinearOrder κ] in
theorem flatMap_toQmap (maps : List (ClFmap ν K)) :
    ((maps.map ClFmap.toQmap).flatMap fun m => m.nodes []) = maps.flatMap fun m => [m.nil, m.root] := by
  rw [List.flatMap_map]
  rfl

/-- **Flexi maps agree with quick maps.**  From any memory, a run of calls on flexi maps returns the items that the
corresponding run on quick maps returns, and after every call the trees with their colours, the lists and the counts
are the same; and from initialised maps, every run of legal calls returns, with all maps well formed. -/
theorem fmaps_agree (e : K → κ) (maps : List (ClFmap ν K)) (he : ∀ map ∈ maps, Embeds map.pfnCompare e)
    (calls : List (Call (ClFmap ν K) ν K)) (hcalls : ∀ call ∈ calls, call.maps ⊆ maps) :
    (∀ s : Memory ν K, trace qmapStep (withKeys e s) (calls.map (toQmapCall e)) =
      (trace fmapStep s calls).map (List.map (Prod.map id (withKeys e)))) ∧
    ∀ s : Memory ν K, (maps.flatMap fun m => [m.nil, m.root]).Nodup →
      AllMeet (fun s call => (fmapStep s call).map Prod.snd) (FmapLegal maps) (fmapInitAll s maps) calls →
      ∃ rs, trace fmapStep (fmapInitAll s maps) calls = some rs ∧
        trace qmapStep (initAll (withKeys e s) (maps.map ClFmap.toQmap)) (calls.map (toQmapCall e)) =
          some (rs.map (Prod.map id (withKeys e))) ∧
        ∀ r ∈ rs, Stored (withKeys e r.2) (maps.map ClFmap.toQmap) := by
  have hlock : ∀ s : Memory ν K, trace qmapStep (withKeys e s) (calls.map (toQmapCall e)) =
      (trace fmapStep s calls).map (List.map (Prod.map id (withKeys e))) := fun s =>
    trace_map s calls fun s call hcall => fmapStep_eq s call fun map hmap => he map (hcalls call hcall hmap)
  refine ⟨hlock, fun s hnd hlegal => ?_⟩
  have hinit : Stored (withKeys e (fmapInitAll s maps)) (maps.map ClFmap.toQmap) := by
    rw [fmapInitAll_eq]
    exact stored_init _ (flatMap_toQmap maps ▸ hnd)
  have hstep : ∀ s, ∀ call ∈ calls, Stored (withKeys e s) (maps.map ClFmap.toQmap) → FmapLegal maps s call →
      ∃ r, fmapStep s call = some r ∧ Stored (withKeys e r.2) (maps.map ClFmap.toQmap) := by
    intro s call hcall hs hl
    obtain ⟨r', hr', hs'⟩ := hs.step ((fmapLegal_iff e).mp hl)
    rw [fmapStep_eq s call fun map hmap => he map (hcalls call hcall hmap)] at hr'
    obtain ⟨r, hr, rfl⟩ := Option.map_eq_some_iff.mp hr'
    exact ⟨r, hr, hs'⟩
  obtain ⟨rs, hrs, hstored⟩ := exists_trace (I := fun s => Stored (withKeys e s) _) calls hstep hinit hlegal
  refine ⟨rs, hrs, ?_, hstored⟩
  rw [← fmapInitAll_eq, hlock, hrs, Option.map_some]

/-- A compare function of small keys, and their embedding into 64-bit keys. -/
def sampleCompare (a b : Fin 100) : Int := (a : Int) - b

def sampleEmbed (k : Fin 100) : Fin 18446744073709551616 := ⟨2 * k.val, by omega⟩

def sampleFmap (nil : Nat) : ClFmap Nat (Fin 100) := ⟨nil, nil + 1, Nat.succ_ne_self nil |>.symm, sampleCompare⟩

def sampleFmaps : List (ClFmap Nat (Fin 100)) := [sampleFmap 0, sampleFmap 2, sampleFmap 4, sampleFmap 6]

def sampleStart : Memory Nat (Fin 100) :=
  ⟨⟨fun _ _ => 0, fun _ => 0, fun _ => .black⟩, fun _ => Ring.Link.null, fun _ => 0, fun _ => 0⟩

/-- Insertions into two maps, a removal, their delta, and a merge with a key that is there. -/
def sampleCalls : List (Call (ClFmap Nat (Fin 100)) Nat (Fin 100)) :=
  [.insert (sampleFmap 0) 10 8, .insert (sampleFmap 0) 20 9, .insert (sampleFmap 0) 30 10, .insert (sampleFmap 2) 20 11,
    .find (sampleFmap 0) 20, .removeItem (sampleFmap 0) 8,
    .delta (sampleFmap 0) (sampleFmap 2) (sampleFmap 4) (sampleFmap 6), .merge (sampleFmap 2) (sampleFmap 0)]

theorem sampleEmbed_embeds : Embeds sampleCompare sampleEmbed := by
  constructor <;> intro a b <;> simp only [sampleCompare, sampleEmbed, Fin.lt_def, Fin.ext_iff] <;> omega

theorem sampleCalls_legal : AllMeet (fun s call => (fmapStep s call).map Prod.snd) (FmapLegal sampleFmaps)
    (fmapInitAll sampleStart sampleFmaps) sampleCalls := by decide +kernel

theorem fmaps_agree_sample :
    (∀ s : Memory Nat (Fin 100), trace qmapStep (withKeys sampleEmbed s) (sampleCalls.map (toQmapCall sampleEmbed)) =
      (trace fmapStep s sampleCalls).map (List.map (Prod.map id (withKeys sampleEmbed)))) ∧
    ∃ rs, trace fmapStep (fmapInitAll sampleStart sampleFmaps) sampleCalls = some rs ∧
      trace qmapStep (initAll (withKeys sampleEmbed sampleStart) (sampleFmaps.map ClFmap.toQmap))
        (sampleCalls.map (toQmapCall sampleEmbed)) = some (rs.map (Prod.map id (withKeys sampleEmbed))) ∧
      ∀ r ∈ rs, Stored (withKeys sampleEmbed r.2) (sampleFmaps.map ClFmap.toQmap) := by
  have hmaps : ∀ map ∈ sampleFmaps, Embeds map.pfnCompare sampleEmbed := by
    intro map hmap
    simp only [sampleFmaps, List.mem_cons, List.not_mem_nil, or_false] at hmap
    rcases hmap with rfl | rfl | rfl | rfl <;> exact sampleEmbed_embeds
  have hcalls : ∀ call ∈ sampleCalls, call.maps ⊆ sampleFmaps := by
    intro call hcall
    simp only [sampleCalls, List.mem_cons, List.not_mem_nil, or_false] at hcall
    rcases hcall with rfl | rfl | rfl | rfl | rfl | rfl | rfl | rfl <;> simp [Call.maps, sampleFmaps]
  obtain ⟨hlock, hrun⟩ := fmaps_agree sampleEmbed sampleFmaps hmaps sampleCalls hcalls
  exact ⟨hlock, hrun sampleStart (by decide) sampleCalls_legal⟩

end MlnxLib.Fmaps
