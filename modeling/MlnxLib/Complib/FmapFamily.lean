import Mathlib.Order.Antisymmetrization
import MlnxLib.Complib.FmapRuns
import MlnxLib.Complib.QmapFamily

/-!
# Flexi maps are finite maps, for any consistent compare function

The keys of a flexi map are what its compare function makes of them: keys that compare as equal are one key.  A compare
function that is total and transitive is an order of these classes, into which the keys embed.

* `Consistent cmp` — what a compare function has to satisfy.
* `FmapHas s map M items` — the items of a map, in the order of its compare function.
* `FmapsAct` — a call that returns, replies and acts as on the maps from keys to items.

Principal result: `fmaps_refine` — every run of calls on several flexi maps, with merges and deltas among them, acts on
the maps from keys to items.
-/

set_option autoImplicit false

namespace MlnxLib.Fmaps

open PartialMaps Qmaps Runs

variable {ν K κ : Type} [DecidableEq ν]

/-! ## Compare functions -/

/-- **A consistent compare function**: the sign turns around with the arguments, and it is transitive.  It may find
different keys equal. -/
structure Consistent (cmp : K → K → Int) : Prop where
  swap : ∀ a b, cmp a b < 0 ↔ 0 < cmp b a
  trans : ∀ a b c, cmp a b ≤ 0 → cmp b c ≤ 0 → cmp a c ≤ 0

namespace Consistent

variable {cmp : K → K → Int}

theorem self (h : Consistent cmp) (a : K) : cmp a a = 0 := by
  have haa := h.swap a a
  omega

theorem not_le (h : Consistent cmp) (a b : K) : ¬cmp b a ≤ 0 ↔ cmp a b < 0 := by
  have hab := h.swap a b
  omega

/-- **The classes of equal keys** are in a linear order, into which the keys embed. -/
theorem embeds (h : Consistent cmp) : ∃ (κ : Type) (_ : LinearOrder κ) (e : K → κ), Embeds cmp e := by
  classical
  let _ : Preorder K :=
    { le := fun a b => cmp a b ≤ 0
      lt := fun a b => cmp a b < 0
      le_refl := fun a => (h.self a).le
      le_trans := h.trans
      lt_iff_le_not_ge := fun a b => by
        have hab := h.not_le a b
        omega }
  have _ : Std.Total (α := K) (· ≤ ·) := ⟨fun a b => by
    have hab := h.not_le a b
    change cmp a b ≤ 0 ∨ cmp b a ≤ 0
    omega⟩
  refine ⟨Antisymmetrization K (· ≤ ·), inferInstance, toAntisymmetrization (· ≤ ·), fun a b => ?_, fun a b => ?_⟩
  · rw [toAntisymmetrization_lt_toAntisymmetrization_iff]
    exact Iff.rfl
  · have hrel : toAntisymmetrization (· ≤ ·) a = toAntisymmetrization (· ≤ ·) b ↔ cmp a b ≤ 0 ∧ cmp b a ≤ 0 :=
      Quotient.eq
    have hab := h.swap a b
    have hba := h.swap b a
    rw [hrel]
    omega

end Consistent

/-! ## Maps of keys and maps of their classes -/

/-- The maps from keys, of maps from their classes. -/
def comapKeys (e : K → κ) (G : Family ν κ) : Family ν K := fun m k => G m (e k)

section Classes

variable {e : K → κ} {G : Family ν κ} {same : K → K → Prop}

theorem comapKeys_update (map : ClQmap ν) (M : κ → Option ν) :
    comapKeys e (Function.update G map M) = Function.update (comapKeys e G) map fun k => M (e k) := by
  funext m k
  by_cases hm : m = map
  · subst hm
    rw [comapKeys, Function.update_self, Function.update_self]
  · rw [comapKeys, Function.update_of_ne hm, Function.update_of_ne hm, comapKeys]

/-- **A call acts on classes** as it acts on keys. -/
theorem actAll_comapKeys [DecidableRel same] [DecidableEq κ] (hsame : ∀ a b, same a b ↔ e a = e b)
    (call : Call (ClFmap ν K) ν K) :
    actAll same (comapKeys e G) (toQmapCall id call) = comapKeys e (actAll (· = ·) G (toQmapCall e call)) := by
  cases call with
  | insert map key item =>
    simp only [toQmapCall, actAll, hsame, id]
    by_cases hnone : G map.toQmap (e key) = none
    · have hnone' : comapKeys e G map.toQmap key = none := hnone
      rw [if_pos hnone, if_pos hnone', comapKeys_update]
      rfl
    · have hnone' : ¬comapKeys e G map.toQmap key = none := hnone
      rw [if_neg hnone, if_neg hnone']
  | find map key | get map key | getNext map key => rfl
  | remove map key =>
    simp only [toQmapCall, actAll, hsame, id, comapKeys_update]
    rfl
  | removeItem map item =>
    simp only [toQmapCall, actAll, comapKeys_update]
    rfl
  | merge dest src =>
    simp only [toQmapCall, actAll, comapKeys_update]
    rfl
  | delta map1 map2 new old =>
    simp only [toQmapCall, actAll, comapKeys_update]
    rfl

end Classes

/-! ## What a memory holds -/

/-- `cl_fmap_apply_func`. -/
def clFmapApplyFunc {σ : Type} (s : Memory ν K) (map : ClFmap ν K) (pfnFunc : σ → ν → σ) (context : σ) : Option σ :=
  (clFmapHead s map).bind fun item =>
    traverse (clFmapNext s) map.nil pfnFunc (s.count map.nil + 1) context item

/-- **The items of a map** in the order of its compare function: a traversal goes through them, and a key has the item
that compares as equal to it. -/
structure FmapHas (s : Memory ν K) (map : ClFmap ν K) (M : K → Option ν) (items : List ν) : Prop where
  applies : ∀ {σ : Type} (pfnFunc : σ → ν → σ) (context : σ),
    clFmapApplyFunc s map pfnFunc context = some (items.foldl pfnFunc context)
  sorted : items.Pairwise fun x y => map.pfnCompare (s.key x) (s.key y) < 0
  lookup : ∀ key x, M key = some x ↔ x ∈ items ∧ map.pfnCompare (s.key x) key = 0
  count : s.count map.nil = items.length

/-- All maps have their items. -/
def FmapsHold (s : Memory ν K) (maps : List (ClFmap ν K)) (F : Family ν K) : Prop :=
  ∀ map ∈ maps, ∃ items, FmapHas s map (F map.toQmap) items

/-- What a call does to the maps, with the keys that compare as equal for the same. -/
def fmapAct (cmp : K → K → Int) (F : Family ν K) (call : Call (ClFmap ν K) ν K) : Family ν K :=
  actAll (fun a b => cmp a b = 0) F (toQmapCall id call)

/-- What the callers see to. -/
def FmapAllowed (maps : List (ClFmap ν K)) (F : Family ν K) (call : Call (ClFmap ν K) ν K) : Prop :=
  call.maps ⊆ maps ∧ AllowedAll (maps.map ClFmap.toQmap) F (toQmapCall id call)

/-- A call that returns, replies and acts as on the maps from keys to items. -/
def FmapsAct (cmp : K → K → Int) (s : Memory ν K) (maps : List (ClFmap ν K)) (F : Family ν K)
    (call : Call (ClFmap ν K) ν K) : Prop :=
  ∃ r s', fmapStep s call = some (r, s') ∧ Replies (fun a b => cmp a b < 0) F (toQmapCall id call) r ∧
    FmapsHold s' maps (fmapAct cmp F call)

section Steps

variable [LinearOrder κ] {e : K → κ} {cmp : K → K → Int} {maps : List (ClFmap ν K)} {s : Memory ν K} {G : Family ν κ}

omit [DecidableEq ν] [LinearOrder κ] in
/-- The keys of the items are classes of keys. -/
theorem exists_key {items : List ν} {M : κ → Option ν} (h : IndexedBy (withKeys e s).key M items) {k : κ} {x : ν}
    (hx : M k = some x) : ∃ k' : K, e k' = k :=
  ⟨s.key x, ((h k x).mp hx).2⟩

theorem fmapHas_of_isQmap (he : Embeds cmp e) {map : ClFmap ν K} (hmap : map.pfnCompare = cmp) {items : List ν}
    {M : κ → Option ν} (h : IsQmap (withKeys e s) map.toQmap items) (hidx : IndexedBy (withKeys e s).key M items) :
    FmapHas s map (fun k => M (e k)) items := by
  refine ⟨fun pfnFunc context => clQmapApplyFunc_spec h context, ?_, fun key x => ?_, h.count⟩
  · refine h.sorted.imp fun {x y} hlt => ?_
    rw [hmap]
    exact (he.lt _ _).mpr hlt
  · rw [hmap, he.eq]
    exact hidx (e key) x

theorem fmapsHold_of_holds (he : Embeds cmp e) (hmaps : ∀ map ∈ maps, map.pfnCompare = cmp)
    (h : Holds (withKeys e s) (maps.map ClFmap.toQmap) G) : FmapsHold s maps (comapKeys e G) := by
  intro map hmap
  have hmap' := List.mem_map_of_mem (f := ClFmap.toQmap) hmap
  exact ⟨_, fmapHas_of_isQmap he (hmaps map hmap) (h.stored.isQmap _ hmap') (h.indexed _ hmap')⟩

/-- **What the callers see to** with keys, they see to with classes of keys. -/
theorem allowed_of_fmapAllowed (h : Holds (withKeys e s) (maps.map ClFmap.toQmap) G) {call : Call (ClFmap ν K) ν K}
    (hcall : FmapAllowed maps (comapKeys e G) call) : AllowedAll (maps.map ClFmap.toQmap) G (toQmapCall e call) := by
  obtain ⟨-, hsub, hnd, hcall⟩ := hcall
  have hnone : ∀ m ∈ maps.map ClFmap.toQmap, (∀ k, G m (e k) = none) → ∀ k, G m k = none := by
    intro m hm hnone k
    by_contra hsome
    obtain ⟨x, hx⟩ := Option.ne_none_iff_exists'.mp hsome
    obtain ⟨k', rfl⟩ := exists_key (h.indexed m hm) hx
    exact hsome (hnone k')
  cases call with
  | insert map key item =>
    refine ⟨hsub, hnd, fun m hm => ⟨(hcall m hm).1, (hcall m hm).2.1, fun k hk => ?_⟩⟩
    obtain ⟨k', rfl⟩ := exists_key (h.indexed m hm) hk
    exact (hcall m hm).2.2 k' hk
  | removeItem map item =>
    exact ⟨hsub, hnd, hcall.imp_right fun ⟨k, hk⟩ => ⟨e k, hk⟩⟩
  | delta map1 map2 new old =>
    have hnew : new.toQmap ∈ maps.map ClFmap.toQmap := hsub (by simp [Call.maps, toQmapCall])
    have hold : old.toQmap ∈ maps.map ClFmap.toQmap := hsub (by simp [Call.maps, toQmapCall])
    exact ⟨hsub, hnd, hnone _ hnew hcall.1, hnone _ hold hcall.2⟩
  | find map key | get map key | getNext map key | remove map key | merge dest src => exact ⟨hsub, hnd, trivial⟩

/-- **The replies** for classes of keys are those for keys. -/
theorem replies_of_classes (he : Embeds cmp e) (h : Holds (withKeys e s) (maps.map ClFmap.toQmap) G)
    {call : Call (ClFmap ν K) ν K} (hsub : call.maps ⊆ maps) {r : Option ν}
    (hr : Replies (· < ·) G (toQmapCall e call) r) :
    Replies (fun a b => cmp a b < 0) (comapKeys e G) (toQmapCall id call) r := by
  cases call with
  | getNext map key =>
    obtain ⟨x, rfl, hnext⟩ := hr
    have hmap : map.toQmap ∈ maps.map ClFmap.toQmap := List.mem_map_of_mem (hsub (List.mem_singleton_self _))
    refine ⟨x, rfl, ?_⟩
    rcases hnext with ⟨hnil, hall⟩ | ⟨k, hk, hlt, hleast⟩
    · exact Or.inl ⟨hnil, fun k y hy hlt => hall (e k) y hy ((he.lt _ _).mp hlt)⟩
    · obtain ⟨k', rfl⟩ := exists_key (h.indexed _ hmap) hk
      refine Or.inr ⟨k', hk, (he.lt _ _).mpr hlt, fun k y hy hlt' hlt'' => ?_⟩
      exact hleast (e k) y hy ((he.lt _ _).mp hlt') ((he.lt _ _).mp hlt'')
  | insert map key item | find map key | get map key | remove map key | removeItem map item | merge dest src
  | delta map1 map2 new old => exact hr

/-- **One call** on flexi maps acts on the maps from classes of keys. -/
theorem fmapStep_acts (he : Embeds cmp e) (hmaps : ∀ map ∈ maps, map.pfnCompare = cmp)
    (h : Holds (withKeys e s) (maps.map ClFmap.toQmap) G) {call : Call (ClFmap ν K) ν K}
    (hcall : FmapAllowed maps (comapKeys e G) call) :
    ∃ r s', fmapStep s call = some (r, s') ∧
      Replies (fun a b => cmp a b < 0) (comapKeys e G) (toQmapCall id call) r ∧
      Holds (withKeys e s') (maps.map ClFmap.toQmap) (actAll (· = ·) G (toQmapCall e call)) ∧
      comapKeys e (actAll (· = ·) G (toQmapCall e call)) = fmapAct cmp (comapKeys e G) call := by
  obtain ⟨r, s₁, hstep, hreply, hholds⟩ := h.step (allowed_of_fmapAllowed h hcall)
  have hembeds : ∀ map ∈ call.maps, Embeds map.pfnCompare e := fun map hmap => hmaps map (hcall.1 hmap) ▸ he
  rw [fmapStep_eq s call hembeds] at hstep
  obtain ⟨⟨r', s'⟩, hstep', hpair⟩ := Option.map_eq_some_iff.mp hstep
  obtain ⟨rfl, rfl⟩ := Prod.mk.inj hpair
  exact ⟨r', s', hstep', replies_of_classes he h hcall.1 hreply, hholds, (actAll_comapKeys he.eq call).symm⟩

/-- **A run** of calls on flexi maps. -/
theorem fmapRun_acts (he : Embeds cmp e) (hmaps : ∀ map ∈ maps, map.pfnCompare = cmp) :
    ∀ {s : Memory ν K} {G : Family ν κ} (calls : List (Call (ClFmap ν K) ν K)),
      Holds (withKeys e s) (maps.map ClFmap.toQmap) G →
      AllMeet (fun F call => some (fmapAct cmp F call)) (FmapAllowed maps) (comapKeys e G) calls →
      ∃ s' G', run (fun s call => (fmapStep s call).map Prod.snd) s calls = some s' ∧
        Holds (withKeys e s') (maps.map ClFmap.toQmap) G' ∧
        comapKeys e G' = calls.foldl (fmapAct cmp) (comapKeys e G)
  | s, G, [], h, _ => ⟨s, G, rfl, h, rfl⟩
  | s, G, call :: calls, h, hcalls => by
    obtain ⟨hcall, hcalls⟩ := hcalls
    obtain ⟨r, s₁, hstep, -, h₁, hact⟩ := fmapStep_acts he hmaps h hcall
    have hrest := hcalls _ rfl
    rw [← hact] at hrest
    obtain ⟨s', G', hrun, h', hfold⟩ := fmapRun_acts he hmaps calls h₁ hrest
    refine ⟨s', G', ?_, h', ?_⟩
    · rw [run_cons, hstep, Option.map_some, Option.bind_some, hrun]
    · rw [hfold, hact, List.foldl_cons]

end Steps

/-- **Flexi maps refine finite maps**, for any compare function that is total and transitive.  Every run of calls on
several maps that its callers are allowed to make returns; then every map has the items of its map from keys to items
in the order of the compare function, and every further call that is allowed returns, replies and acts as on those
maps, merges and deltas of whole maps included. -/
theorem fmaps_refine (cmp : K → K → Int) (hcmp : Consistent cmp) (maps : List (ClFmap ν K))
    (hmaps : ∀ map ∈ maps, map.pfnCompare = cmp) (s : Memory ν K)
    (hnd : (maps.flatMap fun m => [m.nil, m.root]).Nodup) (calls : List (Call (ClFmap ν K) ν K))
    (hcalls : AllMeet (fun F call => some (fmapAct cmp F call)) (FmapAllowed maps) noneAtAll calls) :
    ∃ s', run (fun s call => (fmapStep s call).map Prod.snd) (fmapInitAll s maps) calls = some s' ∧
      FmapsHold s' maps (calls.foldl (fmapAct cmp) noneAtAll) ∧
      ∀ call, FmapAllowed maps (calls.foldl (fmapAct cmp) noneAtAll) call →
        FmapsAct cmp s' maps (calls.foldl (fmapAct cmp) noneAtAll) call := by
  obtain ⟨κ, _, e, he⟩ := hcmp.embeds
  have hinit : Holds (withKeys e (fmapInitAll s maps)) (maps.map ClFmap.toQmap) (noneAtAll : Family ν κ) := by
    rw [fmapInitAll_eq]
    exact Holds.init _ (flatMap_toQmap maps ▸ hnd)
  obtain ⟨s', G, hrun, h, hfold⟩ := fmapRun_acts he hmaps calls hinit hcalls
  have hfold' : comapKeys e G = calls.foldl (fmapAct cmp) noneAtAll := hfold
  refine ⟨s', hrun, hfold' ▸ fmapsHold_of_holds he hmaps h, fun call hcall => ?_⟩
  rw [← hfold'] at hcall ⊢
  obtain ⟨r, s₁, hstep, hreply, h₁, hact⟩ := fmapStep_acts he hmaps h hcall
  exact ⟨r, s₁, hstep, hreply, hact ▸ fmapsHold_of_holds he hmaps h₁⟩

/-- A compare function that looks at the tens only. -/
def tensCompare (a b : Fin 40) : Int := (a.val / 10 : Int) - (b.val / 10 : Int)

theorem tensFmap_ne (nil : Nat) : nil ≠ nil + 1 := (Nat.succ_ne_self nil).symm

def tensFmap (nil : Nat) : ClFmap Nat (Fin 40) := ⟨nil, nil + 1, tensFmap_ne nil, tensCompare⟩

def tensFmaps : List (ClFmap Nat (Fin 40)) := [tensFmap 0, tensFmap 2, tensFmap 4, tensFmap 6]

def tensStart : Memory Nat (Fin 40) :=
  ⟨⟨fun _ _ => 0, fun _ => 0, fun _ => .black⟩, fun _ => Ring.Link.null, fun _ => 0, fun _ => 0⟩

/-- An insertion of a key that compares as equal to one that is there, a delta and a merge. -/
def tensCalls : List (Call (ClFmap Nat (Fin 40)) Nat (Fin 40)) :=
  [.insert (tensFmap 0) 10 8, .insert (tensFmap 0) 13 9, .insert (tensFmap 0) 25 10, .insert (tensFmap 2) 21 11,
    .delta (tensFmap 0) (tensFmap 2) (tensFmap 4) (tensFmap 6), .merge (tensFmap 6) (tensFmap 2)]

theorem tensCompare_consistent : Consistent tensCompare := by
  constructor
  · intro a b
    simp only [tensCompare]
    omega
  · intro a b c
    simp only [tensCompare]
    omega

theorem tensCalls_allowed :
    AllMeet (fun F call => some (fmapAct tensCompare F call)) (FmapAllowed tensFmaps) noneAtAll tensCalls := by
  have hsub : ∀ call ∈ tensCalls, call.maps ⊆ tensFmaps := by
    simp [tensCalls, Call.maps, tensFmaps]
  simp only [tensCalls, List.forall_mem_cons] at hsub
  obtain ⟨h1, h2, h3, h4, h5, h6, -⟩ := hsub
  simp only [tensCalls, AllMeet, Option.mem_some_iff, forall_eq', FmapAllowed, and_true]
  refine ⟨⟨h1, ?_⟩, ⟨h2, ?_⟩, ⟨h3, ?_⟩, ⟨h4, ?_⟩, ⟨h5, ?_⟩, h6, ?_⟩
  all_goals
    simp only [AllowedAll, toQmapCall]
    decide +kernel

theorem fmaps_refine_sample :
    ∃ s', run (fun s call => (fmapStep s call).map Prod.snd) (fmapInitAll tensStart tensFmaps) tensCalls = some s' ∧
      FmapsHold s' tensFmaps (tensCalls.foldl (fmapAct tensCompare) noneAtAll) ∧
      ∀ call, FmapAllowed tensFmaps (tensCalls.foldl (fmapAct tensCompare) noneAtAll) call →
        FmapsAct tensCompare s' tensFmaps (tensCalls.foldl (fmapAct tensCompare) noneAtAll) call := by
  have hmaps : ∀ map ∈ tensFmaps, map.pfnCompare = tensCompare := by
    simp [tensFmaps, tensFmap]
  exact fmaps_refine tensCompare tensCompare_consistent tensFmaps hmaps tensStart (by decide) tensCalls
    tensCalls_allowed

end MlnxLib.Fmaps
