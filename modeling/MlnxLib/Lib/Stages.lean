import Mathlib.Data.List.Perm.Basic
import Mathlib.Data.List.Nodup

/-!
# Keys in stages

Some keys are held, each by one holder at one stage of its work; every other key is free.  What is true
of a key depends on its stage.

* `Staged` — no key is held twice, and each key is as its stage says.

Principal results: `Staged.move`, `Staged.add`, `Staged.remove` — a key goes to another stage, is taken
up or set free, while nothing happens to the others.
-/

set_option autoImplicit false

namespace MlnxLib.Stages

variable {K S : Type}

/-- Each held key is at one stage, and is as this stage says. -/
structure Staged (held : List (K × S)) (Free : K → Prop) (Phase : S → K → Prop) : Prop where
  nodup : (held.map Prod.fst).Nodup
  phase : ∀ k st, (k, st) ∈ held → Phase st k
  free : ∀ k, k ∉ held.map Prod.fst → Free k

section

variable {held held' : List (K × S)} {Free Free' : K → Prop} {Phase Phase' : S → K → Prop} {k : K} {st st' : S}

/-- Every key stays as it is. -/
theorem Staged.mono (h : Staged held Free Phase) (hfree : ∀ k, Free k → Free' k)
    (hphase : ∀ st k, Phase st k → Phase' st k) : Staged held Free' Phase' :=
  ⟨h.nodup, fun k st hk => hphase st k (h.phase k st hk), fun k hk => hfree k (h.free k hk)⟩

/-- The order of the holders does not matter. -/
theorem Staged.perm (h : Staged held Free Phase) (hperm : held'.Perm held) : Staged held' Free Phase where
  nodup := (hperm.map Prod.fst).nodup_iff.mpr h.nodup
  phase k st hk := h.phase k st (hperm.mem_iff.mp hk)
  free k hk := h.free k fun hmem => hk ((hperm.map Prod.fst).mem_iff.mpr hmem)

/-- The key of the first holder is held by no other. -/
theorem Staged.ne_of_mem (h : Staged ((k, st) :: held) Free Phase) {k' : K} {st' : S}
    (hk : (k', st') ∈ held) : k' ≠ k := by
  rintro rfl
  exact (List.nodup_cons.mp h.nodup).1 (List.mem_map.mpr ⟨_, hk, rfl⟩)

/-- **A key goes to another stage.** -/
theorem Staged.move (h : Staged ((k, st) :: held) Free Phase) (hfree : ∀ j, j ≠ k → Free j → Free' j)
    (hphase : ∀ st j, j ≠ k → Phase st j → Phase' st j) (hk : Phase' st' k) :
    Staged ((k, st') :: held) Free' Phase' where
  nodup := h.nodup
  phase j stj hj := by
    rcases List.mem_cons.mp hj with heq | hj
    · cases heq
      exact hk
    · exact hphase stj j (h.ne_of_mem hj) (h.phase j stj (List.mem_cons_of_mem _ hj))
  free j hj := hfree j (fun heq => hj (heq ▸ List.mem_cons_self ..)) (h.free j hj)

/-- **A free key is taken up.** -/
theorem Staged.add (h : Staged held Free Phase) (hnew : k ∉ held.map Prod.fst)
    (hfree : ∀ j, j ≠ k → Free j → Free' j) (hphase : ∀ st j, j ≠ k → Phase st j → Phase' st j)
    (hk : Phase' st k) : Staged ((k, st) :: held) Free' Phase' where
  nodup := List.nodup_cons.mpr ⟨hnew, h.nodup⟩
  phase j stj hj := by
    rcases List.mem_cons.mp hj with heq | hmem
    · cases heq
      exact hk
    · have hheld : j ∈ held.map Prod.fst := List.mem_map.mpr ⟨(j, stj), hmem, rfl⟩
      exact hphase stj j (fun heq => hnew (heq ▸ hheld)) (h.phase j stj hmem)
  free j hj := by
    rw [List.map_cons, List.mem_cons, not_or] at hj
    exact hfree j hj.1 (h.free j hj.2)

/-- **A key is set free.** -/
theorem Staged.remove (h : Staged ((k, st) :: held) Free Phase) (hfree : ∀ j, j ≠ k → Free j → Free' j)
    (hphase : ∀ st j, j ≠ k → Phase st j → Phase' st j) (hk : Free' k) : Staged held Free' Phase' where
  nodup := (List.nodup_cons.mp h.nodup).2
  phase j stj hj := hphase stj j (h.ne_of_mem hj) (h.phase j stj (List.mem_cons_of_mem _ hj))
  free j hj := by
    by_cases heq : j = k
    · rw [heq]
      exact hk
    · refine hfree j heq (h.free j ?_)
      rw [List.map_cons, List.mem_cons, not_or]
      exact ⟨heq, hj⟩

end

end MlnxLib.Stages
