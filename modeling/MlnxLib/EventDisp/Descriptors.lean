import MlnxLib.EventDisp.SocketTable
import MlnxLib.Lib.Runs

/-!
# Closing only what was opened

`event_disp_api_open` cleans up the structure of its caller when it fails, and documents that it then
resets it, as `event_disp_api_close` does.

* `callStep` — the static data after a call.
* `ClosesOwn` — a call closes only descriptors that the library has open, and leaves the structure of its
  caller as documented.
* `OnlyResets` — when a call does so: a structure that is cleaned up or closed has no descriptor in it.

Principal results: `closesOwn_iff` — in every run the calls behave if and only if they meet that condition;
`strays_and_leftovers` — a call before the initialisation closes the standard input, and a failed open and
a close leave numbers behind.
-/

set_option autoImplicit false

namespace MlnxLib.EventDisp

open Runs

/-! ## The property -/

/-- The static data after a call. -/
def callStep (s : Disp) (call : Call) : Option Disp := (callResult s call).map Result.state

/-- The structure of the caller after a call, as documented. -/
def Documented : Call → Result → Prop
  | .open _ _, r => r.err ≠ .success → ∀ fds ∈ r.fds, fds = .reset
  | .close _ _, r => (∀ fds ∈ r.fds, fds = .reset) ∧
      ∀ answers, (eventDispApiClose r.state r.fds answers).state.held = r.state.held ∧
        (eventDispApiClose r.state r.fds answers).state.stray = r.state.stray
  | _, _ => True

/-- **A call closes only what the library has open**, and leaves the structure as documented. -/
def ClosesOwn (s : Disp) (call : Call) : Prop :=
  ∀ r, callResult s call = some r → r.state.stray = s.stray ∧ Documented call r

/-- An open stops at a check only with an empty structure, or gets past its first socket only to open all
three; a close has an empty structure. -/
def OnlyResets (s : Disp) : Call → Prop
  | .open (some fds) answers =>
    (OpenStops s answers.lock → fds = .reset) ∧
      (¬ OpenStops s answers.lock → ¬ answers.high.fails → ¬ answers.med.fails ∧ ¬ answers.low.fails)
  | .close (some fds) _ => fds = .reset
  | _ => True

instance (s : Disp) : (call : Call) → Decidable (OnlyResets s call)
  | .open (some _) _ => inferInstanceAs (Decidable ((_ → _) ∧ (_ → _ → _ ∧ _)))
  | .close (some fds) _ => inferInstanceAs (Decidable (fds = .reset))
  | .open none _ => isTrue trivial
  | .close none _ => isTrue trivial
  | .init _ => isTrue trivial
  | .deinit _ _ => isTrue trivial

/-! ## All states -/

/-- The table is right, or the library is not initialised yet. -/
def Sound (s : Disp) : Prop := Table s ∨ s.init = false ∧ s.held = ∅

section

variable {s s' : Disp} {call : Call} {r : Result}

theorem Sound.down (h : Sound s) (hinit : s.init = false) : s.held = ∅ :=
  h.elim (fun ht => ht.down hinit) And.right

theorem Sound.table (h : Sound s) (hinit : s.init ≠ false) : Table s :=
  h.resolve_right fun hdown => hinit hdown.1

theorem bailSocket_down (h : s.held = ∅) (fd : Int) :
    (bailSocket s fd).held = ∅ ∧ (bailSocket s fd).init = s.init := by
  have hclose : (s.closeFd fd).held = ∅ ∧ (s.closeFd fd).init = s.init := by
    unfold Disp.closeFd
    rw [if_neg (by rw [h]; exact Finset.notMem_empty fd)]
    exact ⟨h, rfl⟩
  unfold bailSocket eventDispCloseSocket
  split
  · split
    · exact ⟨h, rfl⟩
    · exact hclose
  · exact ⟨h, rfl⟩

theorem callResult_sound (h : Sound s) (hr : callResult s call = some r) : Sound r.state := by
  rcases h with htable | ⟨hinit, hheld⟩
  · exact Or.inl (callResult_table htable hr)
  cases call with
  | init mutex =>
    cases hr
    rcases eventDispApiInit_spec s mutex fun _ => hheld with ⟨hup, -⟩ | ⟨-, htable, -⟩
    · exact absurd (hup.symm.trans hinit) (by decide)
    · exact Or.inl htable
  | deinit closes mutex =>
    cases hr
    unfold eventDispApiDeinit
    rw [if_pos hinit]
    exact Or.inr ⟨hinit, hheld⟩
  | «open» fds answers =>
    have ho : eventDispApiOpen s fds answers = some r := hr
    cases fds with
    | none =>
      rw [(eventDispApiOpen_null ho).2.2.2]
      exact Or.inr ⟨hinit, hheld⟩
    | some fds =>
      obtain ⟨err, -, rfl, -⟩ := eventDispApiOpen_stops (Or.inl hinit) ho
      obtain ⟨hheld₁, hinit₁⟩ := bailSocket_down hheld fds.highFd
      obtain ⟨hheld₂, hinit₂⟩ := bailSocket_down hheld₁ fds.medFd
      obtain ⟨hheld₃, hinit₃⟩ := bailSocket_down hheld₂ fds.lowFd
      exact Or.inr ⟨hinit₃.trans (hinit₂.trans (hinit₁.trans hinit)), hheld₃⟩
  | close fds answers =>
    cases hr
    rw [eventDispApiClose_stops fds (Or.inl hinit)]
    exact Or.inr ⟨hinit, hheld⟩

theorem callStep_sound (h : Sound s) (hstep : callStep s call = some s') : Sound s' := by
  obtain ⟨r, hr, rfl⟩ := Option.map_eq_some_iff.mp hstep
  exact callResult_sound h hr

/-! ## Each call -/

/-- An open behaves if and only if it meets the condition. -/
theorem closesOwn_open_iff {fds : EventDispFds} {answers : OpenAnswers} (h : Sound s)
    (ho : eventDispApiOpen s (some fds) answers = some r) :
    (r.state.stray = s.stray ∧ (r.err ≠ .success → ∀ fds ∈ r.fds, fds = .reset)) ↔
      OnlyResets s (.open (some fds) answers) := by
  by_cases hstops : OpenStops s answers.lock
  · obtain ⟨err, herr, rfl, -⟩ := eventDispApiOpen_stops hstops ho
    constructor
    · rintro ⟨-, hreset⟩
      exact ⟨fun _ => hreset herr fds rfl, fun hpasses => absurd hstops hpasses⟩
    · rintro ⟨hreset, -⟩
      obtain rfl := hreset hstops
      rw [openBail_reset]
      refine ⟨rfl, fun _ fds hfds => ?_⟩
      cases hfds
      rfl
  · have htable := h.table (not_or.mp hstops).1
    constructor
    · rintro ⟨-, hreset⟩
      refine ⟨fun hstops' => absurd hstops' hstops, fun _ hfirst => ?_⟩
      cases eventDispApiOpen_sockets htable hstops ho with
      | connected _ _ _ _ hanswers _ _ _ _ _ _ => exact hanswers.2
      | first hanswer => exact absurd hanswer hfirst
      | later fds' _ _ _ hfds _ _ _ _ => exact absurd (hreset socketError_ne fds' rfl) hfds
    · rintro ⟨-, hall⟩
      cases eventDispApiOpen_sockets htable hstops ho with
      | connected _ _ _ _ _ _ _ _ _ _ hstray => exact ⟨hstray, fun herr => absurd rfl herr⟩
      | first _ =>
        refine ⟨rfl, fun _ fds hfds => ?_⟩
        cases hfds
        rfl
      | later _ _ hfirst hlater _ _ _ _ _ =>
        obtain ⟨hmed, hlow⟩ := hall hstops hfirst
        exact absurd hlater (not_or.mpr ⟨hmed, hlow⟩)

/-- A close behaves if and only if it has nothing to close. -/
theorem closesOwn_close_iff (s : Disp) (fds : EventDispFds) (answers : CloseAnswers) :
    ClosesOwn s (.close (some fds) answers) ↔ fds = .reset := by
  have hfds := eventDispApiClose_fds s (some fds) answers
  constructor
  · intro h
    obtain ⟨-, hreset, -⟩ := h _ rfl
    exact hreset fds hfds
  · rintro rfl r hr
    cases hr
    refine ⟨(eventDispApiClose_reset s answers).2, ?_, ?_⟩
    · intro fds' hfds'
      rw [hfds] at hfds'
      cases hfds'
      rfl
    · intro answers'
      rw [hfds]
      exact eventDispApiClose_reset _ answers'

theorem closesOwn_close_null (s : Disp) (answers : CloseAnswers) : ClosesOwn s (.close none answers) := by
  have hsame : ∀ s answers, eventDispApiClose s none answers =
      ⟨if s.init = false then .notInit else .paramNull, none, s⟩ := by
    intro s answers
    unfold eventDispApiClose
    split <;> rfl
  intro r hr
  cases hr
  rw [hsame]
  refine ⟨rfl, fun fds hfds => ?_, fun answers' => ?_⟩
  · cases hfds
  · rw [hsame]
    exact ⟨rfl, rfl⟩

/-- **Each call behaves if and only if it meets the condition.** -/
theorem callStep_closesOwn_iff (h : Sound s) (hstep : callStep s call = some s') :
    ClosesOwn s call ↔ OnlyResets s call := by
  obtain ⟨r, hr, rfl⟩ := Option.map_eq_some_iff.mp hstep
  cases call with
  | init mutex =>
    refine ⟨fun _ => trivial, fun _ r hr => ?_⟩
    cases hr
    rcases eventDispApiInit_spec s mutex h.down with ⟨-, hsame⟩ | ⟨-, -, hstray, -⟩
    · exact ⟨congrArg Disp.stray hsame, trivial⟩
    · exact ⟨hstray, trivial⟩
  | deinit closes mutex =>
    refine ⟨fun _ => trivial, fun _ r hr => ?_⟩
    cases hr
    by_cases hinit : s.init = false
    · unfold eventDispApiDeinit
      rw [if_pos hinit]
      exact ⟨rfl, trivial⟩
    · exact ⟨(eventDispApiDeinit_spec (h.table hinit) closes mutex).2.1, trivial⟩
  | «open» fds answers =>
    have ho : eventDispApiOpen s fds answers = some r := hr
    cases fds with
    | none =>
      obtain ⟨-, -, hnull, hsame⟩ := eventDispApiOpen_null ho
      refine ⟨fun _ => trivial, fun _ r' hr' => ?_⟩
      cases Option.some.inj (hr.symm.trans hr')
      refine ⟨congrArg Disp.stray hsame, fun _ fds hfds => ?_⟩
      rw [hnull] at hfds
      cases hfds
    | some fds =>
      rw [← closesOwn_open_iff h ho]
      constructor
      · exact fun hown => hown r hr
      · intro hown r' hr'
        cases Option.some.inj (hr.symm.trans hr')
        exact hown
  | close fds answers =>
    cases fds with
    | none => exact ⟨fun _ => trivial, fun _ => closesOwn_close_null s answers⟩
    | some fds => exact closesOwn_close_iff s fds answers

end

/-! ## All runs -/

/-- **The calls of a run close only what the library has open, and leave the structures as documented, if
and only if** all of them meet the condition. -/
theorem closesOwn_iff (calls : List Call) (s : Disp) (hrun : run callStep bootDisp calls = some s) :
    AllMeet callStep ClosesOwn bootDisp calls ↔ AllMeet callStep OnlyResets bootDisp calls :=
  allMeet_congr (J := Sound) (fun h hstep => callStep_sound h hstep)
    (fun h hstep => callStep_closesOwn_iff h hstep) calls (Or.inr ⟨rfl, rfl⟩) hrun

/-- An initialisation, a connection and a deinitialisation. -/
theorem closesOwn_iff_connection :
    AllMeet callStep ClosesOwn bootDisp
        [.init true, .open (some ⟨8, 8, 9⟩) (openOk 5 6 7), .deinit (fun _ => true) true] ↔
      AllMeet callStep OnlyResets bootDisp
        [.init true, .open (some ⟨8, 8, 9⟩) (openOk 5 6 7), .deinit (fun _ => true) true] :=
  closesOwn_iff _ _ rfl

/-- The first three calls of a run in which a connection is closed twice. -/
def closedOnce : List Call :=
  [.init true, .open (some .reset) (openOk 5 6 7), .close (some ⟨5, 6, 7⟩) closeOk]

/-- **Descriptors of others are closed, and numbers are left behind**: an open before the initialisation
closes what is in the structure; an open whose second socket fails leaves the number of the first; a close
leaves all three numbers, and a second one closes them again. -/
theorem strays_and_leftovers :
    ((callResult bootDisp (.open (some ⟨0, 1, 2⟩) (openOk 5 6 7))).map fun r => (r.err, r.state.stray)) =
      some (.notInit, [0, 1, 2]) ∧
    ((run callStep bootDisp [.init true]).bind fun s =>
      (callResult s (.open (some .reset) ⟨true, socketOk 5, ⟨none, true⟩, socketOk 6⟩)).map fun r =>
        (r.err, r.fds)) = some (.socketError, some ⟨5, -1, -1⟩) ∧
    ((run callStep bootDisp closedOnce).bind fun s =>
      (callResult s (.close (some ⟨5, 6, 7⟩) closeOk)).map fun r => (r.fds, r.state.stray)) =
      some (some ⟨5, 6, 7⟩, [5, 6, 7]) ∧
    ¬ AllMeet callStep ClosesOwn bootDisp [.open (some ⟨0, 1, 2⟩) (openOk 5 6 7)] ∧
    ¬ AllMeet callStep ClosesOwn bootDisp closedOnce := by
  have hopen : ((callResult bootDisp (.open (some ⟨0, 1, 2⟩) (openOk 5 6 7))).map fun r =>
      (r.err, r.state.stray)) = some (.notInit, [0, 1, 2]) := by
    decide +kernel
  refine ⟨hopen, by decide +kernel, by decide +kernel, ?_, ?_⟩
  · rintro ⟨h, -⟩
    obtain ⟨r, hr, hsummary⟩ := Option.map_eq_some_iff.mp hopen
    have hstray : r.state.stray = [] := (h r hr).1
    have hstray' : r.state.stray = [0, 1, 2] := congrArg Prod.snd hsummary
    rw [hstray] at hstray'
    cases hstray'
  · intro h
    have hmeet := (allMeet_congr (J := Sound) (fun h hstep => callStep_sound h hstep)
      (fun h hstep => callStep_closesOwn_iff h hstep) closedOnce (Or.inr ⟨rfl, rfl⟩) rfl).mp h
    revert hmeet
    decide +kernel

end MlnxLib.EventDisp
