import MlnxLib.CtrlLearn.SetCall
import MlnxLib.CtrlLearn.Cookie

/-!
# The cookies of a batch

The set call carries the cookie of a record in a local variable and in the notify records, and calls
`COOKIE_OP_INIT` for a record without one.  The variable is not cleared, so that a new entry after a changed
one has the cookie of that one.

* `CookiesKept` — the stored keys have the cookies they had, the new ones cookies of their own.
* `overtakes` — a new entry is stored after one of a stored key.

Principal results: `updateDb_cookies` — the update pass; `batch_cookies_iff` — the call keeps the cookies apart
exactly when no new entry overtakes.
-/

set_option autoImplicit false

namespace MlnxLib.CtrlLearn

/-- The stored keys have the cookies they had; the new keys have cookies that the calls returned; no two keys
have the same. -/
structure CookiesKept (base lib : Lib) (calls : List CookieCall) : Prop where
  log : lib.cookieLog = base.cookieLog ++ calls
  old : ∀ k, base.fdb.cookieAt k ≠ none → lib.fdb.cookieAt k = base.fdb.cookieAt k
  own : ∀ k x, base.fdb.cookieAt k = none → lib.fdb.cookieAt k = some x →
    ∃ c, x = some c ∧ .init (some c) ∈ calls
  distinct : ∀ k k' x, lib.fdb.cookieAt k = some x → lib.fdb.cookieAt k' = some x → k = k'

/-- From here on, inits succeed and return a cookie that no record has and that no init since has returned. -/
def FreshFor (cb : CookieCb) (lib : Lib) : Prop :=
  ∀ calls, ∃ c, cb (lib.cookieLog ++ calls) .init none = (0, some c) ∧ .init (some c) ∉ calls ∧
    ∀ k, lib.fdb.cookieAt k ≠ some (some c)

/-- The cookies are distinct, and none is `NULL`. -/
structure CookiesDistinct (s : Fdb) : Prop where
  distinct : ∀ k k' x, s.cookieAt k = some x → s.cookieAt k' = some x → k = k'
  nonNull : ∀ k, s.cookieAt k ≠ some none

theorem CookiesDistinct.kept {lib : Lib} (h : CookiesDistinct lib.fdb) : CookiesKept lib lib [] := by
  refine ⟨(List.append_nil _).symm, fun _ _ => rfl, fun k x hnone hx => ?_, h.distinct⟩
  rw [hnone] at hx
  cases hx

namespace CookiesKept

variable {base lib lib' : Lib} {calls : List CookieCall}

theorem congr (h : CookiesKept base lib calls) (hsame : lib'.fdb.cookieAt = lib.fdb.cookieAt)
    {more : List CookieCall} (hlog : lib'.cookieLog = lib.cookieLog ++ more) :
    CookiesKept base lib' (calls ++ more) := by
  refine ⟨?_, ?_, ?_, ?_⟩
  · rw [hlog, h.log, List.append_assoc]
  · rw [hsame]
    exact h.old
  · rw [hsame]
    intro k x hnone hx
    obtain ⟨c, hc, hmem⟩ := h.own k x hnone hx
    exact ⟨c, hc, List.mem_append_left _ hmem⟩
  · rw [hsame]
    exact h.distinct

/-- A fresh cookie is no record's. -/
theorem fresh (h : CookiesKept base lib calls) {c : Nat} (hcalls : .init (some c) ∉ calls)
    (hbase : ∀ k, base.fdb.cookieAt k ≠ some (some c)) (k : Nat) : lib.fdb.cookieAt k ≠ some (some c) := by
  intro hk
  by_cases hnone : base.fdb.cookieAt k = none
  · obtain ⟨c', hc', hmem⟩ := h.own k _ hnone hk
    rw [Option.some_inj] at hc'
    exact hcalls (hc' ▸ hmem)
  · exact hbase k (h.old k hnone ▸ hk)

/-- **A new key with a fresh cookie.** -/
theorem insert (h : CookiesKept base lib calls) {k c : Nat} (hnew : base.fdb.cookieAt k = none)
    (hcalls : .init (some c) ∉ calls) (hbase : ∀ k, base.fdb.cookieAt k ≠ some (some c))
    (hat : lib'.fdb.cookieAt = Function.update lib.fdb.cookieAt k (some (some c)))
    (hlog : lib'.cookieLog = lib.cookieLog ++ [.init (some c)]) :
    CookiesKept base lib' (calls ++ [.init (some c)]) := by
  have hother := h.fresh hcalls hbase
  refine ⟨?_, fun k' hold => ?_, fun k' x hnone hx => ?_, fun k₁ k₂ x h₁ h₂ => ?_⟩
  · rw [hlog, h.log, List.append_assoc]
  · have hne : k' ≠ k := by
      rintro rfl
      exact hold hnew
    rw [hat, Function.update_of_ne hne]
    exact h.old k' hold
  · rw [hat] at hx
    by_cases hk : k' = k
    · subst hk
      rw [Function.update_self, Option.some_inj] at hx
      exact ⟨c, hx.symm, by simp⟩
    · rw [Function.update_of_ne hk] at hx
      obtain ⟨c', hc', hmem⟩ := h.own k' x hnone hx
      exact ⟨c', hc', List.mem_append_left _ hmem⟩
  · rw [hat] at h₁ h₂
    by_cases hk₁ : k₁ = k
    · by_cases hk₂ : k₂ = k
      · rw [hk₁, hk₂]
      · subst hk₁
        rw [Function.update_self] at h₁
        rw [Function.update_of_ne hk₂, ← h₁] at h₂
        exact absurd h₂ (hother k₂)
    · rw [Function.update_of_ne hk₁] at h₁
      by_cases hk₂ : k₂ = k
      · subst hk₂
        rw [Function.update_self] at h₂
        rw [← h₂] at h₁
        exact absurd h₁ (hother k₁)
      · rw [Function.update_of_ne hk₂] at h₂
        exact h.distinct k₁ k₂ x h₁ h₂

end CookiesKept

/-! ## Collecting -/

/-- What the notify records carry: the record of a stored key its own cookie, that of a new key the one of
the last stored key before it. -/
def Carries (s : Fdb) : Option Nat → List NotifyRecord → Prop
  | _, [] => True
  | cookie, r :: rs =>
    if (s.lookup r.params.key).isSome then s.cookieAt r.params.key = some r.cookie ∧ Carries s r.cookie rs
    else r.cookie = cookie ∧ Carries s cookie rs

theorem collectRecords_carries {s : Fdb} {L : Index} (h : FdbInv s L) (cookie : Option Nat)
    (ms : List MacEntry) : Carries s cookie (collectRecords s .add cookie ms) := by
  induction ms generalizing cookie with
  | nil => trivial
  | cons m ms ih =>
    rw [collectRecords]
    unfold fdbUcDbGetRecordByKey
    rw [if_neg (by simp [h.ready])]
    cases hk : s.fdbMap.get m.macParams.key with
    | none =>
      have hlook : (s.lookup m.macParams.key).isSome = false := by simp [Fdb.lookup, hk]
      dsimp only
      rw [if_pos ⟨rfl, rfl⟩, Carries, hlook]
      exact ⟨rfl, ih cookie⟩
    | some i =>
      have hlook : (s.lookup m.macParams.key).isSome = true := by simp [Fdb.lookup, hk]
      have hcookie : s.cookieAt m.macParams.key = some (s.records i).cookie := by
        simp [Fdb.cookieAt, Fdb.lookup, hk]
      dsimp only
      rw [if_pos rfl]
      split
      · exact ih cookie
      · rw [Carries, hlook]
        exact ⟨hcookie, ih _⟩

/-! ## The update pass -/

section Update

variable {env : Env} {cb : CookieCb} {lib base : Lib} {L : Index}

/-- **One approved record**: it has its own cookie, or that of an init. -/
theorem addRecord_cookie (hcb : env.initDeinitCb = some cb) (h : FdbInv lib.fdb L) (r : NotifyRecord)
    {c : Nat} (hinit : r.cookie = none → cb lib.cookieLog .init none = (0, some c))
    (hown : ∀ c', r.cookie = some c' → c' = c) :
    (∃ L', FdbInv (addRecord env lib r).2.fdb L') ∧
    (addRecord env lib r).2.cookieLog =
      lib.cookieLog ++ (if r.cookie = none then [.init (some c)] else []) ∧
    ((addRecord env lib r).1 = -ENOMEM ↔ lib.fdb.lookup r.params.key = none ∧ lib.fdb.free = 0) ∧
    (∀ k, r.params.key ≠ k → (addRecord env lib r).2.fdb.lookup k = lib.fdb.lookup k) ∧
    (addRecord env lib r).2.fdb.cookieAt =
      if lib.fdb.lookup r.params.key = none ∧ lib.fdb.free = 0 then lib.fdb.cookieAt
      else Function.update lib.fdb.cookieAt r.params.key (some (some c)) := by
  have hresult : addRecord env lib r = ((fdbUcDbAddRecord lib.fdb (some (setEntry r (some c)))).1,
      { lib with
        fdb := (fdbUcDbAddRecord lib.fdb (some (setEntry r (some c)))).2
        cookieLog := lib.cookieLog ++ (if r.cookie = none then [.init (some c)] else []) }) := by
    unfold addRecord
    cases hc : r.cookie with
    | some c' =>
      rw [← hown c' hc, if_neg (by simp), List.append_nil]
    | none => simp [initCookie, hcb, hinit hc]
  rw [hresult]
  refine ⟨add_inv h _, rfl, ?_, fun k hk => ?_, ?_⟩
  · rw [lookup_none_iff]
    exact add_enomem_iff h _
  · rw [add_lookup h, if_neg]
    exact fun hc => hk hc.1.symm
  · funext k
    unfold Fdb.cookieAt
    rw [add_lookup h, setEntry_key]
    by_cases hk : k = r.params.key
    · subst hk
      simp only [true_and, ← lookup_none_iff]
      split
      · simp [setEntry]
      · rename_i hfull
        rw [if_pos (not_not.mp hfull)]
    · rw [if_neg (fun hc => hk hc.1)]
      split
      · rfl
      · simp [Function.update_of_ne hk]

/-- A new entry is stored after one of a stored key. -/
def overtakes (env : Env) (s : Fdb) : Bool → Lib → List NotifyRecord → Bool
  | _, _, [] => false
  | seen, lib, r :: rs =>
    if (s.lookup r.params.key).isSome then
      decide ((addRecord env lib r).1 = 0) && overtakes env s true (addRecord env lib r).2 rs
    else
      (seen && decide (lib.fdb.free ≠ 0)) ||
        (decide ((addRecord env lib r).1 = 0) && overtakes env s seen (addRecord env lib r).2 rs)

/-- The records of a list change no other key. -/
theorem updateDb_other (env : Env) (rs : List NotifyRecord) (err : Int) (h : FdbInv lib.fdb L) {k : Nat}
    (hk : ∀ r ∈ rs, r.params.key ≠ k) :
    (updateDb env .add [] lib err rs).2.fdb.lookup k = lib.fdb.lookup k := by
  induction rs generalizing lib L err with
  | nil => rfl
  | cons r rs ih =>
    obtain ⟨hr, hrs⟩ := List.forall_mem_cons.mp hk
    obtain ⟨⟨L', h'⟩, hother⟩ := addRecord_other env h r
    rw [updateDb]
    split
    · exact ih err h hrs
    · rw [if_pos rfl]
      dsimp only
      split
      · exact hother k hr
      · rw [ih _ h' hrs, hother k hr]

/-- The record of a stored key keeps its cookie. -/
theorem CookiesKept.addStored (hcb : env.initDeinitCb = some cb) (hbase : CookiesDistinct base.fdb)
    (h : FdbInv lib.fdb L) {calls : List CookieCall} (hkept : CookiesKept base lib calls) {r : NotifyRecord}
    (hleft : lib.fdb.lookup r.params.key = base.fdb.lookup r.params.key)
    (hown : base.fdb.cookieAt r.params.key = some r.cookie) :
    ∃ calls', CookiesKept base (addRecord env lib r).2 calls' := by
  obtain ⟨c, hc⟩ : ∃ c, r.cookie = some c := by
    cases hc : r.cookie with
    | none =>
      rw [hc] at hown
      exact absurd hown (hbase.nonNull _)
    | some c => exact ⟨c, rfl⟩
  obtain ⟨-, hlog, -, -, hat⟩ := addRecord_cookie hcb h r (c := c) (fun hn => by rw [hc] at hn; cases hn)
    (fun c' hc' => by rw [hc, Option.some_inj] at hc'; exact hc'.symm)
  have hold : lib.fdb.cookieAt r.params.key = some (some c) := by
    rw [Fdb.cookieAt, hleft, ← hc]
    exact hown
  have hsame : (addRecord env lib r).2.fdb.cookieAt = lib.fdb.cookieAt := by
    rw [hat]
    split
    · rfl
    · rw [← hold, Function.update_eq_self]
  exact ⟨_, hkept.congr hsame hlog⟩

/-- A record of a new key without a cookie gets one of its own. -/
theorem CookiesKept.addNew (hcb : env.initDeinitCb = some cb) (hfresh : FreshFor cb base)
    (h : FdbInv lib.fdb L) {calls : List CookieCall} (hkept : CookiesKept base lib calls) {r : NotifyRecord}
    (hcookie : r.cookie = none) (hnone : lib.fdb.lookup r.params.key = none)
    (hnew : base.fdb.cookieAt r.params.key = none) :
    ∃ calls', CookiesKept base (addRecord env lib r).2 calls' := by
  obtain ⟨c, hinit, hcalls, hfdb⟩ := hfresh calls
  rw [← hkept.log] at hinit
  obtain ⟨-, hlog, -, -, hat⟩ := addRecord_cookie hcb h r (c := c) (fun _ => hinit)
    (fun c' hc' => by rw [hcookie] at hc'; cases hc')
  rw [if_pos hcookie] at hlog
  refine ⟨calls ++ [.init (some c)], ?_⟩
  by_cases hfull : lib.fdb.free = 0
  · rw [if_pos ⟨hnone, hfull⟩] at hat
    exact hkept.congr hat hlog
  · rw [if_neg (fun hc => hfull hc.2)] at hat
    exact hkept.insert hnew hcalls hfdb hat hlog

/-- A record of a new key that has a cookie is stored with it, if there is room. -/
theorem addRecord_carried (hcb : env.initDeinitCb = some cb) (h : FdbInv lib.fdb L) {r : NotifyRecord} {c : Nat}
    (hcookie : r.cookie = some c) (hnone : lib.fdb.lookup r.params.key = none) :
    (addRecord env lib r).2.cookieLog = lib.cookieLog ++ [] ∧
    (addRecord env lib r).2.fdb.cookieAt =
      if lib.fdb.free = 0 then lib.fdb.cookieAt
      else Function.update lib.fdb.cookieAt r.params.key (some (some c)) := by
  obtain ⟨-, hlog, -, -, hat⟩ := addRecord_cookie hcb h r (c := c)
    (fun hn => by rw [hcookie] at hn; cases hn)
    (fun c' hc' => by rw [hcookie, Option.some_inj] at hc'; exact hc'.symm)
  rw [if_neg (by rw [hcookie]; exact Option.some_ne_none c)] at hlog
  refine ⟨hlog, hat.trans (if_congr ?_ rfl rfl)⟩
  exact and_iff_right hnone

/-- A new key with the cookie of a stored one stays in the way to the end of the pass. -/
theorem not_kept_of_carried (h : FdbInv lib.fdb L) {r : NotifyRecord} {rs : List NotifyRecord} {err : Int}
    {k₀ : Nat} {x : Option Nat} (hr : r.decision = .approve) (hne : ∀ r' ∈ rs, r.params.key ≠ r'.params.key)
    (hnew : base.fdb.cookieAt r.params.key = none) (hk₀ : base.fdb.cookieAt k₀ = some x)
    (hmid : (addRecord env lib r).2.fdb.cookieAt r.params.key = some x) (calls : List CookieCall) :
    ¬CookiesKept base (updateDb env .add [] lib err (r :: rs)).2 calls := by
  intro hlast
  obtain ⟨⟨L', h'⟩, -⟩ := addRecord_other env h r
  have hnot : ¬ (r.decision ≠ .approve ∨ isFailedMac [] r = true) := by simp [hr, isFailedMac]
  have hend : (updateDb env .add [] lib err (r :: rs)).2.fdb.cookieAt r.params.key = some x := by
    rw [updateDb, if_neg hnot, if_pos rfl]
    dsimp only
    split
    · exact hmid
    · unfold Fdb.cookieAt
      rw [updateDb_other env rs _ h' (fun r' hr' => (hne r' hr').symm)]
      exact hmid
  have hkeep := hlast.old k₀ (by rw [hk₀]; simp)
  rw [hk₀] at hkeep
  rw [hlast.distinct _ _ _ hend hkeep, hk₀] at hnew
  cases hnew

/-- **The update pass** keeps the cookies apart exactly when no new entry overtakes.  The induction is on the
records; `cookie` is the one that a new record carries. -/
theorem updateDb_cookies (hcb : env.initDeinitCb = some cb) (hfresh : FreshFor cb base)
    (hbase : CookiesDistinct base.fdb) (rs : List NotifyRecord) (err : Int) {calls : List CookieCall}
    {cookie : Option Nat} (seen : Bool) (h : FdbInv lib.fdb L) (hkept : CookiesKept base lib calls)
    (hcarry : Carries base.fdb cookie rs)
    (hseen : if seen then ∃ k, base.fdb.cookieAt k = some cookie else cookie = none)
    (hnd : (rs.map fun r => r.params.key).Nodup) (happ : ∀ r ∈ rs, r.decision = .approve)
    (hleft : ∀ r ∈ rs, lib.fdb.lookup r.params.key = base.fdb.lookup r.params.key) :
    (∃ calls', CookiesKept base (updateDb env .add [] lib err rs).2 calls') ↔
      overtakes env base.fdb seen lib rs = false := by
  induction rs generalizing lib L err calls cookie seen with
  | nil => exact iff_of_true ⟨calls, hkept⟩ rfl
  | cons r rs ih =>
    obtain ⟨hr, hrs⟩ := List.forall_mem_cons.mp happ
    obtain ⟨hleft_r, hleft_rs⟩ := List.forall_mem_cons.mp hleft
    rw [List.map_cons, List.nodup_cons] at hnd
    have hne : ∀ r' ∈ rs, r.params.key ≠ r'.params.key :=
      fun r' hr' heq => hnd.1 (List.mem_map.mpr ⟨r', hr', heq.symm⟩)
    have hnot : ¬ (r.decision ≠ .approve ∨ isFailedMac [] r = true) := by simp [hr, isFailedMac]
    have hother : ∀ r' ∈ rs, (addRecord env lib r).2.fdb.lookup r'.params.key =
        base.fdb.lookup r'.params.key := by
      intro r' hr'
      rw [(addRecord_other env h r).2 _ (hne r' hr')]
      exact hleft_rs r' hr'
    -- once the record is written with the cookies apart, the rest decides
    have hnext : ∀ {cookie' : Option Nat} (seen' : Bool),
        (∃ calls', CookiesKept base (addRecord env lib r).2 calls') → Carries base.fdb cookie' rs →
        (if seen' then ∃ k, base.fdb.cookieAt k = some cookie' else cookie' = none) →
        ((∃ calls', CookiesKept base (updateDb env .add [] lib err (r :: rs)).2 calls') ↔
          (decide ((addRecord env lib r).1 = 0) && overtakes env base.fdb seen' (addRecord env lib r).2 rs) =
            false) := by
      rintro cookie' seen' ⟨calls', hkept'⟩ hcarry' hseen'
      obtain ⟨⟨L', h'⟩, -⟩ := addRecord_other env h r
      rw [updateDb, if_neg hnot, if_pos rfl]
      dsimp only
      by_cases herr : (addRecord env lib r).1 = 0
      · rw [if_neg (not_not.mpr herr), decide_eq_true herr, Bool.true_and]
        exact ih _ seen' h' hkept' hcarry' hseen' hnd.2 hrs hother
      · rw [if_pos herr, decide_eq_false herr, Bool.false_and]
        exact iff_of_true ⟨calls', hkept'⟩ rfl
    rw [Carries] at hcarry
    rw [overtakes]
    by_cases hstored : (base.fdb.lookup r.params.key).isSome = true
    · -- a stored key keeps its cookie
      rw [if_pos hstored] at hcarry ⊢
      obtain ⟨hown, hcarry⟩ := hcarry
      refine hnext true (hkept.addStored hcb hbase h hleft_r hown) hcarry ?_
      rw [if_pos rfl]
      exact ⟨_, hown⟩
    · rw [if_neg hstored] at hcarry ⊢
      obtain ⟨hcookie, hcarry⟩ := hcarry
      have hnone : lib.fdb.lookup r.params.key = none := by
        rw [hleft_r]
        simpa using hstored
      have hnew : base.fdb.cookieAt r.params.key = none := by
        rw [Fdb.cookieAt, ← hleft_r, hnone]
        rfl
      cases seen with
      | false =>
        -- a new key with a cookie of its own
        rw [if_neg (by simp)] at hseen
        rw [Bool.false_and, Bool.false_or]
        exact hnext false (hkept.addNew hcb hfresh h (hcookie.trans hseen) hnone hnew) hcarry hseen
      | true =>
        rw [if_pos rfl] at hseen
        obtain ⟨k₀, hk₀⟩ := hseen
        obtain ⟨c, rfl⟩ : ∃ c, cookie = some c := by
          cases cookie with
          | none => exact absurd hk₀ (hbase.nonNull _)
          | some c => exact ⟨c, rfl⟩
        obtain ⟨hlog, hat⟩ := addRecord_carried hcb h hcookie hnone
        by_cases hfull : lib.fdb.free = 0
        · -- there is no room for it
          rw [if_pos hfull] at hat
          have hfree : (true && decide (lib.fdb.free ≠ 0)) = false := by simp [hfull]
          rw [hfree, Bool.false_or]
          exact hnext true ⟨_, hkept.congr hat hlog⟩ hcarry (by rw [if_pos rfl]; exact ⟨k₀, hk₀⟩)
        · -- it is stored with the cookie of the key `k₀`
          rw [if_neg hfull] at hat
          have hfree : (true && decide (lib.fdb.free ≠ 0)) = true := by simp [hfull]
          have hmid : (addRecord env lib r).2.fdb.cookieAt r.params.key = some (some c) := by
            rw [hat, Function.update_self]
          rw [hfree, Bool.true_or]
          refine iff_of_false ?_ (by simp)
          rintro ⟨calls', hlast⟩
          exact not_kept_of_carried h hr hne hnew hk₀ hmid calls' hlast

end Update

/-! ## The call -/

/-- The call returns, and the cookies are apart. -/
def BatchKeepsCookies (env : Env) (lib : Lib) (ms : List MacEntry) : Prop :=
  ∃ res calls, ctrlLearnApiFdbUcMacAddrSet env lib .add (some ms) = some res ∧ CookiesKept lib res.lib calls

theorem eq_of_undecided {rs rs' : List NotifyRecord}
    (h : rs.map NotifyRecord.undecided = rs'.map NotifyRecord.undecided)
    (hrs : ∀ r ∈ rs, r.decision = .approve) (hrs' : ∀ r ∈ rs', r.decision = .approve) : rs = rs' := by
  have hself : ∀ {rs : List NotifyRecord}, (∀ r ∈ rs, r.decision = .approve) →
      rs.map NotifyRecord.undecided = rs := by
    intro rs hrs
    conv_rhs => rw [← List.map_id rs]
    refine List.map_congr_left (fun r hr => ?_)
    rw [NotifyRecord.undecided, ← hrs r hr, id]
  rw [← hself hrs, h, hself hrs']

/-- **The cookies of a batch** stay apart exactly when no new entry is stored after one of a stored key. -/
theorem batch_cookies_iff (env : Env) (cb : CookieCb) (hcb : env.initDeinitCb = some cb)
    (hhal : ∀ cmd es, (env.hal cmd es).1 = 0) (ops : List FdbOp) (lib : Lib) (hlib : lib.fdb = run Fdb.init ops)
    (hdist : CookiesDistinct lib.fdb) (hfresh : FreshFor cb lib) (ms : List MacEntry)
    (hlen : ms.length ≤ MAX_EVENT_INFO_SIZE) (hnd : (ms.map fun m => m.macParams.key).Nodup)
    (hcode : (setRecords env lib.fdb .learn ms).1 = 0)
    (happ : ∀ r ∈ (setRecords env lib.fdb .learn ms).2, r.decision = .approve) :
    BatchKeepsCookies env lib ms ↔ (lib.isCtrlLearnStart = true →
      (∀ m ∈ ms, m.macParams.macAddr.isGroup = false) →
      overtakes env lib.fdb false lib (collectRecords lib.fdb .add none ms) = false) := by
  obtain ⟨L, h⟩ := FdbInv.run ops emptyDb_init.inv
  rw [← hlib] at h
  obtain ⟨hbare, hcol⟩ := collectRecords_bare h .learn ms none
  rw [cmd_learn] at hbare hcol
  have hrecords : (setRecords env lib.fdb .learn ms).2 = collectRecords lib.fdb .add none ms := by
    refine eq_of_undecided ?_ happ hcol
    rw [setRecords, notifyUser_undecided]
    exact (updateApprovedList_spec h hcol).2.records
  have hsame : ∀ err failed, ctrlLearnApiFdbUcMacAddrSet env lib .add (some ms) = some ⟨err, lib, failed⟩ →
      BatchKeepsCookies env lib ms := fun err failed hcall => ⟨_, _, hcall, hdist.kept⟩
  by_cases hstart : lib.isCtrlLearnStart = true
  swap
  · refine iff_of_true (hsame 0 [] ?_) (fun hc => absurd hc hstart)
    simp [ctrlLearnApiFdbUcMacAddrSet, hstart]
  by_cases hnil : ms = []
  · subst hnil
    refine iff_of_true (hsame (-EINVAL) [] ?_) (fun _ _ => rfl)
    simp [ctrlLearnApiFdbUcMacAddrSet, hstart]
  by_cases hgroup : ∀ m ∈ ms, m.macParams.macAddr.isGroup = false
  swap
  · refine iff_of_true (hsame (-EINVAL) [] ?_) (fun _ hc => absurd hc hgroup)
    have hany : ms.any (fun m => m.macParams.macAddr.isGroup) = true := by
      simpa using hgroup
    simp [ctrlLearnApiFdbUcMacAddrSet, hstart, hnil, hany]
  rw [imp_iff_right hstart, imp_iff_right hgroup]
  have hany : ms.any (fun m => m.macParams.macAddr.isGroup) = false := by
    rw [List.any_eq_false]
    intro m hm
    simp [hgroup m hm]
  have hshort : ¬ MAX_EVENT_INFO_SIZE < (collectRecords lib.fdb .add none ms).length := by
    have hle := congrArg List.length hbare
    have hfilter := List.length_filter_le (fun m => !skipped .learn (lib.fdb.view m.macParams.key) m) ms
    rw [List.length_map, List.length_map] at hle
    omega
  have hkeys : ((collectRecords lib.fdb .add none ms).map fun r => r.params.key).Nodup := by
    rw [← hrecords]
    exact setRecords_nodup h .learn hnd
  have hupd : (updateApprovedList lib.fdb (collectRecords lib.fdb .add none ms)).1 = 0 := by
    rw [updateApprovedList_eq h]
  have hnotify : notifyUser env 0 (updateApprovedList lib.fdb (collectRecords lib.fdb .add none ms)).2 =
      setRecords env lib.fdb .learn ms := rfl
  by_cases hnone : collectRecords lib.fdb .add none ms = []
  · refine iff_of_true (hsame 0 [] ?_) (by rw [hnone]; rfl)
    unfold ctrlLearnApiFdbUcMacAddrSet
    simp only [hstart, Bool.not_true, Bool.false_eq_true, if_false, hnil, hany, hshort, hupd, ne_eq,
      not_true_eq_false, hnotify, hcode, hrecords]
    rw [hnone]
    rfl
  have happroved : approvedEntries (collectRecords lib.fdb .add none ms) ≠ [] := by
    intro hempty
    apply hnone
    have hfilter := List.filter_eq_nil_iff.mp (List.map_eq_nil_iff.mp hempty)
    refine List.eq_nil_iff_forall_not_mem.mpr (fun r hr => hfilter r hr ?_)
    simp [hcol r hr]
  have hcall : ctrlLearnApiFdbUcMacAddrSet env lib .add (some ms) =
      some ⟨(updateDb env .add [] lib 0 (collectRecords lib.fdb .add none ms)).1,
        (updateDb env .add [] lib 0 (collectRecords lib.fdb .add none ms)).2, []⟩ := by
    unfold ctrlLearnApiFdbUcMacAddrSet
    simp only [hstart, Bool.not_true, Bool.false_eq_true, if_false, hnil, hany, hshort, hupd, ne_eq,
      not_true_eq_false, false_and, hnotify, hcode, hrecords, happroved, hhal]
  rw [← updateDb_cookies hcb hfresh hdist (collectRecords lib.fdb .add none ms) 0 false h hdist.kept
    (collectRecords_carries h none ms) rfl hkeys hcol (fun _ _ => rfl)]
  unfold BatchKeepsCookies
  rw [hcall]
  simp

theorem Fresh.freshFor {cb : CookieCb} (h : Fresh cb) {lib : Lib}
    (hlog : ∀ k c, lib.fdb.cookieAt k = some (some c) → .init (some c) ∈ lib.cookieLog) : FreshFor cb lib := by
  intro calls
  obtain ⟨c, hinit, hfresh⟩ := h (lib.cookieLog ++ calls)
  refine ⟨c, hinit, fun hmem => hfresh (List.mem_append_right _ hmem), fun k hk => ?_⟩
  exact hfresh (List.mem_append_left _ (hlog k c hk))

/-- An entry of VLAN 7. -/
def cookieEntry (mac : UInt8) (port : UInt64) (cookie : Option Nat) : MacEntry :=
  ⟨⟨7, ⟨0, 0, 0, 0, 0, mac⟩, port, .dynamic⟩, cookie, .ageable⟩

/-- The cookie of the only record. -/
theorem first_cookieAt {e : MacEntry} {k : Nat} {x : Option Nat}
    (h : (run Fdb.init [.add (some e)]).cookieAt k = some x) : k = e.macParams.key ∧ x = e.cookie := by
  have hstep : run Fdb.init [.add (some e)] = (fdbUcDbAddRecord Fdb.init (some e)).2 := rfl
  rw [Fdb.cookieAt, hstep, add_lookup emptyDb_init.inv] at h
  split at h
  · rename_i hk
    rw [Option.map_some, Option.some_inj] at h
    exact ⟨hk.1, h.symm⟩
  · cases h

theorem first_distinct {e : MacEntry} {c : Nat} (he : e.cookie = some c) :
    CookiesDistinct (run Fdb.init [.add (some e)]) := by
  refine ⟨fun k k' x hk hk' => ?_, fun k hk => ?_⟩
  · rw [(first_cookieAt hk).1, (first_cookieAt hk').1]
  · have hnull := (first_cookieAt hk).2
    rw [he] at hnull
    cases hnull

theorem first_freshFor {e : MacEntry} {c : Nat} (he : e.cookie = some c) :
    FreshFor countingCb ⟨run Fdb.init [.add (some e)], true, [.init (some c)]⟩ := by
  refine countingCb_fresh.freshFor (fun k c' hk => ?_)
  have hcookie := (first_cookieAt hk).2
  rw [he, Option.some_inj] at hcookie
  rw [hcookie]
  exact List.mem_singleton_self _

/-- A new entry before one of a stored key. -/
theorem batch_cookies_iff_two :
    BatchKeepsCookies countingEnv ⟨run Fdb.init [.add (some (cookieEntry 1 5 (some 1)))], true, [.init (some 1)]⟩
        [cookieEntry 2 5 none, cookieEntry 1 6 none] ↔ (true = true →
      (∀ m ∈ [cookieEntry 2 5 none, cookieEntry 1 6 none], m.macParams.macAddr.isGroup = false) →
      overtakes countingEnv (run Fdb.init [.add (some (cookieEntry 1 5 (some 1)))]) false
        ⟨run Fdb.init [.add (some (cookieEntry 1 5 (some 1)))], true, [.init (some 1)]⟩
        (collectRecords (run Fdb.init [.add (some (cookieEntry 1 5 (some 1)))]) .add none
          [cookieEntry 2 5 none, cookieEntry 1 6 none]) = false) :=
  batch_cookies_iff countingEnv countingCb rfl (fun _ _ => rfl) [.add (some (cookieEntry 1 5 (some 1)))] _ rfl
    (first_distinct rfl) (first_freshFor rfl) _ (by decide) (by decide) (by decide) (by decide)

/-- **A new entry after one of a stored key** is stored with the cookie of that key, and no init is called
for it. -/
theorem newcomer_takes_cookie : ¬ ∀ (env : Env) (cb : CookieCb), env.initDeinitCb = some cb →
    (∀ cmd es, (env.hal cmd es).1 = 0) → ∀ (ops : List FdbOp) (lib : Lib), lib.fdb = run Fdb.init ops →
    CookiesDistinct lib.fdb → FreshFor cb lib → ∀ (ms : List MacEntry), ms.length ≤ MAX_EVENT_INFO_SIZE →
    (ms.map fun m => m.macParams.key).Nodup → (setRecords env lib.fdb .learn ms).1 = 0 →
    (∀ r ∈ (setRecords env lib.fdb .learn ms).2, r.decision = .approve) → BatchKeepsCookies env lib ms := by
  intro hall
  obtain ⟨res, calls, hres, hkept⟩ := hall countingEnv countingCb rfl (fun _ _ => rfl)
    [.add (some (cookieEntry 1 5 (some 1)))]
    ⟨run Fdb.init [.add (some (cookieEntry 1 5 (some 1)))], true, [.init (some 1)]⟩ rfl (first_distinct rfl)
    (first_freshFor rfl) [cookieEntry 1 6 none, cookieEntry 2 5 none] (by decide) (by decide) (by decide)
    (by decide)
  have hboth : (ctrlLearnApiFdbUcMacAddrSet countingEnv
      ⟨run Fdb.init [.add (some (cookieEntry 1 5 (some 1)))], true, [.init (some 1)]⟩ .add
      (some [cookieEntry 1 6 none, cookieEntry 2 5 none])).map (fun r =>
        (r.lib.fdb.cookieAt (cookieEntry 1 6 none).macParams.key,
          r.lib.fdb.cookieAt (cookieEntry 2 5 none).macParams.key)) =
      some (some (some 1), some (some 1)) := by decide
  rw [hres, Option.map_some, Option.some_inj, Prod.mk.injEq] at hboth
  have hkey := hkept.distinct _ _ _ hboth.1 hboth.2
  revert hkey
  decide

end MlnxLib.CtrlLearn
