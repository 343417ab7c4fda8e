import MlnxLib.Commu.Reuse

/-!
# Looking up a handle

`lib_commu_db_hanlde_info_get` is given any number by the user.  It compares the number with the handle of
every slot it looks at, also with the mark of a free slot, and it passes over the servers without clients.

* `DbType.Covers` — the tables that a lookup with this type searches.
* `Live` — a session with the handle.
* `LookupExact` — the lookups find the live sessions with the handle, and nothing else.

Principal results: `hanldeInfoGet_cases` — what a hit and a miss say; `lookup_exact_iff` — when the lookups of a
number are exact; `DbInv.lookup_condition` — what is left of the condition between the operations.
-/

set_option autoImplicit false

namespace MlnxLib.Commu

open SlotTable

/-! ## What a lookup finds -/

/-- The slots that a lookup with this type searches. -/
def DbType.Covers (t : DbType) (loc : InfoLoc) : Prop := t = .any ∨ loc.dbType = t

instance (t : DbType) (loc : InfoLoc) : Decidable (t.Covers loc) := inferInstanceAs (Decidable (_ ∨ _))

section

variable {db : Db} {handle : Handle}

/-- A handle found in the table of a server, which has clients. -/
theorem searchServers_some {loc : InfoLoc} (h : searchServers db handle = some loc) :
    loc.dbType = .tcpServerHandle ∧ db.visible loc ∧ (db.info loc).handle = handle := by
  obtain ⟨s, hs, -⟩ := Fin.findSome?_eq_some_iff.mp h
  unfold searchServer at hs
  split at hs
  · rename_i hpos
    obtain ⟨i, hi, rfl⟩ := Option.map_eq_some_iff.mp hs
    exact ⟨rfl, hpos, apply_of_firstWith hi⟩
  · cases hs

theorem searchServers_none (h : searchServers db handle = none) {loc : InfoLoc}
    (htable : loc.dbType = .tcpServerHandle) (hvis : db.visible loc) : (db.info loc).handle ≠ handle := by
  cases loc with
  | server s i => exact searchServer_none (Fin.findSome?_eq_none_iff.mp h s) i hvis
  | client i => cases htable
  | udp i => cases htable

/-- The two results of a lookup. -/
inductive LookupResult (db : Db) (handle : Handle) (t : DbType) (r : Int × Option InfoLoc) : Prop where
  | hit (loc : InfoLoc) (result : r = (0, some loc)) (covers : t.Covers loc) (visible : db.visible loc)
      (holds : (db.info loc).handle = handle)
  | miss (failed : r.1 ≠ 0) (absent : ∀ loc, t.Covers loc → db.visible loc → (db.info loc).handle ≠ handle)

/-- **What a lookup says**: a hit is a slot with this number that the search looks at, which may be a free
one, and after a miss there is none. -/
theorem hanldeInfoGet_cases (db : Db) (handle : Handle) (t : DbType) :
    LookupResult db handle t (libCommuDbHanldeInfoGet db handle t) := by
  have hcovers : ∀ {loc : InfoLoc} {t : DbType}, t ≠ .any → t.Covers loc → loc.dbType = t :=
    fun hne h => h.resolve_left hne
  cases t with
  | any =>
    rw [hanldeInfoGet_any]
    cases hfind : db.find handle with
    | some loc =>
      obtain ⟨hholds, hvis, -⟩ := find_min hfind
      exact .hit loc rfl (Or.inl rfl) hvis hholds
    | none => exact .miss (show EINVAL ≠ 0 by decide) fun loc _ hvis => find_none hfind hvis
  | tcpClientHandle =>
    show LookupResult db handle _ (locOr ENOKEY (searchClient db handle))
    cases hsearch : searchClient db handle with
    | some loc =>
      obtain ⟨i, hi, rfl⟩ := Option.map_eq_some_iff.mp hsearch
      exact .hit (.client i) rfl (Or.inr rfl) trivial (apply_of_firstWith hi)
    | none =>
      refine .miss (show ENOKEY ≠ 0 by decide) fun loc hc _ => ?_
      cases loc with
      | client i => exact searchClient_none hsearch i
      | server s i => cases hcovers (by decide) hc
      | udp i => cases hcovers (by decide) hc
  | tcpServerHandle =>
    show LookupResult db handle _ (locOr ENOKEY (searchServers db handle))
    cases hsearch : searchServers db handle with
    | some loc =>
      obtain ⟨htable, hvis, hholds⟩ := searchServers_some hsearch
      exact .hit loc rfl (Or.inr htable) hvis hholds
    | none =>
      exact .miss (show ENOKEY ≠ 0 by decide) fun loc hc hvis =>
        searchServers_none hsearch (hcovers (by decide) hc) hvis
  | udpHandle =>
    show LookupResult db handle _ (locOr ENOKEY (searchUdp db handle))
    cases hsearch : searchUdp db handle with
    | some loc =>
      obtain ⟨i, hi, rfl⟩ := Option.map_eq_some_iff.mp hsearch
      exact .hit (.udp i) rfl (Or.inr rfl) trivial (apply_of_firstWith hi)
    | none =>
      refine .miss (show ENOKEY ≠ 0 by decide) fun loc hc _ => ?_
      cases loc with
      | udp i => exact searchUdp_none hsearch i
      | server s i => cases hcovers (by decide) hc
      | client i => cases hcovers (by decide) hc
  | tcpServerStatusHandle =>
    exact .miss (show EINVAL ≠ 0 by decide) fun loc hc _ => by cases loc <;> cases hcovers (by decide) hc
  | listenerThread =>
    exact .miss (show EINVAL ≠ 0 by decide) fun loc hc _ => by cases loc <;> cases hcovers (by decide) hc

theorem locOr_result {err : Int} (herr : err ≠ 0) (r : Option InfoLoc) :
    (∃ loc, locOr err r = (0, some loc)) ∨ ∃ err', err' ≠ 0 ∧ locOr err r = (err', none) := by
  cases r with
  | some loc => exact Or.inl ⟨loc, rfl⟩
  | none => exact Or.inr ⟨err, herr, rfl⟩

/-- A lookup yields a slot, or an error. -/
theorem hanldeInfoGet_result (db : Db) (handle : Handle) (t : DbType) :
    (∃ loc, libCommuDbHanldeInfoGet db handle t = (0, some loc)) ∨
      ∃ err, err ≠ 0 ∧ libCommuDbHanldeInfoGet db handle t = (err, none) := by
  cases t with
  | any => exact locOr_result (by decide) _
  | tcpClientHandle => exact locOr_result (by decide) _
  | tcpServerHandle => exact locOr_result (by decide) _
  | udpHandle => exact locOr_result (by decide) _
  | tcpServerStatusHandle => exact Or.inr ⟨EINVAL, by decide, rfl⟩
  | listenerThread => exact Or.inr ⟨EINVAL, by decide, rfl⟩

end

/-! ## Exact lookups -/

/-- A session with the handle: a slot that is in use. -/
def Live (db : Db) (handle : Handle) (loc : InfoLoc) : Prop :=
  handle ≠ INVALID_HANDLE_ID ∧ (db.info loc).handle = handle

/-- No handle is stored twice. -/
def HandlesOnce (db : Db) : Prop :=
  ∀ {loc loc'}, (db.info loc).handle ≠ INVALID_HANDLE_ID →
    (db.info loc).handle = (db.info loc').handle → loc = loc'

/-- A lookup of the number returns 0 exactly when it is the handle of a live session in the tables that
are searched, and then yields that session: its table, its slot and its server. -/
structure LookupExact (db : Db) (handle : Handle) : Prop where
  found : ∀ t, (libCommuDbHanldeInfoGet db handle t).1 = 0 ↔ ∃ loc, t.Covers loc ∧ Live db handle loc
  yields : ∀ t loc, t.Covers loc → Live db handle loc → libCommuDbHanldeInfoGet db handle t = (0, some loc)

/-- **When lookups are exact.**  In every state in which no handle is stored twice, the lookups of a number
are exact if and only if the search looks at the slots with this number when it is a handle, and at no slot
with it when it is the mark of the free ones. -/
theorem lookup_exact_iff (db : Db) (honce : HandlesOnce db) (handle : Handle) :
    LookupExact db handle ↔
      ∀ loc, (db.info loc).handle = handle → (db.visible loc ↔ handle ≠ INVALID_HANDLE_ID) := by
  constructor
  · intro h loc hloc
    constructor
    · intro hvis
      -- the search finds a slot, so a session is live
      cases hanldeInfoGet_cases db handle .any with
      | hit loc' hresult hcovers hvis' hholds =>
        obtain ⟨loc'', -, hlive⟩ := (h.found .any).mp (congrArg Prod.fst hresult)
        exact hlive.1
      | miss hfailed habsent => exact absurd hloc (habsent loc (Or.inl rfl) hvis)
    · intro hvalid
      have hyields := h.yields .any loc (Or.inl rfl) ⟨hvalid, hloc⟩
      cases hanldeInfoGet_cases db handle .any with
      | hit loc' hresult hcovers hvis' hholds =>
        have heq : some loc' = some loc := congrArg Prod.snd (hresult.symm.trans hyields)
        exact Option.some.inj heq ▸ hvis'
      | miss hfailed habsent => exact absurd (congrArg Prod.fst hyields) hfailed
  · intro h
    refine ⟨fun t => ?_, fun t loc hcovers hlive => ?_⟩
    · cases hanldeInfoGet_cases db handle t with
      | hit loc hresult hcovers hvis hholds =>
        exact iff_of_true (congrArg Prod.fst hresult) ⟨loc, hcovers, (h loc hholds).mp hvis, hholds⟩
      | miss hfailed habsent =>
        refine iff_of_false hfailed ?_
        rintro ⟨loc, hcovers, hvalid, hloc⟩
        exact habsent loc hcovers ((h loc hloc).mpr hvalid) hloc
    · have hvis := (h loc hlive.2).mpr hlive.1
      cases hanldeInfoGet_cases db handle t with
      | hit loc' hresult hcovers' hvis' hholds =>
        have heq : loc' = loc :=
          honce (by rw [hholds]; exact hlive.1) (by rw [hholds, hlive.2])
        rw [hresult, heq]
      | miss hfailed habsent => exact absurd hlive.2 (habsent loc hcovers hvis)

/-- Between the operations, only the mark of the free slots can be found wrongly: a server with a
connection has clients. -/
theorem DbInv.lookup_condition {db : Db} (h : DbInv db) (handle : Handle) :
    (∀ loc, (db.info loc).handle = handle → (db.visible loc ↔ handle ≠ INVALID_HANDLE_ID)) ↔
      handle ≠ INVALID_HANDLE_ID ∨ ∀ loc, db.visible loc → (db.info loc).handle ≠ INVALID_HANDLE_ID := by
  by_cases hvalid : handle = INVALID_HANDLE_ID
  · subst hvalid
    simp only [ne_eq, not_true_eq_false, iff_false, false_or]
    exact ⟨fun hno loc hvis hfree => hno loc hfree hvis, fun hno loc hfree hvis => hno loc hvis hfree⟩
  · refine iff_of_true (fun loc hloc => iff_of_true (h.visible ?_) hvalid) (Or.inl hvalid)
    rw [hloc]
    exact hvalid

/-- Handle 7 is the connection of a client, and it is found. -/
theorem lookup_exact_iff_sample :
    LookupExact (runDb (libCommuDbInit Db.zero) [.connect 7 1 ⟨0, 0⟩ ⟨90, 8⟩ 11]) 7 ↔
      ∀ loc, ((runDb (libCommuDbInit Db.zero) [.connect 7 1 ⟨0, 0⟩ ⟨90, 8⟩ 11]).info loc).handle = 7 →
        ((runDb (libCommuDbInit Db.zero) [.connect 7 1 ⟨0, 0⟩ ⟨90, 8⟩ 11]).visible loc ↔
          (7 : Handle) ≠ INVALID_HANDLE_ID) :=
  lookup_exact_iff _ (fun hne heq => (DbInv.run [.connect 7 1 ⟨0, 0⟩ ⟨90, 8⟩ 11] (dbInv_init Db.zero)
    (by decide +kernel)).unique hne heq) 7

/-- **The mark of the free slots is found**: after the initialisation, a lookup of `INVALID_HANDLE_ID`
returns 0 and a free slot. -/
theorem lookup_invalid_handle :
    ¬∀ (db₀ : Db) (ops : List DbOp), AllowedRun (libCommuDbInit db₀) ops →
      ∀ handle, LookupExact (runDb (libCommuDbInit db₀) ops) handle := by
  intro h
  have hfound := (h Db.zero [] trivial INVALID_HANDLE_ID).found .any
  have hzero : (libCommuDbHanldeInfoGet (libCommuDbInit Db.zero) INVALID_HANDLE_ID .any).1 = 0 := by
    decide +kernel
  obtain ⟨loc, -, hlive⟩ := hfound.mp hzero
  exact hlive.1 rfl

end MlnxLib.Commu
