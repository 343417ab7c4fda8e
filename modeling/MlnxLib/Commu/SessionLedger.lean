import Mathlib.Data.Set.Card
import MlnxLib.Lib.Simulation
import MlnxLib.Commu.Framing
import MlnxLib.Commu.SessionCalls

/-!
# The descriptors of the sessions

Runs of an application that starts and stops UDP sessions and clients, and sends and receives datagrams, next to a
partial map from handles to sessions.  The tables have 16 slots, and a start that finds its table full still returns a
handle: such a session is not listed.

* `AppSession`, `Sessions` — what is known of each open handle.
* `Tracks fds₀ a s` — the tables list the sessions of `a` that are listed, and the descriptors that are open are those
  of the sessions and `fds₀`.
* `HostMeets`, `HostSpec` — what callers and kernel see to, and what a call returns and does to the sessions.

Principal result: `descriptors_accounted` — in every run each open descriptor belongs to one session or was open
before, lookups find the sessions that are listed and no others, and a call that fails leaves no descriptor behind.
-/

set_option autoImplicit false

namespace MlnxLib.Commu

open Runs SlotTable

/-! ## Sessions -/

/-- What an application starts. -/
inductive SessionKind where
  | udp
  | tcpClient
  deriving DecidableEq, Repr

namespace SessionKind

def dbType : SessionKind → DbType
  | .udp => .udpHandle
  | .tcpClient => .tcpClientHandle

/-- A slot of the table of a kind. -/
def loc : SessionKind → Slot → InfoLoc
  | .udp => .udp
  | .tcpClient => .client

/-- The handles in the table of a kind. -/
def table (db : Db) : SessionKind → Slot → Handle
  | .udp => db.udpHandles
  | .tcpClient => db.clientHandles

/-- The deletion of a handle of a kind. -/
def delete : SessionKind → Db → Handle → Int × Db
  | .udp => libCommuDbUdpHandleInfoDelete
  | .tcpClient => libCommuDbTcpHandleInfoDelete

/-- What the deletion returns for a handle that is in no table: only that of a UDP session says so. -/
def notFound : SessionKind → Int
  | .udp => ENOKEY
  | .tcpClient => 0

end SessionKind

/-- A session of an application. -/
structure AppSession where
  kind : SessionKind
  listed : Bool
  msgType : UInt8
  isSinglePeer : UInt8
  localMagic : UInt32
  peerMagic : UInt32
  deriving DecidableEq, Repr

/-- The sessions, by their handles. -/
abbrev Sessions := Handle → Option AppSession

/-- The handles that the table of a kind lists. -/
def Sessions.listed (a : Sessions) (kind : SessionKind) : Set Handle :=
  fun handle => ∃ x, a handle = some x ∧ x.kind = kind ∧ x.listed = true

/-- A new session. -/
def AppSession.new (kind : SessionKind) (listed : Bool) (n : NewInfo) : AppSession :=
  ⟨kind, listed, n.msgType, n.isSinglePeer, n.localMagic, INVALID_MAGIC⟩

/-- The record of a session. -/
structure AppSession.Shown (x : AppSession) (loc : InfoLoc) (info : HandleInfo) : Prop where
  kind : loc.dbType = x.kind.dbType
  msgType : info.connInfo.msgType = x.msgType.toUInt16
  isSinglePeer : info.socektInfo.isSinglePeer = x.isSinglePeer
  localMagic : info.socektInfo.localMagic = x.localMagic
  peerMagic : info.socektInfo.peerMagic = x.peerMagic

/-- The open descriptors are those of the sessions, and `fds₀`. -/
structure OwnsFds (fds₀ : Finset Handle) (a : Sessions) (fds : Finset Handle) : Prop where
  fds : ∀ handle, handle ∈ fds ↔ handle ∈ fds₀ ∨ ∃ x, a handle = some x
  own : ∀ handle ∈ fds₀, a handle = none

/-- The tables have the sessions that are listed, and nothing else. -/
structure ListsSessions (a : Sessions) (db : Db) : Prop where
  valid : ∀ {handle x}, a handle = some x → handle ≠ INVALID_HANDLE_ID ∧ x.localMagic ≠ INVALID_MAGIC
  record : ∀ {loc}, (db.info loc).handle ≠ INVALID_HANDLE_ID →
    ∃ x, a (db.info loc).handle = some x ∧ x.listed = true ∧ x.Shown loc (db.info loc)
  listed : ∀ {handle x}, a handle = some x → x.listed = true → ∃ loc, (db.info loc).handle = handle

/-- **The host has the sessions `a`**, and the descriptors `fds₀` that are not the library's. -/
structure Tracks (fds₀ : Finset Handle) (a : Sessions) (s : Host) : Prop where
  ready : s.lib.initDone = true
  inv : DbInv s.lib.db
  owns : OwnsFds fds₀ a s.fds
  lists : ListsSessions a s.lib.db

/-! ## The tables -/

section Tables

variable {db : Db} {handle : Handle} {kind : SessionKind}

theorem table_apply (db : Db) (kind : SessionKind) (i : Slot) :
    kind.table db i = (db.info (kind.loc i)).handle := by
  cases kind <;> rfl

theorem dbType_loc (kind : SessionKind) (i : Slot) : (kind.loc i).dbType = kind.dbType := by
  cases kind <;> rfl

theorem exists_loc {loc : InfoLoc} (h : loc.dbType = kind.dbType) : ∃ i, loc = kind.loc i := by
  cases kind <;> cases loc <;> first | exact ⟨_, rfl⟩ | cases h

theorem dbType_injective {k : SessionKind} (h : kind.dbType = k.dbType) : kind = k := by
  cases kind <;> cases k <;> first | rfl | cases h

theorem loc_ne_server {loc : InfoLoc} (h : loc.dbType = kind.dbType) (s : ServerId) (i : Slot) :
    loc ≠ .server s i := by
  rintro rfl
  cases kind <;> cases h

theorem freeLoc_kind (db : Db) (kind : SessionKind) : freeLoc db kind.dbType noServer =
    (firstWith (kind.table db) INVALID_HANDLE_ID).map kind.loc := by
  cases kind <;> rfl

theorem setInfo_self (db : Db) (loc : InfoLoc) : db.setInfo loc (db.info loc) = db := by
  cases loc <;> simp [Db.setInfo, Db.setServerTable, Db.info]

theorem setInfo_setInfo (db : Db) (loc : InfoLoc) (x y : HandleInfo) :
    (db.setInfo loc x).setInfo loc y = db.setInfo loc y := by
  cases loc <;> simp [Db.setInfo, Db.setServerTable]

theorem handle_setInfo {loc : InfoLoc} {x : HandleInfo} (hx : x.handle = (db.info loc).handle) (l : InfoLoc) :
    ((db.setInfo loc x).info l).handle = (db.info l).handle := by
  rw [info_setInfo]
  split
  · rename_i hl
    rw [hl, hx]
  · rfl

/-- An update that keeps the handle of a record. -/
theorem DbInv.update (h : DbInv db) {loc : InfoLoc} {x : HandleInfo} (hx : x.handle = (db.info loc).handle) :
    DbInv (db.setInfo loc x) := by
  refine h.of_servers ?_ (status_setInfo ..) fun hl hll => ?_
  · exact funext fun s => funext fun i => handle_setInfo hx (.server s i)
  · rw [handle_setInfo hx] at hl hll
    rw [handle_setInfo hx] at hll
    exact h.unique hl hll

/-- **A deletion** empties the slot of the handle, if it is in the table. -/
theorem delete_kind (h : DbInv db)
    (hkind : ∀ loc, (db.info loc).handle = handle → loc.dbType = kind.dbType) :
    (∃ loc, (db.info loc).handle = handle ∧ kind.delete db handle = (0, db.setInfo loc .empty)) ∨
    ((∀ loc, (db.info loc).handle ≠ handle) ∧ kind.delete db handle = (kind.notFound, db)) := by
  have hnone : (∀ i, (db.info (kind.loc i)).handle ≠ handle) → ∀ loc, (db.info loc).handle ≠ handle := by
    intro hno loc hloc
    obtain ⟨i, rfl⟩ := exists_loc (hkind loc hloc)
    exact hno i hloc
  cases kind with
  | udp =>
    show (∃ loc, _ ∧ libCommuDbUdpHandleInfoDelete db handle = _) ∨
      (_ ∧ libCommuDbUdpHandleInfoDelete db handle = _)
    unfold libCommuDbUdpHandleInfoDelete
    rw [findHandleIdx_udp]
    cases hfind : firstWith db.udpHandles handle with
    | none => exact Or.inr ⟨hnone (firstWith_eq_none_iff.mp hfind), rfl⟩
    | some i => exact Or.inl ⟨.udp i, apply_of_firstWith hfind, rfl⟩
  | tcpClient =>
    show (∃ loc, _ ∧ unlockOnBail _ = _) ∨ (_ ∧ unlockOnBail _ = _)
    obtain ⟨hfind, hdelete⟩ | ⟨i, hfind, hdelete⟩ | ⟨s, i, hfind, -⟩ | ⟨i, hfind, -⟩ := delete_spec h handle
    · rw [hdelete]
      exact Or.inr ⟨hnone fun i => find_none hfind (l := .client i) trivial, rfl⟩
    · rw [hdelete]
      exact Or.inl ⟨.client i, (find_min hfind).1, rfl⟩
    · cases hkind _ (find_min hfind).1
    · cases hkind _ (find_min hfind).1

end Tables

/-! ## What a call does to the sessions -/

/-- What a lookup of a handle finds. -/
inductive Looked (a : Sessions) (s : Host) (handle : Handle) (kind : SessionKind) : Int × Option InfoLoc → Prop where
  | hit {loc : InfoLoc} {x : AppSession} (session : a handle = some x) (same : x.kind = kind)
      (listed : x.listed = true) (shown : x.Shown loc (s.lib.db.info loc))
      (holds : (s.lib.db.info loc).handle = handle) : Looked a s handle kind (0, some loc)
  | miss {err : Int} (failed : err ≠ 0) (absent : handle ∉ a.listed kind) : Looked a s handle kind (err, none)

namespace Tracks

variable {fds₀ : Finset Handle} {a : Sessions} {s : Host} {handle : Handle} {kind : SessionKind} {x y : AppSession}
  {loc : InfoLoc}

/-- The record of a handle is that of its session. -/
theorem shown (h : Tracks fds₀ a s) (hx : a handle = some x) (hloc : (s.lib.db.info loc).handle = handle) :
    x.listed = true ∧ x.Shown loc (s.lib.db.info loc) := by
  have hvalid : (s.lib.db.info loc).handle ≠ INVALID_HANDLE_ID := hloc ▸ (h.lists.valid hx).1
  obtain ⟨y, hy, hlisted, hshown⟩ := h.lists.record hvalid
  rw [hloc, hx] at hy
  cases hy
  exact ⟨hlisted, hshown⟩

/-- A handle that no session has is in no table. -/
theorem absent (h : Tracks fds₀ a s) (hvalid : handle ≠ INVALID_HANDLE_ID) (hnone : a handle = none) :
    s.lib.db.Absent handle := by
  refine h.inv.absent fun loc hloc => ?_
  obtain ⟨x, hx, -⟩ := h.lists.record (hloc ▸ hvalid)
  rw [hloc, hnone] at hx
  cases hx

/-- **A lookup** finds a session of its kind that is listed. -/
theorem lookup (h : Tracks fds₀ a s) (hvalid : handle ≠ INVALID_HANDLE_ID) (kind : SessionKind) :
    Looked a s handle kind (libCommuDbHanldeInfoGet s.lib.db handle kind.dbType) := by
  have hany : kind.dbType ≠ .any := by cases kind <;> decide
  obtain ⟨loc, hget⟩ | ⟨err, herr, hget⟩ := hanldeInfoGet_result s.lib.db handle kind.dbType
  · cases hanldeInfoGet_cases s.lib.db handle kind.dbType with
    | hit loc' hresult hcovers hvis hholds =>
      obtain ⟨x, hx, hlisted, hshown⟩ := h.lists.record (hholds ▸ hvalid)
      rw [hholds] at hx
      rw [hresult]
      have htype := hcovers.resolve_left hany
      exact .hit hx (dbType_injective (hshown.kind.symm.trans htype)) hlisted hshown hholds
    | miss hfailed habsent => exact absurd (congrArg Prod.fst hget) hfailed
  · cases hanldeInfoGet_cases s.lib.db handle kind.dbType with
    | hit loc hresult hcovers hvis hholds => exact absurd (congrArg Prod.fst (hget.symm.trans hresult)) herr
    | miss hfailed habsent =>
      rw [hget]
      refine .miss herr ?_
      rintro ⟨x, hx, rfl, hlisted⟩
      obtain ⟨loc, hloc⟩ := h.lists.listed hx hlisted
      have hshown := (h.shown hx hloc).2
      exact habsent loc (Or.inr hshown.kind) (h.inv.visible (hloc ▸ hvalid)) hloc

/-- The handles that a table lists. -/
theorem listed_eq (h : Tracks fds₀ a s) (kind : SessionKind) :
    a.listed kind = ↑(used INVALID_HANDLE_ID (kind.table s.lib.db)) := by
  ext handle
  rw [Finset.mem_coe, mem_used]
  constructor
  · rintro ⟨x, hx, rfl, hlisted⟩
    obtain ⟨loc, hloc⟩ := h.lists.listed hx hlisted
    obtain ⟨i, rfl⟩ := exists_loc (h.shown hx hloc).2.kind
    exact ⟨(h.lists.valid hx).1, i, (table_apply ..).trans hloc⟩
  · rintro ⟨hvalid, i, hi⟩
    rw [table_apply] at hi
    obtain ⟨x, hx, hlisted, hshown⟩ := h.lists.record (hi ▸ hvalid)
    rw [hi] at hx
    exact ⟨x, hx, dbType_injective (hshown.kind.symm.trans (dbType_loc ..)), hlisted⟩

/-- **A table has room** for a session as long as it lists fewer than it has slots. -/
theorem room_iff (h : Tracks fds₀ a s) (kind : SessionKind) :
    (freeLoc s.lib.db kind.dbType noServer).isSome = true ↔ (a.listed kind).ncard < TCP_HANDLE_ARR_LENGTH := by
  have hdistinct : Distinct INVALID_HANDLE_ID (kind.table s.lib.db) := by
    intro i j hi hij
    rw [table_apply] at hi
    rw [table_apply, table_apply] at hij
    have hloc := h.inv.unique hi hij
    cases kind <;> exact (by simpa [SessionKind.loc] using hloc)
  rw [h.listed_eq kind, Set.ncard_coe_finset, freeLoc_kind, Option.isSome_map]
  constructor
  · intro hsome
    obtain ⟨i, hi⟩ := Option.isSome_iff_exists.mp hsome
    have hfree : i ∉ occupied INVALID_HANDLE_ID (kind.table s.lib.db) := by
      rw [mem_occupied]
      exact fun hne => hne (apply_of_firstWith hi)
    have hlt := Finset.card_lt_univ_of_notMem hfree
    rwa [Fintype.card_fin, ← card_used hdistinct] at hlt
  · intro hlt
    obtain ⟨i, hi⟩ := exists_free hdistinct hlt
    by_contra hnone
    rw [Option.not_isSome_iff_eq_none, firstWith_eq_none_iff] at hnone
    exact hnone i hi

end Tracks

/-! ## One session -/

section Updates

variable {fds₀ fds : Finset Handle} {a : Sessions} {db : Db} {handle : Handle} {x y : AppSession} {loc : InfoLoc}
  {info : HandleInfo}

theorem OwnsFds.own_ne (h : OwnsFds fds₀ a fds) (hx : a handle = some x) {handle' : Handle} (hown : handle' ∈ fds₀) :
    handle' ≠ handle := by
  rintro rfl
  rw [h.own _ hown] at hx
  cases hx

/-- A new descriptor. -/
theorem OwnsFds.insert (h : OwnsFds fds₀ a fds) (hnew : handle ∉ fds) :
    OwnsFds fds₀ (Function.update a handle (some x)) (Insert.insert handle fds) := by
  refine ⟨fun handle' => ?_, fun handle' hown => ?_⟩
  · rw [Finset.mem_insert, h.fds, Function.update_apply]
    by_cases he : handle' = handle <;> simp [he]
  · rw [Function.update_of_ne, h.own _ hown]
    rintro rfl
    exact hnew ((h.fds _).mpr (Or.inl hown))

/-- The descriptor of a session is closed. -/
theorem OwnsFds.erase (h : OwnsFds fds₀ a fds) (hx : a handle = some x) :
    OwnsFds fds₀ (Function.update a handle none) (fds.erase handle) := by
  refine ⟨fun handle' => ?_, fun handle' hown => ?_⟩
  · rw [Finset.mem_erase, h.fds, Function.update_apply]
    by_cases he : handle' = handle
    · subst he
      have hnot : handle' ∉ fds₀ := fun hown => h.own_ne hx hown rfl
      simp [hnot]
    · simp [he]
  · rw [Function.update_of_ne (h.own_ne hx hown), h.own _ hown]

/-- A session changes. -/
theorem OwnsFds.update (h : OwnsFds fds₀ a fds) (hx : a handle = some x) :
    OwnsFds fds₀ (Function.update a handle (some y)) fds := by
  refine ⟨fun handle' => ?_, fun handle' hown => ?_⟩
  · rw [h.fds, Function.update_apply]
    by_cases he : handle' = handle <;> simp [he, hx]
  · rw [Function.update_of_ne (h.own_ne hx hown), h.own _ hown]

namespace ListsSessions

theorem valid_update (h : ListsSessions a db) (hvalid : handle ≠ INVALID_HANDLE_ID)
    (hmagic : x.localMagic ≠ INVALID_MAGIC) {handle' : Handle} {z : AppSession}
    (hz : Function.update a handle (some x) handle' = some z) :
    handle' ≠ INVALID_HANDLE_ID ∧ z.localMagic ≠ INVALID_MAGIC := by
  rw [Function.update_apply] at hz
  split at hz
  · rename_i he
    cases hz
    rw [he]
    exact ⟨hvalid, hmagic⟩
  · exact h.valid hz

/-- The record of another session is as it was. -/
theorem record_other (h : ListsSessions a db) {session : Option AppSession} {loc' : InfoLoc}
    (hvalid : (db.info loc').handle ≠ INVALID_HANDLE_ID) (hne : (db.info loc').handle ≠ handle) :
    ∃ z, Function.update a handle session (db.info loc').handle = some z ∧ z.listed = true ∧
      z.Shown loc' (db.info loc') := by
  rw [Function.update_of_ne hne]
  exact h.record hvalid

/-- A session is put into a free slot. -/
theorem insert (h : ListsSessions a db) (hvalid : handle ≠ INVALID_HANDLE_ID) (hmagic : x.localMagic ≠ INVALID_MAGIC)
    (habs : ∀ loc, (db.info loc).handle ≠ handle) (hfree : (db.info loc).handle = INVALID_HANDLE_ID)
    (hinfo : info.handle = handle) (hshown : x.Shown loc info) (hlisted : x.listed = true) :
    ListsSessions (Function.update a handle (some x)) (db.setInfo loc info) := by
  refine ⟨h.valid_update hvalid hmagic, fun {loc'} hvalid' => ?_, fun {handle' z} hz hl => ?_⟩
  · rw [info_setInfo] at hvalid' ⊢
    split
    · rename_i he
      rw [hinfo, Function.update_self, he]
      exact ⟨x, rfl, hlisted, hshown⟩
    · rename_i he
      rw [if_neg he] at hvalid'
      exact h.record_other hvalid' (habs loc')
  · rw [Function.update_apply] at hz
    split at hz
    · rename_i he
      exact ⟨loc, by rw [info_setInfo, if_pos rfl, hinfo, he]⟩
    · obtain ⟨loc', hloc'⟩ := h.listed hz hl
      refine ⟨loc', ?_⟩
      rw [info_setInfo, if_neg, hloc']
      rintro rfl
      exact (h.valid hz).1 (hloc'.symm.trans hfree)

/-- A session is put into no slot. -/
theorem insert_unlisted (h : ListsSessions a db) (hvalid : handle ≠ INVALID_HANDLE_ID)
    (hmagic : x.localMagic ≠ INVALID_MAGIC) (habs : ∀ loc, (db.info loc).handle ≠ handle)
    (hunlisted : x.listed = false) : ListsSessions (Function.update a handle (some x)) db := by
  refine ⟨h.valid_update hvalid hmagic, fun hvalid' => h.record_other hvalid' (habs _), fun {handle' z} hz hl => ?_⟩
  rw [Function.update_apply] at hz
  split at hz
  · cases hz
    rw [hunlisted] at hl
    cases hl
  · exact h.listed hz hl

theorem of_update_none {handle' : Handle} {z : AppSession} (hz : Function.update a handle none handle' = some z) :
    handle' ≠ handle ∧ a handle' = some z := by
  rw [Function.update_apply] at hz
  split at hz
  · cases hz
  · rename_i he
    exact ⟨he, hz⟩

/-- The slot of a session is emptied. -/
theorem clear (h : ListsSessions a db) (hloc : ∀ loc', (db.info loc').handle = handle ↔ loc' = loc) :
    ListsSessions (Function.update a handle none) (db.setInfo loc .empty) := by
  refine ⟨fun hz => h.valid (of_update_none hz).2, fun {loc'} hvalid => ?_, fun {handle' z} hz hl => ?_⟩
  · rw [info_setInfo] at hvalid ⊢
    split
    · rename_i he
      rw [if_pos he] at hvalid
      exact absurd rfl hvalid
    · rename_i he
      rw [if_neg he] at hvalid
      exact h.record_other hvalid fun hh => he ((hloc loc').mp hh)
  · obtain ⟨hne, hz⟩ := of_update_none hz
    obtain ⟨loc', hloc'⟩ := h.listed hz hl
    refine ⟨loc', ?_⟩
    rw [info_setInfo, if_neg, hloc']
    intro he
    exact hne (hloc'.symm.trans ((hloc loc').mpr he))

/-- A session that is in no slot is stopped. -/
theorem drop (h : ListsSessions a db) (habs : ∀ loc, (db.info loc).handle ≠ handle) :
    ListsSessions (Function.update a handle none) db :=
  ⟨fun hz => h.valid (of_update_none hz).2, fun hvalid => h.record_other hvalid (habs _),
    fun hz hl => h.listed (of_update_none hz).2 hl⟩

/-- The record of a session is updated, but for its handle. -/
theorem update (h : ListsSessions a db) (hx : a handle = some x)
    (hloc : ∀ loc', (db.info loc').handle = handle ↔ loc' = loc) (hinfo : info.handle = handle)
    (hshown : y.Shown loc info) (hlisted : y.listed = true) (hmagic : y.localMagic = x.localMagic) :
    ListsSessions (Function.update a handle (some y)) (db.setInfo loc info) := by
  have hsame : info.handle = (db.info loc).handle := hinfo.trans ((hloc loc).mpr rfl).symm
  obtain ⟨hvalid, hmagic'⟩ := h.valid hx
  refine ⟨h.valid_update hvalid (hmagic ▸ hmagic'), fun {loc'} hvalid' => ?_, fun {handle' z} hz hl => ?_⟩
  · rw [info_setInfo] at hvalid' ⊢
    split
    · rename_i he
      rw [hinfo, Function.update_self, he]
      exact ⟨y, rfl, hlisted, hshown⟩
    · rename_i he
      rw [if_neg he] at hvalid'
      exact h.record_other hvalid' fun hh => he ((hloc loc').mp hh)
  · rw [Function.update_apply] at hz
    simp only [handle_setInfo hsame]
    split at hz
    · rename_i he
      exact ⟨loc, by rw [he, (hloc loc).mpr rfl]⟩
    · exact h.listed hz hl

end ListsSessions

end Updates

/-! ## What calls return -/

/-- The session takes a datagram of which these bytes were received, for a caller with room for `payloadLen` bytes. -/
def AppSession.Accepts (x : AppSession) (received : List UInt8) (payloadLen : Nat) : Prop :=
  METADATA_SIZE ≤ received.length ∧ (datagramHeader received payloadLen).Checked ∧
    (datagramHeader received payloadLen).metadata.msgType = x.msgType ∧
    (x.peerMagic = INVALID_MAGIC ∨ x.isSinglePeer = 0 ∨
      x.peerMagic = (datagramHeader received payloadLen).metadata.trailer)

/-- The session after a datagram: it learns the magic of the first one that passes the checks before. -/
def AppSession.after (x : AppSession) (received : List UInt8) (payloadLen : Nat) : AppSession :=
  if METADATA_SIZE ≤ received.length ∧ (datagramHeader received payloadLen).Checked ∧ x.peerMagic = INVALID_MAGIC then
    { x with peerMagic := (datagramHeader received payloadLen).metadata.trailer }
  else x

/-- A start returns a new handle, or an error. -/
def StartReply (a : Sessions) (kind : SessionKind) (Opens : Fd → NewInfo → Prop) (r : HostReply) (a' : Sessions) :
    Prop :=
  (∃ fd n listed, Opens fd n ∧ (listed = true ↔ (a.listed kind).ncard < TCP_HANDLE_ARR_LENGTH) ∧
    r = .started 0 (some fd.1) ∧ a fd.1 = none ∧
    a' = Function.update a fd.1 (some (AppSession.new kind listed n))) ∨
  (∀ fd n, ¬Opens fd n) ∧ (∃ err handle, err ≠ 0 ∧ r = .started err handle) ∧ a' = a

/-- A stop of a session ends it; that of a UDP session which is not listed returns an error nevertheless. -/
def StopReply (a : Sessions) (kind : SessionKind) (handle : Handle) (r : HostReply) (a' : Sessions) : Prop :=
  match a handle with
  | none => (∃ err, err ≠ 0 ∧ r = .stopped err) ∧ a' = a
  | some x => r = .stopped (if x.listed then 0 else -kind.notFound) ∧ a' = Function.update a handle none

/-- A send hands a datagram to the kernel if its session is listed, and returns 0 if the kernel takes all of it. -/
def SendReply (a : Sessions) (handle : Handle) (payload : List UInt8) (answer : IoResult) (r : HostReply)
    (a' : Sessions) : Prop :=
  a' = a ∧ ∃ err len,
    (handle ∈ a.listed .udp ∧ payload.length ≤ MAX_UDP_MSG_SIZE - METADATA_SIZE ∧ r = .sent err len [answer] ∧
      (err = 0 ↔ answer = .bytes (METADATA_SIZE + payload.length))) ∨
    (¬(handle ∈ a.listed .udp ∧ payload.length ≤ MAX_UDP_MSG_SIZE - METADATA_SIZE) ∧ r = .sent err len [] ∧ err ≠ 0)

/-- A receive returns what a session accepts. -/
def RecvReply (a : Sessions) (handle : Handle) (payloadLen : Nat) (beyond : Nat → UInt8) (answer : RecvfromResult)
    (r : HostReply) (a' : Sessions) : Prop :=
  ∃ err addresserSt payload len calls, r = .received err addresserSt payload len calls ∧
    ((∃ x, a handle = some x ∧ x.kind = .udp ∧ x.listed = true ∧
      (err = 0 ↔ x.Accepts (answer.received MAX_MTU) payloadLen) ∧
      (err = 0 → len = (datagramHeader (answer.received MAX_MTU) payloadLen).metadata.payloadSize.toNat ∧
        payload = payloadCopy (answer.received MAX_MTU) beyond len) ∧
      a' = Function.update a handle (some (x.after (answer.received MAX_MTU) payloadLen))) ∨
    (handle ∉ a.listed .udp ∧ err ≠ 0 ∧ calls = [] ∧ a' = a))

/-- **What a call returns**, and what it does to the sessions. -/
def HostSpec (a : Sessions) (s : Host) : HostCall → HostReply → Sessions → Prop
  | .udpSessionStart handle params sys => StartReply a .udp (UdpOpens s handle params sys)
  | .udpSessionStop handle => StopReply a .udp handle
  | .tcpClientBlockingStart connInfo clientHandle sys =>
    StartReply a .tcpClient (ClientOpens s connInfo clientHandle sys)
  | .tcpPeerStop handle => StopReply a .tcpClient handle
  | .udpSend handle _ payload answer => SendReply a handle payload answer
  | .udpRecv handle _ payloadLen beyond answer => RecvReply a handle payloadLen beyond answer

/-- What callers and kernel see to: a new descriptor is not open, a stop is not given a descriptor of something else
nor the handle of a session of the other kind, and a failed call has set `errno`. -/
def HostMeets (fds₀ : Finset Handle) (s : Host) : HostCall → Prop
  | .udpSessionStart _ _ sys => ∀ fd, sys.socket = .ok fd → fd.1 ∉ s.fds
  | .udpSessionStop handle => handle ∉ fds₀ ∧ ∀ loc, Live s.lib.db handle loc → loc.dbType = SessionKind.udp.dbType
  | .tcpClientBlockingStart _ _ sys => ∀ fd, sys.socket = .ok fd → fd.1 ∉ s.fds
  | .tcpPeerStop handle =>
    handle ∉ fds₀ ∧ ∀ loc, Live s.lib.db handle loc → loc.dbType = SessionKind.tcpClient.dbType
  | .udpSend handle _ _ answer => handle ≠ INVALID_HANDLE_ID ∧ answer ≠ .error 0
  | .udpRecv handle _ _ _ _ => handle ≠ INVALID_HANDLE_ID

/-- What holds of the descriptor that a call returns. -/
instance decidableOnOk {P : Fd → Prop} [DecidablePred P] :
    ∀ socket : Except Errno Fd, Decidable (∀ fd, socket = .ok fd → P fd)
  | .error _ => isTrue nofun
  | .ok fd => decidable_of_iff (P fd) ⟨fun h _ he => Except.ok.inj he ▸ h, fun h => h fd rfl⟩

/-- What holds of all slots. -/
instance decidableOnSlots {P : InfoLoc → Prop} [DecidablePred P] : Decidable (∀ loc, P loc) :=
  decidable_of_iff ((∀ i, P (.client i)) ∧ (∀ s i, P (.server s i)) ∧ ∀ i, P (.udp i))
    ⟨fun ⟨hc, hs, hu⟩ loc => InfoLoc.rec hc hs hu loc, fun h => ⟨fun _ => h _, fun _ _ => h _, fun _ => h _⟩⟩

instance (db : Db) (handle : Handle) (loc : InfoLoc) : Decidable (Live db handle loc) :=
  inferInstanceAs (Decidable (_ ∧ _))

instance (fds₀ : Finset Handle) (s : Host) : ∀ call, Decidable (HostMeets fds₀ s call)
  | .udpSessionStart _ _ sys => inferInstanceAs (Decidable (∀ fd, sys.socket = .ok fd → fd.1 ∉ s.fds))
  | .udpSessionStop _ => inferInstanceAs (Decidable (_ ∧ ∀ _, _ → _))
  | .tcpClientBlockingStart _ _ sys => inferInstanceAs (Decidable (∀ fd, sys.socket = .ok fd → fd.1 ∉ s.fds))
  | .tcpPeerStop _ => inferInstanceAs (Decidable (_ ∧ ∀ _, _ → _))
  | .udpSend _ _ _ _ => inferInstanceAs (Decidable (_ ∧ _))
  | .udpRecv _ _ _ _ _ => inferInstanceAs (Decidable (_ ≠ _))

/-! ## The calls -/

namespace Tracks

variable {fds₀ : Finset Handle} {a : Sessions} {s : Host} {handle : Handle} {kind : SessionKind} {x y : AppSession}
  {loc : InfoLoc}

theorem slot_iff (h : Tracks fds₀ a s) (hvalid : handle ≠ INVALID_HANDLE_ID)
    (hloc : (s.lib.db.info loc).handle = handle) (loc' : InfoLoc) :
    (s.lib.db.info loc').handle = handle ↔ loc' = loc := by
  constructor
  · intro hloc'
    exact h.inv.unique (hloc' ▸ hvalid) (hloc'.trans hloc.symm)
  · rintro rfl
    exact hloc

/-- The record of a session is updated. -/
theorem setInfo (h : Tracks fds₀ a s) (hx : a handle = some x) (hloc : (s.lib.db.info loc).handle = handle)
    {info : HandleInfo} (hinfo : info.handle = handle) (hshown : y.Shown loc info) (hlisted : y.listed = true)
    (hmagic : y.localMagic = x.localMagic) :
    Tracks fds₀ (Function.update a handle (some y)) (s.setDb (s.lib.db.setInfo loc info)) :=
  ⟨h.ready, h.inv.update (hinfo.trans hloc.symm), h.owns.update hx,
    h.lists.update hx (h.slot_iff (h.lists.valid hx).1 hloc) hinfo hshown hlisted hmagic⟩

/-- **A new session** is listed if the table of its kind has room. -/
theorem start (h : Tracks fds₀ a s) {fd : Fd} (hnew : fd.1 ∉ s.fds) (kind : SessionKind) {n : NewInfo}
    (hmagic : n.localMagic ≠ INVALID_MAGIC) : a fd.1 = none ∧
    ∃ listed, (listed = true ↔ (a.listed kind).ncard < TCP_HANDLE_ARR_LENGTH) ∧
      Tracks fds₀ (Function.update a fd.1 (some (AppSession.new kind listed n)))
        ((s.opened fd).setDb (handleInfoSet s.lib.db kind.dbType noServer fd.1 n).2) := by
  have hnone : a fd.1 = none := by
    by_contra hsome
    obtain ⟨x, hx⟩ := Option.ne_none_iff_exists'.mp hsome
    exact hnew ((h.owns.fds _).mpr (Or.inr ⟨x, hx⟩))
  have habs := h.absent fd.ne_invalid hnone
  have hkind : kind.dbType ≠ .tcpServerHandle := by cases kind <;> decide
  have hinv := h.inv.handleInfoSet hkind noServer habs n
  refine ⟨hnone, (freeLoc s.lib.db kind.dbType noServer).isSome, h.room_iff kind, h.ready, hinv, h.owns.insert hnew, ?_⟩
  change ListsSessions _ (handleInfoSet s.lib.db kind.dbType noServer fd.1 n).2
  obtain ⟨hfree, hset⟩ | ⟨loc, hfree, hset⟩ := handleInfoSet_spec s.lib.db kind.dbType noServer fd.1 n
  · rw [hset, hfree]
    exact h.lists.insert_unlisted fd.ne_invalid hmagic habs.info rfl
  · rw [hset, hfree]
    have hloc : loc.dbType = kind.dbType := by
      rw [freeLoc_kind] at hfree
      obtain ⟨i, -, rfl⟩ := Option.map_eq_some_iff.mp hfree
      exact dbType_loc kind i
    exact h.lists.insert fd.ne_invalid hmagic habs.info (freeLoc_free hfree) rfl ⟨hloc, rfl, rfl, rfl, rfl⟩ rfl

/-- **A stop** closes the descriptor of a session and empties its slot, or finds no session. -/
theorem stop (h : Tracks fds₀ a s) (hown : handle ∉ fds₀)
    (hkind : ∀ loc, Live s.lib.db handle loc → loc.dbType = kind.dbType) :
    (a handle = none ∧ (stopBy kind.delete s handle).1 ≠ 0 ∧ (stopBy kind.delete s handle).2 = s) ∨
    ∃ x, a handle = some x ∧ (stopBy kind.delete s handle).1 = (if x.listed then 0 else -kind.notFound) ∧
      Tracks fds₀ (Function.update a handle none) (stopBy kind.delete s handle).2 := by
  unfold stopBy closeSocketWrapper
  rw [h.ready]
  dsimp only
  rw [if_neg (by decide)]
  by_cases hinvalid : handle = INVALID_HANDLE_ID
  · refine Or.inl ⟨?_, ?_⟩
    · by_contra hsome
      obtain ⟨x, hx⟩ := Option.ne_none_iff_exists'.mp hsome
      exact (h.lists.valid hx).1 hinvalid
    · rw [if_pos hinvalid]
      dsimp only
      rw [if_pos (by decide : EINVAL ≠ 0)]
      exact ⟨show -EINVAL ≠ 0 by decide, rfl⟩
  rw [if_neg hinvalid]
  by_cases hopen : handle ∈ s.fds
  · obtain ⟨x, hx⟩ := ((h.owns.fds handle).mp hopen).resolve_left hown
    rw [if_pos hopen, if_neg (not_not.mpr rfl)]
    have hall : ∀ loc, (s.lib.db.info loc).handle = handle → loc.dbType = kind.dbType :=
      fun loc hloc => hkind loc ⟨hinvalid, hloc⟩
    refine Or.inr ⟨x, hx, ?_⟩
    obtain ⟨loc, hloc, hdelete⟩ | ⟨habs, hdelete⟩ := delete_kind h.inv hall
    · have hlisted := (h.shown hx hloc).1
      have hslot := h.slot_iff hinvalid hloc
      have hinv := h.inv.clear loc (loc_ne_server (hall loc hloc))
      dsimp only
      rw [hdelete, hlisted]
      exact ⟨rfl, h.ready, hinv, h.owns.erase hx, h.lists.clear hslot⟩
    · have hunlisted : x.listed = false := by
        by_contra hl
        obtain ⟨loc, hloc⟩ := h.lists.listed hx (by simpa using hl)
        exact habs loc hloc
      dsimp only
      rw [hdelete, hunlisted]
      exact ⟨rfl, h.ready, h.inv, h.owns.erase hx, h.lists.drop habs⟩
  · refine Or.inl ⟨?_, ?_⟩
    · by_contra hsome
      obtain ⟨x, hx⟩ := Option.ne_none_iff_exists'.mp hsome
      exact hopen ((h.owns.fds _).mpr (Or.inr ⟨x, hx⟩))
    · rw [if_neg hopen]
      dsimp only
      rw [if_pos (by decide : EBADF ≠ 0)]
      exact ⟨show -EBADF ≠ 0 by decide, rfl⟩

/-- A counter of the bytes sent. -/
theorem txUpdate_of_found {db : Db} {t : DbType} {loc : InfoLoc}
    (hget : libCommuDbHanldeInfoGet db handle t = (0, some loc)) (n : UInt64) :
    ∃ tx, handleTotalTxUpdate db handle t n = (0, db.setInfo loc { db.info loc with
      socektInfo := { (db.info loc).socektInfo with totalSumBytesTx := tx } }) := by
  unfold handleTotalTxUpdate
  rw [hget]
  exact ⟨_, rfl⟩

/-- The counters of a session are not seen. -/
theorem counted (h : Tracks fds₀ a s) (hx : a handle = some x) (hloc : (s.lib.db.info loc).handle = handle)
    {info : HandleInfo} (hinfo : info.handle = handle) (hshown : x.Shown loc info) :
    Tracks fds₀ a (s.setDb (s.lib.db.setInfo loc info)) := by
  have hupdate := h.setInfo hx hloc hinfo hshown (h.shown hx hloc).1 rfl
  rwa [← hx, Function.update_eq_self] at hupdate

/-- **The call of the kernel** of a send: it fails, or what was sent is counted. -/
theorem llSend_spec {db : Db} {loc : InfoLoc} (hget : libCommuDbHanldeInfoGet db handle .udpHandle = (0, some loc))
    (buffer : List UInt8) {answer : IoResult} (hanswer : answer ≠ .error 0) :
    ((commLibUdpLlSend db handle buffer answer).err = 0 ↔ answer = .bytes buffer.length) ∧
    ((commLibUdpLlSend db handle buffer answer).db = db ∨
      ∃ tx, (commLibUdpLlSend db handle buffer answer).db = db.setInfo loc { db.info loc with
        socektInfo := { (db.info loc).socektInfo with totalSumBytesTx := tx } }) := by
  cases answer with
  | error errno =>
    have herrno : errno ≠ 0 := fun h => hanswer (h ▸ rfl)
    exact ⟨iff_of_false herrno nofun, Or.inl rfl⟩
  | bytes n =>
    have herr : (if n ≠ buffer.length then EIO else 0) = 0 ↔ IoResult.bytes n = .bytes buffer.length := by
      rw [IoResult.bytes.injEq]
      by_cases hn : n = buffer.length <;> simp [hn, EIO]
    unfold commLibUdpLlSend
    dsimp only
    split
    · obtain ⟨tx, htx⟩ := txUpdate_of_found hget (UInt64.ofNat n)
      rw [htx]
      dsimp only
      rw [if_neg fun h => h.1 rfl]
      exact ⟨herr, Or.inr ⟨tx, rfl⟩⟩
    · exact ⟨herr, Or.inl rfl⟩

/-- **A send** of a session that is listed hands its datagram to the kernel. -/
theorem send (h : Tracks fds₀ a s) (hvalid : handle ≠ INVALID_HANDLE_ID) (recipient : AddrInfo)
    (payload : List UInt8) {answer : IoResult} (hanswer : answer ≠ .error 0) :
    SendReply a handle payload answer (hostStep s (.udpSend handle recipient payload answer)).1 a ∧
      Tracks fds₀ a (hostStep s (.udpSend handle recipient payload answer)).2 := by
  have hready : ¬(!s.lib.initDone) = true := by simp [h.ready]
  unfold hostStep commLibUdpSend
  dsimp only
  rw [if_neg hready]
  by_cases hlong : MAX_UDP_MSG_SIZE - METADATA_SIZE < payload.length
  · rw [if_pos hlong]
    refine ⟨⟨rfl, _, _, Or.inr ⟨fun hfits => absurd hfits.2 (Nat.not_le.mpr hlong), rfl, ?_⟩⟩, h⟩
    show -EOVERFLOW ≠ 0
    decide
  rw [if_neg hlong]
  have hlook : Looked a s handle .udp (libCommuDbHanldeInfoGet s.lib.db handle .udpHandle) := h.lookup hvalid .udp
  generalize hget : libCommuDbHanldeInfoGet s.lib.db handle .udpHandle = r at hlook
  cases hlook with
  | miss failed absent =>
    refine ⟨⟨rfl, _, _, Or.inr ⟨fun hfits => absent hfits.1, rfl, ?_⟩⟩, h⟩
    show -_ ≠ (0 : Int)
    omega
  | @hit loc x session same listed shown holds =>
    dsimp only
    obtain ⟨herr, hdb⟩ := llSend_spec hget
      ((metadataSet MSG_VERSION payload.length (s.lib.db.info loc)).bytes ++ payload) hanswer
    rw [List.length_append, bytes_length] at herr
    have htracks : Tracks fds₀ a (s.setDb (commLibUdpLlSend s.lib.db handle
        ((metadataSet MSG_VERSION payload.length (s.lib.db.info loc)).bytes ++ payload) answer).db) := by
      obtain hsame | ⟨tx, hsent⟩ := hdb
      · rw [hsame]
        exact h
      · rw [hsent]
        exact h.counted session holds holds
          ⟨shown.kind, shown.msgType, shown.isSinglePeer, shown.localMagic, shown.peerMagic⟩
    have hlisted : handle ∈ a.listed .udp := ⟨x, session, same, listed⟩
    split
    · rename_i hfails
      refine ⟨⟨rfl, _, _, Or.inl ⟨hlisted, Nat.not_lt.mp hlong, rfl, iff_of_false ?_ fun ha => hfails (herr.mpr ha)⟩⟩,
        htracks⟩
      show - EIO ≠ 0
      decide
    · rename_i hok
      exact ⟨⟨rfl, _, _, Or.inl ⟨hlisted, Nat.not_lt.mp hlong, rfl, iff_of_true rfl (herr.mp (not_not.mp hok))⟩⟩,
        htracks⟩

/-- A header that there is no room for is not accepted. -/
theorem not_checked_zero (received : List UInt8) : ¬(datagramHeader received 0).Checked := fun h =>
  h.nonempty (UInt32.toNat_inj.mp (Nat.le_zero.mp h.fits))

/-- The record of a session after a header. -/
theorem shown_validate {info : HandleInfo} {received : List UInt8} (payloadLen : Nat) (hshown : x.Shown loc info)
    (hlong : METADATA_SIZE ≤ received.length) :
    (x.after received payloadLen).Shown loc ((datagramHeader received payloadLen).validate info).2 ∧
      ((datagramHeader received payloadLen).validate info).2.handle = info.handle := by
  have hiff : info.Unlearned ↔ x.peerMagic = INVALID_MAGIC := by
    unfold HandleInfo.Unlearned
    rw [hshown.peerMagic]
  rw [validate_snd]
  unfold AppSession.after
  by_cases hlearns : (datagramHeader received payloadLen).Checked ∧ x.peerMagic = INVALID_MAGIC
  · rw [if_pos ⟨hlong, hlearns⟩, if_pos ⟨hlearns.1, hiff.mpr hlearns.2⟩]
    exact ⟨⟨hshown.kind, hshown.msgType, hshown.isSinglePeer, hshown.localMagic, rfl⟩, rfl⟩
  · rw [if_neg fun h => hlearns h.2, if_neg fun h => hlearns ⟨h.1, hiff.mp h.2⟩]
    exact ⟨hshown, rfl⟩

theorem after_listed (x : AppSession) (received : List UInt8) (payloadLen : Nat) :
    (x.after received payloadLen).listed = x.listed := by
  unfold AppSession.after
  split
  · rfl
  · rfl

theorem after_localMagic (x : AppSession) (received : List UInt8) (payloadLen : Nat) :
    (x.after received payloadLen).localMagic = x.localMagic := by
  unfold AppSession.after
  split
  · rfl
  · rfl

theorem after_short {received : List UInt8} {payloadLen : Nat} (hshort : received.length < METADATA_SIZE) :
    x.after received payloadLen = x := if_neg fun h => absurd h.1 (Nat.not_le.mpr hshort)

/-- **The record of a session after a receive.** -/
theorem recv_lib {lib : CommLib} (hready : lib.initDone = true)
    (hget : libCommuDbHanldeInfoGet lib.db handle .udpHandle = (0, some loc)) (hshown : x.Shown loc (lib.db.info loc))
    (addresserSt : AddrInfo) (payloadLen : Nat) (beyond : Nat → UInt8) (answer : RecvfromResult) :
    ∃ info, (commLibUdpRecv lib handle addresserSt payloadLen beyond answer).lib =
        { lib with db := lib.db.setInfo loc info } ∧ info.handle = (lib.db.info loc).handle ∧
      (x.after (answer.received MAX_MTU) payloadLen).Shown loc info := by
  have hnot : ¬(!lib.initDone) = true := by simp [hready]
  have hself : lib = { lib with db := lib.db.setInfo loc (lib.db.info loc) } := by rw [setInfo_self]
  unfold commLibUdpRecv
  rw [if_neg hnot]
  split
  · rename_i hzero
    refine ⟨lib.db.info loc, hself, rfl, ?_⟩
    rw [hzero, AppSession.after, if_neg fun h => not_checked_zero _ h.2.1]
    exact hshown
  rw [hget]
  obtain ⟨hreceived, hok, hdb⟩ := udpLlRecv_cases hget addresserSt answer
  dsimp only
  rw [hreceived]
  obtain ⟨c, hc, hhandle, hcounted⟩ : ∃ c, (commLibUdpLlRecv lib.db handle MAX_MTU addresserSt answer).db =
      lib.db.setInfo loc c ∧ c.handle = (lib.db.info loc).handle ∧ x.Shown loc c := by
    obtain hsame | ⟨rx, hrx⟩ := hdb
    · exact ⟨lib.db.info loc, by rw [hsame, setInfo_self], rfl, hshown⟩
    · exact ⟨_, hrx, rfl, hshown.kind, hshown.msgType, hshown.isSinglePeer, hshown.localMagic, hshown.peerMagic⟩
  rw [hc]
  by_cases hshort : (answer.received MAX_MTU).length < METADATA_SIZE
  · rw [after_short hshort]
    refine ⟨c, ?_, hhandle, hcounted⟩
    split
    · rfl
    · rfl
  · have herr : (commLibUdpLlRecv lib.db handle MAX_MTU addresserSt answer).err = 0 :=
      hok (Nat.lt_of_lt_of_le (by decide) (Nat.not_lt.mp hshort))
    obtain ⟨hafter, hkeeps⟩ := shown_validate payloadLen hcounted (Nat.not_lt.mp hshort)
    rw [if_neg (not_not.mpr herr), if_neg hshort, header_localBuffer (Nat.not_lt.mp hshort), info_setInfo,
      if_pos rfl, setInfo_setInfo]
    refine ⟨_, ?_, hkeeps.trans hhandle, hafter⟩
    split
    · rfl
    · rfl

/-- A session takes the datagrams that its record takes. -/
theorem accepts_iff {lib : CommLib} (hready : lib.initDone = true)
    (hget : libCommuDbHanldeInfoGet lib.db handle .udpHandle = (0, some loc)) (hshown : x.Shown loc (lib.db.info loc))
    (payloadLen : Nat) (received : List UInt8) :
    UdpAccepts lib handle payloadLen received ↔ x.Accepts received payloadLen := by
  have hfits : (datagramHeader received payloadLen).Fits (lib.db.info loc).connInfo.msgType ↔
      (datagramHeader received payloadLen).Checked ∧
        (datagramHeader received payloadLen).metadata.msgType = x.msgType := by
    unfold Incoming.Fits
    rw [hshown.msgType, UInt8.toUInt16_inj]
  have htrusts : (lib.db.info loc).Trusts (datagramHeader received payloadLen).metadata.trailer ↔
      x.peerMagic = INVALID_MAGIC ∨ x.isSinglePeer = 0 ∨
        x.peerMagic = (datagramHeader received payloadLen).metadata.trailer := by
    unfold HandleInfo.Trusts HandleInfo.Unlearned
    rw [hshown.peerMagic, hshown.isSinglePeer]
  constructor
  · rintro ⟨-, hlong, loc', hget', hheader, htrusted⟩
    cases Option.some.inj (congrArg Prod.snd (hget'.symm.trans hget))
    obtain ⟨hchecked, htype⟩ := hfits.mp hheader
    exact ⟨hlong, hchecked, htype, htrusts.mp htrusted⟩
  · rintro ⟨hlong, hchecked, htype, htrusted⟩
    exact ⟨hready, hlong, loc, hget, hfits.mpr ⟨hchecked, htype⟩, htrusts.mpr htrusted⟩

/-- A receive for a handle that is not found fails at once. -/
theorem recv_missed {lib : CommLib} (hready : lib.initDone = true) {err : Int}
    (hget : libCommuDbHanldeInfoGet lib.db handle .udpHandle = (err, none)) (herr : err ≠ 0)
    (addresserSt : AddrInfo) (payloadLen : Nat) (beyond : Nat → UInt8) (answer : RecvfromResult) :
    ∃ err', err' ≠ 0 ∧
      commLibUdpRecv lib handle addresserSt payloadLen beyond answer = udpRecvFails err' lib addresserSt [] := by
  have hnot : ¬(!lib.initDone) = true := by simp [hready]
  unfold commLibUdpRecv
  rw [if_neg hnot]
  split
  · exact ⟨EINVAL, by decide, rfl⟩
  · rw [hget]
    exact ⟨err, herr, rfl⟩

/-- **A receive** delivers what its session accepts, and the session learns the magic of its first datagram. -/
theorem recv (h : Tracks fds₀ a s) (hvalid : handle ≠ INVALID_HANDLE_ID) (addresserSt : AddrInfo) (payloadLen : Nat)
    (beyond : Nat → UInt8) (answer : RecvfromResult) :
    ∃ a', RecvReply a handle payloadLen beyond answer
        (hostStep s (.udpRecv handle addresserSt payloadLen beyond answer)).1 a' ∧
      Tracks fds₀ a' (hostStep s (.udpRecv handle addresserSt payloadLen beyond answer)).2 := by
  have hlook : Looked a s handle .udp (libCommuDbHanldeInfoGet s.lib.db handle .udpHandle) := h.lookup hvalid .udp
  generalize hget : libCommuDbHanldeInfoGet s.lib.db handle .udpHandle = r at hlook
  cases hlook with
  | miss failed absent =>
    obtain ⟨err', herr', hfails⟩ := recv_missed h.ready hget failed addresserSt payloadLen beyond answer
    unfold hostStep
    dsimp only
    rw [hfails]
    refine ⟨a, ⟨_, _, _, _, _, rfl, Or.inr ⟨absent, ?_, rfl, rfl⟩⟩, h⟩
    show -err' ≠ 0
    omega
  | @hit loc x session same listed shown holds =>
    obtain ⟨info, hlib, hhandle, hafter⟩ := recv_lib h.ready hget shown addresserSt payloadLen beyond answer
    have haccepts := accepts_iff h.ready hget shown payloadLen (answer.received MAX_MTU)
    refine ⟨_, ⟨_, _, _, _, _, rfl, Or.inl ⟨x, session, same, listed, ?_, ?_, rfl⟩⟩, ?_⟩
    · obtain ⟨hyes, herr, -⟩ | ⟨hno, herr⟩ := udpRecv_cases s.lib handle addresserSt payloadLen beyond answer
      · exact iff_of_true herr (haccepts.mp hyes)
      · exact iff_of_false herr fun hx => hno (haccepts.mpr hx)
    · intro hok
      obtain ⟨-, -, hlen, hpayload⟩ | ⟨-, herr⟩ := udpRecv_cases s.lib handle addresserSt payloadLen beyond answer
      · exact ⟨hlen, hlen ▸ hpayload⟩
      · exact absurd hok herr
    · unfold hostStep
      dsimp only
      rw [hlib]
      apply h.setInfo session holds (hhandle.trans holds) hafter
      · rw [after_listed, listed]
      · rw [after_localMagic]

/-- **A start** opens a session, or leaves all as it was. -/
theorem started (h : Tracks fds₀ a s) (kind : SessionKind) {Opens : Fd → NewInfo → Prop} {r : StartResult}
    (hspec : StartSpec s kind.dbType Opens r) (hnew : ∀ fd n, Opens fd n → fd.1 ∉ s.fds)
    (hmagic : ∀ fd n, Opens fd n → n.localMagic ≠ INVALID_MAGIC) :
    ∃ a', StartReply a kind Opens (.started r.err r.handle) a' ∧ Tracks fds₀ a' r.host := by
  by_cases hopens : ∃ fd n, Opens fd n
  · obtain ⟨fd, n, hfd⟩ := hopens
    obtain ⟨hnone, listed, hroom, htracks⟩ := h.start (hnew fd n hfd) kind (hmagic fd n hfd)
    rw [hspec.opens fd n hfd]
    exact ⟨_, Or.inl ⟨fd, n, listed, hfd, hroom, rfl, hnone, rfl⟩, htracks⟩
  · have hno : ∀ fd n, ¬Opens fd n := fun fd n hfd => hopens ⟨fd, n, hfd⟩
    obtain ⟨herr, hhost⟩ := hspec.fails hno
    rw [hhost]
    exact ⟨a, Or.inr ⟨hno, ⟨_, _, herr, rfl⟩, rfl⟩, h⟩

/-- A stop ends a session, or returns an error. -/
theorem stopped (h : Tracks fds₀ a s) (kind : SessionKind) (hown : handle ∉ fds₀)
    (hkind : ∀ loc, Live s.lib.db handle loc → loc.dbType = kind.dbType) :
    ∃ a', StopReply a kind handle (.stopped (stopBy kind.delete s handle).1) a' ∧
      Tracks fds₀ a' (stopBy kind.delete s handle).2 := by
  obtain ⟨hnone, herr, hsame⟩ | ⟨x, hx, herr, htracks⟩ := h.stop hown hkind
  · rw [hsame]
    refine ⟨a, ?_, h⟩
    unfold StopReply
    rw [hnone]
    exact ⟨⟨_, herr, rfl⟩, rfl⟩
  · refine ⟨_, ?_, htracks⟩
    unfold StopReply
    rw [hx, herr]
    exact ⟨rfl, rfl⟩

/-- **One call.** -/
theorem step (h : Tracks fds₀ a s) (call : HostCall) (hmeets : HostMeets fds₀ s call) :
    ∃ a', HostSpec a s call (hostStep s call).1 a' ∧ Tracks fds₀ a' (hostStep s call).2 := by
  cases call with
  | udpSessionStart handle params sys =>
    apply h.started .udp (udpStart_spec s handle params sys hmeets)
    · intro fd n hopens
      exact hmeets fd hopens.socket
    · intro fd n hopens
      obtain ⟨p, -, -, rfl⟩ := hopens.params
      exact pseudoRandom_ne_invalid sys.rand
  | udpSessionStop handle => exact h.stopped .udp hmeets.1 hmeets.2
  | tcpClientBlockingStart connInfo clientHandle sys =>
    apply h.started .tcpClient (clientStart_spec s connInfo clientHandle sys hmeets)
    · intro fd n hopens
      exact hmeets fd hopens.socket
    · intro fd n hopens
      obtain ⟨c, -, rfl⟩ := hopens.connInfo
      exact pseudoRandom_ne_invalid sys.rand
  | tcpPeerStop handle => exact h.stopped .tcpClient hmeets.1 hmeets.2
  | udpSend handle recipient payload answer =>
    exact ⟨a, h.send hmeets.1 recipient payload hmeets.2⟩
  | udpRecv handle addresserSt payloadLen beyond answer =>
    exact h.recv hmeets addresserSt payloadLen beyond answer

/-- A table lists at most as many sessions as it has slots. -/
theorem listed_le (h : Tracks fds₀ a s) (kind : SessionKind) : (a.listed kind).ncard ≤ TCP_HANDLE_ARR_LENGTH := by
  rw [h.listed_eq kind, Set.ncard_coe_finset]
  calc (used INVALID_HANDLE_ID (kind.table s.lib.db)).card
      ≤ (occupied INVALID_HANDLE_ID (kind.table s.lib.db)).card := Finset.card_image_le
    _ ≤ (Finset.univ : Finset (Fin TCP_HANDLE_ARR_LENGTH)).card := Finset.card_le_univ _
    _ = TCP_HANDLE_ARR_LENGTH := Finset.card_fin _

end Tracks

/-! ## Runs -/

/-- What is seen of the host between two calls. -/
structure Observed (fds₀ : Finset Handle) (a : Sessions) (s : Host) : Prop where
  fds : ∀ handle, handle ∈ s.fds ↔ handle ∈ fds₀ ∨ ∃ x, a handle = some x
  found : ∀ kind handle, handle ≠ INVALID_HANDLE_ID →
    ((libCommuDbHanldeInfoGet s.lib.db handle kind.dbType).1 = 0 ↔ handle ∈ a.listed kind)
  within : ∀ kind, (a.listed kind).ncard ≤ TCP_HANDLE_ARR_LENGTH

theorem Tracks.observed {fds₀ : Finset Handle} {a : Sessions} {s : Host} (h : Tracks fds₀ a s) :
    Observed fds₀ a s := by
  refine ⟨h.owns.fds, fun kind handle hvalid => ?_, h.listed_le⟩
  have hlook := h.lookup hvalid kind
  generalize libCommuDbHanldeInfoGet s.lib.db handle kind.dbType = r at hlook ⊢
  cases hlook with
  | hit session same listed shown holds => exact iff_of_true rfl ⟨_, session, same, listed⟩
  | miss failed absent => exact iff_of_false failed absent

/-- The host after `comm_lib_init`, with these descriptors. -/
def initHost (db₀ : Db) (fds₀ : Finset Handle) : Host := ⟨⟨true, libCommuDbInit db₀⟩, fds₀⟩

theorem info_init (db : Db) (loc : InfoLoc) : (libCommuDbInit db).info loc = .empty := by
  cases loc with
  | client i => rfl
  | server s i => exact congrFun (resetAll_spec (resetHandleDb db .udpHandle noServer).2 s).1 i
  | udp i => exact congrFun (resetAll_udp (resetHandleDb db .udpHandle noServer).2) i

/-- There are no sessions at first. -/
theorem tracks_init (db₀ : Db) (fds₀ : Finset Handle) : Tracks fds₀ (fun _ => none) (initHost db₀ fds₀) := by
  refine ⟨rfl, dbInv_init db₀, ⟨fun handle => ?_, fun _ _ => rfl⟩, nofun, fun {loc} hvalid => ?_, nofun⟩
  · simp [initHost]
  · change ((libCommuDbInit db₀).info loc).handle ≠ INVALID_HANDLE_ID at hvalid
    rw [info_init] at hvalid
    exact absurd rfl hvalid

/-- **Descriptors.**  In every run of starts, stops, sends and receives, each call returns what the sessions say, and
changes them as it says; between two calls the open descriptors are those of the sessions and those that were open
before, and a lookup finds the sessions of its kind that are listed. -/
theorem descriptors_accounted (db₀ : Db) (fds₀ : Finset Handle) (calls : List HostCall)
    (hmeets : AllMeet (fun s call => some (hostStep s call).2) (HostMeets fds₀) (initHost db₀ fds₀) calls) :
    ∃ rs, trace (fun s call => some (hostStep s call)) (initHost db₀ fds₀) calls = some rs ∧
      Follows (Observed fds₀) (fun a s call r _ a' => HostSpec a s call r a') (fun _ => none) (initHost db₀ fds₀)
        calls rs := by
  apply exists_follows (R := fun calls a s => Tracks fds₀ a s ∧
    AllMeet (fun s call => some (hostStep s call).2) (HostMeets fds₀) s calls)
  · rintro calls a s ⟨htracks, -⟩
    exact htracks.observed
  · rintro call calls a s ⟨htracks, hmeets⟩
    obtain ⟨hcall, hrest⟩ := (allMeet_cons rfl).mp hmeets
    obtain ⟨a', hspec, htracks'⟩ := htracks.step call hcall
    exact ⟨_, _, a', rfl, hspec, htracks', hrest⟩
  · exact ⟨tracks_init db₀ fds₀, hmeets⟩

/-- A descriptor with this number. -/
def fdOf (n : Nat) : Fd := ⟨n, Int.natCast_nonneg n⟩

/-- A UDP session that is started and sends, a client that cannot connect, and the end of the session. -/
def sampleHostCalls : List HostCall :=
  [.udpSessionStart true (some ⟨.connTypeUdpIpUc, ⟨0, 80, 3⟩, .connServer, 1⟩) ⟨.ok (fdOf 5), none, none, 77⟩,
    .udpSend 5 ⟨90, 8⟩ [1, 2] (.bytes 12),
    .tcpClientBlockingStart (some ⟨0, 0, 8, 90, 3⟩) true ⟨.ok (fdOf 6), none, none, none, some ⟨111, by decide⟩, 5⟩,
    .udpSessionStop 5]

theorem descriptors_accounted_sample : ∃ rs,
    trace (fun s call => some (hostStep s call)) (initHost Db.zero {1, 2}) sampleHostCalls = some rs ∧
      Follows (Observed {1, 2}) (fun a s call r _ a' => HostSpec a s call r a') (fun _ => none)
        (initHost Db.zero {1, 2}) sampleHostCalls rs:=
  descriptors_accounted Db.zero {1, 2} sampleHostCalls (by decide +kernel)

end MlnxLib.Commu
