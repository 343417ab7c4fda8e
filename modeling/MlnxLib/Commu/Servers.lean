import MlnxLib.Commu.Db

/-!
# The tables of a server stay in step

A connection a server accepted is in two tables and in a counter, which different functions fill
and clear.  Both tables have 16 slots and use the first free one, so they agree slot by slot, and
both are full at the same time; a full table is then reported by the second insertion alone.

* `DbInv db` — the tables agree, the counters are exact, and no handle is in two places.

Principal results: `DbInv.step` — every operation keeps the invariant; `delete_spec` — what a delete
does, without the branches of its programming errors; `server_tables_in_step` — after every run the
tables and the counter of every server agree, and a delete takes none of those branches.
-/

set_option autoImplicit false

namespace MlnxLib.Commu

open SlotTable

/-! ## Columns after an update -/

section Columns

variable (db : Db)

@[simp] theorem info_setInfo (loc loc' : InfoLoc) (x : HandleInfo) :
    (db.setInfo loc x).info loc' = if loc' = loc then x else db.info loc' := by
  cases loc with
  | client i =>
    cases loc' with
    | client j => by_cases hj : j = i <;> simp [Db.setInfo, Db.info, hj]
    | _ => simp [Db.setInfo, Db.info]
  | udp i =>
    cases loc' with
    | udp j => by_cases hj : j = i <;> simp [Db.setInfo, Db.info, hj]
    | _ => simp [Db.setInfo, Db.info]
  | server s i =>
    cases loc' with
    | server s' j =>
      by_cases hs : s' = s
      · subst hs
        by_cases hj : j = i <;> simp [Db.setInfo, Db.setServerTable, Db.info, hj]
      · simp [Db.setInfo, Db.setServerTable, Db.info, hs]
    | _ => simp [Db.setInfo, Db.setServerTable, Db.info]

@[simp] theorem info_setStatus (s : ServerId) (st : ServerStatus) (loc : InfoLoc) :
    (db.setStatus s st).info loc = db.info loc := by
  cases loc <;> rfl

@[simp] theorem status_setInfo (loc : InfoLoc) (x : HandleInfo) :
    (db.setInfo loc x).serverStatusSt = db.serverStatusSt := by
  cases loc <;> rfl

@[simp] theorem status_setStatus (s s' : ServerId) (st : ServerStatus) :
    (db.setStatus s st).serverStatusSt s' = if s' = s then st else db.serverStatusSt s' := by
  by_cases hs : s' = s
  · subst hs
    simp [Db.setStatus]
  · simp [Db.setStatus, hs]

theorem setStatus_setStatus (s : ServerId) (st st' : ServerStatus) :
    (db.setStatus s st).setStatus s st' = db.setStatus s st' := by
  unfold Db.setStatus
  rw [Function.update_idem]

theorem serverHandles_apply (s : ServerId) (i : Slot) :
    db.serverHandles s i = (db.info (.server s i)).handle := rfl

theorem serverHandles_setInfo (s : ServerId) (i : Slot) (x : HandleInfo) (s' : ServerId) :
    (db.setInfo (.server s i) x).serverHandles s' =
      if s' = s then Function.update (db.serverHandles s) i x.handle else db.serverHandles s' := by
  by_cases hs : s' = s
  · subst hs
    rw [if_pos rfl]
    funext j
    rw [serverHandles_apply, info_setInfo]
    by_cases hj : j = i
    · subst hj
      simp
    · simp [hj, serverHandles_apply]
  · rw [if_neg hs]
    funext j
    rw [serverHandles_apply, info_setInfo, if_neg (by simp [hs])]
    rfl

theorem statusHandles_setStatus (s s' : ServerId) (st : ServerStatus) :
    (db.setStatus s st).statusHandles s' =
      if s' = s then ConnectionStatus.handle ∘ st.clientStatus else db.statusHandles s' := by
  unfold Db.statusHandles
  rw [status_setStatus]
  split <;> rfl

end Columns

/-! ## The invariant -/

/-- Both tables of every server agree slot by slot. -/
def Aligned (db : Db) : Prop := ∀ s, db.statusHandles s = db.serverHandles s

/-- The tables of the servers agree and are counted, and a handle is in one place. -/
structure DbInv (db : Db) : Prop where
  aligned : Aligned db
  counted : ∀ s, Counted INVALID_HANDLE_ID (db.serverStatusSt s).clientsNum.toNat (db.serverHandles s)
  unique : ∀ {loc loc'}, (db.info loc).handle ≠ INVALID_HANDLE_ID →
    (db.info loc).handle = (db.info loc').handle → loc = loc'

/-- The handle is in no table. -/
structure Db.Absent (db : Db) (handle : Handle) : Prop where
  info : ∀ loc, (db.info loc).handle ≠ handle
  status : ∀ s i, db.statusHandles s i ≠ handle

theorem DbInv.absent {db : Db} (h : DbInv db) {handle : Handle}
    (habs : ∀ loc, (db.info loc).handle ≠ handle) : db.Absent handle := by
  refine ⟨habs, fun s i => ?_⟩
  rw [h.aligned s]
  exact habs (.server s i)

/-! ## Inserting -/

/-- The location a free slot of a table stands for. -/
def freeLoc (db : Db) : DbType → ServerId → Option InfoLoc
  | .udpHandle, _ => (firstWith db.udpHandles INVALID_HANDLE_ID).map .udp
  | .tcpClientHandle, _ => (firstWith db.clientHandles INVALID_HANDLE_ID).map .client
  | .tcpServerHandle, s => (firstWith (db.serverHandles s) INVALID_HANDLE_ID).map (.server s)
  | _, _ => none

theorem freeLoc_udp (db : Db) (s : ServerId) :
    freeLoc db .udpHandle s = (firstWith db.udpHandles INVALID_HANDLE_ID).map .udp := rfl

theorem freeLoc_client (db : Db) (s : ServerId) :
    freeLoc db .tcpClientHandle s = (firstWith db.clientHandles INVALID_HANDLE_ID).map .client := rfl

theorem freeLoc_server (db : Db) (s : ServerId) :
    freeLoc db .tcpServerHandle s =
      (firstWith (db.serverHandles s) INVALID_HANDLE_ID).map (.server s) := rfl

/-- **`handle_info_set`** fills the first free slot; without one it changes nothing. -/
theorem handleInfoSet_spec (db : Db) (type : DbType) (s : ServerId) (handle : Handle) (n : NewInfo) :
    (freeLoc db type s = none ∧ handleInfoSet db type s handle n = (0, db)) ∨
    ∃ loc, freeLoc db type s = some loc ∧
      handleInfoSet db type s handle n = (0, db.setInfo loc (n.fill handle (db.info loc))) := by
  unfold handleInfoSet handleInfoSetLocked
  cases type with
  | udpHandle =>
    rw [freeLoc_udp, findEmptySlot_udp]
    cases firstWith db.udpHandles INVALID_HANDLE_ID with
    | none => exact Or.inl ⟨rfl, rfl⟩
    | some i => exact Or.inr ⟨.udp i, rfl, rfl⟩
  | tcpClientHandle =>
    rw [freeLoc_client, findEmptySlot_client]
    cases firstWith db.clientHandles INVALID_HANDLE_ID with
    | none => exact Or.inl ⟨rfl, rfl⟩
    | some i => exact Or.inr ⟨.client i, rfl, rfl⟩
  | tcpServerHandle =>
    rw [freeLoc_server, findEmptySlot_server]
    cases firstWith (db.serverHandles s) INVALID_HANDLE_ID with
    | none => exact Or.inl ⟨rfl, rfl⟩
    | some i => exact Or.inr ⟨.server s i, rfl, rfl⟩
  | tcpServerStatusHandle =>
    rw [findEmptySlot_status]
    refine Or.inl ⟨rfl, ?_⟩
    cases firstWith (db.statusHandles s) INVALID_HANDLE_ID <;> rfl
  | listenerThread =>
    rw [findEmptySlot_thread]
    refine Or.inl ⟨rfl, ?_⟩
    cases firstWith db.listenerThreads 0 <;> rfl
  | any => exact Or.inl ⟨rfl, rfl⟩

theorem freeLoc_free {db : Db} {type : DbType} {s : ServerId} {loc : InfoLoc}
    (h : freeLoc db type s = some loc) : (db.info loc).handle = INVALID_HANDLE_ID := by
  cases type with
  | udpHandle =>
    rw [freeLoc_udp, Option.map_eq_some_iff] at h
    obtain ⟨i, hi, rfl⟩ := h
    exact apply_of_firstWith hi
  | tcpClientHandle =>
    rw [freeLoc_client, Option.map_eq_some_iff] at h
    obtain ⟨i, hi, rfl⟩ := h
    exact apply_of_firstWith hi
  | tcpServerHandle =>
    rw [freeLoc_server, Option.map_eq_some_iff] at h
    obtain ⟨i, hi, rfl⟩ := h
    exact apply_of_firstWith hi
  | _ => cases h

/-- A handle that is in no table is put into a free slot. -/
theorem unique_fill {db : Db} (h : DbInv db) {handle : Handle} (habs : db.Absent handle)
    {loc : InfoLoc} {x : HandleInfo} (hx : x.handle = handle) {l l' : InfoLoc}
    (hl : ((db.setInfo loc x).info l).handle ≠ INVALID_HANDLE_ID)
    (hll : ((db.setInfo loc x).info l).handle = ((db.setInfo loc x).info l').handle) : l = l' := by
  rw [info_setInfo] at hl hll
  rw [info_setInfo] at hll
  split at hll <;> split at hll
  · rename_i h₁ h₂
    rw [h₁, h₂]
  · exact absurd (hll.symm.trans hx) (habs.info l')
  · exact absurd (hll.trans hx) (habs.info l)
  · rename_i h₁ h₂
    rw [if_neg h₁] at hl
    exact h.unique hl hll

theorem unique_clear {db : Db} (h : DbInv db) {loc l l' : InfoLoc}
    (hl : ((db.setInfo loc .empty).info l).handle ≠ INVALID_HANDLE_ID)
    (hll : ((db.setInfo loc .empty).info l).handle = ((db.setInfo loc .empty).info l').handle) :
    l = l' := by
  rw [info_setInfo] at hl hll
  rw [info_setInfo] at hll
  split at hll
  · rename_i h₁
    rw [if_pos h₁] at hl
    exact absurd rfl hl
  · rename_i h₁
    rw [if_neg h₁] at hl
    split at hll
    · exact absurd hll hl
    · exact h.unique hl hll

/-- The accept path of `listener_main_thread` between the two locks: a connection is put into the
table of its server and into its status. -/
structure Accepted where
  serverId : ServerId
  msgType : UInt8
  localInfo : AddrInfo
  peerInfo : AddrInfo
  localMagic : UInt32
  sIpv4Addr : UInt32
  sPort : UInt16
  deriving DecidableEq, Repr

def Accepted.newInfo (a : Accepted) : NewInfo := ⟨a.msgType, a.localInfo, a.peerInfo, 1, a.localMagic⟩

def Accepted.status (a : Accepted) (handle : Handle) : ConnectionStatus :=
  ⟨handle, .up, a.sIpv4Addr, a.sPort, a.peerInfo.ipv4Addr, a.peerInfo.port⟩

def acceptConnection (db : Db) (handle : Handle) (a : Accepted) : Int × Db :=
  let r := libCommuDbTcpServerHandleInfoSet db a.serverId handle a.msgType a.localInfo a.peerInfo
    a.localMagic
  if r.1 ≠ 0 then r else
  libCummoDbServerStatusClientSet r.2 handle a.peerInfo a.sIpv4Addr a.sPort a.serverId

theorem acceptConnection_eq (db : Db) (handle : Handle) (a : Accepted) :
    acceptConnection db handle a =
      if (handleInfoSet db .tcpServerHandle a.serverId handle a.newInfo).1 ≠ 0 then
        handleInfoSet db .tcpServerHandle a.serverId handle a.newInfo
      else libCummoDbServerStatusClientSet
        (handleInfoSet db .tcpServerHandle a.serverId handle a.newInfo).2 handle a.peerInfo a.sIpv4Addr
        a.sPort a.serverId := rfl

/-- The database with a connection in slot `i` of both tables of its server. -/
def accepted (db : Db) (handle : Handle) (a : Accepted) (i : Slot) : Db :=
  let st := db.serverStatusSt a.serverId
  (db.setInfo (.server a.serverId i) (a.newInfo.fill handle (db.info (.server a.serverId i)))).setStatus
    a.serverId { st with
      clientsNum := st.clientsNum + 1
      clientStatus := Function.update st.clientStatus i (a.status handle) }

/-- **An accept** fills the same slot of both tables, or finds both full and changes nothing. -/
theorem accept_spec {db : Db} (h : Aligned db) (handle : Handle) (a : Accepted) :
    (freeLoc db .tcpServerHandle a.serverId = none ∧ acceptConnection db handle a = (ENOBUFS, db)) ∨
    ∃ i, freeLoc db .tcpServerHandle a.serverId = some (.server a.serverId i) ∧
      acceptConnection db handle a = (0, accepted db handle a i) := by
  have halign := h a.serverId
  have hslot := freeLoc_server db a.serverId
  rw [acceptConnection_eq]
  obtain ⟨hfree, hset⟩ | ⟨loc, hfree, hset⟩ :=
    handleInfoSet_spec db .tcpServerHandle a.serverId handle a.newInfo
  · refine Or.inl ⟨hfree, ?_⟩
    rw [hslot, Option.map_eq_none_iff] at hfree
    have hempty : findEmptySlot db .tcpServerStatusHandle a.serverId = (ENOBUFS, none) := by
      rw [findEmptySlot_status, halign, hfree, slotOr_none]
    rw [hset, if_neg (by simp)]
    unfold libCummoDbServerStatusClientSet
    rw [hempty]
  · rw [hfree, eq_comm, Option.map_eq_some_iff] at hslot
    obtain ⟨i, hi, rfl⟩ := hslot
    refine Or.inr ⟨i, hfree, ?_⟩
    have hempty : findEmptySlot (db.setInfo (.server a.serverId i)
        (a.newInfo.fill handle (db.info (.server a.serverId i)))) .tcpServerStatusHandle a.serverId =
        (0, some i) := by
      rw [findEmptySlot_status, Db.statusHandles, status_setInfo]
      rw [← Db.statusHandles, halign, hi, slotOr_some]
    rw [hset, if_neg (by simp)]
    unfold libCummoDbServerStatusClientSet accepted
    rw [hempty]
    simp only [status_setInfo]
    rfl

theorem toNat_add_one {x : UInt32} (h : x.toNat < TCP_HANDLE_ARR_LENGTH) :
    (x + 1).toNat = x.toNat + 1 := by
  have h16 : x.toNat < 16 := h
  rw [UInt32.toNat_add, UInt32.toNat_one, Nat.mod_eq_of_lt (by omega)]

theorem toNat_sub_one {x : UInt32} (h : 0 < x.toNat) : (x - 1).toNat + 1 = x.toNat := by
  have hle : (1 : UInt32) ≤ x := by
    rw [UInt32.le_iff_toNat_le, UInt32.toNat_one]
    exact h
  rw [UInt32.toNat_sub_of_le _ _ hle, UInt32.toNat_one]
  omega

/-- Work outside the tables of the servers. -/
theorem DbInv.of_servers {db db' : Db} (h : DbInv db) (hs : db'.serverHandles = db.serverHandles)
    (hst : db'.serverStatusSt = db.serverStatusSt)
    (hu : ∀ {l l'}, (db'.info l).handle ≠ INVALID_HANDLE_ID →
      (db'.info l).handle = (db'.info l').handle → l = l') : DbInv db' := by
  refine ⟨fun s => ?_, fun s => ?_, hu⟩
  · rw [hs, Db.statusHandles, hst]
    exact h.aligned s
  · rw [hs, hst]
    exact h.counted s

/-- **An insertion into the client table or the UDP table.** -/
theorem DbInv.handleInfoSet {db : Db} (h : DbInv db) {type : DbType} (htype : type ≠ .tcpServerHandle)
    (s : ServerId) {handle : Handle} (habs : db.Absent handle) (n : NewInfo) :
    DbInv (handleInfoSet db type s handle n).2 := by
  obtain ⟨-, hset⟩ | ⟨loc, hfree, hset⟩ := handleInfoSet_spec db type s handle n
  · rw [hset]
    exact h
  · rw [hset]
    refine h.of_servers ?_ (status_setInfo ..) (unique_fill h habs rfl)
    cases type with
    | udpHandle =>
      rw [freeLoc_udp, Option.map_eq_some_iff] at hfree
      obtain ⟨i, -, rfl⟩ := hfree
      rfl
    | tcpClientHandle =>
      rw [freeLoc_client, Option.map_eq_some_iff] at hfree
      obtain ⟨i, -, rfl⟩ := hfree
      rfl
    | tcpServerHandle => exact absurd rfl htype
    | _ => cases hfree

theorem serverHandles_setStatus (db : Db) (s : ServerId) (st : ServerStatus) :
    (db.setStatus s st).serverHandles = db.serverHandles := rfl

/-- The same key in the same slot of both tables of a server. -/
theorem Aligned.setBoth {db : Db} (h : Aligned db) {s : ServerId} {i : Slot} {x : HandleInfo}
    {y : ConnectionStatus} (hxy : y.handle = x.handle) (num : UInt32) :
    Aligned ((db.setInfo (.server s i) x).setStatus s { db.serverStatusSt s with
      clientsNum := num
      clientStatus := Function.update (db.serverStatusSt s).clientStatus i y }) := by
  intro s'
  rw [statusHandles_setStatus, serverHandles_setStatus, serverHandles_setInfo, ← h s']
  split
  · rw [Function.comp_update, hxy, ← h s]
    rfl
  · rfl

/-- **An accept.** -/
theorem DbInv.accept {db : Db} (h : DbInv db) {handle : Handle} (habs : db.Absent handle)
    (a : Accepted) : DbInv (acceptConnection db handle a).2 := by
  obtain ⟨-, hacc⟩ | ⟨i, hfree, hacc⟩ := accept_spec h.aligned handle a
  · rw [hacc]
    exact h
  rw [hacc]
  have hi : db.serverHandles a.serverId i = INVALID_HANDLE_ID := freeLoc_free hfree
  have hcount := h.counted a.serverId
  have hnew : ∀ j, db.serverHandles a.serverId j ≠ handle := fun j => habs.info (.server a.serverId j)
  refine ⟨h.aligned.setBoth rfl _, fun s => ?_, fun hl hll => ?_⟩
  · rw [accepted, status_setStatus, serverHandles_setStatus, serverHandles_setInfo]
    split
    · dsimp only
      rw [toNat_add_one (hcount.num_lt hi)]
      exact hcount.fill hi hnew
    · rw [status_setInfo]
      exact h.counted s
  · simp only [accepted, info_setStatus] at hl hll
    exact unique_fill h habs rfl hl hll

/-! ## Removing -/

/-- The database without the connection in slot `i` of the table of a server and in slot `j` of its
status. -/
def dropped (db : Db) (s : ServerId) (i j : Slot) : Db :=
  let st := db.serverStatusSt s
  (db.setInfo (.server s i) .empty).setStatus s { st with
    clientsNum := st.clientsNum - 1
    clientStatus := Function.update st.clientStatus j .empty }

section Delete

variable {db : Db} {handle : Handle}

/-- A server in which the search finds a handle has clients. -/
theorem find_server {s : ServerId} {i : Slot} (h : db.find handle = some (.server s i)) :
    0 < (db.serverStatusSt s).clientsNum ∧ firstWith (db.serverHandles s) handle = some i := by
  unfold Db.find at h
  rw [Option.or_eq_some_iff, Option.or_eq_some_iff] at h
  obtain (h | ⟨-, h⟩) | ⟨-, h⟩ := h
  · obtain ⟨j, -, hj⟩ := Option.map_eq_some_iff.mp h
    cases hj
  · obtain ⟨s', hs', -⟩ := Fin.findSome?_eq_some_iff.mp h
    unfold searchServer at hs'
    split at hs'
    · rename_i hpos
      obtain ⟨j, hj, he⟩ := Option.map_eq_some_iff.mp hs'
      cases he
      exact ⟨hpos, hj⟩
    · cases hs'
  · obtain ⟨j, -, hj⟩ := Option.map_eq_some_iff.mp h
    cases hj

theorem tcpDelete_none (h : db.find handle = none) :
    tcpHandleInfoDeleteLocked db handle = (.notFound EINVAL, db) := by
  unfold tcpHandleInfoDeleteLocked
  rw [hanldeInfoGet_any, h, locOr_none]

theorem tcpDelete_client {i : Slot} (h : db.find handle = some (.client i)) :
    tcpHandleInfoDeleteLocked db handle = (.clientDeleted, db.setInfo (.client i) .empty) := by
  unfold tcpHandleInfoDeleteLocked
  rw [hanldeInfoGet_any, h, locOr_some]

theorem tcpDelete_udp {i : Slot} (h : db.find handle = some (.udp i)) :
    tcpHandleInfoDeleteLocked db handle = (.wrongType, db) := by
  unfold tcpHandleInfoDeleteLocked
  rw [hanldeInfoGet_any, h, locOr_some]

/-- A handle found in the table of a server is looked up in its status on its own. -/
theorem tcpDelete_server {s : ServerId} {i j : Slot} (h : db.find handle = some (.server s i))
    (hj : firstWith (db.statusHandles s) handle = some j) :
    tcpHandleInfoDeleteLocked db handle = (.serverDeleted, dropped db s i j) := by
  have hpos := (find_server h).1
  -- the decrement of the counter does not change the column
  have hidx : ∀ (db' : Db) (n : UInt32),
      findHandleIdx (db'.setStatus s { db.serverStatusSt s with clientsNum := n })
        .tcpServerStatusHandle s handle = (0, some j) := by
    intro db' n
    rw [findHandleIdx_status, statusHandles_setStatus, if_pos rfl]
    exact congrArg (slotOr ENOKEY) hj
  unfold tcpHandleInfoDeleteLocked
  rw [hanldeInfoGet_any, h, locOr_some]
  dsimp only
  unfold deleteClientStatus
  rw [status_setInfo, if_pos hpos]
  dsimp only
  rw [hidx, dropped]
  dsimp only
  rw [setStatus_setStatus]

end Delete

theorem DbInv.dropped {db : Db} (h : DbInv db) {s : ServerId} {i : Slot}
    (hi : db.serverHandles s i ≠ INVALID_HANDLE_ID) : DbInv (dropped db s i i) := by
  have hcount := h.counted s
  refine ⟨h.aligned.setBoth rfl _, fun s' => ?_, fun hl hll => ?_⟩
  · rw [Commu.dropped, status_setStatus, serverHandles_setStatus, serverHandles_setInfo]
    split
    · dsimp only
      rw [← toNat_sub_one (hcount.num_pos hi)] at hcount
      exact hcount.clear hi
    · rw [status_setInfo]
      exact h.counted s'
  · simp only [Commu.dropped, info_setStatus] at hl hll
    exact unique_clear h hl hll

/-- **A delete** in a state of the invariant: the handle is not found, or it is found in one of the
three kinds of tables; of a server, the same slot of both tables is cleared. -/
theorem delete_spec {db : Db} (h : DbInv db) (handle : Handle) :
    (db.find handle = none ∧ tcpHandleInfoDeleteLocked db handle = (.notFound EINVAL, db)) ∨
    (∃ i, db.find handle = some (.client i) ∧
      tcpHandleInfoDeleteLocked db handle = (.clientDeleted, db.setInfo (.client i) .empty)) ∨
    (∃ s i, db.find handle = some (.server s i) ∧
      tcpHandleInfoDeleteLocked db handle = (.serverDeleted, Commu.dropped db s i i)) ∨
    (∃ i, db.find handle = some (.udp i) ∧ tcpHandleInfoDeleteLocked db handle = (.wrongType, db)) := by
  cases hf : db.find handle with
  | none => exact Or.inl ⟨rfl, tcpDelete_none hf⟩
  | some loc =>
    cases loc with
    | client i => exact Or.inr (Or.inl ⟨i, rfl, tcpDelete_client hf⟩)
    | server s i =>
      have hj : firstWith (db.statusHandles s) handle = some i := by
        rw [h.aligned s]
        exact (find_server hf).2
      exact Or.inr (Or.inr (Or.inl ⟨s, i, rfl, tcpDelete_server hf hj⟩))
    | udp i => exact Or.inr (Or.inr (Or.inr ⟨i, rfl, tcpDelete_udp hf⟩))

theorem DbInv.clear {db : Db} (h : DbInv db) (loc : InfoLoc) (hloc : ∀ s i, loc ≠ .server s i) :
    DbInv (db.setInfo loc .empty) := by
  refine h.of_servers ?_ (status_setInfo ..) (unique_clear h)
  cases loc with
  | server s i => exact absurd rfl (hloc s i)
  | _ => rfl

/-- **A delete keeps the invariant.** -/
theorem DbInv.tcpDelete {db : Db} (h : DbInv db) {handle : Handle} (hh : handle ≠ INVALID_HANDLE_ID) :
    DbInv (libCommuDbTcpHandleInfoDelete db handle).2 := by
  show DbInv (tcpHandleInfoDeleteLocked db handle).2
  obtain ⟨-, hd⟩ | ⟨i, -, hd⟩ | ⟨s, i, hf, hd⟩ | ⟨i, -, hd⟩ := delete_spec h handle
  · rw [hd]
    exact h
  · rw [hd]
    exact h.clear (.client i) (by simp)
  · rw [hd]
    refine h.dropped ?_
    rw [apply_of_firstWith (find_server hf).2]
    exact hh
  · rw [hd]
    exact h

theorem DbInv.udpDelete {db : Db} (h : DbInv db) (handle : Handle) :
    DbInv (libCommuDbUdpHandleInfoDelete db handle).2 := by
  unfold libCommuDbUdpHandleInfoDelete
  rw [findHandleIdx_udp]
  cases firstWith db.udpHandles handle with
  | none => exact h
  | some i => exact h.clear (.udp i) (by simp)

/-! ## Resetting -/

/-- The status of a server after a reset. -/
def ServerStatus.reset : ServerStatus := ⟨0, fun _ => .empty, INVALID_HANDLE_ID, .down⟩

section Reset

variable (db : Db) (s s' : ServerId)

/-- The table and the status of every server after the reset of one. -/
theorem deinit_table : (libCommuDbTcpSessionDbDeinit db s).2.serverTcpHandleInfo s' =
    if s' = s then fun _ => .empty else db.serverTcpHandleInfo s' := by
  show Function.update db.serverTcpHandleInfo s (fun _ => .empty) s' = _
  rw [Function.update_apply]

theorem deinit_status : (libCommuDbTcpSessionDbDeinit db s).2.serverStatusSt s' =
    if s' = s then .reset else db.serverStatusSt s' := by
  show Function.update db.serverStatusSt s .reset s' = _
  rw [Function.update_apply]

/-- The loop over the servers resets each of them. -/
theorem resetAll_spec : (resetAllTcpServersStatusDb db).serverTcpHandleInfo s = (fun _ => .empty) ∧
    (resetAllTcpServersStatusDb db).serverStatusSt s = .reset := by
  have hloop : ∀ (l : List ServerId) (db : Db),
      ((l.foldl (fun db i => (libCommuDbTcpSessionDbDeinit db i).2) db).serverTcpHandleInfo s =
        if s ∈ l then fun _ => .empty else db.serverTcpHandleInfo s) ∧
      (l.foldl (fun db i => (libCommuDbTcpSessionDbDeinit db i).2) db).serverStatusSt s =
        if s ∈ l then .reset else db.serverStatusSt s := by
    intro l
    induction l with
    | nil => intro db; simp
    | cons i l ih =>
      intro db
      rw [List.foldl_cons, (ih _).1, (ih _).2, deinit_table, deinit_status]
      by_cases hl : s ∈ l <;> by_cases hi : s = i <;> simp [hl, hi]
  have hall := hloop (List.finRange SERVER_STATUS_ARR_LENGTH) db
  rw [if_pos (List.mem_finRange s), if_pos (List.mem_finRange s)] at hall
  exact hall

theorem resetAll_udp : (resetAllTcpServersStatusDb db).udpHandleInfo = db.udpHandleInfo := by
  unfold resetAllTcpServersStatusDb
  induction List.finRange SERVER_STATUS_ARR_LENGTH generalizing db with
  | nil => rfl
  | cons i l ih =>
    rw [List.foldl_cons, ih]
    rfl

end Reset

/-- A server that was reset. -/
theorem handles_empty {db : Db} {s : ServerId} (ht : db.serverTcpHandleInfo s = fun _ => .empty)
    (hst : db.serverStatusSt s = .reset) :
    db.statusHandles s = db.serverHandles s ∧
    Counted INVALID_HANDLE_ID (db.serverStatusSt s).clientsNum.toNat (db.serverHandles s) := by
  have hcol : db.serverHandles s = fun _ => INVALID_HANDLE_ID := by
    unfold Db.serverHandles
    rw [ht]
    rfl
  have hstat : db.statusHandles s = fun _ => INVALID_HANDLE_ID := by
    unfold Db.statusHandles
    rw [hst]
    rfl
  rw [hcol, hstat, hst]
  exact ⟨rfl, Counted.empty⟩

/-- **The reset of a server.** -/
theorem DbInv.deinit {db : Db} (h : DbInv db) (s : ServerId) :
    DbInv (libCommuDbTcpSessionDbDeinit db s).2 := by
  have hcase : ∀ s', (libCommuDbTcpSessionDbDeinit db s).2.statusHandles s' =
        (libCommuDbTcpSessionDbDeinit db s).2.serverHandles s' ∧
      Counted INVALID_HANDLE_ID ((libCommuDbTcpSessionDbDeinit db s).2.serverStatusSt s').clientsNum.toNat
        ((libCommuDbTcpSessionDbDeinit db s).2.serverHandles s') := by
    intro s'
    by_cases hs : s' = s
    · subst hs
      exact handles_empty (by rw [deinit_table, if_pos rfl]) (by rw [deinit_status, if_pos rfl])
    · unfold Db.statusHandles Db.serverHandles
      rw [deinit_table, deinit_status, if_neg hs, if_neg hs]
      exact ⟨h.aligned s', h.counted s'⟩
  -- a record is reset or as it was
  have hinfo : ∀ loc, (libCommuDbTcpSessionDbDeinit db s).2.info loc = .empty ∨
      (libCommuDbTcpSessionDbDeinit db s).2.info loc = db.info loc := by
    intro loc
    cases loc with
    | server s' i =>
      simp only [Db.info, deinit_table]
      split
      · exact Or.inl rfl
      · exact Or.inr rfl
    | _ => exact Or.inr rfl
  refine ⟨fun s' => (hcase s').1, fun s' => (hcase s').2, fun {l l'} hl hll => ?_⟩
  obtain he | he := hinfo l
  · rw [he] at hl
    exact absurd rfl hl
  · obtain he' | he' := hinfo l'
    · rw [hll, he'] at hl
      exact absurd rfl hl
    · rw [he, he'] at hll
      rw [he] at hl
      exact h.unique hl hll

/-- **`lib_commu_db_init`** empties the tables, whatever they held. -/
theorem dbInv_init (db : Db) : DbInv (libCommuDbInit db) := by
  have hserver := resetAll_spec (resetHandleDb db .udpHandle noServer).2
  refine ⟨fun s => ?_, fun s => ?_, fun {l l'} hl hll => ?_⟩
  · exact (handles_empty (hserver s).1 (hserver s).2).1
  · exact (handles_empty (hserver s).1 (hserver s).2).2
  · have hempty : (libCommuDbInit db).info l = .empty := by
      cases l with
      | client i => rfl
      | server s i => exact congrFun (hserver s).1 i
      | udp i => exact congrFun (resetAll_udp (resetHandleDb db .udpHandle noServer).2) i
    rw [hempty] at hl
    exact absurd rfl hl

/-! ## Runs -/

/-- The operations on the database. -/
inductive DbOp where
  | accept (handle : Handle) (a : Accepted)
  | connect (handle : Handle) (msgType : UInt8) (localInfo peerInfo : AddrInfo) (localMagic : UInt32)
  | udpStart (handle : Handle) (port msgType : UInt16) (isSinglePeer : UInt8) (localMagic : UInt32)
  | delete (handle : Handle)
  | udpDelete (handle : Handle)
  | sessionDeinit (serverId : ServerId)
  deriving DecidableEq, Repr

def DbOp.step (db : Db) : DbOp → Db
  | .accept handle a => (acceptConnection db handle a).2
  | .connect handle msgType localInfo peerInfo localMagic =>
    (libCommuDbTcpClientHandleInfoSet db handle msgType localInfo peerInfo localMagic).2
  | .udpStart handle port msgType isSinglePeer localMagic =>
    (libCommuDbUdpHandleInfoSet db handle port msgType isSinglePeer localMagic).2
  | .delete handle => (libCommuDbTcpHandleInfoDelete db handle).2
  | .udpDelete handle => (libCommuDbUdpHandleInfoDelete db handle).2
  | .sessionDeinit serverId => (libCommuDbTcpSessionDbDeinit db serverId).2

/-- A handle that is inserted is in no table; the marker of free slots is not deleted. -/
def DbOp.Allowed (db : Db) : DbOp → Prop
  | .accept handle _ => db.Absent handle
  | .connect handle _ _ _ _ => db.Absent handle
  | .udpStart handle _ _ _ _ => db.Absent handle
  | .delete handle => handle ≠ INVALID_HANDLE_ID
  | .udpDelete _ => True
  | .sessionDeinit _ => True

instance (db : Db) (handle : Handle) : Decidable (db.Absent handle) :=
  decidable_of_iff ((∀ i, db.clientHandles i ≠ handle) ∧ (∀ s i, db.serverHandles s i ≠ handle) ∧
    (∀ i, db.udpHandles i ≠ handle) ∧ ∀ s i, db.statusHandles s i ≠ handle)
    ⟨fun ⟨hc, hs, hu, hst⟩ => ⟨fun | .client i => hc i | .server s i => hs s i | .udp i => hu i, hst⟩,
      fun h => ⟨fun i => h.info (.client i), fun s i => h.info (.server s i), fun i => h.info (.udp i),
        h.status⟩⟩

instance (db : Db) : ∀ op : DbOp, Decidable (op.Allowed db)
  | .accept handle _ => inferInstanceAs (Decidable (db.Absent handle))
  | .connect handle _ _ _ _ => inferInstanceAs (Decidable (db.Absent handle))
  | .udpStart handle _ _ _ _ => inferInstanceAs (Decidable (db.Absent handle))
  | .delete handle => inferInstanceAs (Decidable (handle ≠ INVALID_HANDLE_ID))
  | .udpDelete _ => inferInstanceAs (Decidable True)
  | .sessionDeinit _ => inferInstanceAs (Decidable True)

def runDb (db : Db) (ops : List DbOp) : Db := ops.foldl DbOp.step db

def AllowedRun : Db → List DbOp → Prop
  | _, [] => True
  | db, op :: ops => op.Allowed db ∧ AllowedRun (op.step db) ops

instance decidableAllowedRun : ∀ (db : Db) (ops : List DbOp), Decidable (AllowedRun db ops)
  | _, [] => isTrue trivial
  | db, op :: ops =>
    haveI := decidableAllowedRun (op.step db) ops
    inferInstanceAs (Decidable (op.Allowed db ∧ AllowedRun (op.step db) ops))

/-- **Every operation keeps the invariant.** -/
theorem DbInv.step {db : Db} (h : DbInv db) {op : DbOp} (hop : op.Allowed db) : DbInv (op.step db) := by
  cases op with
  | accept handle a => exact h.accept hop a
  | connect handle msgType localInfo peerInfo localMagic =>
    exact h.handleInfoSet (by simp) noServer hop _
  | udpStart handle port msgType isSinglePeer localMagic =>
    exact h.handleInfoSet (by simp) noServer hop _
  | delete handle => exact h.tcpDelete hop
  | udpDelete handle => exact h.udpDelete handle
  | sessionDeinit serverId => exact h.deinit serverId

theorem DbInv.run : ∀ (ops : List DbOp) {db : Db}, DbInv db → AllowedRun db ops → DbInv (runDb db ops)
  | [], _, h, _ => h
  | _ :: ops, _, h, ⟨hop, hops⟩ => run ops (h.step hop) hops

/-- What the tables of a server say: the counter is the number of slots in use in either table,
and the tables hold the same handles, each once. -/
structure ServerInStep (db : Db) (s : ServerId) : Prop where
  status : (db.serverStatusSt s).clientsNum.toNat =
    (occupied INVALID_HANDLE_ID (db.statusHandles s)).card
  table : (db.serverStatusSt s).clientsNum.toNat =
    (occupied INVALID_HANDLE_ID (db.serverHandles s)).card
  same : used INVALID_HANDLE_ID (db.statusHandles s) = used INVALID_HANDLE_ID (db.serverHandles s)
  statusDistinct : Distinct INVALID_HANDLE_ID (db.statusHandles s)
  tableDistinct : Distinct INVALID_HANDLE_ID (db.serverHandles s)

theorem DbInv.inStep {db : Db} (h : DbInv db) (s : ServerId) : ServerInStep db s := by
  have hcount := h.counted s
  have halign := h.aligned s
  constructor
  · rw [halign, hcount.card]
  · rw [hcount.card]
  · rw [halign]
  · rw [halign]
    exact hcount.distinct
  · exact hcount.distinct

/-- **The tables of the servers stay in step.**  After every run from `lib_commu_db_init`, with full
tables or not, the counter and the two tables of every server agree, and a delete of any handle
takes neither the branch without clients, where the counter would underflow, nor that of a handle
missing from the status. -/
theorem server_tables_in_step (db₀ : Db) (ops : List DbOp)
    (hops : AllowedRun (libCommuDbInit db₀) ops) :
    (∀ s, ServerInStep (runDb (libCommuDbInit db₀) ops) s) ∧
    ∀ handle, handle ≠ INVALID_HANDLE_ID →
      (tcpHandleInfoDeleteLocked (runDb (libCommuDbInit db₀) ops) handle).1 ≠ .noClients ∧
      ∀ err, (tcpHandleInfoDeleteLocked (runDb (libCommuDbInit db₀) ops) handle).1 ≠
        .statusLookup err := by
  have h := DbInv.run ops (dbInv_init db₀) hops
  refine ⟨h.inStep, fun handle _ => ?_⟩
  obtain ⟨-, hd⟩ | ⟨i, -, hd⟩ | ⟨s, i, -, hd⟩ | ⟨i, -, hd⟩ := delete_spec h handle <;>
    rw [hd] <;> simp

/-- Two connections of server 3 and one of a client, of which the first is deleted. -/
theorem server_tables_in_step_delete :
    (∀ s, ServerInStep (runDb (libCommuDbInit Db.zero)
      [.accept 5 ⟨3, 1, ⟨0, 0⟩, ⟨80, 7⟩, 9, 0, 0⟩, .accept 6 ⟨3, 1, ⟨0, 0⟩, ⟨81, 7⟩, 10, 0, 0⟩,
        .connect 7 1 ⟨0, 0⟩ ⟨90, 8⟩ 11, .delete 5]) s) ∧
    ∀ handle, handle ≠ INVALID_HANDLE_ID →
      (tcpHandleInfoDeleteLocked (runDb (libCommuDbInit Db.zero)
        [.accept 5 ⟨3, 1, ⟨0, 0⟩, ⟨80, 7⟩, 9, 0, 0⟩, .accept 6 ⟨3, 1, ⟨0, 0⟩, ⟨81, 7⟩, 10, 0, 0⟩,
          .connect 7 1 ⟨0, 0⟩ ⟨90, 8⟩ 11, .delete 5]) handle).1 ≠ .noClients ∧
      ∀ err, (tcpHandleInfoDeleteLocked (runDb (libCommuDbInit Db.zero)
        [.accept 5 ⟨3, 1, ⟨0, 0⟩, ⟨80, 7⟩, 9, 0, 0⟩, .accept 6 ⟨3, 1, ⟨0, 0⟩, ⟨81, 7⟩, 10, 0, 0⟩,
          .connect 7 1 ⟨0, 0⟩ ⟨90, 8⟩ 11, .delete 5]) handle).1 ≠ .statusLookup err :=
  server_tables_in_step _ _ (by decide +kernel)

end MlnxLib.Commu
