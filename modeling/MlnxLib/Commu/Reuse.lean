import MlnxLib.Commu.Servers

/-!
# A descriptor number used again

`comm_lib_tcp_peer_stop` and `comm_lib_udp_session_stop` close the descriptor before they remove it
from the database, and the number of a closed descriptor may be given to a new connection at once.
The two steps of a stop and the two steps of a new connection with the same number are interleaved
here; the handle is the only key of the database.

* `Replaced` — the database holds the new connection, once, and nothing of the old one.
* `InfoLoc.rank` — the order in which the search of a delete passes over the slots.

Principal results: `find_min` — the search finds the entry of least rank; `reuse_iff` — for every
interleaving, the new connection replaces the old one exactly when it finds a free slot and the
delete comes first or meets the old entry first.
-/

set_option autoImplicit false

namespace MlnxLib.Commu

open SlotTable

/-! ## Steps -/

/-- The two functions that stop a connection. -/
inductive StopCall where
  | tcpPeerStop
  | udpSessionStop
  deriving DecidableEq, Repr

/-- The functions that start one: the accept path of a listener, a connect of a client, and a UDP
session. -/
inductive OpenCall where
  | accept (a : Accepted)
  | connect (msgType : UInt8) (localInfo peerInfo : AddrInfo) (localMagic : UInt32)
  | udpStart (port msgType : UInt16) (isSinglePeer : UInt8) (localMagic : UInt32)
  deriving DecidableEq, Repr

/-- The removal of the handle from the database. -/
def StopCall.remove (db : Db) (handle : Handle) : StopCall → Db
  | .tcpPeerStop => (libCommuDbTcpHandleInfoDelete db handle).2
  | .udpSessionStop => (libCommuDbUdpHandleInfoDelete db handle).2

/-- The insertion of the handle into the database. -/
def OpenCall.insert (db : Db) (handle : Handle) : OpenCall → Db
  | .accept a => (acceptConnection db handle a).2
  | .connect msgType localInfo peerInfo localMagic =>
    (libCommuDbTcpClientHandleInfoSet db handle msgType localInfo peerInfo localMagic).2
  | .udpStart port msgType isSinglePeer localMagic =>
    (libCommuDbUdpHandleInfoSet db handle port msgType isSinglePeer localMagic).2

/-- The steps of the two operations: `close` and `remove` of the stop, `create` and `insert` of the
new connection. -/
inductive ReuseStep where
  | close
  | remove
  | create
  | insert
  deriving DecidableEq, Repr

/-- The database and whether the descriptor is open. -/
structure Shared where
  db : Db
  isOpen : Bool

/-- One step.  The kernel does not give out the number of an open descriptor. -/
def ReuseStep.run (handle : Handle) (stop : StopCall) (call : OpenCall) (x : Shared) :
    ReuseStep → Option Shared
  | .close => if x.isOpen then some { x with isOpen := false } else none
  | .create => if x.isOpen then none else some { x with isOpen := true }
  | .remove => some { x with db := stop.remove x.db handle }
  | .insert => some { x with db := call.insert x.db handle }

def runSteps (handle : Handle) (stop : StopCall) (call : OpenCall) : Shared → List ReuseStep → Option Shared
  | x, [] => some x
  | x, step :: steps => (step.run handle stop call x).bind fun x => runSteps handle stop call x steps

/-- `zs` is an interleaving of `xs` and `ys`. -/
inductive Interleaving {α : Type} : List α → List α → List α → Prop where
  | nil : Interleaving [] [] []
  | left {x : α} {xs ys zs : List α} : Interleaving xs ys zs → Interleaving (x :: xs) ys (x :: zs)
  | right {y : α} {xs ys zs : List α} : Interleaving xs ys zs → Interleaving xs (y :: ys) (y :: zs)

/-! ## Properties -/

/-- The table a new connection goes to. -/
def OpenCall.inTable : OpenCall → InfoLoc → Prop
  | .accept a, .server s _ => s = a.serverId
  | .connect .., .client _ => True
  | .udpStart .., .udp _ => True
  | _, _ => False

def OpenCall.newInfo : OpenCall → NewInfo
  | .accept a => a.newInfo
  | .connect msgType localInfo peerInfo localMagic => ⟨msgType, localInfo, peerInfo, 1, localMagic⟩
  | .udpStart port msgType isSinglePeer localMagic =>
    ⟨msgType.toUInt8, ⟨port, port.toUInt32⟩, ⟨0, 0⟩, isSinglePeer, localMagic⟩

/-- The free slot a new connection takes. -/
def OpenCall.free (db : Db) : OpenCall → Option InfoLoc
  | .accept a => freeLoc db .tcpServerHandle a.serverId
  | .connect .. => freeLoc db .tcpClientHandle noServer
  | .udpStart .. => freeLoc db .udpHandle noServer

/-- The status of an accepted connection. -/
def OpenCall.statusAt (db : Db) (handle : Handle) : OpenCall → InfoLoc → Prop
  | .accept a, .server s i => (db.serverStatusSt s).clientStatus i = a.status handle
  | _, _ => True

/-- The new connection, in the slot it took: its table, message type, addresses and magic. -/
structure OpenCall.Stored (call : OpenCall) (db : Db) (handle : Handle) (loc : InfoLoc) : Prop where
  table : call.inTable loc
  conn : (db.info loc).connInfo = (call.newInfo.fill handle .empty).connInfo
  magic : (db.info loc).socektInfo.localMagic = call.newInfo.localMagic
  status : call.statusAt db handle loc

/-- The slot of the new connection is the only one with the handle, in the tables of connections
and in the status of the servers. -/
structure Replaced (db : Db) (handle : Handle) (call : OpenCall) (loc : InfoLoc) : Prop where
  only : ∀ l, (db.info l).handle = handle ↔ l = loc
  status : ∀ s i, db.statusHandles s i = handle ↔ loc = .server s i
  stored : call.Stored db handle loc

/-- The order of the search: clients, the servers one after the other, UDP. -/
def InfoLoc.rank : InfoLoc → Nat
  | .client i => i
  | .server s i => 16 + 16 * s + i
  | .udp i => 16 + 16 * 16 + i

/-- The tables a stop deletes from. -/
def StopCall.reaches : StopCall → InfoLoc → Prop
  | .tcpPeerStop, l => l.isTcp = true
  | .udpSessionStop, l => l.isTcp = false

/-- The stop meets the old entry, and it meets it before the new one. -/
def StopCall.MeetsFirst (stop : StopCall) (old new : InfoLoc) : Prop :=
  stop.reaches old ∧ (stop.reaches new → old.rank < new.rank)

/-- The removal precedes the insertion. -/
def removesFirst (steps : List ReuseStep) : Bool := steps.idxOf .remove < steps.idxOf .insert

/-- The slot the insertion takes, at the time of the insertion. -/
def slotTaken (db : Db) (handle : Handle) (stop : StopCall) (call : OpenCall)
    (steps : List ReuseStep) : Option InfoLoc :=
  if removesFirst steps then call.free (stop.remove db handle) else call.free db

/-- The condition, on the state before: there is a free slot when the new connection is inserted,
and the stop removes the old entry. -/
def Safe (db : Db) (old : InfoLoc) (stop : StopCall) (call : OpenCall) (steps : List ReuseStep) : Prop :=
  if removesFirst steps then stop.reaches old ∧ (call.inTable old ∨ ∃ loc, call.free db = some loc)
  else ∃ loc, call.free db = some loc ∧ stop.MeetsFirst old loc

/-! ## The search -/

/-- The search passes over servers without clients. -/
def Db.visible (db : Db) : InfoLoc → Prop
  | .server s _ => 0 < (db.serverStatusSt s).clientsNum
  | _ => True

theorem slot_lt (i : Slot) : i.val < 16 := i.isLt

theorem server_lt (s : ServerId) : s.val < 16 := s.isLt

/-- Within a table the rank is the order of the slots. -/
theorem rank_client (i j : Slot) : (InfoLoc.client i).rank ≤ (InfoLoc.client j).rank ↔ i ≤ j := by
  rw [Fin.le_def]
  rfl

theorem rank_server (s : ServerId) (i j : Slot) :
    (InfoLoc.server s i).rank ≤ (InfoLoc.server s j).rank ↔ i ≤ j := by
  rw [Fin.le_def]
  simp only [InfoLoc.rank]
  omega

theorem rank_udp (i j : Slot) : (InfoLoc.udp i).rank ≤ (InfoLoc.udp j).rank ↔ i ≤ j := by
  rw [Fin.le_def]
  simp only [InfoLoc.rank]
  omega

/-- The tables come one after the other. -/
theorem rank_client_server (i j : Slot) (s : ServerId) :
    (InfoLoc.client i).rank < (InfoLoc.server s j).rank := by
  have := slot_lt i
  simp only [InfoLoc.rank]
  omega

theorem rank_server_server {s s' : ServerId} (h : s < s') (i j : Slot) :
    (InfoLoc.server s i).rank < (InfoLoc.server s' j).rank := by
  have := slot_lt i
  have := Fin.lt_def.mp h
  simp only [InfoLoc.rank]
  omega

theorem rank_server_udp (s : ServerId) (i j : Slot) :
    (InfoLoc.server s i).rank < (InfoLoc.udp j).rank := by
  have := slot_lt i
  have := server_lt s
  simp only [InfoLoc.rank]
  omega

theorem rank_client_udp (i j : Slot) : (InfoLoc.client i).rank < (InfoLoc.udp j).rank :=
  (rank_client_server i j 0).trans (rank_server_udp 0 j j)

theorem rank_injective : Function.Injective InfoLoc.rank := by
  intro l l' h
  cases l with
  | client i =>
    cases l' with
    | client j =>
      exact congrArg _ (le_antisymm ((rank_client i j).mp h.le) ((rank_client j i).mp h.ge))
    | server s j => exact absurd h (rank_client_server i j s).ne
    | udp j => exact absurd h (rank_client_udp i j).ne
  | server s i =>
    cases l' with
    | client j => exact absurd h (rank_client_server j i s).ne'
    | server s' j =>
      obtain hlt | rfl | hgt := lt_trichotomy s s'
      · exact absurd h (rank_server_server hlt i j).ne
      · exact congrArg _ (le_antisymm ((rank_server s i j).mp h.le) ((rank_server s j i).mp h.ge))
      · exact absurd h (rank_server_server hgt j i).ne'
    | udp j => exact absurd h (rank_server_udp s i j).ne
  | udp i =>
    cases l' with
    | client j => exact absurd h (rank_client_udp j i).ne'
    | server s j => exact absurd h (rank_server_udp s j i).ne'
    | udp j => exact congrArg _ (le_antisymm ((rank_udp i j).mp h.le) ((rank_udp j i).mp h.ge))

section Search

variable {db : Db} {handle : Handle}

theorem firstWith_le {n : Nat} {t : Fin n → Handle} {i j : Fin n} (hi : firstWith t handle = some i)
    (hj : t j = handle) : i ≤ j :=
  not_lt.mp fun hlt => (firstWith_eq_some_iff.mp hi).2 j hlt hj

theorem searchClient_none (h : searchClient db handle = none) (i : Slot) :
    (db.info (.client i)).handle ≠ handle :=
  firstWith_eq_none_iff.mp (Option.map_eq_none_iff.mp h) i

theorem searchServer_none {s : ServerId} (h : searchServer db handle s = none) (i : Slot)
    (hv : db.visible (.server s i)) : (db.info (.server s i)).handle ≠ handle := by
  have hpos : 0 < (db.serverStatusSt s).clientsNum := hv
  unfold searchServer at h
  rw [if_pos hpos, Option.map_eq_none_iff] at h
  exact firstWith_eq_none_iff.mp h i

theorem searchUdp_none (h : searchUdp db handle = none) (i : Slot) :
    (db.info (.udp i)).handle ≠ handle :=
  firstWith_eq_none_iff.mp (Option.map_eq_none_iff.mp h) i

theorem find_none (h : db.find handle = none) {l : InfoLoc} (hl : db.visible l) :
    (db.info l).handle ≠ handle := by
  unfold Db.find at h
  rw [Option.or_eq_none_iff, Option.or_eq_none_iff] at h
  obtain ⟨⟨hc, hs⟩, hu⟩ := h
  cases l with
  | client i => exact searchClient_none hc i
  | server s i => exact searchServer_none (Fin.findSome?_eq_none_iff.mp hs s) i hl
  | udp i => exact searchUdp_none hu i

/-- **The search over all tables** finds the visible entry of least rank. -/
theorem find_min {l : InfoLoc} (h : db.find handle = some l) :
    (db.info l).handle = handle ∧ db.visible l ∧
    ∀ l', db.visible l' → (db.info l').handle = handle → l.rank ≤ l'.rank := by
  unfold Db.find at h
  rw [Option.or_eq_some_iff, Option.or_eq_some_iff] at h
  obtain (hc | ⟨hc, hs⟩) | ⟨hcs, hu⟩ := h
  · obtain ⟨i, hi, rfl⟩ := Option.map_eq_some_iff.mp hc
    refine ⟨apply_of_firstWith hi, trivial, fun l' _ hl' => ?_⟩
    cases l' with
    | client j => exact (rank_client i j).mpr (firstWith_le hi hl')
    | server s j => exact (rank_client_server i j s).le
    | udp j => exact (rank_client_udp i j).le
  · obtain ⟨s, hs, hbefore⟩ := Fin.findSome?_eq_some_iff.mp hs
    unfold searchServer at hs
    split at hs
    · rename_i hpos
      obtain ⟨i, hi, rfl⟩ := Option.map_eq_some_iff.mp hs
      refine ⟨apply_of_firstWith hi, hpos, fun l' hv hl' => ?_⟩
      cases l' with
      | client j => exact absurd hl' (searchClient_none hc j)
      | server s' j =>
        obtain hlt | rfl | hgt := lt_trichotomy s s'
        · exact (rank_server_server hlt i j).le
        · exact (rank_server s i j).mpr (firstWith_le hi hl')
        · exact absurd hl' (searchServer_none (hbefore s' hgt) j hv)
      | udp j => exact (rank_server_udp s i j).le
    · cases hs
  · rw [Option.or_eq_none_iff] at hcs
    obtain ⟨i, hi, rfl⟩ := Option.map_eq_some_iff.mp hu
    refine ⟨apply_of_firstWith hi, trivial, fun l' hv hl' => ?_⟩
    cases l' with
    | client j => exact absurd hl' (searchClient_none hcs.1 j)
    | server s j => exact absurd hl' (searchServer_none (Fin.findSome?_eq_none_iff.mp hcs.2 s) j hv)
    | udp j => exact (rank_udp i j).mpr (firstWith_le hi hl')

end Search

/-! ## Removing -/

/-- The entry a stop deletes. -/
def StopCall.target (db : Db) (handle : Handle) : StopCall → Option InfoLoc
  | .tcpPeerStop => (db.find handle).filter InfoLoc.isTcp
  | .udpSessionStop => searchUdp db handle

section Remove

variable {db : Db} {handle : Handle}

/-- **A stop** empties the entry it deletes, and no other; the tables of the servers stay aligned,
and so does the status of the other clients. -/
theorem remove_spec (ha : Aligned db) (handle : Handle) (stop : StopCall) :
    (∀ l, (stop.remove db handle).info l =
      if stop.target db handle = some l then .empty else db.info l) ∧
    Aligned (stop.remove db handle) ∧
    ∀ s i, stop.target db handle ≠ some (.server s i) →
      ((stop.remove db handle).serverStatusSt s).clientStatus i = (db.serverStatusSt s).clientStatus i := by
  have hclear : ∀ loc, (∀ s i, loc ≠ .server s i) → (∀ l, (db.setInfo loc .empty).info l =
      if some loc = some l then .empty else db.info l) ∧ Aligned (db.setInfo loc .empty) ∧
      ∀ s i, some loc ≠ some (.server s i) → ((db.setInfo loc .empty).serverStatusSt s).clientStatus i =
        (db.serverStatusSt s).clientStatus i := by
    intro loc hloc
    refine ⟨fun l => ?_, ?_, fun s i _ => by rw [status_setInfo]⟩
    · rw [info_setInfo]
      simp only [Option.some.injEq, eq_comm]
    · cases loc with
      | server s i => exact absurd rfl (hloc s i)
      | _ => exact ha
  cases stop with
  | tcpPeerStop =>
    show (∀ l, (tcpHandleInfoDeleteLocked db handle).2.info l = _) ∧
      Aligned (tcpHandleInfoDeleteLocked db handle).2 ∧
      ∀ s i, _ → ((tcpHandleInfoDeleteLocked db handle).2.serverStatusSt s).clientStatus i = _
    unfold StopCall.target
    cases hf : db.find handle with
    | none =>
      rw [tcpDelete_none hf]
      exact ⟨fun l => by simp, ha, fun _ _ _ => rfl⟩
    | some loc =>
      cases loc with
      | client i =>
        rw [tcpDelete_client hf]
        exact hclear (.client i) (by simp)
      | udp i =>
        rw [tcpDelete_udp hf, Option.filter_some_neg (by simp [InfoLoc.isTcp])]
        exact ⟨fun l => by simp, ha, fun _ _ _ => rfl⟩
      | server s i =>
        have hj : firstWith (db.statusHandles s) handle = some i := by
          rw [ha s]
          exact (find_server hf).2
        rw [tcpDelete_server hf hj]
        refine ⟨fun l => ?_, ha.setBoth rfl _, fun s' j hne => ?_⟩
        · rw [dropped, info_setStatus, info_setInfo, Option.filter_some_pos rfl]
          simp only [Option.some.injEq, eq_comm]
        · rw [dropped, status_setStatus]
          split
          · rename_i hs
            subst hs
            have hj : j ≠ i := by
              rintro rfl
              exact hne rfl
            exact Function.update_of_ne hj ..
          · rw [status_setInfo]
  | udpSessionStop =>
    show (∀ l, (libCommuDbUdpHandleInfoDelete db handle).2.info l = _) ∧
      Aligned (libCommuDbUdpHandleInfoDelete db handle).2 ∧
      ∀ s i, _ → ((libCommuDbUdpHandleInfoDelete db handle).2.serverStatusSt s).clientStatus i = _
    unfold StopCall.target searchUdp libCommuDbUdpHandleInfoDelete
    rw [findHandleIdx_udp]
    cases firstWith db.udpHandles handle with
    | none => exact ⟨fun l => by simp, ha, fun _ _ _ => rfl⟩
    | some i => exact hclear (.udp i) (by simp)

/-- A stop deletes the entry of least rank among those it reaches. -/
theorem target_eq_iff {stop : StopCall} (hvis : ∀ l, (db.info l).handle = handle → db.visible l)
    {l : InfoLoc} (hl : (db.info l).handle = handle) :
    stop.target db handle = some l ↔
      stop.reaches l ∧ ∀ l', (db.info l').handle = handle → stop.reaches l' → l.rank ≤ l'.rank := by
  cases stop with
  | tcpPeerStop =>
    unfold StopCall.target
    rw [Option.filter_eq_some_iff]
    cases hf : db.find handle with
    | none => exact absurd hl (find_none hf (hvis l hl))
    | some l₀ =>
      obtain ⟨h₀, -, hmin⟩ := find_min hf
      constructor
      · rintro ⟨he, htcp⟩
        cases he
        exact ⟨htcp, fun l' hl' _ => hmin l' (hvis l' hl') hl'⟩
      · rintro ⟨htcp, hleast⟩
        refine ⟨?_, htcp⟩
        have hle := hmin l (hvis l hl) hl
        -- an entry of lower rank than one of TCP is one of TCP
        have htcp₀ : l₀.isTcp = true := by
          cases l₀ with
          | udp i =>
            cases l with
            | client j => exact absurd hle (not_le.mpr (rank_client_udp j i))
            | server s j => exact absurd hle (not_le.mpr (rank_server_udp s j i))
            | udp j => exact htcp
          | _ => rfl
        rw [rank_injective (le_antisymm hle (hleast l₀ h₀ htcp₀))]
  | udpSessionStop =>
    unfold StopCall.target searchUdp
    rw [Option.map_eq_some_iff]
    constructor
    · rintro ⟨i, hi, rfl⟩
      refine ⟨rfl, fun l' hl' hudp => ?_⟩
      cases l' with
      | udp j => exact (rank_udp i j).mpr (firstWith_le hi hl')
      | _ => cases hudp
    · rintro ⟨hudp, hleast⟩
      cases l with
      | udp i =>
        refine ⟨i, firstWith_eq_some_iff.mpr ⟨hl, fun j hj hjh => ?_⟩, rfl⟩
        exact absurd ((rank_udp i j).mp (hleast (.udp j) hjh rfl)) (not_le.mpr hj)
      | _ => cases hudp

end Remove

/-! ## Inserting -/

/-- What an insertion into a free slot leaves. -/
structure Inserted (db : Db) (handle : Handle) (call : OpenCall) (loc : InfoLoc) (db' : Db) : Prop where
  free : (db.info loc).handle = INVALID_HANDLE_ID
  info : ∀ l, db'.info l = if l = loc then call.newInfo.fill handle (db.info loc) else db.info l
  aligned : Aligned db'
  visible : ∀ l, (db'.info l).handle ≠ INVALID_HANDLE_ID → db'.visible l
  table : call.inTable loc
  status : call.statusAt db' handle loc

/-- Every handle of a table is visible: its server has a client. -/
theorem DbInv.visible {db : Db} (h : DbInv db) {l : InfoLoc}
    (hl : (db.info l).handle ≠ INVALID_HANDLE_ID) : db.visible l := by
  cases l with
  | server s i =>
    rw [Db.visible, UInt32.lt_iff_toNat_lt]
    exact (h.counted s).num_pos hl
  | _ => trivial

/-- An insertion into the client table or the UDP table. -/
theorem handleInfoSet_inserted {db : Db} (h : DbInv db) {handle : Handle} {call : OpenCall}
    {type : DbType} {loc : InfoLoc} (hfree : freeLoc db type noServer = some loc) (htable : call.inTable loc)
    (hloc : ∀ s i, loc ≠ .server s i) :
    Inserted db handle call loc (db.setInfo loc (call.newInfo.fill handle (db.info loc))) := by
  refine ⟨freeLoc_free hfree, fun l => info_setInfo .., ?_, fun l hl => ?_, htable, ?_⟩
  · cases loc with
    | server s i => exact absurd rfl (hloc s i)
    | _ => exact h.aligned
  · rw [info_setInfo] at hl
    cases l with
    | server s i =>
      rw [if_neg (Ne.symm (hloc s i))] at hl
      have hvis := h.visible hl
      rw [Db.visible] at hvis ⊢
      rw [status_setInfo]
      exact hvis
    | _ => trivial
  · cases loc with
    | server s i => exact absurd rfl (hloc s i)
    | _ => cases call <;> trivial

/-- **An insertion** takes a free slot of its table, or changes nothing. -/
theorem insert_spec {db : Db} (h : DbInv db) (handle : Handle) (call : OpenCall) :
    (call.free db = none ∧ call.insert db handle = db) ∨
    ∃ loc, call.free db = some loc ∧ Inserted db handle call loc (call.insert db handle) := by
  cases call with
  | accept a =>
    obtain ⟨hfree, hacc⟩ | ⟨i, hfree, hacc⟩ := accept_spec h.aligned handle a
    · exact Or.inl ⟨hfree, by rw [OpenCall.insert, hacc]⟩
    refine Or.inr ⟨_, hfree, ?_⟩
    rw [OpenCall.insert, hacc]
    have hi : db.serverHandles a.serverId i = INVALID_HANDLE_ID := freeLoc_free hfree
    refine ⟨hi, fun l => ?_, h.aligned.setBoth rfl _, fun l hl => ?_, rfl, ?_⟩
    · rw [accepted, info_setStatus, info_setInfo]
      rfl
    · cases l with
      | server s j =>
        rw [Db.visible, UInt32.lt_iff_toNat_lt, accepted, status_setStatus]
        split
        · dsimp only
          rw [toNat_add_one ((h.counted a.serverId).num_lt hi)]
          exact Nat.succ_pos _
        · rename_i hs
          rw [accepted, info_setStatus, info_setInfo, if_neg (by simp [hs])] at hl
          rw [status_setInfo]
          exact (h.counted s).num_pos hl
      | _ => trivial
    · show ((accepted db handle a i).serverStatusSt a.serverId).clientStatus i = a.status handle
      rw [accepted, status_setStatus, if_pos rfl]
      exact Function.update_self ..
  | connect msgType localInfo peerInfo localMagic =>
    obtain ⟨hfree, hset⟩ | ⟨loc, hfree, hset⟩ := handleInfoSet_spec db .tcpClientHandle noServer handle
      ⟨msgType, localInfo, peerInfo, 1, localMagic⟩
    · exact Or.inl ⟨hfree, congrArg Prod.snd hset⟩
    · have hslot := hfree
      rw [freeLoc_client, Option.map_eq_some_iff] at hslot
      obtain ⟨i, -, rfl⟩ := hslot
      refine Or.inr ⟨_, hfree, ?_⟩
      rw [show OpenCall.insert db handle (.connect msgType localInfo peerInfo localMagic) = _ from
        congrArg Prod.snd hset]
      exact handleInfoSet_inserted h hfree trivial (by simp)
  | udpStart port msgType isSinglePeer localMagic =>
    obtain ⟨hfree, hset⟩ | ⟨loc, hfree, hset⟩ := handleInfoSet_spec db .udpHandle noServer handle
      ⟨msgType.toUInt8, ⟨port, port.toUInt32⟩, ⟨0, 0⟩, isSinglePeer, localMagic⟩
    · exact Or.inl ⟨hfree, congrArg Prod.snd hset⟩
    · have hslot := hfree
      rw [freeLoc_udp, Option.map_eq_some_iff] at hslot
      obtain ⟨i, -, rfl⟩ := hslot
      refine Or.inr ⟨_, hfree, ?_⟩
      rw [show OpenCall.insert db handle (.udpStart port msgType isSinglePeer localMagic) = _ from
        congrArg Prod.snd hset]
      exact handleInfoSet_inserted h hfree trivial (by simp)

/-- A table without a free slot. -/
theorem free_eq_none_iff {db : Db} {call : OpenCall} :
    call.free db = none ↔ ∀ l, call.inTable l → (db.info l).handle ≠ INVALID_HANDLE_ID := by
  cases call with
  | accept a =>
    rw [OpenCall.free, freeLoc_server, Option.map_eq_none_iff, firstWith_eq_none_iff]
    constructor
    · intro h l hl
      cases l with
      | server s i =>
        cases hl
        exact h i
      | _ => exact absurd hl id
    · exact fun h i => h (.server a.serverId i) rfl
  | connect msgType localInfo peerInfo localMagic =>
    rw [OpenCall.free, freeLoc_client, Option.map_eq_none_iff, firstWith_eq_none_iff]
    constructor
    · intro h l hl
      cases l with
      | client i => exact h i
      | _ => exact absurd hl id
    · exact fun h i => h (.client i) trivial
  | udpStart port msgType isSinglePeer localMagic =>
    rw [OpenCall.free, freeLoc_udp, Option.map_eq_none_iff, firstWith_eq_none_iff]
    constructor
    · intro h l hl
      cases l with
      | udp i => exact h i
      | _ => exact absurd hl id
    · exact fun h i => h (.udp i) trivial

/-! ## The two orders -/

section Orders

variable {db : Db} {handle : Handle} {stop : StopCall} {call : OpenCall} {old loc : InfoLoc}

/-- A handle that was in no table is there once, after its insertion. -/
theorem Inserted.replaced {db' : Db} (hi : Inserted db handle call loc db')
    (habs : ∀ l, (db.info l).handle ≠ handle) : Replaced db' handle call loc := by
  have honly : ∀ l, (db'.info l).handle = handle ↔ l = loc := by
    intro l
    rw [hi.info]
    split
    · rename_i hl
      exact iff_of_true rfl hl
    · rename_i hl
      exact iff_of_false (habs l) hl
  refine ⟨honly, fun s i => ?_, hi.table, ?_, ?_, hi.status⟩
  · rw [hi.aligned s, serverHandles_apply, honly, eq_comm]
  · rw [hi.info, if_pos rfl]
    rfl
  · rw [hi.info, if_pos rfl]
    rfl

theorem DbInv.remove (h : DbInv db) (hh : handle ≠ INVALID_HANDLE_ID) (stop : StopCall) :
    DbInv (stop.remove db handle) := by
  cases stop with
  | tcpPeerStop => exact h.tcpDelete hh
  | udpSessionStop => exact h.udpDelete handle

/-- **The removal first.** -/
theorem removed_then_inserted (h : DbInv db) (hh : handle ≠ INVALID_HANDLE_ID)
    (hold : (db.info old).handle = handle) :
    (∃ loc, call.free (stop.remove db handle) = some loc ∧
      Replaced (call.insert (stop.remove db handle) handle) handle call loc) ↔
    stop.reaches old ∧ (call.inTable old ∨ ∃ loc, call.free db = some loc) := by
  have hone : ∀ l, (db.info l).handle = handle → l = old := fun l hl =>
    h.unique (by rw [hl]; exact hh) (hl.trans hold.symm)
  have hvis : ∀ l, (db.info l).handle = handle → db.visible l := fun l hl =>
    h.visible (by rw [hl]; exact hh)
  have htarget : stop.target db handle = some old ↔ stop.reaches old := by
    rw [target_eq_iff hvis hold]
    exact ⟨And.left, fun hr => ⟨hr, fun l' hl' _ => by rw [hone l' hl']⟩⟩
  have hinfo := (remove_spec h.aligned handle stop).1
  have h' := h.remove hh stop
  by_cases hr : stop.reaches old
  · have ht := htarget.mpr hr
    have habs : ∀ l, ((stop.remove db handle).info l).handle ≠ handle := by
      intro l
      rw [hinfo, ht]
      split
      · exact Ne.symm hh
      · rename_i hl
        exact fun he => hl (by rw [hone l he])
    -- the slot of the old entry is free now
    have hfree : (∃ loc, call.free (stop.remove db handle) = some loc) ↔
        call.inTable old ∨ ∃ loc, call.free db = some loc := by
      rw [← Option.ne_none_iff_exists', ← Option.ne_none_iff_exists', ne_eq, ne_eq, free_eq_none_iff,
        free_eq_none_iff]
      push Not
      constructor
      · rintro ⟨l, hl, hempty⟩
        rw [hinfo, ht] at hempty
        split at hempty
        · rename_i he
          cases he
          exact Or.inl hl
        · exact Or.inr ⟨l, hl, hempty⟩
      · rintro (hin | ⟨l, hl, hempty⟩)
        · exact ⟨old, hin, by rw [hinfo, if_pos ht]; rfl⟩
        · refine ⟨l, hl, ?_⟩
          rw [hinfo]
          split
          · rfl
          · exact hempty
    rw [← hfree]
    constructor
    · rintro ⟨loc, hl, -⟩
      exact ⟨hr, loc, hl⟩
    · rintro ⟨-, loc, hl⟩
      obtain ⟨hnone, -⟩ | ⟨loc', hl', hi⟩ := insert_spec h' handle call
      · rw [hnone] at hl
        cases hl
      · exact ⟨loc', hl', hi.replaced habs⟩
  · -- the old entry stays
    refine iff_of_false ?_ (fun hc => hr hc.1)
    rintro ⟨loc, hl, hrep⟩
    obtain ⟨hnone, -⟩ | ⟨loc', hl', hi⟩ := insert_spec h' handle call
    · rw [hnone] at hl
      cases hl
    · rw [hl] at hl'
      cases hl'
      have hkept : (stop.remove db handle).info old = db.info old := by
        rw [hinfo, if_neg (fun ht => hr (htarget.mp ht))]
      have hne : old ≠ loc := by
        rintro rfl
        exact hh (hold.symm.trans (by rw [← hkept]; exact hi.free))
      refine hne ((hrep.only old).mp ?_)
      rw [hi.info, if_neg hne, hkept]
      exact hold

/-- **The insertion first.** -/
theorem inserted_then_removed (h : DbInv db) (hh : handle ≠ INVALID_HANDLE_ID)
    (hold : (db.info old).handle = handle) :
    (∃ loc, call.free db = some loc ∧
      Replaced (stop.remove (call.insert db handle) handle) handle call loc) ↔
    ∃ loc, call.free db = some loc ∧ stop.MeetsFirst old loc := by
  refine exists_congr (fun loc => and_congr_right (fun hfree => ?_))
  obtain ⟨hnone, -⟩ | ⟨loc', hl', hi⟩ := insert_spec h handle call
  · rw [hnone] at hfree
    cases hfree
  rw [hfree] at hl'
  cases hl'
  have hne : old ≠ loc := by
    rintro rfl
    exact hh (hold.symm.trans hi.free)
  -- the handle is in two places
  have htwo : ∀ l, ((call.insert db handle).info l).handle = handle ↔ l = old ∨ l = loc := by
    intro l
    rw [hi.info]
    split
    · rename_i hl
      exact iff_of_true rfl (Or.inr hl)
    · rename_i hl
      constructor
      · intro he
        exact Or.inl (h.unique (by rw [he]; exact hh) (he.trans hold.symm))
      · rintro (rfl | he)
        · exact hold
        · exact absurd he hl
  have hvis : ∀ l, ((call.insert db handle).info l).handle = handle →
      (call.insert db handle).visible l := fun l hl => hi.visible l (by rw [hl]; exact hh)
  have htarget : stop.target (call.insert db handle) handle = some old ↔ stop.MeetsFirst old loc := by
    rw [target_eq_iff hvis ((htwo old).mpr (Or.inl rfl))]
    refine and_congr_right (fun hr => ⟨fun hleast hrl => ?_, fun hlt l' hl' hrl' => ?_⟩)
    · exact lt_of_le_of_ne (hleast loc ((htwo loc).mpr (Or.inr rfl)) hrl)
        (fun he => hne (rank_injective he))
    · obtain rfl | rfl := (htwo l').mp hl'
      · exact le_refl _
      · exact (hlt hrl').le
  obtain ⟨hinfo, halign, hstatus⟩ := remove_spec hi.aligned handle stop
  rw [← htarget]
  constructor
  · intro hrep
    by_contra ht
    refine hne ((hrep.only old).mp ?_)
    rw [hinfo, if_neg ht]
    exact (htwo old).mpr (Or.inl rfl)
  · intro ht
    have hloc : (stop.remove (call.insert db handle) handle).info loc =
        call.newInfo.fill handle (db.info loc) := by
      rw [hinfo, ht, if_neg (by simpa using hne), hi.info, if_pos rfl]
    have honly : ∀ l, ((stop.remove (call.insert db handle) handle).info l).handle = handle ↔ l = loc := by
      intro l
      rw [hinfo, ht]
      split
      · rename_i he
        cases he
        exact iff_of_false (Ne.symm hh) hne
      · rename_i he
        rw [htwo]
        exact ⟨fun hor => hor.resolve_left (fun hl => he (by rw [hl])), Or.inr⟩
    refine ⟨honly, fun s i => ?_, hi.table, by rw [hloc]; rfl, by rw [hloc]; rfl, ?_⟩
    · rw [halign s, serverHandles_apply, honly, eq_comm]
    · have hstat := hi.status
      cases call with
      | accept a =>
        cases loc with
        | server s i =>
          show ((StopCall.remove _ handle stop).serverStatusSt s).clientStatus i = a.status handle
          rw [hstatus s i (by rw [ht]; simpa using hne)]
          exact hstat
        | _ => trivial
      | _ => trivial

end Orders

/-! ## Interleavings -/

/-- The descriptor is closed before the kernel gives its number out again, so the order of the
removal and the insertion is all that is left. -/
theorem interleaving_cases {handle : Handle} {stop : StopCall} {call : OpenCall} {db : Db}
    {steps : List ReuseStep} (hint : Interleaving [.close, .remove] [.create, .insert] steps)
    {final : Shared} (hrun : runSteps handle stop call ⟨db, true⟩ steps = some final) :
    (removesFirst steps = true ∧ final.db = call.insert (stop.remove db handle) handle) ∨
    (removesFirst steps = false ∧ final.db = stop.remove (call.insert db handle) handle) := by
  cases hint with
  | right _ => cases hrun
  | left h₁ =>
    cases h₁ with
    | left h₂ =>
      -- close, remove, create, insert
      cases h₂ with
      | right h₃ =>
        cases h₃ with
        | right h₄ =>
          cases h₄
          cases hrun
          exact Or.inl ⟨rfl, rfl⟩
    | right h₂ =>
      cases h₂ with
      | left h₃ =>
        -- close, create, remove, insert
        cases h₃ with
        | right h₄ =>
          cases h₄
          cases hrun
          exact Or.inl ⟨rfl, rfl⟩
      | right h₃ =>
        -- close, create, insert, remove
        cases h₃ with
        | left h₄ =>
          cases h₄
          cases hrun
          exact Or.inr ⟨rfl, rfl⟩

/-- **A descriptor number used again.**  In every reachable state and for every interleaving of the
stop of a connection with the start of one that gets its number, the database ends up with the new
connection alone exactly when the new one finds a free slot and the old entry is removed before it
comes, or is met first by the search that removes it. -/
theorem reuse_iff (db₀ : Db) (ops : List DbOp) (hops : AllowedRun (libCommuDbInit db₀) ops)
    (handle : Handle) (hh : handle ≠ INVALID_HANDLE_ID) (old : InfoLoc)
    (hold : ((runDb (libCommuDbInit db₀) ops).info old).handle = handle) (stop : StopCall)
    (call : OpenCall) (steps : List ReuseStep)
    (hint : Interleaving [.close, .remove] [.create, .insert] steps) (final : Shared)
    (hrun : runSteps handle stop call ⟨runDb (libCommuDbInit db₀) ops, true⟩ steps = some final) :
    (∃ loc, slotTaken (runDb (libCommuDbInit db₀) ops) handle stop call steps = some loc ∧
      Replaced final.db handle call loc) ↔
    Safe (runDb (libCommuDbInit db₀) ops) old stop call steps := by
  have h := DbInv.run ops (dbInv_init db₀) hops
  obtain ⟨hfirst, hdb⟩ | ⟨hfirst, hdb⟩ := interleaving_cases hint hrun
  · rw [hdb, slotTaken, Safe, if_pos hfirst, if_pos hfirst]
    exact removed_then_inserted h hh hold
  · rw [hdb, slotTaken, Safe, if_neg (by simp [hfirst]), if_neg (by simp [hfirst])]
    exact inserted_then_removed h hh hold

/-- A connection of server 0 is stopped and its number is used by the next accept of server 0,
after the removal. -/
theorem reuse_iff_accept : ∃ final,
    runSteps 5 .tcpPeerStop (.accept ⟨0, 1, ⟨0, 0⟩, ⟨81, 7⟩, 10, 0, 0⟩)
      ⟨runDb (libCommuDbInit Db.zero) [.accept 5 ⟨0, 1, ⟨0, 0⟩, ⟨80, 7⟩, 9, 0, 0⟩], true⟩
      [.close, .create, .remove, .insert] = some final ∧
    ∃ loc, slotTaken (runDb (libCommuDbInit Db.zero) [.accept 5 ⟨0, 1, ⟨0, 0⟩, ⟨80, 7⟩, 9, 0, 0⟩]) 5
        .tcpPeerStop (.accept ⟨0, 1, ⟨0, 0⟩, ⟨81, 7⟩, 10, 0, 0⟩) [.close, .create, .remove, .insert] =
        some loc ∧
      Replaced final.db 5 (.accept ⟨0, 1, ⟨0, 0⟩, ⟨81, 7⟩, 10, 0, 0⟩) loc := by
  refine ⟨_, rfl, (reuse_iff Db.zero [.accept 5 ⟨0, 1, ⟨0, 0⟩, ⟨80, 7⟩, 9, 0, 0⟩] (by decide +kernel) 5
    (by decide) (.server 0 0) (by decide +kernel) .tcpPeerStop _ _ ?_ _ rfl).mpr ⟨rfl, Or.inl rfl⟩⟩
  exact .left (.right (.left (.right .nil)))

/-- **A client connects with the number of an accepted connection that is being stopped**: the
delete finds the client table first and removes the new connection instead of the old one. -/
theorem reuse_deletes_new : ¬ ∀ (db₀ : Db) (ops : List DbOp), AllowedRun (libCommuDbInit db₀) ops →
    ∀ (handle : Handle), handle ≠ INVALID_HANDLE_ID → ∀ (old : InfoLoc),
    ((runDb (libCommuDbInit db₀) ops).info old).handle = handle → ∀ (stop : StopCall), stop.reaches old →
    ∀ (call : OpenCall) (steps : List ReuseStep),
    Interleaving [.close, .remove] [.create, .insert] steps → ∀ (final : Shared),
    runSteps handle stop call ⟨runDb (libCommuDbInit db₀) ops, true⟩ steps = some final →
    ∃ loc, slotTaken (runDb (libCommuDbInit db₀) ops) handle stop call steps = some loc ∧
      Replaced final.db handle call loc := by
  intro h
  obtain ⟨loc, -, hrep⟩ := h Db.zero [.accept 5 ⟨0, 1, ⟨0, 0⟩, ⟨80, 7⟩, 9, 0, 0⟩] (by decide +kernel) 5
    (by decide) (.server 0 0) (by decide +kernel) .tcpPeerStop rfl (.connect 1 ⟨0, 0⟩ ⟨90, 8⟩ 11)
    [.close, .create, .insert, .remove] (.left (.right (.right (.left .nil)))) _ rfl
  have hold : loc = .server 0 0 := ((hrep.only (.server 0 0)).mp (by decide +kernel)).symm
  have htable := hrep.stored.table
  rw [hold] at htable
  exact htable

end MlnxLib.Commu
