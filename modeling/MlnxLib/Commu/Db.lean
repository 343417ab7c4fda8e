import MlnxLib.Lib.SlotTable

/-!
# The handle database of the communication library

Model of `lib_commu_db.c`: three kinds of tables of connections, searched slot by slot for a
handle or for a free slot, and the status of each server with a second table of its clients.

* `findEmptySlot`, `findHandleIdx`, `libCommuDbHanldeInfoGet` — the searches.
* `handleInfoSet`, `libCummoDbServerStatusClientSet` — inserting into the two kinds of tables.
* `libCommuDbTcpHandleInfoDelete`, `libCommuDbUdpHandleInfoDelete` — removing a handle.

Locks and logging are left out; `pthread_mutex_lock` and `pthread_mutex_unlock` return 0.  Server
ids are below the length of their arrays.
-/

set_option autoImplicit false

namespace MlnxLib.Commu

open SlotTable

/-! ## Constants -/

def EPERM : Int := 1
def EINVAL : Int := 22
def ENOBUFS : Int := 105
def ENOKEY : Int := 126

/-- `handle_t`, an `int`. -/
abbrev Handle := Int

def INVALID_HANDLE_ID : Handle := -1
def INVALID_MAGIC : UInt32 := 0xFFFFFFFF

/-- The length of the handle tables and of the status table of a server; all four are 16. -/
abbrev TCP_HANDLE_ARR_LENGTH : Nat := 16
abbrev SERVER_STATUS_ARR_LENGTH : Nat := 16

abbrev Slot := Fin TCP_HANDLE_ARR_LENGTH
abbrev ServerId := Fin SERVER_STATUS_ARR_LENGTH

/-- The first server. -/
def ServerId.first : ServerId := ⟨0, by decide⟩

/-- In the place of `INVALID_SERVER_ID`, for the tables without servers, which do not use it. -/
def noServer : ServerId := 0

/-! ## Records -/

structure AddrInfo where
  port : UInt16
  ipv4Addr : UInt32
  deriving DecidableEq, Repr

structure ConnectionInfo where
  sIpv4Addr : UInt32
  sPort : UInt16
  dIpv4Addr : UInt32
  dPort : UInt16
  msgType : UInt16
  deriving DecidableEq, Repr

structure SocketConnectionInfo where
  socket : Handle
  state : UInt32
  isSinglePeer : UInt8
  localMagic : UInt32
  peerMagic : UInt32
  totalSumBytesRx : UInt64
  totalSumBytesTx : UInt64
  deriving DecidableEq, Repr

structure HandleInfo where
  handle : Handle
  connInfo : ConnectionInfo
  socektInfo : SocketConnectionInfo
  deriving DecidableEq, Repr

inductive HandleOpStatus where
  | down
  | up
  deriving DecidableEq, Repr

structure ConnectionStatus where
  handle : Handle
  handleStatus : HandleOpStatus
  localIpv4Addr : UInt32
  localPort : UInt16
  peerIpv4Addr : UInt32
  peerPort : UInt16
  deriving DecidableEq, Repr

structure ServerStatus where
  clientsNum : UInt32
  clientStatus : Slot → ConnectionStatus
  listenerHandle : Handle
  listenerStatus : HandleOpStatus

/-- The tables; `listenerThreads` holds 0 where there is no thread. -/
structure Db where
  udpHandleInfo : Slot → HandleInfo
  serverTcpHandleInfo : ServerId → Slot → HandleInfo
  clientTcpHandleInfo : Slot → HandleInfo
  serverStatusSt : ServerId → ServerStatus
  listenerThreads : ServerId → Nat

/-- A slot after `memset` and the reset of its handle and its peer magic. -/
def HandleInfo.empty : HandleInfo :=
  ⟨INVALID_HANDLE_ID, ⟨0, 0, 0, 0, 0⟩, ⟨0, 0, 0, 0, INVALID_MAGIC, 0, 0⟩⟩

def ConnectionStatus.empty : ConnectionStatus := ⟨INVALID_HANDLE_ID, .down, 0, 0, 0, 0⟩

/-- The tables in static memory, before `lib_commu_db_init`. -/
def Db.zero : Db :=
  let info : HandleInfo := ⟨0, ⟨0, 0, 0, 0, 0⟩, ⟨0, 0, 0, 0, 0, 0, 0⟩⟩
  ⟨fun _ => info, fun _ _ => info, fun _ => info, fun _ => ⟨0, fun _ => ⟨0, .down, 0, 0, 0, 0⟩, 0, .down⟩,
    fun _ => 0⟩

/-- `enum db_type`. -/
inductive DbType where
  | udpHandle
  | tcpClientHandle
  | tcpServerHandle
  | tcpServerStatusHandle
  | listenerThread
  | any
  deriving DecidableEq, Repr

/-! ## Columns -/

/-- The handles of the UDP table, slot by slot. -/
def Db.udpHandles (db : Db) : Slot → Handle := HandleInfo.handle ∘ db.udpHandleInfo

def Db.clientHandles (db : Db) : Slot → Handle := HandleInfo.handle ∘ db.clientTcpHandleInfo

def Db.serverHandles (db : Db) (s : ServerId) : Slot → Handle :=
  HandleInfo.handle ∘ db.serverTcpHandleInfo s

/-- The handles in the status of a server. -/
def Db.statusHandles (db : Db) (s : ServerId) : Slot → Handle :=
  ConnectionStatus.handle ∘ (db.serverStatusSt s).clientStatus

/-! ## Searching -/

/-- The result of a search: the error code and the slot. -/
def slotOr (err : Int) : Option Slot → Int × Option Slot
  | none => (err, none)
  | some i => (0, some i)

@[simp] theorem slotOr_none (err : Int) : slotOr err none = (err, none) := rfl

@[simp] theorem slotOr_some (err : Int) (i : Slot) : slotOr err (some i) = (0, some i) := rfl

/-- `find_empty_slot`. -/
def findEmptySlot (db : Db) (type : DbType) (serverIdx : ServerId) : Int × Option Slot :=
  match type with
  | .udpHandle => slotOr ENOBUFS (firstWith db.udpHandles INVALID_HANDLE_ID)
  | .tcpClientHandle => slotOr ENOBUFS (firstWith db.clientHandles INVALID_HANDLE_ID)
  | .tcpServerHandle => slotOr ENOBUFS (firstWith (db.serverHandles serverIdx) INVALID_HANDLE_ID)
  | .tcpServerStatusHandle => slotOr ENOBUFS (firstWith (db.statusHandles serverIdx) INVALID_HANDLE_ID)
  | .listenerThread => slotOr ENOBUFS (firstWith db.listenerThreads 0)
  | .any => (EINVAL, none)

/-- `find_handle_idx`; it knows two of the tables. -/
def findHandleIdx (db : Db) (handleType : DbType) (serverId : ServerId) (handle : Handle) :
    Int × Option Slot :=
  match handleType with
  | .udpHandle => slotOr ENOKEY (firstWith db.udpHandles handle)
  | .tcpServerStatusHandle => slotOr ENOKEY (firstWith (db.statusHandles serverId) handle)
  | _ => (EPERM, none)

section Searches

variable (db : Db) (s : ServerId)

theorem findEmptySlot_udp : findEmptySlot db .udpHandle s =
    slotOr ENOBUFS (firstWith db.udpHandles INVALID_HANDLE_ID) := rfl

theorem findEmptySlot_client : findEmptySlot db .tcpClientHandle s =
    slotOr ENOBUFS (firstWith db.clientHandles INVALID_HANDLE_ID) := rfl

theorem findEmptySlot_server : findEmptySlot db .tcpServerHandle s =
    slotOr ENOBUFS (firstWith (db.serverHandles s) INVALID_HANDLE_ID) := rfl

theorem findEmptySlot_status : findEmptySlot db .tcpServerStatusHandle s =
    slotOr ENOBUFS (firstWith (db.statusHandles s) INVALID_HANDLE_ID) := rfl

theorem findEmptySlot_thread : findEmptySlot db .listenerThread s =
    slotOr ENOBUFS (firstWith db.listenerThreads 0) := rfl

theorem findHandleIdx_udp (handle : Handle) : findHandleIdx db .udpHandle s handle =
    slotOr ENOKEY (firstWith db.udpHandles handle) := rfl

theorem findHandleIdx_status (handle : Handle) : findHandleIdx db .tcpServerStatusHandle s handle =
    slotOr ENOKEY (firstWith (db.statusHandles s) handle) := rfl

end Searches

/-- Where a `struct handle_info` is: what the pointer, the DB type and the server id say. -/
inductive InfoLoc where
  | client (i : Slot)
  | server (s : ServerId) (i : Slot)
  | udp (i : Slot)
  deriving DecidableEq, Repr

def InfoLoc.dbType : InfoLoc → DbType
  | .client _ => .tcpClientHandle
  | .server _ _ => .tcpServerHandle
  | .udp _ => .udpHandle

def InfoLoc.isTcp : InfoLoc → Bool
  | .udp _ => false
  | _ => true

/-- The record at a location. -/
def Db.info (db : Db) : InfoLoc → HandleInfo
  | .client i => db.clientTcpHandleInfo i
  | .server s i => db.serverTcpHandleInfo s i
  | .udp i => db.udpHandleInfo i

def Db.setServerTable (db : Db) (s : ServerId) (table : Slot → HandleInfo) : Db :=
  { db with serverTcpHandleInfo := Function.update db.serverTcpHandleInfo s table }

def Db.setStatus (db : Db) (s : ServerId) (st : ServerStatus) : Db :=
  { db with serverStatusSt := Function.update db.serverStatusSt s st }

def Db.setInfo (db : Db) (loc : InfoLoc) (info : HandleInfo) : Db :=
  match loc with
  | .client i => { db with clientTcpHandleInfo := Function.update db.clientTcpHandleInfo i info }
  | .server s i => db.setServerTable s (Function.update (db.serverTcpHandleInfo s) i info)
  | .udp i => { db with udpHandleInfo := Function.update db.udpHandleInfo i info }

/-- The loops of `lib_commu_db_hanlde_info_get`; a server without clients is skipped. -/
def searchClient (db : Db) (handle : Handle) : Option InfoLoc :=
  (firstWith db.clientHandles handle).map .client

def searchServer (db : Db) (handle : Handle) (s : ServerId) : Option InfoLoc :=
  if 0 < (db.serverStatusSt s).clientsNum then
    (firstWith (db.serverHandles s) handle).map (.server s)
  else none

def searchServers (db : Db) (handle : Handle) : Option InfoLoc := Fin.findSome? (searchServer db handle)

def searchUdp (db : Db) (handle : Handle) : Option InfoLoc := (firstWith db.udpHandles handle).map .udp

/-- The search through all tables. -/
def Db.find (db : Db) (handle : Handle) : Option InfoLoc :=
  ((searchClient db handle).or (searchServers db handle)).or (searchUdp db handle)

/-- The result of a search: the error code and the location. -/
def locOr (err : Int) : Option InfoLoc → Int × Option InfoLoc
  | none => (err, none)
  | some loc => (0, some loc)

@[simp] theorem locOr_none (err : Int) : locOr err none = (err, none) := rfl

@[simp] theorem locOr_some (err : Int) (loc : InfoLoc) : locOr err (some loc) = (0, some loc) := rfl

/-- `lib_commu_db_hanlde_info_get`.  With `ANY_HANLDE_DB` the cases fall through to the next table
and at last to the default. -/
def libCommuDbHanldeInfoGet (db : Db) (handle : Handle) (handleDbType : DbType) : Int × Option InfoLoc :=
  match handleDbType with
  | .any => locOr EINVAL (db.find handle)
  | .tcpClientHandle => locOr ENOKEY (searchClient db handle)
  | .tcpServerHandle => locOr ENOKEY (searchServers db handle)
  | .udpHandle => locOr ENOKEY (searchUdp db handle)
  | _ => (EINVAL, none)

theorem hanldeInfoGet_any (db : Db) (handle : Handle) :
    libCommuDbHanldeInfoGet db handle .any = locOr EINVAL (db.find handle) := rfl

/-! ## Resetting -/

/-- `reset_server_status`. -/
def resetServerStatus (db : Db) (idx : ServerId) : Db :=
  db.setStatus idx ⟨0, fun _ => .empty, INVALID_HANDLE_ID, .down⟩

/-- `reset_handle_db`. -/
def resetHandleDb (db : Db) (handleType : DbType) (serverId : ServerId) : Int × Db :=
  match handleType with
  | .udpHandle => (0, { db with udpHandleInfo := fun _ => .empty })
  | .tcpClientHandle => (0, { db with clientTcpHandleInfo := fun _ => .empty })
  | .tcpServerHandle => (0, db.setServerTable serverId fun _ => .empty)
  | _ => (EPERM, db)

/-- `reset_all_tcp_servers_status_db`: its loop resets every server. -/
def resetAllTcpServersStatusDb (db : Db) : Db :=
  (List.finRange SERVER_STATUS_ARR_LENGTH).foldl
    (fun db i => (resetHandleDb (resetServerStatus db i) .tcpServerHandle i).2) db

/-- `lib_commu_db_init` and `lib_commu_db_deinit`, which reset the same tables. -/
def libCommuDbInit (db : Db) : Db :=
  let db := (resetHandleDb db .udpHandle noServer).2
  let db := resetAllTcpServersStatusDb db
  (resetHandleDb db .tcpClientHandle noServer).2

/-- `lib_commu_db_tcp_session_db_deinit`. -/
def libCommuDbTcpSessionDbDeinit (db : Db) (serverId : ServerId) : Int × Db :=
  resetHandleDb (resetServerStatus db serverId) .tcpServerHandle serverId

/-! ## Inserting -/

/-- What is stored of a new connection. -/
structure NewInfo where
  msgType : UInt8
  localInfo : AddrInfo
  peerInfo : AddrInfo
  isSinglePeer : UInt8
  localMagic : UInt32
  deriving DecidableEq, Repr

/-- The assignments of `handle_info_set`; `state` is not among them. -/
def NewInfo.fill (n : NewInfo) (handle : Handle) (old : HandleInfo) : HandleInfo :=
  ⟨handle,
    ⟨n.localInfo.ipv4Addr, n.localInfo.port, n.peerInfo.ipv4Addr, n.peerInfo.port, n.msgType.toUInt16⟩,
    ⟨handle, old.socektInfo.state, n.isSinglePeer, n.localMagic, INVALID_MAGIC, 0, 0⟩⟩

/-- What follows `bail` with the lock held: the result of the unlock replaces the error. -/
def unlockOnBail (r : Int × Db) : Int × Db := (0, r.2)

/-- The location a slot of a table stands for. -/
def slotLoc (handleType : DbType) (serverId : ServerId) (idx : Slot) : Option InfoLoc :=
  match handleType with
  | .udpHandle => some (.udp idx)
  | .tcpClientHandle => some (.client idx)
  | .tcpServerHandle => some (.server serverId idx)
  | _ => none

/-- The part of `handle_info_set` under the lock. -/
def handleInfoSetLocked (db : Db) (handleType : DbType) (serverId : ServerId) (handle : Handle)
    (n : NewInfo) : Int × Db :=
  match findEmptySlot db handleType serverId with
  | (err, none) => (err, db)
  | (_, some idx) =>
    match slotLoc handleType serverId idx with
    | none => (EPERM, db)
    | some loc => (0, db.setInfo loc (n.fill handle (db.info loc)))

/-- `handle_info_set`: a full table is not reported. -/
def handleInfoSet (db : Db) (handleType : DbType) (serverId : ServerId) (handle : Handle)
    (n : NewInfo) : Int × Db :=
  unlockOnBail (handleInfoSetLocked db handleType serverId handle n)

/-- `lib_commu_db_udp_handle_info_set`: the port is stored as the local address too. -/
def libCommuDbUdpHandleInfoSet (db : Db) (handle : Handle) (port : UInt16) (msgType : UInt16)
    (isSinglePeer : UInt8) (localMagic : UInt32) : Int × Db :=
  handleInfoSet db .udpHandle noServer handle
    ⟨msgType.toUInt8, ⟨port, port.toUInt32⟩, ⟨0, 0⟩, isSinglePeer, localMagic⟩

/-- `lib_commu_db_tcp_server_handle_info_set`. -/
def libCommuDbTcpServerHandleInfoSet (db : Db) (serverId : ServerId) (handle : Handle)
    (msgType : UInt8) (localInfo peerInfo : AddrInfo) (localMagic : UInt32) : Int × Db :=
  handleInfoSet db .tcpServerHandle serverId handle ⟨msgType, localInfo, peerInfo, 1, localMagic⟩

/-- `lib_commu_db_tcp_client_handle_info_set`. -/
def libCommuDbTcpClientHandleInfoSet (db : Db) (handle : Handle) (msgType : UInt8)
    (localInfo peerInfo : AddrInfo) (localMagic : UInt32) : Int × Db :=
  handleInfoSet db .tcpClientHandle noServer handle ⟨msgType, localInfo, peerInfo, 1, localMagic⟩

/-- `lib_cummo_db_server_status_client_set`. -/
def libCummoDbServerStatusClientSet (db : Db) (handle : Handle) (clientaddr : AddrInfo)
    (sIpv4Addr : UInt32) (sPort : UInt16) (serverIdx : ServerId) : Int × Db :=
  match findEmptySlot db .tcpServerStatusHandle serverIdx with
  | (err, none) => (err, db)
  | (_, some idx) =>
    let st := db.serverStatusSt serverIdx
    (0, db.setStatus serverIdx { st with
      clientsNum := st.clientsNum + 1
      clientStatus := Function.update st.clientStatus idx
        ⟨handle, .up, sIpv4Addr, sPort, clientaddr.ipv4Addr, clientaddr.port⟩ })

/-! ## Removing -/

/-- `lib_commu_db_udp_handle_info_delete`; the lookup is done before the lock is taken. -/
def libCommuDbUdpHandleInfoDelete (db : Db) (handle : Handle) : Int × Db :=
  match findHandleIdx db .udpHandle noServer handle with
  | (err, none) => (err, db)
  | (_, some idx) => unlockOnBail (0, db.setInfo (.udp idx) .empty)

/-- How the body of `lib_commu_db_tcp_handle_info_delete` ends. -/
inductive DeleteBranch where
  | notFound (err : Int)
  | wrongType
  | clientDeleted
  | serverDeleted
  /-- `#clients must be > 0`. -/
  | noClients
  /-- The handle is not in the status of its server. -/
  | statusLookup (err : Int)
  deriving DecidableEq, Repr

/-- The error code before `bail`. -/
def DeleteBranch.err : DeleteBranch → Int
  | .notFound err => err
  | .wrongType => EPERM
  | .clientDeleted => 0
  | .serverDeleted => 0
  | .noClients => EINVAL
  | .statusLookup err => err

/-- The update of the status of a server in the delete; the counter is decremented first. -/
def deleteClientStatus (db : Db) (serverId : ServerId) (handle : Handle) : DeleteBranch × Db :=
  let st := db.serverStatusSt serverId
  if 0 < st.clientsNum then
    let st := { st with clientsNum := st.clientsNum - 1 }
    let db := db.setStatus serverId st
    match findHandleIdx db .tcpServerStatusHandle serverId handle with
    | (err, none) => (.statusLookup err, db)
    | (_, some idx) => (.serverDeleted, db.setStatus serverId { st with
        clientStatus := Function.update st.clientStatus idx .empty })
  else (.noClients, db)

/-- The part of `lib_commu_db_tcp_handle_info_delete` under the lock. -/
def tcpHandleInfoDeleteLocked (db : Db) (handle : Handle) : DeleteBranch × Db :=
  match libCommuDbHanldeInfoGet db handle .any with
  | (err, none) => (.notFound err, db)
  | (_, some (.client i)) => (.clientDeleted, db.setInfo (.client i) .empty)
  | (_, some (.server s i)) => deleteClientStatus (db.setInfo (.server s i) .empty) s handle
  | (_, some (.udp _)) => (.wrongType, db)

/-- `lib_commu_db_tcp_handle_info_delete`: its errors are not reported. -/
def libCommuDbTcpHandleInfoDelete (db : Db) (handle : Handle) : Int × Db :=
  let r := tcpHandleInfoDeleteLocked db handle
  unlockOnBail (r.1.err, r.2)

/-! ## Counters -/

/-- `handle_total_rx_update`: the error code, the table the handle was found in, and the DB. -/
def handleTotalRxUpdate (db : Db) (handle : Handle) (handleDbType : DbType) (rxBytes : UInt64) :
    Int × Db :=
  match libCommuDbHanldeInfoGet db handle handleDbType with
  | (err, none) => (err, db)
  | (_, some loc) =>
    let info := db.info loc
    (0, db.setInfo loc { info with socektInfo := { info.socektInfo with
      totalSumBytesRx := info.socektInfo.totalSumBytesRx + rxBytes } })

/-- `handle_total_tx_update`. -/
def handleTotalTxUpdate (db : Db) (handle : Handle) (handleDbType : DbType) (txBytes : UInt64) :
    Int × Db :=
  match libCommuDbHanldeInfoGet db handle handleDbType with
  | (err, none) => (err, db)
  | (_, some loc) =>
    let info := db.info loc
    (0, db.setInfo loc { info with socektInfo := { info.socektInfo with
      totalSumBytesTx := info.socektInfo.totalSumBytesTx + txBytes } })

end MlnxLib.Commu
