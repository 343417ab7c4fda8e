import MlnxLib.Commu.Servers
import MlnxLib.Commu.Tcp

/-!
# TCP server sessions

Model of `comm_lib_tcp_server_session_start`, `comm_lib_tcp_server_session_stop` and
`listener_main_thread` of `lib_commu.c`.

* `commLibTcpServerSessionStart` — the start of a server, with what the system answers.
* `ListenerStep` — the steps of the thread of a server, which runs beside its callers.
* `StopStep` — the steps of a stop, between which the thread may run.

The locks are taken and released without errors; logging is left out, and so are the socket options
of an accepted connection and the callback of the application.
-/

set_option autoImplicit false

namespace MlnxLib.Commu

open SlotTable

def ENOMEM : Int := 12

/-- What a failed call of the system leaves in `errno`, or returns. -/
abbrev Errno := { e : Int // 0 < e }

/-- A `pthread_t`; in `listener_threads`, 0 stands for no thread. -/
abbrev ThreadId := { t : Nat // 0 < t }

/-! ## Starting -/

structure SessionParams where
  sIpv4Addr : UInt32
  port : UInt16
  msgType : UInt16
  deriving DecidableEq, Repr

/-- The arguments of `comm_lib_tcp_server_session_start`: which pointers are not `NULL`. -/
structure StartArgs where
  params : SessionParams
  clbkSt : Bool
  clbkNotifyFunc : Bool
  serverId : Bool
  deriving DecidableEq, Repr

/-- What the system answers to the calls of a start, in their order. -/
structure StartSystem where
  socket : Except Errno Handle
  setsockopt : Option Errno
  bind : Option Errno
  /-- `create_server_event_socket`. -/
  eventSocket : Except Errno Handle
  malloc : Bool
  pthreadCreate : Except Errno ThreadId

/-- `struct listener_thread_args`. -/
structure ListenerThreadArgs where
  eventFd : Handle
  serverId : ServerId
  threadIdx : ServerId
  listenerFd : Handle
  params : SessionParams
  deriving DecidableEq, Repr

/-- What a start leaves: its return code, the tables, `*server_id` if it was written, and the thread
that was created. -/
structure SessionStart where
  err : Int
  db : Db
  serverId : Option ServerId
  thread : Option ListenerThreadArgs

def Db.setListenerThread (db : Db) (idx : ServerId) (t : Nat) : Db :=
  { db with listenerThreads := Function.update db.listenerThreads idx t }

/-- The part of `comm_lib_tcp_server_session_start` under the lock; the error code is that before
`bail`. -/
def sessionStartLocked (db : Db) (params : SessionParams) (sys : StartSystem) (listener : Handle) :
    SessionStart :=
  match findEmptySlot db .listenerThread noServer with
  | (_, none) => ⟨ENOMEM, db, none, none⟩
  | (_, some idx) =>
    match sys.eventSocket with
    | .error err => ⟨err.1, db, some idx, none⟩
    | .ok eventFd =>
      if !sys.malloc then ⟨EINVAL, db, some idx, none⟩ else
      match sys.pthreadCreate with
      | .error err => ⟨err.1, db, some idx, none⟩
      | .ok tid =>
        ⟨0, db.setListenerThread idx tid.1, some idx, some ⟨eventFd, idx, idx, listener, params⟩⟩

/-- `comm_lib_tcp_server_session_start`.  After `bail` the result of the unlock replaces an error of
the part under the lock. -/
def commLibTcpServerSessionStart (lib : CommLib) (args : StartArgs) (sys : StartSystem) : SessionStart :=
  if !args.clbkSt || !args.clbkNotifyFunc || !args.serverId then ⟨-EINVAL, lib.db, none, none⟩ else
  if !lib.initDone then ⟨-EPERM, lib.db, none, none⟩ else
  match sys.socket with
  | .error err => ⟨-err.1, lib.db, none, none⟩
  | .ok listener =>
    match sys.setsockopt with
    | some err => ⟨-err.1, lib.db, none, none⟩
    | none =>
      match sys.bind with
      | some err => ⟨-err.1, lib.db, none, none⟩
      | none => { sessionStartLocked lib.db args.params sys listener with err := 0 }

/-! ## The thread of a server -/

/-- Where a thread is in `listener_main_thread`. -/
inductive ListenerPc where
  | listen
  | statusSet
  | loop
  | exited
  deriving DecidableEq, Repr

/-- What the system does for a step of the thread. -/
inductive ListenerStep where
  | ok
  | fail
  /-- `accept` returns a connection from this peer, and its random magic is found. -/
  | accept (handle : Handle) (peer : AddrInfo) (localMagic : UInt32)
  /-- The exit event is received. -/
  | exitEvent
  deriving DecidableEq, Repr

/-- An accepted connection; the port is stored as the local address, and no local port. -/
def ListenerThreadArgs.accepted (args : ListenerThreadArgs) (peer : AddrInfo) (localMagic : UInt32) :
    Accepted :=
  ⟨args.serverId, args.params.msgType.toUInt8, ⟨0, args.params.port.toUInt32⟩, peer, localMagic,
    args.params.sIpv4Addr, args.params.port⟩

/-- One step of `listener_main_thread`, with the number of exit events sent to it. -/
def listenerMainThread (args : ListenerThreadArgs) (db : Db) (exitEvents : Nat) :
    ListenerPc → ListenerStep → Option (Db × Nat × ListenerPc)
  | .listen, .ok => some (db, exitEvents, if args.listenerFd = 0 then .exited else .statusSet)
  | .listen, .fail => some (db, exitEvents, .exited)
  -- `lib_commu_db_server_status_listener_set`
  | .statusSet, .ok => some (db.setStatus args.serverId { db.serverStatusSt args.serverId with
      listenerHandle := args.listenerFd
      listenerStatus := .up }, exitEvents, .loop)
  | .loop, .accept handle peer localMagic =>
    let r := acceptConnection db handle (args.accepted peer localMagic)
    some (r.2, exitEvents, if r.1 ≠ 0 then .exited else .loop)
  | .loop, .fail => some (db, exitEvents, .exited)
  | .loop, .exitEvent => if 0 < exitEvents then some (db, exitEvents - 1, .exited) else none
  | _, _ => none

/-! ## Stopping -/

/-- What `getpeername` answers for a connection. -/
inductive PeerAnswer where
  | connected
  | notConnected
  | error
  deriving DecidableEq, Repr

def setHandleStatus (db : Db) (s : ServerId) (i : Slot) (status : HandleOpStatus) : Db :=
  let st := db.serverStatusSt s
  db.setStatus s { st with
    clientStatus := Function.update st.clientStatus i { st.clientStatus i with handleStatus := status } }

/-- The loop of `lib_commu_db_tcp_server_status_get` over the slots of a server; an error is what
`getpeername` returned, which is `-1`. -/
def statusGetLoop (s : ServerId) (peer : Handle → PeerAnswer) : List Slot → Db → Int × Db
  | [], db => (0, db)
  | i :: is, db =>
    let handle := ((db.serverStatusSt s).clientStatus i).handle
    if handle = INVALID_HANDLE_ID then statusGetLoop s peer is db else
    match peer handle with
    | .connected => statusGetLoop s peer is (setHandleStatus db s i .up)
    | .notConnected => statusGetLoop s peer is (setHandleStatus db s i .down)
    | .error => (-1, db)

/-- `lib_commu_db_tcp_server_status_get` for a server in range. -/
def libCommuDbTcpServerStatusGet (db : Db) (s : ServerId) (peer : Handle → PeerAnswer) : Int × Db :=
  statusGetLoop s peer (List.finRange TCP_HANDLE_ARR_LENGTH) db

/-- The loop of `comm_lib_tcp_server_session_stop` that closes the clients: the error code, and the
handles it put into `handle_array`. -/
def closeClients (db : Db) (s : ServerId) (close : Handle → Option Errno) (handleArrayLen : Nat) :
    List Slot → List Handle → Int × List Handle
  | [], closed => (0, closed)
  | i :: is, closed =>
    let handle := ((db.serverStatusSt s).clientStatus i).handle
    if handle = INVALID_HANDLE_ID then closeClients db s close handleArrayLen is closed else
    match close handle with
    | some err => (err.1, closed)
    | none => closeClients db s close handleArrayLen is
        (if closed.length < handleArrayLen then closed ++ [handle] else closed)

/-- Where a call of `comm_lib_tcp_server_session_stop` is, or what it returned. -/
inductive StopPc where
  | check
  | statusGet
  | readStatus
  | exitServerThread
  | join
  | cleanUp
  | returned (err : Int)
  deriving DecidableEq, Repr

/-- What the caller and the system give to a step of a stop. -/
inductive StopStep where
  /-- Whether `handle_array` is not `NULL`, and its length. -/
  | args (handleArray : Bool) (handleArrayLen : Nat)
  | peers (peer : Handle → PeerAnswer)
  | ok
  | fail (err : Errno)
  | closes (close : Handle → Option Errno)

/-- A server with its thread and a stop. -/
structure Server where
  lib : CommLib
  args : ListenerThreadArgs
  thread : ListenerPc
  exitEvents : Nat
  stop : StopPc
  handleArrayLen : Nat
  handleArray : List Handle

def Server.setDb (v : Server) (db : Db) : Server := { v with lib := { v.lib with db := db } }

/-- The end of `comm_lib_tcp_server_session_stop`, after the join and under the lock.  An error of a
`close` is replaced by the result of the unlock after `bail`. -/
def stopCleanUp (v : Server) (close : Handle → Option Errno) : Server :=
  let s := v.args.serverId
  let db := v.lib.db.setListenerThread s 0
  let r := closeClients db s close v.handleArrayLen (List.finRange TCP_HANDLE_ARR_LENGTH) []
  let db := if r.1 ≠ 0 then db else (libCommuDbTcpSessionDbDeinit db s).2
  { v.setDb db with stop := .returned 0, handleArray := r.2 }

/-- One step of `comm_lib_tcp_server_session_stop` for the id of the server. -/
def stopStep (v : Server) : StopPc → StopStep → Option Server
  | .check, .args handleArray handleArrayLen =>
    if !v.lib.initDone then some { v with stop := .returned (-EPERM) } else
    if !handleArray then some { v with stop := .returned (-EINVAL) } else
    if handleArrayLen = 0 then some { v with stop := .returned (-EINVAL) } else
    some { v with stop := .statusGet, handleArrayLen := handleArrayLen }
  | .statusGet, .peers peer =>
    let r := libCommuDbTcpServerStatusGet v.lib.db v.args.serverId peer
    some { v.setDb r.2 with stop := if r.1 ≠ 0 then .returned (-r.1) else .readStatus }
  | .readStatus, .ok =>
    some { v with
      stop := if (v.lib.db.serverStatusSt v.args.serverId).listenerStatus = .down then .returned 0
        else .exitServerThread }
  -- `exit_server_thread`
  | .exitServerThread, .ok => some { v with stop := .join, exitEvents := v.exitEvents + 1 }
  | .exitServerThread, .fail err => some { v with stop := .returned (-err.1) }
  -- `pthread_join` waits for the thread to end
  | .join, .ok => if v.thread = .exited then some { v with stop := .cleanUp } else none
  | .join, .fail err => some { v with stop := .returned (-err.1) }
  | .cleanUp, .closes close => some (stopCleanUp v close)
  | _, _ => none

end MlnxLib.Commu
