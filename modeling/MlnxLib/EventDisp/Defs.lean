import Mathlib.Data.Finset.Basic
import MlnxLib.Lib.SlotTable

/-!
# The event dispatcher

Model of `lib_event_disp.c`: the tables of the library, and the calls that open and close its sockets.

* `EventDispFds` — the three descriptors of a connection, as the caller holds them.
* `Disp` — the static data of the library, with a record of the descriptors that it has open and of
  those that it has closed without having them open.
* `eventDispOpenSocket`, `eventDispCloseSocket` — one socket and its slot in `event_disp_fds`.
* `eventDispApiInit`, `eventDispApiDeinit`, `eventDispApiOpen`, `eventDispApiClose` — the calls.

What the kernel answers is an argument of each call.  A call is `none` for answers that the kernel does not
give: a new socket never has the number of one that is open.  The file names of the sockets are made from
their numbers, so that a name stands for a number here.  A null pointer is `none`.
-/

set_option autoImplicit false

namespace MlnxLib.EventDisp

open SlotTable

/-! ## Constants and types -/

def EVENT_DISP_MAX_CON : Nat := 10

def EVENT_DISP_MAX_EVENTS : Nat := 100

def EVENT_DISP_MAX_SOCK : Nat := EVENT_DISP_MAX_CON * 3

/-- `event_disp_status_t`, with the library's spelling. -/
inductive EventDispStatus where
  | success
  | alreadyInit
  | notInit
  | mutexError
  | paramNull
  | paramRange
  | paramInvalid
  | maxConnetions
  | socketError
  | sendError
  | error
  deriving DecidableEq, Repr

/-- `event_disp_fds_t`. -/
structure EventDispFds where
  highFd : Int
  medFd : Int
  lowFd : Int
  deriving DecidableEq, Repr

/-- The structure after `memset(fds, -1, sizeof(*fds))`. -/
def EventDispFds.reset : EventDispFds := ⟨-1, -1, -1⟩

/-- The three fields. -/
def EventDispFds.toList (fds : EventDispFds) : List Int := [fds.highFd, fds.medFd, fds.lowFd]

/-- The static data of the library. -/
structure Disp where
  db : Fin EVENT_DISP_MAX_EVENTS → Fin EVENT_DISP_MAX_CON → Int
  fds : Fin EVENT_DISP_MAX_SOCK → Int
  con : Nat
  genCounter : Fin EVENT_DISP_MAX_EVENTS → UInt64
  totalGenCounter : UInt64
  init : Bool
  /-- The descriptors that the library has created and not closed since. -/
  held : Finset Int
  /-- The other descriptors that it has closed. -/
  stray : List Int

/-- The static data of a process that starts. -/
def bootDisp : Disp where
  db _ _ := 0
  fds _ := 0
  con := 0
  genCounter _ := 0
  totalGenCounter := 0
  init := false
  held := ∅
  stray := []

/-! ## Sockets -/

/-- What the kernel answers in `event_disp_open_socket`: the new socket, and whether `bind` succeeds. -/
structure SocketAnswer where
  socket : Option Nat
  bind : Bool
  deriving DecidableEq, Repr

/-- `close`; the number is free again even if it returns an error. -/
def Disp.closeFd (s : Disp) (fd : Int) : Disp :=
  if fd ∈ s.held then { s with held := s.held.erase fd } else { s with stray := s.stray ++ [fd] }

/-- What `event_disp_open_socket` leaves. -/
structure Opened where
  err : EventDispStatus
  fd : Int
  state : Disp

/-- `event_disp_open_socket`; its callers give no null pointer. -/
def eventDispOpenSocket (s : Disp) (answer : SocketAnswer) : Option Opened :=
  match answer.socket with
  | none => some ⟨.socketError, -1, s⟩
  | some fd =>
    if (fd : Int) ∈ s.held then none else
    let s := { s with held := insert (fd : Int) s.held }
    if answer.bind = false then some ⟨.socketError, -1, s.closeFd fd⟩
    else some ⟨.success, fd, { s with fds := put (-1) s.fds fd }⟩

/-- `event_disp_close_socket`, with the answer of `close`. -/
def eventDispCloseSocket (s : Disp) (fd : Int) (closed : Bool) : EventDispStatus × Disp :=
  if fd < 0 then (.paramInvalid, s)
  else
    let s := s.closeFd fd
    (if closed then .success else .socketError, { s with fds := drop (-1) s.fds fd })

/-! ## The calls -/

/-- All tables are empty, as after each `memset` of `event_disp_api_init`. -/
def Disp.resetDb (s : Disp) : Disp :=
  { s with
    db := fun _ _ => -1
    genCounter := fun _ => 0
    totalGenCounter := 0
    fds := fun _ => -1
    con := 0 }

/-- `event_disp_api_init`, with the answer of `pthread_mutex_init`. -/
def eventDispApiInit (s : Disp) (mutex : Bool) : EventDispStatus × Disp :=
  if s.init = true then (.alreadyInit, s)
  else if mutex = false then (.mutexError, s.resetDb)
  else (.success, { s.resetDb with init := true })

/-- A turn of the loop of `event_disp_api_deinit`. -/
def deinitSocket (answers : Fin EVENT_DISP_MAX_SOCK → Bool) (r : EventDispStatus × Disp)
    (fdId : Fin EVENT_DISP_MAX_SOCK) : EventDispStatus × Disp :=
  if 0 ≤ r.2.fds fdId then
    let closed := eventDispCloseSocket r.2 (r.2.fds fdId) (answers fdId)
    (if closed.1 ≠ .success ∧ r.1 = .success then closed.1 else r.1, closed.2)
  else r

/-- `event_disp_api_deinit`, with the answers of `close` and of `pthread_mutex_destroy`. -/
def eventDispApiDeinit (s : Disp) (answers : Fin EVENT_DISP_MAX_SOCK → Bool) (mutex : Bool) :
    EventDispStatus × Disp :=
  if s.init = false then (.notInit, s)
  else
    let r := (List.finRange EVENT_DISP_MAX_SOCK).foldl (deinitSocket answers) (.success, s)
    (if mutex = false ∧ r.1 = .success then .mutexError else r.1, { r.2.resetDb with init := false })

/-- What a call with a structure of descriptors leaves. -/
structure Result where
  err : EventDispStatus
  fds : Option EventDispFds
  state : Disp

/-- What the kernel answers in `event_disp_api_open`. -/
structure OpenAnswers where
  lock : Bool
  high : SocketAnswer
  med : SocketAnswer
  low : SocketAnswer
  deriving DecidableEq, Repr

/-- A new socket that is bound. -/
def socketOk (fd : Nat) : SocketAnswer := ⟨some fd, true⟩

/-- All calls of the kernel succeed, with these new sockets. -/
def openOk (high med low : Nat) : OpenAnswers := ⟨true, socketOk high, socketOk med, socketOk low⟩

/-- A field in the clean-up of `event_disp_api_open`; what `close` answers is not looked at. -/
def bailSocket (s : Disp) (fd : Int) : Disp := if fd ≠ -1 then (eventDispCloseSocket s fd true).2 else s

/-- The clean-up of a failed `event_disp_api_open`. -/
def openBail (err : EventDispStatus) (fds : EventDispFds) (s : Disp) : Result :=
  ⟨err, some fds, bailSocket (bailSocket (bailSocket s fds.highFd) fds.medFd) fds.lowFd⟩

/-- `event_disp_api_open`. -/
def eventDispApiOpen (s : Disp) (fds : Option EventDispFds) (answers : OpenAnswers) : Option Result :=
  match fds with
  | none => some ⟨if s.init = false then .notInit else .paramNull, none, s⟩
  | some fds =>
    if s.init = false then some (openBail .notInit fds s)
    else if answers.lock = false then some (openBail .mutexError fds s)
    else if EVENT_DISP_MAX_CON ≤ s.con then some (openBail .maxConnetions fds s)
    else
      (eventDispOpenSocket s answers.high).bind fun high =>
      if high.err ≠ .success then some (openBail high.err ⟨high.fd, -1, -1⟩ high.state) else
      (eventDispOpenSocket high.state answers.med).bind fun med =>
      if med.err ≠ .success then some (openBail med.err ⟨high.fd, med.fd, -1⟩ med.state) else
      (eventDispOpenSocket med.state answers.low).bind fun low =>
      if low.err ≠ .success then some (openBail low.err ⟨high.fd, med.fd, low.fd⟩ low.state) else
      some ⟨.success, some ⟨high.fd, med.fd, low.fd⟩, { low.state with con := low.state.con + 1 }⟩

/-- What the kernel answers in `event_disp_api_close`. -/
structure CloseAnswers where
  lock : Bool
  high : Bool
  med : Bool
  low : Bool
  unlock : Bool
  deriving DecidableEq, Repr

/-- All calls of the kernel succeed. -/
def closeOk : CloseAnswers := ⟨true, true, true, true, true⟩

/-- The first error of two steps. -/
def firstErr (err tmpErr : EventDispStatus) : EventDispStatus := if err = .success then tmpErr else err

/-- `event_disp_api_close`. -/
def eventDispApiClose (s : Disp) (fds : Option EventDispFds) (answers : CloseAnswers) : Result :=
  if s.init = false then ⟨.notInit, fds, s⟩ else
  match fds with
  | none => ⟨.paramNull, none, s⟩
  | some fds =>
    if answers.lock = false then ⟨.mutexError, some fds, s⟩
    else
      let s := { s with db := fun eventId => dropWhere (-1) (s.db eventId) fds.toList }
      let high := eventDispCloseSocket s fds.highFd answers.high
      let med := eventDispCloseSocket high.2 fds.medFd answers.med
      let low := eventDispCloseSocket med.2 fds.lowFd answers.low
      let err := firstErr (firstErr high.1 med.1) low.1
      ⟨firstErr err (if answers.unlock then .success else .mutexError), some fds, low.2⟩

end MlnxLib.EventDisp
