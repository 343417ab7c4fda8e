import MlnxLib.Lib.SlotTable
import MlnxLib.SxRpc.EventSrcs

/-!
# The select set of the RPC server

Model of what `sx_rpc_common.c` does with the descriptors of its event sources: the select thread accepts
connections and receives from clients, and the worker thread closes event sources in between.

* `Commchnl` — a channel; `sx_rpc_accept_connection` keeps a copy of the channel that it has stored.
* `updateFdSets` — the select set is computed again from the table after each change of a state.
* `SelectServer`, `SelectStep`, `selectStep` — the table, the select set and the open descriptors, with the
  steps of the two threads.
* `OpenChannels` — what the select set is for; `SelectInv` — what the steps keep.

What the kernel answers is part of a step.  A descriptor from `FD_SETSIZE` on is written outside of an
`fd_set`, and is not in it.  What a client sends is left out: a receive fails or it does not.

Principal results: `selectStep_inv`, `selectStep_breaks` — which steps keep the select set right;
`open_channels_iff` — in every run, the select set has only open channels exactly when no handshake fails
while its event source is active.
-/

set_option autoImplicit false

namespace MlnxLib.SxRpc

open Runs SlotTable

/-! ## Channels -/

/-- `cl_commchnl_t`: whether it is initialised, and its socket. -/
structure Commchnl where
  inited : Bool
  socket : Nat
  deriving DecidableEq, Repr

/-- `cl_commchnl_get_fd`. -/
def clCommchnlGetFd (commchnl : Commchnl) : Nat := if commchnl.inited then commchnl.socket else 0

/-- `cl_commchnl_destroy`: the channel, and the open descriptors. -/
def clCommchnlDestroy (commchnl : Commchnl) (openFds : Finset Nat) : Commchnl × Finset Nat :=
  if commchnl.inited then ({ commchnl with inited := false }, openFds.erase commchnl.socket)
  else (commchnl, openFds)

/-! ## The select set -/

/-- The functions that are called for a readable event source. -/
inductive SrcHandler where
  | acceptConnection
  | clientHandler
  deriving DecidableEq, Repr

/-- `sx_rpc_core_td_event_src_t`, without what a client has sent. -/
structure SelectSrc where
  state : EventSrcState
  commchnl : Commchnl
  handler : Option SrcHandler
  deriving DecidableEq, Repr

abbrev EventSrcs := Fin EVENT_SRC_NUM → SelectSrc

/-- `FD_SETSIZE`. -/
def FD_SETSIZE : Nat := 1024

/-- `FD_SET`. -/
def fdSet (fd : Nat) (fds : Finset Nat) : Finset Nat := if fd < FD_SETSIZE then insert fd fds else fds

/-- `sx_rpc_core_td_event_srcs_fd_t`. -/
structure EventSrcsFd where
  fdsErr : Finset Nat
  fdsIn : Finset Nat
  maxFd : Nat
  deriving DecidableEq

/-- A turn of the loop of `sx_rpc_update_fd_sets`. -/
def updateTurn (srcs : EventSrcs) (r : EventSrcsFd) (i : Fin EVENT_SRC_NUM) : EventSrcsFd :=
  if (srcs i).state = .active then
    let commchnlFd := clCommchnlGetFd (srcs i).commchnl
    ⟨fdSet commchnlFd r.fdsErr, fdSet commchnlFd r.fdsIn, max r.maxFd commchnlFd⟩
  else r

/-- `sx_rpc_update_fd_sets`. -/
def updateFdSets (srcs : EventSrcs) : EventSrcsFd :=
  (List.finRange EVENT_SRC_NUM).foldl (updateTurn srcs) ⟨∅, ∅, 0⟩

/-- Where the select thread stands; `sx_rpc_accept_connection` has a copy of the new channel. -/
inductive SelectAt where
  | idle
  | handling (i : Fin EVENT_SRC_NUM)
  | handshake (commchnlClient : Commchnl)
  deriving DecidableEq, Repr

/-- The table, the select set, the open descriptors of the process and the select thread. -/
structure SelectServer where
  srcs : EventSrcs
  fds : EventSrcsFd
  openFds : Finset Nat
  thread : SelectAt

/-- Change an event source, and compute the select set. -/
def SelectServer.setSrc (s : SelectServer) (i : Fin EVENT_SRC_NUM) (src : SelectSrc) : SelectServer :=
  { s with
    srcs := Function.update s.srcs i src
    fds := updateFdSets (Function.update s.srcs i src) }

theorem setSrc_self (s : SelectServer) (i : Fin EVENT_SRC_NUM) (src : SelectSrc) :
    (s.setSrc i src).srcs i = src := by
  unfold SelectServer.setSrc
  exact Function.update_self i src s.srcs

theorem setSrc_of_ne (s : SelectServer) {i j : Fin EVENT_SRC_NUM} (h : j ≠ i) (src : SelectSrc) :
    (s.setSrc i src).srcs j = s.srcs j := by
  unfold SelectServer.setSrc
  exact Function.update_of_ne h src s.srcs

/-- The first event source that is not active. -/
def freeSrc (s : SelectServer) : Option (Fin EVENT_SRC_NUM) := firstWith (fun i => (s.srcs i).state) .notActive

/-- `sx_rpc_add_event_src`; `none` if there is no room. -/
def addEventSrc (s : SelectServer) (commchnl : Commchnl) (handler : SrcHandler) : Option SelectServer :=
  (freeSrc s).map fun i => s.setSrc i ⟨.active, commchnl, some handler⟩

/-- A channel of the caller is destroyed. -/
def SelectServer.destroy (s : SelectServer) (commchnl : Commchnl) : SelectServer :=
  { s with openFds := (clCommchnlDestroy commchnl s.openFds).2 }

/-! ## Steps -/

/-- What happens next. -/
inductive SelectStep where
  /-- The select thread finds an event source readable. -/
  | select (i : Fin EVENT_SRC_NUM)
  /-- `accept`, with the descriptor that the kernel gives. -/
  | accept (socket : Option Nat)
  /-- The versions are sent to a new client. -/
  | handshake (ok : Bool)
  /-- `sx_rpc_client_handler`, whose receive fails or not. -/
  | receive (fails : Bool)
  /-- `close_event_src` by the worker thread, which gets event sources from `sx_rpc_client_handler`. -/
  | close (i : Fin EVENT_SRC_NUM)
  deriving DecidableEq, Repr

/-- `sx_rpc_accept_connection` up to the handshake.  A new descriptor is not open. -/
def acceptStep (s : SelectServer) : Option Nat → Option SelectServer
  | none => some { s with thread := .idle }
  | some socket =>
    if socket ∈ s.openFds then none else
    let commchnlClient : Commchnl := ⟨true, socket⟩
    let s := { s with openFds := insert socket s.openFds }
    match addEventSrc s commchnlClient .clientHandler with
    | none => some { s.destroy commchnlClient with thread := .idle }
    | some s => some { s with thread := .handshake commchnlClient }

/-- The handshake; nothing is sent to a descriptor that is not open. -/
def handshakeStep (s : SelectServer) (commchnlClient : Commchnl) (ok : Bool) : Option SelectServer :=
  if ok = true then
    if commchnlClient.socket ∈ s.openFds then some { s with thread := .idle } else none
  else some { s.destroy commchnlClient with thread := .idle }

/-- `sx_rpc_client_handler`; nothing is received from a descriptor that is not open. -/
def receiveStep (s : SelectServer) (i : Fin EVENT_SRC_NUM) (fails : Bool) : Option SelectServer :=
  if fails = true then
    some { s.setSrc i { s.srcs i with state := .terminating } with thread := .idle }
  else if (s.srcs i).commchnl.socket ∈ s.openFds then some { s with thread := .idle }
  else none

/-- `close_event_src`. -/
def closeStep (s : SelectServer) (i : Fin EVENT_SRC_NUM) : SelectServer :=
  if (s.srcs i).state = .notActive then s else
  let r := clCommchnlDestroy (s.srcs i).commchnl s.openFds
  { s.setSrc i { s.srcs i with state := .notActive, commchnl := r.1 } with openFds := r.2 }

/-- One step. -/
def selectStep (s : SelectServer) : SelectStep → Option SelectServer
  | .select i =>
    if s.thread = .idle ∧ (s.srcs i).state = .active then some { s with thread := .handling i } else none
  | .accept socket =>
    match s.thread with
    | .handling i => if (s.srcs i).handler = some .acceptConnection then acceptStep s socket else none
    | _ => none
  | .handshake ok =>
    match s.thread with
    | .handshake commchnlClient => handshakeStep s commchnlClient ok
    | _ => none
  | .receive fails =>
    match s.thread with
    | .handling i => if (s.srcs i).handler = some .clientHandler then receiveStep s i fails else none
    | _ => none
  | .close i => if (s.srcs i).handler = some .clientHandler then some (closeStep s i) else none

/-- The table after `memset`. -/
def emptySrcs : EventSrcs := fun _ => ⟨.notActive, ⟨false, 0⟩, none⟩

/-- The event source that the server gets for its own channel. -/
def serverSrc : Fin EVENT_SRC_NUM := ⟨0, by decide⟩

/-- The server after `sx_rpc_open_sx_api_commchnl`, with the descriptor of its own channel. -/
def startServer (socket : Nat) : SelectServer :=
  (SelectServer.mk emptySrcs ⟨∅, ∅, 0⟩ {socket} .idle).setSrc serverSrc
    ⟨.active, ⟨true, socket⟩, some .acceptConnection⟩

/-- The channel of the server is the first event source that is added. -/
theorem startServer_eq (socket : Nat) :
    addEventSrc ⟨emptySrcs, ⟨∅, ∅, 0⟩, {socket}, .idle⟩ ⟨true, socket⟩ .acceptConnection =
      some (startServer socket) := by
  have hfree : freeSrc ⟨emptySrcs, ⟨∅, ∅, 0⟩, {socket}, .idle⟩ = some serverSrc := by
    unfold freeSrc
    rfl
  unfold addEventSrc
  rw [hfree]
  rfl

/-! ## What the select set is for -/

/-- The event source is active. -/
def SelectServer.Active (s : SelectServer) (i : Fin EVENT_SRC_NUM) : Prop := (s.srcs i).state = .active

/-- **The select set has only open channels**: the descriptors of the active event sources, which are open
and different. -/
structure OpenChannels (s : SelectServer) : Prop where
  fdsIn : ∀ fd, fd ∈ s.fds.fdsIn ↔ ∃ i, s.Active i ∧ clCommchnlGetFd (s.srcs i).commchnl = fd
  fdsErr : ∀ fd, fd ∈ s.fds.fdsErr ↔ ∃ i, s.Active i ∧ clCommchnlGetFd (s.srcs i).commchnl = fd
  isOpen : ∀ i, s.Active i → (s.srcs i).commchnl.inited = true ∧ (s.srcs i).commchnl.socket ∈ s.openFds
  distinct : ∀ i j, s.Active i → s.Active j →
    clCommchnlGetFd (s.srcs i).commchnl = clCommchnlGetFd (s.srcs j).commchnl → i = j
  maxFd : ∀ i, s.Active i → clCommchnlGetFd (s.srcs i).commchnl ≤ s.fds.maxFd

/-- What the steps keep.  The channel of a caller is the copy of that of an active event source, or the
worker has closed that one. -/
structure SelectInv (s : SelectServer) : Prop where
  fds : s.fds = updateFdSets s.srcs
  active : ∀ i, s.Active i → (s.srcs i).commchnl.inited = true ∧ (s.srcs i).commchnl.socket < FD_SETSIZE
  isOpen : ∀ i, (s.srcs i).commchnl.inited = true → (s.srcs i).commchnl.socket ∈ s.openFds
  distinct : ∀ i j, (s.srcs i).commchnl.inited = true → (s.srcs j).commchnl.inited = true →
    (s.srcs i).commchnl.socket = (s.srcs j).commchnl.socket → i = j
  copy : ∀ commchnl, s.thread = .handshake commchnl → commchnl.inited = true ∧
    (commchnl.socket ∈ s.openFds → ∃ i, s.Active i ∧ (s.srcs i).commchnl = commchnl)

/-- **The step leaves the select set right**: an event source that is added has a descriptor that an
`fd_set` holds, and when a handshake fails, the worker has closed the event source. -/
def KeepsOpen (s : SelectServer) : SelectStep → Prop
  | .accept (some socket) => freeSrc s ≠ none → socket < FD_SETSIZE
  | .handshake false => ∀ commchnl, s.thread = .handshake commchnl →
      ∀ i, s.Active i → clCommchnlGetFd (s.srcs i).commchnl ≠ commchnl.socket
  | _ => True

/-! ## The loop over the event sources -/

section

variable {srcs : EventSrcs} {fd : Nat}

theorem mem_fdSet {fd' : Nat} {fds : Finset Nat} :
    fd' ∈ fdSet fd fds ↔ (fd' = fd ∧ fd < FD_SETSIZE) ∨ fd' ∈ fds := by
  unfold fdSet
  split
  · rename_i hlt
    rw [Finset.mem_insert, and_iff_left hlt]
  · rename_i hge
    simp [hge]

/-- The descriptor of an active event source among these is in the set. -/
def Listed (srcs : EventSrcs) (fd : Nat) (l : List (Fin EVENT_SRC_NUM)) : Prop :=
  fd < FD_SETSIZE ∧ ∃ i ∈ l, (srcs i).state = .active ∧ clCommchnlGetFd (srcs i).commchnl = fd

theorem listed_cons {i : Fin EVENT_SRC_NUM} {l : List (Fin EVENT_SRC_NUM)} : Listed srcs fd (i :: l) ↔
    (fd < FD_SETSIZE ∧ (srcs i).state = .active ∧ clCommchnlGetFd (srcs i).commchnl = fd) ∨ Listed srcs fd l := by
  unfold Listed
  rw [List.exists_mem_cons_iff, and_or_left]

/-- A turn adds the descriptor of an active event source. -/
theorem mem_updateTurn (srcs : EventSrcs) (fd : Nat) (r : EventSrcsFd) (i : Fin EVENT_SRC_NUM) :
    (fd ∈ (updateTurn srcs r i).fdsIn ↔ (fd < FD_SETSIZE ∧ (srcs i).state = .active ∧
      clCommchnlGetFd (srcs i).commchnl = fd) ∨ fd ∈ r.fdsIn) ∧
    (fd ∈ (updateTurn srcs r i).fdsErr ↔ (fd < FD_SETSIZE ∧ (srcs i).state = .active ∧
      clCommchnlGetFd (srcs i).commchnl = fd) ∨ fd ∈ r.fdsErr) := by
  unfold updateTurn
  split
  · rename_i hactive
    have hiff : (fd = clCommchnlGetFd (srcs i).commchnl ∧ clCommchnlGetFd (srcs i).commchnl < FD_SETSIZE) ↔
        (fd < FD_SETSIZE ∧ (srcs i).state = .active ∧ clCommchnlGetFd (srcs i).commchnl = fd) := by
      constructor
      · rintro ⟨rfl, hlt⟩
        exact ⟨hlt, hactive, rfl⟩
      · rintro ⟨hlt, -, rfl⟩
        exact ⟨rfl, hlt⟩
    exact ⟨by rw [mem_fdSet, hiff], by rw [mem_fdSet, hiff]⟩
  · rename_i hnot
    simp [hnot]

theorem mem_foldl_updateTurn (srcs : EventSrcs) (fd : Nat) : ∀ (l : List (Fin EVENT_SRC_NUM)) (r : EventSrcsFd),
    (fd ∈ (l.foldl (updateTurn srcs) r).fdsIn ↔ Listed srcs fd l ∨ fd ∈ r.fdsIn) ∧
    (fd ∈ (l.foldl (updateTurn srcs) r).fdsErr ↔ Listed srcs fd l ∨ fd ∈ r.fdsErr)
  | [], r => by simp [Listed]
  | i :: l, r => by
    obtain ⟨hin, herr⟩ := mem_updateTurn srcs fd r i
    obtain ⟨ihin, iherr⟩ := mem_foldl_updateTurn srcs fd l (updateTurn srcs r i)
    rw [List.foldl_cons, ihin, iherr, hin, herr, listed_cons]
    exact ⟨or_left_comm.trans or_assoc.symm, or_left_comm.trans or_assoc.symm⟩

theorem maxFd_foldl_updateTurn : ∀ (l : List (Fin EVENT_SRC_NUM)) (r : EventSrcsFd),
    r.maxFd ≤ (l.foldl (updateTurn srcs) r).maxFd ∧
    ∀ i ∈ l, (srcs i).state = .active →
      clCommchnlGetFd (srcs i).commchnl ≤ (l.foldl (updateTurn srcs) r).maxFd
  | [], r => ⟨Nat.le_refl _, List.forall_mem_nil _⟩
  | i :: l, r => by
    obtain ⟨ihle, ih⟩ := maxFd_foldl_updateTurn l (updateTurn srcs r i)
    have hle : r.maxFd ≤ (updateTurn srcs r i).maxFd := by
      unfold updateTurn
      split
      · exact Nat.le_max_left ..
      · exact Nat.le_refl _
    rw [List.foldl_cons]
    refine ⟨hle.trans ihle, List.forall_mem_cons.mpr ⟨fun hactive => ?_, ih⟩⟩
    refine Nat.le_trans ?_ ihle
    unfold updateTurn
    rw [if_pos hactive]
    exact Nat.le_max_right ..

/-- **The select set that is computed** has the descriptors of the active event sources, as far as it can
hold them. -/
theorem mem_updateFdSets :
    (fd ∈ (updateFdSets srcs).fdsIn ↔ fd < FD_SETSIZE ∧
      ∃ i, (srcs i).state = .active ∧ clCommchnlGetFd (srcs i).commchnl = fd) ∧
    (fd ∈ (updateFdSets srcs).fdsErr ↔ fd < FD_SETSIZE ∧
      ∃ i, (srcs i).state = .active ∧ clCommchnlGetFd (srcs i).commchnl = fd) := by
  obtain ⟨hin, herr⟩ := mem_foldl_updateTurn srcs fd (List.finRange EVENT_SRC_NUM) ⟨∅, ∅, 0⟩
  unfold updateFdSets
  rw [hin, herr]
  simp [Listed, List.mem_finRange]

end

/-! ## The invariant -/

section

variable {s s' : SelectServer} {i : Fin EVENT_SRC_NUM}

theorem SelectInv.getFd (h : SelectInv s) (hactive : s.Active i) :
    clCommchnlGetFd (s.srcs i).commchnl = (s.srcs i).commchnl.socket := by
  unfold clCommchnlGetFd
  rw [if_pos (h.active i hactive).1]

/-- **The invariant gives the property.** -/
theorem SelectInv.openChannels (h : SelectInv s) : OpenChannels s where
  fdsIn fd := by
    rw [h.fds, mem_updateFdSets.1]
    refine and_iff_right_of_imp ?_
    rintro ⟨i, hactive, rfl⟩
    rw [h.getFd hactive]
    exact (h.active i hactive).2
  fdsErr fd := by
    rw [h.fds, mem_updateFdSets.2]
    refine and_iff_right_of_imp ?_
    rintro ⟨i, hactive, rfl⟩
    rw [h.getFd hactive]
    exact (h.active i hactive).2
  isOpen i hactive := ⟨(h.active i hactive).1, h.isOpen i (h.active i hactive).1⟩
  distinct i j hi hj heq := by
    rw [h.getFd hi, h.getFd hj] at heq
    exact h.distinct i j (h.active i hi).1 (h.active j hj).1 heq
  maxFd i hactive := by
    rw [h.fds]
    exact (maxFd_foldl_updateTurn _ _).2 i (List.mem_finRange i) hactive

/-- The select thread goes on. -/
theorem SelectInv.thread (h : SelectInv s) {thread : SelectAt} (hthread : ∀ c, thread ≠ .handshake c) :
    SelectInv { s with thread := thread } :=
  ⟨h.fds, h.active, h.isOpen, h.distinct, fun c hc => absurd hc (hthread c)⟩

/-- **A new channel in a free event source.** -/
theorem SelectInv.add (h : SelectInv s) {socket : Nat} (hnew : socket ∉ s.openFds)
    (hlt : socket < FD_SETSIZE) (handler : SrcHandler) :
    SelectInv { ({ s with openFds := insert socket s.openFds }).setSrc i ⟨.active, ⟨true, socket⟩, some handler⟩
      with thread := .handshake ⟨true, socket⟩ } := by
  have hself : Function.update s.srcs i ⟨.active, ⟨true, socket⟩, some handler⟩ i =
      ⟨.active, ⟨true, socket⟩, some handler⟩ := Function.update_self ..
  have hother : ∀ j, j ≠ i → Function.update s.srcs i ⟨.active, ⟨true, socket⟩, some handler⟩ j = s.srcs j :=
    fun j hj => Function.update_of_ne hj ..
  have hsocket : ∀ j, (s.srcs j).commchnl.inited = true → (s.srcs j).commchnl.socket ≠ socket :=
    fun j hj heq => hnew (heq ▸ h.isOpen j hj)
  refine ⟨rfl, fun j hj => ?_, fun j hj => ?_, fun j k hj hk heq => ?_, fun c hc => ?_⟩
  · unfold SelectServer.Active at hj
    dsimp only [SelectServer.setSrc] at hj ⊢
    by_cases hji : j = i
    · rw [hji, hself]
      exact ⟨rfl, hlt⟩
    · rw [hother j hji] at hj ⊢
      exact h.active j hj
  · dsimp only [SelectServer.setSrc] at hj ⊢
    by_cases hji : j = i
    · rw [hji, hself]
      exact Finset.mem_insert_self ..
    · rw [hother j hji] at hj ⊢
      exact Finset.mem_insert_of_mem (h.isOpen j hj)
  · dsimp only [SelectServer.setSrc] at hj hk heq
    by_cases hji : j = i <;> by_cases hki : k = i
    · rw [hji, hki]
    · rw [hother k hki] at hk heq
      rw [hji, hself] at heq
      exact absurd heq.symm (hsocket k hk)
    · rw [hother j hji] at hj heq
      rw [hki, hself] at heq
      exact absurd heq (hsocket j hj)
    · rw [hother j hji] at hj heq
      rw [hother k hki] at hk heq
      exact h.distinct j k hj hk heq
  · cases hc
    refine ⟨rfl, fun _ => ⟨i, ?_, ?_⟩⟩
    · unfold SelectServer.Active
      dsimp only [SelectServer.setSrc]
      rw [hself]
    · dsimp only [SelectServer.setSrc]
      rw [hself]

/-- **An event source that is not active any more**, with the same channel or without one.  The select thread
does not wait for a handshake, or the event source is closed. -/
theorem SelectInv.retire (h : SelectInv s) {src : SelectSrc} {openFds : Finset Nat}
    (hstate : src.state ≠ .active) (hinited : src.commchnl.inited = true → src.commchnl = (s.srcs i).commchnl)
    (hopen : src.commchnl.inited = true → src.commchnl.socket ∈ openFds)
    (hfds : ∀ j, j ≠ i → (s.srcs j).commchnl.inited = true → (s.srcs j).commchnl.socket ∈ openFds)
    (hcopy : ∀ c, s.thread = .handshake c → c.socket ∈ openFds →
      c.socket ∈ s.openFds ∧ (s.srcs i).commchnl ≠ c) :
    SelectInv { s.setSrc i src with openFds := openFds } := by
  have hself : Function.update s.srcs i src i = src := Function.update_self ..
  have hother : ∀ j, j ≠ i → Function.update s.srcs i src j = s.srcs j := fun j hj => Function.update_of_ne hj ..
  have hold : ∀ j, (Function.update s.srcs i src j).commchnl.inited = true →
      (Function.update s.srcs i src j).commchnl = (s.srcs j).commchnl := by
    intro j hj
    by_cases hji : j = i
    · rw [hji, hself] at hj ⊢
      exact hinited hj
    · rw [hother j hji]
  refine ⟨rfl, fun j hj => ?_, fun j hj => ?_, fun j k hj hk heq => ?_, fun c hc => ?_⟩
  · unfold SelectServer.Active at hj
    dsimp only [SelectServer.setSrc] at hj ⊢
    have hji : j ≠ i := by
      rintro rfl
      rw [hself] at hj
      exact hstate hj
    rw [hother j hji] at hj ⊢
    exact h.active j hj
  · dsimp only [SelectServer.setSrc] at hj ⊢
    by_cases hji : j = i
    · rw [hji, hself] at hj ⊢
      exact hopen hj
    · rw [hother j hji] at hj ⊢
      exact hfds j hji hj
  · dsimp only [SelectServer.setSrc] at hj hk heq
    have hj' := hold j hj
    have hk' := hold k hk
    rw [hj'] at hj heq
    rw [hk'] at hk heq
    exact h.distinct j k hj hk heq
  · obtain ⟨hcinited, hactive⟩ := h.copy c hc
    refine ⟨hcinited, fun hmem => ?_⟩
    obtain ⟨hmem, hne⟩ := hcopy c hc hmem
    obtain ⟨j, hj, hjc⟩ := hactive hmem
    have hji : j ≠ i := by
      rintro rfl
      exact hne hjc
    refine ⟨j, ?_, ?_⟩
    · unfold SelectServer.Active
      dsimp only [SelectServer.setSrc]
      rw [hother j hji]
      exact hj
    · dsimp only [SelectServer.setSrc]
      rw [hother j hji]
      exact hjc

/-- `close_event_src` keeps the invariant, at any time. -/
theorem SelectInv.close (h : SelectInv s) (i : Fin EVENT_SRC_NUM) : SelectInv (closeStep s i) := by
  unfold closeStep
  split
  · exact h
  unfold clCommchnlDestroy
  dsimp only
  split
  · rename_i hinited
    refine h.retire (by simp) (fun hbad => by cases hbad) (fun hbad => by cases hbad) ?_ ?_
    · intro j hji hj
      exact Finset.mem_erase.mpr ⟨fun heq => hji (h.distinct j i hj hinited heq), h.isOpen j hj⟩
    · intro c hc hmem
      obtain ⟨hne, hmem⟩ := Finset.mem_erase.mp hmem
      refine ⟨hmem, ?_⟩
      rintro rfl
      exact hne rfl
  · rename_i hinited
    refine h.retire (by simp) (fun hbad => absurd hbad hinited) (fun hbad => absurd hbad hinited)
      (fun j _ hj => h.isOpen j hj) ?_
    intro c hc hmem
    refine ⟨hmem, ?_⟩
    rintro rfl
    exact hinited (h.copy _ hc).1

/-- **What becomes of a new descriptor**: it is closed again, or an event source gets it. -/
theorem acceptStep_some {socket : Nat} (hstep : acceptStep s (some socket) = some s') :
    socket ∉ s.openFds ∧ (freeSrc s = none ∧ s' = { s with thread := .idle } ∨
      ∃ i, freeSrc s = some i ∧ s' = { ({ s with openFds := insert socket s.openFds }).setSrc i
        ⟨.active, ⟨true, socket⟩, some .clientHandler⟩ with thread := .handshake ⟨true, socket⟩ }) := by
  unfold acceptStep at hstep
  dsimp only at hstep
  split at hstep
  · cases hstep
  rename_i hnew
  refine ⟨hnew, ?_⟩
  unfold addEventSrc at hstep
  cases hfree : freeSrc s with
  | none =>
    rw [show freeSrc { s with openFds := insert socket s.openFds } = none from hfree] at hstep
    cases hstep
    unfold SelectServer.destroy clCommchnlDestroy
    dsimp only
    rw [if_pos rfl, Finset.erase_insert hnew]
    exact Or.inl ⟨rfl, rfl⟩
  | some i =>
    rw [show freeSrc { s with openFds := insert socket s.openFds } = some i from hfree] at hstep
    cases hstep
    exact Or.inr ⟨i, rfl, rfl⟩

/-- A handshake fails on a channel that no active event source has: the worker has closed its descriptor. -/
theorem SelectInv.handshakeFailed (h : SelectInv s) {c : Commchnl} (hthread : s.thread = .handshake c)
    (hno : ∀ i, s.Active i → clCommchnlGetFd (s.srcs i).commchnl ≠ c.socket) :
    SelectInv { s.destroy c with thread := .idle } := by
  have hclosed : c.socket ∉ s.openFds := by
    intro hmem
    obtain ⟨i, hi, rfl⟩ := (h.copy c hthread).2 hmem
    exact hno i hi (h.getFd hi)
  unfold SelectServer.destroy clCommchnlDestroy
  rw [if_pos (h.copy c hthread).1]
  dsimp only
  rw [Finset.erase_eq_of_notMem hclosed]
  exact h.thread (by simp)

/-- A receive fails: the event source waits for the worker to close it. -/
theorem SelectInv.receiveFailed (h : SelectInv s) (hthread : s.thread = .handling i) :
    SelectInv { s.setSrc i { s.srcs i with state := .terminating } with thread := .idle } := by
  have hset : SelectInv (s.setSrc i { s.srcs i with state := .terminating }) := by
    refine h.retire (by simp) (fun _ => rfl) (fun hinited => h.isOpen i hinited) (fun j _ hj => h.isOpen j hj) ?_
    intro c hc
    rw [hthread] at hc
    cases hc
  exact hset.thread (by simp)

/-- **The steps that keep the invariant.** -/
theorem selectStep_inv {e : SelectStep} (h : SelectInv s) (hkeeps : KeepsOpen s e)
    (hstep : selectStep s e = some s') : SelectInv s' := by
  cases e with
  | select i =>
    rw [selectStep] at hstep
    split at hstep
    · cases hstep
      exact h.thread (by simp)
    · cases hstep
  | accept socket =>
    rw [selectStep] at hstep
    split at hstep
    · split at hstep
      · cases socket with
        | none =>
          cases hstep
          exact h.thread (by simp)
        | some socket =>
          obtain ⟨hnew, ⟨-, rfl⟩ | ⟨i, hfree, rfl⟩⟩ := acceptStep_some hstep
          · exact h.thread (by simp)
          · exact h.add hnew (hkeeps (by rw [hfree]; simp)) .clientHandler
      · cases hstep
    · cases hstep
  | handshake ok =>
    rw [selectStep] at hstep
    split at hstep
    · rename_i c hthread
      unfold handshakeStep at hstep
      cases ok with
      | true =>
        rw [if_pos rfl] at hstep
        split at hstep
        · cases hstep
          exact h.thread (by simp)
        · cases hstep
      | false =>
        rw [if_neg (by simp)] at hstep
        cases hstep
        exact h.handshakeFailed hthread (hkeeps c hthread)
    · cases hstep
  | receive fails =>
    rw [selectStep] at hstep
    split at hstep
    · rename_i i hthread
      split at hstep
      · unfold receiveStep at hstep
        split at hstep
        · cases hstep
          exact h.receiveFailed hthread
        · split at hstep
          · cases hstep
            exact h.thread (by simp)
          · cases hstep
      · cases hstep
    · cases hstep
  | close i =>
    rw [selectStep] at hstep
    split at hstep
    · cases hstep
      exact h.close i
    · cases hstep

/-- **The steps that break the property**, from the states of the invariant. -/
theorem selectStep_breaks {e : SelectStep} (h : SelectInv s) (hbreaks : ¬KeepsOpen s e)
    (hstep : selectStep s e = some s') : ¬OpenChannels s' := by
  intro hopen
  cases e with
  | accept socket =>
    cases socket with
    | none => exact hbreaks trivial
    | some socket =>
      obtain ⟨hroom, hge⟩ := Classical.not_imp.mp hbreaks
      rw [selectStep] at hstep
      split at hstep
      · split at hstep
        · obtain ⟨-, ⟨hnone, -⟩ | ⟨i, -, rfl⟩⟩ := acceptStep_some hstep
          · exact hroom hnone
          · -- the descriptor is not in the select set
            have hmem := (hopen.fdsIn socket).mpr ⟨i, by
              unfold SelectServer.Active
              rw [setSrc_self], by
              rw [setSrc_self]
              rfl⟩
            exact hge (mem_updateFdSets.1.mp hmem).1
        · cases hstep
      · cases hstep
  | handshake ok =>
    cases ok with
    | true => exact hbreaks trivial
    | false =>
      have hsome : ∃ c, s.thread = .handshake c ∧ ∃ i, s.Active i ∧
          clCommchnlGetFd (s.srcs i).commchnl = c.socket := by
        by_contra hnone
        exact hbreaks fun c hc i hi heq => hnone ⟨c, hc, i, hi, heq⟩
      obtain ⟨c, hc, i, hi, heq⟩ := hsome
      rw [selectStep, hc] at hstep
      cases hstep
      have hmem := (hopen.isOpen i hi).2
      unfold SelectServer.destroy clCommchnlDestroy at hmem
      rw [if_pos (h.copy c hc).1] at hmem
      dsimp only at hmem
      rw [← h.getFd hi, heq] at hmem
      exact Finset.notMem_erase _ _ hmem
  | select i => exact hbreaks trivial
  | receive fails => exact hbreaks trivial
  | close i => exact hbreaks trivial

end

/-! ## All runs -/

/-- The invariant holds when the server starts. -/
theorem selectInv_start {socket : Nat} (h : socket < FD_SETSIZE) : SelectInv (startServer socket) := by
  have hself : (startServer socket).srcs serverSrc = ⟨.active, ⟨true, socket⟩, some .acceptConnection⟩ :=
    setSrc_self ..
  have hother : ∀ i, i ≠ serverSrc → (startServer socket).srcs i = ⟨.notActive, ⟨false, 0⟩, none⟩ :=
    fun i hi => setSrc_of_ne _ hi _
  have honly : ∀ i, ((startServer socket).srcs i).commchnl.inited = true → i = serverSrc := by
    intro i hi
    by_contra hne
    rw [hother i hne] at hi
    cases hi
  refine ⟨rfl, fun i hi => ?_, fun i hi => ?_, fun i j hi hj _ => ?_, fun c hc => ?_⟩
  · by_cases hne : i = serverSrc
    · rw [hne, hself]
      exact ⟨rfl, h⟩
    · unfold SelectServer.Active at hi
      rw [hother i hne] at hi
      cases hi
  · rw [honly i hi, hself]
    exact Finset.mem_singleton_self _
  · rw [honly i hi, honly j hj]
  · cases hc

/-- **The select set.**  In every run of the two threads, the select set has only open channels in every
state if and only if an `fd_set` holds the descriptor of the server and those that are added to the table,
and a handshake fails only if the worker has closed its event source. -/
theorem open_channels_iff (socket : Nat) (steps : List SelectStep) (s : SelectServer)
    (hrun : run selectStep (startServer socket) steps = some s) :
    Throughout selectStep OpenChannels (startServer socket) steps ↔
      socket < FD_SETSIZE ∧ AllMeet selectStep KeepsOpen (startServer socket) steps := by
  by_cases hlt : socket < FD_SETSIZE
  · rw [and_iff_right hlt]
    exact throughout_iff_of_exact (fun _ h => h.openChannels) (fun h hm he => selectStep_inv h hm he)
      (fun h hm he => selectStep_breaks h hm he) steps (selectInv_start hlt) hrun
  · refine iff_of_false (fun hall => ?_) (fun h => hlt h.1)
    have hstart : OpenChannels (startServer socket) := by
      cases steps with
      | nil => exact hall
      | cons _ _ => exact hall.1
    have hmem := (hstart.fdsIn socket).mpr ⟨serverSrc, rfl, rfl⟩
    exact hlt (mem_updateFdSets.1.mp hmem).1

/-- A client connects and disconnects, and the worker closes its event source. -/
def sampleSteps : List SelectStep :=
  [.select serverSrc, .accept (some 5), .handshake true, .select ⟨1, by decide⟩, .receive true,
    .close ⟨1, by decide⟩]

/-- The server after these steps. -/
def sampleServer : SelectServer := (run selectStep (startServer 3) sampleSteps).getD (startServer 3)

theorem open_channels_iff_sample : Throughout selectStep OpenChannels (startServer 3) sampleSteps ↔
    3 < FD_SETSIZE ∧ AllMeet selectStep KeepsOpen (startServer 3) sampleSteps :=
  open_channels_iff 3 sampleSteps sampleServer (by
    have hsome : (run selectStep (startServer 3) sampleSteps).isSome = true := by decide +kernel
    obtain ⟨s, hs⟩ := Option.isSome_iff_exists.mp hsome
    unfold sampleServer
    rw [hs]
    rfl)

/-- **A client that is gone before the handshake** leaves a closed channel in the select set. -/
theorem failed_handshake_closed_channel :
    ¬∀ (socket : Nat) (steps : List SelectStep) (s : SelectServer),
      run selectStep (startServer socket) steps = some s → OpenChannels s := by
  intro h
  have hsome : (run selectStep (startServer 3) [.select serverSrc, .accept (some 5), .handshake false]).isSome =
      true := by decide +kernel
  obtain ⟨s, hs⟩ := Option.isSome_iff_exists.mp hsome
  have hchannel := (h 3 _ s hs).isOpen ⟨1, by decide⟩
  have hgone : ∀ t ∈ run selectStep (startServer 3) [.select serverSrc, .accept (some 5), .handshake false],
      (t.srcs ⟨1, by decide⟩).state = .active ∧ (t.srcs ⟨1, by decide⟩).commchnl.socket ∉ t.openFds := by
    decide +kernel
  exact (hgone s hs).2 (hchannel (hgone s hs).1).2

end MlnxLib.SxRpc
