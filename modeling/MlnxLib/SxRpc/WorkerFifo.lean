import MlnxLib.SxRpc.EventSrcs

/-!
# The order of the work queues

The rings of the worker thread have no test for a full ring: a push takes the next slot, whatever is in
it.  Each client has at most one request under way, but its disconnection pushes its event source again,
and the worker may be slow; so a ring of 20 slots fills up with ten clients.

* `waiting` — the event sources in a ring that the worker has not taken.
* `Room` — a push comes while there are fewer entries, pushed and not consumed, than the ring has slots,
  less one.
* `QueuesInv` — the invariant: what has been pushed is what has been taken and what waits.

Principal results: `fifo_of_room` — while every push has room, each ring hands over what is pushed into
it, each entry once and in its order; `ring_loses_entries` — the run of ten clients.
-/

set_option autoImplicit false

namespace MlnxLib.SxRpc

open CircularQueue Complib Runs

/-! ## What waits in a ring -/

/-- The worker has an entry of this ring in hand, which it has not yet consumed. -/
def inHand : DispatchPc → CmdPriority → Bool
  | .check _, _ => false
  | .taken b' _, b => b' = b
  | .replying b' _ _, b => b' = b
  | .closing b' _, b => b' = b
  | .finishing b', b => b' = b

/-- The event sources in a ring that the worker has not taken. -/
def waiting (s : Rpc) (b : CmdPriority) : List Nat :=
  (s.rings b).items.drop (inHand s.worker b).toNat

/-- The number of entries of a ring that the worker is through with. -/
def consumed (s : Rpc) (b : CmdPriority) : Nat := (s.taken b).length - (inHand s.worker b).toNat

/-- The event source that is to be pushed next. -/
def toQueue : SelectPc → Option Nat
  | .queue i _ => some i
  | _ => none

/-- A push has room: fewer entries than slots, less one, are pushed and not consumed. -/
def Room (commands : Commands) (s : Rpc) (e : RpcEvent) : Prop :=
  ∀ ok, e = .queue ok → ∀ i ∈ toQueue s.select,
    ∀ b ∈ queuePriority commands (CommandHead.ofBytes (s.srcs i).buffer).opcode,
      (s.pushed b).length < consumed s b + (workQueueSize b - 1)

instance (commands : Commands) (s : Rpc) (e : RpcEvent) : Decidable (Room commands s e) :=
  inferInstanceAs (Decidable (∀ ok, e = .queue ok → ∀ i ∈ toQueue s.select,
    ∀ b ∈ queuePriority commands (CommandHead.ofBytes (s.srcs i).buffer).opcode,
      (s.pushed b).length < consumed s b + (workQueueSize b - 1)))

/-- **A ring is a queue**: what has been pushed into it has been taken, in its order, or waits; and it
looks empty only when all of it is consumed. -/
structure Fifo (s : Rpc) : Prop where
  order : ∀ b, s.pushed b = s.taken b ++ waiting s b
  empty_iff : ∀ b, (s.rings b).cons = (s.rings b).prod ↔ (s.pushed b).length = consumed s b

/-! ## The invariant -/

/-- The invariant of the rings. -/
structure QueuesInv (s : Rpc) : Prop where
  size : ∀ b, (s.rings b).size = workQueueSize b
  order : ∀ b, s.pushed b = s.taken b ++ waiting s b
  hand : ∀ b, inHand s.worker b = true → (s.rings b).items ≠ [] ∧ s.taken b ≠ []

theorem queuesInv_open (buffers : Nat → List UInt8) : QueuesInv (openRpc buffers) where
  size b := size_openRings 0 b
  order b := by
    show [] = [] ++ (openRings 0 b).items.drop 0
    unfold openRings
    rw [RingBuffer.items_empty]
    rfl
  hand b h := by cases h

/-- Only the rings, the record of them and what the worker has in hand matter. -/
theorem QueuesInv.congr {s s' : Rpc} (h : QueuesInv s) (hrings : s'.rings = s.rings)
    (hpushed : s'.pushed = s.pushed) (htaken : s'.taken = s.taken)
    (hhand : ∀ b, inHand s'.worker b = inHand s.worker b) : QueuesInv s' where
  size b := by rw [hrings]; exact h.size b
  order b := by
    unfold waiting
    rw [hrings, hpushed, htaken, hhand]
    exact h.order b
  hand b hb := by
    rw [hhand] at hb
    rw [hrings, htaken]
    exact h.hand b hb

/-- The entries of a ring: those not taken, and the one in hand. -/
theorem QueuesInv.count_eq {s : Rpc} (h : QueuesInv s) (b : CmdPriority) :
    (s.pushed b).length = consumed s b + (s.rings b).count := by
  have horder := congrArg List.length (h.order b)
  unfold waiting at horder
  rw [List.length_append, List.length_drop, RingBuffer.length_items] at horder
  unfold consumed
  cases hhand : inHand s.worker b with
  | false =>
    rw [hhand] at horder
    exact horder
  | true =>
    obtain ⟨hitems, htaken⟩ := h.hand b hhand
    have hcount : 0 < (s.rings b).count := by
      rw [← RingBuffer.length_items]
      exact List.length_pos_iff.mpr hitems
    have hlen : 0 < (s.taken b).length := List.length_pos_iff.mpr htaken
    rw [hhand] at horder
    simp only [Bool.toNat_true] at horder ⊢
    omega

theorem QueuesInv.fifo {s : Rpc} (h : QueuesInv s) : Fifo s where
  order := h.order
  empty_iff b := by
    rw [← RingBuffer.count_eq_zero_iff, h.count_eq b]
    omega

/-- A push with room does not fill the ring up. -/
theorem QueuesInv.not_full {s : Rpc} (h : QueuesInv s) {b : CmdPriority}
    (hroom : (s.pushed b).length < consumed s b + (workQueueSize b - 1)) : ¬ (s.rings b).Full := by
  have hcount := h.count_eq b
  have hsize := h.size b
  rw [RingBuffer.full_iff]
  omega

/-! ## One step -/

/-- **A push** into a ring that has room. -/
theorem QueuesInv.push {s s' : Rpc} {b : CmdPriority} {i : Nat} (h : QueuesInv s)
    (hfull : ¬ (s.rings b).Full)
    (hrings : s'.rings = Function.update s.rings b ((s.rings b).push i))
    (hpushed : s'.pushed = Function.update s.pushed b (s.pushed b ++ [i]))
    (htaken : s'.taken = s.taken) (hworker : s'.worker = s.worker) : QueuesInv s' := by
  refine ⟨?_, ?_, ?_⟩
  · intro b'
    rw [hrings]
    by_cases hb : b' = b
    · subst hb
      rw [Function.update_self, RingBuffer.size_push]
      exact h.size b'
    · rw [Function.update_of_ne hb]
      exact h.size b'
  · intro b'
    unfold waiting
    rw [hrings, hpushed, htaken, hworker]
    by_cases hb : b' = b
    · subst hb
      have hle : (inHand s.worker b').toNat ≤ (s.rings b').items.length := by
        cases hhand : inHand s.worker b' with
        | false => exact Nat.zero_le _
        | true => exact List.length_pos_iff.mpr (h.hand b' hhand).1
      rw [Function.update_self, Function.update_self, RingBuffer.items_push i hfull,
        List.drop_append_of_le_length hle, ← List.append_assoc, h.order b']
      rfl
    · rw [Function.update_of_ne hb, Function.update_of_ne hb]
      exact h.order b'
  · intro b' hb'
    rw [hworker] at hb'
    obtain ⟨hitems, hne⟩ := h.hand b' hb'
    rw [hrings, htaken]
    refine ⟨?_, hne⟩
    by_cases hb : b' = b
    · subst hb
      rw [Function.update_self, RingBuffer.items_push i hfull]
      exact List.append_ne_nil_of_right_ne_nil _ (List.cons_ne_nil _ _)
    · rw [Function.update_of_ne hb]
      exact hitems

/-- The worker takes the oldest entry of a ring. -/
theorem QueuesInv.take {s s' : Rpc} {b b' : CmdPriority} (h : QueuesInv s) (hpc : s.worker = .check b')
    (hne : (s.rings b).cons ≠ (s.rings b).prod) (hrings : s'.rings = s.rings) (hpushed : s'.pushed = s.pushed)
    (htaken : s'.taken = Function.update s.taken b (s.taken b ++ [(s.rings b).front]))
    (hworker : s'.worker = .taken b (s.rings b).front) : QueuesInv s' := by
  have hitems := RingBuffer.items_pop hne
  have hfree : ∀ b'', s.pushed b'' = s.taken b'' ++ (s.rings b'').items := by
    intro b''
    have horder := h.order b''
    unfold waiting at horder
    rw [hpc] at horder
    exact horder
  refine ⟨fun b'' => by rw [hrings]; exact h.size b'', ?_, ?_⟩
  · intro b''
    unfold waiting
    rw [hrings, hpushed, htaken, hworker]
    by_cases hb : b'' = b
    · subst hb
      rw [Function.update_self, hfree b'', hitems]
      simp [inHand]
    · have hhand : inHand (.taken b (s.rings b).front) b'' = false := decide_eq_false (Ne.symm hb)
      rw [Function.update_of_ne hb, hhand]
      exact hfree b''
  · intro b'' hhand
    rw [hworker] at hhand
    have hb : b = b'' := of_decide_eq_true hhand
    subst hb
    rw [hrings, htaken, Function.update_self]
    refine ⟨?_, List.append_ne_nil_of_right_ne_nil _ (List.cons_ne_nil _ _)⟩
    rw [hitems]
    exact List.cons_ne_nil _ _

/-- The worker is through with its entry. -/
theorem QueuesInv.finish {s s' : Rpc} {b b' : CmdPriority} (h : QueuesInv s) (hpc : s.worker = .finishing b)
    (hrings : s'.rings = Function.update s.rings b (s.rings b).pop) (hpushed : s'.pushed = s.pushed)
    (htaken : s'.taken = s.taken) (hworker : s'.worker = .check b') : QueuesInv s' := by
  have hhand : inHand s.worker b = true := by
    rw [hpc]
    exact decide_eq_true rfl
  have hne : (s.rings b).cons ≠ (s.rings b).prod :=
    fun heq => (h.hand b hhand).1 ((s.rings b).items_eq_nil_iff.mpr heq)
  refine ⟨?_, ?_, ?_⟩
  · intro b''
    rw [hrings]
    by_cases hb : b'' = b
    · subst hb
      rw [Function.update_self, RingBuffer.size_pop]
      exact h.size b''
    · rw [Function.update_of_ne hb]
      exact h.size b''
  · intro b''
    have horder := h.order b''
    unfold waiting at horder ⊢
    rw [hrings, hpushed, htaken, hworker]
    by_cases hb : b'' = b
    · subst hb
      rw [hhand, RingBuffer.items_pop hne] at horder
      rw [Function.update_self]
      exact horder
    · have hother : inHand s.worker b'' = false := by
        rw [hpc]
        exact decide_eq_false (Ne.symm hb)
      rw [hother] at horder
      rw [Function.update_of_ne hb]
      exact horder
  · intro b'' hb
    rw [hworker] at hb
    cases hb

/-- What a step of a thread leaves as it is. -/
structure SameQueues (s s' : Rpc) : Prop where
  rings : s'.rings = s.rings
  pushed : s'.pushed = s.pushed
  taken : s'.taken = s.taken

theorem SameQueues.trans {s s' s'' : Rpc} (h : SameQueues s s') (h' : SameQueues s' s'') :
    SameQueues s s'' :=
  ⟨h'.rings.trans h.rings, h'.pushed.trans h.pushed, h'.taken.trans h.taken⟩

theorem clientReceive_queues {maxBufferSize i : Nat} {s s' : Rpc} {answers : List IoAnswer}
    (h : clientReceive maxBufferSize s i answers = some s') : SameQueues s s' ∧ s'.worker = s.worker := by
  unfold clientReceive at h
  split at h
  · split at h
    · cases h
      exact ⟨⟨rfl, rfl, rfl⟩, rfl⟩
    · cases h
  · split at h
    · cases h
    · obtain ⟨r, -, hr⟩ := Option.map_eq_some_iff.mp h
      split at hr
      · cases hr
        exact ⟨⟨rfl, rfl, rfl⟩, rfl⟩
      · split at hr
        · cases hr
          exact ⟨⟨rfl, rfl, rfl⟩, rfl⟩
        · cases hr
          exact ⟨⟨rfl, rfl, rfl⟩, rfl⟩

theorem sendReply_queues {i : Nat} {origin : Option Nat} {ok : Bool} {s s' : Rpc}
    (h : sendReply s i origin ok = some s') : SameQueues s s' ∧ s'.worker = s.worker := by
  unfold sendReply at h
  split at h
  · split at h
    · cases h
    · cases h
      exact ⟨⟨rfl, rfl, rfl⟩, rfl⟩
  · split at h
    · cases h
      exact ⟨⟨rfl, rfl, rfl⟩, rfl⟩
    · split at h
      · cases h
      · cases h
        exact ⟨⟨rfl, rfl, rfl⟩, rfl⟩

theorem closeSocket_queues (s : Rpc) (socket : Nat) :
    SameQueues s (closeSocket s socket) ∧ (closeSocket s socket).worker = s.worker := by
  unfold closeSocket
  split <;> exact ⟨⟨rfl, rfl, rfl⟩, rfl⟩

theorem closeEventSrc_queues (s : Rpc) (i : Nat) : SameQueues s (closeEventSrc s i) := by
  unfold closeEventSrc
  split
  · exact ⟨rfl, rfl, rfl⟩
  · split
    · obtain ⟨⟨hrings, hpushed, htaken⟩, -⟩ := closeSocket_queues s (s.srcs i).socket
      exact ⟨hrings, hpushed, htaken⟩
    · exact ⟨rfl, rfl, rfl⟩

theorem acceptConnection_queues {s s' : Rpc} {socket : Nat} (h : acceptConnection s socket = some s') :
    SameQueues s s' ∧ s'.worker = s.worker := by
  unfold acceptConnection at h
  split at h
  · cases h
  · split at h
    · cases h
    · split at h <;> cases h <;> exact ⟨⟨rfl, rfl, rfl⟩, rfl⟩

theorem handshake_queues {s s' : Rpc} {socket : Nat} {ok : Bool} (h : handshake s socket ok = some s') :
    SameQueues s s' ∧ s'.worker = s.worker := by
  unfold handshake at h
  split at h
  · split at h
    · cases h
    · cases h
      exact ⟨⟨rfl, rfl, rfl⟩, rfl⟩
  · split at h
    · cases h
      exact ⟨⟨rfl, rfl, rfl⟩, rfl⟩
    · split at h
      · cases h
      · cases h
        obtain ⟨⟨hrings, hpushed, htaken⟩, hworker⟩ := closeSocket_queues s socket
        exact ⟨⟨hrings, hpushed, htaken⟩, hworker⟩

theorem SameQueues.inv {s s' : Rpc} (h : SameQueues s s') (hinv : QueuesInv s)
    (hhand : ∀ b, inHand s'.worker b = inHand s.worker b) : QueuesInv s' :=
  hinv.congr h.rings h.pushed h.taken hhand

theorem clientQueue_inv {commands : Commands} {s s' : Rpc} {i : Nat} {origin : Option Nat} {ok : Bool}
    (hinv : QueuesInv s)
    (hroom : ∀ b, queuePriority commands (CommandHead.ofBytes (s.srcs i).buffer).opcode = some b →
      (s.pushed b).length < consumed s b + (workQueueSize b - 1))
    (h : clientQueue commands s i origin ok = some s') : QueuesInv s' := by
  unfold clientQueue at h
  split at h
  · obtain ⟨s₁, hsend, rfl⟩ := Option.map_eq_some_iff.mp h
    obtain ⟨⟨hrings, hpushed, htaken⟩, hworker⟩ := sendReply_queues hsend
    exact hinv.congr hrings hpushed htaken fun b => congrArg (inHand · b) hworker
  · rename_i b hb
    cases h
    exact hinv.push (hinv.not_full (hroom b hb)) rfl rfl rfl rfl

theorem dispatchStep_inv {commands : Commands} {s s' : Rpc} (hinv : QueuesInv s)
    (h : dispatchStep commands s = some s') : QueuesInv s' := by
  unfold dispatchStep at h
  split at h
  · rename_i b hpc
    split at h
    · rename_i hne
      cases h
      exact hinv.take hpc hne rfl rfl rfl rfl
    · cases h
      refine hinv.congr rfl rfl rfl fun b' => ?_
      rw [hpc]
      rfl
  · -- a look at the command leaves the entry in hand
    rename_i b i hpc
    have hhand : ∀ b', inHand s.worker b' = decide (b = b') := fun b' => by rw [hpc]; rfl
    split at h
    · cases h
      exact hinv.congr rfl rfl rfl fun b' => (hhand b').symm
    · cases h
      exact hinv.congr rfl rfl rfl fun b' => (hhand b').symm
    · cases h
      have hcall : ∀ origin command, SameQueues s (callCallback s origin command) := by
        intro origin command
        unfold callCallback
        split <;> exact ⟨rfl, rfl, rfl⟩
      obtain ⟨hrings, hpushed, htaken⟩ := hcall _ _
      exact hinv.congr hrings hpushed htaken fun b' => (hhand b').symm
  · cases h
  · rename_i b i hpc
    cases h
    obtain ⟨hrings, hpushed, htaken⟩ := closeEventSrc_queues s i
    refine hinv.congr hrings hpushed htaken fun b' => ?_
    rw [hpc]
    rfl
  · rename_i b hpc
    cases h
    exact hinv.finish hpc rfl rfl rfl rfl

theorem dispatchReply_inv {s s' : Rpc} {ok : Bool} (hinv : QueuesInv s) (h : dispatchReply s ok = some s') :
    QueuesInv s' := by
  unfold dispatchReply at h
  split at h
  · rename_i b i origin hpc
    obtain ⟨s₁, hsend, rfl⟩ := Option.map_eq_some_iff.mp h
    obtain ⟨⟨hrings, hpushed, htaken⟩, -⟩ := sendReply_queues hsend
    refine hinv.congr hrings hpushed htaken fun b' => ?_
    rw [hpc]
    cases ok <;> rfl
  · cases h

/-- **Each step that has room keeps the rings.** -/
theorem rpcStep_queuesInv {maxBufferSize : Nat} {commands : Commands} {s s' : Rpc} {e : RpcEvent}
    (hinv : QueuesInv s) (hroom : Room commands s e)
    (h : rpcStep maxBufferSize commands s e = some s') : QueuesInv s' := by
  have hsame : SameQueues s s' ∧ s'.worker = s.worker → QueuesInv s' :=
    fun h => h.1.inv hinv fun b => congrArg (inHand · b) h.2
  cases e with
  | connect =>
    rw [rpcStep] at h
    cases h
    exact hsame ⟨⟨rfl, rfl, rfl⟩, rfl⟩
  | send c request =>
    rw [rpcStep] at h
    split at h <;> cases h
    exact hsame ⟨⟨rfl, rfl, rfl⟩, rfl⟩
  | disconnect c keep =>
    rw [rpcStep] at h
    split at h <;> cases h
    exact hsame ⟨⟨rfl, rfl, rfl⟩, rfl⟩
  | select i =>
    rw [rpcStep] at h
    split at h <;> cases h
    exact hsame ⟨⟨rfl, rfl, rfl⟩, rfl⟩
  | receive answers =>
    rw [rpcStep] at h
    split at h
    · split at h
      · cases h
      · exact hsame (clientReceive_queues h)
    · cases h
  | queue ok =>
    rw [rpcStep] at h
    split at h
    · rename_i i origin hpc
      have hi : i ∈ toQueue s.select := by
        rw [hpc]
        exact Option.mem_some_self i
      exact clientQueue_inv hinv (fun b hb => hroom ok rfl i hi b (Option.mem_def.mpr hb)) h
    · cases h
  | accept socket =>
    rw [rpcStep] at h
    split at h
    · exact hsame (acceptConnection_queues h)
    · cases h
  | handshake ok =>
    rw [rpcStep] at h
    split at h
    · exact hsame (handshake_queues h)
    · cases h
  | worker =>
    rw [rpcStep] at h
    exact dispatchStep_inv hinv h
  | reply ok =>
    rw [rpcStep] at h
    exact dispatchReply_inv hinv h

/-! ## All runs -/

/-- **While every push has room, the rings are queues**: in every run of the threads and the clients,
whatever the order of their steps. -/
theorem fifo_of_room (maxBufferSize : Nat) (commands : Commands) (buffers : Nat → List UInt8)
    (events : List RpcEvent) (s : Rpc)
    (hroom : AllMeet (rpcStep maxBufferSize commands) (Room commands) (openRpc buffers) events)
    (hrun : run (rpcStep maxBufferSize commands) (openRpc buffers) events = some s) : Fifo s :=
  (invariant (I := QueuesInv) (fun hinv hm h => rpcStep_queuesInv hinv hm h) events
    (queuesInv_open buffers) hroom hrun).fifo

/-- A request of 20 bytes. -/
def bareRequest : List UInt8 := (⟨7, 0, 20, 0, 0⟩ : CommandHead).bytes

/-- A client connects, is accepted and sends a request, which the select thread pushes. -/
def requestOf (c : Nat) : List RpcEvent :=
  [.connect, .select 0, .accept (c + 5), .handshake true, .send c bareRequest, .select (c + 1),
    .receive [.bytes 19], .queue true]

/-- The client disconnects, and the select thread pushes its event source once more. -/
def disconnectOf (c : Nat) : List RpcEvent :=
  [.disconnect c 0, .select (c + 1), .receive [.zero], .queue true]

/-- Two requests in one ring, and the worker takes the first. -/
theorem fifo_of_room_two : ∃ s, run (rpcStep 20 fun _ => some .high)
    (openRpc fun _ => List.replicate 20 0) (requestOf 0 ++ requestOf 1 ++ [.worker]) = some s ∧
    (waiting s .high).length = 1 ∧ (s.taken .high).length = 1 ∧ Fifo s := by
  refine ⟨_, rfl, ?_, ?_, fifo_of_room 20 (fun _ => some .high) (fun _ => List.replicate 20 0)
    (requestOf 0 ++ requestOf 1 ++ [.worker]) _ ?_ rfl⟩
  all_goals decide +kernel

/-- **A ring loses its entries**: ten clients have a request each under way and disconnect before the
worker takes the first of them.  The last push makes the ring look empty. -/
theorem ring_loses_entries : ∃ s, run (rpcStep 20 fun _ => some .high)
    (openRpc fun _ => List.replicate 20 0)
    ((List.range 10).flatMap requestOf ++ (List.range 10).flatMap disconnectOf) = some s ∧
    s.numConns = 10 ∧ (s.pushed .high).length = 20 ∧ s.taken .high = [] ∧ (s.rings .high).items = [] ∧
    ¬ Fifo s := by
  have hrun : (run (rpcStep 20 fun _ => some .high) (openRpc fun _ => List.replicate 20 0)
      ((List.range 10).flatMap requestOf ++ (List.range 10).flatMap disconnectOf)).map
        (fun s => (s.numConns, (s.pushed .high).length, s.taken .high, (s.rings .high).cons,
          (s.rings .high).prod)) = some (10, 20, [], 0, 0) := by
    decide +kernel
  obtain ⟨s, hs, hsummary⟩ := Option.map_eq_some_iff.mp hrun
  obtain ⟨hconns, hpushed, htaken, hcons, hprod⟩ : s.numConns = 10 ∧ (s.pushed .high).length = 20 ∧
      s.taken .high = [] ∧ (s.rings .high).cons = 0 ∧ (s.rings .high).prod = 0 := by
    simpa only [Prod.mk.injEq] using hsummary
  have hempty : (s.rings .high).cons = (s.rings .high).prod := hcons.trans hprod.symm
  refine ⟨s, hs, hconns, hpushed, htaken, (s.rings .high).items_eq_nil_iff.mpr hempty, ?_⟩
  intro hfifo
  have hcount := (hfifo.empty_iff .high).mp hempty
  unfold consumed at hcount
  rw [hpushed, htaken, List.length_nil, Nat.zero_sub] at hcount
  cases hcount

end MlnxLib.SxRpc
