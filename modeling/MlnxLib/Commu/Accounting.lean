import MlnxLib.Commu.Udp

/-!
# The byte counters

A session counts the bytes that the kernel took from it and gave to it.  The loops over `send` and `recv`
update the counter once, at `bail`, from a running total; a message over TCP is two such loops.

* `bytesMoved` — the bytes of a sequence of kernel calls.
* `Counted db db' loc sent received` — the counters of the session at `loc` grew, and nothing else did.
* `ExactAccounting` — the account of the four calls of the API.

Principal results: `sendLoop_account`, `recvLoop_account` — every exit of a loop has the total of its calls;
`byte_accounting` — for every session and every sequence of kernel results, the counters grow by the bytes
moved, and no loop makes more than 500 calls.
-/

set_option autoImplicit false

namespace MlnxLib.Commu

/-! ## What the kernel moved -/

/-- The bytes that a call of the kernel moved. -/
def IoResult.moved : IoResult → Nat
  | .bytes n => n
  | .error _ => 0

/-- The bytes that a sequence of calls moved. -/
def bytesMoved (calls : List IoResult) : Nat := (calls.map IoResult.moved).sum

@[simp] theorem bytesMoved_nil : bytesMoved [] = 0 := rfl

@[simp] theorem bytesMoved_cons (r : IoResult) (calls : List IoResult) :
    bytesMoved (r :: calls) = r.moved + bytesMoved calls := rfl

/-- The bytes that a sequence of `recvfrom` put into the local buffer. -/
def bytesDelivered (calls : List RecvfromResult) : Nat :=
  (calls.map fun answer => (answer.received MAX_MTU).length).sum

/-! ## The loops -/

/-- A loop was given these results, and left some: the calls in between, with their bytes. -/
structure LoopAccount (results rest : List IoResult) (before repeated total : Nat) (calls : List IoResult) :
    Prop where
  split : results = calls ++ rest
  few : repeated + calls.length ≤ 500
  total : total = before + bytesMoved calls

section

variable {results rest calls : List IoResult} {before repeated total : Nat}

/-- A loop that makes no call. -/
theorem LoopAccount.stop (h : repeated ≤ 500) : LoopAccount results results before repeated before [] :=
  ⟨rfl, h, rfl⟩

/-- A call that ends the loop, and moves nothing. -/
theorem LoopAccount.fail {r : IoResult} (hmoved : r.moved = 0) (h : repeated + 1 ≤ 500) :
    LoopAccount (r :: rest) rest before repeated before [r] := by
  refine ⟨rfl, h, ?_⟩
  rw [bytesMoved_cons, hmoved, bytesMoved_nil]
  omega

/-- A call, and the rest of the loop. -/
theorem LoopAccount.next {n : Nat} (h : LoopAccount results rest (before + n) (repeated + 1) total calls) :
    LoopAccount (.bytes n :: results) rest before repeated total (.bytes n :: calls) := by
  have hfew := h.few
  refine ⟨by rw [h.split, List.cons_append], by rw [List.length_cons]; omega, ?_⟩
  rw [h.total, bytesMoved_cons, IoResult.moved]
  omega

/-- **The loop over `send`**, whatever its exit. -/
theorem sendLoop_account (buffer : List UInt8) : ∀ (results : List IoResult) (repeated before : Nat)
    (sent : List UInt8), repeated ≤ 500 → ∀ {r : LlSend}, sendLoop buffer results repeated before sent = some r →
      ∃ calls, LoopAccount results r.results before repeated r.totalBytes calls := by
  intro results
  induction results with
  | nil =>
    intro repeated before sent hrep r hr
    unfold sendLoop at hr
    split at hr
    · split at hr
      · obtain rfl := Option.some.inj hr
        exact ⟨[], .stop hrep⟩
      · cases hr
    · obtain rfl := Option.some.inj hr
      exact ⟨[], .stop hrep⟩
  | cons res results ih =>
    intro repeated before sent hrep r hr
    unfold sendLoop at hr
    split at hr
    · split at hr
      · obtain rfl := Option.some.inj hr
        exact ⟨[], .stop hrep⟩
      · rename_i hmore
        have hnext : repeated + 1 ≤ 500 := Nat.lt_of_le_of_ne hrep hmore
        cases res with
        | error errno =>
          obtain rfl := Option.some.inj hr
          exact ⟨_, .fail rfl hnext⟩
        | bytes n =>
          obtain ⟨calls, hcalls⟩ := ih (repeated + 1) (before + n) _ hnext hr
          exact ⟨_, hcalls.next⟩
    · obtain rfl := Option.some.inj hr
      exact ⟨[], .stop hrep⟩

/-- **The loop over `recv`**, whatever its exit. -/
theorem recvLoop_account (bufferLen : Nat) : ∀ (results : List IoResult) (repeated before : Nat)
    (received stream : List UInt8), repeated ≤ 500 →
    ∀ {r : LlRecv}, recvLoop bufferLen results repeated before received stream = some r →
      ∃ calls, LoopAccount results r.results before repeated r.totalBytes calls := by
  intro results
  induction results with
  | nil =>
    intro repeated before received stream hrep r hr
    unfold recvLoop at hr
    split at hr
    · split at hr
      · obtain rfl := Option.some.inj hr
        exact ⟨[], .stop hrep⟩
      · cases hr
    · obtain rfl := Option.some.inj hr
      exact ⟨[], .stop hrep⟩
  | cons res results ih =>
    intro repeated before received stream hrep r hr
    unfold recvLoop at hr
    split at hr
    · split at hr
      · obtain rfl := Option.some.inj hr
        exact ⟨[], .stop hrep⟩
      · rename_i hmore
        have hnext : repeated + 1 ≤ 500 := Nat.lt_of_le_of_ne hrep hmore
        cases res with
        | error errno =>
          obtain rfl := Option.some.inj hr
          exact ⟨_, .fail rfl hnext⟩
        | bytes n =>
          dsimp only at hr
          split at hr
          · rename_i hzero
            obtain rfl := Option.some.inj hr
            exact ⟨_, .fail hzero hnext⟩
          · obtain ⟨calls, hcalls⟩ := ih (repeated + 1) (before + n) _ _ hnext hr
            exact ⟨_, hcalls.next⟩
    · obtain rfl := Option.some.inj hr
      exact ⟨[], .stop hrep⟩

/-- 500 results are enough for a loop to end. -/
theorem sendLoop_returns (buffer : List UInt8) : ∀ (results : List IoResult) (repeated before : Nat)
    (sent : List UInt8), repeated ≤ 500 → 500 ≤ repeated + results.length →
      (sendLoop buffer results repeated before sent).isSome
  | [], repeated, before, sent, hrep, hlen => by
    have hlast : repeated = SEND_REPEAT_NUM := Nat.le_antisymm hrep hlen
    unfold sendLoop
    rw [if_pos hlast]
    split <;> rfl
  | res :: results, repeated, before, sent, hrep, hlen => by
    unfold sendLoop
    split
    · split
      · rfl
      · rename_i hmore
        have hnext : repeated + 1 ≤ 500 := Nat.lt_of_le_of_ne hrep hmore
        rw [List.length_cons] at hlen
        cases res with
        | error errno => rfl
        | bytes n => exact sendLoop_returns buffer results (repeated + 1) _ _ hnext (by omega)
    · rfl

theorem recvLoop_returns (bufferLen : Nat) : ∀ (results : List IoResult) (repeated before : Nat)
    (received stream : List UInt8), repeated ≤ 500 → 500 ≤ repeated + results.length →
      (recvLoop bufferLen results repeated before received stream).isSome
  | [], repeated, before, received, stream, hrep, hlen => by
    have hlast : repeated = RECV_REPEAT_NUM := Nat.le_antisymm hrep hlen
    unfold recvLoop
    rw [if_pos hlast]
    split <;> rfl
  | res :: results, repeated, before, received, stream, hrep, hlen => by
    unfold recvLoop
    split
    · split
      · rfl
      · rename_i hmore
        have hnext : repeated + 1 ≤ 500 := Nat.lt_of_le_of_ne hrep hmore
        rw [List.length_cons] at hlen
        cases res with
        | error errno => rfl
        | bytes n =>
          dsimp only
          split
          · rfl
          · exact recvLoop_returns bufferLen results (repeated + 1) _ _ _ hnext (by omega)
    · rfl

end

/-! ## One session -/

/-- **The counters of the session at `loc` grew** by what it sent and received.  The other records and the
handles are as before. -/
structure Counted (db db' : Db) (loc : InfoLoc) (sent received : Nat) : Prop where
  tx : (db'.info loc).socektInfo.totalSumBytesTx =
    (db.info loc).socektInfo.totalSumBytesTx + UInt64.ofNat sent
  rx : (db'.info loc).socektInfo.totalSumBytesRx =
    (db.info loc).socektInfo.totalSumBytesRx + UInt64.ofNat received
  others : ∀ loc', loc' ≠ loc → db'.info loc' = db.info loc'
  handle : (db'.info loc).handle = (db.info loc).handle
  status : db'.serverStatusSt = db.serverStatusSt

/-- A session that the lookups find. -/
structure Found (db : Db) (handle : Handle) (loc : InfoLoc) : Prop where
  once : HandlesOnce db
  live : Live db handle loc
  visible : db.visible loc

section

variable {db db' db'' : Db} {handle : Handle} {loc : InfoLoc} {t : DbType}

theorem Counted.refl (db : Db) (loc : InfoLoc) : Counted db db loc 0 0 :=
  ⟨(UInt64.add_zero _).symm, (UInt64.add_zero _).symm, fun _ _ => rfl, rfl, rfl⟩

theorem Counted.trans {sent received sent' received' : Nat} (h : Counted db db' loc sent received)
    (h' : Counted db' db'' loc sent' received') : Counted db db'' loc (sent + sent') (received + received') where
  tx := by rw [h'.tx, h.tx, UInt64.ofNat_add, UInt64.add_assoc]
  rx := by rw [h'.rx, h.rx, UInt64.ofNat_add, UInt64.add_assoc]
  others loc' hne := (h'.others loc' hne).trans (h.others loc' hne)
  handle := h'.handle.trans h.handle
  status := h'.status.trans h.status

/-- A record with the same handle and grown counters. -/
theorem Counted.setInfo {x : HandleInfo} {sent received : Nat} (hhandle : x.handle = (db.info loc).handle)
    (htx : x.socektInfo.totalSumBytesTx = (db.info loc).socektInfo.totalSumBytesTx + UInt64.ofNat sent)
    (hrx : x.socektInfo.totalSumBytesRx = (db.info loc).socektInfo.totalSumBytesRx + UInt64.ofNat received) :
    Counted db (db.setInfo loc x) loc sent received := by
  have hself : (db.setInfo loc x).info loc = x := by
    rw [info_setInfo]
    exact if_pos rfl
  refine ⟨by rw [hself]; exact htx, by rw [hself]; exact hrx, ?_, by rw [hself]; exact hhandle, status_setInfo ..⟩
  intro loc' hne
  rw [info_setInfo]
  exact if_neg hne

theorem Counted.handles {sent received : Nat} (h : Counted db db' loc sent received) (loc' : InfoLoc) :
    (db'.info loc').handle = (db.info loc').handle := by
  by_cases heq : loc' = loc
  · rw [heq]
    exact h.handle
  · rw [h.others loc' heq]

/-- The session is found as before. -/
theorem Counted.found {sent received : Nat} (h : Counted db db' loc sent received)
    (hfound : Found db handle loc) : Found db' handle loc where
  once := by
    intro loc₁ loc₂ hvalid heq
    rw [h.handles] at hvalid heq
    rw [h.handles] at heq
    exact hfound.once hvalid heq
  live := ⟨hfound.live.1, h.handle.trans hfound.live.2⟩
  visible := by
    have hvis := hfound.visible
    unfold Db.visible at hvis ⊢
    rw [h.status]
    exact hvis

/-- A lookup that searches the table of the session yields it. -/
theorem Found.get (h : Found db handle loc) (hcovers : t.Covers loc) :
    libCommuDbHanldeInfoGet db handle t = (0, some loc) := by
  cases hanldeInfoGet_cases db handle t with
  | hit loc' hresult hcovers' hvis' hholds =>
    have heq : loc' = loc := h.once (by rw [hholds]; exact h.live.1) (by rw [hholds, h.live.2])
    rw [hresult, heq]
  | miss hfailed habsent => exact absurd h.live.2 (habsent loc hcovers h.visible)

/-- A lookup of the handle of a session yields it, or fails. -/
theorem get_cases (honce : HandlesOnce db) (hlive : Live db handle loc) (t : DbType) :
    (t.Covers loc ∧ Found db handle loc ∧ libCommuDbHanldeInfoGet db handle t = (0, some loc)) ∨
      ∃ err, libCommuDbHanldeInfoGet db handle t = (err, none) := by
  obtain ⟨loc', hget⟩ | ⟨err, -, hget⟩ := hanldeInfoGet_result db handle t
  · cases hanldeInfoGet_cases db handle t with
    | hit loc'' hresult hcovers hvis hholds =>
      have heq : loc'' = loc := honce (by rw [hholds]; exact hlive.1) (by rw [hholds, hlive.2])
      rw [heq] at hresult hcovers hvis
      exact Or.inl ⟨hcovers, ⟨honce, hlive, hvis⟩, hresult⟩
    | miss hfailed habsent => exact absurd (congrArg Prod.fst hget) hfailed
  · exact Or.inr ⟨err, hget⟩

/-- **An update of a counter** of a session. -/
theorem Found.txUpdate (h : Found db handle loc) (hcovers : t.Covers loc) (n : Nat) :
    (handleTotalTxUpdate db handle t (UInt64.ofNat n)).1 = 0 ∧
      Counted db (handleTotalTxUpdate db handle t (UInt64.ofNat n)).2 loc n 0 := by
  unfold handleTotalTxUpdate
  rw [h.get hcovers]
  exact ⟨rfl, .setInfo rfl rfl (UInt64.add_zero _).symm⟩

theorem Found.rxUpdate (h : Found db handle loc) (hcovers : t.Covers loc) (n : Nat) :
    (handleTotalRxUpdate db handle t (UInt64.ofNat n)).1 = 0 ∧
      Counted db (handleTotalRxUpdate db handle t (UInt64.ofNat n)).2 loc 0 n := by
  unfold handleTotalRxUpdate
  rw [h.get hcovers]
  exact ⟨rfl, .setInfo rfl (UInt64.add_zero _).symm rfl⟩

end

/-! ## The calls below the API -/

/-- A loop below the API: its calls, at most 500, and the counters of the session. -/
structure LlAccount (db db' : Db) (loc : InfoLoc) (results rest calls : List IoResult) (sent received : Nat) :
    Prop where
  split : results = calls ++ rest
  few : calls.length ≤ 500
  counted : Counted db db' loc sent received

section

variable {db db' : Db} {handle : Handle} {loc : InfoLoc}

/-- **`comm_lib_tcp_ll_send_blocking`** counts what its calls sent, on every exit. -/
theorem llSend_account {t : DbType} (h : Found db handle loc) (hcovers : t.Covers loc) {buffer : List UInt8}
    {results : List IoResult} {r : LlSend}
    (hr : commLibTcpLlSendBlocking db handle buffer t results = some (r, db')) :
    ∃ calls, LlAccount db db' loc results r.results calls (bytesMoved calls) 0 := by
  obtain ⟨r', hloop, heq⟩ := Option.map_eq_some_iff.mp hr
  obtain ⟨calls, hcalls⟩ := sendLoop_account buffer results 0 0 [] (Nat.zero_le _) hloop
  have htotal : r'.totalBytes = bytesMoved calls := by rw [hcalls.total, Nat.zero_add]
  have hfew : calls.length ≤ 500 := by
    have hfew := hcalls.few
    omega
  obtain ⟨herr, hcounted⟩ := h.txUpdate hcovers r'.totalBytes
  split at heq
  · dsimp only at heq
    rw [if_neg (fun hbad => hbad.1 herr)] at heq
    obtain ⟨rfl, rfl⟩ := Prod.ext_iff.mp heq
    refine ⟨calls, hcalls.split, hfew, ?_⟩
    rw [← htotal]
    exact hcounted
  · rename_i hzero
    obtain ⟨rfl, rfl⟩ := Prod.ext_iff.mp heq
    refine ⟨calls, hcalls.split, hfew, ?_⟩
    rw [← htotal, Nat.eq_zero_of_not_pos hzero]
    exact .refl db loc

/-- **`comm_lib_tcp_ll_recv_blocking`** counts what its calls received, on every exit. -/
theorem llRecv_account (h : Found db handle loc) {bufferLen : Nat} {stream : List UInt8}
    {results : List IoResult} {r : LlRecv}
    (hr : commLibTcpLlRecvBlocking db handle bufferLen stream results = some (r, db')) :
    ∃ calls, LlAccount db db' loc results r.results calls 0 (bytesMoved calls) := by
  obtain ⟨r', hloop, heq⟩ := Option.map_eq_some_iff.mp hr
  obtain ⟨calls, hcalls⟩ := recvLoop_account bufferLen results 0 0 [] stream (Nat.zero_le _) hloop
  have htotal : r'.totalBytes = bytesMoved calls := by rw [hcalls.total, Nat.zero_add]
  have hfew : calls.length ≤ 500 := by
    have hfew := hcalls.few
    omega
  obtain ⟨herr, hcounted⟩ := h.rxUpdate (Or.inl rfl : DbType.Covers .any loc) r'.totalBytes
  split at heq
  · dsimp only at heq
    rw [if_neg (fun hbad => hbad.1 herr)] at heq
    obtain ⟨rfl, rfl⟩ := Prod.ext_iff.mp heq
    refine ⟨calls, hcalls.split, hfew, ?_⟩
    rw [← htotal]
    exact hcounted
  · rename_i hzero
    obtain ⟨rfl, rfl⟩ := Prod.ext_iff.mp heq
    refine ⟨calls, hcalls.split, hfew, ?_⟩
    rw [← htotal, Nat.eq_zero_of_not_pos hzero]
    exact .refl db loc

/-- **`comm_lib_udp_ll_send`** counts what its call sent. -/
theorem udpLlSend_account (h : Found db handle loc) (htable : DbType.Covers .udpHandle loc)
    (buffer : List UInt8) (answer : IoResult) :
    Counted db (commLibUdpLlSend db handle buffer answer).db loc (bytesMoved [answer]) 0 := by
  cases answer with
  | error errno => exact .refl db loc
  | bytes n =>
    have hmoved : bytesMoved [.bytes n] = n := Nat.add_zero n
    rw [hmoved]
    unfold commLibUdpLlSend
    dsimp only
    split
    · exact (h.txUpdate htable n).2
    · rename_i hzero
      rw [Nat.eq_zero_of_not_pos hzero]
      exact .refl db loc

/-- **`comm_lib_udp_ll_recv`** counts what its call put into the buffer. -/
theorem udpLlRecv_account (h : Found db handle loc) (htable : DbType.Covers .udpHandle loc)
    (addresserSt : AddrInfo) (answer : RecvfromResult) :
    Counted db (commLibUdpLlRecv db handle MAX_MTU addresserSt answer).db loc 0 (bytesDelivered [answer]) := by
  have hdelivered : bytesDelivered [answer] = (answer.received MAX_MTU).length := Nat.add_zero _
  rw [hdelivered]
  cases answer with
  | error errno => exact .refl db loc
  | datagram bytes addresser =>
    unfold commLibUdpLlRecv
    dsimp only
    split
    · exact (h.rxUpdate htable _).2
    · rename_i hzero
      rw [Nat.eq_zero_of_not_pos hzero]
      exact .refl db loc

/-- The check of a header counts nothing. -/
theorem header_counted (x : Incoming) (db : Db) (loc : InfoLoc) :
    Counted db (db.setInfo loc (x.validate (db.info loc)).2) loc 0 0 := by
  rw [validate_snd]
  split
  · exact .setInfo rfl (UInt64.add_zero _).symm (UInt64.add_zero _).symm
  · exact .setInfo rfl (UInt64.add_zero _).symm (UInt64.add_zero _).symm

end

/-! ## The API -/

/-- A call of the API: the kernel calls of its two loops, at most 500 in each, and the counters of the
session. -/
structure CallAccount (db db' : Db) (loc : InfoLoc) (results rest header payload : List IoResult)
    (sent received : Nat) : Prop where
  split : results = header ++ payload ++ rest
  headerCalls : header.length ≤ 500
  payloadCalls : payload.length ≤ 500
  counted : Counted db db' loc sent received

section

variable {db db' db'' db₁ db₂ : Db} {loc : InfoLoc} {results rest rest' header payload : List IoResult}
  {sent received sent' received' : Nat}

/-- A call that does not get to the kernel. -/
theorem CallAccount.none (db : Db) (loc : InfoLoc) (results : List IoResult) :
    CallAccount db db loc results results [] [] 0 0 :=
  ⟨rfl, Nat.zero_le _, Nat.zero_le _, .refl db loc⟩

/-- A call that ends after the header. -/
theorem LlAccount.header_only (h : LlAccount db db' loc results rest header sent received) :
    CallAccount db db' loc results rest header [] sent received :=
  ⟨by rw [h.split, List.append_nil], h.few, Nat.zero_le _, h.counted⟩

/-- A call that moves the header and then the payload; what is in between counts nothing. -/
theorem LlAccount.then (h : LlAccount db db₁ loc results rest header sent received)
    (hmid : Counted db₁ db₂ loc 0 0) (h' : LlAccount db₂ db' loc rest rest' payload sent' received') :
    CallAccount db db' loc results rest' header payload (sent + sent') (received + received') := by
  refine ⟨by rw [h.split, h'.split, List.append_assoc], h.few, h'.few, ?_⟩
  exact (h.counted.trans hmid).trans h'.counted

end

section

variable {lib : CommLib} {handle : Handle} {loc : InfoLoc}

/-- **`comm_lib_tcp_send_blocking`.** -/
theorem tcpSend_account (honce : HandlesOnce lib.db) (hlive : Live lib.db handle loc) {payload : List UInt8}
    {results : List IoResult} {r : SendResult} (hr : commLibTcpSendBlocking lib handle payload results = some r) :
    ∃ header body, CallAccount lib.db r.lib.db loc results r.results header body
      (bytesMoved header + bytesMoved body) 0 := by
  unfold commLibTcpSendBlocking at hr
  split at hr
  · obtain rfl := Option.some.inj hr
    exact ⟨[], [], .none ..⟩
  split at hr
  · obtain rfl := Option.some.inj hr
    exact ⟨[], [], .none ..⟩
  obtain ⟨-, hfound, hget⟩ | ⟨err, hget⟩ := get_cases honce hlive .any
  · rw [hget] at hr
    obtain ⟨h, hh, hr⟩ := Option.bind_eq_some_iff.mp hr
    obtain ⟨header, hheader⟩ := llSend_account hfound (Or.inr rfl) hh
    split at hr
    · obtain rfl := Option.some.inj hr
      exact ⟨header, [], hheader.header_only⟩
    · obtain ⟨p, hp, rfl⟩ := Option.map_eq_some_iff.mp hr
      obtain ⟨body, hbody⟩ := llSend_account (hheader.counted.found hfound) (Or.inr rfl) hp
      exact ⟨header, body, hheader.then (.refl _ _) hbody⟩
  · rw [hget] at hr
    obtain rfl := Option.some.inj hr
    exact ⟨[], [], .none ..⟩

/-- The counters do not depend on where the payload goes. -/
theorem recvMessage_ll {addresserSt : AddrInfo} {data : RecvPayloadData} {m : MsgMetadata}
    {stream : List UInt8} {results : List IoResult} {r : RecvResult}
    (hr : recvMessage lib handle addresserSt data m stream results = some r) :
    ∃ p, commLibTcpLlRecvBlocking lib.db handle m.payloadSize.toNat stream results = some (p, r.lib.db) ∧
      r.results = p.results := by
  obtain ⟨p, hp, rfl⟩ := Option.map_eq_some_iff.mp hr
  refine ⟨p.1, ?_⟩
  split
  · split
    · exact ⟨hp, rfl⟩
    · exact ⟨hp, rfl⟩
  · split
    · exact ⟨hp, rfl⟩
    · exact ⟨hp, rfl⟩

/-- **`comm_lib_tcp_recv_blocking`.** -/
theorem tcpRecv_account (honce : HandlesOnce lib.db) (hlive : Live lib.db handle loc) {addresserSt : AddrInfo}
    {data : RecvPayloadData} {maxMsgs : Nat} {stream : List UInt8} {results : List IoResult} {r : RecvResult}
    (hr : commLibTcpRecvBlocking lib handle addresserSt data maxMsgs stream results = some r) :
    ∃ header body, CallAccount lib.db r.lib.db loc results r.results header body
      0 (bytesMoved header + bytesMoved body) := by
  unfold commLibTcpRecvBlocking at hr
  split at hr
  · obtain rfl := Option.some.inj hr
    exact ⟨[], [], .none ..⟩
  dsimp only at hr
  split at hr
  · obtain rfl := Option.some.inj hr
    exact ⟨[], [], .none ..⟩
  split at hr
  · obtain rfl := Option.some.inj hr
    exact ⟨[], [], .none ..⟩
  obtain ⟨-, hfound, hget⟩ | ⟨err, hget⟩ := get_cases honce hlive .any
  · rw [hget] at hr
    dsimp only at hr
    split at hr
    · obtain rfl := Option.some.inj hr
      exact ⟨[], [], .none ..⟩
    obtain ⟨h, hh, hr⟩ := Option.bind_eq_some_iff.mp hr
    obtain ⟨header, hheader⟩ := llRecv_account hfound hh
    split at hr
    · obtain rfl := Option.some.inj hr
      exact ⟨header, [], hheader.header_only⟩
    split at hr
    · obtain rfl := Option.some.inj hr
      exact ⟨header, [], hheader.header_only⟩
    have hmid := header_counted ⟨MsgMetadata.ofBytes h.1.received, MAX_JUMBO_TCP_PAYLOAD⟩ h.2 loc
    split at hr
    · obtain rfl := Option.some.inj hr
      exact ⟨header, [], hheader.split.trans (by rw [List.append_nil]), hheader.few, Nat.zero_le _,
        hheader.counted.trans hmid⟩
    · obtain ⟨p, hp, hrest⟩ := recvMessage_ll hr
      obtain ⟨body, hbody⟩ := llRecv_account (hmid.found (hheader.counted.found hfound)) hp
      rw [hrest]
      exact ⟨header, body, hheader.then hmid hbody⟩
  · rw [hget] at hr
    obtain rfl := Option.some.inj hr
    exact ⟨[], [], .none ..⟩

/-- What the kernel may still answer after a loop. -/
theorem LlAccount.enough {db db' : Db} {results rest calls : List IoResult} {sent received : Nat}
    (h : LlAccount db db' loc results rest calls sent received) (hlen : 1000 ≤ results.length) :
    500 ≤ rest.length := by
  have hfew := h.few
  rw [h.split, List.length_append] at hlen
  omega

theorem llSend_returns (db : Db) (handle : Handle) (buffer : List UInt8) (t : DbType) {results : List IoResult}
    (hlen : 500 ≤ results.length) : ∃ r, commLibTcpLlSendBlocking db handle buffer t results = some r := by
  obtain ⟨r, hr⟩ := Option.isSome_iff_exists.mp
    (sendLoop_returns buffer results 0 0 [] (Nat.zero_le _) (by omega))
  exact ⟨_, Option.map_eq_some_iff.mpr ⟨r, hr, rfl⟩⟩

theorem llRecv_returns (db : Db) (handle : Handle) (bufferLen : Nat) (stream : List UInt8)
    {results : List IoResult} (hlen : 500 ≤ results.length) :
    ∃ r, commLibTcpLlRecvBlocking db handle bufferLen stream results = some r := by
  obtain ⟨r, hr⟩ := Option.isSome_iff_exists.mp
    (recvLoop_returns bufferLen results 0 0 [] stream (Nat.zero_le _) (by omega))
  exact ⟨_, Option.map_eq_some_iff.mpr ⟨r, hr, rfl⟩⟩

/-- **The two loops end** within their calls. -/
theorem tcpSend_returns (honce : HandlesOnce lib.db) (hlive : Live lib.db handle loc) (payload : List UInt8)
    {results : List IoResult} (hlen : 1000 ≤ results.length) :
    ∃ r, commLibTcpSendBlocking lib handle payload results = some r := by
  unfold commLibTcpSendBlocking
  split
  · exact ⟨_, rfl⟩
  split
  · exact ⟨_, rfl⟩
  obtain ⟨-, hfound, hget⟩ | ⟨err, hget⟩ := get_cases honce hlive .any
  · rw [hget]
    dsimp only
    obtain ⟨h, hh⟩ := llSend_returns lib.db handle
      (metadataSet MSG_VERSION payload.length (lib.db.info loc)).bytes loc.dbType (by omega : 500 ≤ results.length)
    obtain ⟨header, hheader⟩ := llSend_account hfound (Or.inr rfl) hh
    rw [hh, Option.bind_some]
    split
    · exact ⟨_, rfl⟩
    · obtain ⟨p, hp⟩ := llSend_returns h.2 handle payload loc.dbType (hheader.enough hlen)
      rw [hp]
      exact ⟨_, rfl⟩
  · rw [hget]
    exact ⟨_, rfl⟩

theorem tcpRecv_returns (honce : HandlesOnce lib.db) (hlive : Live lib.db handle loc) (addresserSt : AddrInfo)
    (data : RecvPayloadData) (maxMsgs : Nat) (stream : List UInt8) {results : List IoResult}
    (hlen : 1000 ≤ results.length) :
    ∃ r, commLibTcpRecvBlocking lib handle addresserSt data maxMsgs stream results = some r := by
  unfold commLibTcpRecvBlocking
  split
  · exact ⟨_, rfl⟩
  dsimp only
  split
  · exact ⟨_, rfl⟩
  split
  · exact ⟨_, rfl⟩
  obtain ⟨-, hfound, hget⟩ | ⟨err, hget⟩ := get_cases honce hlive .any
  · rw [hget]
    dsimp only
    split
    · exact ⟨_, rfl⟩
    obtain ⟨h, hh⟩ := llRecv_returns lib.db handle METADATA_SIZE stream (by omega : 500 ≤ results.length)
    obtain ⟨header, hheader⟩ := llRecv_account hfound hh
    rw [hh, Option.bind_some]
    split
    · exact ⟨_, rfl⟩
    split
    · exact ⟨_, rfl⟩
    split
    · exact ⟨_, rfl⟩
    · obtain ⟨p, hp⟩ := llRecv_returns _ handle _ h.1.stream (hheader.enough hlen)
      unfold recvMessage
      rw [hp]
      exact ⟨_, rfl⟩
  · rw [hget]
    exact ⟨_, rfl⟩

/-- A datagram is one call of the kernel, or none. -/
structure UdpAccount {Answer : Type} (db db' : Db) (loc : InfoLoc) (calls : List Answer) (answer : Answer)
    (sent received : Nat) : Prop where
  calls : calls = [] ∨ calls = [answer]
  counted : Counted db db' loc sent received

/-- **`comm_lib_udp_send`.** -/
theorem udpSend_account (honce : HandlesOnce lib.db) (hlive : Live lib.db handle loc) (payload : List UInt8)
    (answer : IoResult) :
    UdpAccount lib.db (commLibUdpSend lib handle payload answer).lib.db loc
      (commLibUdpSend lib handle payload answer).calls answer
      (bytesMoved (commLibUdpSend lib handle payload answer).calls) 0 := by
  unfold commLibUdpSend
  split
  · exact ⟨Or.inl rfl, .refl ..⟩
  split
  · exact ⟨Or.inl rfl, .refl ..⟩
  obtain ⟨hcovers, hfound, hget⟩ | ⟨err, hget⟩ := get_cases honce hlive .udpHandle
  · rw [hget]
    dsimp only
    split
    · exact ⟨Or.inr rfl, udpLlSend_account hfound hcovers _ answer⟩
    · exact ⟨Or.inr rfl, udpLlSend_account hfound hcovers _ answer⟩
  · rw [hget]
    exact ⟨Or.inl rfl, .refl ..⟩

/-- **`comm_lib_udp_recv`.** -/
theorem udpRecv_account (honce : HandlesOnce lib.db) (hlive : Live lib.db handle loc) (addresserSt : AddrInfo)
    (payloadLen : Nat) (beyond : Nat → UInt8) (answer : RecvfromResult) :
    UdpAccount lib.db (commLibUdpRecv lib handle addresserSt payloadLen beyond answer).lib.db loc
      (commLibUdpRecv lib handle addresserSt payloadLen beyond answer).calls answer
      0 (bytesDelivered (commLibUdpRecv lib handle addresserSt payloadLen beyond answer).calls) := by
  unfold commLibUdpRecv
  split
  · exact ⟨Or.inl rfl, .refl ..⟩
  split
  · exact ⟨Or.inl rfl, .refl ..⟩
  obtain ⟨hcovers, hfound, hget⟩ | ⟨err, hget⟩ := get_cases honce hlive .udpHandle
  · rw [hget]
    dsimp only
    have hcounted := udpLlRecv_account hfound hcovers addresserSt answer
    split
    · exact ⟨Or.inr rfl, hcounted⟩
    split
    · exact ⟨Or.inr rfl, hcounted⟩
    -- the header may set the magic of the peer, which is no counter
    have hmid := header_counted (Incoming.mk (MsgMetadata.ofBytes ((localBuffer
      (commLibUdpLlRecv lib.db handle MAX_MTU addresserSt answer).received).take METADATA_SIZE)) payloadLen)
      (commLibUdpLlRecv lib.db handle MAX_MTU addresserSt answer).db loc
    split
    · exact ⟨Or.inr rfl, hcounted.trans hmid⟩
    · exact ⟨Or.inr rfl, hcounted.trans hmid⟩
  · rw [hget]
    exact ⟨Or.inl rfl, .refl ..⟩

end

/-- The account of the four calls for a session, whatever the kernel answers.  500 results are enough for
a loop, so that it makes no further call. -/
structure ExactAccounting (lib : CommLib) (handle : Handle) (loc : InfoLoc) : Prop where
  tcpSend : ∀ payload results r, commLibTcpSendBlocking lib handle payload results = some r →
    ∃ header body, CallAccount lib.db r.lib.db loc results r.results header body
      (bytesMoved header + bytesMoved body) 0
  tcpSendReturns : ∀ payload results, 1000 ≤ results.length →
    ∃ r, commLibTcpSendBlocking lib handle payload results = some r
  tcpRecv : ∀ addresserSt data maxMsgs stream results r,
    commLibTcpRecvBlocking lib handle addresserSt data maxMsgs stream results = some r →
    ∃ header body, CallAccount lib.db r.lib.db loc results r.results header body
      0 (bytesMoved header + bytesMoved body)
  tcpRecvReturns : ∀ addresserSt data maxMsgs stream results, 1000 ≤ results.length →
    ∃ r, commLibTcpRecvBlocking lib handle addresserSt data maxMsgs stream results = some r
  udpSend : ∀ payload answer r, commLibUdpSend lib handle payload answer = r →
    UdpAccount lib.db r.lib.db loc r.calls answer (bytesMoved r.calls) 0
  udpRecv : ∀ addresserSt payloadLen beyond answer r,
    commLibUdpRecv lib handle addresserSt payloadLen beyond answer = r →
    UdpAccount lib.db r.lib.db loc r.calls answer 0 (bytesDelivered r.calls)

/-- **The byte counters are exact.**  For every session of a DB in which no handle is stored twice, each call
of the API adds to its counters what the kernel took or delivered during the call, on every exit, and to
no other counter; each loop makes at most 500 calls. -/
theorem byte_accounting (lib : CommLib) (handle : Handle) (loc : InfoLoc) (honce : HandlesOnce lib.db)
    (hlive : Live lib.db handle loc) : ExactAccounting lib handle loc where
  tcpSend _ _ _ hr := tcpSend_account honce hlive hr
  tcpSendReturns payload _ hlen := tcpSend_returns honce hlive payload hlen
  tcpRecv _ _ _ _ _ _ hr := tcpRecv_account honce hlive hr
  tcpRecvReturns addresserSt data maxMsgs stream _ hlen :=
    tcpRecv_returns honce hlive addresserSt data maxMsgs stream hlen
  udpSend payload answer _ hr := hr ▸ udpSend_account honce hlive payload answer
  udpRecv addresserSt payloadLen beyond answer _ hr :=
    hr ▸ udpRecv_account honce hlive addresserSt payloadLen beyond answer

/-- A client is connected with handle 7. -/
def sampleClientDb : Db := runDb (libCommuDbInit Db.zero) [.connect 7 1 ⟨0, 0⟩ ⟨90, 8⟩ 11]

theorem byte_accounting_sample : ExactAccounting ⟨true, sampleClientDb⟩ 7 (.client 0) :=
  byte_accounting ⟨true, sampleClientDb⟩ 7 (.client 0)
    (fun hne heq => (DbInv.run [.connect 7 1 ⟨0, 0⟩ ⟨90, 8⟩ 11] (dbInv_init Db.zero)
      (by decide +kernel)).unique hne heq) (by unfold Live; decide +kernel)

end MlnxLib.Commu
