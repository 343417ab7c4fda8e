import MlnxLib.Lib.Bytes

/-!
# Control learning: types, limits and keys

The data of `lib_ctrl_learn_defs.h`, `lib_ctrl_learn.h`, `lib_ctrl_learn_uc_db.h` and
`lib_ctrl_learn_filters.h` that the FDB functions read and write.

* `MacParams` — `struct oes_fdb_uc_mac_addr_params`; `unsigned short` is `UInt16`, `unsigned
  long` is `UInt64`.
* `MacEntry` — the payload of `fdb_uc_mac_entry_t` (its map item and its three list items live
  in the maps and in the link heap of `UcDb`).
* `fdbUcConvertMacVlanToKey`, `buildPortKey`, `buildPortVidKey` — the three key macros, computed
  in 64-bit arithmetic and returned as values.

Principal results: `macVlanKey_eq`, `buildPortKey_eq`, `buildPortVidKey_eq` — the keys in closed
form; `macVlanKey_inj`, `macVlanKey_lt_iff` — the record key is injective and orders records by
vid and then by the MAC bytes; `buildPortKey_inj`, `buildPortVidKey_inj`,
`buildPortKey_ne_portVidKey` — the filter keys of 32-bit ports never collide.
-/

set_option autoImplicit false

namespace MlnxLib.CtrlLearn

open Bytes

/-! ## Error codes and limits -/

def EPERM : Int := 1
def ENOENT : Int := 2
def ENOMEM : Int := 12
def EINVAL : Int := 22
def EXFULL : Int := 54

def MAX_FDB_ENTRIES : Nat := 49152
def MAX_PORT_ENTRIES : Nat := 200
def MAX_FILTER_ENTRIES : Nat := MAX_FDB_ENTRIES + MAX_PORT_ENTRIES
def MAX_VLAN_ENTRIES : Nat := 4096

/-- `if (err) goto bail;` between two calls: the second runs only after a zero return. -/
def orBail {σ : Type} (r : Int × σ) (k : σ → Int × σ) : Int × σ := if r.1 = 0 then k r.2 else r

theorem orBail_ok {σ : Type} {r : Int × σ} {k : σ → Int × σ} (h : r.1 = 0) :
    orBail r k = k r.2 := if_pos h

theorem orBail_err {σ : Type} {r : Int × σ} {k : σ → Int × σ} (h : r.1 ≠ 0) : orBail r k = r :=
  if_neg h

/-! ## Records -/

/-- `struct ether_addr`. -/
structure EtherAddr where
  o0 : UInt8
  o1 : UInt8
  o2 : UInt8
  o3 : UInt8
  o4 : UInt8
  o5 : UInt8
  deriving DecidableEq, Repr

/-- The entry types of the OES interface that the library distinguishes. -/
inductive OesFdbEntryType where
  | static
  | dynamic
  deriving DecidableEq, Repr

/-- `enum fdb_uc_mac_entry_type`. -/
inductive FdbUcMacEntryType where
  | static
  | remote
  | nonageable
  | ageable
  deriving DecidableEq, Repr

/-- `struct oes_fdb_uc_mac_addr_params`. -/
structure MacParams where
  vid : UInt16
  macAddr : EtherAddr
  logPort : UInt64
  entryType : OesFdbEntryType
  deriving DecidableEq, Repr

/-- The payload of `fdb_uc_mac_entry_t`; a `NULL` cookie is `none`. -/
structure MacEntry where
  macParams : MacParams
  cookie : Option Nat
  type : FdbUcMacEntryType
  deriving DecidableEq, Repr

/-- A zeroed record. -/
def MacEntry.zero : MacEntry := ⟨⟨0, ⟨0, 0, 0, 0, 0, 0⟩, 0, .dynamic⟩, none, .static⟩

/-- `struct fdb_uc_key_filter`. -/
structure KeyFilter where
  filterByVid : Bool
  vid : UInt16
  filterByLogPort : Bool
  logPort : UInt64
  deriving DecidableEq, Repr

/-- The records a filter asks for: every field marked valid must agree. -/
def KeyFilter.matches (f : KeyFilter) (p : MacParams) : Bool :=
  (!f.filterByVid || p.vid == f.vid) && (!f.filterByLogPort || p.logPort == f.logPort)

/-- The commands of `enum oes_access_cmd` that the library distinguishes. -/
inductive AccessCmd where
  | add
  | delete
  | get
  | getFirst
  | getNext
  | other
  deriving DecidableEq, Repr

/-! ## Keys -/

/-- `MAC_TO_U64`. -/
def macToU64 (m : EtherAddr) : UInt64 :=
  (m.o0.toUInt64 <<< 40) ||| (m.o1.toUInt64 <<< 32) ||| (m.o2.toUInt64 <<< 24) |||
    (m.o3.toUInt64 <<< 16) ||| (m.o4.toUInt64 <<< 8) ||| m.o5.toUInt64

/-- `FDB_UC_CONVERT_MAC_VLAN_TO_KEY`. -/
def fdbUcConvertMacVlanToKey (m : EtherAddr) (vid : UInt16) : Nat :=
  (macToU64 m ||| (vid.toUInt64 <<< 48)).toNat

/-- `BUILD_PORT_KEY`. -/
def buildPortKey (port : UInt64) : Nat := (port ||| 0x1000000000000).toNat

/-- `BUILD_PORT_VID_KEY`. -/
def buildPortVidKey (port : UInt64) (vid : UInt16) : Nat :=
  (port ||| (vid.toUInt64 <<< 32) ||| 0x2000000000000).toNat

/-- The key of a record in `fdb_map`. -/
def MacParams.key (p : MacParams) : Nat := fdbUcConvertMacVlanToKey p.macAddr p.vid

/-- The value of a MAC address, most significant byte first. -/
def EtherAddr.value (m : EtherAddr) : Nat :=
  m.o0.toNat * 2 ^ 40 + m.o1.toNat * 2 ^ 32 + m.o2.toNat * 2 ^ 24 + m.o3.toNat * 2 ^ 16 +
    m.o4.toNat * 2 ^ 8 + m.o5.toNat

theorem EtherAddr.value_lt (m : EtherAddr) : m.value < 2 ^ 48 := by
  have h0 := m.o0.toNat_lt
  have h1 := m.o1.toNat_lt
  have h2 := m.o2.toNat_lt
  have h3 := m.o3.toNat_lt
  have h4 := m.o4.toNat_lt
  have h5 := m.o5.toNat_lt
  unfold EtherAddr.value
  omega

theorem EtherAddr.value_inj {m m' : EtherAddr} (h : m.value = m'.value) : m = m' := by
  have h0 := m.o0.toNat_lt
  have h1 := m.o1.toNat_lt
  have h2 := m.o2.toNat_lt
  have h3 := m.o3.toNat_lt
  have h4 := m.o4.toNat_lt
  have h5 := m.o5.toNat_lt
  have g0 := m'.o0.toNat_lt
  have g1 := m'.o1.toNat_lt
  have g2 := m'.o2.toNat_lt
  have g3 := m'.o3.toNat_lt
  have g4 := m'.o4.toNat_lt
  have g5 := m'.o5.toNat_lt
  unfold EtherAddr.value at h
  obtain ⟨a0, a1, a2, a3, a4, a5⟩ := m
  obtain ⟨b0, b1, b2, b3, b4, b5⟩ := m'
  simp only [EtherAddr.mk.injEq, ← UInt8.toNat_inj] at *
  omega

theorem macToU64_toNat (m : EtherAddr) : (macToU64 m).toNat = m.value := by
  have h0 := m.o0.toNat_lt
  have h1 := m.o1.toNat_lt
  have h2 := m.o2.toNat_lt
  have h3 := m.o3.toNat_lt
  have h4 := m.o4.toNat_lt
  have h5 := m.o5.toNat_lt
  have hsh : ∀ (x : Nat) (i : Nat), x < 2 ^ 8 → i ≤ 40 → x <<< i % 2 ^ 64 = x * 2 ^ i := by
    intro x i hx hi
    rw [Nat.shiftLeft_eq]
    apply Nat.mod_eq_of_lt
    calc x * 2 ^ i < 2 ^ 8 * 2 ^ i := Nat.mul_lt_mul_of_pos_right hx (Nat.two_pow_pos i)
      _ ≤ 2 ^ 8 * 2 ^ 40 := Nat.mul_le_mul_left _ (Nat.pow_le_pow_right (by omega) hi)
      _ < 2 ^ 64 := by omega
  have e : (macToU64 m).toNat = m.o0.toNat <<< 40 % 2 ^ 64 ||| m.o1.toNat <<< 32 % 2 ^ 64 |||
      m.o2.toNat <<< 24 % 2 ^ 64 ||| m.o3.toNat <<< 16 % 2 ^ 64 ||| m.o4.toNat <<< 8 % 2 ^ 64 |||
      m.o5.toNat := by
    simp only [macToU64, UInt64.toNat_or, UInt64.toNat_shiftLeft, UInt8.toNat_toUInt64]
    rfl
  rw [e, hsh _ 40 h0 (by omega), hsh _ 32 h1 (by omega), hsh _ 24 h2 (by omega),
    hsh _ 16 h3 (by omega), hsh _ 8 h4 (by omega)]
  -- the fields from the top down: each `or` is a sum with the lower field
  have e1 := or_eq_add (x := m.o0.toNat * 2 ^ 40) (b := m.o1.toNat * 2 ^ 32) 40 (by omega) (by omega)
  have e2 := or_eq_add (x := m.o0.toNat * 2 ^ 40 + m.o1.toNat * 2 ^ 32)
    (b := m.o2.toNat * 2 ^ 24) 32 (by omega) (by omega)
  have e3 := or_eq_add (x := m.o0.toNat * 2 ^ 40 + m.o1.toNat * 2 ^ 32 + m.o2.toNat * 2 ^ 24)
    (b := m.o3.toNat * 2 ^ 16) 24 (by omega) (by omega)
  have e4 := or_eq_add (x := m.o0.toNat * 2 ^ 40 + m.o1.toNat * 2 ^ 32 + m.o2.toNat * 2 ^ 24 +
    m.o3.toNat * 2 ^ 16) (b := m.o4.toNat * 2 ^ 8) 16 (by omega) (by omega)
  rw [e1, e2, e3, e4, or_eq_add 8 (by omega) (by omega)]
  rfl

/-- **The record key in closed form.** -/
theorem macVlanKey_eq (m : EtherAddr) (vid : UInt16) :
    fdbUcConvertMacVlanToKey m vid = vid.toNat * 2 ^ 48 + m.value := by
  have hv := vid.toNat_lt
  have hm := m.value_lt
  have e : fdbUcConvertMacVlanToKey m vid = m.value ||| vid.toNat <<< 48 % 2 ^ 64 := by
    simp only [fdbUcConvertMacVlanToKey, UInt64.toNat_or, UInt64.toNat_shiftLeft,
      UInt16.toNat_toUInt64, macToU64_toNat]
    rfl
  rw [e, Nat.shiftLeft_eq, Nat.mod_eq_of_lt (by omega), Nat.or_comm,
    or_eq_add 48 (by omega) hm]

theorem macVlanKey_inj {m m' : EtherAddr} {vid vid' : UInt16}
    (h : fdbUcConvertMacVlanToKey m vid = fdbUcConvertMacVlanToKey m' vid') :
    m = m' ∧ vid = vid' := by
  have hm := m.value_lt
  have hm' := m'.value_lt
  rw [macVlanKey_eq, macVlanKey_eq] at h
  have hv : vid.toNat = vid'.toNat := by omega
  exact ⟨EtherAddr.value_inj (by omega), UInt16.toNat_inj.mp hv⟩

/-- The bytes of a MAC address in transmission order. -/
def EtherAddr.bytes (m : EtherAddr) : List Nat :=
  [m.o0.toNat, m.o1.toNat, m.o2.toNat, m.o3.toNat, m.o4.toNat, m.o5.toNat]

theorem EtherAddr.value_lt_iff (m m' : EtherAddr) : m.value < m'.value ↔ m.bytes < m'.bytes := by
  have h0 := m.o0.toNat_lt
  have h1 := m.o1.toNat_lt
  have h2 := m.o2.toNat_lt
  have h3 := m.o3.toNat_lt
  have h4 := m.o4.toNat_lt
  have h5 := m.o5.toNat_lt
  have g0 := m'.o0.toNat_lt
  have g1 := m'.o1.toNat_lt
  have g2 := m'.o2.toNat_lt
  have g3 := m'.o3.toNat_lt
  have g4 := m'.o4.toNat_lt
  have g5 := m'.o5.toNat_lt
  unfold EtherAddr.value EtherAddr.bytes
  simp only [List.cons_lt_cons_iff, List.not_lt_nil, and_false, or_false]
  omega

/-- **The record key orders by vid, then by the MAC bytes.** -/
theorem macVlanKey_lt_iff (m m' : EtherAddr) (vid vid' : UInt16) :
    fdbUcConvertMacVlanToKey m vid < fdbUcConvertMacVlanToKey m' vid' ↔
      vid.toNat < vid'.toNat ∨ (vid.toNat = vid'.toNat ∧ m.bytes < m'.bytes) := by
  have hm := m.value_lt
  have hm' := m'.value_lt
  rw [macVlanKey_eq, macVlanKey_eq, ← EtherAddr.value_lt_iff]
  omega

theorem buildPortKey_eq {port : UInt64} (h : port.toNat < 2 ^ 32) :
    buildPortKey port = 2 ^ 48 + port.toNat := by
  have e : buildPortKey port = port.toNat ||| 2 ^ 48 := by
    simp only [buildPortKey, UInt64.toNat_or]
    rfl
  rw [e, Nat.or_comm, or_eq_add 48 (by omega) (by omega)]

theorem buildPortVidKey_eq {port : UInt64} {vid : UInt16} (h : port.toNat < 2 ^ 32) :
    buildPortVidKey port vid = 2 ^ 49 + (vid.toNat * 2 ^ 32 + port.toNat) := by
  have hv := vid.toNat_lt
  have e : buildPortVidKey port vid = port.toNat ||| vid.toNat <<< 32 % 2 ^ 64 ||| 2 ^ 49 := by
    simp only [buildPortVidKey, UInt64.toNat_or, UInt64.toNat_shiftLeft, UInt16.toNat_toUInt64]
    rfl
  have e1 := or_eq_add (x := vid.toNat * 2 ^ 32) (b := port.toNat) 32 (by omega) (by omega)
  rw [e, Nat.shiftLeft_eq, Nat.mod_eq_of_lt (by omega), Nat.or_comm port.toNat, e1, Nat.or_comm,
    or_eq_add 49 (by omega) (by omega)]

/-- **Filter keys of 32-bit ports never collide.** -/
theorem buildPortKey_inj {p p' : UInt64} (h : p.toNat < 2 ^ 32) (h' : p'.toNat < 2 ^ 32)
    (he : buildPortKey p = buildPortKey p') : p = p' := by
  rw [buildPortKey_eq h, buildPortKey_eq h'] at he
  exact UInt64.toNat_inj.mp (by omega)

theorem buildPortVidKey_inj {p p' : UInt64} {v v' : UInt16} (h : p.toNat < 2 ^ 32)
    (h' : p'.toNat < 2 ^ 32) (he : buildPortVidKey p v = buildPortVidKey p' v') :
    p = p' ∧ v = v' := by
  rw [buildPortVidKey_eq h, buildPortVidKey_eq h'] at he
  have hv : v.toNat = v'.toNat := by omega
  exact ⟨UInt64.toNat_inj.mp (by omega), UInt16.toNat_inj.mp hv⟩

theorem buildPortKey_ne_portVidKey {p p' : UInt64} (h : p.toNat < 2 ^ 32)
    (h' : p'.toNat < 2 ^ 32) (v : UInt16) : buildPortKey p ≠ buildPortVidKey p' v := by
  rw [buildPortKey_eq h, buildPortVidKey_eq h']
  omega

/-- A port key of a 32-bit port is below every key of a port and vid. -/
theorem buildPortKey_lt_portVidKey {p : UInt64} (h : p.toNat < 2 ^ 32) (p' : UInt64) (v : UInt16) :
    buildPortKey p < buildPortVidKey p' v := by
  have hge : 2 ^ 49 ≤ buildPortVidKey p' v := by
    simp only [buildPortVidKey, UInt64.toNat_or]
    exact Nat.right_le_or
  rw [buildPortKey_eq h]
  omega

end MlnxLib.CtrlLearn
