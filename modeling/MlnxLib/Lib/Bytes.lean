import Mathlib.Algebra.Ring.Nat

/-!
# Bit fields and bytes

Words put together from disjoint bit fields, 32-bit words in network byte order and with the lowest
byte first, and writes into a memory of bytes.

Principal results: `or_eq_add` — an `or` of disjoint fields is a sum; `ofNet32_net32`, `wordAt_le32` — a
word is read back from its four bytes; `take_writeAt` — what a write leaves before its end;
`wordAt_writeAt_self`, `wordAt_writeAt_of_le` — what is read after a write.
-/

set_option autoImplicit false

namespace MlnxLib.Bytes

/-- Disjoint bit fields: an `or` with a value below the low end of the other is a sum. -/
theorem or_eq_add {x b : Nat} (i : Nat) (hx : 2 ^ i ∣ x) (hb : b < 2 ^ i) : x ||| b = x + b := by
  obtain ⟨a, rfl⟩ := hx
  exact (Nat.two_pow_add_eq_or_of_lt hb a).symm

/-- The bytes of a word in network order. -/
def net32 (x : UInt32) : List UInt8 :=
  [(x >>> 24).toUInt8, (x >>> 16).toUInt8, (x >>> 8).toUInt8, x.toUInt8]

/-- The word of four bytes in network order. -/
def ofNet32 (b₀ b₁ b₂ b₃ : UInt8) : UInt32 :=
  b₀.toUInt32 <<< 24 ||| b₁.toUInt32 <<< 16 ||| b₂.toUInt32 <<< 8 ||| b₃.toUInt32

theorem ofNet32_toNat (b₀ b₁ b₂ b₃ : UInt8) : (ofNet32 b₀ b₁ b₂ b₃).toNat =
    b₀.toNat * 2 ^ 24 + b₁.toNat * 2 ^ 16 + b₂.toNat * 2 ^ 8 + b₃.toNat := by
  have h0 := b₀.toNat_lt
  have h1 := b₁.toNat_lt
  have h2 := b₂.toNat_lt
  have h3 := b₃.toNat_lt
  have e : (ofNet32 b₀ b₁ b₂ b₃).toNat = b₀.toNat <<< 24 % 2 ^ 32 ||| b₁.toNat <<< 16 % 2 ^ 32 |||
      b₂.toNat <<< 8 % 2 ^ 32 ||| b₃.toNat := by
    simp only [ofNet32, UInt32.toNat_or, UInt32.toNat_shiftLeft, UInt8.toNat_toUInt32]
    rfl
  rw [e, Nat.shiftLeft_eq, Nat.shiftLeft_eq, Nat.shiftLeft_eq, Nat.mod_eq_of_lt (by omega),
    Nat.mod_eq_of_lt (by omega), Nat.mod_eq_of_lt (by omega)]
  -- the fields from the top down: each `or` is a sum with the lower field
  have e1 := or_eq_add (x := b₀.toNat * 2 ^ 24) (b := b₁.toNat * 2 ^ 16) 24 (by omega) (by omega)
  have e2 := or_eq_add (x := b₀.toNat * 2 ^ 24 + b₁.toNat * 2 ^ 16) (b := b₂.toNat * 2 ^ 8) 16
    (by omega) (by omega)
  rw [e1, e2, or_eq_add 8 (by omega) (by omega)]

/-- **A word is read back from its bytes.** -/
theorem ofNet32_net32 (x : UInt32) :
    ofNet32 (x >>> 24).toUInt8 (x >>> 16).toUInt8 (x >>> 8).toUInt8 x.toUInt8 = x := by
  have hx := x.toNat_lt
  rw [← UInt32.toNat_inj, ofNet32_toNat]
  simp only [UInt32.toNat_toUInt8, UInt32.toNat_shiftRight]
  have e : ∀ k : UInt32, x.toNat >>> (k.toNat % 32) = x.toNat / 2 ^ (k.toNat % 32) :=
    fun k => Nat.shiftRight_eq_div_pow ..
  rw [e, e, e]
  show x.toNat / 2 ^ 24 % 2 ^ 8 * 2 ^ 24 + x.toNat / 2 ^ 16 % 2 ^ 8 * 2 ^ 16 +
    x.toNat / 2 ^ 8 % 2 ^ 8 * 2 ^ 8 + x.toNat % 2 ^ 8 = x.toNat
  omega

/-! ## Words in a memory -/

/-- The bytes of a word, the lowest first. -/
def le32 (x : UInt32) : List UInt8 :=
  [x.toUInt8, (x >>> 8).toUInt8, (x >>> 16).toUInt8, (x >>> 24).toUInt8]

/-- The word at an offset of a memory, its lowest byte first; there are zeros after its end. -/
def wordAt (memory : List UInt8) (offset : Nat) : UInt32 :=
  ofNet32 (memory.getD (offset + 3) 0) (memory.getD (offset + 2) 0) (memory.getD (offset + 1) 0)
    (memory.getD offset 0)

/-- A word is decided by the bytes up to its end. -/
theorem wordAt_congr {memory memory' : List UInt8} {n offset : Nat}
    (h : memory.take n = memory'.take n) (hn : offset + 4 ≤ n) :
    wordAt memory offset = wordAt memory' offset := by
  have hbyte : ∀ i, i < n → memory.getD i 0 = memory'.getD i 0 := by
    intro i hi
    have htake := congrArg (fun l => l[i]?) h
    simp only [List.getElem?_take, hi, if_true] at htake
    rw [List.getD_eq_getElem?_getD, List.getD_eq_getElem?_getD, htake]
  unfold wordAt
  rw [hbyte _ (by omega), hbyte _ (by omega), hbyte _ (by omega), hbyte _ (by omega)]

theorem wordAt_le32 (x : UInt32) (memory : List UInt8) : wordAt (le32 x ++ memory) 0 = x :=
  ofNet32_net32 x

/-- A word after a first part of a memory. -/
theorem wordAt_append (first memory : List UInt8) (offset : Nat) :
    wordAt (first ++ memory) (first.length + offset) = wordAt memory offset := by
  have hbyte : ∀ i, (first ++ memory).getD (first.length + i) 0 = memory.getD i 0 := by
    intro i
    rw [List.getD_eq_getElem?_getD, List.getD_eq_getElem?_getD,
      List.getElem?_append_right (Nat.le_add_right _ _), Nat.add_sub_cancel_left]
  unfold wordAt
  rw [hbyte, Nat.add_assoc, hbyte, Nat.add_assoc, hbyte, Nat.add_assoc, hbyte]

/-- A memory with these bytes written from a position on. -/
def writeAt (memory : List UInt8) (pos : Nat) (bytes : List UInt8) : List UInt8 :=
  memory.take pos ++ bytes ++ memory.drop (pos + bytes.length)

theorem take_writeAt (memory bytes : List UInt8) (pos : Nat) (hpos : pos ≤ memory.length) :
    (writeAt memory pos bytes).take (pos + bytes.length) = memory.take pos ++ bytes := by
  have hlen : (memory.take pos ++ bytes).length = pos + bytes.length := by simp [hpos]
  unfold writeAt
  rw [← hlen, List.take_left]

/-- A write leaves what is before it. -/
theorem take_writeAt_of_le (bytes : List UInt8) {memory : List UInt8} {n pos : Nat} (hpos : n ≤ pos)
    (hlen : n ≤ memory.length) : (writeAt memory pos bytes).take n = memory.take n := by
  have htake : n ≤ (memory.take pos).length := by
    rw [List.length_take]
    omega
  unfold writeAt
  rw [List.append_assoc, List.take_append_of_le_length htake, List.take_take, Nat.min_eq_left hpos]

theorem length_writeAt {memory bytes : List UInt8} {pos : Nat}
    (hpos : pos + bytes.length ≤ memory.length) :
    (writeAt memory pos bytes).length = memory.length := by
  simp only [writeAt, List.length_append, List.length_take, List.length_drop]
  omega

/-- A write shortens no memory. -/
theorem length_le_writeAt (memory bytes : List UInt8) (pos : Nat) :
    memory.length ≤ (writeAt memory pos bytes).length := by
  simp only [writeAt, List.length_append, List.length_take, List.length_drop]
  omega

/-- A write leaves the words before it. -/
theorem wordAt_writeAt_of_le {memory bytes : List UInt8} {offset pos : Nat} (hpos : offset + 4 ≤ pos)
    (hlen : offset + 4 ≤ memory.length) : wordAt (writeAt memory pos bytes) offset = wordAt memory offset :=
  wordAt_congr (take_writeAt_of_le bytes hpos hlen) (Nat.le_refl _)

/-- **A word is read back from where it was written.** -/
theorem wordAt_writeAt_self (x : UInt32) {memory : List UInt8} {pos : Nat} (hpos : pos ≤ memory.length) :
    wordAt (writeAt memory pos (le32 x)) pos = x := by
  have hpart : (memory.take pos).length = pos := by rw [List.length_take, Nat.min_eq_left hpos]
  have hword := wordAt_append (memory.take pos) (le32 x ++ memory.drop (pos + (le32 x).length)) 0
  rw [hpart, ← List.append_assoc, wordAt_le32] at hword
  exact hword

end MlnxLib.Bytes
