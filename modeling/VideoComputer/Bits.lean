/-
VideoComputer.Bits — bits, fields and words of an eight-bit machine.

A byte is a `UInt8`, an address a `UInt16`. The machine looks at both through
single bits, fields of bits and halves of words; everything of that kind that
more than one chip needs is here, written over the natural number the word
stands for, so that a statement about it is a statement of arithmetic.
-/

namespace VideoComputer

/-! ## Bytes -/

/-- Whether bit `n` of a byte is set (`bv`). Bit 0 is the least significant one
and bits beyond 7 are never set. -/
def bitAt (b : UInt8) (n : Nat) : Bool :=
  b.toNat.testBit n

/-- The two-bit field of a byte that starts at bit `n`, as a number below 4
(`bvs`). -/
def twoBitsAt (b : UInt8) (n : Nat) : Nat :=
  (b.toNat >>> n) % 4

/-- The byte whose only set bit is `n`, or 0 when the flag is false. -/
def flagAt (flag : Bool) (n : Nat) : UInt8 :=
  if flag then UInt8.ofNat (1 <<< n) else 0

/-- The high nibble of a byte as a four-bit two's complement number, from -8 to
7 (`signed_high_nibble`). The low nibble has no influence. -/
def signedHighNibble (b : UInt8) : Int :=
  let nibble := b.toNat / 16
  if nibble < 8 then nibble else (nibble : Int) - 16

/-! ## Words -/

/-- The word with the given halves. -/
def word (low high : UInt8) : UInt16 :=
  UInt16.ofNat (low.toNat + 256 * high.toNat)

/-- The less significant half of a word. -/
def lowByte (w : UInt16) : UInt8 :=
  UInt8.ofNat (w.toNat % 256)

/-- The more significant half of a word: the number of the page an address
lies in. -/
def highByte (w : UInt16) : UInt8 :=
  UInt8.ofNat (w.toNat / 256)

/-- A byte as a word with its sign bit extended, the displacement of a
branch. -/
def signExtend (b : UInt8) : UInt16 :=
  if b.toNat < 128 then b.toUInt16 else b.toUInt16 + 0xFF00

/-- Whether two addresses lie in different pages of 256 bytes
(`page_crossed`). -/
def pageCrossed (a b : UInt16) : Bool :=
  highByte a != highByte b

/-! ## A flag in a byte -/

/-- A flag shows at its own bit and nowhere else. -/
theorem bitAt_flagAt (flag : Bool) {n : Nat} (hn : n < 8) (m : Nat) :
    bitAt (flagAt flag n) m = (flag && n == m) := by
  have hlt : 2 ^ n < 2 ^ 8 := Nat.pow_lt_pow_right (by decide) hn
  cases flag with
  | false => simp [flagAt, bitAt]
  | true =>
    have hb : (flagAt true n).toNat = 2 ^ n := by
      simp only [flagAt, if_true, UInt8.toNat_ofNat', Nat.one_shiftLeft]
      exact Nat.mod_eq_of_lt hlt
    rw [bitAt, hb, Nat.testBit_two_pow]
    rfl

/-! ## Bit by bit -/

/-- A byte is its bits. -/
theorem eq_of_bitAt {a b : UInt8} (h : ∀ n, bitAt a n = bitAt b n) : a = b :=
  UInt8.toNat_inj.mp (Nat.eq_of_testBit_eq h)

/-- A byte has no bits beyond bit 7. -/
theorem bitAt_of_le (b : UInt8) {n : Nat} (hn : 8 ≤ n) : bitAt b n = false :=
  Nat.testBit_lt_two_pow (Nat.lt_of_lt_of_le b.toNat_lt (Nat.pow_le_pow_right (by decide) hn))

theorem bitAt_or (a b : UInt8) (n : Nat) : bitAt (a ||| b) n = (bitAt a n || bitAt b n) := by
  rw [bitAt, UInt8.toNat_or, Nat.testBit_or]
  rfl

theorem bitAt_and (a b : UInt8) (n : Nat) : bitAt (a &&& b) n = (bitAt a n && bitAt b n) := by
  rw [bitAt, UInt8.toNat_and, Nat.testBit_and]
  rfl

theorem bitAt_not (a : UInt8) {n : Nat} (hn : n < 8) : bitAt (~~~a) n = !bitAt a n := by
  have hvalue : (~~~a).toNat = 2 ^ 8 - (a.toNat + 1) := by
    rw [UInt8.toNat_not, UInt8.size]
    omega
  rw [bitAt, hvalue, Nat.testBit_two_pow_sub_succ a.toNat_lt, decide_eq_true hn, Bool.true_and]
  rfl

/-- A field of two bits is the two of them. -/
theorem twoBitsAt_congr {a b : UInt8} {n : Nat} (h : bitAt a n = bitAt b n)
    (h' : bitAt a (n + 1) = bitAt b (n + 1)) : twoBitsAt a n = twoBitsAt b n := by
  apply Nat.eq_of_testBit_eq
  intro i
  simp only [twoBitsAt, show (4 : Nat) = 2 ^ 2 from rfl, Nat.testBit_mod_two_pow,
    Nat.testBit_shiftRight]
  match i with
  | 0 => simpa [bitAt] using h
  | 1 => simpa [bitAt] using h'
  | i + 2 => simp [show ¬ i + 2 < 2 by omega]

/-! ## A nibble with a sign -/

theorem signedHighNibble_mem (b : UInt8) : -8 ≤ signedHighNibble b ∧ signedHighNibble b ≤ 7 := by
  have hb := b.toNat_lt
  simp only [signedHighNibble]
  split <;> omega

/-! ## Words as numbers -/

theorem toNat_word (low high : UInt8) : (word low high).toNat = low.toNat + 256 * high.toNat := by
  have hl := low.toNat_lt
  have hh := high.toNat_lt
  rw [word, UInt16.toNat_ofNat']
  omega

theorem toNat_lowByte (w : UInt16) : (lowByte w).toNat = w.toNat % 256 := by
  rw [lowByte, UInt8.toNat_ofNat']
  omega

theorem toNat_highByte (w : UInt16) : (highByte w).toNat = w.toNat / 256 := by
  have hw := w.toNat_lt
  rw [highByte, UInt8.toNat_ofNat']
  omega

/-- An index leads out of the page of a base address by a carry out of its low byte. -/
theorem pageCrossed_add_iff (base : UInt16) (index : UInt8) :
    pageCrossed base (base + index.toUInt16) = true ↔ 255 < base.toNat % 256 + index.toNat := by
  have hbase := base.toNat_lt
  have hindex := index.toNat_lt
  rw [pageCrossed, bne_iff_ne, ne_eq, ← UInt8.toNat_inj, toNat_highByte, toNat_highByte,
    UInt16.toNat_add, UInt8.toNat_toUInt16]
  omega

/-! ## The halves determine the word -/

@[simp] theorem lowByte_word (low high : UInt8) : lowByte (word low high) = low := by
  have hl := low.toNat_lt
  have hh := high.toNat_lt
  apply UInt8.toNat_inj.mp
  simp only [lowByte, word, UInt8.toNat_ofNat', UInt16.toNat_ofNat']
  omega

@[simp] theorem word_lowByte_highByte (w : UInt16) : word (lowByte w) (highByte w) = w := by
  have hw := w.toNat_lt
  apply UInt16.toNat_inj.mp
  simp only [lowByte, highByte, word, UInt8.toNat_ofNat', UInt16.toNat_ofNat']
  omega

end VideoComputer
