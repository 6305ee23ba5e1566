/-
VideoComputer.Proofs.Cpu.BinaryNumbers — binary arithmetic on numbers of any
length, with and without a sign.

A processor that does not add in decimal takes a byte for a digit to the base
256, and a list of bytes for a number, or for a number with a sign in two's
complement. The same pass of additions, or of subtractions, serves both readings:
the carry it ends with tells whether the result is right without a sign, and the
overflow and the negative flag tell it with one. Those two are left by the last
operation, on the top bytes, and it is the top bits of the numbers that they are
made from.

* `Numeral.binary`, `Numeral.signed` — the two readings of bytes.
* `Numeral.topBit_iff` — the top bit is the sign.
* `addBinary_value`, `difference_value` — one byte.
* `flags_adc_chain`, `flags_sbc_chain` — the flags at the end of a pass.
* `binary_arithmetic` — numbers of any length, and comparisons of bytes.
-/
import VideoComputer.Proofs.Cpu.MultiByte

namespace VideoComputer

namespace Numeral

/-! ## The readings of bytes -/

/-- A byte is a digit to the base 256. -/
def binary : Numeral where
  base := 256
  IsDigit _ := True
  value := UInt8.toNat
  one_lt_base := by decide
  value_lt b _ := b.toNat_lt
  value_inj _ _ _ _ h := UInt8.toNat_inj.mp h

/-- What a number of so many bytes stands for in two's complement. -/
def signed (n value : Nat) : Int := Int.bmod value (256 ^ n)

/-- Whether a number with a sign can be written with so many bytes. -/
def FitsSigned (n : Nat) (i : Int) : Prop :=
  -((256 ^ n : Nat) : Int) ≤ 2 * i ∧ 2 * i < (256 ^ n : Nat)

instance (n : Nat) (i : Int) : Decidable (FitsSigned n i) := inferInstanceAs (Decidable (_ ∧ _))

/-- Whether the top bit of a number is set: the top bit of its last byte. -/
def topBit (bytes : List UInt8) : Bool := bytes.getLast?.any (bitAt · 7)

variable {bytes : List UInt8} {n value : Nat}

/-- The upper half of the numbers stands for the negative ones. -/
theorem signed_eq (h : value < 256 ^ n) :
    signed n value = if 256 ^ n ≤ 2 * value then (value : Int) - (256 ^ n : Nat) else value := by
  have hmod : (value : Int) % (256 ^ n : Nat) = value := Int.emod_eq_of_lt (by omega) (by omega)
  rw [signed, Int.bmod, hmod]
  split <;> split <;> omega

/-- A number is negative if its top bit is set. -/
theorem signed_neg_iff (h : value < 256 ^ n) : signed n value < 0 ↔ 256 ^ n ≤ 2 * value := by
  rw [signed_eq h]
  split <;> omega

/-- The numbers of one byte or more come in two halves. -/
theorem exists_half (hn : 0 < n) : ∃ half, 256 ^ n = 2 * half := by
  obtain ⟨m, rfl⟩ := Nat.exists_eq_add_one_of_ne_zero hn.ne'
  exact ⟨256 ^ m * 128, by rw [Nat.pow_succ]; omega⟩

theorem bitAt_seven (b : UInt8) : bitAt b 7 = true ↔ 128 ≤ b.toNat := by
  have hb := b.toNat_lt
  rw [bitAt, Nat.testBit_eq_decide_div_mod_eq, decide_eq_true_iff]
  omega

/-- The top bit is the sign. -/
theorem topBit_iff (h : binary.Represents bytes n value) (hn : 0 < n) :
    topBit bytes = true ↔ 256 ^ n ≤ 2 * value := by
  induction bytes generalizing n value with
  | nil => exact absurd h.length_eq hn.ne
  | cons b bytes ih =>
    obtain ⟨m, above, rfl, rfl, -, habove⟩ := h.of_cons
    have hb := b.toNat_lt
    show _ ↔ 256 ^ (m + 1) ≤ 2 * (b.toNat + 256 * above)
    cases bytes with
    | nil =>
      obtain rfl : 0 = m := habove.length_eq
      obtain rfl : 0 = above := habove.number_eq
      show bitAt b 7 = true ↔ _
      rw [bitAt_seven]
      omega
    | cons b' bytes =>
      have hm : 0 < m := by rw [← habove.length_eq]; exact Nat.succ_pos _
      obtain ⟨half, hhalf⟩ := exists_half hm
      have htop : topBit (b :: b' :: bytes) = topBit (b' :: bytes) := by
        rw [topBit, List.getLast?_cons_cons]
        rfl
      rw [htop, ih habove hm, Nat.pow_succ]
      omega

/-! ## Signed sums and differences -/

section

variable {a b carryIn result carryOut : Nat} (hn : 0 < n) (ha : a < 256 ^ n) (hb : b < 256 ^ n)
  (hresult : result < 256 ^ n) (hin : carryIn ≤ 1) (hout : carryOut ≤ 1)

include hn ha hb hresult hin hout

/-- A sum with a sign is too large for its bytes if two summands of one sign make a
result of the other. -/
theorem Sum.not_fitsSigned_iff (h : Sum (256 ^ n) a b carryIn result carryOut) :
    ¬ FitsSigned n (signed n a + signed n b + carryIn)
      ↔ (256 ^ n ≤ 2 * a ↔ 256 ^ n ≤ 2 * b) ∧ ¬ (256 ^ n ≤ 2 * a ↔ 256 ^ n ≤ 2 * result) := by
  obtain ⟨half, hhalf⟩ := exists_half hn
  rw [FitsSigned, signed_eq ha, signed_eq hb]
  rw [Sum] at h
  generalize 256 ^ n = limit at *
  obtain rfl | rfl : carryOut = 0 ∨ carryOut = 1 := by omega
  all_goals split <;> split <;> omega

/-- The first number is the smaller one, read with signs, if the difference is
negative, or has become positive because the numbers lie too far apart. -/
theorem Difference.signed_lt_iff (h : Difference (256 ^ n) a b carryIn result carryOut) :
    signed n a < signed n b + carryIn
      ↔ ¬ (256 ^ n ≤ 2 * result
        ↔ ¬ (256 ^ n ≤ 2 * a ↔ 256 ^ n ≤ 2 * b) ∧ ¬ (256 ^ n ≤ 2 * a ↔ 256 ^ n ≤ 2 * result)) := by
  obtain ⟨half, hhalf⟩ := exists_half hn
  rw [signed_eq ha, signed_eq hb]
  rw [Difference, Sum] at h
  generalize 256 ^ n = limit at *
  obtain rfl | rfl : carryOut = 0 ∨ carryOut = 1 := by omega
  all_goals split <;> split <;> omega

end

end Numeral

namespace Registers

open Numeral (FitsSigned signed topBit)

variable {decimalMode : Bool}

/-- Whether the processor adds in binary: without the decimal circuit, or with the
decimal flag clear. -/
def AddsInBinary (decimalMode : Bool) (r : Registers) : Prop :=
  (decimalMode && r.status.get .decimal) = false

/-! ## One byte -/

/-- A and the carry are the binary sum. -/
theorem addBinary_value (r : Registers) (b : UInt8) :
    r.a.toNat + b.toNat + (r.status.get .carry).toNat
      = (r.addBinary b).a.toNat + 256 * ((r.addBinary b).status.get .carry).toNat := by
  have ha := r.a.toNat_lt
  have hb := b.toNat_lt
  have hcarry := (r.status.get .carry).toNat_le
  rw [carry_addBinary]
  show _ = (UInt8.ofNat (r.a.toNat + b.toNat + (r.status.get .carry).toNat)).toNat + _
  rw [UInt8.toNat_ofNat']
  generalize hsum : r.a.toNat + b.toNat + (r.status.get .carry).toNat = sum
  by_cases h : 255 < sum
  · rw [decide_eq_true h, Bool.toNat_true]
    omega
  · rw [decide_eq_false h, Bool.toNat_false]
    omega

/-- A and the borrow are the binary difference. -/
theorem difference_value (r : Registers) (b : UInt8) :
    (r.difference b).toNat + b.toNat + r.borrow
      = r.a.toNat + 256 * (!(r.differenceStatus b).get .carry).toNat := by
  have ha := r.a.toNat_lt
  have hb := b.toNat_lt
  have hborrow : r.borrow ≤ 1 := Bool.toNat_le _
  rw [difference, UInt8.toNat_ofNat', carry_differenceStatus]
  by_cases h : b.toNat + r.borrow ≤ r.a.toNat
  · rw [decide_eq_true h, Bool.not_true, Bool.toNat_false]
    omega
  · rw [decide_eq_false h, Bool.not_false, Bool.toNat_true]
    omega

theorem addsInBinary_lda {r : Registers} (h : AddsInBinary decimalMode r) (a : UInt8) :
    AddsInBinary decimalMode (r.lda a) := by
  rw [AddsInBinary, get_lda]
  exact h

theorem adc_of_addsInBinary {r : Registers} (h : AddsInBinary decimalMode r) (b : UInt8) :
    r.adc decimalMode b = r.addBinary b := if_neg (Bool.eq_false_iff.mp h)

theorem a_sbc_of_addsInBinary {r : Registers} (h : AddsInBinary decimalMode r) (b : UInt8) :
    (r.sbc decimalMode b).a = r.difference b := if_neg (Bool.eq_false_iff.mp h)

/-- Addition in binary is addition with a carry, byte by byte, -/
theorem binary_adds (decimalMode : Bool) :
    Numeral.binary.Adds (AddsInBinary decimalMode) (adc decimalMode) where
  mode r a b hr := by
    rw [AddsInBinary, (puts_adc decimalMode _ b).get_eq (by decide), get_lda]
    exact hr
  isDigit _ _ _ _ _ _ := trivial
  law r a b hr _ _ := by
    have hvalue := addBinary_value (r.lda a) b
    rw [get_lda] at hvalue
    rwa [adc_of_addsInBinary (addsInBinary_lda hr a)]

/-- and subtraction is subtraction with a borrow. -/
theorem binary_subtracts (decimalMode : Bool) :
    Numeral.binary.Subtracts (AddsInBinary decimalMode) (sbc decimalMode) where
  mode r a b hr := by
    show (decimalMode && ((r.lda a).differenceStatus b).get .decimal) = false
    rw [(puts_differenceStatus _ b).get_eq (by decide)]
    exact addsInBinary_lda hr a
  isDigit _ _ _ _ _ _ := trivial
  law r a b hr _ _ := by
    have hvalue := difference_value (r.lda a) b
    rw [borrow_lda] at hvalue
    rwa [a_sbc_of_addsInBinary (addsInBinary_lda hr a)]

/-! ## The flags at the end of a pass -/

section

variable {r : Registers} (hr : AddsInBinary decimalMode r) {as bs : List UInt8}
  (hlength : as.length = bs.length) (has : as ≠ [])

include hr hlength has

/-- Additions overflow if the top bits of the numbers agree, and the one of the sum
is the other one. -/
theorem flags_adc_chain :
    let sum := r.chain (adc decimalMode) as bs
    sum.2.status.get .negative = topBit sum.1
      ∧ sum.2.status.get .overflow
        = (topBit as == topBit bs && topBit as != topBit sum.1) := by
  obtain ⟨r', x, y, hr', hx, hy, hlast, hend⟩ := (binary_adds decimalMode).last hr hlength has
  simp only [topBit, hx, hy, hlast, hend, adc_of_addsInBinary (addsInBinary_lda hr' x)]
  constructor
  · simp [addBinary]
  · simp [addBinary, lda]

/-- Subtractions overflow if the top bits of the numbers differ, and the one of the
difference is not that of the first number. -/
theorem flags_sbc_chain :
    let difference := r.chain (sbc decimalMode) as bs
    difference.2.status.get .negative = topBit difference.1
      ∧ difference.2.status.get .overflow
        = (topBit as != topBit bs && topBit as != topBit difference.1) := by
  obtain ⟨r', x, y, hr', hx, hy, hlast, hend⟩ := (binary_subtracts decimalMode).last hr hlength has
  simp only [topBit, hx, hy, hlast, hend, a_sbc_of_addsInBinary (addsInBinary_lda hr' x)]
  constructor
  · simp [sbc, differenceStatus]
  · simp [sbc, differenceStatus, lda]

end

/-! ## Numbers with a sign -/

section

variable {r : Registers} (hr : AddsInBinary decimalMode r) {as bs : List UInt8} {n a b : Nat}
  (hn : 0 < n) (ha : Numeral.binary.Represents as n a) (hb : Numeral.binary.Represents bs n b)

include hr hn ha hb

/-- A pass of additions ends with the overflow flag set if the sum, read with its
sign, is not the sum of the numbers, read with theirs. -/
theorem overflow_adc_chain_iff :
    (r.chain (adc decimalMode) as bs).2.status.get .overflow = true
      ↔ ¬ FitsSigned n (signed n a + signed n b + (r.status.get .carry).toNat) := by
  obtain ⟨sum, hsum, hlaw⟩ := (binary_adds decimalMode).chain Numeral.sum_digitwise hr ha hb
  rw [(flags_adc_chain hr (ha.length_eq.trans hb.length_eq.symm) (ha.ne_nil hn)).2,
    Numeral.Sum.not_fitsSigned_iff hn ha.lt hb.lt hsum.lt (Bool.toNat_le _) (Bool.toNat_le _) hlaw,
    ← Numeral.topBit_iff ha hn, ← Numeral.topBit_iff hb hn, ← Numeral.topBit_iff hsum hn]
  cases topBit as <;> cases topBit bs <;> cases topBit (r.chain (adc decimalMode) as bs).1 <;>
    decide

/-- A pass of subtractions compares the numbers, read with their signs. -/
theorem negative_xor_overflow_sbc_chain_iff :
    ((r.chain (sbc decimalMode) as bs).2.status.get .negative
        ^^ (r.chain (sbc decimalMode) as bs).2.status.get .overflow) = true
      ↔ signed n a < signed n b + r.borrow := by
  obtain ⟨difference, hdifference, hlaw⟩ :=
    (binary_subtracts decimalMode).chain Numeral.difference_digitwise hr ha hb
  have hborrow : r.borrow ≤ 1 := Bool.toNat_le _
  obtain ⟨hnegative, hoverflow⟩ :=
    flags_sbc_chain hr (ha.length_eq.trans hb.length_eq.symm) (ha.ne_nil hn)
  rw [hnegative, hoverflow,
    Numeral.Difference.signed_lt_iff hn ha.lt hb.lt hdifference.lt hborrow (Bool.toNat_le _) hlaw,
    ← Numeral.topBit_iff ha hn, ← Numeral.topBit_iff hb hn, ← Numeral.topBit_iff hdifference hn]
  cases topBit as <;> cases topBit bs <;> cases topBit (r.chain (sbc decimalMode) as bs).1 <;>
    decide

end

/-! ## Comparisons -/

@[simp] theorem borrow_sec (r : Registers) : r.sec.borrow = 0 := by
  simp [borrow, sec]

/-- Without a borrow, the difference is that of the bytes. -/
theorem difference_sec (r : Registers) (b : UInt8) : r.sec.difference b = r.a - b := by
  have hb := b.toNat_lt
  apply UInt8.toNat_inj.mp
  rw [difference, borrow_sec, UInt8.toNat_ofNat', UInt8.toNat_sub]
  show (256 + r.a.toNat - b.toNat - 0) % 2 ^ 8 = _
  omega

/-- A comparison is a subtraction that borrows nothing to begin with, and of which
nothing is kept but the zero and negative flags and the carry. -/
theorem cmp_eq (decimalMode : Bool) (r : Registers) (b : UInt8) :
    let compared := (r.sec.sbc decimalMode b).status
    r.cmp b
      = { r with
          status :=
            ((r.status.put .negative (compared.get .negative)).put .zero (compared.get .zero)).put
              .carry (compared.get .carry) } := by
  intro compared
  have hcompared : compared = r.sec.differenceStatus b := rfl
  have hcarry : decide (b ≤ r.a) = compared.get .carry := by
    rw [hcompared, carry_differenceStatus, borrow_sec]
    rfl
  have hnegative : compared.get .negative = bitAt (r.a - b) 7 := by
    simp [hcompared, differenceStatus, difference_sec]
  have hzero : compared.get .zero = (r.a - b == 0) := by
    simp [hcompared, differenceStatus, difference_sec]
  have hstatus : r.status.compare r.a b
      = ((r.status.put .negative (compared.get .negative)).put .zero (compared.get .zero)).put
          .carry (compared.get .carry) := by
    rw [← hcarry, hnegative, hzero]
    apply Status.ext_get
    · intro f
      cases f <;> simp [Status.compare]
    · simp [Status.compare]
  rw [cmp, hstatus]

/-! ## Numbers of any length -/

/-- On a processor that does not add in decimal, additions from the low bytes up
store the sum of two numbers, modulo what their bytes can hold. The carry tells
whether they cannot hold it; the overflow flag tells whether they cannot hold it with
its sign, and the negative flag is the sign that they do hold. Subtractions store the
difference. The carry tells whether the first number was large enough, and of the
negative and the overflow flag one is set if it was not, read with a sign. Of single
bytes, a comparison is a subtraction that borrows nothing to begin with, and leaves A
and the overflow flag alone. -/
theorem binary_arithmetic {r : Registers} (hr : AddsInBinary decimalMode r) {as bs : List UInt8}
    {n a b : Nat} (hn : 0 < n) (ha : Numeral.binary.Represents as n a)
    (hb : Numeral.binary.Represents bs n b) :
    let sum := r.chain (adc decimalMode) as bs
    let difference := r.chain (sbc decimalMode) as bs
    (Numeral.binary.Represents sum.1 n ((a + b + (r.status.get .carry).toNat) % 256 ^ n)
        ∧ (sum.2.status.get .carry = true ↔ 256 ^ n ≤ a + b + (r.status.get .carry).toNat)
        ∧ (sum.2.status.get .overflow = true
          ↔ ¬ FitsSigned n (signed n a + signed n b + (r.status.get .carry).toNat))
        ∧ (sum.2.status.get .negative = true
          ↔ signed n ((a + b + (r.status.get .carry).toNat) % 256 ^ n) < 0))
      ∧ (Numeral.binary.Represents difference.1 n
            (((a : Int) - b - r.borrow) % (256 ^ n : Nat)).toNat
          ∧ (difference.2.status.get .carry = true ↔ b + r.borrow ≤ a)
          ∧ ((difference.2.status.get .negative ^^ difference.2.status.get .overflow) = true
            ↔ signed n a < signed n b + r.borrow))
      ∧ ∀ operand : UInt8,
          let compared := (r.sec.sbc decimalMode operand).status
          r.cmp operand
            = { r with
                status :=
                  ((r.status.put .negative (compared.get .negative)).put .zero
                    (compared.get .zero)).put .carry (compared.get .carry) } := by
  obtain ⟨hsum, hcarry⟩ := (binary_adds decimalMode).represents hr ha hb
  obtain ⟨hdifference, hborrow⟩ := (binary_subtracts decimalMode).represents hr ha hb
  refine ⟨⟨hsum, hcarry, overflow_adc_chain_iff hr hn ha hb, ?_⟩,
    ⟨hdifference, hborrow, negative_xor_overflow_sbc_chain_iff hr hn ha hb⟩, ?_⟩
  · rw [(flags_adc_chain hr (ha.length_eq.trans hb.length_eq.symm) (ha.ne_nil hn)).1,
      Numeral.topBit_iff hsum hn]
    exact (Numeral.signed_neg_iff hsum.lt).symm
  · exact cmp_eq decimalMode r

/-- Registers with the decimal flag and the carry set. -/
def carrying : Registers where
  a := 0
  x := 0
  y := 0
  sp := 0xFD
  pc := 0
  status := (Status.powerOn.set .decimal).set .carry

/-- Without the decimal circuit, the largest number of two bytes with a sign and the
carry make the smallest one. -/
theorem binary_arithmetic_crossesSign :
    AddsInBinary false carrying
      ∧ Numeral.binary.Represents [0xFF, 0x7F] 2 32767
      ∧ Numeral.binary.Represents [0x00, 0x00] 2 0
      ∧ Numeral.binary.Represents (carrying.chain (adc false) [0xFF, 0x7F] [0x00, 0x00]).1 2 32768
      ∧ (carrying.chain (adc false) [0xFF, 0x7F] [0x00, 0x00]).2.status.get .overflow = true
      ∧ (carrying.chain (adc false) [0xFF, 0x7F] [0x00, 0x00]).2.status.get .negative = true := by
  have ha : Numeral.binary.Represents [0xFF, 0x7F] 2 32767 := ⟨rfl, fun _ _ => trivial, rfl⟩
  have hb : Numeral.binary.Represents [0x00, 0x00] 2 0 := ⟨rfl, fun _ _ => trivial, rfl⟩
  obtain ⟨⟨hsum, -, hoverflow, hnegative⟩, -, -⟩ :=
    binary_arithmetic (show AddsInBinary false carrying from rfl) (by decide) ha hb
  exact ⟨rfl, ha, hb, hsum, hoverflow.mpr (by decide), hnegative.mpr (by decide)⟩

end Registers

end VideoComputer
