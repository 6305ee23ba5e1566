/-
VideoComputer.Proofs.Cpu.DecimalNumbers — decimal arithmetic on numbers of any
length.

With the decimal flag set, a byte is two decimal digits and a list of bytes is a
decimal number. The corrections that the adder makes nibble by nibble are right
for digits: A and the carry are the decimal sum, A and the borrow the decimal
difference, although on subtraction the carry is that of the binary difference.
The laws about numbers of several bytes follow.

* `Numeral.decimal` — two decimal digits in a byte.
* `addDecimal_digits`, `decimalDifference_digits` — one byte.
* `decimal_adds`, `decimal_subtracts` — the same as laws about a byte.
* `decimal_arithmetic` — numbers of any length.
-/
import VideoComputer.Proofs.Cpu.MultiByte

namespace VideoComputer

/-- Two decimal digits in a byte, one in each nibble. -/
def Numeral.decimal : Numeral where
  base := 100
  IsDigit b := b.toNat / 16 < 10 ∧ b.toNat % 16 < 10
  value b := 10 * (b.toNat / 16) + b.toNat % 16
  one_lt_base := by decide
  value_lt b h := by omega
  value_inj a b ha hb h := by
    apply UInt8.toNat_inj.mp
    omega

instance : DecidablePred Numeral.decimal.IsDigit := fun _ => inferInstanceAs (Decidable (_ ∧ _))

/-- The byte of two given digits. -/
theorem Numeral.decimal_ofNibbles {units tens : Nat} (hunits : units < 10) (htens : tens < 10) :
    decimal.IsDigit (UInt8.ofNat (units + 16 * tens))
      ∧ decimal.value (UInt8.ofNat (units + 16 * tens)) = 10 * tens + units := by
  have hbyte : (UInt8.ofNat (units + 16 * tens)).toNat = units + 16 * tens := by
    rw [UInt8.toNat_ofNat']
    omega
  simp only [decimal, hbyte]
  omega

namespace Registers

/-! ## The corrections -/

/-- The correction of a nibble upwards leaves a digit, and what it lacks are the
tens. -/
theorem corrected_sum {n : Nat} (h : n < 20) :
    (if 9 < n then n + 6 else n) % 16 < 10
      ∧ n = (if 9 < n then n + 6 else n) % 16 + 10 * if 9 < n then 1 else 0 := by
  split <;> omega

/-- The correction of a nibble downwards leaves a digit, and what it has too much
are the tens. -/
theorem corrected_difference {n : Int} (h : -10 ≤ n) (h' : n < 10) :
    ((if n < 0 then n - 6 else n) % 16).toNat < 10
      ∧ (((if n < 0 then n - 6 else n) % 16).toNat : Int)
        = n + 10 * (if n < 0 then 1 else 0 : Nat) := by
  split <;> omega

/-! ## One byte -/

/-- The sum of two digits of each place, corrected, is the decimal sum. -/
theorem addDecimal_digits (r : Registers) {b : UInt8} (ha : Numeral.decimal.IsDigit r.a)
    (hb : Numeral.decimal.IsDigit b) :
    Numeral.decimal.IsDigit (r.addDecimal b).a
      ∧ Numeral.decimal.value r.a + Numeral.decimal.value b + (r.status.get .carry).toNat
        = Numeral.decimal.value (r.addDecimal b).a
          + 100 * ((r.addDecimal b).status.get .carry).toNat := by
  have hcarry := (r.status.get .carry).toNat_le
  have hadigits : r.a.toNat / 16 < 10 ∧ r.a.toNat % 16 < 10 := ha
  have hbdigits : b.toNat / 16 < 10 ∧ b.toNat % 16 < 10 := hb
  simp only [addDecimal, Status.get_put, if_true]
  generalize hu : r.a.toNat % 16 + b.toNat % 16 + (r.status.get .carry).toNat = units
  obtain ⟨hunits, hlow⟩ := corrected_sum (n := units) (by omega)
  generalize ht : (if 9 < units then r.a.toNat / 16 + b.toNat / 16 + 1
    else r.a.toNat / 16 + b.toNat / 16) = tens
  have hcarried : tens = r.a.toNat / 16 + b.toNat / 16 + if 9 < units then 1 else 0 := by
    rw [← ht]
    split <;> rfl
  obtain ⟨htens, hhigh⟩ := corrected_sum (n := tens) (by split at hcarried <;> omega)
  have hcarryOut : (decide (16 ≤ if 9 < tens then tens + 6 else tens)).toNat
      = if 9 < tens then 1 else 0 := by
    split <;> simp <;> omega
  obtain ⟨hdigit, hvalue⟩ := Numeral.decimal_ofNibbles hunits htens
  refine ⟨hdigit, ?_⟩
  rw [hvalue, hcarryOut]
  show 10 * (r.a.toNat / 16) + r.a.toNat % 16 + (10 * (b.toNat / 16) + b.toNat % 16)
    + (r.status.get .carry).toNat = _
  omega

/-- The difference of two digits of each place, corrected, is the decimal
difference, and the borrow of the binary difference is its borrow. -/
theorem decimalDifference_digits (r : Registers) {b : UInt8}
    (ha : Numeral.decimal.IsDigit r.a) (hb : Numeral.decimal.IsDigit b) :
    Numeral.decimal.IsDigit (r.decimalDifference b)
      ∧ Numeral.decimal.value (r.decimalDifference b) + Numeral.decimal.value b + r.borrow
        = Numeral.decimal.value r.a + 100 * (!(r.differenceStatus b).get .carry).toNat := by
  have hborrow : r.borrow ≤ 1 := Bool.toNat_le _
  have hadigits : r.a.toNat / 16 < 10 ∧ r.a.toNat % 16 < 10 := ha
  have hbdigits : b.toNat / 16 < 10 ∧ b.toNat % 16 < 10 := hb
  simp only [decimalDifference]
  generalize hu : ((r.a.toNat % 16 : Nat) : Int) - (b.toNat % 16 : Nat) - (r.borrow : Nat) = units
  obtain ⟨hunits, hlow⟩ := corrected_difference (n := units) (by omega) (by omega)
  generalize ht : (if units < 0 then ((r.a.toNat / 16 : Nat) : Int) - (b.toNat / 16 : Nat) - 1
    else ((r.a.toNat / 16 : Nat) : Int) - (b.toNat / 16 : Nat)) = tens
  have hborrowed : tens
      = (r.a.toNat / 16 : Nat) - (b.toNat / 16 : Nat) - (if units < 0 then 1 else 0 : Nat) := by
    rw [← ht]
    split <;> omega
  obtain ⟨htens, hhigh⟩ := corrected_difference (n := tens) (by split at hborrowed <;> omega)
    (by split at hborrowed <;> omega)
  have hborrowOut : (!(r.differenceStatus b).get .carry).toNat = if tens < 0 then 1 else 0 := by
    have hsign : tens < 0 ↔ ¬ b.toNat + r.borrow ≤ r.a.toNat := by
      split at hborrowed <;> omega
    rw [carry_differenceStatus]
    by_cases h : b.toNat + r.borrow ≤ r.a.toNat <;> simp [hsign, h]
  obtain ⟨hdigit, hvalue⟩ := Numeral.decimal_ofNibbles hunits htens
  refine ⟨hdigit, ?_⟩
  rw [hvalue, hborrowOut]
  show _ + (10 * (b.toNat / 16) + b.toNat % 16) + _
    = 10 * (r.a.toNat / 16) + r.a.toNat % 16 + _
  omega

theorem adc_of_decimal {r : Registers} (h : r.status.get .decimal = true) (b : UInt8) :
    r.adc true b = r.addDecimal b := if_pos h

theorem a_sbc_of_decimal {r : Registers} (h : r.status.get .decimal = true) (b : UInt8) :
    (r.sbc true b).a = r.decimalDifference b := if_pos h

/-- With the decimal flag set, the processor with the circuit adds in decimal. -/
theorem decimal_adds : Numeral.decimal.Adds (fun r => r.status.get .decimal = true) (adc true) where
  mode r a b hr := by
    rw [(puts_adc true _ b).get_eq (by decide), get_lda]
    exact hr
  isDigit r a b hr ha hb := by
    rw [adc_of_decimal (r := r.lda a) (by rwa [get_lda])]
    exact (addDecimal_digits (r.lda a) ha hb).1
  law r a b hr ha hb := by
    have hdigits := (addDecimal_digits (r.lda a) ha hb).2
    rw [get_lda] at hdigits
    rwa [adc_of_decimal (r := r.lda a) (by rwa [get_lda])]

/-- And it subtracts in decimal. -/
theorem decimal_subtracts :
    Numeral.decimal.Subtracts (fun r => r.status.get .decimal = true) (sbc true) where
  mode r a b hr := by
    show ((r.lda a).differenceStatus b).get .decimal = true
    rw [(puts_differenceStatus _ b).get_eq (by decide), get_lda]
    exact hr
  isDigit r a b hr ha hb := by
    rw [a_sbc_of_decimal (r := r.lda a) (by rwa [get_lda])]
    exact (decimalDifference_digits (r.lda a) ha hb).1
  law r a b hr ha hb := by
    have hdigits := (decimalDifference_digits (r.lda a) ha hb).2
    rw [borrow_lda] at hdigits
    rwa [a_sbc_of_decimal (r := r.lda a) (by rwa [get_lda])]

/-! ## Numbers of any length -/

/-- With the decimal flag set, additions from the low bytes up store the decimal
sum of two numbers, modulo what their bytes can hold, and leave in the carry
whether they cannot hold it. Subtractions store the difference, and leave in the
carry whether nothing had to be borrowed. So the second number, subtracted from
the sum with the other carry to start with, gives the first one again, and the
other carry at the end. -/
theorem decimal_arithmetic {r : Registers} (hr : r.status.get .decimal = true) {as bs : List UInt8}
    {n a b : Nat} (ha : Numeral.decimal.Represents as n a)
    (hb : Numeral.decimal.Represents bs n b) :
    let sum := r.chain (adc true) as bs
    let difference := r.chain (sbc true) as bs
    (Numeral.decimal.Represents sum.1 n ((a + b + (r.status.get .carry).toNat) % 100 ^ n)
        ∧ (sum.2.status.get .carry = true ↔ 100 ^ n ≤ a + b + (r.status.get .carry).toNat))
      ∧ (Numeral.decimal.Represents difference.1 n
            (((a : Int) - b - r.borrow) % (100 ^ n : Nat)).toNat
          ∧ (difference.2.status.get .carry = true ↔ b + r.borrow ≤ a))
      ∧ ∀ r' : Registers, r'.status.get .decimal = true →
          r'.status.get .carry = !r.status.get .carry →
          let back := r'.chain (sbc true) sum.1 bs
          back.1 = as ∧ back.2.status.get .carry = !sum.2.status.get .carry := by
  refine ⟨decimal_adds.represents hr ha hb, decimal_subtracts.represents hr ha hb, ?_⟩
  intro r' hr' hcarry
  exact decimal_subtracts.restores decimal_adds hr hr' hcarry ha hb

/-- Registers with the decimal flag set and the carry clear. -/
def inDecimal : Registers where
  a := 0
  x := 0
  y := 0
  sp := 0xFD
  pc := 0
  status := Status.powerOn.set .decimal

/-- The sum of 2599 and 7501 goes a hundred beyond what four digits can hold. -/
theorem decimal_arithmetic_carriesOut :
    Numeral.decimal.Represents [0x99, 0x25] 2 2599
      ∧ Numeral.decimal.Represents [0x01, 0x75] 2 7501
      ∧ Numeral.decimal.Represents (inDecimal.chain (adc true) [0x99, 0x25] [0x01, 0x75]).1 2 100
      ∧ (inDecimal.chain (adc true) [0x99, 0x25] [0x01, 0x75]).2.status.get .carry = true := by
  have ha : Numeral.decimal.Represents [0x99, 0x25] 2 2599 :=
    ⟨rfl, List.forall_mem_cons.mpr ⟨by decide, List.forall_mem_singleton.mpr (by decide)⟩, rfl⟩
  have hb : Numeral.decimal.Represents [0x01, 0x75] 2 7501 :=
    ⟨rfl, List.forall_mem_cons.mpr ⟨by decide, List.forall_mem_singleton.mpr (by decide)⟩, rfl⟩
  obtain ⟨⟨hsum, hcarry⟩, -, -⟩ := decimal_arithmetic (r := inDecimal) rfl ha hb
  exact ⟨ha, hb, hsum, hcarry.mpr (by decide)⟩

end Registers

end VideoComputer
