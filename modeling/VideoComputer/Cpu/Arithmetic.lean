/-
VideoComputer.Cpu.Arithmetic — addition and subtraction with carry, binary and
decimal.

In decimal mode a byte is two decimal digits, one per nibble. The adder is a
binary one with a correction per nibble, and its flags show where in that
process they are taken: on addition zero comes from the uncorrected binary
sum, negative and overflow from the high nibble after the low one has been
corrected, and the carry from the very end; on subtraction all flags are those
of the binary difference. For nibbles above nine, which are no digits, the
corrections are applied all the same.

A processor may be built without the decimal circuit; then the decimal flag is
an ordinary flag that no operation looks at.
-/
import VideoComputer.Cpu.Registers

namespace VideoComputer.Registers

/-! ## Addition -/

/-- A + operand + carry in binary (`binary_adc`). Overflow is set when both
summands have the same sign and the sum has the other one. -/
def addBinary (r : Registers) (operand : UInt8) : Registers :=
  let sum := r.a.toNat + operand.toNat + (r.status.get .carry).toNat
  let result := UInt8.ofNat sum
  let overflow := bitAt r.a 7 == bitAt operand 7 && bitAt r.a 7 != bitAt result 7
  let status := r.status.withZeroNegative result
  { r with
    a := result
    status := (status.put .carry (decide (255 < sum))).put .overflow overflow }

/-- A + operand + carry in decimal, nibble by nibble (`decimal_adc`). -/
def addDecimal (r : Registers) (operand : UInt8) : Registers :=
  let units := r.a.toNat % 16 + operand.toNat % 16 + (r.status.get .carry).toNat
  let tens := r.a.toNat / 16 + operand.toNat / 16
  let zero := (units + 16 * tens) % 256 == 0
  -- a low nibble above nine is corrected by six and carries into the tens
  let tens := if 9 < units then tens + 1 else tens
  let units := if 9 < units then units + 6 else units
  let negative := tens.testBit 3
  let overflow := bitAt r.a 7 == bitAt operand 7 && bitAt r.a 7 != negative
  let tens := if 9 < tens then tens + 6 else tens
  let status := (r.status.put .zero zero).put .negative negative
  { r with
    a := UInt8.ofNat (units % 16 + 16 * (tens % 16))
    status := (status.put .overflow overflow).put .carry (decide (16 ≤ tens)) }

theorem carry_addBinary (r : Registers) (operand : UInt8) :
    (r.addBinary operand).status.get .carry
      = decide (255 < r.a.toNat + operand.toNat + (r.status.get .carry).toNat) := by
  simp [addBinary]

/-- Add with carry. The decimal flag counts only if the processor has the
decimal circuit. -/
def adc (decimalMode : Bool) (r : Registers) (operand : UInt8) : Registers :=
  if decimalMode && r.status.get .decimal then r.addDecimal operand else r.addBinary operand

/-- The flags that tell about a sum or a difference. -/
def resultFlags : List Flag := [.negative, .overflow, .zero, .carry]

theorem puts_adc (decimalMode : Bool) (r : Registers) (operand : UInt8) :
    Status.Puts resultFlags r.status (r.adc decimalMode operand).status := by
  unfold adc
  split
  · exact (((Status.Puts.refl.put (by decide) _).put (by decide) _).put (by decide) _).put
      (by decide) _
  · exact ((Status.Puts.refl.withZeroNegative (by decide) (by decide) _).put (by decide) _).put
      (by decide) _

/-! ## Subtraction -/

/-- The borrow that comes into a subtraction: one when the carry is clear. -/
def borrow (r : Registers) : Nat := (!r.status.get .carry).toNat

@[simp] theorem borrow_lda (r : Registers) (operand : UInt8) :
    (r.lda operand).borrow = r.borrow := by
  simp [borrow]

/-- The binary difference A - operand - borrow, modulo 256. -/
def difference (r : Registers) (operand : UInt8) : UInt8 :=
  UInt8.ofNat (256 + r.a.toNat - operand.toNat - r.borrow)

/-- The flags of the binary difference: carry when no borrow goes out,
overflow when the operands have different signs and the difference does not
have the sign of A. -/
def differenceStatus (r : Registers) (operand : UInt8) : Status :=
  let result := r.difference operand
  let overflow := bitAt r.a 7 != bitAt operand 7 && bitAt r.a 7 != bitAt result 7
  ((r.status.put .overflow overflow).withZeroNegative result).put .carry
    (decide (operand.toNat + r.borrow ≤ r.a.toNat))

theorem carry_differenceStatus (r : Registers) (operand : UInt8) :
    (r.differenceStatus operand).get .carry = decide (operand.toNat + r.borrow ≤ r.a.toNat) := by
  simp [differenceStatus]

theorem puts_differenceStatus (r : Registers) (operand : UInt8) :
    Status.Puts resultFlags r.status (r.differenceStatus operand) :=
  ((Status.Puts.refl.put (by decide) _).withZeroNegative (by decide) (by decide) _).put
    (by decide) _

/-- The decimal difference of A, operand and borrow, nibble by nibble: a nibble
that falls below zero is corrected by six, and the low one borrows from the
tens. -/
def decimalDifference (r : Registers) (operand : UInt8) : UInt8 :=
  let units : Int := (r.a.toNat % 16 : Nat) - (operand.toNat % 16 : Nat) - (r.borrow : Nat)
  let tens : Int := (r.a.toNat / 16 : Nat) - (operand.toNat / 16 : Nat)
  let tens := if units < 0 then tens - 1 else tens
  let units := if units < 0 then units - 6 else units
  let tens := if tens < 0 then tens - 6 else tens
  UInt8.ofNat ((units % 16).toNat + 16 * (tens % 16).toNat)

/-- Subtract with borrow. The flags always are those of the binary
difference; the decimal flag, if the processor has the decimal circuit, only
decides which difference is left in A. -/
def sbc (decimalMode : Bool) (r : Registers) (operand : UInt8) : Registers :=
  let result :=
    if decimalMode && r.status.get .decimal then r.decimalDifference operand
    else r.difference operand
  { r with a := result, status := r.differenceStatus operand }

end VideoComputer.Registers
