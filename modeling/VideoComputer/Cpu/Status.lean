/-
VideoComputer.Cpu.Status — the status register, and the operations whose only
effect on the registers is on its flags.

The register is a byte. Six of its bits are flags that operations set and
clear one at a time. Bit 4, "break", is a place for a flag that exists only in
a byte that is pushed: there it tells a push of the program from one of a
hardware interrupt. Bit 5 is not wired and shows as 1. Nothing in the type of
the register keeps these two bits at 0; `toByte` supplies them, `ofByte` drops
them, and everything else sets flags.

Shifts, increments and comparisons are functions on the register and a byte:
their types say that they touch no other register.

* `Status.get`, `set`, `clear`, `put` — one flag.
* `Status.toByte`, `ofByte` — the byte on the stack.
* `Status.Unwired` — nothing is stored in the two bits that are no flags.
-/
import VideoComputer.Bits

namespace VideoComputer

/-! ## Flags -/

/-- A place for a flag in the status byte. `brk` is the one that is never
stored. -/
inductive Flag where
  | negative
  | overflow
  | brk
  | decimal
  | interruptDisable
  | zero
  | carry
  deriving DecidableEq, Repr

namespace Flag

/-- The bit of a flag. -/
def bit : Flag → Nat
  | .negative => 7
  | .overflow => 6
  | .brk => 4
  | .decimal => 3
  | .interruptDisable => 2
  | .zero => 1
  | .carry => 0

theorem bit_lt (f : Flag) : f.bit < 8 := by
  cases f <;> decide

theorem bit_ne_five (f : Flag) : f.bit ≠ 5 := by
  cases f <;> decide

theorem bit_inj {f f' : Flag} : f.bit = f'.bit ↔ f = f' := by
  cases f <;> cases f' <;> decide

/-- The bits of a byte are those of the flags, and bit 5. -/
theorem exists_bit {n : Nat} (hn : n < 8) : n = 5 ∨ ∃ f : Flag, f.bit = n := by
  match n, hn with
  | 0, _ => exact .inr ⟨.carry, rfl⟩
  | 1, _ => exact .inr ⟨.zero, rfl⟩
  | 2, _ => exact .inr ⟨.interruptDisable, rfl⟩
  | 3, _ => exact .inr ⟨.decimal, rfl⟩
  | 4, _ => exact .inr ⟨.brk, rfl⟩
  | 5, _ => exact .inl rfl
  | 6, _ => exact .inr ⟨.overflow, rfl⟩
  | 7, _ => exact .inr ⟨.negative, rfl⟩

/-- A byte is its flags and bit 5. -/
theorem byte_ext {a b : UInt8} (h : ∀ f : Flag, bitAt a f.bit = bitAt b f.bit)
    (h5 : bitAt a 5 = bitAt b 5) : a = b := by
  apply eq_of_bitAt
  intro n
  by_cases hn : n < 8
  · obtain rfl | ⟨f, rfl⟩ := exists_bit hn
    · exact h5
    · exact h f
  · rw [bitAt_of_le a (Nat.not_lt.mp hn), bitAt_of_le b (Nat.not_lt.mp hn)]

end Flag

/-! ## The register -/

/-- The status register, as it is stored. -/
structure Status where
  bits : UInt8
  deriving DecidableEq, Repr

namespace Status

/-- Whether a flag is set. -/
def get (s : Status) (f : Flag) : Bool := bitAt s.bits f.bit

/-- Sets a flag. -/
def set (s : Status) (f : Flag) : Status := ⟨s.bits ||| flagAt true f.bit⟩

/-- Clears a flag. -/
def clear (s : Status) (f : Flag) : Status := ⟨s.bits &&& ~~~flagAt true f.bit⟩

/-- Sets or clears a flag (`set_value`). -/
def put (s : Status) (f : Flag) (value : Bool) : Status :=
  if value then s.set f else s.clear f

/-- The register after a reset: interrupts are masked and nothing else is set
(`power_on`). -/
def powerOn : Status := set ⟨0⟩ .interruptDisable

theorem bitAt_put (s : Status) (f : Flag) (value : Bool) {n : Nat} (hn : n < 8) :
    bitAt (s.put f value).bits n = if f.bit = n then value else bitAt s.bits n := by
  cases value with
  | true =>
    simp only [put, set, if_true, bitAt_or, bitAt_flagAt _ f.bit_lt, Bool.true_and]
    by_cases h : f.bit = n <;> simp [h]
  | false =>
    simp only [put, clear, Bool.false_eq_true, if_false, bitAt_and, bitAt_not _ hn,
      bitAt_flagAt _ f.bit_lt, Bool.true_and]
    by_cases h : f.bit = n <;> simp [h]

/-- A flag that is put is read back, and the others are what they were. -/
@[simp] theorem get_put (s : Status) (f f' : Flag) (value : Bool) :
    (s.put f value).get f' = if f = f' then value else s.get f' := by
  simp only [get, bitAt_put s f value f'.bit_lt, Flag.bit_inj]

@[simp] theorem get_set (s : Status) (f f' : Flag) :
    (s.set f).get f' = if f = f' then true else s.get f' := s.get_put f f' true

@[simp] theorem get_clear (s : Status) (f f' : Flag) :
    (s.clear f).get f' = if f = f' then false else s.get f' := s.get_put f f' false

/-- No flag is put into bit 5. -/
@[simp] theorem bitAt_put_five (s : Status) (f : Flag) (value : Bool) :
    bitAt (s.put f value).bits 5 = bitAt s.bits 5 := by
  rw [bitAt_put s f value (by decide), if_neg f.bit_ne_five]

/-- A register is its flags and bit 5. -/
theorem ext_get {s s' : Status} (h : ∀ f, s.get f = s'.get f)
    (h5 : bitAt s.bits 5 = bitAt s'.bits 5) : s = s' := by
  obtain ⟨bits⟩ := s
  obtain ⟨bits'⟩ := s'
  exact congrArg mk (Flag.byte_ext h h5)

/-- Of two values that are put, one after the other, the first does not show. -/
theorem put_put (s : Status) (f : Flag) (value value' : Bool) :
    (s.put f value).put f value' = s.put f value' := by
  apply ext_get
  · intro f'
    simp only [get_put]
    split <;> rfl
  · simp

/-- To put what is there changes nothing. -/
theorem put_get (s : Status) (f : Flag) : s.put f (s.get f) = s := by
  apply ext_get
  · intro f'
    rw [get_put]
    split
    · next h => rw [h]
    · rfl
  · simp

/-! ## The status byte -/

/-- The bit that is not wired. -/
def unusedBit : UInt8 := flagAt true 5

/-- The bit that tells a push of the program from one of an interrupt. -/
def breakBit : UInt8 := flagAt true 4

/-- The byte that is shown. Bit 5 always reads 1. -/
def shown (s : Status) : UInt8 := s.bits ||| unusedBit

/-- The byte that is pushed, with the given break bit (`to_stack`). -/
def toByte (s : Status) (isBreak : Bool) : UInt8 :=
  if isBreak then s.shown ||| breakBit else s.shown &&& ~~~breakBit

/-- The register after a byte is pulled: its bits 4 and 5 are dropped
(`from_stack`). -/
def ofByte (byte : UInt8) : Status := ⟨byte &&& ~~~(unusedBit ||| breakBit)⟩

/-- Nothing is stored in the two bits that are no flags. -/
def Unwired (s : Status) : Prop := s.get .brk = false ∧ bitAt s.bits 5 = false

instance (s : Status) : Decidable s.Unwired := inferInstanceAs (Decidable (_ ∧ _))

theorem bitAt_shown (s : Status) (n : Nat) : bitAt s.shown n = (bitAt s.bits n || 5 == n) := by
  rw [shown, bitAt_or, unusedBit, bitAt_flagAt _ (by decide), Bool.true_and]

theorem bitAt_toByte (s : Status) (isBreak : Bool) {n : Nat} (hn : n < 8) :
    bitAt (s.toByte isBreak) n = if 4 = n then isBreak else bitAt s.shown n := by
  cases isBreak with
  | true =>
    rw [toByte, if_pos rfl, bitAt_or, breakBit, bitAt_flagAt _ (by decide)]
    by_cases h : 4 = n <;> simp [h]
  | false =>
    rw [toByte, if_neg Bool.false_ne_true, bitAt_and, bitAt_not _ hn, breakBit,
      bitAt_flagAt _ (by decide)]
    by_cases h : 4 = n <;> simp [h]

theorem bitAt_ofByte (byte : UInt8) {n : Nat} (hn : n < 8) :
    bitAt (ofByte byte).bits n = (bitAt byte n && !(5 == n) && !(4 == n)) := by
  simp only [ofByte, unusedBit, breakBit, bitAt_and, bitAt_not _ hn, bitAt_or]
  rw [bitAt_flagAt _ (by decide), bitAt_flagAt _ (by decide)]
  simp [Bool.and_assoc]

/-- A pull takes over all flags but the break bit. -/
@[simp] theorem get_ofByte (byte : UInt8) (f : Flag) :
    (ofByte byte).get f = if f = .brk then false else bitAt byte f.bit := by
  rw [get, bitAt_ofByte byte f.bit_lt]
  cases f <;> simp [Flag.bit]

/-- Whatever is pulled, the two other bits are not stored. -/
theorem unwired_ofByte (byte : UInt8) : (ofByte byte).Unwired := by
  refine ⟨get_ofByte byte .brk, ?_⟩
  rw [bitAt_ofByte byte (by decide)]
  simp

theorem unwired_powerOn : powerOn.Unwired := by
  decide

/-- The byte that is pushed shows the flags that are stored. -/
theorem bitAt_toByte_flag (s : Status) (isBreak : Bool) {f : Flag} (hf : f ≠ .brk) :
    bitAt (s.toByte isBreak) f.bit = s.get f := by
  rw [bitAt_toByte s isBreak f.bit_lt, bitAt_shown, get]
  cases f with
  | brk => exact absurd rfl hf
  | _ => simp [Flag.bit]

/-- Pushing the register and pulling it again changes nothing but the two bits
that are no flags, whichever way the break bit was written. -/
theorem get_ofByte_toByte (s : Status) (isBreak : Bool) (f : Flag) :
    (ofByte (s.toByte isBreak)).get f = if f = .brk then false else s.get f := by
  rw [get_ofByte]
  split
  · rfl
  · next hf => exact s.bitAt_toByte_flag isBreak hf

/-- With nothing stored there, it changes nothing. -/
theorem Unwired.ofByte_toByte {s : Status} (h : s.Unwired) (isBreak : Bool) :
    ofByte (s.toByte isBreak) = s := by
  apply ext_get
  · intro f
    rw [get_ofByte_toByte]
    split
    · next hf => rw [hf, h.1]
    · rfl
  · rw [h.2]
    exact (unwired_ofByte _).2

/-- Then the byte that is shown has bit 5 set and bit 4 clear. -/
theorem Unwired.bitAt_shown {s : Status} (h : s.Unwired) :
    bitAt s.shown 5 = true ∧ bitAt s.shown 4 = false := by
  rw [s.bitAt_shown, s.bitAt_shown]
  constructor
  · simp
  · rw [show bitAt s.bits 4 = false from h.1]
    rfl

/-- Bit 4 of the byte that is pushed is what the writer wanted. -/
theorem bitAt_toByte_break (s : Status) (isBreak : Bool) :
    bitAt (s.toByte isBreak) 4 = isBreak := by
  rw [bitAt_toByte s isBreak (by decide), if_pos rfl]

/-- Bit 5 of the byte that is pushed is always set. -/
theorem bitAt_toByte_unused (s : Status) (isBreak : Bool) :
    bitAt (s.toByte isBreak) 5 = true := by
  rw [bitAt_toByte s isBreak (by decide), bitAt_shown]
  simp

/-! ## Flags from a result -/

/-- Zero and negative as they follow from a result byte
(`set_zero_negative`). -/
def withZeroNegative (s : Status) (result : UInt8) : Status :=
  (s.put .zero (result == 0)).put .negative (bitAt result 7)

/-- The flags after comparing a register with an operand: carry when the
register is not below the operand, zero and negative from the difference. -/
def compare (s : Status) (register operand : UInt8) : Status :=
  (s.put .carry (decide (operand ≤ register))).withZeroNegative (register - operand)

@[simp] theorem get_withZeroNegative (s : Status) (result : UInt8) (f : Flag) :
    (s.withZeroNegative result).get f
      = if .negative = f then bitAt result 7 else if .zero = f then result == 0 else s.get f := by
  rw [withZeroNegative, get_put, get_put]

@[simp] theorem bitAt_withZeroNegative_five (s : Status) (result : UInt8) :
    bitAt (s.withZeroNegative result).bits 5 = bitAt s.bits 5 := by
  rw [withZeroNegative, bitAt_put_five, bitAt_put_five]

/-- Zero and negative that are put anew do not show what they were. -/
theorem put_zero_negative (s : Status) (result : UInt8) (zero negative : Bool) :
    ((s.withZeroNegative result).put .zero zero).put .negative negative
      = (s.put .zero zero).put .negative negative := by
  apply ext_get
  · intro f
    cases f <;> simp
  · simp

/-! ## One flag after the other -/

/-- Whether a register is what another one becomes when some of the given flags
are put. -/
inductive Puts (flags : List Flag) (s : Status) : Status → Prop where
  | refl : Puts flags s s
  | put {s' : Status} (h : Puts flags s s') {f : Flag} (hf : f ∈ flags) (value : Bool) :
    Puts flags s (s'.put f value)

namespace Puts

variable {flags flags' : List Flag} {s s' : Status}

theorem set (h : Puts flags s s') {f : Flag} (hf : f ∈ flags) : Puts flags s (s'.set f) :=
  h.put hf true

theorem clear (h : Puts flags s s') {f : Flag} (hf : f ∈ flags) : Puts flags s (s'.clear f) :=
  h.put hf false

theorem withZeroNegative (h : Puts flags s s') (hzero : .zero ∈ flags)
    (hnegative : .negative ∈ flags) (result : UInt8) :
    Puts flags s (s'.withZeroNegative result) :=
  (h.put hzero _).put hnegative _

theorem mono (h : Puts flags s s') (hflags : flags ⊆ flags') : Puts flags' s s' := by
  induction h with
  | refl => exact .refl
  | put _ hf value ih => exact ih.put (hflags hf) value

theorem trans {s'' : Status} (h : Puts flags s s') (h' : Puts flags s' s'') :
    Puts flags s s'' := by
  induction h' with
  | refl => exact h
  | put _ hf value ih => exact ih.put hf value

/-- The other flags are what they were, -/
theorem get_eq (h : Puts flags s s') {f : Flag} (hf : f ∉ flags) : s'.get f = s.get f := by
  induction h with
  | refl => rfl
  | put _ hmem value ih => rw [get_put, if_neg (ne_of_mem_of_not_mem hmem hf), ih]

/-- and so is bit 5, -/
theorem bitAt_five (h : Puts flags s s') : bitAt s'.bits 5 = bitAt s.bits 5 := by
  induction h with
  | refl => rfl
  | put _ _ value ih => rw [bitAt_put_five, ih]

/-- so nothing gets stored in the two bits that are no flags. -/
theorem unwired (h : Puts flags s s') (hbrk : .brk ∉ flags) (hs : s.Unwired) : s'.Unwired :=
  ⟨(h.get_eq hbrk).trans hs.1, h.bitAt_five.trans hs.2⟩

end Puts

theorem Unwired.set {s : Status} (h : s.Unwired) {f : Flag} (hf : f ≠ .brk) :
    (s.set f).Unwired := by
  refine ⟨?_, (s.bitAt_put_five f true).trans h.2⟩
  rw [get_set, if_neg hf, h.1]

/-! ## Operations on a byte and the flags -/

/-- Increment, modulo 256. -/
def inc (s : Status) (v : UInt8) : UInt8 × Status :=
  (v + 1, s.withZeroNegative (v + 1))

/-- Decrement, modulo 256. -/
def dec (s : Status) (v : UInt8) : UInt8 × Status :=
  (v - 1, s.withZeroNegative (v - 1))

/-- Shift left by one, moving `low` into bit 0 and bit 7 into the carry. -/
def shiftLeft (s : Status) (low : Bool) (v : UInt8) : UInt8 × Status :=
  let result := UInt8.ofNat (2 * v.toNat + low.toNat)
  (result, (s.put .carry (bitAt v 7)).withZeroNegative result)

/-- Shift right by one, moving `high` into bit 7 and bit 0 into the carry. -/
def shiftRight (s : Status) (high : Bool) (v : UInt8) : UInt8 × Status :=
  let result := UInt8.ofNat (v.toNat / 2 + 128 * high.toNat)
  (result, (s.put .carry (bitAt v 0)).withZeroNegative result)

@[simp] theorem carry_shiftLeft (s : Status) (low : Bool) (v : UInt8) :
    (s.shiftLeft low v).2.get .carry = bitAt v 7 := by
  simp [shiftLeft]

@[simp] theorem carry_shiftRight (s : Status) (high : Bool) (v : UInt8) :
    (s.shiftRight high v).2.get .carry = bitAt v 0 := by
  simp [shiftRight]

/-- Arithmetic shift left: a zero comes in. -/
def asl (s : Status) (v : UInt8) : UInt8 × Status := s.shiftLeft false v

/-- Logical shift right: a zero comes in. -/
def lsr (s : Status) (v : UInt8) : UInt8 × Status := s.shiftRight false v

/-- Rotate left: the carry comes in. -/
def rol (s : Status) (v : UInt8) : UInt8 × Status := s.shiftLeft (s.get .carry) v

/-- Rotate right: the carry comes in. -/
def ror (s : Status) (v : UInt8) : UInt8 × Status := s.shiftRight (s.get .carry) v

end Status

end VideoComputer
