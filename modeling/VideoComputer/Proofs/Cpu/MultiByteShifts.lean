/-
VideoComputer.Proofs.Cpu.MultiByteShifts — shifts and rotations of numbers of any length.

The processor moves the bits of one byte at a time. The bit that falls out of the byte is
in the carry then, and a rotation of the next byte takes it in. So a program shifts a
longer number by a shift of its first byte and rotations of all others: to the left it
begins with the low byte, and to the right with the high one.

A number that is moved to the left is added to itself, with the carry added in and the
bit that falls out as the carry of the sum. Read from the other side, the same equation
is the law of a move to the right: there the number is the sum, and what it is moved to
is the summand. So both follow from the law of sums byte by byte, whichever end they
begin at, and one undoes the other.

* `Status.pass` — the pass over the bytes of a number.
* `Status.shiftUp`, `Status.shiftDown` — from the low byte up, and from the high byte down.
* `sum_rol`, `sum_ror` — the law of one byte.
* `sum_shiftUp`, `sum_shiftDown` — the law of a number, by induction on its bytes.
* `shifts_of_numbers` — what the passes store, and the carry they end with.
-/
import VideoComputer.Proofs.Cpu.BinaryNumbers

namespace VideoComputer

/-! ## Passes -/

namespace Status

/-- Applies an operation to the first of several bytes and another one to all others,
each with the flags that the one before it leaves. Gives the bytes in the same order and
the flags at the end. -/
def pass (first next : Status → UInt8 → UInt8 × Status) :
    Status → List UInt8 → List UInt8 × Status
  | s, [] => ([], s)
  | s, byte :: bytes =>
    let (result, s) := first s byte
    let (results, s) := pass next next s bytes
    (result :: results, s)

/-- A pass over a number from its low byte up. -/
def shiftUp (first next : Status → UInt8 → UInt8 × Status) (s : Status) (bytes : List UInt8) :
    List UInt8 × Status :=
  s.pass first next bytes

/-- A pass over a number from its high byte down. -/
def shiftDown (first next : Status → UInt8 → UInt8 × Status) (s : Status)
    (bytes : List UInt8) : List UInt8 × Status :=
  let (results, s) := s.pass first next bytes.reverse
  (results.reverse, s)

variable {first next : Status → UInt8 → UInt8 × Status} (s : Status)

@[simp] theorem pass_nil : s.pass first next [] = ([], s) := rfl

@[simp] theorem pass_cons (byte : UInt8) (bytes : List UInt8) :
    s.pass first next (byte :: bytes)
      = ((first s byte).1 :: ((first s byte).2.pass next next bytes).1,
          ((first s byte).2.pass next next bytes).2) := rfl

/-- A pass over two stretches is a pass over each, with the flags of the first. -/
theorem pass_append (bytes bytes' : List UInt8) :
    s.pass next next (bytes ++ bytes')
      = ((s.pass next next bytes).1 ++ ((s.pass next next bytes).2.pass next next bytes').1,
          ((s.pass next next bytes).2.pass next next bytes').2) := by
  induction bytes generalizing s with
  | nil => rfl
  | cons byte bytes ih => simp [ih]

/-- A pass may begin with another operation that does the same on other flags. -/
theorem pass_of_first {s' : Status} (h : ∀ byte, first s byte = next s' byte)
    {bytes : List UInt8} (hbytes : bytes ≠ []) :
    s.pass first next bytes = s'.pass next next bytes := by
  cases bytes with
  | nil => exact absurd rfl hbytes
  | cons byte bytes => rw [pass_cons, pass_cons, h]

/-- Downwards, the low byte comes last. -/
theorem shiftDown_cons (byte : UInt8) (bytes : List UInt8) :
    s.shiftDown next next (byte :: bytes)
      = ((next (s.shiftDown next next bytes).2 byte).1 :: (s.shiftDown next next bytes).1,
          (next (s.shiftDown next next bytes).2 byte).2) := by
  simp [shiftDown, pass_append]

/-- A shift is a rotation with the carry clear. -/
theorem asl_eq_rol (byte : UInt8) : s.asl byte = (s.clear .carry).rol byte := by
  have hput : (s.clear .carry).put .carry (bitAt byte 7) = s.put .carry (bitAt byte 7) :=
    s.put_put .carry false _
  simp [asl, rol, shiftLeft, hput]

/-- A shift to the right is a rotation with the carry cleared, -/
theorem lsr_eq_ror (byte : UInt8) : s.lsr byte = (s.clear .carry).ror byte := by
  have hput : (s.clear .carry).put .carry (bitAt byte 0) = s.put .carry (bitAt byte 0) :=
    s.put_put .carry false _
  simp [lsr, ror, shiftRight, hput]

/-- and so are shifts of numbers, upwards -/
theorem shiftUp_asl {bytes : List UInt8} (h : bytes ≠ []) :
    s.shiftUp asl rol bytes = (s.clear .carry).shiftUp rol rol bytes :=
  s.pass_of_first s.asl_eq_rol h

/-- and downwards. -/
theorem shiftDown_lsr {bytes : List UInt8} (h : bytes ≠ []) :
    s.shiftDown lsr ror bytes = (s.clear .carry).shiftDown ror ror bytes := by
  have hreverse : bytes.reverse ≠ [] := by simpa using h
  rw [shiftDown, shiftDown, s.pass_of_first s.lsr_eq_ror hreverse]

end Status

namespace Numeral

variable {bytes : List UInt8} {n value : Nat} (s : Status)

/-! ## One byte -/

/-- A byte that is rotated to the left is added to itself and the carry. -/
theorem sum_rol (byte : UInt8) :
    Sum 256 byte.toNat byte.toNat (s.get .carry).toNat (s.rol byte).1.toNat
      ((s.rol byte).2.get .carry).toNat := by
  have hbyte := byte.toNat_lt
  have hcarry := (s.get .carry).toNat_le
  rw [Status.rol, Status.carry_shiftLeft]
  show _ = (UInt8.ofNat (2 * byte.toNat + (s.get .carry).toNat)).toNat + _
  rw [UInt8.toNat_ofNat', bitAt, Nat.testBit_eq_decide_div_mod_eq]
  by_cases h : byte.toNat / 2 ^ 7 % 2 = 1
  · simp only [h, decide_true, Bool.toNat_true]
    omega
  · simp only [h, decide_false, Bool.toNat_false]
    omega

/-- A byte that is rotated to the right is the sum that a rotation to the left would
make of the result, and the carry is what it would carry out. -/
theorem sum_ror (byte : UInt8) :
    Sum 256 (s.ror byte).1.toNat (s.ror byte).1.toNat ((s.ror byte).2.get .carry).toNat byte.toNat
      (s.get .carry).toNat := by
  have hbyte := byte.toNat_lt
  have hcarry := (s.get .carry).toNat_le
  rw [Status.ror, Status.carry_shiftRight]
  show (UInt8.ofNat (byte.toNat / 2 + 128 * (s.get .carry).toNat)).toNat
    + (UInt8.ofNat (byte.toNat / 2 + 128 * (s.get .carry).toNat)).toNat + _ = _
  rw [UInt8.toNat_ofNat', bitAt, Nat.testBit_eq_decide_div_mod_eq]
  by_cases h : byte.toNat / 2 ^ 0 % 2 = 1
  · simp only [h, decide_true, Bool.toNat_true]
    omega
  · simp only [h, decide_false, Bool.toNat_false]
    omega

/-! ## Numbers -/

/-- The law of a rotation to the left, for a whole number. -/
theorem sum_shiftUp (h : binary.Represents bytes n value) :
    ∃ result, binary.Represents (s.shiftUp Status.rol Status.rol bytes).1 n result
      ∧ Sum (256 ^ n) value value (s.get .carry).toNat result
          ((s.shiftUp Status.rol Status.rol bytes).2.get .carry).toNat := by
  induction bytes generalizing s n value with
  | nil =>
    obtain rfl : 0 = n := h.length_eq
    obtain rfl : 0 = value := h.number_eq
    exact ⟨0, represents_nil, sum_digitwise.nil _⟩
  | cons byte bytes ih =>
    obtain ⟨n, above, rfl, rfl, -, habove⟩ := h.of_cons
    obtain ⟨result, hresult, hsum⟩ := ih (s.rol byte).2 habove
    exact ⟨_, hresult.cons trivial, sum_digitwise.cons (sum_rol s byte) hsum⟩

/-- The law of a rotation to the right. The bytes above the low one come first, and hand
their lowest bit down to it. -/
theorem sum_shiftDown (h : binary.Represents bytes n value) :
    ∃ result, binary.Represents (s.shiftDown Status.ror Status.ror bytes).1 n result
      ∧ Sum (256 ^ n) result result
          ((s.shiftDown Status.ror Status.ror bytes).2.get .carry).toNat value
          (s.get .carry).toNat := by
  induction bytes generalizing n value with
  | nil =>
    obtain rfl : 0 = n := h.length_eq
    obtain rfl : 0 = value := h.number_eq
    exact ⟨0, represents_nil, sum_digitwise.nil _⟩
  | cons byte bytes ih =>
    obtain ⟨n, above, rfl, rfl, -, habove⟩ := h.of_cons
    obtain ⟨result, hresult, hsum⟩ := ih habove
    rw [Status.shiftDown_cons]
    exact ⟨_, hresult.cons trivial, sum_digitwise.cons (sum_ror _ byte) hsum⟩

/-- Of the numbers with so many bytes, the upper half have the top bit set. -/
theorem testBit_top (hn : 0 < n) (h : value < 256 ^ n) :
    value.testBit (8 * n - 1) = true ↔ 256 ^ n ≤ 2 * value := by
  have hlimit : 256 ^ n = 2 * 2 ^ (8 * n - 1) := by
    rw [show 256 = 2 ^ 8 from rfl, ← Nat.pow_mul, ← Nat.pow_succ',
      Nat.succ_eq_add_one, Nat.sub_add_cancel (by omega)]
  rw [hlimit] at h ⊢
  constructor
  · intro htop
    have := Nat.ge_two_pow_of_testBit htop
    omega
  · intro hupper
    exact Nat.testBit_of_two_pow_le_and_two_pow_add_one_gt (by omega) (by rw [Nat.pow_succ']; omega)

/-- A pass of rotations to the left doubles the number and adds the carry, as far as there
are bytes for it, and ends with the top bit in the carry. -/
theorem represents_shiftUp (hn : 0 < n) (h : binary.Represents bytes n value) :
    binary.Represents (s.shiftUp Status.rol Status.rol bytes).1 n
        ((2 * value + (s.get .carry).toNat) % 256 ^ n)
      ∧ (s.shiftUp Status.rol Status.rol bytes).2.get .carry = value.testBit (8 * n - 1) := by
  obtain ⟨result, hresult, hsum⟩ := sum_shiftUp s h
  have hlt : result < 256 ^ n := hresult.lt
  have hcarry := (s.get .carry).toNat_le
  rw [Sum, ← Nat.two_mul] at hsum
  constructor
  · rw [hsum, Nat.add_mul_mod_self_left, Nat.mod_eq_of_lt hlt]
    exact hresult
  · -- an even limit is not reached by the carry alone
    obtain ⟨half, hhalf⟩ := exists_half hn
    rw [Bool.eq_iff_iff, testBit_top hn h.lt]
    cases hout : (s.shiftUp Status.rol Status.rol bytes).2.get .carry with
    | false =>
      rw [hout, Bool.toNat_false] at hsum
      simp only [Bool.false_eq_true, false_iff]
      omega
    | true =>
      rw [hout, Bool.toNat_true] at hsum
      simp only [true_iff]
      omega

/-- A pass of rotations to the right halves the number, with the carry above its top bit,
and ends with the lowest bit in the carry. -/
theorem represents_shiftDown (hn : 0 < n) (h : binary.Represents bytes n value) :
    binary.Represents (s.shiftDown Status.ror Status.ror bytes).1 n
        ((value + 256 ^ n * (s.get .carry).toNat) / 2)
      ∧ (s.shiftDown Status.ror Status.ror bytes).2.get .carry = value.testBit 0 := by
  obtain ⟨result, hresult, hsum⟩ := sum_shiftDown s h
  obtain ⟨half, hhalf⟩ := exists_half hn
  have hout := ((s.shiftDown Status.ror Status.ror bytes).2.get .carry).toNat_le
  rw [Sum, ← Nat.two_mul] at hsum
  rw [← hsum, Nat.testBit_zero]
  constructor
  · rw [show (2 * result + ((s.shiftDown Status.ror Status.ror bytes).2.get .carry).toNat) / 2
      = result by omega]
    exact hresult
  · -- the limit is even, so the carry that comes in does not tell in the lowest bit
    have hlowest :
        value % 2 = ((s.shiftDown Status.ror Status.ror bytes).2.get .carry).toNat := by
      rw [hhalf, Nat.mul_assoc] at hsum
      omega
    rw [hlowest]
    cases (s.shiftDown Status.ror Status.ror bytes).2.get .carry <;> rfl

/-- Rotations from the high byte down undo rotations from the low byte up. -/
theorem shiftDown_shiftUp (h : binary.Represents bytes n value) :
    let up := s.shiftUp Status.rol Status.rol bytes
    let down := up.2.shiftDown Status.ror Status.ror up.1
    down.1 = bytes ∧ down.2.get .carry = s.get .carry := by
  intro up down
  obtain ⟨moved, hmoved, hsum⟩ := sum_shiftUp s h
  obtain ⟨back, hback, hsum'⟩ := sum_shiftDown up.2 hmoved
  -- both passes obey one equation between the two numbers and the two carries
  have hboth : 2 * back + (down.2.get .carry).toNat = 2 * value + (s.get .carry).toNat := by
    rw [Nat.two_mul, Nat.two_mul]
    exact hsum'.trans hsum.symm
  have hcarry := (s.get .carry).toNat_le
  have hcarry' := (down.2.get .carry).toNat_le
  obtain rfl : back = value := by omega
  refine ⟨hback.unique h, ?_⟩
  have hcarries : (down.2.get .carry).toNat = (s.get .carry).toNat := by omega
  rw [Bool.eq_iff_iff, ← Bool.toNat_eq_one, ← Bool.toNat_eq_one, hcarries]

end Numeral

/-! ## The law of shifts and rotations -/

open Numeral in
/-- A number of any length is doubled by a shift of its low byte to the left and rotations
of the bytes above it, as far as there are bytes for it, and its top bit is left in the
carry; it is halved by a shift of its high byte to the right and rotations of the bytes
below it, and its lowest bit is left there. With a rotation in place of the shift, the
carry is put in at the end where the pass begins. And rotations down undo rotations
up. -/
theorem shifts_of_numbers (s : Status) {bytes : List UInt8} {n value : Nat} (hn : 1 ≤ n)
    (h : binary.Represents bytes n value) :
    (binary.Represents (s.shiftUp Status.asl Status.rol bytes).1 n (2 * value % 256 ^ n)
        ∧ (s.shiftUp Status.asl Status.rol bytes).2.get .carry = value.testBit (8 * n - 1))
      ∧ (binary.Represents (s.shiftDown Status.lsr Status.ror bytes).1 n (value / 2)
        ∧ (s.shiftDown Status.lsr Status.ror bytes).2.get .carry = value.testBit 0)
      ∧ (binary.Represents (s.shiftUp Status.rol Status.rol bytes).1 n
          ((2 * value + (s.get .carry).toNat) % 256 ^ n)
        ∧ (s.shiftUp Status.rol Status.rol bytes).2.get .carry = value.testBit (8 * n - 1))
      ∧ (binary.Represents (s.shiftDown Status.ror Status.ror bytes).1 n
          ((value + 256 ^ n * (s.get .carry).toNat) / 2)
        ∧ (s.shiftDown Status.ror Status.ror bytes).2.get .carry = value.testBit 0)
      ∧ let up := s.shiftUp Status.rol Status.rol bytes
        let down := up.2.shiftDown Status.ror Status.ror up.1
        down.1 = bytes ∧ down.2.get .carry = s.get .carry := by
  have hbytes := h.ne_nil hn
  refine ⟨?_, ?_, represents_shiftUp s hn h, represents_shiftDown s hn h, shiftDown_shiftUp s h⟩
  · rw [s.shiftUp_asl hbytes]
    simpa using represents_shiftUp (s.clear .carry) hn h
  · rw [s.shiftDown_lsr hbytes]
    simpa using represents_shiftDown (s.clear .carry) hn h

open Numeral in
/-- Three bytes with a bit that moves from each into the next, and one that falls out at
the top, where the carry comes in. -/
theorem shifts_of_numbers_acrossBytes :
    binary.Represents [0x81, 0x80, 0xC0] 3 0xC08081
      ∧ binary.Represents (Status.powerOn.shiftUp Status.asl Status.rol [0x81, 0x80, 0xC0]).1 3
          0x810102
      ∧ (Status.powerOn.shiftUp Status.asl Status.rol [0x81, 0x80, 0xC0]).2.get .carry = true
      ∧ binary.Represents (Status.powerOn.shiftDown Status.lsr Status.ror [0x81, 0x80, 0xC0]).1 3
          0x604040
      ∧ (Status.powerOn.shiftDown Status.lsr Status.ror [0x81, 0x80, 0xC0]).2.get .carry = true
      ∧ let up := Status.powerOn.shiftUp Status.rol Status.rol [0x81, 0x80, 0xC0]
        (up.2.shiftDown Status.ror Status.ror up.1).1 = [0x81, 0x80, 0xC0] := by
  have hbytes : binary.Represents [0x81, 0x80, 0xC0] 3 0xC08081 := ⟨rfl, fun _ _ => trivial, rfl⟩
  obtain ⟨⟨hup, htop⟩, ⟨hdown, hlow⟩, -, -, hback, -⟩ :=
    shifts_of_numbers .powerOn (by decide) hbytes
  exact ⟨hbytes, hup, htop, hdown, hlow, hback⟩

end VideoComputer
