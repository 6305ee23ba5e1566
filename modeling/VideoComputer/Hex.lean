/-
VideoComputer.Hex — numbers as upper-case hexadecimal text of a fixed width.

Notices name opcodes with two digits and addresses with four. A number that
needs more digits than the width keeps its low ones; no caller has one.
-/

namespace VideoComputer.Hex

/-- The digit for a value below 16, upper case. -/
def digit (n : Nat) : Char :=
  if n < 10 then Char.ofNat ('0'.toNat + n) else Char.ofNat ('A'.toNat + (n - 10))

/-- The lowest `width` digits of a number, most significant first. -/
def digits : (width : Nat) → Nat → List Char
  | 0, _ => []
  | width + 1, n => digits width (n / 16) ++ [digit (n % 16)]

/-- A byte as two digits. -/
def ofByte (b : UInt8) : String :=
  String.ofList (digits 2 b.toNat)

/-- An address as four digits. -/
def ofAddress (a : UInt16) : String :=
  String.ofList (digits 4 a.toNat)

end VideoComputer.Hex
