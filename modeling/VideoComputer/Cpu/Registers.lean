/-
VideoComputer.Cpu.Registers — the register file and the data paths of the
operations that load, move and combine registers.

An operation here sees an operand byte that was already fetched and returns
the registers it leaves; where the operand came from, the stack and timing
are the business of `Cpu.Execution`. Addition and subtraction have a module
of their own, `Cpu.Arithmetic`.

The combined operations that the documentation of the processor leaves out
are written as what they are: one official data path after another.
-/
import VideoComputer.Cpu.Status

namespace VideoComputer

/-- The registers a program sees. The stack pointer is the low byte of an
address in page 1. -/
structure Registers where
  a : UInt8
  x : UInt8
  y : UInt8
  sp : UInt8
  pc : UInt16
  status : Status
  deriving DecidableEq, Repr

namespace Registers

/-! ## Loads and transfers -/

/-- Operand into A. -/
def lda (r : Registers) (operand : UInt8) : Registers :=
  { r with a := operand, status := r.status.withZeroNegative operand }

@[simp] theorem get_lda (r : Registers) (operand : UInt8) (f : Flag) :
    (r.lda operand).status.get f
      = if .negative = f then bitAt operand 7
        else if .zero = f then operand == 0 else r.status.get f :=
  r.status.get_withZeroNegative operand f

/-- Operand into X. -/
def ldx (r : Registers) (operand : UInt8) : Registers :=
  { r with x := operand, status := r.status.withZeroNegative operand }

/-- Operand into Y. -/
def ldy (r : Registers) (operand : UInt8) : Registers :=
  { r with y := operand, status := r.status.withZeroNegative operand }

/-- A into X. -/
def tax (r : Registers) : Registers := r.ldx r.a

/-- A into Y. -/
def tay (r : Registers) : Registers := r.ldy r.a

/-- Stack pointer into X. -/
def tsx (r : Registers) : Registers := r.ldx r.sp

/-- X into A. -/
def txa (r : Registers) : Registers := r.lda r.x

/-- X into the stack pointer; no flag changes. -/
def txs (r : Registers) : Registers := { r with sp := r.x }

/-- Y into A. -/
def tya (r : Registers) : Registers := r.lda r.y

/-! ## Counting in index registers -/

/-- X + 1 into X. -/
def inx (r : Registers) : Registers := r.ldx (r.x + 1)

/-- Y + 1 into Y. -/
def iny (r : Registers) : Registers := r.ldy (r.y + 1)

/-- X - 1 into X. -/
def dex (r : Registers) : Registers := r.ldx (r.x - 1)

/-- Y - 1 into Y. -/
def dey (r : Registers) : Registers := r.ldy (r.y - 1)

/-! ## Logic -/

/-- A and operand into A. -/
def and (r : Registers) (operand : UInt8) : Registers := r.lda (r.a &&& operand)

/-- A exclusive-or operand into A. -/
def eor (r : Registers) (operand : UInt8) : Registers := r.lda (r.a ^^^ operand)

/-- A or operand into A. -/
def ora (r : Registers) (operand : UInt8) : Registers := r.lda (r.a ||| operand)

/-- Zero from A and operand; negative and overflow are the operand's two high
bits. -/
def bit (r : Registers) (operand : UInt8) : Registers :=
  let status := r.status.put .zero (r.a &&& operand == 0)
  { r with status := (status.put .negative (bitAt operand 7)).put .overflow (bitAt operand 6) }

/-! ## Comparisons -/

/-- Flags of A compared with the operand. -/
def cmp (r : Registers) (operand : UInt8) : Registers :=
  { r with status := r.status.compare r.a operand }

/-- Flags of X compared with the operand. -/
def cpx (r : Registers) (operand : UInt8) : Registers :=
  { r with status := r.status.compare r.x operand }

/-- Flags of Y compared with the operand. -/
def cpy (r : Registers) (operand : UInt8) : Registers :=
  { r with status := r.status.compare r.y operand }

/-! ## Single flags -/

/-- Clears the carry. -/
def clc (r : Registers) : Registers := { r with status := r.status.clear .carry }

/-- Sets the carry. -/
def sec (r : Registers) : Registers := { r with status := r.status.set .carry }

/-- Clears decimal mode. -/
def cld (r : Registers) : Registers := { r with status := r.status.clear .decimal }

/-- Sets decimal mode. -/
def sed (r : Registers) : Registers := { r with status := r.status.set .decimal }

/-- Clears the overflow flag. -/
def clv (r : Registers) : Registers := { r with status := r.status.clear .overflow }

/-! ## Combined data paths -/

/-- Shifts A by the given shift. -/
def shiftA (r : Registers) (shift : Status → UInt8 → UInt8 × Status) : Registers :=
  let shifted := shift r.status r.a
  { r with a := shifted.1, status := shifted.2 }

/-- Operand into A and X. -/
def lax (r : Registers) (operand : UInt8) : Registers := (r.lda operand).tax

/-- A and operand into A, then the negative flag into the carry. -/
def anc (r : Registers) (operand : UInt8) : Registers :=
  let r := r.and operand
  { r with status := r.status.put .carry (r.status.get .negative) }

/-- A and operand into A, then a logical shift right of A. -/
def alr (r : Registers) (operand : UInt8) : Registers := (r.and operand).shiftA Status.lsr

/-- A and operand into A, then a rotation right of A. -/
def arr (r : Registers) (operand : UInt8) : Registers := (r.and operand).shiftA Status.ror

/-- X into A, then A and operand into A. -/
def xaa (r : Registers) (operand : UInt8) : Registers := r.txa.and operand

/-- A with the bits `$EE` forced on, then A and operand into A and X: the
constant is what the undriven bus shows. -/
def lxa (r : Registers) (operand : UInt8) : Registers := ((r.ora 0xEE).and operand).tax

/-- A and X less the operand into X, with the flags of that comparison. -/
def sbx (r : Registers) (operand : UInt8) : Registers :=
  let both := r.a &&& r.x
  { r with x := both - operand, status := r.status.compare both operand }

/-- Stack pointer and operand into the stack pointer, X and A. -/
def las (r : Registers) (operand : UInt8) : Registers :=
  let both := r.sp &&& operand
  { r with sp := both, x := both }.lda both

end Registers

end VideoComputer
