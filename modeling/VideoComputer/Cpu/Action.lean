/-
VideoComputer.Cpu.Action — what an operation does with the bus, the stack and
the program counter, apart from its data path.

The many operations behave in few ways: they read an operand, store a
register, read and write back one byte, work inside the processor, branch,
move the stack, jump. An `Action` is one of these ways together with the data
path it is used for, so the sequencing in `Cpu.Execution` is written, and
reasoned about, once per way and not once per operation.
-/
import VideoComputer.Cpu.Arithmetic
import VideoComputer.Cpu.Instruction

namespace VideoComputer

/-- A way of executing, with its data path. -/
inductive Action where
  /-- Reads the operand and gives it to `f`. -/
  | load (f : Registers → UInt8 → Registers)
  /-- Writes a value that depends on the registers only. -/
  | store (f : Registers → UInt8)
  /-- Reads a byte, changes it and the flags by `f` and writes it back, or does
  the same to A; then gives the result to `g`. -/
  | modify (f : Status → UInt8 → UInt8 × Status) (g : Registers → UInt8 → Registers)
  /-- Works on the registers alone. -/
  | internal (f : Registers → Registers)
  /-- Adds the displacement to the program counter if the flags say so. -/
  | branch (taken : Status → Bool)
  /-- Masks or admits interrupts, from the next instruction on. -/
  | mask (disable : Bool)
  /-- Pushes a byte. -/
  | push (f : Registers → UInt8)
  /-- Pulls a byte and gives it to `f`. -/
  | pull (f : Registers → UInt8 → Registers)
  /-- Pulls the flags; the interrupt mask follows with the next instruction. -/
  | pullStatus
  /-- Continues at the operand address. -/
  | jump
  /-- Pushes the address of its own last byte and continues at the operand
  word. -/
  | call
  /-- Pulls an address and continues behind it. -/
  | returnFromCall
  /-- Enters the interrupt handler as if requested by the program. -/
  | softwareInterrupt
  /-- Pulls the flags and the address at which to continue. -/
  | returnFromInterrupt
  /-- Does nothing but pass its operand. -/
  | idle
  /-- Locks up. -/
  | lockUp
  /-- Passes its operand without the store it is named for. -/
  | skipStore

/-- The data path of a combined operation whose second half is empty. -/
def Registers.unchanged (r : Registers) (_ : UInt8) : Registers := r

/-- What an operation does. The decimal circuit, if there is one, is used by
the four operations that add or subtract. -/
def Operation.action (decimalMode : Bool) : Operation → Action
  | .lda => .load Registers.lda
  | .ldx => .load Registers.ldx
  | .ldy => .load Registers.ldy
  | .sta => .store Registers.a
  | .stx => .store Registers.x
  | .sty => .store Registers.y
  | .tax => .internal Registers.tax
  | .tay => .internal Registers.tay
  | .tsx => .internal Registers.tsx
  | .txa => .internal Registers.txa
  | .txs => .internal Registers.txs
  | .tya => .internal Registers.tya
  | .pha => .push Registers.a
  | .php => .push fun r => r.status.toByte true
  | .pla => .pull Registers.lda
  | .plp => .pullStatus
  | .dec => .modify Status.dec Registers.unchanged
  | .dex => .internal Registers.dex
  | .dey => .internal Registers.dey
  | .inc => .modify Status.inc Registers.unchanged
  | .inx => .internal Registers.inx
  | .iny => .internal Registers.iny
  | .adc => .load (Registers.adc decimalMode)
  | .sbc => .load (Registers.sbc decimalMode)
  | .and => .load Registers.and
  | .eor => .load Registers.eor
  | .ora => .load Registers.ora
  | .asl => .modify Status.asl Registers.unchanged
  | .lsr => .modify Status.lsr Registers.unchanged
  | .rol => .modify Status.rol Registers.unchanged
  | .ror => .modify Status.ror Registers.unchanged
  | .clc => .internal Registers.clc
  | .cld => .internal Registers.cld
  | .cli => .mask false
  | .clv => .internal Registers.clv
  | .sec => .internal Registers.sec
  | .sed => .internal Registers.sed
  | .sei => .mask true
  | .cmp => .load Registers.cmp
  | .cpx => .load Registers.cpx
  | .cpy => .load Registers.cpy
  | .bit => .load Registers.bit
  | .bcc => .branch fun s => !s.get .carry
  | .bcs => .branch fun s => s.get .carry
  | .beq => .branch fun s => s.get .zero
  | .bmi => .branch fun s => s.get .negative
  | .bne => .branch fun s => !s.get .zero
  | .bpl => .branch fun s => !s.get .negative
  | .bvc => .branch fun s => !s.get .overflow
  | .bvs => .branch fun s => s.get .overflow
  | .jmp => .jump
  | .jsr => .call
  | .rts => .returnFromCall
  | .brk => .softwareInterrupt
  | .rti => .returnFromInterrupt
  | .nop => .idle
  | .slo => .modify Status.asl Registers.ora
  | .rla => .modify Status.rol Registers.and
  | .sre => .modify Status.lsr Registers.eor
  | .rra => .modify Status.ror (Registers.adc decimalMode)
  | .sax => .store fun r => r.a &&& r.x
  | .lax => .load Registers.lax
  | .dcp => .modify Status.dec Registers.cmp
  | .isc => .modify Status.inc (Registers.sbc decimalMode)
  | .anc => .load Registers.anc
  | .alr => .load Registers.alr
  | .arr => .load Registers.arr
  | .xaa => .load Registers.xaa
  | .lxa => .load Registers.lxa
  | .sbx => .load Registers.sbx
  | .las => .load Registers.las
  | .jam => .lockUp
  | .unstable _ => .skipStore

end VideoComputer
