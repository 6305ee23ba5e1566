/-
VideoComputer.Cpu.Instruction — operations, addressing modes and the
description of one opcode.

An instruction is what the processor does (`Operation`), how it finds its
operand (`AddressingMode`), what it costs before penalties, and how it is
regarded (`Category`). What the operation means is in `Cpu.Action`; which
opcode is which instruction is the table in `Cpu.Opcode`.
-/

namespace VideoComputer

/-! ## Addressing modes -/

/-- How an instruction finds its operand. -/
inductive AddressingMode where
  | implied
  | accumulator
  | immediate
  | absolute
  | zeroPage
  | absoluteX
  | absoluteY
  | zeroPageX
  | zeroPageY
  | indirectX
  | indirectY
  | relative
  | indirect
  deriving DecidableEq, Repr

namespace AddressingMode

/-- How many bytes follow the opcode. -/
def operandBytes : AddressingMode → Nat
  | .implied | .accumulator => 0
  | .immediate | .zeroPage | .zeroPageX | .zeroPageY | .indirectX | .indirectY | .relative => 1
  | .absolute | .absoluteX | .absoluteY | .indirect => 2

/-- Whether the operand of an instruction in this mode has an address. The
others work on registers, or on a displacement. -/
def hasAddress : AddressingMode → Bool
  | .implied | .accumulator | .relative => false
  | _ => true

/-- The name of the mode in a trace. -/
def name : AddressingMode → String
  | .implied => "Implied"
  | .accumulator => "Accumulator"
  | .immediate => "Immediate"
  | .absolute => "Absolute"
  | .zeroPage => "ZeroPage"
  | .absoluteX => "AbsoluteX"
  | .absoluteY => "AbsoluteY"
  | .zeroPageX => "ZeroPageX"
  | .zeroPageY => "ZeroPageY"
  | .indirectX => "IndirectX"
  | .indirectY => "IndirectY"
  | .relative => "Relative"
  | .indirect => "Indirect"

end AddressingMode

/-! ## Operations -/

/-- The stores whose result depends on analog effects on the bus. They are
decoded and timed, and otherwise do nothing. -/
inductive UnstableStore where
  | sha
  | shx
  | shy
  | tas
  deriving DecidableEq, Repr

/-- What an instruction does. -/
inductive Operation where
  -- transfers
  | lda | ldx | ldy | sta | stx | sty | tax | tay | tsx | txa | txs | tya
  -- stack
  | pha | php | pla | plp
  -- decrements and increments
  | dec | dex | dey | inc | inx | iny
  -- arithmetic and logic
  | adc | sbc | and | eor | ora
  -- shifts and rotations
  | asl | lsr | rol | ror
  -- flags
  | clc | cld | cli | clv | sec | sed | sei
  -- comparisons
  | cmp | cpx | cpy | bit
  -- branches
  | bcc | bcs | beq | bmi | bne | bpl | bvc | bvs
  -- jumps, subroutines and interrupts
  | jmp | jsr | rts | brk | rti
  | nop
  -- combinations of the above
  | slo | rla | sre | rra | sax | lax | dcp | isc
  | anc | alr | arr | xaa | lxa | sbx | las
  /-- The processor locks up. -/
  | jam
  | unstable (store : UnstableStore)
  deriving DecidableEq, Repr

/-- The three letters that assembly language uses. -/
def UnstableStore.mnemonic : UnstableStore → String
  | .sha => "SHA"
  | .shx => "SHX"
  | .shy => "SHY"
  | .tas => "TAS"

/-- The three letters that assembly language uses. -/
def Operation.mnemonic : Operation → String
  | .lda => "LDA"
  | .ldx => "LDX"
  | .ldy => "LDY"
  | .sta => "STA"
  | .stx => "STX"
  | .sty => "STY"
  | .tax => "TAX"
  | .tay => "TAY"
  | .tsx => "TSX"
  | .txa => "TXA"
  | .txs => "TXS"
  | .tya => "TYA"
  | .pha => "PHA"
  | .php => "PHP"
  | .pla => "PLA"
  | .plp => "PLP"
  | .dec => "DEC"
  | .dex => "DEX"
  | .dey => "DEY"
  | .inc => "INC"
  | .inx => "INX"
  | .iny => "INY"
  | .adc => "ADC"
  | .sbc => "SBC"
  | .and => "AND"
  | .eor => "EOR"
  | .ora => "ORA"
  | .asl => "ASL"
  | .lsr => "LSR"
  | .rol => "ROL"
  | .ror => "ROR"
  | .clc => "CLC"
  | .cld => "CLD"
  | .cli => "CLI"
  | .clv => "CLV"
  | .sec => "SEC"
  | .sed => "SED"
  | .sei => "SEI"
  | .cmp => "CMP"
  | .cpx => "CPX"
  | .cpy => "CPY"
  | .bit => "BIT"
  | .bcc => "BCC"
  | .bcs => "BCS"
  | .beq => "BEQ"
  | .bmi => "BMI"
  | .bne => "BNE"
  | .bpl => "BPL"
  | .bvc => "BVC"
  | .bvs => "BVS"
  | .jmp => "JMP"
  | .jsr => "JSR"
  | .rts => "RTS"
  | .brk => "BRK"
  | .rti => "RTI"
  | .nop => "NOP"
  | .slo => "SLO"
  | .rla => "RLA"
  | .sre => "SRE"
  | .rra => "RRA"
  | .sax => "SAX"
  | .lax => "LAX"
  | .dcp => "DCP"
  | .isc => "ISC"
  | .anc => "ANC"
  | .alr => "ALR"
  | .arr => "ARR"
  | .xaa => "XAA"
  | .lxa => "LXA"
  | .sbx => "SBX"
  | .las => "LAS"
  | .jam => "JAM"
  | .unstable store => store.mnemonic

/-! ## Instructions -/

/-- How an opcode is regarded. -/
inductive Category where
  /-- Documented for programmers. -/
  | official
  /-- Undocumented, with a reliable effect. -/
  | unofficial
  /-- Locks the processor up. -/
  | halt
  /-- Undocumented, with an effect that depends on the individual machine. -/
  | unstable
  deriving DecidableEq, Repr

/-- The description of one opcode. -/
structure Instruction where
  operation : Operation
  mode : AddressingMode
  category : Category
  /-- Processor cycles, without the penalties for crossed pages and taken
  branches. -/
  cycles : Nat
  deriving DecidableEq, Repr

/-- The length in bytes, opcode included. A processor that locks up has
fetched the opcode only. -/
def Instruction.bytes (i : Instruction) : Nat :=
  match i.category with
  | .halt => 1
  | _ => 1 + i.mode.operandBytes

end VideoComputer
