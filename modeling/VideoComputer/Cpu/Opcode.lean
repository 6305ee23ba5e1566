/-
VideoComputer.Cpu.Opcode — the opcode table: all 256 bytes, in opcode order.

Decoding is a look-up that cannot fail, since every byte is described,
including the twelve that lock the processor up and the five unstable stores.
The table is a closed value, so a fact about all opcodes is decidable.
-/
import VideoComputer.Cpu.Instruction

namespace VideoComputer.Opcode

set_option maxRecDepth 2048 in
/-- The instruction of each opcode. -/
def table : Vector Instruction 256 := #v[
  -- opcodes $00 to $0F
  .mk .brk .implied .official 7, .mk .ora .indirectX .official 6,
  .mk .jam .implied .halt 2, .mk .slo .indirectX .unofficial 8,
  .mk .nop .zeroPage .unofficial 3, .mk .ora .zeroPage .official 3,
  .mk .asl .zeroPage .official 5, .mk .slo .zeroPage .unofficial 5,
  .mk .php .implied .official 3, .mk .ora .immediate .official 2,
  .mk .asl .accumulator .official 2, .mk .anc .immediate .unofficial 2,
  .mk .nop .absolute .unofficial 4, .mk .ora .absolute .official 4,
  .mk .asl .absolute .official 6, .mk .slo .absolute .unofficial 6,
  -- opcodes $10 to $1F
  .mk .bpl .relative .official 2, .mk .ora .indirectY .official 5,
  .mk .jam .implied .halt 2, .mk .slo .indirectY .unofficial 8,
  .mk .nop .zeroPageX .unofficial 4, .mk .ora .zeroPageX .official 4,
  .mk .asl .zeroPageX .official 6, .mk .slo .zeroPageX .unofficial 6,
  .mk .clc .implied .official 2, .mk .ora .absoluteY .official 4,
  .mk .nop .implied .unofficial 2, .mk .slo .absoluteY .unofficial 7,
  .mk .nop .absoluteX .unofficial 4, .mk .ora .absoluteX .official 4,
  .mk .asl .absoluteX .official 7, .mk .slo .absoluteX .unofficial 7,
  -- opcodes $20 to $2F
  .mk .jsr .absolute .official 6, .mk .and .indirectX .official 6,
  .mk .jam .implied .halt 2, .mk .rla .indirectX .unofficial 8,
  .mk .bit .zeroPage .official 3, .mk .and .zeroPage .official 3,
  .mk .rol .zeroPage .official 5, .mk .rla .zeroPage .unofficial 5,
  .mk .plp .implied .official 4, .mk .and .immediate .official 2,
  .mk .rol .accumulator .official 2, .mk .anc .immediate .unofficial 2,
  .mk .bit .absolute .official 4, .mk .and .absolute .official 4,
  .mk .rol .absolute .official 6, .mk .rla .absolute .unofficial 6,
  -- opcodes $30 to $3F
  .mk .bmi .relative .official 2, .mk .and .indirectY .official 5,
  .mk .jam .implied .halt 2, .mk .rla .indirectY .unofficial 8,
  .mk .nop .zeroPageX .unofficial 4, .mk .and .zeroPageX .official 4,
  .mk .rol .zeroPageX .official 6, .mk .rla .zeroPageX .unofficial 6,
  .mk .sec .implied .official 2, .mk .and .absoluteY .official 4,
  .mk .nop .implied .unofficial 2, .mk .rla .absoluteY .unofficial 7,
  .mk .nop .absoluteX .unofficial 4, .mk .and .absoluteX .official 4,
  .mk .rol .absoluteX .official 7, .mk .rla .absoluteX .unofficial 7,
  -- opcodes $40 to $4F
  .mk .rti .implied .official 6, .mk .eor .indirectX .official 6,
  .mk .jam .implied .halt 2, .mk .sre .indirectX .unofficial 8,
  .mk .nop .zeroPage .unofficial 3, .mk .eor .zeroPage .official 3,
  .mk .lsr .zeroPage .official 5, .mk .sre .zeroPage .unofficial 5,
  .mk .pha .implied .official 3, .mk .eor .immediate .official 2,
  .mk .lsr .accumulator .official 2, .mk .alr .immediate .unofficial 2,
  .mk .jmp .absolute .official 3, .mk .eor .absolute .official 4,
  .mk .lsr .absolute .official 6, .mk .sre .absolute .unofficial 6,
  -- opcodes $50 to $5F
  .mk .bvc .relative .official 2, .mk .eor .indirectY .official 5,
  .mk .jam .implied .halt 2, .mk .sre .indirectY .unofficial 8,
  .mk .nop .zeroPageX .unofficial 4, .mk .eor .zeroPageX .official 4,
  .mk .lsr .zeroPageX .official 6, .mk .sre .zeroPageX .unofficial 6,
  .mk .cli .implied .official 2, .mk .eor .absoluteY .official 4,
  .mk .nop .implied .unofficial 2, .mk .sre .absoluteY .unofficial 7,
  .mk .nop .absoluteX .unofficial 4, .mk .eor .absoluteX .official 4,
  .mk .lsr .absoluteX .official 7, .mk .sre .absoluteX .unofficial 7,
  -- opcodes $60 to $6F
  .mk .rts .implied .official 6, .mk .adc .indirectX .official 6,
  .mk .jam .implied .halt 2, .mk .rra .indirectX .unofficial 8,
  .mk .nop .zeroPage .unofficial 3, .mk .adc .zeroPage .official 3,
  .mk .ror .zeroPage .official 5, .mk .rra .zeroPage .unofficial 5,
  .mk .pla .implied .official 4, .mk .adc .immediate .official 2,
  .mk .ror .accumulator .official 2, .mk .arr .immediate .unofficial 2,
  .mk .jmp .indirect .official 5, .mk .adc .absolute .official 4,
  .mk .ror .absolute .official 6, .mk .rra .absolute .unofficial 6,
  -- opcodes $70 to $7F
  .mk .bvs .relative .official 2, .mk .adc .indirectY .official 5,
  .mk .jam .implied .halt 2, .mk .rra .indirectY .unofficial 8,
  .mk .nop .zeroPageX .unofficial 4, .mk .adc .zeroPageX .official 4,
  .mk .ror .zeroPageX .official 6, .mk .rra .zeroPageX .unofficial 6,
  .mk .sei .implied .official 2, .mk .adc .absoluteY .official 4,
  .mk .nop .implied .unofficial 2, .mk .rra .absoluteY .unofficial 7,
  .mk .nop .absoluteX .unofficial 4, .mk .adc .absoluteX .official 4,
  .mk .ror .absoluteX .official 7, .mk .rra .absoluteX .unofficial 7,
  -- opcodes $80 to $8F
  .mk .nop .immediate .unofficial 2, .mk .sta .indirectX .official 6,
  .mk .nop .immediate .unofficial 2, .mk .sax .indirectX .unofficial 6,
  .mk .sty .zeroPage .official 3, .mk .sta .zeroPage .official 3,
  .mk .stx .zeroPage .official 3, .mk .sax .zeroPage .unofficial 3,
  .mk .dey .implied .official 2, .mk .nop .immediate .unofficial 2,
  .mk .txa .implied .official 2, .mk .xaa .immediate .unofficial 2,
  .mk .sty .absolute .official 4, .mk .sta .absolute .official 4,
  .mk .stx .absolute .official 4, .mk .sax .absolute .unofficial 4,
  -- opcodes $90 to $9F
  .mk .bcc .relative .official 2, .mk .sta .indirectY .official 6,
  .mk .jam .implied .halt 2, .mk (.unstable .sha) .indirectY .unstable 6,
  .mk .sty .zeroPageX .official 4, .mk .sta .zeroPageX .official 4,
  .mk .stx .zeroPageY .official 4, .mk .sax .zeroPageY .unofficial 4,
  .mk .tya .implied .official 2, .mk .sta .absoluteY .official 5,
  .mk .txs .implied .official 2, .mk (.unstable .tas) .absoluteY .unstable 5,
  .mk (.unstable .shy) .absoluteX .unstable 5, .mk .sta .absoluteX .official 5,
  .mk (.unstable .shx) .absoluteY .unstable 5, .mk (.unstable .sha) .absoluteY .unstable 5,
  -- opcodes $A0 to $AF
  .mk .ldy .immediate .official 2, .mk .lda .indirectX .official 6,
  .mk .ldx .immediate .official 2, .mk .lax .indirectX .unofficial 6,
  .mk .ldy .zeroPage .official 3, .mk .lda .zeroPage .official 3,
  .mk .ldx .zeroPage .official 3, .mk .lax .zeroPage .unofficial 3,
  .mk .tay .implied .official 2, .mk .lda .immediate .official 2,
  .mk .tax .implied .official 2, .mk .lxa .immediate .unofficial 2,
  .mk .ldy .absolute .official 4, .mk .lda .absolute .official 4,
  .mk .ldx .absolute .official 4, .mk .lax .absolute .unofficial 4,
  -- opcodes $B0 to $BF
  .mk .bcs .relative .official 2, .mk .lda .indirectY .official 5,
  .mk .jam .implied .halt 2, .mk .lax .indirectY .unofficial 5,
  .mk .ldy .zeroPageX .official 4, .mk .lda .zeroPageX .official 4,
  .mk .ldx .zeroPageY .official 4, .mk .lax .zeroPageY .unofficial 4,
  .mk .clv .implied .official 2, .mk .lda .absoluteY .official 4,
  .mk .tsx .implied .official 2, .mk .las .absoluteY .unofficial 4,
  .mk .ldy .absoluteX .official 4, .mk .lda .absoluteX .official 4,
  .mk .ldx .absoluteY .official 4, .mk .lax .absoluteY .unofficial 4,
  -- opcodes $C0 to $CF
  .mk .cpy .immediate .official 2, .mk .cmp .indirectX .official 6,
  .mk .nop .immediate .unofficial 2, .mk .dcp .indirectX .unofficial 8,
  .mk .cpy .zeroPage .official 3, .mk .cmp .zeroPage .official 3,
  .mk .dec .zeroPage .official 5, .mk .dcp .zeroPage .unofficial 5,
  .mk .iny .implied .official 2, .mk .cmp .immediate .official 2,
  .mk .dex .implied .official 2, .mk .sbx .immediate .unofficial 2,
  .mk .cpy .absolute .official 4, .mk .cmp .absolute .official 4,
  .mk .dec .absolute .official 6, .mk .dcp .absolute .unofficial 6,
  -- opcodes $D0 to $DF
  .mk .bne .relative .official 2, .mk .cmp .indirectY .official 5,
  .mk .jam .implied .halt 2, .mk .dcp .indirectY .unofficial 8,
  .mk .nop .zeroPageX .unofficial 4, .mk .cmp .zeroPageX .official 4,
  .mk .dec .zeroPageX .official 6, .mk .dcp .zeroPageX .unofficial 6,
  .mk .cld .implied .official 2, .mk .cmp .absoluteY .official 4,
  .mk .nop .implied .unofficial 2, .mk .dcp .absoluteY .unofficial 7,
  .mk .nop .absoluteX .unofficial 4, .mk .cmp .absoluteX .official 4,
  .mk .dec .absoluteX .official 7, .mk .dcp .absoluteX .unofficial 7,
  -- opcodes $E0 to $EF
  .mk .cpx .immediate .official 2, .mk .sbc .indirectX .official 6,
  .mk .nop .immediate .unofficial 2, .mk .isc .indirectX .unofficial 8,
  .mk .cpx .zeroPage .official 3, .mk .sbc .zeroPage .official 3,
  .mk .inc .zeroPage .official 5, .mk .isc .zeroPage .unofficial 5,
  .mk .inx .implied .official 2, .mk .sbc .immediate .official 2,
  .mk .nop .implied .official 2, .mk .sbc .immediate .unofficial 2,
  .mk .cpx .absolute .official 4, .mk .sbc .absolute .official 4,
  .mk .inc .absolute .official 6, .mk .isc .absolute .unofficial 6,
  -- opcodes $F0 to $FF
  .mk .beq .relative .official 2, .mk .sbc .indirectY .official 5,
  .mk .jam .implied .halt 2, .mk .isc .indirectY .unofficial 8,
  .mk .nop .zeroPageX .unofficial 4, .mk .sbc .zeroPageX .official 4,
  .mk .inc .zeroPageX .official 6, .mk .isc .zeroPageX .unofficial 6,
  .mk .sed .implied .official 2, .mk .sbc .absoluteY .official 4,
  .mk .nop .implied .unofficial 2, .mk .isc .absoluteY .unofficial 7,
  .mk .nop .absoluteX .unofficial 4, .mk .sbc .absoluteX .official 4,
  .mk .inc .absoluteX .official 7, .mk .isc .absoluteX .unofficial 7]

/-- The instruction an opcode stands for (`lookup`). -/
def decode (opcode : UInt8) : Instruction :=
  table[opcode.toFin]

/-- What is decided of the instructions in the table holds of every opcode. -/
theorem decode_mem (opcode : UInt8) : decode opcode ∈ table.toList :=
  Vector.mem_toList_iff.mpr (Vector.getElem_mem _)

set_option maxRecDepth 4096 in
/-- No instruction takes fewer than two cycles. -/
theorem two_le_cycles (opcode : UInt8) : 2 ≤ (decode opcode).cycles := by
  have table_cycles : ∀ i ∈ table.toList, 2 ≤ i.cycles := by decide +kernel
  exact table_cycles _ (decode_mem opcode)

end VideoComputer.Opcode
