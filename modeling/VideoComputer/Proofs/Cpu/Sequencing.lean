/-
VideoComputer.Proofs.Cpu.Sequencing — what the kind of an operation says about
the program counter and the time of its instruction.

An operation runs as one of a few actions, but which action it runs as is
nothing a programmer sees. What a programmer knows is its kind: whether the
program goes on behind it, whether it is a branch and on which flag, whether it
reads its operand or writes to it. This module says what follows from the kind.

* `Operation.isSequential`, `branchTest?`, `isReading`, `isWriting` — the
  kinds.
* `Execution.pc_perform` — an action behind which the program goes on passes
  its operand and nothing else.
* `Execution.cycles_perform_of_isFixedTime` — an action that neither reads an
  operand nor branches takes the time in the table.
* `Machine.execute_eq` — an instruction is its action, performed behind the
  opcode.
* `Machine.step_of_declined`, `step_of_accepted` — how it ends, without and with
  the service of an interrupt.
* `Machine.step_of_internal` — an instruction without operand that stays inside
  the processor.
-/
import VideoComputer.Proofs.Cpu.Timing

namespace VideoComputer

/-! ## Kinds of operations -/

namespace Operation

/-- Whether the program goes on behind the instruction: it is no branch, no
jump and no interrupt. -/
def isSequential : Operation → Bool
  | .bcc | .bcs | .beq | .bmi | .bne | .bpl | .bvc | .bvs => false
  | .jmp | .jsr | .rts | .brk | .rti => false
  | _ => true

/-- The flag a branch tests, and the value of the flag with which the branch is
taken. -/
def branchTest? : Operation → Option (Flag × Bool)
  | .bcc => some (.carry, false)
  | .bcs => some (.carry, true)
  | .beq => some (.zero, true)
  | .bmi => some (.negative, true)
  | .bne => some (.zero, false)
  | .bpl => some (.negative, false)
  | .bvc => some (.overflow, false)
  | .bvs => some (.overflow, true)
  | _ => none

/-- Whether the operation reads its operand and writes nothing: loads,
arithmetic, logic and comparisons, and the one that throws away what it read. -/
def isReading : Operation → Bool
  | .lda | .ldx | .ldy | .lax | .las => true
  | .adc | .sbc | .and | .eor | .ora | .bit | .cmp | .cpx | .cpy => true
  | .anc | .alr | .arr | .xaa | .lxa | .sbx => true
  | .nop => true
  | _ => false

/-- Whether the operation writes to its operand, or is named for such a write:
stores, operations that read and write back, and the unstable stores. -/
def isWriting : Operation → Bool
  | .sta | .stx | .sty | .sax => true
  | .dec | .inc | .asl | .lsr | .rol | .ror => true
  | .slo | .rla | .sre | .rra | .dcp | .isc => true
  | .unstable _ => true
  | _ => false

theorem branchTest?_of_isReading {op : Operation} (h : op.isReading = true) :
    op.branchTest? = none := by
  cases op with
  | bcc | bcs | beq | bmi | bne | bpl | bvc | bvs => cases h
  | _ => rfl

theorem isReading_of_isWriting {op : Operation} (h : op.isWriting = true) :
    op.isReading = false ∧ op.branchTest? = none := by
  cases op with
  | sta | stx | sty | sax | dec | inc | asl | lsr | rol | ror
  | slo | rla | sre | rra | dcp | isc | unstable => exact ⟨rfl, rfl⟩
  | _ => cases h

end Operation

/-! ## Kinds of actions -/

namespace Action

/-- Whether the program goes on behind the action: it is none of those that
continue elsewhere, and its data path leaves the program counter alone. -/
def Sequential : Action → Prop
  | .load f => ∀ r operand, (f r operand).pc = r.pc
  | .modify _ g => ∀ r result, (g r result).pc = r.pc
  | .internal f => ∀ r, (f r).pc = r.pc
  | .pull f => ∀ r byte, (f r byte).pc = r.pc
  | .store _ | .mask _ | .push _ | .pullStatus | .idle | .lockUp | .skipStore => True
  | .branch _ | .jump | .call | .returnFromCall | .softwareInterrupt | .returnFromInterrupt =>
    False

/-- How many bytes of operand an action passes behind which the program goes
on. -/
def passes (mode : AddressingMode) : Action → Nat
  | .load _ | .store _ | .modify .. | .idle | .skipStore => mode.operandBytes
  | _ => 0

/-- Whether the action takes the time in the table whatever happens. -/
def isFixedTime : Action → Bool
  | .load _ | .idle | .branch _ => false
  | _ => true

end Action

/-- The same registers, somewhere else in the program. -/
def Registers.withPc (r : Registers) (pc : UInt16) : Registers := { r with pc }

theorem Registers.pc_adc (decimalMode : Bool) (r : Registers) (operand : UInt8) :
    (r.adc decimalMode operand).pc = r.pc := by
  unfold Registers.adc
  split <;> rfl

namespace Operation

variable (decimalMode : Bool) {op : Operation}

/-- A sequential operation has a sequential action. -/
theorem sequential_action (h : op.isSequential = true) : (op.action decimalMode).Sequential := by
  cases op with
  | bcc | bcs | beq | bmi | bne | bpl | bvc | bvs | jmp | jsr | rts | brk | rti => cases h
  | adc | rra => exact Registers.pc_adc decimalMode
  | lda | ldx | ldy | pla | sbc | and | eor | ora | cmp | cpx | cpy | bit
  | dec | inc | asl | lsr | rol | ror | slo | rla | sre | dcp | isc
  | lax | anc | alr | arr | xaa | lxa | sbx | las => exact fun _ _ => rfl
  | tax | tay | tsx | txa | txs | tya | dex | dey | inx | iny
  | clc | cld | clv | sec | sed => exact fun _ => rfl
  | sta | stx | sty | sax | pha | php | plp | cli | sei | nop | jam | unstable => trivial

/-- An operation that only reads its operand loads it, -/
theorem action_of_isReading (h : op.isReading = true) (hnop : op ≠ .nop) :
    ∃ f, op.action decimalMode = .load f := by
  cases op with
  | nop => exact absurd rfl hnop
  | lda | ldx | ldy | lax | las | adc | sbc | and | eor | ora | bit
  | cmp | cpx | cpy | anc | alr | arr | xaa | lxa | sbx => exact ⟨_, rfl⟩
  | _ => cases h

/-- a branch tests its flag, -/
theorem action_of_branchTest? {flag : Flag} {value : Bool}
    (h : op.branchTest? = some (flag, value)) :
    ∃ taken, op.action decimalMode = .branch taken ∧ ∀ s, taken s = (s.get flag == value) := by
  cases op with
  | bcs | beq | bmi | bvs =>
    cases h
    exact ⟨_, rfl, fun s => (beq_true _).symm⟩
  | bcc | bne | bpl | bvc =>
    cases h
    exact ⟨_, rfl, fun s => (beq_false _).symm⟩
  | _ => cases h

/-- and everything else takes a fixed time. -/
theorem isFixedTime_action (h : op.isReading = false) (hbranch : op.branchTest? = none) :
    (op.action decimalMode).isFixedTime = true := by
  cases op with
  | bcc | bcs | beq | bmi | bne | bpl | bvc | bvs => cases hbranch
  | lda | ldx | ldy | lax | las | adc | sbc | and | eor | ora | bit | nop
  | cmp | cpx | cpy | anc | alr | arr | xaa | lxa | sbx => cases h
  | _ => rfl

end Operation

/-! ## Facts of the table -/

namespace Opcode

set_option maxRecDepth 4096 in
/-- The length of an instruction behind which the program goes on is its opcode
and what its action passes. -/
theorem bytes_of_isSequential (opcode : UInt8) (decimalMode : Bool)
    (h : (decode opcode).operation.isSequential = true) :
    (decode opcode).mode ≠ .relative
      ∧ (decode opcode).bytes
          = 1 + ((decode opcode).operation.action decimalMode).passes (decode opcode).mode := by
  have table_bytes : ∀ i ∈ table.toList, ∀ decimalMode : Bool,
      i.operation.isSequential = true →
        i.mode ≠ .relative ∧ i.bytes = 1 + (i.operation.action decimalMode).passes i.mode := by
    decide +kernel
  exact table_bytes _ (decode_mem opcode) decimalMode h

set_option maxRecDepth 4096 in
/-- Only shifts and rotations work on A in place of a byte of memory. -/
theorem operation_of_accumulator (opcode : UInt8) (h : (decode opcode).mode = .accumulator) :
    (decode opcode).operation ∈ [.asl, .lsr, .rol, .ror] := by
  have table_operations : ∀ i ∈ table.toList, i.mode = .accumulator →
      i.operation ∈ [.asl, .lsr, .rol, .ror] := by decide +kernel
  exact table_operations _ (decode_mem opcode) h

set_option maxRecDepth 4096 in
/-- Of the indexed modes that may leave a page, the instruction that does
nothing has one. -/
theorem mode_of_nop (opcode : UInt8) (h : (decode opcode).operation = .nop) :
    (decode opcode).mode ≠ .absoluteY ∧ (decode opcode).mode ≠ .indirectY := by
  have table_modes : ∀ i ∈ table.toList, i.operation = .nop →
      i.mode ≠ .absoluteY ∧ i.mode ≠ .indirectY := by decide +kernel
  exact table_modes _ (decode_mem opcode) h

end Opcode

/-! ## Performing an action -/

variable {M : Type} [Memory M]

namespace Execution

theorem pc_resolve (e : Execution M) {mode : AddressingMode} (h : mode ≠ .relative) :
    (e.resolve mode).execution.registers.pc
      = e.registers.pc + UInt16.ofNat mode.operandBytes := by
  cases mode with
  | relative => exact absurd rfl h
  | implied | accumulator => exact (UInt16.add_zero _).symm
  | immediate | zeroPage | zeroPageX | zeroPageY | indirectX | indirectY => rfl
  | absolute | absoluteX | absoluteY | indirect => exact UInt16.add_assoc _ 1 1

theorem registers_readOperand (e : Execution M) (mode : AddressingMode) :
    (e.readOperand mode).2.registers = (e.resolve mode).execution.registers := by
  simp only [readOperand, read]
  split <;> rfl

theorem pc_modifyOperand (e : Execution M) {mode : AddressingMode} (h : mode ≠ .relative)
    (f : Status → UInt8 → UInt8 × Status) :
    (e.modifyOperand mode f).2.registers.pc
      = e.registers.pc + UInt16.ofNat mode.operandBytes := by
  unfold modifyOperand
  split
  · rename_i hmode
    rw [hmode]
    exact (UInt16.add_zero _).symm
  · exact e.pc_resolve h

/-- An action behind which the program goes on passes its operand. -/
theorem pc_perform (e : Execution M) (address : UInt16) (opcode : UInt8) {i : Instruction}
    {action : Action} (h : action.Sequential) (hmode : i.mode ≠ .relative) :
    (e.perform address opcode i action).registers.pc
      = e.registers.pc + UInt16.ofNat (action.passes i.mode) := by
  have hread : (e.readOperand i.mode).2.registers.pc
      = e.registers.pc + UInt16.ofNat i.mode.operandBytes := by
    rw [registers_readOperand, e.pc_resolve hmode]
  have hstay : e.registers.pc = e.registers.pc + UInt16.ofNat 0 := (UInt16.add_zero _).symm
  cases action with
  | load f => exact (h _ _).trans hread
  | store f => exact e.pc_resolve hmode
  | modify f g => exact (h _ _).trans (e.pc_modifyOperand hmode f)
  | idle =>
    unfold perform
    simp only
    split
    · exact hread
    · rfl
  | skipStore => rfl
  | internal f => exact (h _).trans hstay
  | pull f => exact (h _ _).trans hstay
  | mask _ | push _ | pullStatus | lockUp => exact hstay
  | branch _ | jump | call | returnFromCall | softwareInterrupt | returnFromInterrupt => cases h

theorem cycles_perform_of_isFixedTime (e : Execution M) (address : UInt16) (opcode : UInt8)
    (i : Instruction) {action : Action} (h : action.isFixedTime = true) :
    (e.perform address opcode i action).cycles = e.cycles := by
  cases action with
  | load _ | idle | branch _ => cases h
  | store f => exact e.cycles_resolve i.mode
  | modify f g => exact e.cycles_modifyOperand i.mode f
  | jump => exact e.cycles_resolve i.mode
  | _ => rfl

/-- What is left of a processor when an instruction in flight has ended. -/
def outcome (e : Execution M) (cpu : Cpu) : Outcome M where
  machine := { cpu := { cpu with registers := e.registers }, memory := e.memory }
  cycles := e.cycles
  notices := e.notices

omit [Memory M] in
theorem pc_settleMask (e : Execution M) : e.settleMask.registers.pc = e.registers.pc := by
  unfold settleMask
  split <;> rfl

end Execution

/-! ## The next instruction -/

namespace Machine

/-- The instruction the processor is about to execute. -/
def nextInstruction (m : Machine M) : Instruction := Opcode.decode m.nextOpcode

/-- What that instruction will do. -/
def nextAction (m : Machine M) : Action := m.nextInstruction.operation.action m.cpu.decimalMode

/-- That instruction in flight, behind its opcode. -/
def begun (m : Machine M) : Execution M where
  registers := { m.cpu.registers with pc := m.cpu.registers.pc + 1 }
  memory := Memory.afterRead m.memory m.cpu.registers.pc
  cycles := m.nextInstruction.cycles
  newMask := none
  notices := (∅ : Array Notice).push
    (.executing m.cpu.registers.pc m.nextOpcode m.nextInstruction)

/-- An instruction is performed on what has been fetched. -/
theorem execute_eq (m : Machine M) :
    execute m.cpu m.memory
      = m.begun.perform m.cpu.registers.pc m.nextOpcode m.nextInstruction m.nextAction := rfl

/-- An instruction behind which no request is accepted ends with the late change
of the interrupt mask that it may have asked for. -/
theorem step_of_declined {m : Machine M}
    (h : m.cpu.requests.accepted? ((execute m.cpu m.memory).registers.status.get .interruptDisable)
      = none) :
    m.step = (execute m.cpu m.memory).settleMask.outcome m.cpu := by
  obtain ⟨cpu, memory⟩ := m
  simp only at h
  simp only [step, Execution.poll, h]
  rfl

/-- An instruction behind which a request is accepted ends with the service of
it, which answers all requests. -/
theorem step_of_accepted {m : Machine M} {line : Interrupt}
    (h : m.cpu.requests.accepted? ((execute m.cpu m.memory).registers.status.get .interruptDisable)
      = some line) :
    m.step = ((execute m.cpu m.memory).settleMask.service line).outcome
      { m.cpu with requests := .none } := by
  obtain ⟨cpu, memory⟩ := m
  simp only at h
  simp only [step, Execution.poll, h]
  rfl

/-- What an instruction leaves that works on the registers alone, and is not
interrupted. -/
theorem step_of_internal {m : Machine M} {f : Registers → Registers}
    (hrequests : m.cpu.requests = .none) (h : m.nextAction = .internal f) :
    m.step.machine =
      { cpu :=
          { m.cpu with
            registers := f { m.cpu.registers with pc := m.cpu.registers.pc + 1 } }
        memory := Memory.afterRead m.memory m.cpu.registers.pc } := by
  have hdeclined := step_of_declined (m := m) (by rw [hrequests]; rfl)
  rw [hdeclined, execute_eq, h]
  rfl

end Machine

end VideoComputer
