/-
VideoComputer.Proofs.Cpu.CombinedOperations — operations that do the work of two.

Opcodes that the documentation leaves out put two operations into one instruction: a
byte of memory is shifted or counted, and what comes out goes on to A at once; or a
byte is loaded into A and X. Each can be written with two official instructions, on
the address at which the combined one finds its operand. Some of the addressing modes
of the combined ones the official shifts do not have, so the two instructions take the
address as it is.

The two programs have different bytes, so they are compared on two machines, which
need not agree on more memory than the operand.

* `Registers.IgnoresPc` — data paths that have no part in where a program is.
* `step_of_load`, `step_of_modify` — an instruction that reads memory, or reads it and
  writes it back, in one equation.
* `Operation.parts?`, `WrittenInParts` — the two official instructions.
* `Machine.Rewritten` — the other machine, in front of them.
* `combined_as_parts` — both leave the same.
-/
import VideoComputer.Proofs.Cpu.EffectiveAddresses
import VideoComputer.Proofs.Cpu.Interrupts

namespace VideoComputer

/-! ## Data paths and the program counter -/

namespace Registers

/-- Whether a data path is the same wherever the program is. -/
def IgnoresPc (f : Registers → UInt8 → Registers) : Prop :=
  ∀ r pc operand, f (r.withPc pc) operand = (f r operand).withPc pc

theorem ignoresPc_adc (decimalMode : Bool) : IgnoresPc (adc decimalMode) := by
  intro r pc operand
  unfold adc
  show (if decimalMode && r.status.get .decimal then _ else _) = _
  split <;> rfl

/-- The adder gives zero and negative anew, so it does not see what they were. -/
theorem adc_withZeroNegative (r : Registers) (decimalMode : Bool) (status : Status)
    (result operand : UInt8) :
    adc decimalMode { r with status := status.withZeroNegative result } operand
      = adc decimalMode { r with status } operand := by
  have hdecimal : addDecimal { r with status := status.withZeroNegative result } operand
      = addDecimal { r with status } operand := by
    simp [addDecimal, Status.put_zero_negative]
  have hbinary : addBinary { r with status := status.withZeroNegative result } operand
      = addBinary { r with status } operand := by
    simp only [addBinary, Status.get_withZeroNegative, reduceCtorEq, if_false]
    rw [Status.withZeroNegative.eq_1 (status.withZeroNegative result), Status.put_zero_negative]
    rfl
  simp [adc, hdecimal, hbinary]

end Registers

/-! ## Instructions with an operand in memory -/

namespace Machine

variable {m : Machine Ram}

/-- The registers when the next instruction has passed its bytes. -/
def behind (m : Machine Ram) : Registers :=
  m.cpu.registers.withPc (m.cpu.registers.pc + 1 + UInt16.ofNat m.nextInstruction.mode.operandBytes)

variable (hfull : m.memory.IsFull) (hrequests : m.cpu.requests = .none) {e : UInt16}
  (he : m.operandAddress? m.nextInstruction.mode = some e.toNat)

include hfull hrequests he

/-- An instruction that loads does to the registers what its operation does with the
byte at its address. -/
theorem step_of_load {f : Registers → UInt8 → Registers} (haction : m.nextAction = .load f) :
    m.step.machine =
      { cpu := { m.cpu with registers := f m.behind (m.memory.read e) }
        memory := m.memory } := by
  obtain ⟨haddress, -, hexecution⟩ := resolve_begun hfull he
  rw [UInt16.toNat_inj] at haddress
  rw [step_of_uninterrupted (not_accepts hrequests) (by rw [haction]; rfl), execute_eq, haction]
  simp only [Execution.perform, Execution.readOperand, haddress, hexecution]
  split <;> rfl

/-- An instruction that modifies its operand writes the result back and gives the
registers a look at it. -/
theorem step_of_modify {f : Status → UInt8 → UInt8 × Status} {g : Registers → UInt8 → Registers}
    (haction : m.nextAction = .modify f g) :
    let result := f m.cpu.registers.status (m.memory.read e)
    m.step.machine =
      { cpu := { m.cpu with registers := g { m.behind with status := result.2 } result.1 }
        memory := m.memory.write e result.1 } := by
  obtain ⟨haddress, -, hexecution⟩ := resolve_begun hfull he
  rw [UInt16.toNat_inj] at haddress
  have hmode : m.nextInstruction.mode ≠ .accumulator := by
    intro h
    rw [h] at he
    cases he
  rw [step_of_uninterrupted (not_accepts hrequests) (by rw [haction]; rfl), execute_eq, haction]
  simp only [Execution.perform, Execution.modifyOperand, if_neg hmode, haddress, hexecution]
  rfl

end Machine

/-! ## Parts -/

/-- The two operations that do one after the other what the operation does at once. -/
def Operation.parts? : Operation → Option (Operation × Operation)
  | .slo => some (.asl, .ora)
  | .rla => some (.rol, .and)
  | .sre => some (.lsr, .eor)
  | .rra => some (.ror, .adc)
  | .dcp => some (.dec, .cmp)
  | .isc => some (.inc, .sbc)
  | .lax => some (.lda, .tax)
  | _ => none

namespace Opcode

/-- An opcode of the official instruction for an operation in an addressing mode. -/
structure IsOfficial (opcode : UInt8) (op : Operation) (mode : AddressingMode) : Prop where
  operation_eq : (decode opcode).operation = op
  mode_eq : (decode opcode).mode = mode
  category_eq : (decode opcode).category = .official

/-- The bytes of an instruction whose operand, if it has one, is an address. -/
def code (opcode : UInt8) (e : UInt16) : List UInt8 :=
  [opcode, lowByte e, highByte e].take (decode opcode).bytes

variable {opcode : UInt8} {op : Operation}

theorem IsOfficial.bytes_eq {mode : AddressingMode} (h : IsOfficial opcode op mode) :
    (decode opcode).bytes = 1 + mode.operandBytes := by
  rw [Instruction.bytes, h.category_eq, h.mode_eq]

theorem IsOfficial.code_absolute (h : IsOfficial opcode op .absolute) (e : UInt16) :
    code opcode e = [opcode, lowByte e, highByte e] := by
  rw [code, h.bytes_eq]
  rfl

theorem IsOfficial.code_implied (h : IsOfficial opcode op .implied) (e : UInt16) :
    code opcode e = [opcode] := by
  rw [code, h.bytes_eq]
  rfl

set_option maxRecDepth 4096 in
/-- All combined operations have an operand in memory. -/
theorem hasAddress_of_parts (opcode : UInt8) (h : (decode opcode).operation.parts?.isSome = true) :
    (decode opcode).mode.hasAddress = true := by
  have table_modes : ∀ i ∈ table.toList, i.operation.parts?.isSome = true →
      i.mode.hasAddress = true := by decide +kernel
  exact table_modes _ (decode_mem opcode) h

end Opcode

/-- All combined operations but one change the operand in memory and then give it to a
data path, as their parts do. -/
theorem Operation.action_of_parts (decimalMode : Bool) {op first second : Operation}
    (h : op.parts? = some (first, second)) (hlax : op ≠ .lax) :
    ∃ f g, op.action decimalMode = .modify f g
      ∧ first.action decimalMode = .modify f Registers.unchanged
      ∧ second.action decimalMode = .load g
      ∧ Registers.IgnoresPc g := by
  cases op with
  | slo | rla | sre | dcp | isc =>
    cases h
    exact ⟨_, _, rfl, rfl, rfl, fun _ _ _ => rfl⟩
  | rra =>
    cases h
    exact ⟨_, _, rfl, rfl, rfl, Registers.ignoresPc_adc decimalMode⟩
  | lax => exact absurd rfl hlax
  | _ => cases h

/-- The programs of two official instructions that do one after the other what the
operation does at once, on an absolute address. Of the second halves only the transfer has
no operand. -/
inductive Operation.WrittenInParts (op : Operation) (e : UInt16) : List UInt8 → Prop
  | program {first second : Operation} {opcode opcode' : UInt8}
      (parts_eq : op.parts? = some (first, second))
      (isOfficial : Opcode.IsOfficial opcode first .absolute)
      (isOfficial' : Opcode.IsOfficial opcode' second (if op = .lax then .implied else .absolute)) :
      WrittenInParts op e (Opcode.code opcode e ++ Opcode.code opcode' e)

/-- There is such a program for each of them. -/
theorem Operation.exists_writtenInParts {op : Operation} (h : op.parts?.isSome = true)
    (e : UInt16) : ∃ program, op.WrittenInParts e program := by
  cases op with
  | slo =>
    have hfirst : Opcode.IsOfficial 0x0E .asl .absolute := ⟨rfl, rfl, rfl⟩
    have hsecond : Opcode.IsOfficial 0x0D .ora .absolute := ⟨rfl, rfl, rfl⟩
    exact ⟨_, .program rfl hfirst hsecond⟩
  | rla =>
    have hfirst : Opcode.IsOfficial 0x2E .rol .absolute := ⟨rfl, rfl, rfl⟩
    have hsecond : Opcode.IsOfficial 0x2D .and .absolute := ⟨rfl, rfl, rfl⟩
    exact ⟨_, .program rfl hfirst hsecond⟩
  | sre =>
    have hfirst : Opcode.IsOfficial 0x4E .lsr .absolute := ⟨rfl, rfl, rfl⟩
    have hsecond : Opcode.IsOfficial 0x4D .eor .absolute := ⟨rfl, rfl, rfl⟩
    exact ⟨_, .program rfl hfirst hsecond⟩
  | rra =>
    have hfirst : Opcode.IsOfficial 0x6E .ror .absolute := ⟨rfl, rfl, rfl⟩
    have hsecond : Opcode.IsOfficial 0x6D .adc .absolute := ⟨rfl, rfl, rfl⟩
    exact ⟨_, .program rfl hfirst hsecond⟩
  | dcp =>
    have hfirst : Opcode.IsOfficial 0xCE .dec .absolute := ⟨rfl, rfl, rfl⟩
    have hsecond : Opcode.IsOfficial 0xCD .cmp .absolute := ⟨rfl, rfl, rfl⟩
    exact ⟨_, .program rfl hfirst hsecond⟩
  | isc =>
    have hfirst : Opcode.IsOfficial 0xEE .inc .absolute := ⟨rfl, rfl, rfl⟩
    have hsecond : Opcode.IsOfficial 0xED .sbc .absolute := ⟨rfl, rfl, rfl⟩
    exact ⟨_, .program rfl hfirst hsecond⟩
  | lax =>
    have hfirst : Opcode.IsOfficial 0xAD .lda .absolute := ⟨rfl, rfl, rfl⟩
    have hsecond : Opcode.IsOfficial 0xAA .tax .implied := ⟨rfl, rfl, rfl⟩
    exact ⟨_, .program rfl hfirst hsecond⟩
  | _ => cases h

namespace Machine

/-! ## A program in memory -/

variable {m m' : Machine Ram} {e : UInt16} {opcode : UInt8}

/-- What an official opcode and an absolute address in memory come to. -/
theorem absolute_of_holds (hfull : m.memory.IsFull) {op : Operation}
    (hopcode : Opcode.IsOfficial opcode op .absolute)
    (h : m.memory.Holds m.cpu.registers.pc (Opcode.code opcode e)) :
    m.operandAddress? m.nextInstruction.mode = some e.toNat
      ∧ m.nextAction = op.action m.cpu.decimalMode
      ∧ m.behind = m.cpu.registers.withPc (m.cpu.registers.pc + 3) := by
  rw [hopcode.code_absolute] at h
  have hnext : m.nextInstruction = Opcode.decode opcode := by
    rw [nextInstruction, nextOpcode_of_holds h]
  refine ⟨?_, ?_, ?_⟩
  · rw [hnext, hopcode.mode_eq, operandAddress?, ← toNat_operandWord hfull,
      operandWord_of_holds h]
  · rw [nextAction, hnext, hopcode.operation_eq]
  · rw [behind, hnext, hopcode.mode_eq]
    exact congrArg _ (UInt16.add_assoc _ 1 2)

/-- The second machine has the registers of the first, but is in front of a program of
its own. The operand is the same, and no part of that program. -/
structure Rewritten (m m' : Machine Ram) (e : UInt16) (program : List UInt8) : Prop where
  isFull : m'.memory.IsFull
  cpu_eq : m'.cpu = { m.cpu with registers := m.cpu.registers.withPc m'.cpu.registers.pc }
  holds : m'.memory.Holds m'.cpu.registers.pc program
  apart : ¬ Ram.Covers m'.cpu.registers.pc program.length e
  operand_eq : m'.memory.read e = m.memory.read e

/-- What is left of the second machine, which is behind its program, agrees with what is
left of the first: in all other registers, and in every byte in which they agreed. -/
structure Agrees (m m' left left' : Machine Ram) (length : Nat) : Prop where
  cpu_eq : left'.cpu =
    { left.cpu with
      registers := left.cpu.registers.withPc (m'.cpu.registers.pc + UInt16.ofNat length) }
  memory_eq : ∀ address, m'.memory.read address = m.memory.read address →
    left'.memory.read address = left.memory.read address

/-! ## One instruction and two -/

section

variable {first second : Operation} {opcode opcode' : UInt8} (hfull : m.memory.IsFull)
  (hrequests : m.cpu.requests = .none)
  (he : m.operandAddress? m.nextInstruction.mode = some e.toNat)
  (hopcode : Opcode.IsOfficial opcode first .absolute)
  (h : m.Rewritten m' e (Opcode.code opcode e ++ Opcode.code opcode' e))

include hfull hrequests he hopcode h

/-- A change of the operand that goes on to a data path, and its two parts. -/
theorem agrees_of_modify {f : Status → UInt8 → UInt8 × Status} {g : Registers → UInt8 → Registers}
    (haction : m.nextAction = .modify f g)
    (hfirst : first.action m.cpu.decimalMode = .modify f Registers.unchanged)
    (hsecond : second.action m.cpu.decimalMode = .load g) (hg : Registers.IgnoresPc g)
    (hopcode' : Opcode.IsOfficial opcode' second .absolute) :
    Agrees m m' m.step.machine m'.step.machine.step.machine
      (Opcode.code opcode e ++ Opcode.code opcode' e).length := by
  have hlength : (Opcode.code opcode e).length = 3 := by rw [hopcode.code_absolute]; rfl
  have hlength' : (Opcode.code opcode' e).length = 3 := by rw [hopcode'.code_absolute]; rfl
  have hcpu := h.cpu_eq
  have hstatus : m'.cpu.registers.status = m.cpu.registers.status := by rw [hcpu]; rfl
  have hmode : m'.cpu.decimalMode = m.cpu.decimalMode := by rw [hcpu]
  have hrequests' : m'.cpu.requests = .none := by rw [hcpu]; exact hrequests
  obtain ⟨hcode, hcode'⟩ := h.holds.append
  rw [hlength] at hcode'
  have hone := step_of_modify hfull hrequests he haction
  -- the first part
  obtain ⟨he₁, haction₁, hbehind₁⟩ := absolute_of_holds h.isFull hopcode hcode
  have hstep₁ := step_of_modify h.isFull hrequests' he₁ (by rw [haction₁, hmode, hfirst])
  rw [hbehind₁, h.operand_eq, hstatus] at hstep₁
  -- what it writes is not in the way of the second
  have hcode₂ : (m'.memory.write e (f m.cpu.registers.status (m.memory.read e)).1).Holds
      (m'.cpu.registers.pc + 3) (Opcode.code opcode' e) := by
    refine hcode'.of_agree fun address haddress => ?_
    rw [h.isFull.read_write, if_neg]
    rintro rfl
    refine h.apart ?_
    rw [List.length_append, hlength]
    exact haddress.of_behind
  have hfull₂ : m'.step.machine.memory.IsFull := isFull_step h.isFull
  obtain ⟨he₂, haction₂, hbehind₂⟩ := absolute_of_holds (m := m'.step.machine) hfull₂ hopcode'
    (by rw [hstep₁]; exact hcode₂)
  have hstep₂ := step_of_load hfull₂ (by rw [hstep₁]; exact hrequests') he₂
    (haction₂.trans (by rw [hstep₁]; exact (congrArg second.action hmode).trans hsecond))
  rw [hbehind₂] at hstep₂
  rw [hone, hstep₂, hstep₁, List.length_append, hlength, hlength']
  constructor
  case cpu_eq =>
    have hpc : m'.cpu.registers.pc + 3 + 3 = m'.cpu.registers.pc + UInt16.ofNat (3 + 3) :=
      UInt16.add_assoc _ 3 3
    simp only [h.isFull.read_write, if_pos]
    rw [← hg, ← hpc, hcpu]
    rfl
  case memory_eq =>
    intro address haddress
    simp only [h.isFull.read_write, hfull.read_write, haddress]

/-- A load into A and X, and its two parts. -/
theorem agrees_of_lax (haction : m.nextAction = .load Registers.lax)
    (hfirst : first.action m.cpu.decimalMode = .load Registers.lda)
    (hsecond : second.action m.cpu.decimalMode = .internal Registers.tax)
    (hopcode' : Opcode.IsOfficial opcode' second .implied) :
    Agrees m m' m.step.machine m'.step.machine.step.machine
      (Opcode.code opcode e ++ Opcode.code opcode' e).length := by
  have hlength : (Opcode.code opcode e).length = 3 := by rw [hopcode.code_absolute]; rfl
  have hcpu := h.cpu_eq
  have hmode : m'.cpu.decimalMode = m.cpu.decimalMode := by rw [hcpu]
  have hrequests' : m'.cpu.requests = .none := by rw [hcpu]; exact hrequests
  obtain ⟨hcode, hcode'⟩ := h.holds.append
  rw [hlength, hopcode'.code_implied] at hcode'
  have hone := step_of_load hfull hrequests he haction
  obtain ⟨he₁, haction₁, hbehind₁⟩ := absolute_of_holds h.isFull hopcode hcode
  have hstep₁ := step_of_load h.isFull hrequests' he₁ (by rw [haction₁, hmode, hfirst])
  rw [hbehind₁, h.operand_eq] at hstep₁
  have hnext₂ : m'.step.machine.nextOpcode = opcode' :=
    nextOpcode_of_holds (by rw [hstep₁]; exact hcode')
  have hstep₂ := step_of_internal (m := m'.step.machine) (by rw [hstep₁]; exact hrequests')
    (by
      rw [nextAction, nextInstruction, hnext₂, hopcode'.operation_eq, hstep₁]
      exact (congrArg second.action hmode).trans hsecond)
  rw [hone, hstep₂, hstep₁, List.length_append, hlength, hopcode'.code_implied]
  constructor
  case cpu_eq =>
    have hpc : m'.cpu.registers.pc + 3 + 1 = m'.cpu.registers.pc + UInt16.ofNat (3 + 1) :=
      UInt16.add_assoc _ 3 1
    rw [List.length_singleton, ← hpc, hcpu]
    rfl
  case memory_eq =>
    intro address haddress
    exact haddress

end

/-- The rotation hands its carry to the adder. -/
theorem step_of_rra (hfull : m.memory.IsFull) (hrequests : m.cpu.requests = .none)
    (he : m.operandAddress? m.nextInstruction.mode = some e.toNat)
    (hop : m.nextInstruction.operation = .rra) :
    let operand := m.memory.read e
    let rotated := UInt8.ofNat (operand.toNat / 2 + 128 * (m.cpu.registers.status.get .carry).toNat)
    let status := m.cpu.registers.status.put .carry (bitAt operand 0)
    m.step.machine =
      { cpu :=
          { m.cpu with
            registers := Registers.adc m.cpu.decimalMode { m.behind with status } rotated }
        memory := m.memory.write e rotated } := by
  intro operand rotated status
  have haction : m.nextAction = .modify Status.ror (Registers.adc m.cpu.decimalMode) := by
    rw [nextAction, hop]
    rfl
  rw [step_of_modify hfull hrequests he haction,
    ← m.behind.adc_withZeroNegative _ status rotated rotated]
  rfl

/-- A combined instruction finds its operand in memory, whatever its mode is. There are
two official instructions that can be written in its place, on the address of that
operand. In a program that does not contain the operand, these leave, one after the
other, the same registers, flags and memory. In binary and in decimal, the instruction
that rotates and adds adds with the carry that the rotation shifted out. -/
theorem combined_as_parts {m : Machine Ram} (hfull : m.memory.IsFull)
    (hrequests : m.cpu.requests = .none)
    (hcombined : m.nextInstruction.operation.parts?.isSome = true) :
    ∃ e : UInt16, m.operandAddress? m.nextInstruction.mode = some e.toNat
      ∧ (∃ program, m.nextInstruction.operation.WrittenInParts e program)
      ∧ (∀ program m', m.nextInstruction.operation.WrittenInParts e program →
          m.Rewritten m' e program →
          Agrees m m' m.step.machine m'.step.machine.step.machine program.length)
      ∧ (m.nextInstruction.operation = .rra →
          let operand := m.memory.read e
          let rotated :=
            UInt8.ofNat (operand.toNat / 2 + 128 * (m.cpu.registers.status.get .carry).toNat)
          let status := m.cpu.registers.status.put .carry (bitAt operand 0)
          m.step.machine =
            { cpu :=
                { m.cpu with
                  registers := Registers.adc m.cpu.decimalMode { m.behind with status } rotated }
              memory := m.memory.write e rotated }) := by
  obtain ⟨e, he⟩ :=
    exists_operandAddress_of_isFull hfull (Opcode.hasAddress_of_parts m.nextOpcode hcombined)
  refine ⟨e, he, Operation.exists_writtenInParts hcombined e, ?_, step_of_rra hfull hrequests he⟩
  intro program m' hprogram h
  obtain ⟨hparts, hopcode, hopcode'⟩ := hprogram
  by_cases hlax : m.nextInstruction.operation = .lax
  · rw [if_pos hlax] at hopcode'
    have haction : m.nextAction = .load Registers.lax := by
      rw [nextAction, hlax]
      rfl
    rw [hlax] at hparts
    cases hparts
    exact agrees_of_lax hfull hrequests he hopcode h haction rfl rfl hopcode'
  · rw [if_neg hlax] at hopcode'
    obtain ⟨f, g, haction, hfirst, hsecond, hg⟩ :=
      Operation.action_of_parts m.cpu.decimalMode hparts hlax
    exact agrees_of_modify hfull hrequests he hopcode h haction hfirst hsecond hg hopcode'

/-- A processor about to rotate the byte at `$12F8` plus `$10` and to add it to A, in
decimal. -/
def rotateAndAdd : Machine Ram where
  cpu :=
    { registers :=
        { a := 0x45, x := 0, y := 0x10, sp := 0xFD, pc := 0x0200
          status := Status.powerOn.set .decimal }
      decimalMode := true
      requests := .none }
  memory := ((Ram.full.load 0x0200 [0x73, 0x80]).load 0x0080 [0xF8, 0x12]).write 0x1308 0x2B

/-- The same processor about to do so with two instructions. -/
def rotateThenAdd : Machine Ram where
  cpu :=
    { rotateAndAdd.cpu with registers := rotateAndAdd.cpu.registers.withPc 0x0300 }
  memory := rotateAndAdd.memory.load 0x0300 [0x6E, 0x08, 0x13, 0x6D, 0x08, 0x13]

/-- The byte becomes `$15`, and 45, 15 and the carry are 61. -/
theorem combined_as_parts_rotateAndAdd :
    rotateAndAdd.memory.IsFull
      ∧ rotateAndAdd.cpu.requests = .none
      ∧ rotateAndAdd.nextInstruction.operation.parts? = some (.ror, .adc)
      ∧ rotateAndAdd.step.machine.cpu.registers.a = 0x61
      ∧ rotateThenAdd.step.machine.step.machine.cpu.registers.a = 0x61
      ∧ rotateThenAdd.step.machine.step.machine.memory.read 0x1308 = 0x15 := by
  have hcode : (Ram.full.load 0x0200 [0x73, 0x80]).IsFull := Ram.IsFull.full.load _ _
  have hpointer := hcode.load 0x0080 [0xF8, 0x12]
  have hfull : rotateAndAdd.memory.IsFull := hpointer.write 0x1308 0x2B
  have hread (address : UInt16) : rotateAndAdd.memory.read address
      = if 0x1308 = address then 0x2B
        else ([0xF8, 0x12][(address - 0x0080).toNat]?).getD
          (([0x73, 0x80][(address - 0x0200).toNat]?).getD 0) := by
    rw [rotateAndAdd, hpointer.read_write, hcode.read_load (by decide),
      Ram.IsFull.full.read_load (by decide), Ram.read_full]
  have hinstruction : rotateAndAdd.nextInstruction = ⟨.rra, .indirectY, .unofficial, 8⟩ := by
    rw [nextInstruction, nextOpcode, Ram.memory_read,
      show rotateAndAdd.cpu.registers.pc = 0x0200 from rfl, hread]
    decide
  have hoperation : rotateAndAdd.nextInstruction.operation = .rra := by rw [hinstruction]
  obtain ⟨e, he, -, hagrees, hrra⟩ :=
    combined_as_parts hfull rfl (by rw [hoperation]; rfl)
  have haddress : e = 0x1308 := by
    have hbyte {n : Nat} (address : UInt16) (hn : n = address.toNat) :
        rotateAndAdd.byteAt n = (rotateAndAdd.memory.read address).toNat := by
      rw [hn, byteAt_eq hfull]
    rw [hinstruction, operandAddress?, streamByte, hbyte 0x0201 (by decide), hread, zeroPageWord,
      hbyte 0x0080 (by decide), hbyte 0x0081 (by decide), hread, hread] at he
    exact UInt16.toNat_inj.mp (Option.some.inj he).symm
  subst haddress
  have hrewritten : rotateAndAdd.Rewritten rotateThenAdd 0x1308
      [0x6E, 0x08, 0x13, 0x6D, 0x08, 0x13] := by
    constructor
    case isFull => exact hfull.load _ _
    case cpu_eq => rfl
    case holds => exact hfull.holds_load (by decide)
    case apart => decide
    case operand_eq => exact hfull.read_load_of_not_covers (by decide)
  have hprogram : Operation.WrittenInParts .rra 0x1308 [0x6E, 0x08, 0x13, 0x6D, 0x08, 0x13] := by
    have hfirst : Opcode.IsOfficial 0x6E .ror .absolute := ⟨rfl, rfl, rfl⟩
    have hsecond : Opcode.IsOfficial 0x6D .adc .absolute := ⟨rfl, rfl, rfl⟩
    have hprogram : Operation.WrittenInParts .rra 0x1308
        (Opcode.code 0x6E 0x1308 ++ Opcode.code 0x6D 0x1308) := .program rfl hfirst hsecond
    exact hprogram
  have hsame := hagrees _ rotateThenAdd (by rw [hoperation]; exact hprogram) hrewritten
  have hone := hrra hoperation
  rw [hread] at hone
  refine ⟨hfull, rfl, by rw [hoperation]; rfl, ?_, ?_, ?_⟩
  · rw [hone]
    rfl
  · rw [hsame.cpu_eq, hone]
    rfl
  · rw [hsame.memory_eq _ hrewritten.operand_eq, hone, hfull.read_write]
    rfl

end Machine

end VideoComputer
