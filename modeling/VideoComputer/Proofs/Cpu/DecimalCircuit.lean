/-
VideoComputer.Proofs.Cpu.DecimalCircuit — what the decimal circuit is good for.

A processor is built with or without a decimal circuit, and a program can only
find out which by adding or subtracting with the decimal flag set. Everything
else that happens to the flag, and it travels through the stack like the others,
is the same with and without the circuit.

* `Operation.usesAdder` — the operations that add or subtract, two of them
  behind another operation.
* `Machine.withDecimalMode` — the same processor with or without the circuit.
* `Machine.AddsInDecimal` — the next instruction is one of them, and the decimal
  flag is set.
* `step_withDecimalMode` — every other instruction is the same.
* `drive_withDecimalMode`, `answers_withDecimalMode` — and so is a whole run of
  others.
-/
import VideoComputer.Memory.Ram
import VideoComputer.Proofs.Cpu.Calls
import VideoComputer.Proofs.Cpu.Sequencing

namespace VideoComputer

/-! ## Operations that use the adder -/

/-- Whether the operation adds to A or subtracts from it. -/
def Operation.usesAdder : Operation → Bool
  | .adc | .sbc | .rra | .isc => true
  | _ => false

theorem Operation.action_of_not_usesAdder {op : Operation} (h : op.usesAdder = false)
    (decimalMode decimalMode' : Bool) : op.action decimalMode = op.action decimalMode' := by
  cases op with
  | adc | sbc | rra | isc => cases h
  | _ => rfl

namespace Registers

variable {r : Registers} (h : r.status.get .decimal = false)

include h

theorem adc_of_not_decimal (decimalMode decimalMode' : Bool) (operand : UInt8) :
    r.adc decimalMode operand = r.adc decimalMode' operand := by
  simp only [adc, h, Bool.and_false]

theorem sbc_of_not_decimal (decimalMode decimalMode' : Bool) (operand : UInt8) :
    r.sbc decimalMode operand = r.sbc decimalMode' operand := by
  simp only [sbc, h, Bool.and_false]

end Registers

/-! ## Their operands leave the decimal flag alone -/

namespace Execution

variable {M : Type} [Memory M] (e : Execution M)

theorem status_resolve (mode : AddressingMode) :
    (e.resolve mode).execution.registers.status = e.registers.status := by
  cases mode <;> rfl

theorem decimal_readOperand (mode : AddressingMode) :
    (e.readOperand mode).2.registers.status.get .decimal = e.registers.status.get .decimal := by
  rw [registers_readOperand, status_resolve]

theorem decimal_modifyOperand (mode : AddressingMode) {f : Status → UInt8 → UInt8 × Status}
    (hf : ∀ s operand, (f s operand).2.get .decimal = s.get .decimal) :
    (e.modifyOperand mode f).2.registers.status.get .decimal = e.registers.status.get .decimal := by
  unfold modifyOperand
  split
  · exact hf _ _
  · rw [← e.status_resolve mode]
    exact hf _ _

/-- With the decimal flag clear, the adder does not need the circuit. -/
theorem perform_usesAdder {op : Operation} (hop : op.usesAdder = true)
    (h : e.registers.status.get .decimal = false) (address : UInt16) (opcode : UInt8)
    (i : Instruction) (decimalMode decimalMode' : Bool) :
    e.perform address opcode i (op.action decimalMode)
      = e.perform address opcode i (op.action decimalMode') := by
  have hread : (e.readOperand i.mode).2.registers.status.get .decimal = false := by
    rw [decimal_readOperand, h]
  have hrotated : (e.modifyOperand i.mode Status.ror).2.registers.status.get .decimal = false := by
    rw [decimal_modifyOperand e i.mode fun _ _ => by simp [Status.ror, Status.shiftRight], h]
  have hincremented :
      (e.modifyOperand i.mode Status.inc).2.registers.status.get .decimal = false := by
    rw [decimal_modifyOperand e i.mode fun _ _ => by simp [Status.inc], h]
  cases op with
  | adc =>
    simp only [Operation.action, perform,
      Registers.adc_of_not_decimal hread decimalMode decimalMode']
  | sbc =>
    simp only [Operation.action, perform,
      Registers.sbc_of_not_decimal hread decimalMode decimalMode']
  | rra =>
    simp only [Operation.action, perform,
      Registers.adc_of_not_decimal hrotated decimalMode decimalMode']
  | isc =>
    simp only [Operation.action, perform,
      Registers.sbc_of_not_decimal hincremented decimalMode decimalMode']
  | _ => cases hop

end Execution

/-! ## One call -/

namespace Machine

variable {M : Type} [Memory M]

/-- The same processor, with the decimal circuit or without it. -/
def withDecimalMode (m : Machine M) (decimalMode : Bool) : Machine M :=
  { m with cpu := { m.cpu with decimalMode } }

/-- Whether the next instruction adds or subtracts with the decimal flag set. -/
def AddsInDecimal (m : Machine M) : Prop :=
  m.nextInstruction.operation.usesAdder = true ∧ m.cpu.registers.status.get .decimal = true

instance (m : Machine M) : Decidable m.AddsInDecimal :=
  inferInstanceAs (Decidable (_ ∧ _))

variable (m : Machine M) (decimalMode : Bool)

theorem execute_withDecimalMode (h : ¬ m.AddsInDecimal) :
    execute (m.withDecimalMode decimalMode).cpu m.memory = execute m.cpu m.memory := by
  show m.begun.perform m.cpu.registers.pc m.nextOpcode m.nextInstruction
    (m.nextInstruction.operation.action decimalMode) = _
  rw [execute_eq, nextAction]
  cases hadder : m.nextInstruction.operation.usesAdder with
  | false => rw [Operation.action_of_not_usesAdder hadder decimalMode m.cpu.decimalMode]
  | true =>
    have hbinary : m.begun.registers.status.get .decimal = false :=
      Bool.eq_false_iff.mpr fun hdecimal => h ⟨hadder, hdecimal⟩
    exact m.begun.perform_usesAdder hadder hbinary _ _ _ _ _

/-- An instruction that does not add in decimal is the same with and without the
circuit. -/
theorem step_withDecimalMode (h : ¬ m.AddsInDecimal) :
    (m.withDecimalMode decimalMode).step
      = { m.step with machine := m.step.machine.withDecimalMode decimalMode } := by
  have hexecute := m.execute_withDecimalMode decimalMode h
  obtain ⟨cpu, memory⟩ := m
  simp only [withDecimalMode] at hexecute ⊢
  simp only [step, hexecute]

theorem reset_withDecimalMode :
    (m.withDecimalMode decimalMode).reset = m.reset.withDecimalMode decimalMode := rfl

theorem call_withDecimalMode {c : Call} (h : c = .step → ¬ m.AddsInDecimal) :
    (m.withDecimalMode decimalMode).call c = (m.call c).withDecimalMode decimalMode
      ∧ (m.withDecimalMode decimalMode).answer? c = m.answer? c := by
  cases c with
  | step =>
    have hstep := m.step_withDecimalMode decimalMode (h rfl)
    constructor
    · rw [call, hstep]
      rfl
    · rw [answer?, hstep]
      rfl
  | interrupt line => exact ⟨rfl, rfl⟩
  | reset => exact ⟨m.reset_withDecimalMode decimalMode, rfl⟩

/-! ## A whole run -/

/-- Whether some instruction of a run adds in decimal. -/
def EverAddsInDecimal (calls : List Call) : Prop :=
  ∃ past, past ++ [.step] <+: calls ∧ (m.drive past).AddsInDecimal

variable {m} {calls : List Call}

theorem not_everAddsInDecimal_nil : ¬ m.EverAddsInDecimal [] := by
  rintro ⟨past, hpast, -⟩
  simp at hpast

theorem everAddsInDecimal_cons {c : Call} :
    m.EverAddsInDecimal (c :: calls)
      ↔ c = .step ∧ m.AddsInDecimal ∨ (m.call c).EverAddsInDecimal calls := by
  constructor
  · rintro ⟨past, hpast, hadds⟩
    cases past with
    | nil => exact .inl ⟨(List.cons_prefix_cons.mp hpast).1.symm, hadds⟩
    | cons c' past =>
      obtain ⟨rfl, hrest⟩ := List.cons_prefix_cons.mp hpast
      exact .inr ⟨past, hrest, hadds⟩
  · rintro (⟨rfl, hadds⟩ | ⟨past, hpast, hadds⟩)
    · exact ⟨[], by simp, hadds⟩
    · exact ⟨c :: past, List.cons_prefix_cons.mpr ⟨rfl, hpast⟩, hadds⟩

theorem EverAddsInDecimal.of_prefix {past : List Call} (h : m.EverAddsInDecimal past)
    (hpast : past <+: calls) : m.EverAddsInDecimal calls := by
  obtain ⟨earlier, hearlier, hadds⟩ := h
  exact ⟨earlier, hearlier.trans hpast, hadds⟩

theorem drive_withDecimalMode (decimalMode : Bool) (h : ¬ m.EverAddsInDecimal calls) :
    (m.withDecimalMode decimalMode).drive calls
      = (m.drive calls).withDecimalMode decimalMode := by
  induction calls generalizing m with
  | nil => rfl
  | cons c calls ih =>
    rw [everAddsInDecimal_cons, not_or, not_and] at h
    obtain ⟨hnow, hlater⟩ := h
    rw [drive_cons, (m.call_withDecimalMode decimalMode hnow).1, ih hlater, drive_cons]

theorem answers_withDecimalMode (decimalMode : Bool) (h : ¬ m.EverAddsInDecimal calls) :
    (m.withDecimalMode decimalMode).answers calls = m.answers calls := by
  induction calls generalizing m with
  | nil => rfl
  | cons c calls ih =>
    rw [everAddsInDecimal_cons, not_or, not_and] at h
    obtain ⟨hnow, hlater⟩ := h
    obtain ⟨hcall, hanswer⟩ := m.call_withDecimalMode decimalMode hnow
    rw [answers_cons, hcall, hanswer, ih hlater, answers_cons]

/-- Two processors that differ in their decimal circuit at most, driven by the
same calls. As long as one of them does not add in decimal, both answer the same
and have the same registers, requests and memory at every point. -/
theorem decimalMode_unobservable {m m' : Machine M} {calls : List Call}
    (hregisters : m'.cpu.registers = m.cpu.registers)
    (hrequests : m'.cpu.requests = m.cpu.requests)
    (hmemory : m'.memory = m.memory)
    (h : ¬ m.EverAddsInDecimal calls) :
    m'.answers calls = m.answers calls
      ∧ ∀ past, past <+: calls →
          (m'.drive past).cpu.registers = (m.drive past).cpu.registers
            ∧ (m'.drive past).cpu.requests = (m.drive past).cpu.requests
            ∧ (m'.drive past).memory = (m.drive past).memory := by
  have hm' : m' = m.withDecimalMode m'.cpu.decimalMode := by
    simp only [withDecimalMode, ← hregisters, ← hrequests, ← hmemory]
  rw [hm']
  refine ⟨answers_withDecimalMode _ h, ?_⟩
  intro past hpast
  rw [drive_withDecimalMode _ fun hadds => h (hadds.of_prefix hpast)]
  exact ⟨rfl, rfl, rfl⟩

/-- Calls that run three instructions, and start the program again after an
interrupt was asked for. -/
def restartedCalls : List Call :=
  [.step, .step, .step, .interrupt .nonMaskable, .reset, .step]

/-- A program that starts by setting the decimal flag and clearing it again does
not add in decimal under these calls, whatever its third instruction is. -/
theorem not_everAddsInDecimal_restartedCalls {memory : Ram}
    (hvector : word (memory.read 0xFFFC) (memory.read 0xFFFD) = 0x0000)
    (hfirst : memory.read 0x0000 = 0xF8) (hsecond : memory.read 0x0001 = 0xD8) :
    ¬ (powerOn true memory).EverAddsInDecimal restartedCalls := by
  have hpc : (powerOn true memory).cpu.registers.pc = 0x0000 := hvector
  have hsed : (powerOn true memory).nextInstruction = ⟨.sed, .implied, .official, 2⟩ := by
    rw [nextInstruction, nextOpcode, hpc]
    show Opcode.decode (memory.read 0x0000) = _
    rw [hfirst]
    rfl
  have hset := step_of_internal (m := powerOn true memory) rfl (f := Registers.sed)
    (by rw [nextAction, hsed]; rfl)
  have hcld : (powerOn true memory).step.machine.nextInstruction
      = ⟨.cld, .implied, .official, 2⟩ := by
    rw [nextInstruction, nextOpcode, hset]
    show Opcode.decode (memory.read ((powerOn true memory).cpu.registers.pc + 1)) = _
    rw [hpc]
    show Opcode.decode (memory.read 0x0001) = _
    rw [hsecond]
    rfl
  have hclear := step_of_internal (m := (powerOn true memory).step.machine)
    (by rw [hset]; rfl) (f := Registers.cld) (by rw [nextAction, hcld]; rfl)
  intro hever
  obtain ⟨-, hadds⟩ | hever := everAddsInDecimal_cons.mp hever
  · rw [AddsInDecimal, hsed] at hadds
    cases hadds.1
  obtain ⟨-, hadds⟩ | hever := everAddsInDecimal_cons.mp hever
  · rw [AddsInDecimal, call, hcld] at hadds
    cases hadds.1
  obtain ⟨-, hadds⟩ | hever := everAddsInDecimal_cons.mp hever
  · rw [AddsInDecimal, call, call, hclear] at hadds
    exact absurd hadds.2 (by simp [Registers.cld])
  obtain ⟨hstep, -⟩ | hever := everAddsInDecimal_cons.mp hever
  · cases hstep
  obtain ⟨hstep, -⟩ | hever := everAddsInDecimal_cons.mp hever
  · cases hstep
  obtain ⟨-, hadds⟩ | hever := everAddsInDecimal_cons.mp hever
  · have hreset : Status.powerOn.get .decimal = true := hadds.2
    exact absurd hreset (by decide)
  exact not_everAddsInDecimal_nil hever

/-- A program that sets the decimal flag, clears it and adds. -/
def flagAndAdd : Ram :=
  (((Ram.full.write 0x0000 0xF8).write 0x0001 0xD8).write 0x0002 0x69).write 0x0003 0x19

/-- It does not find out about the circuit. -/
theorem decimalMode_unobservable_flagAndAdd :
    flagAndAdd.IsFull
      ∧ ¬ (powerOn true flagAndAdd).EverAddsInDecimal restartedCalls
      ∧ (powerOn false flagAndAdd).answers restartedCalls
        = (powerOn true flagAndAdd).answers restartedCalls := by
  have hfirst : (Ram.full.write 0x0000 0xF8).IsFull := Ram.IsFull.full.write _ _
  have hsecond := hfirst.write 0x0001 0xD8
  have hthird := hsecond.write 0x0002 0x69
  have hread (address : UInt16) : flagAndAdd.read address
      = if 0x0003 = address then 0x19 else if 0x0002 = address then 0x69
        else if 0x0001 = address then 0xD8 else if 0x0000 = address then 0xF8 else 0 := by
    rw [flagAndAdd, hthird.read_write, hsecond.read_write, hfirst.read_write,
      Ram.IsFull.full.read_write, Ram.read_full]
  have hbinary : ¬ (powerOn true flagAndAdd).EverAddsInDecimal restartedCalls := by
    apply not_everAddsInDecimal_restartedCalls
    · rw [hread, hread]
      decide
    · rw [hread]
      decide
    · rw [hread]
      decide
  obtain ⟨hanswers, -⟩ := @decimalMode_unobservable Ram _ (powerOn true flagAndAdd)
    (powerOn false flagAndAdd) _ rfl rfl rfl hbinary
  exact ⟨hthird.write 0x0003 0x19, hbinary, hanswers⟩

end Machine

end VideoComputer
