/-
VideoComputer.Proofs.Cpu.Timing — how long an instruction can take.

An instruction costs what the opcode table says, and may add a cycle for an
operand beyond its page or two for a branch that is taken. Nothing ever takes
cycles back. The service of an interrupt behind it costs seven more.

* `cycles_perform` — an action adds at most two cycles.
* `two_le_cycles_step`, `cycles_step_le` — no instruction takes fewer than two
  cycles or more than seventeen.
-/
import VideoComputer.Cpu.Machine

namespace VideoComputer

set_option maxRecDepth 4096 in
/-- No instruction is in the table with more than eight cycles. -/
theorem Opcode.cycles_le_eight (opcode : UInt8) : (decode opcode).cycles ≤ 8 := by
  have table_cycles : ∀ i ∈ table.toList, i.cycles ≤ 8 := by decide +kernel
  exact table_cycles _ (decode_mem opcode)

variable {M : Type} [Memory M]

namespace Execution

/-! ## Operands -/

/-- To find an operand takes no cycles beyond those in the table. -/
@[simp] theorem cycles_resolve (e : Execution M) (mode : AddressingMode) :
    (e.resolve mode).execution.cycles = e.cycles := by
  cases mode <;> rfl

/-- To read an operand may take one. -/
theorem cycles_readOperand (e : Execution M) (mode : AddressingMode) :
    (e.readOperand mode).2.cycles = e.cycles + (e.resolve mode).crossed.toNat := by
  simp only [readOperand, read]
  cases (e.resolve mode).crossed with
  | true => exact congrArg (· + 1) (e.cycles_resolve mode)
  | false => exact e.cycles_resolve mode

@[simp] theorem cycles_modifyOperand (e : Execution M) (mode : AddressingMode)
    (f : Status → UInt8 → UInt8 × Status) : (e.modifyOperand mode f).2.cycles = e.cycles := by
  unfold modifyOperand
  split
  · rfl
  · exact e.cycles_resolve mode

/-! ## Instructions -/

/-- To branch takes a cycle, and another one beyond the page. -/
theorem cycles_branch (e : Execution M) (taken : Bool) :
    e.cycles ≤ (e.branch taken).cycles ∧ (e.branch taken).cycles ≤ e.cycles + 2 := by
  cases taken with
  | false => exact ⟨Nat.le_refl _, Nat.le_add_right _ _⟩
  | true =>
    have hcycles : (e.branch true).cycles = e.cycles
        + if pageCrossed e.fetch.2.registers.pc
              (e.fetch.2.registers.pc + signExtend e.fetch.1) then 2 else 1 := rfl
    rw [hcycles]
    split <;> omega

/-- An action adds at most two cycles. -/
theorem cycles_perform (e : Execution M) (address : UInt16) (opcode : UInt8) (i : Instruction)
    (action : Action) :
    e.cycles ≤ (e.perform address opcode i action).cycles
      ∧ (e.perform address opcode i action).cycles ≤ e.cycles + 2 := by
  have hoperand : e.cycles ≤ (e.readOperand i.mode).2.cycles
      ∧ (e.readOperand i.mode).2.cycles ≤ e.cycles + 2 := by
    rw [cycles_readOperand]
    have := (e.resolve i.mode).crossed.toNat_le
    omega
  have hsame {cycles : Nat} (h : cycles = e.cycles) :
      e.cycles ≤ cycles ∧ cycles ≤ e.cycles + 2 := by omega
  cases action with
  | load f => exact hoperand
  | idle =>
    unfold perform
    simp only
    split
    · exact hoperand
    · exact hsame rfl
  | branch taken => exact e.cycles_branch _
  | store f => exact hsame (e.cycles_resolve i.mode)
  | modify f g => exact hsame (e.cycles_modifyOperand i.mode f)
  | jump => exact hsame (e.cycles_resolve i.mode)
  | _ => exact hsame rfl

omit [Memory M] in
@[simp] theorem cycles_settleMask (e : Execution M) : e.settleMask.cycles = e.cycles := by
  unfold settleMask
  split <;> rfl

/-- The service of an interrupt costs seven cycles, and a poll without one
nothing. -/
theorem cycles_poll (e : Execution M) (requests : Requests) :
    e.cycles ≤ (e.poll requests).1.cycles ∧ (e.poll requests).1.cycles ≤ e.cycles + 7 := by
  unfold poll
  split
  · rw [cycles_settleMask]
    omega
  · rename_i interrupt _
    have hservice : (e.settleMask.service interrupt).cycles = e.settleMask.cycles + 7 := rfl
    rw [hservice, cycles_settleMask]
    omega

end Execution

namespace Machine

/-- The opcode of the next instruction. -/
def nextOpcode (m : Machine M) : UInt8 := Memory.read m.memory m.cpu.registers.pc

/-- An instruction takes the time in the table, at most two cycles more, and at
most seven for an interrupt behind it. -/
theorem cycles_step (m : Machine M) :
    (Opcode.decode m.nextOpcode).cycles ≤ m.step.cycles
      ∧ m.step.cycles ≤ (Opcode.decode m.nextOpcode).cycles + 9 := by
  obtain ⟨e, address, opcode, i, action, hexecute, hbase⟩ :
      ∃ (e : Execution M) (address : UInt16) (opcode : UInt8) (i : Instruction) (action : Action),
        execute m.cpu m.memory = e.perform address opcode i action
          ∧ e.cycles = (Opcode.decode m.nextOpcode).cycles := ⟨_, _, _, _, _, rfl, rfl⟩
  have hperform := e.cycles_perform address opcode i action
  have hpoll := (execute m.cpu m.memory).cycles_poll m.cpu.requests
  have hstep : m.step.cycles = ((execute m.cpu m.memory).poll m.cpu.requests).1.cycles := rfl
  rw [hexecute] at hpoll hstep
  omega

/-- No instruction takes less than two cycles, -/
theorem two_le_cycles_step (m : Machine M) : 2 ≤ m.step.cycles :=
  Nat.le_trans (Opcode.two_le_cycles _) m.cycles_step.1

/-- and none takes more than seventeen, an interrupt behind it included. -/
theorem cycles_step_le (m : Machine M) : m.step.cycles ≤ 17 := by
  have := Opcode.cycles_le_eight m.nextOpcode
  have := m.cycles_step.2
  omega

end Machine

end VideoComputer
