/-
VideoComputer.Proofs.Cpu.Transparency — a program does not notice that it was
interrupted.

The service of an interrupt and the instruction that returns from one are
inverse to each other: what the first saves on the stack the second takes from
there, bits 4 and 5 of the flags are supplied on the way out and dropped on the
way back, and the stack pointer comes back to where it was, around page 1 or
not. What remains of an interrupt whose handler returns at once is time, and
three bytes below the stack pointer.

* `step_of_return` — the instruction that returns.
* `interrupt_is_transparent` — an interrupt behind any instruction.
-/
import VideoComputer.Proofs.Cpu.StatusRegister

namespace VideoComputer.Machine

/-- The opcode of the instruction that returns from an interrupt. -/
def returnOpcode : UInt8 := 0x40

/-- With no request pending, that instruction pulls the flags and the program
counter and leaves everything else as it is. -/
theorem step_of_return {m : Machine Ram} (hrequests : m.cpu.requests = .none)
    (hopcode : m.nextOpcode = returnOpcode) :
    m.step.machine.cpu =
        { m.cpu with
          registers :=
            { m.cpu.registers with
              sp := m.cpu.registers.sp + 3
              pc := word (m.memory.read (Execution.stackAddress (m.cpu.registers.sp + 2)))
                (m.memory.read (Execution.stackAddress (m.cpu.registers.sp + 3)))
              status := Status.ofByte
                (m.memory.read (Execution.stackAddress (m.cpu.registers.sp + 1))) } }
      ∧ m.step.machine.memory = m.memory
      ∧ m.step.cycles = 6 := by
  have hinstruction : m.nextInstruction = ⟨.rti, .implied, .official, 6⟩ := by
    rw [nextInstruction, hopcode]
    rfl
  have haction : m.nextAction = .returnFromInterrupt := by
    rw [nextAction, hinstruction]
    rfl
  have hsecond : m.cpu.registers.sp + 1 + 1 = m.cpu.registers.sp + 2 := UInt8.add_assoc _ 1 1
  have hthird : m.cpu.registers.sp + 2 + 1 = m.cpu.registers.sp + 3 := UInt8.add_assoc _ 2 1
  have hcycles : m.begun.cycles = 6 := congrArg Instruction.cycles hinstruction
  have hnewMask : (execute m.cpu m.memory).newMask = none := by
    rw [execute_eq, haction]
    rfl
  rw [step_of_declined (by rw [hrequests]; rfl), Execution.settleMask_of_none hnewMask, execute_eq,
    haction]
  refine ⟨?_, rfl, hcycles⟩
  simp only [Execution.outcome, Execution.perform, Execution.pullWord, Execution.pull,
    Execution.read, Execution.goto, Memory.read, Memory.afterRead, begun, hsecond, hthird]

/-- The flags that a service saves are pulled as they were stored, since nothing
else is stored beside them. -/
theorem Serviced.ofByte_eq {m : Machine Ram} {line : Interrupt} (h : m.Serviced line)
    (hstored : m.cpu.registers.status.Unwired) :
    Status.ofByte (m.step.machine.memory.read (Execution.stackAddress (m.interrupted.sp - 2)))
      = m.interrupted.status := by
  have hinterrupted := unwired_interrupted hstored
  apply Status.ext_get
  · intro f
    rw [Status.get_ofByte]
    split
    · next hf => rw [hf, hinterrupted.1]
    · next hf => exact h.flags_eq f hf
  · exact (Status.unwired_ofByte _).2.trans hinterrupted.2.symm

/-- Let a request be accepted behind an instruction, and the handler that is
entered return at once, on a processor that stores its flags and nothing beside
them, as it does however it was used (`unwired_drive`). Then the processor is where
the instruction without the request would have left it, the memory differs at most
in the three bytes at and below the stack pointer, and the interrupt took seven
cycles for the service and six for the return. -/
theorem interrupt_is_transparent {m : Machine Ram} (hfull : m.memory.IsFull)
    (hstored : m.cpu.registers.status.Unwired) (h : m.Accepts)
    (hreturns : m.step.machine.nextOpcode = returnOpcode) :
    let back := m.step.machine.step
    back.machine.cpu = m.undisturbed.machine.cpu
      ∧ (∀ address, ¬ m.interrupted.Saves address →
          back.machine.memory.read address = m.undisturbed.machine.memory.read address)
      ∧ m.step.cycles + back.cycles = m.undisturbed.cycles + 7 + 6 := by
  intro back
  have hserviced := serviced_of_accepts hfull h
  have hsp : m.step.machine.cpu.registers.sp = m.interrupted.sp - 3 := by rw [hserviced.cpu_eq]
  obtain ⟨hcpu, hmemory, hcycles⟩ :=
    step_of_return (by rw [hserviced.cpu_eq]) hreturns
  refine ⟨?_, ?_, ?_⟩
  · have hstatus : m.interrupted.sp - 3 + 1 = m.interrupted.sp - 2 := by grind
    have hlow : m.interrupted.sp - 3 + 2 = m.interrupted.sp - 1 := by grind
    have hhigh : m.interrupted.sp - 3 + 3 = m.interrupted.sp := by grind
    rw [cpu_undisturbed]
    show m.step.machine.step.machine.cpu = _
    rw [hcpu, hsp, hstatus, hlow, hhigh, hserviced.ofByte_eq hstored, hserviced.low_eq,
      hserviced.high_eq, word_lowByte_highByte, hserviced.cpu_eq]
  · intro address haddress
    show m.step.machine.step.machine.memory.read address = _
    rw [hmemory, hserviced.elsewhere_eq address haddress]
  · show m.step.cycles + m.step.machine.step.cycles = _
    rw [hcycles, hserviced.cycles_eq]

/-- What an instruction does that changes the mask and nothing else. -/
theorem undisturbed_of_mask {m : Machine Ram} {disable : Bool} (h : m.nextAction = .mask disable) :
    m.undisturbed =
      { machine :=
          { cpu :=
              { m.cpu with
                registers :=
                  { m.cpu.registers with
                    pc := m.cpu.registers.pc + 1
                    status := m.cpu.registers.status.put .interruptDisable disable }
                requests := .none }
            memory := m.memory }
        cycles := m.nextInstruction.cycles
        notices := m.begun.notices } := by
  rw [undisturbed_eq, execute_eq, h]
  rfl

/-- A processor about to mask interrupts with a request pending, whose stack has
two bytes left before it wraps, and whose handler returns at once. -/
def maskingTooLate : Machine Ram where
  cpu :=
    { registers :=
        { a := 0, x := 0, y := 0, sp := 0x01, pc := 0x0200
          status := Status.powerOn.clear .interruptDisable }
      decimalMode := true
      requests := { maskable := true, nonMaskable := false } }
  memory := ((Ram.full.write 0x0200 0x78).write 0x0300 returnOpcode).write 0xFFFF 0x03

/-- Its instruction takes fifteen cycles in place of two, and is done. -/
theorem interrupt_is_transparent_maskingTooLate :
    maskingTooLate.memory.IsFull
      ∧ maskingTooLate.cpu.registers.status.Unwired
      ∧ maskingTooLate.Accepts
      ∧ maskingTooLate.step.machine.nextOpcode = returnOpcode
      ∧ maskingTooLate.step.machine.step.machine.cpu.registers
        = { a := 0, x := 0, y := 0, sp := 0x01, pc := 0x0201, status := .powerOn }
      ∧ maskingTooLate.step.cycles + maskingTooLate.step.machine.step.cycles = 15 := by
  have hfirst : (Ram.full.write 0x0200 0x78).IsFull := Ram.IsFull.full.write _ _
  have hsecond : ((Ram.full.write 0x0200 0x78).write 0x0300 returnOpcode).IsFull :=
    hfirst.write _ _
  have hfull : maskingTooLate.memory.IsFull := hsecond.write 0xFFFF 0x03
  have hread (address : UInt16) : maskingTooLate.memory.read address
      = if 0xFFFF = address then 0x03 else if 0x0300 = address then returnOpcode
        else if 0x0200 = address then 0x78 else 0 := by
    simp only [maskingTooLate]
    rw [hsecond.read_write, hfirst.read_write, Ram.IsFull.full.read_write, Ram.read_full]
  have hpc : maskingTooLate.cpu.registers.pc = 0x0200 := rfl
  have hopcode : maskingTooLate.nextOpcode = 0x78 := by
    rw [nextOpcode, Ram.memory_read, hpc, hread]
    decide
  have hinstruction : maskingTooLate.nextInstruction = ⟨.sei, .implied, .official, 2⟩ := by
    rw [nextInstruction, hopcode]
    rfl
  have haccepts : maskingTooLate.Accepts := by
    refine .inr ⟨rfl, ?_⟩
    rw [decidingMask, hinstruction]
    rfl
  have haction : maskingTooLate.nextAction = .mask true := by
    rw [nextAction, hinstruction]
    rfl
  have hundisturbed := undisturbed_of_mask haction
  have hregisters : maskingTooLate.undisturbed.machine.cpu.registers
      = { a := 0, x := 0, y := 0, sp := 0x01, pc := 0x0201, status := .powerOn } := by
    rw [hundisturbed]
    rfl
  have hmemory : maskingTooLate.undisturbed.machine.memory = maskingTooLate.memory := by
    rw [hundisturbed]
  have hcycles : maskingTooLate.undisturbed.cycles = 2 := by
    rw [hundisturbed, hinstruction]
  have hsp : maskingTooLate.interrupted.sp = 0x01 := by rw [interrupted, hregisters]
  have hserviced : maskingTooLate.Serviced .maskable := serviced_of_accepts hfull haccepts
  have hkept (address : UInt16) (h : ¬ maskingTooLate.interrupted.Saves address) :
      maskingTooLate.step.machine.memory.read address = maskingTooLate.memory.read address := by
    rw [hserviced.elsewhere_eq address h, hmemory]
  have hreturns : maskingTooLate.step.machine.nextOpcode = returnOpcode := by
    have hvector : maskingTooLate.step.machine.cpu.registers.pc = 0x0300 := by
      rw [hserviced.pc_eq, vectorWord, hkept, hkept, hread, hread]
      · decide
      · rw [Registers.Saves, hsp]
        decide
      · rw [Registers.Saves, hsp]
        decide
    rw [nextOpcode, Ram.memory_read, hvector, hkept, hread]
    · decide
    · rw [Registers.Saves, hsp]
      decide
  have hstored : maskingTooLate.cpu.registers.status.Unwired := by decide
  obtain ⟨hcpu, -, htime⟩ := interrupt_is_transparent hfull hstored haccepts hreturns
  refine ⟨hfull, hstored, haccepts, hreturns, ?_, ?_⟩
  · rw [hcpu, hregisters]
  · rw [htime, hcycles]

end VideoComputer.Machine
