/-
VideoComputer.Proofs.Cpu.StatusRegister — what is stored in the status register.

The register is a byte, and two of its bits are no flags. Bit 5 is not wired to anything
and shows as 1 wherever the byte is seen. Bit 4 tells, in a byte on the stack, a program
that pushed its flags from an interrupt that did. The byte has room for both, so that they
are not stored is a fact about everything that writes to it. The operations set and clear
their own flags in place. A pull replaces the whole byte by one from the stack, where any
byte may lie, and drops the two bits. A change of the interrupt mask, late or by a service,
is one more flag that is put.

* `Operation.unwired_path`, `Machine.unwired_step` — one instruction, and the service
  behind it.
* `Machine.unwired_drive` — the invariant of any use of the processor.
* `step_of_pushStatus`, `step_of_pullStatus` — a push of the register and a pull.
* `only_flags_stored` — what is seen of the register, and what a push and a pull restore.
-/
import VideoComputer.Proofs.Cpu.Calls
import VideoComputer.Proofs.Cpu.Footprints
import VideoComputer.Proofs.Cpu.Writes

namespace VideoComputer

/-! ## Nothing but flags -/

/-- The service of an interrupt puts the mask, and leaves the other flags alone. -/
theorem Execution.status_service {M : Type} [Memory M] (e : Execution M) (line : Interrupt) :
    (e.service line).registers.status = e.registers.status.set .interruptDisable := rfl

/-- The data path of an operation stores nothing in the two bits that are no flags: it puts
flags of its own, or it pulls the register. -/
theorem Operation.unwired_path {op : Operation} {mode : AddressingMode}
    (hmode : mode = .accumulator → op ∈ [.asl, .lsr, .rol, .ror]) (decimalMode : Bool)
    {r : Registers} (h : r.status.Unwired) (byte : UInt8) :
    ((op.action decimalMode).path mode r byte).status.Unwired := by
  by_cases hplp : op = .plp
  · subst hplp
    exact Status.unwired_ofByte byte
  · by_cases hrti : op = .rti
    · subst hrti
      exact Status.unwired_ofByte byte
    · exact (puts_path hplp hrti hmode decimalMode r byte).unwired op.brk_not_mem_flags h

namespace Machine

section

variable {M : Type} [Memory M] {m : Machine M} (h : m.cpu.registers.status.Unwired)

include h

/-- An instruction stores nothing there, with its late change of the mask, -/
theorem unwired_settled : (execute m.cpu m.memory).settleMask.registers.status.Unwired := by
  obtain ⟨pc, pc', byte, hpath⟩ := m.begun.registers_perform rfl m.cpu.registers.pc m.nextOpcode
    m.nextInstruction m.nextAction
  have hpc : (m.begun.registers.withPc pc).status.Unwired := h
  rw [execute_eq, hpath]
  exact Operation.unwired_path operation_of_accumulator m.cpu.decimalMode hpc byte

/-- whether or not a request is accepted behind it, -/
theorem unwired_interrupted : m.interrupted.status.Unwired := by
  rw [interrupted, undisturbed_eq]
  exact unwired_settled h

/-- and neither does the service of an interrupt behind it. -/
theorem unwired_step : m.step.machine.cpu.registers.status.Unwired := by
  by_cases haccepts : m.Accepts
  · rw [step_of_accepts haccepts]
    show ((execute m.cpu m.memory).settleMask.service m.firstLine).registers.status.Unwired
    rw [Execution.status_service]
    exact (unwired_settled h).set (by decide)
  · rw [step_of_not_accepts haccepts]
    exact unwired_interrupted h

/-- So no call of a user stores anything there. -/
theorem unwired_call (c : Call) : (m.call c).cpu.registers.status.Unwired := by
  cases c with
  | step => exact unwired_step h
  | interrupt line => exact h
  | reset => exact Status.unwired_powerOn

end

/-- Whatever is done with a processor, and whatever it finds on its stack, its register
stores flags and nothing else. -/
theorem unwired_drive {M : Type} [Memory M] {m : Machine M} (h : m.cpu.registers.status.Unwired)
    (calls : List Call) : (m.drive calls).cpu.registers.status.Unwired := by
  induction calls generalizing m with
  | nil => exact h
  | cons c calls ih => exact ih (unwired_call h c)

end Machine

/-! ## A push and a pull -/

namespace Machine

variable {m : Machine Ram}

/-- A push of the flags, with the break bit set. -/
theorem step_of_pushStatus (haccepts : ¬ m.Accepts) (hop : m.nextInstruction.operation = .php) :
    m.step.machine =
      { cpu :=
          { m.cpu with
            registers :=
              { m.cpu.registers with
                sp := m.cpu.registers.sp - 1
                pc := m.cpu.registers.pc + 1 } }
        memory :=
          m.memory.write (Execution.stackAddress m.cpu.registers.sp)
            (m.cpu.registers.status.toByte true) } := by
  have haction : m.nextAction = .push fun r => r.status.toByte true := by
    rw [nextAction, hop]
    rfl
  rw [step_of_uninterrupted haccepts (by rw [haction]; rfl), execute_eq, haction]
  rfl

/-- The mask that a pull of the flags asks for. -/
theorem newMask_of_pullStatus (hop : m.nextInstruction.operation = .plp) :
    (execute m.cpu m.memory).newMask
      = some ((Status.ofByte (m.memory.read
          (Execution.stackAddress (m.cpu.registers.sp + 1)))).get .interruptDisable) := by
  rw [execute_eq, nextAction, hop]
  rfl

/-- A pull of the flags, with the late change of the mask. -/
theorem step_of_pullStatus (haccepts : ¬ m.Accepts) (hop : m.nextInstruction.operation = .plp) :
    m.step.machine =
      { cpu :=
          { m.cpu with
            registers :=
              { m.cpu.registers with
                sp := m.cpu.registers.sp + 1
                pc := m.cpu.registers.pc + 1
                status := .ofByte
                  (m.memory.read (Execution.stackAddress (m.cpu.registers.sp + 1))) } }
        memory := m.memory } := by
  have haction : m.nextAction = .pullStatus := by
    rw [nextAction, hop]
    rfl
  have hregisters : m.step.machine.cpu.registers
      = { m.begun.registers with
          sp := m.cpu.registers.sp + 1
          status := .ofByte m.begun.pull.1 } := by
    rw [registers_step haccepts, haction]
    exact m.begun.registers_pullStatus
  have hmachine : m.step.machine
      = { cpu := { m.cpu with registers := m.step.machine.cpu.registers }
          memory := m.memory } := by
    rw [step_of_not_accepts haccepts, undisturbed_eq, execute_eq, haction]
    rfl
  rw [hmachine, hregisters]
  rfl

/-- A pull finds the flags that were pushed, if the stack is as the push left it. -/
theorem registers_of_pushed_pulled (hfull : m.memory.IsFull)
    (hstored : m.cpu.registers.status.Unwired) (haccepts : ¬ m.Accepts)
    (hphp : m.nextInstruction.operation = .php) {m' : Machine Ram} (haccepts' : ¬ m'.Accepts)
    (hplp : m'.nextInstruction.operation = .plp)
    (hsp : m'.cpu.registers.sp = m.step.machine.cpu.registers.sp)
    (hkept : m'.memory.read (0x0100 ||| m.cpu.registers.sp.toUInt16)
      = m.step.machine.memory.read (0x0100 ||| m.cpu.registers.sp.toUInt16)) :
    (execute m'.cpu m'.memory).newMask = some (m.cpu.registers.status.get .interruptDisable)
      ∧ m'.step.machine.cpu.registers
        = { m'.cpu.registers with
            sp := m.cpu.registers.sp
            pc := m'.cpu.registers.pc + 1
            status := m.cpu.registers.status } := by
  have hback : m'.cpu.registers.sp + 1 = m.cpu.registers.sp := by
    rw [hsp, step_of_pushStatus haccepts hphp]
    exact UInt8.sub_add_cancel _ 1
  have hpulled : Status.ofByte (m'.memory.read (Execution.stackAddress (m'.cpu.registers.sp + 1)))
      = m.cpu.registers.status := by
    rw [hback, Execution.stackAddress_eq, hkept, step_of_pushStatus haccepts hphp,
      ← Execution.stackAddress_eq, hfull.read_write, if_pos rfl, hstored.ofByte_toByte]
  constructor
  · rw [newMask_of_pullStatus hplp, hpulled]
  · rw [step_of_pullStatus haccepts' hplp, hpulled, hback]

end Machine

/-! ## What is stored -/

/-- However a processor was used since it was built, and whatever is in memory, its register
stores nothing in the two bits that are no flags. So the status byte it shows has bit 5 set
and bit 4 clear, and the byte that it pushes, with either break bit, restores the register
when it is pulled. A program that pushes its flags and pulls them has them all back, if the
stack is by then as the push left it and no interrupt is serviced behind the push and the
pull. The mask comes back late: behind the pull, requests are decided with the mask that
was there before. -/
theorem only_flags_stored :
    (∀ {M : Type} [Memory M] (decimalMode : Bool) (memory : M) (calls : List Machine.Call),
        let built := Machine.powerOn decimalMode memory
        let m := built.drive calls
        let stored := m.cpu.registers.status
        Machine.build decimalMode (some memory) = .ok built
          ∧ stored.Unwired
          ∧ (bitAt m.statusByte 5 = true ∧ bitAt m.statusByte 4 = false)
          ∧ ∀ isBreak, Status.ofByte (stored.toByte isBreak) = stored)
      ∧ ∀ (m : Machine Ram) (between : List Machine.Call),
          let pushed := m.step.machine
          let m' := pushed.drive between
          let pushedTo := 0x0100 ||| m.cpu.registers.sp.toUInt16
          m.memory.IsFull → m.cpu.registers.status.Unwired →
          m.nextInstruction.operation = .php → ¬ m.Accepts →
          m'.nextInstruction.operation = .plp → ¬ m'.Accepts →
          m'.cpu.registers.sp = pushed.cpu.registers.sp →
          m'.memory.read pushedTo = pushed.memory.read pushedTo →
            m'.step.machine.cpu.registers
                = { m'.cpu.registers with
                    sp := m.cpu.registers.sp
                    pc := m'.cpu.registers.pc + 1
                    status := m.cpu.registers.status }
              ∧ (Machine.execute m'.cpu m'.memory).newMask
                = some (m.cpu.registers.status.get .interruptDisable)
              ∧ m'.decidingMask = m'.cpu.registers.status.get .interruptDisable := by
  constructor
  · intro M _ decimalMode memory calls built m stored
    have hbuilt : built.cpu.registers.status.Unwired := Status.unwired_powerOn
    have hstored : stored.Unwired := Machine.unwired_drive hbuilt calls
    exact ⟨rfl, hstored, hstored.bitAt_shown, hstored.ofByte_toByte⟩
  · intro m between pushed m' pushedTo hfull hstored hphp haccepts hplp haccepts' hsp hkept
    obtain ⟨hmask, hregisters⟩ :=
      Machine.registers_of_pushed_pulled hfull hstored haccepts hphp haccepts' hplp hsp hkept
    refine ⟨hregisters, hmask, ?_⟩
    rw [Machine.decidingMask, hplp]
    rfl

/-- A processor about to push its flags and to pull them, with the carry set and interrupts
masked. -/
def pushAndPull : Machine Ram :=
  .inFrontOf
    { a := 0, x := 0, y := 0, sp := 0xFF, pc := 0x0200, status := Status.powerOn.set .carry }
    [0x08, 0x28]

theorem only_flags_stored_pushAndPull :
    pushAndPull.memory.IsFull
      ∧ pushAndPull.step.machine.memory.read 0x01FF = 0x35
      ∧ pushAndPull.step.machine.step.machine.cpu.registers.status = ⟨0x05⟩ := by
  have hfull : pushAndPull.memory.IsFull := Machine.isFull_inFrontOf _ _
  have hphp : pushAndPull.nextInstruction.operation = .php :=
    congrArg Instruction.operation (Machine.nextInstruction_inFrontOf _ (by decide))
  have haccepts : ¬ pushAndPull.Accepts := Machine.not_accepts rfl
  have hpushed := Machine.step_of_pushStatus haccepts hphp
  have hbyte : pushAndPull.step.machine.memory.read 0x01FF = 0x35 := by
    rw [hpushed, hfull.read_write]
    decide
  have hplp : pushAndPull.step.machine.nextInstruction.operation = .plp := by
    have hread : pushAndPull.step.machine.memory.read 0x0201 = 0x28 := by
      rw [hpushed, hfull.read_write, if_neg (by decide)]
      exact Machine.read_inFrontOf _ (by decide) _
    have hpc : pushAndPull.step.machine.cpu.registers.pc = 0x0201 := by
      rw [hpushed]
      rfl
    rw [Machine.nextInstruction, Machine.nextOpcode, Ram.memory_read, hpc, hread]
    rfl
  have hstored : pushAndPull.cpu.registers.status.Unwired := by decide
  obtain ⟨hregisters, -, -⟩ := only_flags_stored.2 pushAndPull [] hfull hstored hphp haccepts hplp
    (Machine.not_accepts (by rw [hpushed]; rfl)) rfl rfl
  rw [Machine.drive, List.foldl_nil] at hregisters
  refine ⟨hfull, hbyte, ?_⟩
  rw [hregisters]
  decide

end VideoComputer
