/-
VideoComputer.Proofs.Cpu.Interrupts — which requests are serviced, when, and
what a service does.

A request waits until an instruction ends behind which it is accepted. The
measure of everything here is the same instruction on the same machine with no
request pending, `Machine.undisturbed`: the service of an interrupt is what is
done to the machine it leaves, and a machine that services nothing is that
machine with its requests.

* `Machine.decidingMask` — the interrupt mask that a request meets. It is the
  one before the instruction for the three that change it late, and the one
  behind it for all others.
* `mask_execute` — the processor decides with that mask.
* `Machine.Serviced`, `PassedOver` — what a service is, and what it is that none
  takes place.
* `serviced_of_accepts`, `step_of_not_accepts` — one instruction.
* `serviced_iff` — which line is serviced behind it.
-/
import VideoComputer.Memory.Ram
import VideoComputer.Proofs.Cpu.Accesses
import VideoComputer.Proofs.Cpu.Sequencing

namespace VideoComputer

/-! ## Requests -/

theorem Interrupt.vector_inj {line line' : Interrupt} (h : line.vector = line'.vector) :
    line = line' := by
  cases line with
  | maskable =>
    cases line' with
    | maskable => rfl
    | nonMaskable => exact absurd h (by decide)
  | nonMaskable =>
    cases line' with
    | maskable => exact absurd h (by decide)
    | nonMaskable => rfl

namespace Requests

/-- Whether a line has a request that was not serviced. -/
def pending (r : Requests) : Interrupt → Bool
  | .maskable => r.maskable
  | .nonMaskable => r.nonMaskable

theorem pending_none (line : Interrupt) : none.pending line = false := by
  cases line <;> rfl

theorem pending_raise (r : Requests) (raised line : Interrupt) :
    (r.raise raised).pending line = (r.pending line || decide (raised = line)) := by
  cases raised <;> cases line <;> simp [raise, pending]

/-- To ask again is to ask once. -/
theorem raise_of_pending {r : Requests} {line : Interrupt} (h : r.pending line = true) :
    r.raise line = r := by
  obtain ⟨maskable, nonMaskable⟩ := r
  cases line <;> cases h <;> rfl

end Requests

/-! ## The interrupt mask -/

/-- Whether the operation changes the interrupt mask behind the decision about
requests and not before it. -/
def Operation.masksLate : Operation → Bool
  | .cli | .sei | .plp => true
  | _ => false

/-- Whether the action changes it so. -/
def Action.masksLate : Action → Bool
  | .mask _ | .pullStatus => true
  | _ => false

theorem Operation.masksLate_action (decimalMode : Bool) {op : Operation}
    (h : op.masksLate = false) : (op.action decimalMode).masksLate = false := by
  cases op with
  | cli | sei | plp => cases h
  | _ => rfl

/-- The machine of an outcome with other requests. -/
def Outcome.withRequests {M : Type} (o : Outcome M) (requests : Requests) : Outcome M :=
  { o with machine := { o.machine with cpu := { o.machine.cpu with requests } } }

namespace Machine

section

variable {M : Type} [Memory M]

/-- What the next instruction does while no request is pending. -/
def undisturbed (m : Machine M) : Outcome M :=
  step { m with cpu := { m.cpu with requests := .none } }

/-- The registers as an interrupt behind the next instruction finds them. -/
def interrupted (m : Machine M) : Registers := m.undisturbed.machine.cpu.registers

/-- The interrupt mask that decides about a request behind the next
instruction. -/
def decidingMask (m : Machine M) : Bool :=
  if m.nextInstruction.operation.masksLate then m.cpu.registers.status.get .interruptDisable
  else m.interrupted.status.get .interruptDisable

/-- Whether there is a request to service behind the next instruction. -/
def Accepts (m : Machine M) : Prop :=
  m.cpu.requests.nonMaskable = true
    ∨ m.cpu.requests.maskable = true ∧ m.decidingMask = false

/-- Without requests there is nothing to service. -/
theorem not_accepts {m : Machine M} (h : m.cpu.requests = .none) : ¬ m.Accepts := by
  rw [Accepts, h]
  rintro (hnon | ⟨hmaskable, -⟩)
  · cases hnon
  · cases hmaskable

/-- The line that comes first if several have requests. -/
def firstLine (m : Machine M) : Interrupt :=
  if m.cpu.requests.nonMaskable then .nonMaskable else .maskable

end

end Machine

/-! ## The decision -/

section

variable {M : Type} [Memory M]

namespace Execution

theorem newMask_resolve (e : Execution M) (mode : AddressingMode) :
    (e.resolve mode).execution.newMask = e.newMask := by
  cases mode <;> rfl

theorem newMask_readOperand (e : Execution M) (mode : AddressingMode) :
    (e.readOperand mode).2.newMask = e.newMask := by
  simp only [readOperand, read]
  split
  · exact e.newMask_resolve mode
  · exact e.newMask_resolve mode

theorem newMask_modifyOperand (e : Execution M) (mode : AddressingMode)
    (f : Status → UInt8 → UInt8 × Status) : (e.modifyOperand mode f).2.newMask = e.newMask := by
  unfold modifyOperand
  split
  · rfl
  · exact e.newMask_resolve mode

theorem newMask_branch (e : Execution M) (taken : Bool) :
    (e.branch taken).newMask = e.newMask := by
  cases taken <;> rfl

/-- Only the operations that change the mask late leave a change behind. -/
theorem newMask_perform (e : Execution M) (address : UInt16) (opcode : UInt8) (i : Instruction)
    {action : Action} (h : action.masksLate = false) :
    (e.perform address opcode i action).newMask = e.newMask := by
  cases action with
  | mask _ | pullStatus => cases h
  | load f => exact e.newMask_readOperand i.mode
  | store f => exact e.newMask_resolve i.mode
  | modify f g => exact e.newMask_modifyOperand i.mode f
  | branch taken => exact e.newMask_branch _
  | jump => exact e.newMask_resolve i.mode
  | idle =>
    unfold perform
    simp only
    split
    · exact e.newMask_readOperand i.mode
    · rfl
  | _ => rfl

omit [Memory M] in
theorem settleMask_of_none {e : Execution M} (h : e.newMask = none) : e.settleMask = e := by
  unfold settleMask
  rw [h]

end Execution

namespace Machine

theorem undisturbed_eq (m : Machine M) :
    m.undisturbed = (execute m.cpu m.memory).settleMask.outcome { m.cpu with requests := .none } :=
  step_of_declined rfl

theorem cpu_undisturbed (m : Machine M) :
    m.undisturbed.machine.cpu = { m.cpu with registers := m.interrupted, requests := .none } := by
  rw [interrupted, undisturbed_eq]
  rfl

/-- The mask with which the processor decides is the one said to decide. -/
theorem mask_execute (m : Machine M) :
    (execute m.cpu m.memory).registers.status.get .interruptDisable = m.decidingMask := by
  rw [decidingMask]
  cases hlate : m.nextInstruction.operation.masksLate with
  | true =>
    rw [execute_eq, nextAction, if_pos rfl]
    cases hop : m.nextInstruction.operation with
    | cli | sei => rfl
    | plp =>
      show (Status.put _ .interruptDisable _).get .interruptDisable = _
      rw [Status.get_put, if_pos rfl]
      rfl
    | _ =>
      rw [hop] at hlate
      cases hlate
  | false =>
    -- no change is left to take effect, so the mask is the one behind the instruction
    have hkeeps : (execute m.cpu m.memory).newMask = none :=
      Execution.newMask_perform m.begun _ _ _ (Operation.masksLate_action _ hlate)
    rw [if_neg Bool.false_ne_true, interrupted, undisturbed_eq,
      Execution.settleMask_of_none hkeeps]
    rfl

/-- An instruction behind which nothing is accepted leaves the requests as they
are. -/
theorem step_of_not_accepts {m : Machine M} (h : ¬ m.Accepts) :
    m.step = m.undisturbed.withRequests m.cpu.requests := by
  have hdeclined : m.cpu.requests.accepted? m.decidingMask = none := by
    obtain ⟨hnon, hmaskable⟩ := not_or.mp h
    rw [not_and, Bool.not_eq_false] at hmaskable
    rw [Requests.accepted?, if_neg hnon, if_neg]
    intro hboth
    obtain ⟨hpending, hopen⟩ := Bool.and_eq_true_iff.mp hboth
    rw [hmaskable hpending] at hopen
    cases hopen
  rw [undisturbed_eq, step_of_declined (by rw [mask_execute]; exact hdeclined)]
  rfl

/-- Without a late change of the mask, such an instruction ends with what its action leaves. -/
theorem step_of_uninterrupted {m : Machine M} (h : ¬ m.Accepts)
    (hmask : m.nextAction.masksLate = false) :
    m.step = (execute m.cpu m.memory).outcome m.cpu := by
  have hnewMask : (execute m.cpu m.memory).newMask = none :=
    Execution.newMask_perform m.begun _ _ _ hmask
  rw [step_of_not_accepts h, undisturbed_eq, Execution.settleMask_of_none hnewMask]
  rfl

theorem step_of_accepts {m : Machine M} (h : m.Accepts) :
    m.step = ((execute m.cpu m.memory).settleMask.service m.firstLine).outcome
      { m.cpu with requests := .none } := by
  have haccepted : m.cpu.requests.accepted? m.decidingMask = some m.firstLine := by
    rcases h with hnon | ⟨hmaskable, hopen⟩
    · rw [Requests.accepted?, firstLine, if_pos hnon, if_pos hnon]
    · rw [Requests.accepted?, firstLine, hmaskable, hopen]
      cases m.cpu.requests.nonMaskable with
      | true => rfl
      | false => rfl
  exact step_of_accepted (by rw [mask_execute]; exact haccepted)

end Machine

end

/-! ## The stack -/

theorem Execution.stackAddress_inj {a b : UInt8} :
    Execution.stackAddress a = Execution.stackAddress b ↔ a = b := by
  constructor
  · intro h
    rw [← lowByte_word a 1, ← lowByte_word b 1]
    exact congrArg lowByte h
  · exact congrArg _

namespace Registers

/-- Memory with a program counter and flags on the stack, as a service leaves
them there. -/
def saveTo (r : Registers) (memory : Ram) : Ram :=
  ((memory.write (Execution.stackAddress r.sp) (highByte r.pc)).write
      (Execution.stackAddress (r.sp - 1)) (lowByte r.pc)).write
    (Execution.stackAddress (r.sp - 2)) (r.status.toByte false)

/-- Whether an address is one of the three at and below the stack pointer. -/
def Saves (r : Registers) (address : UInt16) : Prop :=
  address = Execution.stackAddress r.sp ∨ address = Execution.stackAddress (r.sp - 1)
    ∨ address = Execution.stackAddress (r.sp - 2)

section

variable {memory : Ram} (h : memory.IsFull) (r : Registers)

include h

theorem read_saveTo (address : UInt16) :
    (r.saveTo memory).read address
      = if Execution.stackAddress (r.sp - 2) = address then r.status.toByte false
        else if Execution.stackAddress (r.sp - 1) = address then lowByte r.pc
        else if Execution.stackAddress r.sp = address then highByte r.pc
        else memory.read address := by
  rw [saveTo, ((h.write _ _).write _ _).read_write, (h.write _ _).read_write, h.read_write]

theorem read_saveTo_high :
    (r.saveTo memory).read (Execution.stackAddress r.sp) = highByte r.pc := by
  have hstatus : r.sp - 2 ≠ r.sp := by grind
  have hlow : r.sp - 1 ≠ r.sp := by grind
  simp [read_saveTo h, Execution.stackAddress_inj, hstatus, hlow]

theorem read_saveTo_low :
    (r.saveTo memory).read (Execution.stackAddress (r.sp - 1)) = lowByte r.pc := by
  have hstatus : r.sp - 2 ≠ r.sp - 1 := by grind
  simp [read_saveTo h, Execution.stackAddress_inj, hstatus]

theorem read_saveTo_status :
    (r.saveTo memory).read (Execution.stackAddress (r.sp - 2)) = r.status.toByte false := by
  rw [read_saveTo h, if_pos rfl]

theorem read_saveTo_of_not_saves {address : UInt16} (ha : ¬ r.Saves address) :
    (r.saveTo memory).read address = memory.read address := by
  obtain ⟨hhigh, hlow, hstatus⟩ : address ≠ Execution.stackAddress r.sp
      ∧ address ≠ Execution.stackAddress (r.sp - 1)
      ∧ address ≠ Execution.stackAddress (r.sp - 2) := by
    simpa only [Saves, not_or] using ha
  rw [read_saveTo h, if_neg hstatus.symm, if_neg hlow.symm, if_neg hhigh.symm]

end

end Registers

/-! ## A service -/

namespace Machine

/-- Where execution goes on when the interrupt has been serviced. -/
def vectorWord (memory : Ram) (line : Interrupt) : UInt16 :=
  word (memory.read line.vector) (memory.read (line.vector + 1))

/-- The machine at the entry of an interrupt handler, with what it found saved
on the stack. -/
def enter (m : Machine Ram) (line : Interrupt) : Machine Ram :=
  let r := m.cpu.registers
  let memory := r.saveTo m.memory
  { cpu :=
      { m.cpu with
        registers :=
          { r with
            sp := r.sp - 3
            pc := vectorWord memory line
            status := r.status.set .interruptDisable }
        requests := .none }
    memory }

end Machine

theorem Execution.service_outcome (e : Execution Ram) (line : Interrupt) (cpu : Cpu) :
    (e.service line).outcome { cpu with requests := .none }
      = { machine := (e.outcome cpu).machine.enter line
          cycles := e.cycles + 7
          notices := e.notices.push (.servicing line.vector) } := by
  have hsecond : e.registers.sp - 1 - 1 = e.registers.sp - 2 := by grind
  have hthird : e.registers.sp - 2 - 1 = e.registers.sp - 3 := by grind
  simp only [service, trap, pushWord, push, write, readVector, readWord, read, goto, spend,
    outcome, Machine.enter, Registers.saveTo, Machine.vectorWord, Memory.writeNotice?,
    Memory.read, Memory.write, Memory.afterRead, interruptCycles, hsecond, hthird]

namespace Machine

/-- What it is that a line is serviced behind the next instruction: measured
against the undisturbed instruction it takes seven cycles, leaves the address
and the flags to return to on the stack, masks further interrupts, goes on where
the vector of the line points, and answers all requests. The flags saved are
those that a late change of the mask has reached; their byte has bit 4 clear and
bit 5 set. -/
structure Serviced (m : Machine Ram) (line : Interrupt) : Prop where
  cycles_eq : m.step.cycles = m.undisturbed.cycles + 7
  notices_eq : m.step.notices = m.undisturbed.notices.push (.servicing line.vector)
  cpu_eq : m.step.machine.cpu =
    { m.cpu with
      registers :=
        { m.interrupted with
          sp := m.interrupted.sp - 3
          pc := vectorWord m.step.machine.memory line
          status := m.interrupted.status.set .interruptDisable }
      requests := .none }
  high_eq : m.step.machine.memory.read (Execution.stackAddress m.interrupted.sp)
    = highByte m.interrupted.pc
  low_eq : m.step.machine.memory.read (Execution.stackAddress (m.interrupted.sp - 1))
    = lowByte m.interrupted.pc
  flags_eq : ∀ f : Flag, f ≠ .brk →
    bitAt (m.step.machine.memory.read (Execution.stackAddress (m.interrupted.sp - 2))) f.bit
      = m.interrupted.status.get f
  break_eq : bitAt (m.step.machine.memory.read
    (Execution.stackAddress (m.interrupted.sp - 2))) 4 = false
  unused_eq : bitAt (m.step.machine.memory.read
    (Execution.stackAddress (m.interrupted.sp - 2))) 5 = true
  elsewhere_eq : ∀ address, ¬ m.interrupted.Saves address →
    m.step.machine.memory.read address = m.undisturbed.machine.memory.read address

/-- What it is that nothing is serviced: nothing happens but the instruction,
and the requests stay. -/
def PassedOver (m : Machine Ram) : Prop := m.step = m.undisturbed.withRequests m.cpu.requests

/-- The memory keeps its size. -/
theorem isFull_step {m : Machine Ram} (h : m.memory.IsFull) : m.step.machine.memory.IsFull :=
  m.accessed_step.keeps (fun _ _ hm => hm) (fun _ _ _ hm => hm.write _ _) h

theorem isFull_undisturbed {m : Machine Ram} (h : m.memory.IsFull) :
    m.undisturbed.machine.memory.IsFull :=
  isFull_step (m := { m with cpu := { m.cpu with requests := .none } }) h

/-- A request that is accepted is serviced, on the line that comes first. -/
theorem serviced_of_accepts {m : Machine Ram} (hfull : m.memory.IsFull) (h : m.Accepts) :
    m.Serviced m.firstLine := by
  have hstep : m.step =
      { machine := m.undisturbed.machine.enter m.firstLine
        cycles := m.undisturbed.cycles + 7
        notices := m.undisturbed.notices.push (.servicing m.firstLine.vector) } := by
    rw [step_of_accepts h, Execution.service_outcome, undisturbed_eq]
    rfl
  have hmemory : m.step.machine.memory = m.interrupted.saveTo m.undisturbed.machine.memory := by
    rw [hstep]
    rfl
  have hundisturbed := isFull_undisturbed hfull
  have hstatus := Registers.read_saveTo_status hundisturbed m.interrupted
  constructor
  case cycles_eq => rw [hstep]
  case notices_eq => rw [hstep]
  case cpu_eq =>
    rw [hmemory, hstep]
    simp only [enter, cpu_undisturbed]
  case high_eq => rw [hmemory, Registers.read_saveTo_high hundisturbed]
  case low_eq => rw [hmemory, Registers.read_saveTo_low hundisturbed]
  case flags_eq =>
    intro f hf
    rw [hmemory, hstatus, Status.bitAt_toByte_flag _ _ hf]
  case break_eq => rw [hmemory, hstatus, Status.bitAt_toByte_break]
  case unused_eq => rw [hmemory, hstatus, Status.bitAt_toByte_unused]
  case elsewhere_eq =>
    intro address haddress
    rw [hmemory, Registers.read_saveTo_of_not_saves hundisturbed _ haddress]

/-- A service takes time, so that it cannot be overlooked. -/
theorem not_serviced_of_passedOver {m : Machine Ram} (h : m.PassedOver) (line : Interrupt) :
    ¬ m.Serviced line := by
  intro hserviced
  have hcycles := hserviced.cycles_eq
  rw [h] at hcycles
  simp only [Outcome.withRequests] at hcycles
  omega

theorem Serviced.pc_eq {m : Machine Ram} {line : Interrupt} (h : m.Serviced line) :
    m.step.machine.cpu.registers.pc = vectorWord m.step.machine.memory line := by
  rw [h.cpu_eq]

/-- A service is of one line. -/
theorem Serviced.line_unique {m : Machine Ram} {line line' : Interrupt} (h : m.Serviced line)
    (h' : m.Serviced line') : line = line' := by
  have hnotices := h.notices_eq.symm.trans h'.notices_eq
  have hnotice := (Array.push_eq_push.mp hnotices).1
  exact Interrupt.vector_inj (Notice.servicing.inj hnotice)

theorem serviced_iff {m : Machine Ram} (hfull : m.memory.IsFull) (line : Interrupt) :
    m.Serviced line ↔ m.Accepts ∧ line = m.firstLine := by
  constructor
  · intro h
    by_cases haccepts : m.Accepts
    · exact ⟨haccepts, h.line_unique (serviced_of_accepts hfull haccepts)⟩
    · exact absurd h (not_serviced_of_passedOver (step_of_not_accepts haccepts) line)
  · rintro ⟨haccepts, rfl⟩
    exact serviced_of_accepts hfull haccepts

theorem serviced_nonMaskable_iff {m : Machine Ram} (hfull : m.memory.IsFull) :
    m.Serviced .nonMaskable ↔ m.cpu.requests.pending .nonMaskable = true := by
  rw [serviced_iff hfull, Accepts, firstLine, Requests.pending]
  cases m.cpu.requests.nonMaskable <;> simp

theorem serviced_maskable_iff {m : Machine Ram} (hfull : m.memory.IsFull) :
    m.Serviced .maskable ↔ ¬ m.cpu.requests.pending .nonMaskable = true
      ∧ m.cpu.requests.pending .maskable = true ∧ m.decidingMask = false := by
  rw [serviced_iff hfull, Accepts, firstLine, Requests.pending, Requests.pending]
  cases m.cpu.requests.nonMaskable <;> simp

end Machine

end VideoComputer
