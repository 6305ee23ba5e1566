/-
VideoComputer.Proofs.Cpu.Watched — a processor whose memory accesses are recorded.

Memory that records its accesses behaves as the memory inside it, so a processor does
not notice the record: whatever it executes, it leaves the same registers and, inside,
the same memory. What the record adds is the writes themselves, in their order, and
also those that do not change the byte.

* `Traffic.writes` — the writes of a record.
* `Machine.watched`, `step_watched` — the same processor with an empty record, and the
  same instruction.
* `Action.writes`, `writes_perform` — what an action writes, and the record behind it.
* `writes_step_watched` — the record of an instruction behind which no request is
  accepted.
-/
import VideoComputer.Memory.Traffic
import VideoComputer.Proofs.Cpu.Interrupts

namespace VideoComputer

/-! ## The writes of a record -/

/-- The address and the byte of an access that is a write. -/
def Access.written? : Access → Option (UInt16 × UInt8)
  | .read _ _ => none
  | .write address data => some (address, data)

namespace Traffic

variable {M : Type}

/-- The writes that were recorded, oldest first. -/
def writes (t : Traffic M) : List (UInt16 × UInt8) := t.accesses.toList.filterMap Access.written?

@[simp] theorem writes_watch (memory : M) : (watch memory).writes = [] := rfl

variable [Memory M]

@[simp] theorem writes_afterRead (t : Traffic M) (address : UInt16) :
    (Memory.afterRead t address).writes = t.writes := by
  simp [writes, Memory.afterRead, Access.written?]

@[simp] theorem writes_write (t : Traffic M) (address : UInt16) (data : UInt8) :
    (Memory.write t address data).writes = t.writes ++ [(address, data)] := by
  simp [writes, Memory.write, Access.written?]

end Traffic

variable {M : Type} [Memory M]

/-! ## The processor does not notice -/

namespace Execution

/-- The same instruction in flight, on the memory inside the record. -/
def unwatched (e : Execution (Traffic M)) : Execution M where
  registers := e.registers
  memory := e.memory.memory
  cycles := e.cycles
  newMask := e.newMask
  notices := e.notices

/-- The same operand address, in front of the memory inside the record. -/
def Resolved.unwatched (target : Resolved (Traffic M)) : Resolved M where
  address := target.address
  crossed := target.crossed
  execution := target.execution.unwatched

variable (e : Execution (Traffic M))

theorem unwatched_resolve (mode : AddressingMode) :
    (e.resolve mode).unwatched = e.unwatched.resolve mode := by
  cases mode <;> rfl

theorem unwatched_readOperand (mode : AddressingMode) :
    ((e.readOperand mode).1, (e.readOperand mode).2.unwatched)
      = e.unwatched.readOperand mode := by
  rw [readOperand, readOperand, ← unwatched_resolve]
  show _ = (if (e.resolve mode).crossed then _ else _ : Execution M).read _
  split <;> rfl

theorem unwatched_modifyOperand (mode : AddressingMode) (f : Status → UInt8 → UInt8 × Status) :
    ((e.modifyOperand mode f).1, (e.modifyOperand mode f).2.unwatched)
      = e.unwatched.modifyOperand mode f := by
  unfold modifyOperand
  rw [← unwatched_resolve]
  split <;> rfl

theorem unwatched_branch (taken : Bool) :
    (e.branch taken).unwatched = e.unwatched.branch taken := by
  cases taken <;> rfl

/-- Whatever is done on recorded memory is done on the memory inside. -/
theorem unwatched_perform (address : UInt16) (opcode : UInt8) (i : Instruction) (action : Action) :
    (e.perform address opcode i action).unwatched
      = e.unwatched.perform address opcode i action := by
  cases action with
  | load f =>
    simp only [perform, ← unwatched_readOperand]
    rfl
  | store f =>
    simp only [perform, storeOperand, ← unwatched_resolve]
    rfl
  | modify f g =>
    simp only [perform, ← unwatched_modifyOperand]
    rfl
  | branch taken => exact e.unwatched_branch _
  | jump =>
    simp only [perform, ← unwatched_resolve]
    rfl
  | idle =>
    simp only [perform, ← unwatched_readOperand]
    split <;> rfl
  | _ => rfl

omit [Memory M] in
theorem unwatched_settleMask : e.settleMask.unwatched = e.unwatched.settleMask := by
  obtain ⟨registers, memory, cycles, newMask, notices⟩ := e
  cases newMask <;> rfl

theorem unwatched_poll (requests : Requests) :
    ((e.poll requests).1.unwatched, (e.poll requests).2) = e.unwatched.poll requests := by
  have hmask : e.unwatched.registers = e.registers := rfl
  unfold poll
  rw [hmask, ← unwatched_settleMask]
  cases requests.accepted? (e.registers.status.get .interruptDisable) with
  | none => rfl
  | some line => rfl

end Execution

namespace Machine

/-- The same machine, with a record of what it does to its memory from now on. -/
def watched (m : Machine M) : Machine (Traffic M) where
  cpu := m.cpu
  memory := .watch m.memory

/-- The same machine without the record. -/
def unwatched (m : Machine (Traffic M)) : Machine M where
  cpu := m.cpu
  memory := m.memory.memory

end Machine

/-- The same outcome without the record. -/
def Outcome.unwatched (o : Outcome (Traffic M)) : Outcome M where
  machine := o.machine.unwatched
  cycles := o.cycles
  notices := o.notices

namespace Machine

/-- An instruction does not notice that it is watched. -/
theorem unwatched_execute (m : Machine M) :
    (execute m.watched.cpu m.watched.memory).unwatched = execute m.cpu m.memory := by
  rw [execute_eq, execute_eq, Execution.unwatched_perform]
  rfl

/-- An instruction of a watched processor is the instruction. -/
theorem step_watched (m : Machine M) : m.watched.step.unwatched = m.step := by
  have hexecute := m.unwatched_execute
  obtain ⟨cpu, memory⟩ := m
  simp only [watched] at hexecute ⊢
  simp only [step, ← hexecute, ← Execution.unwatched_poll]
  rfl

theorem undisturbed_watched (m : Machine M) : m.watched.undisturbed.unwatched = m.undisturbed :=
  step_watched { m with cpu := { m.cpu with requests := .none } }

theorem accepts_watched (m : Machine M) : m.watched.Accepts ↔ m.Accepts := by
  have hregisters : m.watched.interrupted = m.interrupted :=
    congrArg (fun outcome => outcome.machine.cpu.registers) m.undisturbed_watched
  have hmask : m.watched.decidingMask = m.decidingMask := by
    rw [decidingMask, decidingMask, hregisters]
    rfl
  rw [Accepts, Accepts, hmask]
  rfl

end Machine

/-! ## What is written -/

/-- What an action writes, in its order: stores and changes write to the operand, and what
is pushed goes to the stack. -/
def Action.writes (e : Execution M) (mode : AddressingMode) : Action → List (UInt16 × UInt8)
  | .store f => [((e.resolve mode).address, f e.registers)]
  | .modify f _ =>
    if mode = .accumulator then []
    else
      let target := e.resolve mode
      let operand := Memory.read target.execution.memory target.address
      [(target.address, (f target.execution.registers.status operand).1)]
  | .push f => [(Execution.stackAddress e.registers.sp, f e.registers)]
  | .call =>
    let last := e.fetchWord.2.registers.pc - 1
    [(Execution.stackAddress e.registers.sp, highByte last),
      (Execution.stackAddress (e.registers.sp - 1), lowByte last)]
  | .softwareInterrupt =>
    let behind := (e.skip 1).registers.pc
    [(Execution.stackAddress e.registers.sp, highByte behind),
      (Execution.stackAddress (e.registers.sp - 1), lowByte behind),
      (Execution.stackAddress (e.registers.sp - 1 - 1), e.registers.status.toByte true)]
  | _ => []

namespace Execution

variable (e : Execution (Traffic M))

/-! Each function of the processor, and the writes that it adds to the record. -/

@[simp] theorem writes_read (address : UInt16) :
    (e.read address).2.memory.writes = e.memory.writes := Traffic.writes_afterRead _ _

@[simp] theorem writes_write (address : UInt16) (data : UInt8) :
    (e.write address data).memory.writes = e.memory.writes ++ [(address, data)] :=
  Traffic.writes_write _ _ _

@[simp] theorem writes_fetch : e.fetch.2.memory.writes = e.memory.writes := e.writes_read _

@[simp] theorem writes_fetchWord : e.fetchWord.2.memory.writes = e.memory.writes :=
  (e.fetch.2.writes_fetch).trans e.writes_fetch

@[simp] theorem writes_readWord (low high : UInt16) :
    (e.readWord low high).2.memory.writes = e.memory.writes :=
  ((e.read low).2.writes_read high).trans (e.writes_read low)

@[simp] theorem writes_push (data : UInt8) :
    (e.push data).memory.writes = e.memory.writes ++ [(stackAddress e.registers.sp, data)] :=
  e.writes_write _ _

@[simp] theorem writes_pull : e.pull.2.memory.writes = e.memory.writes :=
  Traffic.writes_afterRead _ _

@[simp] theorem writes_pullWord : e.pullWord.2.memory.writes = e.memory.writes :=
  (e.pull.2.writes_pull).trans e.writes_pull

@[simp] theorem writes_resolve (mode : AddressingMode) :
    (e.resolve mode).execution.memory.writes = e.memory.writes := by
  cases mode with
  | implied | accumulator | relative | immediate => rfl
  | zeroPage | zeroPageX | zeroPageY => exact e.writes_fetch
  | absolute | absoluteX | absoluteY => exact e.writes_fetchWord
  | indirectX | indirectY => exact (e.fetch.2.writes_readWord _ _).trans e.writes_fetch
  | indirect => exact (e.fetchWord.2.writes_readWord _ _).trans e.writes_fetchWord

@[simp] theorem writes_readOperand (mode : AddressingMode) :
    (e.readOperand mode).2.memory.writes = e.memory.writes := by
  simp only [readOperand, writes_read]
  split
  · exact e.writes_resolve mode
  · exact e.writes_resolve mode

/-- An action adds to the record what it writes. -/
theorem writes_perform (address : UInt16) (opcode : UInt8) (i : Instruction) (action : Action) :
    (e.perform address opcode i action).memory.writes
      = e.memory.writes ++ action.writes e.unwatched i.mode := by
  have hnothing {e' : Execution (Traffic M)} (h : e'.memory.writes = e.memory.writes) :
      e'.memory.writes = e.memory.writes ++ [] := by rw [h, List.append_nil]
  cases action with
  | load f => exact hnothing (e.writes_readOperand i.mode)
  | store f =>
    simp only [perform, storeOperand, Action.writes, writes_write, writes_resolve,
      ← unwatched_resolve]
    rfl
  | modify f g =>
    simp only [perform, modifyOperand, Action.writes]
    split
    · rw [List.append_nil]
    · simp only [← unwatched_resolve, writes_write, writes_read, writes_resolve]
      rfl
  | push f => exact e.writes_push _
  | call =>
    simp only [perform, goto, pushWord, writes_push, writes_fetchWord, List.append_assoc]
    rfl
  | softwareInterrupt =>
    simp only [perform, trap, goto, readVector, writes_readWord, pushWord, writes_push,
      List.append_assoc]
    rfl
  | branch taken =>
    refine hnothing ?_
    show (e.branch _).memory.writes = _
    unfold branch
    simp only
    split
    · exact e.writes_fetch
    · exact e.writes_fetch
  | jump => exact hnothing (e.writes_resolve i.mode)
  | pull f => exact hnothing e.writes_pull
  | pullStatus => exact hnothing e.writes_pull
  | returnFromCall => exact hnothing e.writes_pullWord
  | returnFromInterrupt => exact hnothing ((e.pull.2.writes_pullWord).trans e.writes_pull)
  | idle =>
    refine hnothing ?_
    simp only [perform]
    split
    · exact e.writes_readOperand i.mode
    · rfl
  | internal f => exact hnothing rfl
  | mask disable => exact hnothing rfl
  | lockUp => exact hnothing rfl
  | skipStore => exact hnothing rfl

end Execution

namespace Machine

/-- An instruction that is not interrupted writes what its action writes. -/
theorem writes_step_watched {m : Machine M} (h : ¬ m.Accepts) :
    m.watched.step.machine.memory.writes = m.nextAction.writes m.begun m.nextInstruction.mode := by
  have hstep : m.watched.step.machine.memory
      = (execute m.watched.cpu m.watched.memory).settleMask.memory := by
    rw [step_of_not_accepts (mt m.accepts_watched.mp h), undisturbed_eq]
    rfl
  have hsettle (e : Execution (Traffic M)) : e.settleMask.memory = e.memory := by
    unfold Execution.settleMask
    split <;> rfl
  have hbegun : m.watched.begun.memory.writes = [] := by
    show (Memory.afterRead (Traffic.watch m.memory) _).writes = []
    rw [Traffic.writes_afterRead, Traffic.writes_watch]
  rw [hstep, hsettle, execute_eq, Execution.writes_perform, hbegun, List.nil_append]
  rfl

end Machine

end VideoComputer
