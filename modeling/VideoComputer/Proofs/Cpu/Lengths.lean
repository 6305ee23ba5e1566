/-
VideoComputer.Proofs.Cpu.Lengths — how long an instruction is and how long it
takes, told from the bytes in memory.

The program lies in plain memory, whose bytes can be looked at without
executing anything: `Machine.operandByte`, `operandWord` and `pointedWord` are
what an instruction will find behind its opcode, at addresses that wrap with
the program counter. From them and the registers follows where it leaves the
program counter, and what it takes beyond the time in the table.

* `Machine.branchTarget` — where a branch leads.
* `Machine.penalty` — the cycles beyond the table.
* `step_length_and_time` — both, for every instruction that is not interrupted.
-/
import VideoComputer.Memory.Ram
import VideoComputer.Proofs.Cpu.Sequencing

namespace VideoComputer

/-! ## Displacements -/

/-- A displacement is a signed byte. -/
theorem signExtend_eq (b : UInt8) : signExtend b = UInt16.ofInt b.toInt8.toInt := by
  have all_bytes : ∀ n : Fin 256, signExtend ⟨⟨n⟩⟩ = UInt16.ofInt (UInt8.toInt8 ⟨⟨n⟩⟩).toInt := by
    decide +kernel
  exact all_bytes b.toFin

theorem ofInt_toNat (w : UInt16) : UInt16.ofInt w.toNat = w := by
  have hlt := w.toNat_lt
  have hmod : ((w.toNat : Int) % 2 ^ 16).toNat = w.toNat := by omega
  rw [UInt16.ofInt, hmod, UInt16.ofNat_toNat]

namespace Machine

/-! ## The bytes of an instruction -/

/-- The byte behind the opcode. -/
def operandByte (m : Machine Ram) : UInt8 := m.memory.read (m.cpu.registers.pc + 1)

/-- The word behind the opcode. -/
def operandWord (m : Machine Ram) : UInt16 :=
  word m.operandByte (m.memory.read (m.cpu.registers.pc + 2))

/-- The word in page 0 to which the byte behind the opcode points. -/
def pointedWord (m : Machine Ram) : UInt16 :=
  word (m.memory.read m.operandByte.toUInt16) (m.memory.read (m.operandByte + 1).toUInt16)

/-- The base address and the index, in the modes whose index may lead out of the
page of the base address. -/
def indexing? (m : Machine Ram) : AddressingMode → Option (UInt16 × UInt8)
  | .absoluteX => some (m.operandWord, m.cpu.registers.x)
  | .absoluteY => some (m.operandWord, m.cpu.registers.y)
  | .indirectY => some (m.pointedWord, m.cpu.registers.y)
  | _ => none

/-- Whether indexing leads out of the page of the base address. -/
def leavesPage (m : Machine Ram) : Bool :=
  match m.indexing? m.nextInstruction.mode with
  | some (base, index) => pageCrossed base (base + index.toUInt16)
  | none => false

/-- Where a branch leads: its displacement counts from the instruction behind
it. -/
def branchTarget (m : Machine Ram) : UInt16 :=
  UInt16.ofInt (m.cpu.registers.pc.toNat + 2 + m.operandByte.toInt8.toInt)

/-- Whether the instruction is a branch that is taken. -/
def branches (m : Machine Ram) : Bool :=
  match m.nextInstruction.operation.branchTest? with
  | some (flag, value) => m.cpu.registers.status.get flag == value
  | none => false

/-- What the instruction takes beyond the time in the table: a cycle if it reads
outside the page of its base address, a cycle if it is a branch that is taken,
and one more if that leads out of the page of the instruction behind it. -/
def penalty (m : Machine Ram) : Nat :=
  (m.nextInstruction.operation.isReading && m.leavesPage).toNat
    + m.branches.toNat
    + (m.branches && pageCrossed (m.cpu.registers.pc + 2) m.branchTarget).toNat

/-! ## What the processor finds there -/

theorem fetchWord_begun (m : Machine Ram) : m.begun.fetchWord.1 = m.operandWord := by
  have hsecond : m.cpu.registers.pc + 1 + UInt16.ofNat 1 = m.cpu.registers.pc + 2 :=
    UInt16.add_assoc _ 1 1
  show word m.operandByte (m.memory.read (m.cpu.registers.pc + 1 + UInt16.ofNat 1)) = _
  rw [hsecond]
  rfl

theorem crossed_resolve_begun (m : Machine Ram) :
    (m.begun.resolve m.nextInstruction.mode).crossed = m.leavesPage := by
  rw [leavesPage]
  cases m.nextInstruction.mode with
  | absoluteX | absoluteY =>
    show pageCrossed m.begun.fetchWord.1 (m.begun.fetchWord.1 + _) = _
    rw [fetchWord_begun]
    rfl
  | _ => rfl

theorem branchTarget_eq (m : Machine Ram) :
    m.branchTarget = m.cpu.registers.pc + 2 + signExtend m.operandByte := by
  have htwo : UInt16.ofInt 2 = 2 := rfl
  rw [branchTarget, signExtend_eq, UInt16.ofInt_add, UInt16.ofInt_add, ofInt_toNat, htwo]

theorem branch_begun (m : Machine Ram) (taken : Bool) :
    (m.begun.branch taken).registers.pc
        = (if taken then m.branchTarget else m.cpu.registers.pc + 2)
      ∧ (m.begun.branch taken).cycles = m.nextInstruction.cycles + taken.toNat
          + (taken && pageCrossed (m.cpu.registers.pc + 2) m.branchTarget).toNat := by
  have hbehind : m.begun.fetch.2.registers.pc = m.cpu.registers.pc + 2 := UInt16.add_assoc _ 1 1
  cases taken with
  | false => exact ⟨hbehind, rfl⟩
  | true =>
    have htarget : m.begun.fetch.2.registers.pc + signExtend m.begun.fetch.1 = m.branchTarget := by
      rw [hbehind, branchTarget_eq]
      rfl
    refine ⟨htarget, ?_⟩
    show m.nextInstruction.cycles + (if pageCrossed m.begun.fetch.2.registers.pc
      (m.begun.fetch.2.registers.pc + signExtend m.begun.fetch.1) then 2 else 1) = _
    rw [htarget, hbehind]
    cases pageCrossed (m.cpu.registers.pc + 2) m.branchTarget with
    | true => rfl
    | false => rfl

/-! ## Time -/

theorem penalty_of_isReading {m : Machine Ram}
    (h : m.nextInstruction.operation.isReading = true) : m.penalty = m.leavesPage.toNat := by
  simp [penalty, branches, h, Operation.branchTest?_of_isReading h]

theorem penalty_eq_zero {m : Machine Ram} (h : m.nextInstruction.operation.isReading = false)
    (hbranch : m.nextInstruction.operation.branchTest? = none) : m.penalty = 0 := by
  simp [penalty, branches, h, hbranch]

theorem cycles_idle_begun (m : Machine Ram) (h : m.nextInstruction.operation = .nop) :
    (m.begun.perform m.cpu.registers.pc m.nextOpcode m.nextInstruction .idle).cycles
      = m.nextInstruction.cycles + m.leavesPage.toNat := by
  obtain ⟨hy, hindirect⟩ := Opcode.mode_of_nop m.nextOpcode h
  unfold Execution.perform
  simp only
  split
  · rw [Execution.cycles_readOperand, crossed_resolve_begun]
    rfl
  · -- the other modes of this operation have no base address
    have hstays : m.leavesPage = false := by
      rw [leavesPage]
      cases hmode : m.nextInstruction.mode with
      | absoluteX => contradiction
      | absoluteY => exact absurd hmode hy
      | indirectY => exact absurd hmode hindirect
      | _ => rfl
    rw [hstays]
    rfl

/-- An instruction takes the time in the table and its penalty. -/
theorem cycles_execute (m : Machine Ram) :
    (execute m.cpu m.memory).cycles = m.nextInstruction.cycles + m.penalty := by
  rw [execute_eq, nextAction]
  cases hreads : m.nextInstruction.operation.isReading with
  | true =>
    rw [penalty_of_isReading hreads]
    by_cases hnop : m.nextInstruction.operation = .nop
    · have haction : m.nextInstruction.operation.action m.cpu.decimalMode = .idle := by
        rw [hnop]
        rfl
      rw [haction, cycles_idle_begun m hnop]
    · obtain ⟨f, haction⟩ := Operation.action_of_isReading m.cpu.decimalMode hreads hnop
      rw [haction, ← crossed_resolve_begun]
      exact Execution.cycles_readOperand m.begun _
  | false =>
    cases htest : m.nextInstruction.operation.branchTest? with
    | none =>
      have hfixed := Operation.isFixedTime_action m.cpu.decimalMode hreads htest
      rw [Execution.cycles_perform_of_isFixedTime _ _ _ _ hfixed, penalty_eq_zero hreads htest]
      rfl
    | some test =>
      obtain ⟨taken, haction, htaken⟩ := Operation.action_of_branchTest? m.cpu.decimalMode htest
      have hbranches : m.branches = taken m.cpu.registers.status := by
        rw [branches, htest, htaken]
      have hcycles := (m.branch_begun m.branches).2
      rw [hbranches] at hcycles
      rw [haction, penalty, hreads, hbranches, Bool.false_and, Bool.toNat_false, Nat.zero_add,
        ← Nat.add_assoc]
      exact hcycles

/-! ## Lengths -/

/-- An instruction behind which the program goes on passes its own bytes. -/
theorem pc_execute_of_isSequential {m : Machine Ram}
    (h : m.nextInstruction.operation.isSequential = true) :
    (execute m.cpu m.memory).registers.pc
      = m.cpu.registers.pc + UInt16.ofNat m.nextInstruction.bytes := by
  have haction : m.nextAction.Sequential := Operation.sequential_action m.cpu.decimalMode h
  obtain ⟨hmode, hbytes⟩ : m.nextInstruction.mode ≠ .relative
      ∧ m.nextInstruction.bytes = 1 + m.nextAction.passes m.nextInstruction.mode :=
    Opcode.bytes_of_isSequential m.nextOpcode m.cpu.decimalMode h
  rw [execute_eq, Execution.pc_perform _ _ _ haction hmode, hbytes, UInt16.ofNat_add,
    ← UInt16.add_assoc]
  rfl

theorem pc_execute_of_branchTest? {m : Machine Ram} {flag : Flag} {value : Bool}
    (h : m.nextInstruction.operation.branchTest? = some (flag, value)) :
    (execute m.cpu m.memory).registers.pc
      = if m.cpu.registers.status.get flag = value then m.branchTarget
        else m.cpu.registers.pc + 2 := by
  obtain ⟨taken, haction, htaken⟩ := Operation.action_of_branchTest? m.cpu.decimalMode h
  rw [execute_eq, nextAction, haction]
  show (m.begun.branch (taken m.cpu.registers.status)).registers.pc = _
  rw [(m.branch_begun _).1, htaken]
  simp only [beq_iff_eq]

/-- An instruction that is not interrupted leaves the program counter behind its
bytes, if the program goes on there, or for a branch at its target or behind it,
as the flag it tests says. It takes the time in the table and its penalty, and
if it writes to its operand it has none. -/
theorem step_length_and_time (m : Machine Ram) (h : m.cpu.requests = .none) :
    let i := m.nextInstruction
    let pc := m.cpu.registers.pc
    (i.operation.isSequential = true →
        m.step.machine.cpu.registers.pc = pc + UInt16.ofNat i.bytes)
      ∧ (∀ flag value, i.operation.branchTest? = some (flag, value) →
          m.step.machine.cpu.registers.pc
            = if m.cpu.registers.status.get flag = value then m.branchTarget else pc + 2)
      ∧ m.step.cycles = i.cycles + m.penalty
      ∧ (i.operation.isWriting = true → m.step.cycles = i.cycles) := by
  intro i pc
  have hstep : m.step = (execute m.cpu m.memory).settleMask.outcome m.cpu :=
    step_of_declined (by rw [h]; rfl)
  have hpc : m.step.machine.cpu.registers.pc = (execute m.cpu m.memory).registers.pc := by
    rw [hstep]
    exact Execution.pc_settleMask _
  have htime : m.step.cycles = i.cycles + m.penalty := by
    rw [hstep, ← cycles_execute]
    exact Execution.cycles_settleMask _
  refine ⟨?_, ?_, htime, ?_⟩
  · intro hseq
    rw [hpc, pc_execute_of_isSequential hseq]
  · intro flag value htest
    rw [hpc, pc_execute_of_branchTest? htest]
  · intro hwrites
    obtain ⟨hreads, htest⟩ := Operation.isReading_of_isWriting hwrites
    rw [htime, penalty_eq_zero hreads htest]
    rfl

/-- A processor about to load A from `$1280` plus `$FF`, with the operand on both
sides of the end of memory. -/
def loadAcrossEnd : Machine Ram where
  cpu :=
    { registers := { a := 0, x := 0xFF, y := 0, sp := 0xFD, pc := 0xFFFE, status := .powerOn }
      decimalMode := true
      requests := .none }
  memory := ((Ram.full.write 0xFFFE 0xBD).write 0xFFFF 0x80).write 0x0000 0x12

/-- The load is three bytes long, and its page costs it a cycle. -/
theorem step_length_and_time_loadAcrossEnd :
    loadAcrossEnd.cpu.requests = .none
      ∧ loadAcrossEnd.step.machine.cpu.registers.pc = 0x0001
      ∧ loadAcrossEnd.step.cycles = 4 + 1 := by
  have hread (address : UInt16) : loadAcrossEnd.memory.read address
      = if 0x0000 = address then 0x12 else if 0xFFFF = address then 0x80
        else if 0xFFFE = address then 0xBD else 0 := by
    have hfirst : (Ram.full.write 0xFFFE 0xBD).IsFull := Ram.IsFull.full.write _ _
    have hsecond : ((Ram.full.write 0xFFFE 0xBD).write 0xFFFF 0x80).IsFull := hfirst.write _ _
    simp only [loadAcrossEnd]
    rw [hsecond.read_write, hfirst.read_write, Ram.IsFull.full.read_write, Ram.read_full]
  have hpc : loadAcrossEnd.cpu.registers.pc = 0xFFFE := rfl
  have hinstruction : loadAcrossEnd.nextInstruction = ⟨.lda, .absoluteX, .official, 4⟩ := by
    rw [nextInstruction, nextOpcode, Ram.memory_read, hpc, hread]
    decide
  have hword : loadAcrossEnd.operandWord = 0x1280 := by
    rw [operandWord, operandByte, hpc, hread, hread]
    decide
  have hpenalty : loadAcrossEnd.penalty = 1 := by
    rw [penalty_of_isReading (by rw [hinstruction]; rfl), leavesPage, hinstruction, indexing?,
      hword]
    rfl
  obtain ⟨hlength, -, htime, -⟩ := step_length_and_time loadAcrossEnd rfl
  rw [hinstruction] at hlength htime
  rw [hpenalty] at htime
  exact ⟨rfl, hlength rfl, htime⟩

end Machine

end VideoComputer
