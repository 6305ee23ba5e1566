/-
VideoComputer.Proofs.Cpu.Writes — which bytes of memory an instruction writes.

Behind an address may be a chip that acts when it is written to, so it matters that an
instruction writes what it should and nothing else, not even a byte that is there
already. A store, or a change of a byte in memory, writes once, to the operand. Pushes
and calls write to the stack, and so does the software interrupt. Nothing else writes.

* `Operation.stored?` — the byte that goes to the operand.
* `Operation.pushed`, `stackWrites` — the bytes that go to the stack, and where.
* `memory_step` — memory is what the recorded writes make of it.
* `writes_of_instruction` — the writes of every instruction.
-/
import VideoComputer.Proofs.Cpu.EffectiveAddresses
import VideoComputer.Proofs.Cpu.Watched

namespace VideoComputer

/-! ## Bytes for the operand -/

/-- The byte that an operation leaves at the address of its operand, given what was
there, if it leaves one. -/
def Operation.stored? : Operation → Option (Registers → UInt8 → UInt8)
  | .sta => some fun r _ => r.a
  | .stx => some fun r _ => r.x
  | .sty => some fun r _ => r.y
  | .sax => some fun r _ => r.a &&& r.x
  | .dec | .dcp => some fun _ v => v - 1
  | .inc | .isc => some fun _ v => v + 1
  | .asl | .slo => some fun _ v => UInt8.ofNat (2 * v.toNat)
  | .lsr | .sre => some fun _ v => UInt8.ofNat (v.toNat / 2)
  | .rol | .rla => some fun r v => UInt8.ofNat (2 * v.toNat + (r.status.get .carry).toNat)
  | .ror | .rra => some fun r v => UInt8.ofNat (v.toNat / 2 + 128 * (r.status.get .carry).toNat)
  | _ => none

/-! ## Bytes for the stack -/

/-- The bytes that an operation pushes, given the registers in front of its instruction:
a register, the flags as software pushes them, or the address of the last byte of a call
or of the byte behind the opcode of a software interrupt. -/
def Operation.pushed (r : Registers) : Operation → List UInt8
  | .pha => [r.a]
  | .php => [r.status.toByte true]
  | .jsr => [highByte (r.pc + 2), lowByte (r.pc + 2)]
  | .brk => [highByte (r.pc + 2), lowByte (r.pc + 2), r.status.toByte true]
  | _ => []

/-- Where bytes go that are pushed one after the other: downwards from the stack pointer,
around page 1. -/
def stackWrites (sp : UInt8) : List UInt8 → List (UInt16 × UInt8)
  | [] => []
  | byte :: bytes => (0x0100 ||| sp.toUInt16, byte) :: stackWrites (sp - 1) bytes

/-- The stack is page 1. -/
theorem Execution.stackAddress_eq (sp : UInt8) :
    Execution.stackAddress sp = 0x0100 ||| sp.toUInt16 := by
  have all_bytes : ∀ n : Fin 256,
      Execution.stackAddress ⟨⟨n⟩⟩ = 0x0100 ||| UInt8.toUInt16 ⟨⟨n⟩⟩ := by decide +kernel
  exact all_bytes sp.toFin

/-! ## What the operations say about their actions -/

namespace Operation

variable {op : Operation} (decimalMode : Bool)

/-- The operation stores a register, or changes a byte, wherever the program is. -/
theorem action_of_stored {value : Registers → UInt8 → UInt8} (h : op.stored? = some value) :
    (∃ f, op.action decimalMode = .store f ∧ ∀ (r : Registers) pc v, f { r with pc } = value r v)
      ∨ ∃ f g, op.action decimalMode = .modify f g ∧ ∀ (r : Registers) v,
          (f r.status v).1 = value r v := by
  cases op with
  | sta | stx | sty | sax =>
    cases h
    exact .inl ⟨_, rfl, fun _ _ _ => rfl⟩
  | dec | inc | asl | lsr | rol | ror | slo | rla | sre | rra | dcp | isc =>
    cases h
    exact .inr ⟨_, _, rfl, fun _ _ => rfl⟩
  | _ => cases h

end Operation

namespace Opcode

set_option maxRecDepth 4096 in
/-- An operation that leaves a byte at its operand has one in memory, but for the shifts
of A. -/
theorem hasAddress_of_stored (opcode : UInt8)
    (h : (decode opcode).operation.stored?.isSome = true)
    (hmode : (decode opcode).mode ≠ .accumulator) : (decode opcode).mode.hasAddress = true := by
  have table_modes : ∀ i ∈ table.toList,
      i.operation.stored?.isSome = true → i.mode ≠ .accumulator → i.mode.hasAddress = true := by
    decide +kernel
  exact table_modes _ (decode_mem opcode) h hmode

end Opcode

/-! ## Memory and its record -/

namespace Ram

/-- The memory after several writes. -/
def writeAll (r : Ram) (writes : List (UInt16 × UInt8)) : Ram :=
  writes.foldl (fun r w => r.write w.1 w.2) r

theorem writeAll_concat (r : Ram) (writes : List (UInt16 × UInt8)) (address : UInt16)
    (data : UInt8) : r.writeAll (writes ++ [(address, data)])
      = (r.writeAll writes).write address data := by
  simp [writeAll]

/-- Nothing is changed but where something is written. -/
theorem IsFull.read_writeAll_of_not_mem {r : Ram} (h : r.IsFull)
    {writes : List (UInt16 × UInt8)} {address : UInt16} (hw : ∀ w ∈ writes, w.1 ≠ address) :
    (r.writeAll writes).read address = r.read address := by
  induction writes generalizing r with
  | nil => rfl
  | cons w writes ih =>
    obtain ⟨hfirst, hrest⟩ := List.forall_mem_cons.mp hw
    show ((r.write w.1 w.2).writeAll writes).read address = _
    rw [ih (h.write _ _) hrest, h.read_write, if_neg hfirst]

end Ram

namespace Machine

variable {m : Machine Ram}

/-- What an instruction leaves of memory is what its writes make of it. -/
theorem memory_step (m : Machine Ram) :
    m.step.machine.memory = m.memory.writeAll m.watched.step.machine.memory.writes := by
  have hinside : m.watched.step.machine.memory.memory
      = m.memory.writeAll m.watched.step.machine.memory.writes := by
    refine m.watched.accessed_step.keeps
      (P := fun t => t.memory = m.memory.writeAll t.writes) ?_ ?_ rfl
    · intro t address h
      rw [Traffic.writes_afterRead]
      exact h
    · intro t address data h
      rw [Traffic.writes_write, Ram.writeAll_concat, ← h]
      rfl
  rw [← hinside, ← m.step_watched]
  rfl

/-- An operation that leaves a byte at its operand in memory writes it there, and writes
nothing else. -/
theorem writes_of_stored (hfull : m.memory.IsFull) {value : Registers → UInt8 → UInt8}
    (h : m.nextInstruction.operation.stored? = some value)
    (hmode : m.nextInstruction.mode ≠ .accumulator) {e : UInt16}
    (he : m.operandAddress? m.nextInstruction.mode = some e.toNat) :
    m.nextAction.writes m.begun m.nextInstruction.mode
      = [(e, value m.cpu.registers (m.memory.read e))] := by
  obtain ⟨haddress, -, hexecution⟩ := resolve_begun hfull he
  rw [UInt16.toNat_inj] at haddress
  obtain ⟨f, haction, hvalue⟩ | ⟨f, g, haction, hvalue⟩ :=
    Operation.action_of_stored m.cpu.decimalMode h
  · rw [nextAction, haction, Action.writes, haddress, begun, hvalue _ _ (m.memory.read e)]
  · rw [nextAction, haction, Action.writes, if_neg hmode]
    simp only [haddress, hexecution]
    rw [← hvalue]
    rfl

/-- Every other operation writes what it pushes. -/
theorem writes_of_not_stored
    (h : m.nextInstruction.operation.stored? = none ∨ m.nextInstruction.mode = .accumulator) :
    m.nextAction.writes m.begun m.nextInstruction.mode
      = stackWrites m.cpu.registers.sp (m.nextInstruction.operation.pushed m.cpu.registers) := by
  rcases h with hstored | hmode
  · rw [nextAction]
    cases hop : m.nextInstruction.operation with
    | sta | stx | sty | sax | dec | inc | asl | lsr | rol | ror | slo | rla | sre | rra | dcp
    | isc =>
      rw [hop] at hstored
      cases hstored
    | pha | php =>
      simp only [Operation.pushed, stackWrites, ← Execution.stackAddress_eq]
      rfl
    | jsr =>
      have hlast : m.begun.fetchWord.2.registers.pc - 1 = m.cpu.registers.pc + 2 := by
        show m.cpu.registers.pc + 1 + 1 + 1 - 1 = _
        grind
      simp only [Operation.pushed, stackWrites, ← Execution.stackAddress_eq, Operation.action,
        Action.writes, hlast]
      rfl
    | brk =>
      have hbehind : (m.begun.skip 1).registers.pc = m.cpu.registers.pc + 2 :=
        UInt16.add_assoc _ 1 1
      simp only [Operation.pushed, stackWrites, ← Execution.stackAddress_eq, Operation.action,
        Action.writes, hbehind]
      rfl
    | _ => rfl
  · -- only shifts work on A, and these push nothing
    have hshift := Opcode.operation_of_accumulator m.nextOpcode hmode
    simp only [List.mem_cons, List.not_mem_nil, or_false] at hshift
    rw [hmode, nextAction]
    rcases hshift with hop | hop | hop | hop
    all_goals
      rw [nextInstruction, hop]
      rfl

/-- The writes of an instruction that no interrupt follows. An operation that leaves a byte
at its operand in memory writes once, to the address of the operand. All others, the
shifts of A included, write what they push from the stack pointer downwards, around page 1,
and most push nothing. And memory is the one before with these writes, so that every byte
stays that is not written. -/
theorem writes_of_instruction {m : Machine Ram} (hfull : m.memory.IsFull)
    (hrequests : m.cpu.requests = .none) :
    let i := m.nextInstruction
    let writes := m.watched.step.machine.memory.writes
    (∀ value, i.operation.stored? = some value → i.mode ≠ .accumulator →
        ∃ e : UInt16, m.operandAddress? i.mode = some e.toNat
          ∧ writes = [(e, value m.cpu.registers (m.memory.read e))])
      ∧ (i.operation.stored? = none ∨ i.mode = .accumulator →
          writes = stackWrites m.cpu.registers.sp (i.operation.pushed m.cpu.registers))
      ∧ m.step.machine.memory = m.memory.writeAll writes
      ∧ ∀ address, (∀ w ∈ writes, w.1 ≠ address) →
          m.step.machine.memory.read address = m.memory.read address := by
  intro i writes
  have hwrites : writes = m.nextAction.writes m.begun i.mode :=
    writes_step_watched (not_accepts hrequests)
  have hmemory : m.step.machine.memory = m.memory.writeAll writes := m.memory_step
  refine ⟨?_, ?_, hmemory, ?_⟩
  · intro value hstored hmode
    have hstores : i.operation.stored?.isSome = true := by
      rw [hstored]
      rfl
    have haddress : i.mode.hasAddress = true :=
      Opcode.hasAddress_of_stored m.nextOpcode hstores hmode
    obtain ⟨e, he⟩ := exists_operandAddress_of_isFull hfull haddress
    exact ⟨e, he, hwrites.trans (writes_of_stored hfull hstored hmode he)⟩
  · intro h
    exact hwrites.trans (writes_of_not_stored h)
  · intro address h
    rw [hmemory, hfull.read_writeAll_of_not_mem h]

/-- Registers with two bytes left on the stack before it wraps. -/
def lowStack : Registers :=
  { a := 0, x := 0, y := 0, sp := 0x01, pc := 0x0200, status := .powerOn }

/-- A software interrupt writes around page 1. The rotation of a cleared byte in page 0
writes that byte, and does not change it. -/
theorem writes_of_instruction_atWrap :
    (inFrontOf lowStack [0x00]).memory.IsFull
      ∧ (inFrontOf lowStack [0x00]).watched.step.machine.memory.writes
        = [(0x0101, 0x02), (0x0100, 0x02), (0x01FF, 0x34)]
      ∧ (inFrontOf lowStack [0x00]).step.machine.memory.read 0x0000 = 0x00
      ∧ (inFrontOf lowStack [0x26, 0x80]).watched.step.machine.memory.writes
        = [(0x0080, 0x00)] := by
  have hbreak : (inFrontOf lowStack [0x00]).nextInstruction = ⟨.brk, .implied, .official, 7⟩ :=
    nextInstruction_inFrontOf lowStack (by decide)
  have hrotate : (inFrontOf lowStack [0x26, 0x80]).nextInstruction
      = ⟨.rol, .zeroPage, .official, 5⟩ := nextInstruction_inFrontOf lowStack (by decide)
  obtain ⟨-, hpushes, -, hrest⟩ :=
    writes_of_instruction (isFull_inFrontOf lowStack [0x00]) rfl
  obtain ⟨hstores, -⟩ := writes_of_instruction (isFull_inFrontOf lowStack [0x26, 0x80]) rfl
  have hwrites := hpushes (.inl (by rw [hbreak]; rfl))
  rw [hbreak] at hwrites
  have hwrites' : (inFrontOf lowStack [0x00]).watched.step.machine.memory.writes
      = [(0x0101, 0x02), (0x0100, 0x02), (0x01FF, 0x34)] := hwrites.trans (by decide)
  refine ⟨isFull_inFrontOf _ _, hwrites', ?_, ?_⟩
  · rw [hrest 0x0000 (by rw [hwrites']; simp), read_inFrontOf lowStack (by decide)]
    rfl
  · obtain ⟨e, he, hwrite⟩ := hstores _ (by rw [hrotate]; rfl) (by rw [hrotate]; decide)
    have haddress : e = 0x0080 := by
      have hbyte : (inFrontOf lowStack [0x26, 0x80]).streamByte 1 = 0x80 := by
        rw [← toNat_operandByte (isFull_inFrontOf _ _), operandByte,
          read_inFrontOf lowStack (by decide)]
        rfl
      rw [hrotate, operandAddress?, hbyte] at he
      exact UInt16.toNat_inj.mp (Option.some.inj he).symm
    rw [hwrite, haddress, read_inFrontOf lowStack (by decide)]
    rfl

end Machine

end VideoComputer
