/-
VideoComputer.Proofs.Cpu.EffectiveAddresses — where an instruction finds its
operand, by arithmetic on the contents of memory.

The program lies in memory that has a byte behind every address. What stands behind
the opcode, the index registers and the words that are pointed to make an address, in
one of ten ways, and these differ in where they wrap: around page 0, around the page
of a pointer, or around the whole of memory. `operandAddress?` says all that in
numbers, and has nothing to say about the three modes without an operand address.

Whether an instruction asks for such an address is a matter of its action. With
`performWith` an action is performed with an address that it is given, if there is
one, and fails when it asks for an address that there is not.

* `Machine.operandAddress?`, `Machine.indexCarries` — the addresses, and when
  indexing leaves a page.
* `resolve_begun` — they are what the processor finds.
* `Action.asks`, `Opcode.hasAddress_of_asks` — who asks for an address has one.
* `performWith_eq` — an action performed with the address found is the action.
* `effective_addresses` — so an instruction can be performed with these addresses.
-/
import VideoComputer.Proofs.Cpu.Lengths
import VideoComputer.Proofs.Memory.Contents

namespace VideoComputer

namespace Machine

/-! ## Bytes and words in memory -/

/-- The byte at an address. -/
def byteAt (m : Machine Ram) (address : Nat) : Nat := (m.memory.bytes.getD address 0).toNat

/-- A byte behind the opcode. The program counter wraps around memory. -/
def streamByte (m : Machine Ram) (n : Nat) : Nat :=
  m.byteAt ((m.cpu.registers.pc.toNat + n) % 0x10000)

/-- The word behind the opcode. -/
def streamWord (m : Machine Ram) : Nat := m.streamByte 1 + 256 * m.streamByte 2

/-- A word of page 0. Its high byte is in page 0, too. -/
def zeroPageWord (m : Machine Ram) (pointer : Nat) : Nat :=
  m.byteAt pointer + 256 * m.byteAt ((pointer + 1) % 256)

/-- A word of any page. Its high byte is in the page of its low byte. -/
def samePageWord (m : Machine Ram) (pointer : Nat) : Nat :=
  m.byteAt pointer + 256 * m.byteAt (256 * (pointer / 256) + (pointer + 1) % 256)

/-- The opcode comes first in a program. -/
theorem nextOpcode_of_holds {m : Machine Ram} {opcode : UInt8} {rest : List UInt8}
    (h : m.memory.Holds m.cpu.registers.pc (opcode :: rest)) : m.nextOpcode = opcode :=
  (Ram.holds_cons.mp h).1

/-- An address follows its opcode, low byte first. -/
theorem operandWord_of_holds {m : Machine Ram} {opcode : UInt8} {address : UInt16}
    (h : m.memory.Holds m.cpu.registers.pc [opcode, lowByte address, highByte address]) :
    m.operandWord = address := by
  simp only [Ram.holds_cons] at h
  obtain ⟨-, hlow, hhigh, -⟩ := h
  have hsecond : m.cpu.registers.pc + 1 + 1 = m.cpu.registers.pc + 2 := UInt16.add_assoc _ 1 1
  rw [operandWord, operandByte, hlow, ← hsecond, hhigh, word_lowByte_highByte]

/-- A processor in front of a program, with nothing else in memory. -/
def inFrontOf (registers : Registers) (program : List UInt8) : Machine Ram where
  cpu := { registers, decimalMode := true, requests := .none }
  memory := Ram.full.load registers.pc program

section

variable (r : Registers) {opcode : UInt8} {program : List UInt8}

theorem isFull_inFrontOf (program : List UInt8) : (inFrontOf r program).memory.IsFull :=
  Ram.IsFull.full.load _ _

theorem read_inFrontOf (hlength : program.length ≤ 0x10000) (address : UInt16) :
    (inFrontOf r program).memory.read address = (program[(address - r.pc).toNat]?).getD 0 := by
  rw [inFrontOf, Ram.IsFull.full.read_load hlength, Ram.read_full]

theorem nextInstruction_inFrontOf (hlength : (opcode :: program).length ≤ 0x10000) :
    (inFrontOf r (opcode :: program)).nextInstruction = Opcode.decode opcode := by
  have hpc : (inFrontOf r (opcode :: program)).cpu.registers.pc = r.pc := rfl
  rw [nextInstruction, nextOpcode, Ram.memory_read, read_inFrontOf r hlength, hpc,
    UInt16.sub_self]
  simp

end

/-! ## Operand addresses -/

section

variable (m : Machine Ram)

/-- The operand address that a mode stands for, if it stands for one. -/
def operandAddress? : AddressingMode → Option Nat
  | .immediate => some ((m.cpu.registers.pc.toNat + 1) % 0x10000)
  | .zeroPage => some (m.streamByte 1)
  | .zeroPageX => some ((m.streamByte 1 + m.cpu.registers.x.toNat) % 256)
  | .zeroPageY => some ((m.streamByte 1 + m.cpu.registers.y.toNat) % 256)
  | .absolute => some m.streamWord
  | .absoluteX => some ((m.streamWord + m.cpu.registers.x.toNat) % 0x10000)
  | .absoluteY => some ((m.streamWord + m.cpu.registers.y.toNat) % 0x10000)
  | .indirectX => some (m.zeroPageWord ((m.streamByte 1 + m.cpu.registers.x.toNat) % 256))
  | .indirectY => some ((m.zeroPageWord (m.streamByte 1) + m.cpu.registers.y.toNat) % 0x10000)
  | .indirect => some (m.samePageWord m.streamWord)
  | .implied | .accumulator | .relative => none

/-- Whether an index added to a base address carries out of its low byte. Only a base
address of two bytes has a page that can be left. -/
def indexCarries : AddressingMode → Bool
  | .absoluteX => 255 < m.streamWord % 256 + m.cpu.registers.x.toNat
  | .absoluteY => 255 < m.streamWord % 256 + m.cpu.registers.y.toNat
  | .indirectY => 255 < m.zeroPageWord (m.streamByte 1) % 256 + m.cpu.registers.y.toNat
  | _ => false

end

/-! ## What the processor finds -/

section

variable {m : Machine Ram}

theorem byteAt_eq (h : m.memory.IsFull) (address : UInt16) :
    m.byteAt address.toNat = (m.memory.read address).toNat := by
  rw [byteAt, h.read_eq]

theorem toNat_operandByte (h : m.memory.IsFull) : m.operandByte.toNat = m.streamByte 1 := by
  rw [operandByte, ← byteAt_eq h, UInt16.toNat_add]
  rfl

theorem toNat_operandWord (h : m.memory.IsFull) : m.operandWord.toNat = m.streamWord := by
  rw [operandWord, toNat_word, toNat_operandByte h, ← byteAt_eq h, UInt16.toNat_add]
  rfl

theorem toNat_zeroPageWord (h : m.memory.IsFull) (pointer : UInt8) :
    (m.begun.readPointer pointer).1.toNat = m.zeroPageWord pointer.toNat := by
  show (word (m.memory.read pointer.toUInt16) (m.memory.read (pointer + 1).toUInt16)).toNat = _
  rw [toNat_word, ← byteAt_eq h, ← byteAt_eq h, UInt8.toNat_toUInt16, UInt8.toNat_toUInt16,
    UInt8.toNat_add]
  rfl

theorem toNat_samePageWord (h : m.memory.IsFull) (pointer : UInt16) :
    (m.begun.readWord pointer (word (lowByte pointer + 1) (highByte pointer))).1.toNat
      = m.samePageWord pointer.toNat := by
  have hlow : (lowByte pointer + 1).toNat = (pointer.toNat + 1) % 256 := by
    rw [UInt8.toNat_add, toNat_lowByte]
    exact Nat.mod_add_mod ..
  show (word (m.memory.read pointer) (m.memory.read _)).toNat = _
  rw [toNat_word, ← byteAt_eq h, ← byteAt_eq h, toNat_word, hlow, toNat_highByte,
    Nat.add_comm (_ % 256)]
  rfl

/-- A base address of two bytes, indexed. -/
theorem resolveIndexed_eq (base : UInt16) (index : UInt8) (e : Execution Ram) :
    (Execution.resolveIndexed base index e).address.toNat = (base.toNat + index.toNat) % 0x10000
      ∧ (Execution.resolveIndexed base index e).crossed
        = decide (255 < base.toNat % 256 + index.toNat) := by
  refine ⟨?_, ?_⟩
  · show (base + index.toUInt16).toNat = _
    rw [UInt16.toNat_add, UInt8.toNat_toUInt16]
  · rw [Bool.eq_iff_iff, decide_eq_true_iff]
    exact pageCrossed_add_iff base index

/-- An address of page 0, indexed around that page. -/
theorem resolveZeroPage_eq (h : m.memory.IsFull) (index : UInt8) :
    (m.begun.resolveZeroPage index).address.toNat
      = (m.streamByte 1 + index.toNat) % 256 := by
  show (m.operandByte + index).toUInt16.toNat = _
  rw [UInt8.toNat_toUInt16, UInt8.toNat_add, toNat_operandByte h]

theorem skip_fetchWord : m.begun.fetchWord.2 = m.begun.skip 2 :=
  congrArg m.begun.goto (UInt16.add_assoc _ 1 1)

/-- In a mode that has an operand address, the processor finds it, and has passed its
bytes then. -/
theorem resolve_begun (h : m.memory.IsFull) {mode : AddressingMode} {address : Nat}
    (ha : m.operandAddress? mode = some address) :
    (m.begun.resolve mode).address.toNat = address
      ∧ (m.begun.resolve mode).crossed = m.indexCarries mode
      ∧ (m.begun.resolve mode).execution = m.begun.skip mode.operandBytes := by
  have hword : m.begun.fetchWord.1.toNat = m.streamWord := by
    rw [fetchWord_begun, toNat_operandWord h]
  cases mode with
  | implied | accumulator | relative => cases ha
  | immediate =>
    cases ha
    exact ⟨UInt16.toNat_add .., rfl, rfl⟩
  | zeroPage =>
    cases ha
    have hbyte : m.streamByte 1 < 256 := UInt8.toNat_lt _
    exact ⟨(resolveZeroPage_eq h 0).trans (Nat.mod_eq_of_lt hbyte), rfl, rfl⟩
  | zeroPageX | zeroPageY =>
    cases ha
    exact ⟨resolveZeroPage_eq h _, rfl, rfl⟩
  | absolute =>
    cases ha
    exact ⟨hword, rfl, skip_fetchWord⟩
  | absoluteX | absoluteY =>
    cases ha
    obtain ⟨haddress, hcrossed⟩ := resolveIndexed_eq m.begun.fetchWord.1 _ m.begun.fetchWord.2
    rw [hword] at haddress hcrossed
    exact ⟨haddress, hcrossed, skip_fetchWord⟩
  | indirectX =>
    cases ha
    refine ⟨?_, rfl, rfl⟩
    have hpointer : (m.operandByte + m.cpu.registers.x).toNat
        = (m.streamByte 1 + m.cpu.registers.x.toNat) % 256 := by
      rw [UInt8.toNat_add, toNat_operandByte h]
    rw [← hpointer]
    exact toNat_zeroPageWord h _
  | indirectY =>
    cases ha
    have hbase := toNat_zeroPageWord h m.operandByte
    rw [toNat_operandByte h] at hbase
    obtain ⟨haddress, hcrossed⟩ := resolveIndexed_eq (m.begun.readPointer m.operandByte).1
      m.cpu.registers.y m.begun.fetch.2
    rw [hbase] at haddress hcrossed
    exact ⟨haddress, hcrossed, rfl⟩
  | indirect =>
    cases ha
    have htarget := toNat_samePageWord h m.begun.fetchWord.1
    rw [hword] at htarget
    exact ⟨htarget, rfl, skip_fetchWord⟩

end

end Machine

/-! ## Who asks for an address -/

/-- Whether an action asks for an operand address in an instruction of the given mode. -/
def Action.asks (mode : AddressingMode) : Action → Bool
  | .load _ | .store _ | .jump => true
  | .modify .. => mode != .accumulator
  | .idle => mode == .absoluteX
  | _ => false

set_option maxRecDepth 4096 in
/-- No instruction asks for an address that its mode does not have. -/
theorem Opcode.hasAddress_of_asks (opcode : UInt8) (decimalMode : Bool)
    (h : ((decode opcode).operation.action decimalMode).asks (decode opcode).mode = true) :
    (decode opcode).mode.hasAddress = true := by
  have table_modes : ∀ i ∈ table.toList, ∀ decimalMode : Bool,
      (i.operation.action decimalMode).asks i.mode = true → i.mode.hasAddress = true := by
    decide +kernel
  exact table_modes _ (decode_mem opcode) decimalMode h

namespace Execution

variable {M : Type} [Memory M]

namespace Resolved

variable (target : Resolved M)

/-- Reads the operand at an address, and pays for its page. -/
def load (f : Registers → UInt8 → Registers) : Execution M :=
  let e := if target.crossed then target.execution.spend 1 else target.execution
  let (operand, e) := e.read target.address
  { e with registers := f e.registers operand }

/-- Writes a byte to an address. -/
def store (data : UInt8) : Execution M := target.execution.write target.address data

/-- Changes the byte at an address. -/
def modify (f : Status → UInt8 → UInt8 × Status) (g : Registers → UInt8 → Registers) :
    Execution M :=
  let (operand, e) := target.execution.read target.address
  let (result, status) := f e.registers.status operand
  let e := { e with registers := { e.registers with status } }.write target.address result
  { e with registers := g e.registers result }

/-- Continues at an address. -/
def jump : Execution M := target.execution.goto target.address

end Resolved

/-- Performs one action with an operand address that is given, and fails if the action
asks for one and none is given. -/
def performWith (target? : Option (Resolved M)) (e : Execution M) (address : UInt16)
    (opcode : UInt8) (instruction : Instruction) : Action → Option (Execution M)
  | .load f => target?.map fun target => target.load f
  | .store f => target?.map fun target => target.store (f e.registers)
  | .modify f g =>
    if instruction.mode = .accumulator then
      let (result, status) := f e.registers.status e.registers.a
      some { e with registers := g { e.registers with a := result, status } result }
    else
      target?.map fun target => target.modify f g
  | .jump => target?.map fun target => target.jump
  | .idle =>
    if instruction.mode = .absoluteX then
      target?.map fun target => target.load Registers.unchanged
    else
      some (e.skip instruction.mode.operandBytes)
  -- the other actions work on the registers, the stack and the instruction stream
  | .internal f => some { e with registers := f e.registers }
  | .branch taken => some (e.branch (taken e.registers.status))
  | .mask disable => some { e with newMask := some disable }
  | .push f => some (e.push (f e.registers))
  | .pull f =>
    let (byte, e) := e.pull
    some { e with registers := f e.registers byte }
  | .pullStatus => some e.pullStatus
  | .call =>
    let (target, e) := e.fetchWord
    some ((e.pushWord (e.registers.pc - 1)).goto target)
  | .returnFromCall =>
    let (address, e) := e.pullWord
    some (e.goto (address + 1))
  | .softwareInterrupt => some ((e.skip 1).trap true maskableVector)
  | .returnFromInterrupt =>
    let (byte, e) := e.pull
    let e := { e with registers := { e.registers with status := Status.ofByte byte } }
    let (address, e) := e.pullWord
    some (e.goto address)
  | .lockUp => some { e with notices := e.notices.push (.jammed address opcode instruction) }
  | .skipStore =>
    some ({ e with notices := e.notices.push (.unstable address opcode instruction) }.skip
      instruction.mode.operandBytes)

/-- Given the address that the processor finds, if the action asks for it, the action is
performed as the processor performs it. -/
theorem performWith_eq (e : Execution M) (address : UInt16) (opcode : UInt8) {i : Instruction}
    {action : Action} {target? : Option (Resolved M)}
    (h : action.asks i.mode = true → target? = some (e.resolve i.mode)) :
    e.performWith target? address opcode i action = some (e.perform address opcode i action) := by
  cases action with
  | load f | store f | jump => rw [h rfl]; rfl
  | modify f g =>
    simp only [performWith, perform, modifyOperand]
    split
    · rfl
    · rename_i hmode
      rw [h (bne_iff_ne.mpr hmode)]
      rfl
  | idle =>
    simp only [performWith, perform]
    split
    · rename_i hmode
      rw [h (beq_iff_eq.mpr hmode)]
      rfl
    · rfl
  | _ => rfl

end Execution

namespace Machine

/-! ## Instructions with the addresses -/

/-- The operand address of the next instruction, if its mode has one, with the
instruction behind its operand. -/
def operand? (m : Machine Ram) : Option (Execution.Resolved Ram) :=
  (m.operandAddress? m.nextInstruction.mode).map fun address =>
    { address := UInt16.ofNat address
      crossed := m.indexCarries m.nextInstruction.mode
      execution := m.begun.skip m.nextInstruction.mode.operandBytes }

theorem exists_operandAddress (m : Machine Ram) {mode : AddressingMode}
    (h : mode.hasAddress = true) : ∃ address, m.operandAddress? mode = some address := by
  cases mode with
  | implied | accumulator | relative => cases h
  | _ => exact ⟨_, rfl⟩

/-- Memory that has a byte behind every address has one behind that one. -/
theorem exists_operandAddress_of_isFull {m : Machine Ram} (hfull : m.memory.IsFull)
    {mode : AddressingMode} (hmode : mode.hasAddress = true) :
    ∃ e : UInt16, m.operandAddress? mode = some e.toNat := by
  obtain ⟨address, ha⟩ := m.exists_operandAddress hmode
  exact ⟨(m.begun.resolve mode).address, by rw [(resolve_begun hfull ha).1, ha]⟩

theorem operand?_eq {m : Machine Ram} (h : m.memory.IsFull)
    (hmode : m.nextInstruction.mode.hasAddress = true) :
    m.operand? = some (m.begun.resolve m.nextInstruction.mode) := by
  obtain ⟨address, ha⟩ := m.exists_operandAddress hmode
  obtain ⟨haddress, hcrossed, hexecution⟩ := resolve_begun h ha
  rw [operand?, ha, Option.map_some, ← haddress, ← hcrossed, ← hexecution, UInt16.ofNat_toNat]

/-- Whatever the registers and the memory hold: in a mode that has an operand address,
the processor finds the address that arithmetic gives, tells that indexing left the page
if the index carries out of the low byte of the base address, and continues behind the
operand. And the instruction, whatever its opcode, can be performed with the addresses
that arithmetic gives: it never asks for one in a mode that has none. -/
theorem effective_addresses (m : Machine Ram) (h : m.memory.IsFull) :
    (∀ mode address, m.operandAddress? mode = some address →
        let target := m.begun.resolve mode
        target.address.toNat = address
          ∧ target.crossed = m.indexCarries mode
          ∧ target.execution = m.begun.skip mode.operandBytes)
      ∧ m.begun.performWith m.operand? m.cpu.registers.pc m.nextOpcode m.nextInstruction
            m.nextAction
          = some (execute m.cpu m.memory) := by
  refine ⟨fun mode address => resolve_begun h, ?_⟩
  rw [execute_eq]
  refine m.begun.performWith_eq _ _ fun hasks => operand?_eq h ?_
  exact Opcode.hasAddress_of_asks m.nextOpcode m.cpu.decimalMode hasks

/-- A processor about to jump to where the last word of page `$12` points, with the
operand on both sides of the end of memory. -/
def jumpFromEnd : Machine Ram where
  cpu :=
    { registers := { a := 0, x := 0, y := 0, sp := 0xFD, pc := 0xFFFE, status := .powerOn }
      decimalMode := true
      requests := .none }
  memory :=
    ((Ram.full.load 0xFFFE [0x6C, 0xFF, 0x12]).write 0x12FF 0x34).write 0x1200 0x56

/-- The high byte of the target comes from the start of the page. -/
theorem effective_addresses_jumpFromEnd :
    jumpFromEnd.memory.IsFull
      ∧ jumpFromEnd.nextInstruction.mode = .indirect
      ∧ jumpFromEnd.operandAddress? .indirect = some 0x5634
      ∧ (jumpFromEnd.begun.resolve .indirect).address.toNat = 0x5634 := by
  have hcode : (Ram.full.load 0xFFFE [0x6C, 0xFF, 0x12]).IsFull := Ram.IsFull.full.load _ _
  have hlow := hcode.write 0x12FF 0x34
  have hfull : jumpFromEnd.memory.IsFull := hlow.write 0x1200 0x56
  have hread (address : UInt16) : jumpFromEnd.memory.read address
      = if 0x1200 = address then 0x56 else if 0x12FF = address then 0x34
        else if 0x0000 = address then 0x12 else if 0xFFFF = address then 0xFF
        else if 0xFFFE = address then 0x6C else 0 := by
    have hfirst := Ram.IsFull.full.write 0xFFFE 0x6C
    have hsecond := hfirst.write (0xFFFE + 1) 0xFF
    simp only [jumpFromEnd]
    rw [hlow.read_write, hcode.read_write]
    simp only [Ram.load]
    rw [hsecond.read_write, hfirst.read_write, Ram.IsFull.full.read_write, Ram.read_full]
    rfl
  have hbyte {n : Nat} (address : UInt16) (hn : n = address.toNat) :
      jumpFromEnd.byteAt n = (jumpFromEnd.memory.read address).toNat := by
    rw [hn, byteAt_eq hfull]
  have hpointer : jumpFromEnd.streamWord = 0x12FF := by
    rw [streamWord, streamByte, streamByte, hbyte 0xFFFF (by decide), hbyte 0x0000 (by decide),
      hread, hread]
    decide
  have hmode : jumpFromEnd.nextInstruction.mode = .indirect := by
    have hpc : jumpFromEnd.cpu.registers.pc = 0xFFFE := rfl
    rw [nextInstruction, nextOpcode, Ram.memory_read, hpc, hread]
    decide
  have haddress : jumpFromEnd.operandAddress? .indirect = some 0x5634 := by
    rw [operandAddress?, hpointer, samePageWord, hbyte 0x12FF (by decide),
      hbyte 0x1200 (by decide), hread, hread]
    decide
  obtain ⟨hresolve, -⟩ := effective_addresses jumpFromEnd hfull
  exact ⟨hfull, hmode, haddress, (hresolve .indirect _ haddress).1⟩

end Machine

end VideoComputer
