/-
VideoComputer.Cpu.Execution — an instruction in flight: operand access, the
stack, and the sequencing of each action.

An `Execution` holds what one instruction works on and what it adds up: the
registers, the memory, the cycles spent and the notices given. The order of
memory accesses is part of what the machine does, because a read may have side
effects: bytes are fetched in program order, words low byte first, and pushed
high byte first.

* `Execution.resolve` — the address an addressing mode stands for, and
  whether indexing left the page.
* `Execution.trap` — what a software interrupt and a hardware interrupt have
  in common.
* `Execution.perform` — one `Action`.
-/
import VideoComputer.Cpu.Action
import VideoComputer.Memory.Basic

namespace VideoComputer

/-- An instruction in flight. -/
structure Execution (M : Type) where
  registers : Registers
  memory : M
  /-- Cycles spent so far. -/
  cycles : Nat
  /-- A change of the interrupt mask that takes effect when the instruction
  ends, after interrupts have been polled. -/
  newMask : Option Bool
  notices : Array Notice

namespace Execution

variable {M : Type} [Memory M]

/-- An instruction about to begin. -/
def start (registers : Registers) (memory : M) : Execution M where
  registers := registers
  memory := memory
  cycles := 0
  newMask := none
  notices := ∅

/-! ## Memory access -/

/-- Reads a byte. -/
def read (e : Execution M) (address : UInt16) : UInt8 × Execution M :=
  (Memory.read e.memory address, { e with memory := Memory.afterRead e.memory address })

/-- Writes a byte, and reports it if the memory has something to say. -/
def write (e : Execution M) (address : UInt16) (data : UInt8) : Execution M :=
  let notices :=
    match Memory.writeNotice? e.memory address data with
    | some notice => e.notices.push notice
    | none => e.notices
  { e with memory := Memory.write e.memory address data, notices }

/-- Reads a word whose halves lie at the two given addresses, the low one first
(`read_word`). -/
def readWord (e : Execution M) (lowAddress highAddress : UInt16) : UInt16 × Execution M :=
  let (low, e) := e.read lowAddress
  let (high, e) := e.read highAddress
  (word low high, e)

/-- Reads the word a vector points with. -/
def readVector (e : Execution M) (vector : UInt16) : UInt16 × Execution M :=
  e.readWord vector (vector + 1)

/-- Reads a word from page 0, wrapping inside that page
(`read_zero_page_word`). -/
def readPointer (e : Execution M) (pointer : UInt8) : UInt16 × Execution M :=
  e.readWord pointer.toUInt16 (pointer + 1).toUInt16

/-! ## The instruction stream -/

/-- Continues at an address. -/
def goto (e : Execution M) (address : UInt16) : Execution M :=
  { e with registers := { e.registers with pc := address } }

/-- Passes bytes of the instruction stream without reading them. -/
def skip (e : Execution M) (bytes : Nat) : Execution M :=
  e.goto (e.registers.pc + UInt16.ofNat bytes)

/-- Reads the next byte of the instruction stream (`fetch_byte`). -/
def fetch (e : Execution M) : UInt8 × Execution M :=
  let (byte, e) := e.read e.registers.pc
  (byte, e.skip 1)

/-- Reads the next word of the instruction stream (`fetch_word`). -/
def fetchWord (e : Execution M) : UInt16 × Execution M :=
  let (low, e) := e.fetch
  let (high, e) := e.fetch
  (word low high, e)

/-- Spends further cycles. -/
def spend (e : Execution M) (cycles : Nat) : Execution M :=
  { e with cycles := e.cycles + cycles }

/-! ## The stack -/

/-- The address in page 1 a stack pointer stands for. -/
def stackAddress (sp : UInt8) : UInt16 := word sp 1

/-- Writes a byte to the stack and moves the pointer down, around page 1. -/
def push (e : Execution M) (data : UInt8) : Execution M :=
  let e := e.write (stackAddress e.registers.sp) data
  { e with registers := { e.registers with sp := e.registers.sp - 1 } }

/-- Moves the stack pointer up, around page 1, and reads the byte there. -/
def pull (e : Execution M) : UInt8 × Execution M :=
  let sp := e.registers.sp + 1
  { e with registers := { e.registers with sp } }.read (stackAddress sp)

/-- Pushes a word, its high byte first (`push_word`). -/
def pushWord (e : Execution M) (data : UInt16) : Execution M :=
  (e.push (highByte data)).push (lowByte data)

/-- Pulls a word, its low byte first (`pull_word`). -/
def pullWord (e : Execution M) : UInt16 × Execution M :=
  let (low, e) := e.pull
  let (high, e) := e.pull
  (word low high, e)

/-! ## Effective addresses -/

/-- An operand address, and the instruction with its operand bytes behind
it. -/
structure Resolved (M : Type) where
  address : UInt16
  /-- Whether indexing left the page of the base address. -/
  crossed : Bool
  execution : Execution M

/-- An address in page 0 found in the instruction stream, indexed around that
page. -/
def resolveZeroPage (e : Execution M) (index : UInt8) : Resolved M :=
  let (base, e) := e.fetch
  ⟨(base + index).toUInt16, false, e⟩

/-- A base address, indexed. -/
def resolveIndexed (base : UInt16) (index : UInt8) (e : Execution M) : Resolved M :=
  let address := base + index.toUInt16
  ⟨address, pageCrossed base address, e⟩

/-- The address an addressing mode stands for (`effective_address`). An
instruction in a mode that has no address never asks for one. -/
def resolve (e : Execution M) : AddressingMode → Resolved M
  | .immediate => ⟨e.registers.pc, false, e.skip 1⟩
  | .zeroPage => e.resolveZeroPage 0
  | .zeroPageX => e.resolveZeroPage e.registers.x
  | .zeroPageY => e.resolveZeroPage e.registers.y
  | .absolute =>
    let (address, e) := e.fetchWord
    ⟨address, false, e⟩
  | .absoluteX =>
    let (base, e) := e.fetchWord
    resolveIndexed base e.registers.x e
  | .absoluteY =>
    let (base, e) := e.fetchWord
    resolveIndexed base e.registers.y e
  | .indirectX =>
    let (pointer, e) := e.fetch
    let (address, e) := e.readPointer (pointer + e.registers.x)
    ⟨address, false, e⟩
  | .indirectY =>
    let (pointer, e) := e.fetch
    let (base, e) := e.readPointer pointer
    resolveIndexed base e.registers.y e
  | .indirect =>
    -- the high half is read without a carry into the page of the pointer
    let (pointer, e) := e.fetchWord
    let (address, e) := e.readWord pointer (word (lowByte pointer + 1) (highByte pointer))
    ⟨address, false, e⟩
  | .implied | .accumulator | .relative => ⟨e.registers.pc, false, e⟩

/-- Reads the operand of a reading instruction: an indexed address on another
page costs a cycle (`read_operand`). -/
def readOperand (e : Execution M) (mode : AddressingMode) : UInt8 × Execution M :=
  let target := e.resolve mode
  let e := if target.crossed then target.execution.spend 1 else target.execution
  e.read target.address

/-! ## Actions -/

/-- Stores a byte at the operand address (`store`). Stores always take their
worst case time, so a crossed page costs nothing more. -/
def storeOperand (e : Execution M) (mode : AddressingMode) (data : UInt8) : Execution M :=
  let target := e.resolve mode
  target.execution.write target.address data

/-- Reads a byte, changes it and writes it back, or does the same to A
(`read_modify_write`). -/
def modifyOperand (e : Execution M) (mode : AddressingMode)
    (f : Status → UInt8 → UInt8 × Status) : UInt8 × Execution M :=
  if mode = .accumulator then
    let (result, status) := f e.registers.status e.registers.a
    (result, { e with registers := { e.registers with a := result, status } })
  else
    let target := e.resolve mode
    let (operand, e) := target.execution.read target.address
    let (result, status) := f e.registers.status operand
    (result, { e with registers := { e.registers with status } }.write target.address result)

/-- Reads a displacement and, if the branch is taken, adds it to the address
behind the instruction. Taking it costs a cycle, and another one if it leaves
the page. -/
def branch (e : Execution M) (taken : Bool) : Execution M :=
  let (displacement, e) := e.fetch
  if taken then
    let target := e.registers.pc + signExtend displacement
    let penalty := if pageCrossed e.registers.pc target then 2 else 1
    (e.spend penalty).goto target
  else
    e

/-- Saves the program counter and the flags on the stack, masks interrupts and
continues where the vector points. -/
def trap (e : Execution M) (isBreak : Bool) (vector : UInt16) : Execution M :=
  let e := e.pushWord e.registers.pc
  let e := e.push (e.registers.status.toByte isBreak)
  let e :=
    { e with
      registers := { e.registers with status := e.registers.status.set .interruptDisable } }
  let (address, e) := e.readVector vector
  e.goto address

/-- The vector of the maskable interrupt, which a software interrupt shares. -/
def maskableVector : UInt16 := 0xFFFE

/-- Pulls the flags. The interrupt mask keeps its value until the instruction
ends (`set_status_deferred`). -/
def pullStatus (e : Execution M) : Execution M :=
  let (byte, e) := e.pull
  let pulled := Status.ofByte byte
  let kept := e.registers.status.get .interruptDisable
  { e with
    registers := { e.registers with status := pulled.put .interruptDisable kept }
    newMask := some (pulled.get .interruptDisable) }

/-- Performs one action (`execute`). The address and the opcode are those of the
instruction, for notices. -/
def perform (e : Execution M) (address : UInt16) (opcode : UInt8) (instruction : Instruction) :
    Action → Execution M
  | .load f =>
    let (operand, e) := e.readOperand instruction.mode
    { e with registers := f e.registers operand }
  | .store f => e.storeOperand instruction.mode (f e.registers)
  | .modify f g =>
    let (result, e) := e.modifyOperand instruction.mode f
    { e with registers := g e.registers result }
  | .internal f => { e with registers := f e.registers }
  | .branch taken => e.branch (taken e.registers.status)
  | .mask disable => { e with newMask := some disable }
  | .push f => e.push (f e.registers)
  | .pull f =>
    let (byte, e) := e.pull
    { e with registers := f e.registers byte }
  | .pullStatus => e.pullStatus
  | .jump =>
    let target := e.resolve instruction.mode
    target.execution.goto target.address
  | .call =>
    let (target, e) := e.fetchWord
    (e.pushWord (e.registers.pc - 1)).goto target
  | .returnFromCall =>
    let (address, e) := e.pullWord
    e.goto (address + 1)
  | .softwareInterrupt => (e.skip 1).trap true maskableVector
  | .returnFromInterrupt =>
    let (byte, e) := e.pull
    let e := { e with registers := { e.registers with status := Status.ofByte byte } }
    let (address, e) := e.pullWord
    e.goto address
  | .idle =>
    -- with an indexed address the operand is read, and the page paid for
    if instruction.mode = .absoluteX then (e.readOperand instruction.mode).2
    else e.skip instruction.mode.operandBytes
  | .lockUp => { e with notices := e.notices.push (.jammed address opcode instruction) }
  | .skipStore =>
    { e with notices := e.notices.push (.unstable address opcode instruction) }.skip
      instruction.mode.operandBytes

end Execution

end VideoComputer
