/-
VideoComputer.Cpu.Machine — the processor with its memory: one instruction at
a time, interrupts and reset.

`Machine.step` executes exactly one instruction and then polls the interrupt
lines. The poll sees the interrupt mask as it was before an instruction that
changes it late (clear, set and pull of the flag), and the mask that such an
instruction asked for takes effect between the poll and the service, so it is
part of the flags that a service saves.

The non-maskable request wins over the maskable one, and one service answers
both.
-/
import VideoComputer.Cpu.Execution
import VideoComputer.Cpu.Opcode
import VideoComputer.Failure

namespace VideoComputer

/-! ## Interrupts -/

/-- An interrupt line. -/
inductive Interrupt where
  | maskable
  | nonMaskable
  deriving DecidableEq, Repr

/-- Where the handler's address is kept. -/
def Interrupt.vector : Interrupt → UInt16
  | .maskable => Execution.maskableVector
  | .nonMaskable => 0xFFFA

/-- The requests that have not been serviced yet. A line remembers that it
was raised, not how often. -/
structure Requests where
  maskable : Bool
  nonMaskable : Bool
  deriving DecidableEq, Repr

namespace Requests

/-- No request. -/
def none : Requests := ⟨false, false⟩

/-- The requests after a line is raised. -/
def raise (r : Requests) : Interrupt → Requests
  | .maskable => { r with maskable := true }
  | .nonMaskable => { r with nonMaskable := true }

/-- The interrupt to service, if any, given the mask. -/
def accepted? (r : Requests) (masked : Bool) : Option Interrupt :=
  if r.nonMaskable then some .nonMaskable
  else if r.maskable && !masked then some .maskable
  else Option.none

end Requests

namespace Execution

variable {M : Type} [Memory M]

/-- Cycles spent on saving state and fetching the vector of an interrupt. -/
def interruptCycles : Nat := 7

/-- Puts a late change of the interrupt mask into effect. -/
def settleMask (e : Execution M) : Execution M :=
  match e.newMask with
  | none => e
  | some disable =>
    { e with
      newMask := none
      registers :=
        { e.registers with status := e.registers.status.put .interruptDisable disable } }

/-- Enters the handler of an interrupt. -/
def service (e : Execution M) (interrupt : Interrupt) : Execution M :=
  let e := { e with notices := e.notices.push (.servicing interrupt.vector) }
  (e.spend interruptCycles).trap false interrupt.vector

/-- Ends an instruction: decides on the requests with the mask as it stands,
lets a late change of the mask take effect, and services what was accepted
(`poll_interrupts`). Gives the requests that remain. -/
def poll (e : Execution M) (requests : Requests) : Execution M × Requests :=
  match requests.accepted? (e.registers.status.get .interruptDisable) with
  | none => (e.settleMask, requests)
  | some interrupt => (e.settleMask.service interrupt, Requests.none)

end Execution

/-! ## The machine -/

/-- The processor between two instructions. -/
structure Cpu where
  registers : Registers
  /-- Whether the processor has the decimal circuit. Fixed when it is built. -/
  decimalMode : Bool
  requests : Requests
  deriving DecidableEq, Repr

/-- A processor and the memory it is connected to. -/
structure Machine (M : Type) where
  cpu : Cpu
  memory : M

/-- What one instruction leaves, costs and reports. -/
structure Outcome (M : Type) where
  machine : Machine M
  cycles : Nat
  notices : Array Notice

namespace Machine

variable {M : Type} [Memory M]

/-- Where the address of the first instruction is kept. -/
def resetVector : UInt16 := 0xFFFC

/-- Clears the registers and all requests and continues where the reset vector
points. -/
def reset : Machine M → Machine M
  | ⟨cpu, memory⟩ =>
    let cleared : Registers :=
      { a := 0, x := 0, y := 0, sp := 0xFD, pc := resetVector, status := .powerOn }
    let (address, e) := (Execution.start cleared memory).readVector resetVector
    let e := e.goto address
    { cpu := { cpu with registers := e.registers, requests := .none }, memory := e.memory }

/-- A processor built onto a memory, which resets it. -/
def powerOn (decimalMode : Bool) (memory : M) : Machine M :=
  let registers : Registers :=
    { a := 0, x := 0, y := 0, sp := 0, pc := 0, status := .powerOn }
  reset { cpu := { registers, decimalMode, requests := .none }, memory }

/-- A processor built onto whatever memory there is. -/
def build (decimalMode : Bool) (memory? : Option M) : Except Failure (Machine M) :=
  match memory? with
  | some memory => .ok (powerOn decimalMode memory)
  | none => .error .missingMemory

/-- Raises an interrupt line. The request is looked at when the next
instruction ends. -/
def interrupt (m : Machine M) (line : Interrupt) : Machine M :=
  { m with cpu := { m.cpu with requests := m.cpu.requests.raise line } }

/-- Fetches one instruction and performs it, without polling interrupts. -/
def execute (cpu : Cpu) (memory : M) : Execution M :=
  let address := cpu.registers.pc
  let (opcode, e) := (Execution.start cpu.registers memory).fetch
  let instruction := Opcode.decode opcode
  let e :=
    { e with
      cycles := instruction.cycles
      notices := e.notices.push (.executing address opcode instruction) }
  e.perform address opcode instruction (instruction.operation.action cpu.decimalMode)

/-- Executes one instruction and services at most one interrupt after it
(`run_instruction`). -/
def step : Machine M → Outcome M
  | ⟨cpu, memory⟩ =>
    let (e, requests) := (execute cpu memory).poll cpu.requests
    { machine := { cpu := { cpu with registers := e.registers, requests }, memory := e.memory }
      cycles := e.cycles
      notices := e.notices }

/-- The status byte that is shown of a machine. -/
def statusByte (m : Machine M) : UInt8 := m.cpu.registers.status.shown

end Machine

end VideoComputer
