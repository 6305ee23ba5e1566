/-
VideoComputer.Notice — what the machine reports about its own running.

Operations return the notices they give rise to, in order, next to their
result; nothing is printed here. A notice is a value, its severity and its
text are functions of it, and whoever collects notices decides which
severities to keep.
-/
import VideoComputer.Controls
import VideoComputer.Cpu.Instruction
import VideoComputer.Decoder
import VideoComputer.Hex

namespace VideoComputer

/-- How urgent a notice is. -/
inductive Severity where
  | warn
  | info
  | debug
  | trace
  deriving DecidableEq, Repr

namespace Severity

/-- Position in the order of severities, the most severe first. -/
def rank : Severity → Nat
  | .warn => 0
  | .info => 1
  | .debug => 2
  | .trace => 3

/-- Whether a notice of severity `s` belongs in a log that reaches down to
`level`. -/
def reaches (level s : Severity) : Bool := s.rank ≤ level.rank

/-- The name at the head of a log line. -/
def name : Severity → String
  | .warn => "WARN"
  | .info => "INFO"
  | .debug => "DEBUG"
  | .trace => "TRACE"

/-- The level a user asked for by name. -/
def ofName? : String → Option Severity
  | "warn" => some .warn
  | "info" => some .info
  | "debug" => some .debug
  | "trace" => some .trace
  | _ => none

end Severity

/-- Something worth reporting. -/
inductive Notice where
  /-- An instruction was fetched. -/
  | executing (address : UInt16) (opcode : UInt8) (instruction : Instruction)
  /-- The processor executed an opcode that locks it up. -/
  | jammed (address : UInt16) (opcode : UInt8) (instruction : Instruction)
  /-- A store without a reliable effect was passed over. -/
  | unstable (address : UInt16) (opcode : UInt8) (instruction : Instruction)
  /-- An interrupt is being serviced through the given vector. -/
  | servicing (vector : UInt16)
  /-- The horizontal counter was told to reset, which is not supported. -/
  | horizontalReset
  /-- A write to a video register that does not exist. -/
  | unusedVideoRegister (register : UInt16)
  /-- A complete frame is available. -/
  | framePublished
  /-- The interval timer was loaded. -/
  | timerSet (value : UInt8) (interval : Nat)
  /-- The edge detector, which is not supported, was addressed. -/
  | edgeDetect (address : UInt16)
  /-- A write went to a device that takes none, such as the cartridge. -/
  | writeIgnored (device : Device) (address : UInt16) (data : UInt8)
  /-- A cartridge image was accepted. -/
  | imageAccepted (name : String) (size : Nat)
  /-- A cartridge was put into the console. -/
  | cartridgeInserted (title : String)
  /-- The console was reset. -/
  | consoleReset
  /-- The console is to run so many frames, or without end. -/
  | running (frames : Option Nat)
  /-- A control changed. -/
  | input (event : InputEvent)
  deriving Repr

namespace Notice

/-- How urgent a notice is. -/
def severity : Notice → Severity
  | .jammed .. | .unstable .. => .warn
  | .cartridgeInserted _ | .consoleReset | .running _ => .info
  | .framePublished | .imageAccepted .. => .debug
  | .executing .. | .servicing _ | .horizontalReset | .unusedVideoRegister _ | .timerSet ..
  | .edgeDetect _ | .writeIgnored .. | .input _ => .trace

/-- The text of a notice. -/
def text : Notice → String
  | .executing address opcode i =>
    s!"${Hex.ofAddress address}: {Hex.ofByte opcode} {i.operation.mnemonic} {i.mode.name}"
  | .jammed address opcode i =>
    s!"Processor jammed by {i.operation.mnemonic} (${Hex.ofByte opcode})"
      ++ s!" at ${Hex.ofAddress address}"
  | .unstable address opcode i =>
    s!"Unstable opcode {i.operation.mnemonic} (${Hex.ofByte opcode}) at ${Hex.ofAddress address}"
      ++ " ignored"
  | .servicing vector => s!"Servicing interrupt through ${Hex.ofAddress vector}"
  | .horizontalReset => "RSYNC ignored"
  | .unusedVideoRegister register =>
    s!"Write to unused TIA register ${Hex.ofByte (register.toUInt8)} ignored"
  | .framePublished => "Frame published"
  | .timerSet value interval => s!"Timer set to {value} with an interval of {interval} cycles"
  | .edgeDetect address => s!"Edge detect control ${Hex.ofAddress address} ignored"
  | .writeIgnored device address data =>
    s!"Write ${Hex.ofByte data} to {device.name} (${Hex.ofAddress address}) ignored"
  | .imageAccepted name size => s!"Cartridge {name}: {size} bytes of ROM"
  | .cartridgeInserted title => s!"Cartridge inserted: {title}"
  | .consoleReset => "VCS reset"
  | .running (some frames) => s!"VCS running {frames} frames"
  | .running none => "VCS indefinitely running game"
  | .input event => s!"Input event: {event.text}"

/-- The line a log shows. -/
def line (n : Notice) : String := s!"{n.severity.name} {n.text}"

end Notice

end VideoComputer
