/-
VideoComputer.Riot.Chip — the I/O chip: 128 bytes of RAM, two ports and an
interval timer behind one select line.

One address bit tells RAM from everything else. Reads decode three more bits
and writes decode others, so the two have a table each: `RiotSource` names
what a read reaches and `RiotTarget` what a write reaches. Joysticks are on
port A, console switches on port B.
-/
import VideoComputer.Controls
import VideoComputer.Memory.Basic
import VideoComputer.Riot.Port
import VideoComputer.Riot.Timer

namespace VideoComputer

/-- One of the two ports. -/
inductive PortName where
  | a
  | b
  deriving DecidableEq, Repr

/-- What a read reaches. -/
inductive RiotSource where
  | ram (index : Fin 128)
  | pins (port : PortName)
  | direction (port : PortName)
  | counter
  | flags
  deriving DecidableEq, Repr

/-- What a write reaches. -/
inductive RiotTarget where
  | ram (index : Fin 128)
  | output (port : PortName)
  | direction (port : PortName)
  | timer (interval : Nat)
  /-- The edge detector, which is not supported. -/
  | edgeDetector
  deriving DecidableEq, Repr

/-- The byte of RAM an address stands for; seven address bits count. -/
def ramIndex (address : UInt16) : Fin 128 :=
  ⟨address.toNat % 128, Nat.mod_lt _ (by decide)⟩

/-- Whether an address selects RAM rather than ports and timer. -/
def selectsRam (address : UInt16) : Bool := !address.toNat.testBit 9

/-- What a read of an address reaches. -/
def RiotSource.decode (address : UInt16) : RiotSource :=
  if selectsRam address then .ram (ramIndex address)
  else
    match address.toNat % 8 with
    | 0 => .pins .a
    | 1 => .direction .a
    | 2 => .pins .b
    | 3 => .direction .b
    | 4 | 6 => .counter
    | _ => .flags

/-- What a write to an address reaches. Bits 2 and 4 together select the
timer. -/
def RiotTarget.decode (address : UInt16) : RiotTarget :=
  if selectsRam address then .ram (ramIndex address)
  else if address.toNat.testBit 2 then
    if address.toNat.testBit 4 then .timer (IntervalTimer.intervalOf (address.toNat % 4))
    else .edgeDetector
  else
    match address.toNat % 4 with
    | 0 => .output .a
    | 1 => .direction .a
    | 2 => .output .b
    | _ => .direction .b

/-- The I/O chip. -/
structure Riot where
  ram : Vector UInt8 128
  portA : Port
  portB : Port
  timer : IntervalTimer
  deriving DecidableEq

namespace Riot

/-- The chip at power-on with nothing held. -/
def powerOn : Riot where
  ram := .replicate 128 0
  portA := .released Controls.released.portA
  portB := .released Controls.released.portB
  timer := .powerOn

/-- Back to power-on, except that RAM keeps its bytes and the devices on the
ports keep driving what they drove. -/
def reset : Riot → Riot
  | ⟨ram, portA, portB, _⟩ =>
    { ram, portA := portA.reset, portB := portB.reset, timer := .powerOn }

/-- One of the ports. -/
def port (r : Riot) : PortName → Port
  | .a => r.portA
  | .b => r.portB

/-- Changes one of the ports. -/
def modifyPort (r : Riot) (name : PortName) (f : Port → Port) : Riot :=
  match name with
  | .a => { r with portA := f r.portA }
  | .b => { r with portB := f r.portB }

/-- Sets what the devices on a port drive (`set_port_a_pins`). -/
def setPins (r : Riot) (name : PortName) (pins : UInt8) : Riot :=
  r.modifyPort name fun p => { p with pins }

/-- Lets processor cycles pass. -/
def clock (cycles : Nat) : Riot → Riot
  | ⟨ram, portA, portB, timer⟩ => { ram, portA, portB, timer := timer.clock cycles }

/-! ## Reading and writing -/

/-- The byte a read yields. -/
def readSource (r : Riot) : RiotSource → UInt8
  | .ram index => r.ram[index]
  | .pins name => (r.port name).read
  | .direction name => (r.port name).direction
  | .counter => r.timer.counter
  | .flags => r.timer.flags

/-- The byte a read of an address yields. -/
def read (r : Riot) (address : UInt16) : UInt8 :=
  r.readSource (.decode address)

/-- The chip after a read: reading the timer's flags lowers one of them. -/
def afterRead (r : Riot) (address : UInt16) : Riot :=
  match RiotSource.decode address with
  | .flags => { r with timer := r.timer.acknowledge }
  | .ram _ | .pins _ | .direction _ | .counter => r

/-- The chip after a write. -/
def writeTarget (target : RiotTarget) (data : UInt8) : Riot → Riot
  | ⟨ram, portA, portB, timer⟩ =>
    match target with
    | .ram index => { ram := ram.set index data, portA, portB, timer }
    | .output .a => { ram, portA := { portA with output := data }, portB, timer }
    | .output .b => { ram, portA, portB := { portB with output := data }, timer }
    | .direction .a => { ram, portA := { portA with direction := data }, portB, timer }
    | .direction .b => { ram, portA, portB := { portB with direction := data }, timer }
    | .timer interval => { ram, portA, portB, timer := timer.load data interval }
    | .edgeDetector => { ram, portA, portB, timer }

/-- The chip after a write to an address. -/
def write (r : Riot) (address : UInt16) (data : UInt8) : Riot :=
  writeTarget (.decode address) data r

/-- What there is to report about a write to an address. -/
def writeNotice? (address : UInt16) (data : UInt8) : Option Notice :=
  match RiotTarget.decode address with
  | .timer interval => some (.timerSet data interval)
  | .edgeDetector => some (.edgeDetect address)
  | .ram _ | .output _ | .direction _ => none

instance : Memory Riot where
  read := read
  afterRead := afterRead
  write := write
  writeNotice? _ := writeNotice?

end Riot

end VideoComputer
