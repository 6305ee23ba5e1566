/-
VideoComputer.Riot.Port — eight lines that are read and driven bit by bit.

A program chooses for each line whether it drives it, and what it drives; the
devices plugged in pull lines low. A line reads high only if nobody pulls it
low.
-/
import VideoComputer.Bits

namespace VideoComputer

/-- A port. -/
structure Port where
  /-- What the program drives. -/
  output : UInt8
  /-- Which lines the program drives: 1 for output, 0 for input. -/
  direction : UInt8
  /-- What the devices drive. -/
  pins : UInt8
  deriving DecidableEq, Repr

namespace Port

/-- A port with no line driven by the program. -/
def released (pins : UInt8) : Port := ⟨0, 0, pins⟩

/-- What a read of the port yields: a line is low if a device pulls it low, or
if it is an output that is driven low. -/
def read (p : Port) : UInt8 := (p.output ||| ~~~p.direction) &&& p.pins

/-- A program that drives a line can pull it low, but not hold it up. -/
theorem bitAt_read (p : Port) {n : Nat} (hn : n < 8) :
    bitAt p.read n = ((bitAt p.output n || !bitAt p.direction n) && bitAt p.pins n) := by
  rw [read, bitAt_and, bitAt_or, bitAt_not _ hn]

/-- The port after a reset: the program lets go of every line, the devices do
not. -/
def reset (p : Port) : Port := released p.pins

end Port

end VideoComputer
