/-
VideoComputer.Riot.Timer — the interval timer.

A program loads the counter with a byte and chooses how many processor cycles
pass between two decrements. When the counter is due for a decrement at 0 it
underflows: it wraps to 255, both flags are raised, and from then on it
counts every cycle, so that a program that comes late can see how late it is.

One flag is lowered when the flags are read or the timer is loaded; the other
one stays up until the next reset.
-/
import VideoComputer.Bits

namespace VideoComputer

/-- The interval timer. -/
structure IntervalTimer where
  counter : UInt8
  /-- Cycles between two decrements. -/
  interval : Nat
  /-- Cycles since the last decrement. -/
  prescaler : Nat
  /-- An underflow has happened since the flags were last read or the timer
  loaded. -/
  underflow : Bool
  /-- An underflow has happened since the last reset. -/
  everUnderflowed : Bool
  deriving DecidableEq, Repr

namespace IntervalTimer

/-- The timer at power-on, counting down from 255 every cycle. -/
def powerOn : IntervalTimer where
  counter := 0xFF
  interval := 1
  prescaler := 0
  underflow := false
  everUnderflowed := false

/-- The interval with a number below 4, the low two bits of a timer address
(`timer_interval`). -/
def intervalOf : Nat → Nat
  | 0 => 1
  | 1 => 8
  | 2 => 64
  | _ => 1024

/-- Starts to count from a value. -/
def load (t : IntervalTimer) (value : UInt8) (interval : Nat) : IntervalTimer :=
  { t with counter := value, interval, prescaler := 0, underflow := false }

/-- Decrements the counter, or underflows. -/
def decrement (t : IntervalTimer) : IntervalTimer :=
  if t.counter = 0 then
    { counter := 0xFF, interval := 1, prescaler := 0, underflow := true, everUnderflowed := true }
  else
    { t with counter := t.counter - 1, prescaler := 0 }

/-- One cycle passes. -/
def step (t : IntervalTimer) : IntervalTimer :=
  if t.prescaler + 1 < t.interval then { t with prescaler := t.prescaler + 1 } else t.decrement

/-- Several cycles pass. -/
def clock : (cycles : Nat) → IntervalTimer → IntervalTimer
  | 0, t => t
  | cycles + 1, t => clock cycles t.step

/-- The flags as a read yields them, in bits 7 and 6. -/
def flags (t : IntervalTimer) : UInt8 :=
  flagAt t.underflow 7 ||| flagAt t.everUnderflowed 6

/-- The timer after its flags were read. -/
def acknowledge (t : IntervalTimer) : IntervalTimer := { t with underflow := false }

end IntervalTimer

end VideoComputer
