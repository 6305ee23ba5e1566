/-
VideoComputer.Video.Playfield — the fixed background pattern of a line.

Twenty bits cover the left half of a line, four pixels each. They come from
three registers that are drawn in alternating directions: the high nibble of
the first from its low bit up, the second from its high bit down, the third
from its low bit up. The right half repeats them, or mirrors them.
-/
import VideoComputer.Bits

namespace VideoComputer

/-! ## Control -/

/-- The content of the playfield control register. -/
structure PlayfieldControl where
  /-- The right half mirrors the left one. -/
  reflect : Bool
  /-- The playfield takes the players' colors, a half each. -/
  score : Bool
  /-- Playfield and ball are in front of players and missiles. -/
  priority : Bool
  /-- The ball is `2 ^ ballExponent` dots wide. -/
  ballExponent : Nat
  deriving DecidableEq, Repr

namespace PlayfieldControl

/-- What a byte written to the control register means. Bits 3, 6 and 7 have no
influence. -/
def ofByte (b : UInt8) : PlayfieldControl where
  reflect := bitAt b 0
  score := bitAt b 1
  priority := bitAt b 2
  ballExponent := twoBitsAt b 4

/-- The bits that the register keeps of what was written. -/
def toByte (c : PlayfieldControl) : UInt8 :=
  UInt8.ofNat (c.reflect.toNat + 2 * c.score.toNat + 4 * c.priority.toNat + 16 * c.ballExponent)

/-- How wide the ball is, in dots (`ball_size`). -/
def ballSize (c : PlayfieldControl) : Nat := 1 <<< c.ballExponent

end PlayfieldControl

/-! ## Pattern -/

/-- The three pattern registers. -/
structure Playfield where
  pf0 : UInt8
  pf1 : UInt8
  pf2 : UInt8
  deriving DecidableEq, Repr

namespace Playfield

/-- An empty pattern. -/
def empty : Playfield := ⟨0, 0, 0⟩

/-- Bit `index` of the twenty, from left to right on the left half. -/
def patternBit (p : Playfield) (index : Nat) : Bool :=
  if index < 4 then bitAt p.pf0 (4 + index)
  else if index < 12 then bitAt p.pf1 (11 - index)
  else bitAt p.pf2 (index - 12)

/-- Which of the twenty bits a pixel of the line shows. -/
def patternIndex (reflect : Bool) (pixel : Nat) : Nat :=
  let index := pixel % 80 / 4
  if 80 ≤ pixel && reflect then 19 - index else index

/-- Every pixel shows one of the twenty bits. -/
theorem patternIndex_lt (reflect : Bool) (pixel : Nat) : patternIndex reflect pixel < 20 := by
  simp only [patternIndex]
  split <;> omega

/-- Whether the pattern is set at a pixel of the line (`playfield_bit`). -/
def isSet (p : Playfield) (reflect : Bool) (pixel : Nat) : Bool :=
  p.patternBit (patternIndex reflect pixel)

end Playfield

end VideoComputer
