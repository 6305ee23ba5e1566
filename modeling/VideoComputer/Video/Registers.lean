/-
VideoComputer.Video.Registers — what a program has written to the video chip.

The registers keep values only; what they make the chip draw is in
`VideoComputer.Video.Scene`, and what a write does besides storing a value is
in `VideoComputer.Video.Write`.

Players and the ball have two graphics values each, a current and a delayed
one, so that a program can prepare a line before the beam reaches it. Which of
the two is shown is a register of its own.
-/
import VideoComputer.Video.Object
import VideoComputer.Video.Playfield

namespace VideoComputer

/-- The values held by the video chip's write registers. -/
structure VideoRegisters where
  verticalSync : Bool
  verticalBlank : Bool
  numberSize : PerPlayer NumberSize
  playerColor : PerPlayer UInt8
  playfieldColor : UInt8
  backgroundColor : UInt8
  control : PlayfieldControl
  /-- Whether a player is drawn mirrored. -/
  reflected : PerPlayer Bool
  playfield : Playfield
  graphics : PerPlayer UInt8
  delayedGraphics : PerPlayer UInt8
  missileEnabled : PerPlayer Bool
  ballEnabled : Bool
  delayedBallEnabled : Bool
  /-- Whether a player shows its delayed graphics. -/
  delayPlayer : PerPlayer Bool
  /-- Whether the ball shows its delayed enable bit. -/
  delayBall : Bool
  /-- Whether a missile is locked to its player, which hides it. -/
  missileLocked : PerPlayer Bool
  /-- How far each object moves to the left, from -8 to 7. -/
  motion : PerObject Int
  /-- The sound registers keep their values; no sound is made. -/
  audioControl : PerPlayer UInt8
  audioFrequency : PerPlayer UInt8
  audioVolume : PerPlayer UInt8
  deriving DecidableEq, Repr

namespace VideoRegisters

/-- Every register as if 0 had been written to it. -/
def powerOn : VideoRegisters where
  verticalSync := false
  verticalBlank := false
  numberSize := .both (.ofByte 0)
  playerColor := .both 0
  playfieldColor := 0
  backgroundColor := 0
  control := .ofByte 0
  reflected := .both false
  playfield := .empty
  graphics := .both 0
  delayedGraphics := .both 0
  missileEnabled := .both false
  ballEnabled := false
  delayedBallEnabled := false
  delayPlayer := .both false
  delayBall := false
  missileLocked := .both false
  motion := .all 0
  audioControl := .both 0
  audioFrequency := .both 0
  audioVolume := .both 0

/-- Whether nothing is drawn because of vertical sync or vertical blank. -/
def isBlanked (r : VideoRegisters) : Bool := r.verticalSync || r.verticalBlank

/-- The graphics byte a player shows (`player_graphics`). -/
def shownGraphics (r : VideoRegisters) (p : Player) : UInt8 :=
  if r.delayPlayer.get p then r.delayedGraphics.get p else r.graphics.get p

/-- Whether the ball is shown (`ball_enabled`). -/
def shownBall (r : VideoRegisters) : Bool :=
  if r.delayBall then r.delayedBallEnabled else r.ballEnabled

end VideoRegisters

end VideoComputer
