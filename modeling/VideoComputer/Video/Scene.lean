/-
VideoComputer.Video.Scene — what a line shows: registers and object positions
as a function from dots to colors.

A line is 228 dots long. The first 68 are the horizontal blank; dot `68 + c`
is column `c` of the picture, and object positions count dots, blank included.
An object is drawn from its position to the right and is cut off at the end of
the line.

* `Scene.dotAt` — which objects are present at a dot.
* `Scene.colorOf` — which of them is in front.
-/
import VideoComputer.Video.Collision
import VideoComputer.Video.Registers

namespace VideoComputer

/-- Dots in a line, the horizontal blank included. -/
def lineLength : Nat := 228

/-- Dots of the horizontal blank at the start of a line. -/
def blankLength : Nat := 68

/-- Everything that decides what a line looks like. -/
structure Scene where
  registers : VideoRegisters
  /-- The dot where each object starts. -/
  positions : PerObject Nat
  deriving DecidableEq, Repr

namespace Scene

/-- Registers at power-on values, every object at the left edge. -/
def powerOn : Scene where
  registers := .powerOn
  positions := .all blankLength

/-! ## Presence -/

/-- Whether the `i`th pixel of a player's graphics, from the left, is set.
Pixels come from the high bit down, or from the low bit up when reflected. -/
def graphicsPixel (graphics : UInt8) (reflected : Bool) (i : Nat) : Bool :=
  bitAt graphics (if reflected then i else 7 - i)

/-- Whether a copy of a player that starts at `start` covers a dot. -/
def copyCovers (graphics : UInt8) (reflected : Bool) (scale start x : Nat) : Bool :=
  start ≤ x && x < start + 8 * scale && graphicsPixel graphics reflected ((x - start) / scale)

/-- Whether a player covers a dot (`player_at`). -/
def playerAt (s : Scene) (p : Player) (x : Nat) : Bool :=
  let graphics := s.registers.shownGraphics p
  if graphics = 0 then false
  else
    let formation := (s.registers.numberSize.get p).formation
    let position := s.positions.player.get p
    formation.copies.any fun offset =>
      copyCovers graphics (s.registers.reflected.get p) formation.scale (position + offset) x

/-- Whether a missile covers a dot (`missile_at`). A missile that is locked to
its player is hidden. -/
def missileAt (s : Scene) (p : Player) (x : Nat) : Bool :=
  if s.registers.missileEnabled.get p && !s.registers.missileLocked.get p then
    let size := s.registers.numberSize.get p
    let position := s.positions.missile.get p
    size.formation.copies.any fun offset =>
      position + offset ≤ x && x < position + offset + size.missileSize
  else false

/-- Whether the ball covers a dot (`ball_at`). -/
def ballAt (s : Scene) (x : Nat) : Bool :=
  s.registers.shownBall && s.positions.ball ≤ x
    && x < s.positions.ball + s.registers.control.ballSize

/-- Whether the playfield covers a dot right of the horizontal blank. -/
def playfieldAt (s : Scene) (x : Nat) : Bool :=
  s.registers.playfield.isSet s.registers.control.reflect (x - blankLength)

/-- Everything present at a dot. -/
def dotAt (s : Scene) (x : Nat) : Dot where
  playfield := s.playfieldAt x
  ball := s.ballAt x
  player := ⟨s.playerAt .one x, s.playerAt .two x⟩
  missile := ⟨s.missileAt .one x, s.missileAt .two x⟩

/-! ## Color -/

/-- The color of playfield and ball at a dot. In score mode the playfield, but
not the ball alone, takes the color of the player whose half it is on. -/
def playfieldColorOf (s : Scene) (d : Dot) (x : Nat) : UInt8 :=
  let r := s.registers
  if r.control.score && d.playfield then
    if x - blankLength < 80 then r.playerColor.one else r.playerColor.two
  else r.playfieldColor

/-- The color register that shows at a dot: player one with its missile in front
of player two with its missile, in front of playfield and ball, in front of the
background (`dot_color`). With priority set, playfield and ball come first. -/
def colorOf (s : Scene) (d : Dot) (x : Nat) : UInt8 :=
  let r := s.registers
  let field := d.playfield || d.ball
  if r.control.priority && field then s.playfieldColorOf d x
  else if d.player.one || d.missile.one then r.playerColor.one
  else if d.player.two || d.missile.two then r.playerColor.two
  else if field then s.playfieldColorOf d x
  else r.backgroundColor

end Scene

end VideoComputer
