/-
VideoComputer.Controls — joysticks, fire buttons and console switches.

The host reports changes as `InputEvent`s. A `Controls` value is what is held
down right now, and the bytes that the two ports of the I/O chip show are
computed from it: most controls pull their line low while they are pressed,
a difficulty switch raises it in position A.
-/
import VideoComputer.Bits
import VideoComputer.Players

namespace VideoComputer

/-! ## Events -/

/-- A direction of a joystick. -/
inductive Direction where
  | up
  | down
  | left
  | right
  deriving DecidableEq, Repr

/-- A push switch on the console. -/
inductive Switch where
  | reset
  | select
  deriving DecidableEq, Repr

/-- The position of a difficulty switch: A is for advanced players, B for
beginners. -/
inductive Difficulty where
  | a
  | b
  deriving DecidableEq, Repr

/-- A change on one control. -/
inductive InputEvent where
  | joystick (player : Player) (direction : Direction) (pressed : Bool)
  | fire (player : Player) (pressed : Bool)
  | switch (which : Switch) (pressed : Bool)
  | difficulty (player : Player) (position : Difficulty)
  deriving DecidableEq, Repr

/-! ## Events in notices -/

/-- The player's name in a notice. -/
def Player.name : Player → String
  | .one => "One"
  | .two => "Two"

/-- The direction's name in a notice. -/
def Direction.name : Direction → String
  | .up => "Up"
  | .down => "Down"
  | .left => "Left"
  | .right => "Right"

/-- The switch's name in a notice. -/
def Switch.name : Switch → String
  | .reset => "Reset"
  | .select => "Select"

/-- The position's name in a notice. -/
def Difficulty.name : Difficulty → String
  | .a => "A"
  | .b => "B"

/-- A record as notices show it: its name, then its fields with their values
between braces. -/
def recordText (name : String) (fields : List (String × String)) : String :=
  let shown := fields.map fun (field, value) => field ++ ": " ++ value
  name ++ " \x7b " ++ ", ".intercalate shown ++ " \x7d"

/-- An event as notices show it. -/
def InputEvent.text : InputEvent → String
  | .joystick player direction pressed =>
    recordText "Joystick"
      [("player", player.name), ("direction", direction.name), ("pressed", toString pressed)]
  | .fire player pressed =>
    recordText "Fire" [("player", player.name), ("pressed", toString pressed)]
  | .switch which pressed =>
    recordText "Switch" [("switch", which.name), ("pressed", toString pressed)]
  | .difficulty player position =>
    recordText "Difficulty" [("player", player.name), ("difficulty", position.name)]

/-! ## What is held -/

/-- The directions of one joystick that are held. -/
structure Joystick where
  up : Bool
  down : Bool
  left : Bool
  right : Bool
  deriving DecidableEq, Repr

namespace Joystick

/-- A joystick at rest. -/
def released : Joystick := ⟨false, false, false, false⟩

/-- Holds or releases one direction. Opposite directions do not exclude each
other. -/
def set (j : Joystick) (direction : Direction) (pressed : Bool) : Joystick :=
  match direction with
  | .up => { j with up := pressed }
  | .down => { j with down := pressed }
  | .left => { j with left := pressed }
  | .right => { j with right := pressed }

/-- The four lines of a joystick as a nibble, a held direction being 1. -/
def nibble (j : Joystick) : Nat :=
  8 * j.right.toNat + 4 * j.left.toNat + 2 * j.down.toNat + j.up.toNat

end Joystick

/-- The state of every control. -/
structure Controls where
  joystick : PerPlayer Joystick
  fire : PerPlayer Bool
  resetHeld : Bool
  selectHeld : Bool
  difficulty : PerPlayer Difficulty
  deriving DecidableEq, Repr

namespace Controls

/-- Nothing held, both difficulty switches on B. -/
def released : Controls where
  joystick := .both .released
  fire := .both false
  resetHeld := false
  selectHeld := false
  difficulty := .both .b

/-- The controls after an event: the control it names takes the new position
and every other one stays. -/
def apply (c : Controls) : InputEvent → Controls
  | .joystick player direction pressed =>
    { c with
      joystick := c.joystick.set player ((c.joystick.get player).set direction pressed) }
  | .fire player pressed => { c with fire := c.fire.set player pressed }
  | .switch .reset pressed => { c with resetHeld := pressed }
  | .switch .select pressed => { c with selectHeld := pressed }
  | .difficulty player position =>
    { c with difficulty := c.difficulty.set player position }

/-- The lines of port A: player one's joystick on the high nibble, player two's
on the low one, a held direction low (`port_a`). -/
def portA (c : Controls) : UInt8 :=
  UInt8.ofNat (255 - (16 * c.joystick.one.nibble + c.joystick.two.nibble))

/-- The lines of port B: reset and select low while held, the color switch
always on color, a difficulty switch high in position A (`port_b`). The
remaining lines are not wired and read low. -/
def portB (c : Controls) : UInt8 :=
  flagAt (!c.resetHeld) 0 ||| flagAt (!c.selectHeld) 1 ||| flagAt true 3
    ||| flagAt (c.difficulty.one == .a) 6 ||| flagAt (c.difficulty.two == .a) 7

end Controls

end VideoComputer
