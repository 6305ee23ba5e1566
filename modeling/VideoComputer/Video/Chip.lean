/-
VideoComputer.Video.Chip — the video chip: a beam that draws a scene dot by
dot while the program changes it.

There is no picture memory a program could fill. The chip draws what its
registers say at the moment the beam passes, so the picture is the trace of
the scenes that were in force along the beam's way. The frame kept here is
what a television would show.

* `Canvas.sweep` — a stretch of one line.
* `Tia.tick` — any number of dots, whole lines included, and the stall of a
  program that waits for the end of the line.

A line ends by setting the line counter to 0 during vertical sync or vertical
blank, and to the next of 262 lines otherwise. When the counter comes back to 0
the frame is complete and is published.
-/
import VideoComputer.Video.Frame
import VideoComputer.Video.Scene

namespace VideoComputer

/-! ## Drawing -/

/-- What the beam leaves behind: the picture and the latched collisions. -/
structure Canvas where
  frame : Frame
  collisions : Collisions
  deriving DecidableEq

namespace Canvas

/-- Before anything was drawn. -/
def blank : Canvas := ⟨.black, .empty⟩

/-- Draws one dot of line `y` (`render_dot`). -/
def draw (s : Scene) (y x : Nat) : Canvas → Canvas
  | ⟨frame, collisions⟩ =>
    let dot := s.dotAt x
    { frame := frame.set y (x - blankLength) (.ofColor (s.colorOf dot x))
      collisions := collisions.record dot }

/-- Draws `count` dots of line `y`, beginning with dot `x` (`render`). -/
def sweep (s : Scene) (y : Nat) : (count x : Nat) → Canvas → Canvas
  | 0, _, c => c
  | count + 1, x, c => sweep s y count (x + 1) (c.draw s y x)

/-- A stretch may be drawn in one go or in two. -/
theorem sweep_add (s : Scene) (y m n x : Nat) (c : Canvas) :
    c.sweep s y (m + n) x = (c.sweep s y m x).sweep s y n (x + m) := by
  induction m generalizing x c with
  | zero => rw [Nat.zero_add]; rfl
  | succ m ih =>
    rw [Nat.succ_add]
    show (c.draw s y x).sweep s y (m + n) (x + 1) = _
    rw [ih, Nat.add_right_comm, Nat.add_assoc]
    rfl

end Canvas

/-! ## The beam -/

/-- Where the beam is: dot `x` of line `y`. -/
structure Beam where
  x : Nat
  y : Nat
  deriving DecidableEq, Repr

/-- What the beam is doing. -/
inductive BeamState where
  | verticalSync
  | verticalBlank
  | horizontalBlank
  | visible
  deriving DecidableEq, Repr

/-- Lines in a picture. -/
def lineCount : Nat := 262

/-- The video chip. -/
structure Tia where
  scene : Scene
  canvas : Canvas
  beam : Beam
  /-- The program asked to be stalled until the line ends. -/
  waiting : Bool
  /-- Which fire buttons are held. -/
  fire : PerPlayer Bool
  /-- The last complete frame, if nobody has taken it yet. -/
  published : Option Frame

namespace Tia

/-- The chip at power-on. -/
def powerOn : Tia where
  scene := .powerOn
  canvas := .blank
  beam := ⟨0, 0⟩
  waiting := false
  fire := .both false
  published := none

/-- Back to power-on, except that held fire buttons stay held. -/
def reset (t : Tia) : Tia := { powerOn with fire := t.fire }

/-- What the beam is doing (`beam_state`). -/
def beamState (t : Tia) : BeamState :=
  if t.scene.registers.verticalSync then .verticalSync
  else if t.scene.registers.verticalBlank then .verticalBlank
  else if t.beam.x < blankLength then .horizontalBlank
  else .visible

/-- Whether a complete frame can be taken (`frame_ready`). -/
def frameReady (t : Tia) : Bool := t.published.isSome

/-- Hands out the last complete frame, at most once (`take_frame`). -/
def takeFrame (t : Tia) : Option Frame × Tia :=
  (t.published, { t with published := none })

/-! ## Reading -/

/-- A collision register. Only three address bits are decoded. -/
def read (t : Tia) (address : UInt16) : UInt8 :=
  t.canvas.collisions.register address

/-- An input port (`read_input`). Only the two fire buttons are connected; they
read as 0 in bit 7 while held. -/
def readInput (t : Tia) (address : UInt16) : UInt8 :=
  match address.toNat % 16 with
  | 0x0C => flagAt (!t.fire.one) 7
  | 0x0D => flagAt (!t.fire.two) 7
  | _ => 0

/-- Holds or releases a fire button (`set_fire_button`). -/
def setFire (t : Tia) (p : Player) (pressed : Bool) : Tia :=
  { t with fire := t.fire.set p pressed }

/-! ## Time -/

/-- Moves the beam to dot `stop` of its line and draws what it sweeps outside
the blanks. -/
def sweepTo (stop : Nat) : Tia → Tia
  | ⟨scene, canvas, beam, waiting, fire, published⟩ =>
    let first := max beam.x blankLength
    let canvas :=
      if scene.registers.isBlanked then canvas
      else canvas.sweep scene beam.y (stop - first) first
    { scene, canvas, beam := { beam with x := stop }, waiting, fire, published }

/-- The line counter after the current line ends. -/
def nextLine (t : Tia) : Nat :=
  if t.scene.registers.isBlanked then 0 else (t.beam.y + 1) % lineCount

/-- Whether the end of the current line completes a frame. -/
def completesFrame (t : Tia) : Bool := t.nextLine == 0 && t.beam.y != 0

/-- Ends the current line where it is: the beam returns to the left, and a frame
that is complete is published (`next_scanline`). -/
def endLine (t : Tia) : Tia :=
  { t with
    beam := ⟨0, t.nextLine⟩
    published := if t.completesFrame then some t.canvas.frame else t.published }

/-- Draws the rest of the current line and ends it. -/
def finishLine (t : Tia) : Tia := (t.sweepTo lineLength).endLine

/-- What a stretch of time does: the chip afterwards, for how many dots the
program was stalled, and how many frames were completed. -/
structure Progress where
  tia : Tia
  stall : Nat
  frames : Nat

/-- Finishes a number of lines. -/
def finishLines : (lines : Nat) → Tia → (frames : Nat) → Progress
  | 0, t, frames => ⟨t, 0, frames⟩
  | lines + 1, t, frames =>
    let frames := frames + t.completesFrame.toNat
    finishLines lines t.finishLine frames

/-- Grants a pending wait: the rest of the line passes while the program is
stalled, unless the line it waited for has ended already. -/
def releaseWait (t : Tia) (frames : Nat) (lineEnded : Bool) : Progress :=
  if !t.waiting then ⟨t, 0, frames⟩
  else if lineEnded then ⟨{ t with waiting := false }, 0, frames⟩
  else
    let stall := lineLength - t.beam.x
    let frames := frames + t.completesFrame.toNat
    ⟨{ t with waiting := false }.finishLine, stall, frames⟩

/-- Lets `dots` dots pass, and grants a pending wait after them (`tick`). -/
def tick (t : Tia) (dots : Nat) : Progress :=
  let stop := t.beam.x + dots
  let lines := stop / lineLength
  let ⟨t, _, frames⟩ := finishLines lines t 0
  (t.sweepTo (stop % lineLength)).releaseWait frames (lines != 0)

end Tia

end VideoComputer
