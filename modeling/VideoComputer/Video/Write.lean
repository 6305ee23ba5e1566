/-
VideoComputer.Video.Write — the write registers of the video chip and what a
write to each of them does.

Most writes store a value. The rest act at once: they position an object at
the beam, move all objects, clear the collision latches, or stall the program.

* `VideoRegister.decode` — the register behind an address; six address bits
  count.
* `Scene.write` — storing and positioning, which change what is drawn.
* `Tia.write` — every write.
-/
import VideoComputer.Notice
import VideoComputer.Video.Chip

namespace VideoComputer

/-! ## The register file -/

/-- A write register. -/
inductive VideoRegister where
  | verticalSync
  | verticalBlank
  /-- Any write stalls the program until the end of the line. -/
  | waitForLine
  | horizontalReset
  | numberSize (p : Player)
  | playerColor (p : Player)
  | playfieldColor
  | backgroundColor
  | control
  | reflect (p : Player)
  | playfield0
  | playfield1
  | playfield2
  /-- Any write moves the object to the beam. -/
  | position (o : Movable)
  | audioControl (p : Player)
  | audioFrequency (p : Player)
  | audioVolume (p : Player)
  | graphics (p : Player)
  | enableMissile (p : Player)
  | enableBall
  | motion (o : Movable)
  | delayPlayer (p : Player)
  | delayBall
  | lockMissile (p : Player)
  /-- Any write moves every object by its motion. -/
  | move
  /-- Any write sets all motions to 0. -/
  | clearMotion
  /-- Any write clears the collision latches. -/
  | clearCollisions
  /-- No register. -/
  | unused
  deriving DecidableEq, Repr

/-- The register with a number below 64, the low six bits of an address. -/
def VideoRegister.ofNumber : Nat → VideoRegister
  | 0x00 => .verticalSync
  | 0x01 => .verticalBlank
  | 0x02 => .waitForLine
  | 0x03 => .horizontalReset
  | 0x04 => .numberSize .one
  | 0x05 => .numberSize .two
  | 0x06 => .playerColor .one
  | 0x07 => .playerColor .two
  | 0x08 => .playfieldColor
  | 0x09 => .backgroundColor
  | 0x0A => .control
  | 0x0B => .reflect .one
  | 0x0C => .reflect .two
  | 0x0D => .playfield0
  | 0x0E => .playfield1
  | 0x0F => .playfield2
  | 0x10 => .position (.player .one)
  | 0x11 => .position (.player .two)
  | 0x12 => .position (.missile .one)
  | 0x13 => .position (.missile .two)
  | 0x14 => .position .ball
  | 0x15 => .audioControl .one
  | 0x16 => .audioControl .two
  | 0x17 => .audioFrequency .one
  | 0x18 => .audioFrequency .two
  | 0x19 => .audioVolume .one
  | 0x1A => .audioVolume .two
  | 0x1B => .graphics .one
  | 0x1C => .graphics .two
  | 0x1D => .enableMissile .one
  | 0x1E => .enableMissile .two
  | 0x1F => .enableBall
  | 0x20 => .motion (.player .one)
  | 0x21 => .motion (.player .two)
  | 0x22 => .motion (.missile .one)
  | 0x23 => .motion (.missile .two)
  | 0x24 => .motion .ball
  | 0x25 => .delayPlayer .one
  | 0x26 => .delayPlayer .two
  | 0x27 => .delayBall
  | 0x28 => .lockMissile .one
  | 0x29 => .lockMissile .two
  | 0x2A => .move
  | 0x2B => .clearMotion
  | 0x2C => .clearCollisions
  | _ => .unused

/-- The register a write to an address reaches. -/
def VideoRegister.decode (address : UInt16) : VideoRegister :=
  .ofNumber (address.toNat % 64)

/-! ## Storing values -/

namespace VideoRegisters

/-- Stores a player's graphics. The other player's delayed graphics follow its
current ones at this moment; for player two's register so does the ball's
delayed enable bit. -/
def writeGraphics (r : VideoRegisters) (p : Player) (data : UInt8) : VideoRegisters :=
  let other := p.other
  let r :=
    { r with
      graphics := r.graphics.set p data
      delayedGraphics := r.delayedGraphics.set other (r.graphics.get other) }
  match p with
  | .one => r
  | .two => { r with delayedBallEnabled := r.ballEnabled }

/-- Stores a byte in a register. Bits that are not wired are dropped, and a
register that stores nothing leaves all others alone. -/
def write (r : VideoRegisters) (register : VideoRegister) (data : UInt8) : VideoRegisters :=
  match register with
  | .verticalSync => { r with verticalSync := bitAt data 1 }
  | .verticalBlank => { r with verticalBlank := bitAt data 1 }
  | .numberSize p => { r with numberSize := r.numberSize.set p (.ofByte data) }
  | .playerColor p => { r with playerColor := r.playerColor.set p (data &&& 0xFE) }
  | .playfieldColor => { r with playfieldColor := data &&& 0xFE }
  | .backgroundColor => { r with backgroundColor := data &&& 0xFE }
  | .control => { r with control := .ofByte data }
  | .reflect p => { r with reflected := r.reflected.set p (bitAt data 3) }
  | .playfield0 => { r with playfield := { r.playfield with pf0 := data &&& 0xF0 } }
  | .playfield1 => { r with playfield := { r.playfield with pf1 := data } }
  | .playfield2 => { r with playfield := { r.playfield with pf2 := data } }
  | .audioControl p => { r with audioControl := r.audioControl.set p (data &&& 0x0F) }
  | .audioFrequency p => { r with audioFrequency := r.audioFrequency.set p (data &&& 0x1F) }
  | .audioVolume p => { r with audioVolume := r.audioVolume.set p (data &&& 0x0F) }
  | .graphics p => r.writeGraphics p data
  | .enableMissile p => { r with missileEnabled := r.missileEnabled.set p (bitAt data 1) }
  | .enableBall => { r with ballEnabled := bitAt data 1 }
  | .motion o => { r with motion := r.motion.set o (signedHighNibble data) }
  | .delayPlayer p => { r with delayPlayer := r.delayPlayer.set p (bitAt data 0) }
  | .delayBall => { r with delayBall := bitAt data 0 }
  | .lockMissile p => { r with missileLocked := r.missileLocked.set p (bitAt data 1) }
  | .clearMotion => { r with motion := .all 0 }
  | .waitForLine | .horizontalReset | .position _ | .move | .clearCollisions | .unused => r

end VideoRegisters

/-! ## Positioning -/

/-- A position that left the visible part of the line on either side comes back
on the other (`wrap_position`). One width of the picture is as far as a motion
can lead out. -/
def wrapPosition (position : Int) : Nat :=
  if (lineLength : Int) ≤ position then (position - 160).toNat
  else if position < blankLength then (position + 160).toNat
  else position.toNat

namespace Scene

/-- Moves a locked missile to the middle of its player (`lock_missile`). -/
def alignMissile (s : Scene) (p : Player) : Scene :=
  let offset := (s.registers.numberSize.get p).formation.lockOffset
  { s with positions := s.positions.set (.missile p) (s.positions.player.get p + offset) }

/-- Moves a missile to the middle of its player if it is locked to it. -/
def alignIfLocked (s : Scene) (p : Player) : Scene :=
  if s.registers.missileLocked.get p then s.alignMissile p else s

/-- Puts an object where the beam is, or at the left edge during the
horizontal blank. A player takes a locked missile with it. -/
def place (s : Scene) (beamX : Nat) (o : Movable) : Scene :=
  let placed := { s with positions := s.positions.set o (max beamX blankLength) }
  match o with
  | .player p => placed.alignIfLocked p
  | .missile _ | .ball => placed

/-- Moves an object by its motion. -/
def moveObject (s : Scene) (o : Movable) : Scene :=
  let position := wrapPosition ((s.positions.get o : Int) - s.registers.motion.get o)
  { s with positions := s.positions.set o position }

/-- Moves a missile: by its motion if it is free, with its player if it is
locked. -/
def moveMissile (s : Scene) (p : Player) : Scene :=
  if s.registers.missileLocked.get p then s.alignMissile p else s.moveObject (.missile p)

/-- Moves every object, the players before the missiles that may be locked to
them (`apply_horizontal_motion`). -/
def move (s : Scene) : Scene :=
  let s := (s.moveObject (.player .one)).moveObject (.player .two)
  let s := (s.moveMissile .one).moveMissile .two
  s.moveObject .ball

/-- A write as far as it concerns what is drawn, with the beam at dot
`beamX`. -/
def write (s : Scene) (beamX : Nat) (register : VideoRegister) (data : UInt8) : Scene :=
  match register with
  | .position o => s.place beamX o
  | .move => s.move
  | .lockMissile p =>
    { s with registers := s.registers.write (.lockMissile p) data }.alignIfLocked p
  | register => { s with registers := s.registers.write register data }

end Scene

/-! ## The chip -/

namespace Tia

/-- The chip after a write to one of its registers. -/
def writeRegister (register : VideoRegister) (data : UInt8) : Tia → Tia
  | ⟨scene, canvas, beam, waiting, fire, published⟩ =>
    match register with
    | .waitForLine => { scene, canvas, beam, waiting := true, fire, published }
    | .clearCollisions =>
      { scene, canvas := { canvas with collisions := .empty }, beam, waiting, fire, published }
    | register =>
      { scene := scene.write beam.x register data, canvas, beam, waiting, fire, published }

/-- The chip after a write to an address. -/
def write (t : Tia) (address : UInt16) (data : UInt8) : Tia :=
  writeRegister (.decode address) data t

/-- What there is to report about a write to an address. -/
def writeNotice? (address : UInt16) : Option Notice :=
  match VideoRegister.decode address with
  | .horizontalReset => some .horizontalReset
  | .unused => some (.unusedVideoRegister (address &&& 0x3F))
  | _ => none

end Tia

end VideoComputer
