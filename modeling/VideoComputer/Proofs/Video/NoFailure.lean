/-
VideoComputer.Proofs.Video.NoFailure — the video chip never fails.

The chip in words of a fixed size, with a check at every step that could go wrong:
sums and differences, shifts, and places in lists and on the picture. Time passes
in rounds, each of which draws what is left of the line or of the time, for as long
as there is time left; nothing says beforehand that this comes to an end. Where a
check fails, and where the rounds go on for ever, there is no result.

There always is one, and it is that of the chip without checks.

* `Scene.write?_eq` — a write, under the bounds of `Scene.FitsWords`, which it
  keeps.
* `Tia.round?_eq` — one round.
* `Tia.advance?_eq` — the rounds come to an end, and are the dots in a row.
* `Tia.never_fails` — any calls in any order.
-/
import Mathlib.Algebra.Group.Int.Defs
import Mathlib.Data.PFun
import VideoComputer.Proofs.Video.Checked

namespace VideoComputer

/-! ## Signed words -/

/-- A result of arithmetic on signed words of so many bits. -/
def signed? (bits : Nat) (exact : Int) : Option Int :=
  if -2 ^ (bits - 1) ≤ exact ∧ exact < 2 ^ (bits - 1) then some exact else none

/-- A word read as a signed one. -/
def asSigned (bits n : Nat) : Int := Int.bmod n (2 ^ bits)

/-- A signed word read as an unsigned one. -/
def asUnsigned (bits : Nat) (i : Int) : Nat := (i % 2 ^ bits).toNat

/-- Numbers that fit into a signed word are kept, -/
theorem signed?_of_mem {i : Int} (h : -32768 ≤ i) (h' : i < 32768) : signed? 16 i = some i :=
  if_pos ⟨h, h'⟩

/-- those below half of its range as they are, -/
theorem asSigned_of_lt {n : Nat} (h : n < 32768) : asSigned 16 n = n := by
  rw [asSigned]
  exact Int.bmod_eq_of_le (by omega) (by omega)

/-- and so they come back. -/
theorem asUnsigned_of_nonneg {i : Int} (h : 0 ≤ i) (h' : i < 65536) :
    asUnsigned 16 i = i.toNat := by
  rw [asUnsigned, Int.emod_eq_of_lt h (by omega)]

/-! ## Registers -/

/-- The player whose register it is, from its number and that of the first one. -/
def Player.ofRegister? (number first : Nat) : Option Player := (sub? number first).bind ofIndex?

/-- The object with a number. -/
def Movable.ofIndex? (index : Nat) : Option Movable :=
  [Movable.player .one, .player .two, .missile .one, .missile .two, .ball][index]?

/-- The register with a number below 64. Registers of one kind follow each other, and
which of them it is, is found by their distance. -/
def VideoRegister.ofNumber? (n : Nat) : Option VideoRegister :=
  match n with
  | 0x00 => some .verticalSync
  | 0x01 => some .verticalBlank
  | 0x02 => some .waitForLine
  | 0x03 => some .horizontalReset
  | 0x04 | 0x05 => (Player.ofRegister? n 0x04).map .numberSize
  | 0x06 | 0x07 => (Player.ofRegister? n 0x06).map .playerColor
  | 0x08 => some .playfieldColor
  | 0x09 => some .backgroundColor
  | 0x0A => some .control
  | 0x0B | 0x0C => (Player.ofRegister? n 0x0B).map .reflect
  | 0x0D => some .playfield0
  | 0x0E => some .playfield1
  | 0x0F => some .playfield2
  | 0x10 | 0x11 => (Player.ofRegister? n 0x10).map fun p => .position (.player p)
  | 0x12 | 0x13 =>
    ((sub? n 0x12).bind fun missile => Movable.ofIndex? (2 + missile)).map .position
  | 0x14 => some (.position .ball)
  | 0x15 | 0x16 => (Player.ofRegister? n 0x15).map .audioControl
  | 0x17 | 0x18 => (Player.ofRegister? n 0x17).map .audioFrequency
  | 0x19 | 0x1A => (Player.ofRegister? n 0x19).map .audioVolume
  | 0x1B => some (.graphics .one)
  | 0x1C => some (.graphics .two)
  | 0x1D | 0x1E => (Player.ofRegister? n 0x1D).map .enableMissile
  | 0x1F => some .enableBall
  | 0x20 | 0x21 | 0x22 | 0x23 | 0x24 => ((sub? n 0x20).bind Movable.ofIndex?).map .motion
  | 0x25 | 0x26 => (Player.ofRegister? n 0x25).map .delayPlayer
  | 0x27 => some .delayBall
  | 0x28 | 0x29 => (Player.ofRegister? n 0x28).map .lockMissile
  | 0x2A => some .move
  | 0x2B => some .clearMotion
  | 0x2C => some .clearCollisions
  | _ => some .unused

/-- A register's number has six bits, so it is found in the table. -/
theorem VideoRegister.ofNumber?_eq {n : Nat} (h : n < 64) : ofNumber? n = some (ofNumber n) := by
  have hall : ∀ n : Fin 64, ofNumber? n = some (ofNumber n) := by decide
  exact hall ⟨n, h⟩

theorem twoBitsAt_lt (b : UInt8) (n : Nat) : twoBitsAt b n < 4 := Nat.mod_lt _ (by decide)

theorem VideoRegisters.sizesFit_powerOn : powerOn.SizesFit where
  missileSize p := by cases p <;> decide
  ballExponent := by decide

/-- A write stores no size that does not fit. -/
theorem VideoRegisters.sizesFit_write {r : VideoRegisters} (h : r.SizesFit)
    (register : VideoRegister) (data : UInt8) : (r.write register data).SizesFit := by
  cases register with
  | numberSize q =>
    refine ⟨?_, h.ballExponent⟩
    intro p
    simp only [write, PerPlayer.get_set]
    split
    · exact one_shiftLeft_le (twoBitsAt_lt data 4)
    · exact h.missileSize p
  | control => exact ⟨h.missileSize, twoBitsAt_lt data 4⟩
  | graphics q => cases q <;> exact ⟨h.missileSize, h.ballExponent⟩
  | _ => exact ⟨h.missileSize, h.ballExponent⟩

/-! ## Positions -/

/-- A position that left the line on either side comes back on the other. -/
def wrapPosition? (position : Int) : Option Nat :=
  if (lineLength : Int) ≤ position then (signed? 16 (position - 160)).map (asUnsigned 16)
  else if position < blankLength then (signed? 16 (position + 160)).map (asUnsigned 16)
  else some (asUnsigned 16 position)

/-- What a motion can make of a position fits into a signed word. -/
theorem wrapPosition?_eq {i : Int} (h : -92 ≤ i) (h' : i < 388) :
    wrapPosition? i = some (wrapPosition i) := by
  have hline : lineLength = 228 := rfl
  have hblank : blankLength = 68 := rfl
  unfold wrapPosition? wrapPosition
  split
  · rw [signed?_of_mem (by omega) (by omega), Option.map_some,
      asUnsigned_of_nonneg (by omega) (by omega)]
  · split
    · rw [signed?_of_mem (by omega) (by omega), Option.map_some,
        asUnsigned_of_nonneg (by omega) (by omega)]
    · rw [asUnsigned_of_nonneg (by omega) (by omega)]

namespace Scene

/-- Moves a locked missile to the middle of its player. -/
def alignMissile? (s : Scene) (p : Player) : Option Scene := do
  let position ← add? 16 (s.positions.player.get p)
    (s.registers.numberSize.get p).formation.lockOffset
  some { s with positions := s.positions.set (.missile p) position }

/-- Moves a missile to the middle of its player if it is locked to it. -/
def alignIfLocked? (s : Scene) (p : Player) : Option Scene :=
  if s.registers.missileLocked.get p then s.alignMissile? p else some s

/-- Puts an object where the beam is. -/
def place? (s : Scene) (beamX : Nat) (o : Movable) : Option Scene :=
  let placed := { s with positions := s.positions.set o (max beamX blankLength) }
  match o with
  | .player p => placed.alignIfLocked? p
  | .missile _ | .ball => some placed

/-- Moves an object by its motion. -/
def moveObject? (s : Scene) (o : Movable) : Option Scene := do
  let moved ← signed? 16 (asSigned 16 (s.positions.get o) - s.registers.motion.get o)
  let position ← wrapPosition? moved
  some { s with positions := s.positions.set o position }

/-- Moves a missile: by its motion if it is free, with its player if it is
locked. -/
def moveMissile? (s : Scene) (p : Player) : Option Scene :=
  if s.registers.missileLocked.get p then s.alignMissile? p else s.moveObject? (.missile p)

/-- Moves every object. -/
def move? (s : Scene) : Option Scene := do
  let s ← s.moveObject? (.player .one)
  let s ← s.moveObject? (.player .two)
  let s ← s.moveMissile? .one
  let s ← s.moveMissile? .two
  s.moveObject? .ball

/-- A write as far as it concerns what is drawn. -/
def write? (s : Scene) (beamX : Nat) (register : VideoRegister) (data : UInt8) : Option Scene :=
  match register with
  | .position o => s.place? beamX o
  | .move => s.move?
  | .lockMissile p =>
    { s with registers := s.registers.write (.lockMissile p) data }.alignIfLocked? p
  | register => some { s with registers := s.registers.write register data }

theorem fitsWords_powerOn : powerOn.FitsWords :=
  ⟨inBounds_powerOn, VideoRegisters.sizesFit_powerOn⟩

/-- A write keeps the scene within its words. -/
theorem fitsWords_write {s : Scene} (h : s.FitsWords) {x : Nat} (hx : x < lineLength)
    (r : VideoRegister) (data : UInt8) : (s.write x r data).FitsWords where
  inBounds := inBounds_write h.inBounds hx r data
  sizes := by
    rw [registers_write]
    exact VideoRegisters.sizesFit_write h.sizes r data

section

variable {s : Scene} (h : s.FitsWords)

include h

/-- An object may be put anywhere in its reach. -/
theorem FitsWords.put {o : Movable} {position : Nat} (hposition : blankLength ≤ position)
    (hreach : position < reach o) :
    ({ s with positions := s.positions.set o position } : Scene).FitsWords := by
  refine ⟨⟨h.inBounds.motion, ?_⟩, h.sizes⟩
  intro o'
  simp only [PerObject.get_set]
  split
  next heq => rw [heq]; exact ⟨hposition, hreach⟩
  next => exact h.inBounds.position o'

/-- A missile is aligned without failure, -/
theorem alignMissile?_eq (p : Player) :
    s.alignMissile? p = some (s.alignMissile p) ∧ (s.alignMissile p).FitsWords := by
  have hplayer : blankLength ≤ s.positions.player.get p ∧ s.positions.player.get p < lineLength :=
    h.inBounds.position (.player p)
  have hline : lineLength = 228 := rfl
  have hoffset := (s.registers.numberSize.get p).formation.lockOffset_le
  constructor
  · simp only [alignMissile?, Option.bind_eq_bind]
    rw [add?_of_lt (by omega)]
    rfl
  · exact h.put (o := .missile p) (by omega) (by simp only [reach]; omega)

/-- whether or not it is locked, -/
theorem alignIfLocked?_eq (p : Player) : s.alignIfLocked? p = some (s.alignIfLocked p) := by
  unfold alignIfLocked? alignIfLocked
  split
  · exact (alignMissile?_eq h p).1
  · rfl

/-- an object is placed, -/
theorem place?_eq {x : Nat} (hx : x < lineLength) (o : Movable) :
    s.place? x o = some (s.place x o) := by
  cases o with
  | player p =>
    have hblank : blankLength < lineLength := by decide
    exact alignIfLocked?_eq
      (h.put (o := .player p) (Nat.le_max_right _ _) (Nat.max_lt.mpr ⟨hx, hblank⟩)) p
  | missile p => rfl
  | ball => rfl

/-- and moved, -/
theorem moveObject?_eq (o : Movable) :
    s.moveObject? o = some (s.moveObject o) ∧ (s.moveObject o).FitsWords := by
  have hmotion := h.inBounds.motion o
  have hposition := h.position o
  have hblank : blankLength = 68 := rfl
  have hreach : lineLength ≤ reach o := by cases o <;> simp [reach]
  have hwrapped := wrapPosition_onScreen
    (i := (s.positions.get o : Int) - s.registers.motion.get o) (by omega) (by omega)
  constructor
  · simp only [moveObject?, Option.bind_eq_bind]
    rw [asSigned_of_lt (by omega), signed?_of_mem (by omega) (by omega), Option.bind_some,
      wrapPosition?_eq (by omega) (by omega)]
    rfl
  · exact h.put hwrapped.1 (Nat.lt_of_lt_of_le hwrapped.2 hreach)

/-- and so is a missile, locked or not, -/
theorem moveMissile?_eq (p : Player) :
    s.moveMissile? p = some (s.moveMissile p) ∧ (s.moveMissile p).FitsWords := by
  unfold moveMissile? moveMissile
  split
  · exact alignMissile?_eq h p
  · exact moveObject?_eq h (.missile p)

/-- and all objects, one after the other. -/
theorem move?_eq : s.move? = some s.move := by
  obtain ⟨hplayer, h⟩ := moveObject?_eq h (.player .one)
  obtain ⟨hplayer', h⟩ := moveObject?_eq h (.player .two)
  obtain ⟨hmissile, h⟩ := moveMissile?_eq h .one
  obtain ⟨hmissile', h⟩ := moveMissile?_eq h .two
  simp only [move?, Option.bind_eq_bind]
  rw [hplayer, Option.bind_some, hplayer', Option.bind_some, hmissile, Option.bind_some,
    hmissile', Option.bind_some, (moveObject?_eq h .ball).1]
  rfl

/-- So no write fails on what is drawn. -/
theorem write?_eq {x : Nat} (hx : x < lineLength) (r : VideoRegister) (data : UInt8) :
    s.write? x r data = some (s.write x r data) := by
  cases r with
  | position o => exact place?_eq h hx o
  | move => exact move?_eq h
  | lockMissile p =>
    have hlocked : ({ s with
        registers := s.registers.write (.lockMissile p) data } : Scene).FitsWords :=
      ⟨⟨h.inBounds.motion, h.inBounds.position⟩,
        VideoRegisters.sizesFit_write h.sizes (.lockMissile p) data⟩
    exact alignIfLocked?_eq hlocked p
  | _ => rfl

end

end Scene

/-! ## Reading -/

/-- The byte read from a collision register. -/
def Collisions.register? (c : Collisions) (number : UInt16) : Option UInt8 := do
  let first ← mul? 16 2 (number.toNat % 8)
  let amount ← shiftAmount? 16 first
  let pair := truncate 8 (c.bits.toNat >>> amount) % 4
  some (flagAt (pair.testBit 0) 7 ||| flagAt (pair.testBit 1) 6)

/-- The bits of a collision register are found. -/
theorem Collisions.register?_eq (c : Collisions) (number : UInt16) :
    c.register? number = some (c.register number) := by
  have hpair (n : Nat) : truncate 8 n % 4 = n % 2 ^ 2 := by
    rw [truncate]
    omega
  simp only [register?, Option.bind_eq_bind]
  rw [mul?_of_lt (by omega), Option.bind_some, shiftAmount?_of_lt (by omega), Option.bind_some,
    hpair]
  simp only [Nat.testBit_mod_two_pow, Nat.testBit_shiftRight, register]
  rfl

namespace Tia

/-- A collision register. -/
def read? (t : Tia) (address : UInt16) : Option UInt8 := t.canvas.collisions.register? address

/-- An input port. -/
def readInput? (t : Tia) (address : UInt16) : Option UInt8 :=
  match address.toNat % 16 with
  | 0x0C => (Player.ofIndex? 0).map fun p => flagAt (!t.fire.get p) 7
  | 0x0D => (Player.ofIndex? 1).map fun p => flagAt (!t.fire.get p) 7
  | _ => some 0

/-- Holds or releases the fire button with a number. -/
def setFire? (t : Tia) (index : Nat) (pressed : Bool) : Option Tia :=
  (Player.ofIndex? index).map fun p => t.setFire p pressed

theorem read?_eq (t : Tia) (address : UInt16) : t.read? address = some (t.read address) :=
  t.canvas.collisions.register?_eq address

theorem readInput?_eq (t : Tia) (address : UInt16) :
    t.readInput? address = some (t.readInput address) := by
  unfold readInput? readInput
  generalize address.toNat % 16 = port
  by_cases hone : port = 0x0C
  · subst hone
    rfl
  · by_cases htwo : port = 0x0D
    · subst htwo
      rfl
    · simp only

/-! ## Time -/

/-- Draws what the beam sweeps in so many dots, without moving it. A stretch whose end
is before its beginning is empty. -/
def render? (t : Tia) (span : Nat) : Option Tia :=
  if t.scene.registers.isBlanked then some t
  else do
    let first := max t.beam.x blankLength
    let stop ← add? 16 t.beam.x span
    let canvas ← t.canvas.sweep? t.scene t.beam.y (min stop lineLength - first) first
    some { t with canvas }

/-- The line counter after the current line ends. -/
def nextLine? (t : Tia) : Option Nat :=
  if t.scene.registers.isBlanked then some 0
  else (add? 16 t.beam.y 1).map (· % lineCount)

/-- Ends the current line where it is. -/
def endLine? (t : Tia) : Option Tia := do
  let y ← t.nextLine?
  some { t with
    beam := ⟨0, y⟩
    published := if y == 0 && t.beam.y != 0 then some t.canvas.frame else t.published }

/-- What a round leaves: the chip, the dots that remain, and whether the line ended. -/
structure Round where
  tia : Tia
  remaining : Nat
  lineEnded : Bool

/-- Draws the rest of the line, or as much of it as there is time for. -/
def round? (t : Tia) (remaining : Nat) : Option Round := do
  let left ← sub? lineLength t.beam.x
  let span := truncate 16 (min remaining left)
  let t ← t.render? span
  let x ← add? 16 t.beam.x span
  let t := { t with beam := { t.beam with x } }
  let remaining ← sub? remaining span
  if lineLength ≤ x then t.endLine?.map fun t => ⟨t, remaining, true⟩
  else some ⟨t, remaining, false⟩

/-- One time round the loop, which ends when no dots remain. -/
def loop? : Tia × Nat × Bool →. (Tia × Bool) ⊕ (Tia × Nat × Bool)
  | (t, remaining, lineEnded) =>
    if remaining = 0 then .some (.inl (t, lineEnded))
    else
      (Part.ofOption (t.round? remaining)).map fun r =>
        .inr (r.tia, r.remaining, lineEnded || r.lineEnded)

/-- Goes round the loop until it ends. Gives the chip, and whether a line ended. There
is no result if there is no end to it. -/
def advance? (t : Tia) (remaining : Nat) (lineEnded : Bool) : Part (Tia × Bool) :=
  PFun.fix loop? (t, remaining, lineEnded)

/-- Grants a pending wait. Gives the chip, and for how many dots the program was
stalled. -/
def releaseWait? (t : Tia) (lineEnded : Bool) : Option (Tia × Nat) :=
  if !t.waiting then some (t, 0)
  else if lineEnded then some ({ t with waiting := false }, 0)
  else do
    let stall ← sub? lineLength t.beam.x
    let t ← { t with waiting := false }.render? stall
    let t ← t.endLine?
    some (t, stall)

/-- Lets dots pass, and grants a pending wait after them. -/
def tick? (t : Tia) (dots : Nat) : Part (Tia × Nat) :=
  (t.advance? dots false).bind fun (t, lineEnded) => .ofOption (t.releaseWait? lineEnded)

/-- With nothing left to advance, the loop ends, -/
theorem advance?_zero (t : Tia) (lineEnded : Bool) :
    t.advance? 0 lineEnded = .some (t, lineEnded) :=
  Part.eq_some_iff.mpr (PFun.fix_stop (Part.mem_some _))

/-- and otherwise it goes on behind its first round. -/
theorem advance?_of_round {t : Tia} {n : Nat} {r : Round} (hn : n ≠ 0)
    (h : t.round? n = some r) (lineEnded : Bool) :
    t.advance? n lineEnded = r.tia.advance? r.remaining (lineEnded || r.lineEnded) := by
  apply PFun.fix_fwd_eq
  simp only [loop?, if_neg hn, h]
  exact Part.mem_map _ (Part.mem_some r)

theorem endLine?_eq {t : Tia} (hy : t.beam.y < lineCount) : t.endLine? = some t.endLine := by
  have hlines : lineCount = 262 := rfl
  have hnext : t.nextLine? = some t.nextLine := by
    unfold nextLine? nextLine
    split
    · rfl
    · rw [add?_of_lt (by omega)]
      rfl
  simp only [endLine?, hnext, Option.bind_eq_bind, Option.bind_some]
  rfl

/-! ## Calls -/

/-- A write to an address. -/
def write? (t : Tia) (address : UInt16) (data : UInt8) : Option Tia := do
  let register ← VideoRegister.ofNumber? (address.toNat % 64)
  match register with
  | .waitForLine => some { t with waiting := true }
  | .clearCollisions => some { t with canvas := { t.canvas with collisions := .empty } }
  | register =>
    let scene ← t.scene.write? t.beam.x register data
    some { t with scene }

/-- The number of a player. -/
def playerIndex : Player → Nat
  | .one => 0
  | .two => 1

/-- The chip after a call. -/
def call? (t : Tia) : Call → Part Tia
  | .write address data => .ofOption (t.write? address data)
  | .tick dots => (t.tick? dots).map Prod.fst
  | .takeFrame => .some t.takeFrame.2
  | .setFire player pressed => .ofOption (t.setFire? (playerIndex player) pressed)
  | .reset => .some t.reset

/-- The chip after several calls. -/
def run? (t : Tia) (calls : List Call) : Part Tia := calls.foldlM call? t

/-- What holds of the chip whatever it is asked for. -/
structure FitsWords (t : Tia) : Prop where
  beam : t.beam.InRange
  scene : t.scene.FitsWords

section

variable {t : Tia} (h : t.FitsWords)

include h

/-- The stretch is drawn. -/
theorem render?_eq {span : Nat} (hspan : t.beam.x + span ≤ lineLength) :
    t.render? span = some { t with canvas := (t.sweepTo (t.beam.x + span)).canvas } := by
  have hline : lineLength = 228 := rfl
  have hblank : blankLength = 68 := rfl
  obtain ⟨hbeam, hscene⟩ := h
  obtain ⟨scene, canvas, ⟨x, y⟩, waiting, fire, published⟩ := t
  simp only [render?, sweepTo, Option.bind_eq_bind] at hspan ⊢
  split
  · rfl
  · rw [add?_of_lt (by omega), Option.bind_some, Nat.min_eq_left hspan]
    rw [Canvas.sweep?_eq hscene (Nat.le_max_right _ _) hbeam.y_lt (by omega), Option.bind_some]

/-- A round reaches the end of the line, or of the time if that comes first. -/
theorem round?_eq (n : Nat) :
    t.round? n
      = if t.beam.x + n < lineLength then some ⟨t.sweepTo (t.beam.x + n), 0, false⟩
        else some ⟨t.finishLine, n - (lineLength - t.beam.x), true⟩ := by
  have hx := h.beam.x_lt
  have hline : lineLength = 228 := rfl
  simp only [round?, Option.bind_eq_bind]
  rw [sub?_of_le (by omega), Option.bind_some]
  split
  next hn =>
    rw [Nat.min_eq_left (by omega), truncate_of_lt (by omega), render?_eq h (by omega),
      Option.bind_some]
    simp only
    rw [add?_of_lt (by omega), Option.bind_some, sub?_of_le (Nat.le_refl n), Option.bind_some,
      if_neg (by omega), Nat.sub_self]
    rfl
  next hn =>
    have hend : t.beam.x + (lineLength - t.beam.x) = lineLength := by omega
    rw [Nat.min_eq_right (by omega), truncate_of_lt (by omega), render?_eq h (by omega),
      Option.bind_some]
    simp only
    rw [add?_of_lt (by omega), Option.bind_some, sub?_of_le (by omega), Option.bind_some,
      if_pos (by omega), hend]
    show Option.map _ (t.sweepTo lineLength).endLine? = _
    rw [endLine?_eq (t := t.sweepTo lineLength) h.beam.y_lt]
    rfl

-- a beam beyond its line would be in the way of every round
example : round? { powerOn with beam := ⟨229, 0⟩ } 1 = none := rfl

/-- The rounds come to an end, and are the dots in a row. -/
theorem advance?_eq (n : Nat) (lineEnded : Bool) :
    t.advance? n lineEnded
      = .some (t.stepDots n, lineEnded || decide (lineLength ≤ t.beam.x + n)) := by
  -- the time that remains gets shorter with every round
  induction n using Nat.strongRecOn generalizing t lineEnded with
  | ind n ih =>
    have hx := h.beam.x_lt
    obtain rfl | hn := Nat.eq_zero_or_pos n
    · rw [advance?_zero, decide_eq_false (by omega), Bool.or_false]
      rfl
    have hround := round?_eq h n
    split at hround
    next hline =>
      rw [advance?_of_round (Nat.ne_of_gt hn) hround, advance?_zero,
        (t.stepDots_sweepTo n hline).1, decide_eq_false (by omega)]
    next hline =>
      have hfinished : t.finishLine.FitsWords := ⟨⟨lineLength_pos, t.nextLine_lt⟩, h.scene⟩
      have hsplit : n = (lineLength - t.beam.x) + (n - (lineLength - t.beam.x)) := by omega
      rw [advance?_of_round (Nat.ne_of_gt hn) hround,
        ih (n - (lineLength - t.beam.x)) (by omega) hfinished,
        ← (t.stepDots_finishLine hx).1, ← stepDots_add, ← hsplit,
        decide_eq_true (p := lineLength ≤ t.beam.x + n) (by omega)]
      simp only [Bool.or_true, Bool.true_or]

theorem FitsWords.stepDots (n : Nat) : (t.stepDots n).FitsWords := by
  refine ⟨beam_inRange_stepDots h.beam n, ?_⟩
  rw [scene_stepDots]
  exact h.scene

/-- The rest of a line is drawn, and the line ends. -/
theorem render?_endLine? :
    ((t.render? (lineLength - t.beam.x)).bind endLine?) = some t.finishLine := by
  have hx := h.beam.x_lt
  rw [render?_eq h (by omega), Option.bind_some, Nat.add_sub_cancel' (Nat.le_of_lt hx)]
  exact endLine?_eq h.beam.y_lt

/-- A pending wait is granted. -/
theorem releaseWait?_eq (frames : Nat) (lineEnded : Bool) :
    t.releaseWait? lineEnded
      = some ((t.releaseWait frames lineEnded).tia, (t.releaseWait frames lineEnded).stall) := by
  have hx := h.beam.x_lt
  have hdropped : ({ t with waiting := false } : Tia).FitsWords := ⟨h.beam, h.scene⟩
  obtain ⟨drawn, hdrawn, hended⟩ := Option.bind_eq_some_iff.mp (render?_endLine? hdropped)
  simp only at hdrawn
  unfold releaseWait? releaseWait
  cases t.waiting with
  | false => rfl
  | true =>
    cases lineEnded with
    | true => rfl
    | false =>
      simp only [Bool.not_true, Bool.false_eq_true, if_false, Option.bind_eq_bind]
      rw [sub?_of_le (Nat.le_of_lt hx), Option.bind_some, hdrawn, Option.bind_some, hended,
        Option.bind_some]

/-- A tick ends, and does what it does without checks. -/
theorem tick?_eq (n : Nat) : t.tick? n = .some ((t.tick n).tia, (t.tick n).stall) := by
  rw [tick?, advance?_eq h, Part.bind_some, Bool.false_or]
  show Part.ofOption ((t.stepDots n).releaseWait? _) = _
  rw [releaseWait?_eq (h.stepDots n) (t.framesWithin n), ← tick_eq_releaseWait t n h.beam.x_lt]
  rfl

/-- A write has its effect. -/
theorem write?_eq (address : UInt16) (data : UInt8) :
    t.write? address data = some (t.write address data) := by
  have hscene (r : VideoRegister) := Scene.write?_eq h.scene h.beam.x_lt r data
  simp only [write?, Option.bind_eq_bind]
  rw [VideoRegister.ofNumber?_eq (Nat.mod_lt _ (by decide)), Option.bind_some, write]
  show _ = some (writeRegister (.ofNumber (address.toNat % 64)) data t)
  cases VideoRegister.ofNumber (address.toNat % 64) with
  | waitForLine | clearCollisions => rfl
  | _ =>
    simp only [hscene, Option.bind_some]
    rfl

/-- A call has its effect. -/
theorem call?_eq (c : Call) : t.call? c = .some (t.call c) := by
  cases c with
  | write address data =>
    rw [call?, write?_eq h]
    rfl
  | tick dots => rw [call?, tick?_eq h, Part.map_some, call]
  | takeFrame => rfl
  | setFire player pressed => cases player <;> rfl
  | reset => rfl

end

theorem fitsWords_powerOn : powerOn.FitsWords := ⟨beam_inRange_powerOn, Scene.fitsWords_powerOn⟩

/-- A call keeps the chip within its words. -/
theorem fitsWords_call {t : Tia} (h : t.FitsWords) (c : Call) : (t.call c).FitsWords := by
  refine ⟨beam_inRange_call h.beam c, ?_⟩
  cases c with
  | write address data =>
    rw [call, scene_write]
    exact Scene.fitsWords_write h.scene h.beam.x_lt _ data
  | reset => exact Scene.fitsWords_powerOn
  | tick n | takeFrame => rw [scene_call_of_isQuiet h.beam rfl]; exact h.scene
  | setFire player pressed => rw [scene_call_of_isQuiet h.beam rfl]; exact h.scene

/-- So do several calls, and the bounds are kept. -/
theorem run?_eq {t : Tia} (h : t.FitsWords) (calls : List Call) :
    t.run? calls = .some (t.run calls) ∧ (t.run calls).FitsWords := by
  induction calls generalizing t with
  | nil => exact ⟨rfl, h⟩
  | cons c calls ih =>
    obtain ⟨hrun, hfits⟩ := ih (fitsWords_call h c)
    refine ⟨?_, hfits⟩
    rw [run?, List.foldlM_cons, call?_eq h, Part.bind_eq_bind, Part.bind_some]
    exact hrun

/-- Whatever a chip was asked for since it was switched on: no check failed and no loop
went on for ever, and it is the chip without checks. Its beam is on a dot of a line of
the picture, and whatever comes next, a tick with its stall, a write, a fire button, a
frame that is taken, a reset or a read, comes to an end with the right result. -/
theorem never_fails (calls : List Call) :
    let t := powerOn.run calls
    powerOn.run? calls = .some t
      ∧ (t.beam.x < 228 ∧ t.beam.y < 262)
      ∧ (∀ c, t.call? c = .some (t.call c))
      ∧ (∀ dots, t.tick? dots = .some ((t.tick dots).tia, (t.tick dots).stall))
      ∧ (∀ address, t.read? address = some (t.read address))
      ∧ (∀ address, t.readInput? address = some (t.readInput address)) := by
  intro t
  obtain ⟨hrun, h⟩ := run?_eq fitsWords_powerOn calls
  exact ⟨hrun, ⟨h.beam.x_lt, h.beam.y_lt⟩, call?_eq h, tick?_eq h, t.read?_eq, t.readInput?_eq⟩

end Tia

end VideoComputer
