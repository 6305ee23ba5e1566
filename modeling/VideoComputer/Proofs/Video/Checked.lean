/-
VideoComputer.Proofs.Video.Checked — drawing in words of a fixed size.

The video chip calculates with numbers as they are. A machine calculates with
words: a sum may not fit, a difference may fall below zero, a byte cannot be
shifted by eight, and a list has an end. This module draws with all these checks
in place, step by step. A function whose name ends in `?` has no result where a
check fails. The bounds under which none fails are those that hold of every scene
a program can set up.

* `add?`, `sub?`, `mul?`, `quotient?`, `shiftAmount?` — the checks.
* `Scene.FitsWords` — bounds of the positions, and of two sizes.
* `Scene.dotAt?_eq` — under these bounds, what is present at a dot is found,
* `Canvas.draw?_eq`, `Canvas.sweep?_eq` — and a dot and a stretch of a line are
  drawn.
-/
import VideoComputer.Proofs.Video.Positions

namespace VideoComputer

/-! ## Words -/

/-- The sum of two words of so many bits. -/
def add? (bits a b : Nat) : Option Nat := if a + b < 2 ^ bits then some (a + b) else none

/-- The difference of two words. -/
def sub? (a b : Nat) : Option Nat := if b ≤ a then some (a - b) else none

/-- The product of two words of so many bits. -/
def mul? (bits a b : Nat) : Option Nat := if a * b < 2 ^ bits then some (a * b) else none

/-- The quotient of two words. -/
def quotient? (a b : Nat) : Option Nat := if b = 0 then none else some (a / b)

/-- How far a word of so many bits may be shifted. -/
def shiftAmount? (bits n : Nat) : Option Nat := if n < bits then some n else none

/-- A word cut down to so many bits. -/
def truncate (bits n : Nat) : Nat := n % 2 ^ bits

section

variable {bits a b n : Nat}

/-- An operation within the bounds of its word is the one on numbers. -/
theorem add?_of_lt (h : a + b < 2 ^ bits) : add? bits a b = some (a + b) := if_pos h

theorem sub?_of_le (h : b ≤ a) : sub? a b = some (a - b) := if_pos h

theorem mul?_of_lt (h : a * b < 2 ^ bits) : mul? bits a b = some (a * b) := if_pos h

theorem quotient?_of_pos (h : 0 < b) : quotient? a b = some (a / b) := if_neg (Nat.ne_of_gt h)

theorem shiftAmount?_of_lt (h : n < bits) : shiftAmount? bits n = some n := if_pos h

theorem truncate_of_lt (h : n < 2 ^ bits) : truncate bits n = n := Nat.mod_eq_of_lt h

end

/-- A search has an answer if every question has one. -/
theorem anyM_eq_some {α : Type} {l : List α} {p? : α → Option Bool} {p : α → Bool}
    (h : ∀ a ∈ l, p? a = some (p a)) : l.anyM p? = some (l.any p) := by
  induction l with
  | nil => rfl
  | cons a l ih =>
    obtain ⟨ha, hl⟩ := List.forall_mem_cons.mp h
    simp only [List.anyM, ha, List.any_cons, Option.bind_eq_bind, Option.bind_some]
    cases p a with
    | true => rfl
    | false => exact ih hl

/-! ## The playfield -/

/-- A bit of a byte, for which the byte is shifted. -/
def bitAt? (b : UInt8) (n : Nat) : Option Bool := (shiftAmount? 8 n).map (bitAt b)

theorem bitAt?_of_lt (b : UInt8) {n : Nat} (h : n < 8) : bitAt? b n = some (bitAt b n) := by
  rw [bitAt?, shiftAmount?_of_lt h, Option.map_some]

namespace Playfield

/-- Bit `index` of the twenty. -/
def patternBit? (p : Playfield) (index : Nat) : Option Bool :=
  if index < 4 then (add? 8 4 index).bind (bitAt? p.pf0)
  else if index < 12 then (sub? 11 index).bind (bitAt? p.pf1)
  else (sub? index 12).bind (bitAt? p.pf2)

/-- Which of the twenty bits a pixel of the line shows. -/
def patternIndex? (reflect : Bool) (pixel : Nat) : Option Nat :=
  let index := truncate 8 (pixel % 80 / 4)
  if 80 ≤ pixel && reflect then sub? 19 index else some index

/-- Whether the pattern is set at a pixel of the line. -/
def isSet? (p : Playfield) (reflect : Bool) (pixel : Nat) : Option Bool :=
  (patternIndex? reflect pixel).bind p.patternBit?

/-- A bit of the pattern is looked for in the register that has it. -/
theorem patternBit?_eq (p : Playfield) {index : Nat} (h : index < 20) :
    p.patternBit? index = some (p.patternBit index) := by
  unfold patternBit? patternBit
  split
  · rw [add?_of_lt (by omega), Option.bind_some, bitAt?_of_lt _ (by omega)]
  · split
    · rw [sub?_of_le (by omega), Option.bind_some, bitAt?_of_lt _ (by omega)]
    · rw [sub?_of_le (by omega), Option.bind_some, bitAt?_of_lt _ (by omega)]

/-- The pixels of the right half are looked up among those of the left one. -/
theorem patternIndex?_eq (reflect : Bool) (pixel : Nat) :
    patternIndex? reflect pixel = some (patternIndex reflect pixel) := by
  simp only [patternIndex?, patternIndex]
  rw [truncate_of_lt (by omega)]
  split
  · exact sub?_of_le (by omega)
  · rfl

theorem isSet?_eq (p : Playfield) (reflect : Bool) (pixel : Nat) :
    p.isSet? reflect pixel = some (p.isSet reflect pixel) := by
  rw [isSet?, patternIndex?_eq, Option.bind_some, patternBit?_eq p (patternIndex_lt reflect pixel)]
  rfl

end Playfield

/-! ## Bounds -/

/-- The last copy begins 64 dots behind the first at most. -/
theorem Formation.mem_copies_le {f : Formation} {offset : Nat} (h : offset ∈ f.copies) :
    offset ≤ 64 := by
  have hall : ∀ offset ∈ f.copies, offset ≤ 64 := by cases f <;> decide
  exact hall offset h

theorem Formation.scale_mem (f : Formation) : 0 < f.scale ∧ f.scale ≤ 4 := by
  cases f <;> decide

theorem one_shiftLeft_le {exponent : Nat} (h : exponent < 4) : 1 <<< exponent ≤ 8 := by
  rw [Nat.one_shiftLeft]
  exact Nat.pow_le_pow_right (n := 2) (by decide) (Nat.le_of_lt_succ h)

/-- The sizes that registers can be set to. -/
structure VideoRegisters.SizesFit (r : VideoRegisters) : Prop where
  missileSize (p : Player) : (r.numberSize.get p).missileSize ≤ 8
  ballExponent : r.control.ballExponent < 4

namespace Scene

/-- What holds of a scene whatever is written, as far as words need it. -/
structure FitsWords (s : Scene) : Prop where
  inBounds : s.InBounds
  sizes : s.registers.SizesFit

/-- Every object is behind the blank and not far beyond the line. -/
theorem FitsWords.position {s : Scene} (h : s.FitsWords) (o : Movable) :
    blankLength ≤ s.positions.get o ∧ s.positions.get o < 238 := by
  have hreach : reach o ≤ 238 := by cases o <;> simp [reach, lineLength]
  have hposition := h.inBounds.position o
  omega

/-! ## Objects -/

/-- Whether a copy of a player covers a dot. -/
def copyCovers? (graphics : UInt8) (reflected : Bool) (scale position offset x : Nat) :
    Option Bool := do
  let start ← add? 16 position offset
  if x < start then some false
  else
    let width ← mul? 16 8 scale
    let stop ← add? 16 start width
    if stop ≤ x then some false
    else
      let distance ← sub? x start
      let index ← quotient? distance scale
      let amount ← shiftAmount? 8 (truncate 8 index)
      some (graphicsPixel graphics reflected amount)

/-- Whether a player covers a dot. -/
def playerAt? (s : Scene) (p : Player) (x : Nat) : Option Bool :=
  let graphics := s.registers.shownGraphics p
  if graphics = 0 then some false
  else
    let formation := (s.registers.numberSize.get p).formation
    formation.copies.anyM fun offset =>
      copyCovers? graphics (s.registers.reflected.get p) formation.scale
        (s.positions.player.get p) offset x

/-- Whether something of a size that starts at a dot covers another dot. -/
def spanCovers? (start size x : Nat) : Option Bool :=
  if x < start then some false
  else do
    let stop ← add? 16 start size
    some (x < stop)

/-- Whether a missile covers a dot. -/
def missileAt? (s : Scene) (p : Player) (x : Nat) : Option Bool :=
  if s.registers.missileEnabled.get p && !s.registers.missileLocked.get p then
    let size := s.registers.numberSize.get p
    size.formation.copies.anyM fun offset => do
      let start ← add? 16 (s.positions.missile.get p) offset
      spanCovers? start size.missileSize x
  else some false

/-- Whether the ball covers a dot. -/
def ballAt? (s : Scene) (x : Nat) : Option Bool :=
  if s.registers.shownBall then do
    let exponent ← shiftAmount? 16 s.registers.control.ballExponent
    spanCovers? s.positions.ball (1 <<< exponent) x
  else some false

/-- A copy is looked for without leaving the word, since no sum in it passes a line by much. -/
theorem copyCovers?_eq (graphics : UInt8) (reflected : Bool) {scale position offset x : Nat}
    (hscale : 0 < scale ∧ scale ≤ 4) (hposition : position < 238) (hoffset : offset ≤ 64) :
    copyCovers? graphics reflected scale position offset x
      = some (copyCovers graphics reflected scale (position + offset) x) := by
  simp only [copyCovers?, Option.bind_eq_bind]
  rw [copyCovers, add?_of_lt (by omega), Option.bind_some]
  by_cases hleft : x < position + offset
  · rw [if_pos hleft, decide_eq_false (by omega), Bool.false_and, Bool.false_and]
  rw [if_neg hleft, mul?_of_lt (by omega), Option.bind_some, add?_of_lt (by omega),
    Option.bind_some, decide_eq_true (by omega), Bool.true_and]
  by_cases hright : position + offset + 8 * scale ≤ x
  · rw [if_pos hright, decide_eq_false (by omega), Bool.false_and]
  have hindex : (x - (position + offset)) / scale < 8 :=
    (Nat.div_lt_iff_lt_mul hscale.1).mpr (by omega)
  rw [if_neg hright, sub?_of_le (by omega), Option.bind_some, quotient?_of_pos hscale.1,
    Option.bind_some, truncate_of_lt (by omega), shiftAmount?_of_lt hindex,
    decide_eq_true (by omega), Bool.true_and]
  rfl

/-- A span that ends within the word can be compared with at both ends. -/
theorem spanCovers?_eq {start size x : Nat} (h : start + size < 2 ^ 16) :
    spanCovers? start size x = some (decide (start ≤ x) && decide (x < start + size)) := by
  rw [spanCovers?]
  by_cases hleft : x < start
  · rw [if_pos hleft, decide_eq_false (by omega), Bool.false_and]
  · rw [if_neg hleft, add?_of_lt h, decide_eq_true (by omega), Bool.true_and]
    rfl

section

variable {s : Scene} (h : s.FitsWords)

include h

/-- The same goes for the copies of a player, -/
theorem playerAt?_eq (p : Player) (x : Nat) : s.playerAt? p x = some (s.playerAt p x) := by
  unfold playerAt? playerAt
  simp only
  split
  · rfl
  · apply anyM_eq_some
    intro offset hoffset
    exact copyCovers?_eq _ _ (Formation.scale_mem _) (h.position (.player p)).2
      (Formation.mem_copies_le hoffset)

/-- for those of a missile, -/
theorem missileAt?_eq (p : Player) (x : Nat) : s.missileAt? p x = some (s.missileAt p x) := by
  have hposition : s.positions.missile.get p < 238 := (h.position (.missile p)).2
  have hsize := h.sizes.missileSize p
  unfold missileAt? missileAt
  simp only
  split
  · apply anyM_eq_some
    intro offset hoffset
    have hcopy := Formation.mem_copies_le hoffset
    rw [add?_of_lt (by omega), Option.bind_eq_bind, Option.bind_some, spanCovers?_eq (by omega)]
  · rfl

/-- and for the ball. -/
theorem ballAt?_eq (x : Nat) : s.ballAt? x = some (s.ballAt x) := by
  have hposition : s.positions.ball < 238 := (h.position .ball).2
  have hexponent := h.sizes.ballExponent
  have hsize := one_shiftLeft_le hexponent
  unfold ballAt? ballAt
  cases s.registers.shownBall with
  | false => rfl
  | true =>
    simp only [if_true, Bool.true_and, Option.bind_eq_bind]
    rw [shiftAmount?_of_lt (by omega), Option.bind_some, spanCovers?_eq (by omega)]
    rfl

end

/-! ## A dot -/

/-- Everything present at a dot. -/
def dotAt? (s : Scene) (x : Nat) : Option Dot := do
  let pixel ← sub? x blankLength
  let playfield ← s.registers.playfield.isSet? s.registers.control.reflect pixel
  let ball ← s.ballAt? x
  let player ← s.playerAt? .one x
  let player' ← s.playerAt? .two x
  let missile ← s.missileAt? .one x
  let missile' ← s.missileAt? .two x
  some { playfield, ball, player := ⟨player, player'⟩, missile := ⟨missile, missile'⟩ }

/-- Behind the horizontal blank, a dot is looked at without failure. -/
theorem dotAt?_eq {s : Scene} (h : s.FitsWords) {x : Nat} (hblank : blankLength ≤ x) :
    s.dotAt? x = some (s.dotAt x) := by
  simp only [dotAt?, sub?_of_le hblank, Playfield.isSet?_eq, ballAt?_eq h, playerAt?_eq h,
    missileAt?_eq h, Option.bind_eq_bind, Option.bind_some]
  rfl

end Scene

/-- The color a color register shows, looked up in the palette. -/
def Pixel.ofColor? (color : UInt8) : Option Pixel := palette[color.toNat / 2]?

/-- Every color is in the palette. -/
theorem Pixel.ofColor?_eq (color : UInt8) : ofColor? color = some (ofColor color) := by
  have hlt : color.toNat / 2 < 128 := by
    have := color.toNat_lt
    omega
  rw [ofColor?, Vector.getElem?_eq_getElem hlt]
  rfl

namespace Canvas

/-- Draws one dot of line `y`. -/
def draw? (s : Scene) (y x : Nat) : Canvas → Option Canvas
  | ⟨frame, collisions⟩ => do
    let pixel ← sub? x blankLength
    let dot ← s.dotAt? x
    let color ← Pixel.ofColor? (s.colorOf dot x)
    let frame ← frame.set? y pixel color
    some { frame, collisions := collisions.record dot }

/-- Draws `count` dots of line `y`, beginning with dot `x`. -/
def sweep? (s : Scene) (y : Nat) : (count x : Nat) → Canvas → Option Canvas
  | 0, _, c => some c
  | count + 1, x, c => do
    let c ← c.draw? s y x
    sweep? s y count (x + 1) c

section

variable {s : Scene} (h : s.FitsWords) {x y : Nat} (hblank : blankLength ≤ x)
variable (hy : y < lineCount)

include h hblank hy

/-- A dot is drawn within the frame, -/
theorem draw?_eq (hx : x < lineLength) (c : Canvas) : c.draw? s y x = some (c.draw s y x) := by
  obtain ⟨frame, collisions⟩ := c
  have hon : Frame.Contains y (x - blankLength) := by
    simp only [Frame.Contains, lineCount, lineLength, blankLength] at *
    omega
  simp only [draw?, sub?_of_le hblank, Scene.dotAt?_eq h hblank, Pixel.ofColor?_eq, Frame.set?,
    if_pos hon, Option.bind_eq_bind, Option.bind_some]
  rfl

/-- and so is a stretch that ends with the line. -/
theorem sweep?_eq {count : Nat} (hx : x + count ≤ lineLength) (c : Canvas) :
    c.sweep? s y count x = some (c.sweep s y count x) := by
  induction count generalizing x c with
  | zero => rfl
  | succ count ih =>
    rw [sweep?, draw?_eq h hblank hy (by omega)]
    exact ih (Nat.le_succ_of_le hblank) (by omega) _

end

end Canvas

end VideoComputer
