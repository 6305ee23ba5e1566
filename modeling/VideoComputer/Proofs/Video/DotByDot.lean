/-
VideoComputer.Proofs.Video.DotByDot — the video chip as a machine that makes
one dot at a time.

`Tia.tick` lets any number of dots pass in a few strokes: whole lines first,
then a stretch of the last one. `Tia.stepDot` is the machine behind it. It
draws the dot the beam is on, moves the beam by one dot, and ends the line
after its last dot; nothing else happens in it, and there are no strokes to
cut wrongly.

* `stepDot_eq` — one dot is a stroke of length one.
* `stepDots_sweepTo`, `stepDots_finishLine`, `finishLines_eq` — the three
  strokes of the chip are dots in a row.
* `tick_eq_releaseWait` — a tick is its dots in a row, and then the grant of a
  pending wait.
* `tick_eq_stepDots` — a tick with its stall is dots in a row and nothing else.
  Everything known about the time of the chip is read off it.

A beam beyond the last dot of its line would never reach the line's end, so
all of this is about a beam inside its line.
-/
import VideoComputer.Video.Chip

namespace VideoComputer.Tia

/-- A line has dots. -/
theorem lineLength_pos : 0 < lineLength := by decide

/-! ## One dot -/

/-- Draws the dot the beam is on, and latches what meets there. In the blanks
nothing is drawn. -/
def drawDot (t : Tia) : Tia :=
  if blankLength ≤ t.beam.x && !t.scene.registers.isBlanked then
    { t with canvas := t.canvas.draw t.scene t.beam.y t.beam.x }
  else t

/-- One dot passes: it is drawn, the beam moves on, and the line ends if this
was its last dot. -/
def stepDot (t : Tia) : Tia :=
  let moved := { t.drawDot with beam := { t.beam with x := t.beam.x + 1 } }
  if moved.beam.x = lineLength then moved.endLine else moved

/-- Whether the next dot publishes a frame. -/
def publishesNext (t : Tia) : Bool :=
  t.beam.x + 1 == lineLength && t.completesFrame

/-- Dots pass, one after the other. -/
def stepDots : (dots : Nat) → Tia → Tia
  | 0, t => t
  | dots + 1, t => stepDots dots t.stepDot

/-- How many frames are published while dots pass. -/
def framesWithin : (dots : Nat) → Tia → Nat
  | 0, _ => 0
  | dots + 1, t => t.publishesNext.toNat + framesWithin dots t.stepDot

/-- Dots may pass in one go or in two, -/
theorem stepDots_add (m n : Nat) (t : Tia) : t.stepDots (m + n) = (t.stepDots m).stepDots n := by
  induction m generalizing t with
  | zero => rw [Nat.zero_add]; rfl
  | succ m ih => rw [Nat.succ_add]; exact ih t.stepDot

/-- and so may they when frames are counted. -/
theorem framesWithin_add (m n : Nat) (t : Tia) :
    t.framesWithin (m + n) = t.framesWithin m + (t.stepDots m).framesWithin n := by
  induction m generalizing t with
  | zero => rw [Nat.zero_add]; exact (Nat.zero_add _).symm
  | succ m ih =>
    rw [Nat.succ_add]
    show _ + t.stepDot.framesWithin (m + n) = _ + t.stepDot.framesWithin m + _
    rw [ih, Nat.add_assoc]
    rfl

/-! ## Strokes along a line -/

@[simp] theorem beam_sweepTo (t : Tia) (stop : Nat) :
    (t.sweepTo stop).beam = { t.beam with x := stop } := rfl

@[simp] theorem waiting_sweepTo (t : Tia) (stop : Nat) : (t.sweepTo stop).waiting = t.waiting := rfl

/-- The end of the line finds the same line counter wherever the beam is. -/
@[simp] theorem completesFrame_sweepTo (t : Tia) (stop : Nat) :
    (t.sweepTo stop).completesFrame = t.completesFrame := rfl

/-- A stroke may be interrupted. -/
theorem sweepTo_sweepTo (t : Tia) {stop stop' : Nat} (h : t.beam.x ≤ stop) (h' : stop ≤ stop') :
    (t.sweepTo stop).sweepTo stop' = t.sweepTo stop' := by
  obtain ⟨scene, canvas, ⟨x, y⟩, waiting, fire, published⟩ := t
  simp only [sweepTo]
  cases scene.registers.isBlanked with
  | true => rfl
  | false =>
    -- the second stroke begins where the first one ended, or both at the blank's end
    have hlen : stop' - max x blankLength
        = (stop - max x blankLength) + (stop' - max stop blankLength) := by
      simp only at h
      omega
    simp only [Bool.false_eq_true, if_false, hlen, Canvas.sweep_add]
    by_cases hb : stop ≤ blankLength
    · have h₁ : max x blankLength = blankLength := by simp only at h; omega
      have h₂ : max stop blankLength = blankLength := by omega
      rw [h₁, h₂, Nat.sub_eq_zero_of_le hb, Nat.add_zero]
    · have h₁ : max x blankLength + (stop - max x blankLength) = stop := by simp only at h; omega
      have h₂ : max stop blankLength = stop := by omega
      rw [h₁, h₂]

/-- A stroke to where the beam is draws nothing. -/
theorem sweepTo_self (t : Tia) : t.sweepTo t.beam.x = t := by
  obtain ⟨scene, canvas, ⟨x, y⟩, waiting, fire, published⟩ := t
  have hlen : x - max x blankLength = 0 := by omega
  simp only [sweepTo, hlen, Canvas.sweep, ite_self]

/-- The end of a line changes nothing on the canvas. -/
theorem canvas_stepDot (t : Tia) : t.stepDot.canvas = t.drawDot.canvas := by
  unfold stepDot
  simp only
  split <;> rfl

/-- One dot is a stroke of length one, with the line's end behind its last
dot. -/
theorem stepDot_eq (t : Tia) :
    t.stepDot = if t.beam.x + 1 = lineLength then t.finishLine else t.sweepTo (t.beam.x + 1) := by
  have hmoved : { t.drawDot with beam := { t.beam with x := t.beam.x + 1 } }
      = t.sweepTo (t.beam.x + 1) := by
    obtain ⟨scene, canvas, ⟨x, y⟩, waiting, fire, published⟩ := t
    simp only [drawDot, sweepTo]
    cases scene.registers.isBlanked with
    | true => simp
    | false =>
      by_cases hx : blankLength ≤ x
      · have h₁ : max x blankLength = x := by omega
        rw [h₁]
        simp [hx, Canvas.sweep]
      · have h₁ : x + 1 - max x blankLength = 0 := by omega
        rw [h₁]
        simp [hx, Canvas.sweep]
  simp only [stepDot, hmoved]
  by_cases hx : t.beam.x + 1 = lineLength
  · rw [if_pos hx, if_pos hx, hx]
    rfl
  · rw [if_neg hx, if_neg hx]

/-- Until the last dot of a line, dots in a row are a stroke. -/
theorem stepDots_sweepTo (t : Tia) (n : Nat) (h : t.beam.x + n < lineLength) :
    t.stepDots n = t.sweepTo (t.beam.x + n) ∧ t.framesWithin n = 0 := by
  induction n generalizing t with
  | zero => exact ⟨t.sweepTo_self.symm, rfl⟩
  | succ n ih =>
    have hx : ¬ t.beam.x + 1 = lineLength := by omega
    have hdot : t.stepDot = t.sweepTo (t.beam.x + 1) := by rw [stepDot_eq, if_neg hx]
    obtain ⟨hsteps, hframes⟩ := ih (t.sweepTo (t.beam.x + 1)) (by simp only [beam_sweepTo]; omega)
    constructor
    · show t.stepDot.stepDots n = _
      rw [hdot, hsteps, sweepTo_sweepTo t (by omega) (by simp only [beam_sweepTo]; omega)]
      simp only [beam_sweepTo, Nat.add_comm n, Nat.add_assoc]
    · show t.publishesNext.toNat + t.stepDot.framesWithin n = 0
      rw [hdot, hframes]
      simp [publishesNext, hx]

/-! ## Lines -/

@[simp] theorem beam_finishLine (t : Tia) : t.finishLine.beam = ⟨0, t.nextLine⟩ := rfl

@[simp] theorem waiting_finishLines (lines : Nat) (t : Tia) (frames : Nat) :
    (finishLines lines t frames).tia.waiting = t.waiting := by
  induction lines generalizing t frames with
  | zero => rfl
  | succ lines ih => exact ih t.finishLine _

/-- The rest of a line, dot by dot. -/
theorem stepDots_finishLine (t : Tia) (h : t.beam.x < lineLength) :
    t.stepDots (lineLength - t.beam.x) = t.finishLine
      ∧ t.framesWithin (lineLength - t.beam.x) = t.completesFrame.toNat := by
  -- all dots but the last make a stroke, the last one ends the line
  have hsplit : lineLength - t.beam.x = (lineLength - 1 - t.beam.x) + 1 := by omega
  obtain ⟨hsteps, hframes⟩ := t.stepDots_sweepTo (lineLength - 1 - t.beam.x) (by omega)
  have hlast : t.beam.x + (lineLength - 1 - t.beam.x) = lineLength - 1 := by omega
  rw [hlast] at hsteps
  rw [hsplit, stepDots_add, framesWithin_add, hsteps, hframes]
  constructor
  · have hend : (t.sweepTo (lineLength - 1)).beam.x + 1 = lineLength := rfl
    show (t.sweepTo (lineLength - 1)).stepDot = t.finishLine
    rw [stepDot_eq, if_pos hend, finishLine, finishLine, sweepTo_sweepTo t (by omega) (by omega)]
  · simp [framesWithin, publishesNext, lineLength]

/-- Several lines, dot by dot. -/
theorem finishLines_eq (lines : Nat) (t : Tia) (frames : Nat) {n : Nat}
    (h : t.beam.x < lineLength) (hn : t.beam.x + n = lineLength * lines) :
    finishLines lines t frames = ⟨t.stepDots n, 0, frames + t.framesWithin n⟩ := by
  induction lines generalizing t frames n with
  | zero =>
    have hzero : n = 0 := by omega
    rw [hzero]
    rfl
  | succ lines ih =>
    have hsplit : n = (lineLength - t.beam.x) + lineLength * lines := by
      rw [Nat.mul_succ] at hn
      omega
    obtain ⟨hsteps, hframes⟩ := t.stepDots_finishLine h
    rw [hsplit, stepDots_add, framesWithin_add, hsteps, hframes, ← Nat.add_assoc]
    exact ih t.finishLine _ lineLength_pos (Nat.zero_add _)

/-! ## The beam -/

/-- A dot takes the beam one place to the right, or back to the left. -/
theorem beam_x_stepDot (t : Tia) (h : t.beam.x < lineLength) :
    t.stepDot.beam.x = (t.beam.x + 1) % lineLength := by
  rw [stepDot_eq]
  by_cases hx : t.beam.x + 1 = lineLength
  · rw [if_pos hx, hx, Nat.mod_self, beam_finishLine]
  · rw [if_neg hx, beam_sweepTo, Nat.mod_eq_of_lt (by omega)]

/-- The beam goes round its line, a dot at a time. -/
theorem beam_x_stepDots (t : Tia) (n : Nat) (h : t.beam.x < lineLength) :
    (t.stepDots n).beam.x = (t.beam.x + n) % lineLength := by
  induction n generalizing t with
  | zero => exact (Nat.mod_eq_of_lt h).symm
  | succ n ih =>
    have hdot := t.beam_x_stepDot h
    have hlt : t.stepDot.beam.x < lineLength := by rw [hdot]; exact Nat.mod_lt _ lineLength_pos
    show (t.stepDot.stepDots n).beam.x = _
    rw [ih t.stepDot hlt, hdot, Nat.mod_add_mod, Nat.add_assoc, Nat.add_comm 1]

/-! ## A tick -/

/-- A tick is its dots in a row, and then the grant of a pending wait, which
finds its line ended if the beam has been to the line's end. -/
theorem tick_eq_releaseWait (t : Tia) (n : Nat) (h : t.beam.x < lineLength) :
    t.tick n = (t.stepDots n).releaseWait (t.framesWithin n)
      (decide (lineLength ≤ t.beam.x + n)) := by
  by_cases hn : t.beam.x + n < lineLength
  · obtain ⟨hsteps, hframes⟩ := t.stepDots_sweepTo n hn
    have hlines : (t.beam.x + n) / lineLength = 0 := Nat.div_eq_of_lt hn
    have hrest : (t.beam.x + n) % lineLength = t.beam.x + n := Nat.mod_eq_of_lt hn
    simp only [tick, hlines, hrest, finishLines, hsteps, hframes]
    rw [decide_eq_false (by omega)]
    rfl
  · -- the dots of whole lines, and behind them those of a stroke from the left
    have hlines : 0 < (t.beam.x + n) / lineLength :=
      Nat.div_pos (Nat.le_of_not_lt hn) lineLength_pos
    have hdivmod := Nat.div_add_mod (t.beam.x + n) lineLength
    have hrest := Nat.mod_lt (t.beam.x + n) lineLength_pos
    have hwhole : lineLength ≤ lineLength * ((t.beam.x + n) / lineLength) :=
      Nat.le_mul_of_pos_right _ hlines
    obtain ⟨k, hk⟩ : ∃ k, n = k + (t.beam.x + n) % lineLength :=
      ⟨n - (t.beam.x + n) % lineLength, by omega⟩
    have hxk : t.beam.x + k = lineLength * ((t.beam.x + n) / lineLength) := by omega
    have hleft : (t.stepDots k).beam.x = 0 := by
      rw [t.beam_x_stepDots k h, hxk, Nat.mul_mod_right]
    obtain ⟨hsteps, hframes⟩ := (t.stepDots k).stepDots_sweepTo ((t.beam.x + n) % lineLength)
      (by rw [hleft, Nat.zero_add]; exact hrest)
    rw [hleft, Nat.zero_add, ← stepDots_add, ← hk] at hsteps
    have hcount := t.framesWithin_add k ((t.beam.x + n) % lineLength)
    rw [← hk, hframes, Nat.add_zero] at hcount
    simp only [tick, finishLines_eq _ t 0 h hxk, Nat.zero_add, hsteps, hcount]
    rw [decide_eq_true (by omega), bne_iff_ne.mpr (by omega)]

/-! ## A tick with its stall -/

/-- The same chip with no wait pending. -/
def dropWait (t : Tia) : Tia := { t with waiting := false }

/-- For how many dots a tick of `n` dots stalls the program: to the end of the
line, if it waits for that and the tick has not reached it. -/
def stallAfter (t : Tia) (n : Nat) : Nat :=
  if t.waiting then lineLength - t.beam.x - n else 0

/-- Without a wait there is none to drop. -/
theorem dropWait_of_idle {t : Tia} (h : t.waiting = false) : t.dropWait = t := by
  obtain ⟨scene, canvas, beam, waiting, fire, published⟩ := t
  cases h
  rfl

/-- Dots do not look at a wait, -/
theorem stepDot_dropWait (t : Tia) : t.dropWait.stepDot = t.stepDot.dropWait := by
  have hbeam : t.dropWait.beam = t.beam := rfl
  rw [stepDot_eq, stepDot_eq, hbeam]
  split <;> rfl

/-- A pending wait does not show in what is drawn. -/
theorem stepDots_dropWait (n : Nat) (t : Tia) :
    t.dropWait.stepDots n = (t.stepDots n).dropWait := by
  induction n generalizing t with
  | zero => rfl
  | succ n ih =>
    show t.dropWait.stepDot.stepDots n = (t.stepDot.stepDots n).dropWait
    rw [stepDot_dropWait, ih]

/-- and neither does the count of frames. -/
theorem framesWithin_dropWait (n : Nat) (t : Tia) :
    t.dropWait.framesWithin n = t.framesWithin n := by
  induction n generalizing t with
  | zero => rfl
  | succ n ih =>
    show t.publishesNext.toNat + t.dropWait.stepDot.framesWithin n = _
    rw [stepDot_dropWait, ih]
    rfl

@[simp] theorem waiting_stepDot (t : Tia) : t.stepDot.waiting = t.waiting := by
  rw [stepDot_eq]
  split <;> rfl

@[simp] theorem waiting_stepDots (n : Nat) (t : Tia) : (t.stepDots n).waiting = t.waiting := by
  induction n generalizing t with
  | zero => rfl
  | succ n ih => exact (ih t.stepDot).trans t.waiting_stepDot

/-- A tick is the dots it was asked for and the dots of its stall, in a row,
and it leaves no wait pending. -/
theorem tick_eq_stepDots (t : Tia) (n : Nat) (h : t.beam.x < lineLength) :
    t.tick n = ⟨(t.stepDots (n + t.stallAfter n)).dropWait, t.stallAfter n,
      t.framesWithin (n + t.stallAfter n)⟩ := by
  rw [tick_eq_releaseWait t n h]
  cases hw : t.waiting with
  | false =>
    have hidle : (t.stepDots n).waiting = false := by rw [waiting_stepDots, hw]
    simp [releaseWait, stallAfter, hw, dropWait_of_idle hidle]
  | true =>
    by_cases hn : lineLength ≤ t.beam.x + n
    · have hstall : t.stallAfter n = 0 := by
        rw [stallAfter, if_pos hw]
        omega
      simp [releaseWait, hw, hn, hstall, dropWait]
    · have hbeam : (t.stepDots n).beam.x = t.beam.x + n := by
        rw [t.beam_x_stepDots n h, Nat.mod_eq_of_lt (by omega)]
      have hstall : t.stallAfter n = lineLength - (t.stepDots n).beam.x := by
        rw [stallAfter, if_pos hw, hbeam, Nat.sub_sub]
      obtain ⟨hsteps, hframes⟩ := (t.stepDots n).stepDots_finishLine (by omega)
      rw [← hstall] at hsteps hframes
      rw [stepDots_add, framesWithin_add, hsteps, hframes, decide_eq_false hn, releaseWait,
        waiting_stepDots, hw, ← hstall]
      rfl

end VideoComputer.Tia
