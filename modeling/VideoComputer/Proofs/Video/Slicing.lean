/-
VideoComputer.Proofs.Video.Slicing — time may be cut into ticks in any way.

A program has no influence on how the console cuts its time into ticks: each
tick is as long as an instruction takes. While no wait is pending that does
not matter, because a tick is nothing but its dots in a row. The picture, the
collisions and the published frames depend on how many dots have passed.

* `tick_of_idle` — a tick while no wait is pending.
* `tickSlices_of_idle` — any number of ticks.
* `tick_refines_dots` — both, for every chip that exists.
-/
import Mathlib.Algebra.GroupWithZero.Nat
import VideoComputer.Proofs.Video.Calls

namespace VideoComputer.Tia

/-- What comes of a stretch of time that is let pass in slices. -/
def tickSlices : (slices : List Nat) → Tia → Progress
  | [], t => ⟨t, 0, 0⟩
  | n :: slices, t =>
    let first := t.tick n
    let others := tickSlices slices first.tia
    ⟨others.tia, first.stall + others.stall, first.frames + others.frames⟩

/-- A tick while no wait is pending is its dots in a row. -/
theorem tick_of_idle {t : Tia} (h : t.beam.x < lineLength) (hw : t.waiting = false) (n : Nat) :
    t.tick n = ⟨t.stepDots n, 0, t.framesWithin n⟩ := by
  have hstall : t.stallAfter n = 0 := by
    rw [stallAfter, hw]
    rfl
  have hidle : (t.stepDots n).waiting = false := by rw [waiting_stepDots, hw]
  rw [t.tick_eq_stepDots n h, hstall, Nat.add_zero, dropWait_of_idle hidle]

/-- So are any number of ticks: each of them takes up where the one before it
ended. -/
theorem tickSlices_of_idle {t : Tia} (h : t.beam.InRange) (hw : t.waiting = false)
    (slices : List Nat) :
    t.tickSlices slices = ⟨t.stepDots slices.sum, 0, t.framesWithin slices.sum⟩ := by
  induction slices generalizing t with
  | nil => rfl
  | cons n slices ih =>
    have hidle : (t.stepDots n).waiting = false := by rw [waiting_stepDots, hw]
    have hrest := ih (beam_inRange_stepDots h n) hidle
    rw [tickSlices, tick_of_idle h.x_lt hw n, List.sum_cons, stepDots_add, framesWithin_add]
    simp only [hrest]

/-- While no wait is pending, a tick does not stall the program and is its dots
one after the other; two ticks in a row are one tick of both lengths, and so
are any number of ticks. -/
theorem tick_refines_dots {t : Tia} (h : Reachable t) (hw : t.waiting = false) :
    (∀ n, t.tick n = ⟨t.stepDots n, 0, t.framesWithin n⟩)
      ∧ (∀ m n, ((t.tick m).tia.tick n).tia = (t.tick (m + n)).tia
          ∧ ((t.tick m).tia.tick n).stall = 0
          ∧ (t.tick m).frames + ((t.tick m).tia.tick n).frames = (t.tick (m + n)).frames)
      ∧ ∀ slices, t.tickSlices slices = t.tick slices.sum := by
  have hrange := h.beam_inRange
  have hdots := tick_of_idle hrange.x_lt hw
  refine ⟨hdots, ?_, ?_⟩
  · intro m n
    have hidle : (t.stepDots m).waiting = false := by rw [waiting_stepDots, hw]
    have hsecond := tick_of_idle (beam_inRange_stepDots hrange m).x_lt hidle n
    simp only [hdots, hsecond, stepDots_add, framesWithin_add, and_self]
  · intro slices
    rw [hdots, tickSlices_of_idle hrange hw]

/-- A chip in the middle of its first line, with a background and a playfield
to draw. -/
def midLine : Tia := powerOn.run [.write 0x09 0x1E, .write 0x0D 0xF0, .tick 100]

/-- A tick across the end of a line, in one go, dot by dot, and in two slices
that meet just behind the line's end. -/
theorem tick_refines_dots_midLine :
    midLine.waiting = false
      ∧ midLine.tick 300 = ⟨midLine.stepDots 300, 0, midLine.framesWithin 300⟩
      ∧ midLine.tickSlices [129, 171] = midLine.tick 300 :=
  have h := tick_refines_dots (Reachable.powerOn.run _ : Reachable midLine) rfl
  ⟨rfl, h.1 300, h.2.2 [129, 171]⟩

end VideoComputer.Tia
