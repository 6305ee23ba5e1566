/-
VideoComputer.Proofs.Video.Stall — a program that waits for the end of the line
is stalled exactly that long.

A program asks for the wait by a write, and the wait is granted by the tick
that follows. The line it waits for is the one the beam is on when that tick
begins. If the tick itself takes the beam to the end of that line, the wait is
over without a stall; otherwise the program is stalled for the rest of the
line.

* `stall_tick` — how long the stall is, wherever the beam is.
* `tick_stalls_to_line_end` — that, and what the chip looks like afterwards.
-/
import VideoComputer.Proofs.Video.Slicing

namespace VideoComputer.Tia

/-- How long a tick stalls the program, wherever the beam is. -/
theorem stall_tick (t : Tia) (n : Nat) : (t.tick n).stall = t.stallAfter n := by
  cases hw : t.waiting with
  | false => simp [tick, releaseWait, stallAfter, hw]
  | true =>
    by_cases hn : t.beam.x + n < lineLength
    · -- the tick stays on its line, and the stall is the rest of it
      have hlines : (t.beam.x + n) / lineLength = 0 := Nat.div_eq_of_lt hn
      have hrest : (t.beam.x + n) % lineLength = t.beam.x + n := Nat.mod_eq_of_lt hn
      simp [tick, releaseWait, stallAfter, finishLines, hw, hlines, hrest, Nat.sub_sub]
    · have hlines : (t.beam.x + n) / lineLength ≠ 0 := by
        have := Nat.div_pos (Nat.le_of_not_lt hn) lineLength_pos
        omega
      have hstall : lineLength - t.beam.x - n = 0 := by omega
      simp [tick, releaseWait, stallAfter, hw, hlines, hstall]

/-- A tick with its stall is the tick of both lengths on a chip that nobody
waits for. -/
theorem tick_eq_tick_dropWait {t : Tia} (h : t.beam.x < lineLength) (n : Nat) :
    (t.tick n).tia = (t.dropWait.tick (n + (t.tick n).stall)).tia
      ∧ (t.tick n).frames = (t.dropWait.tick (n + (t.tick n).stall)).frames := by
  have hidle (m : Nat) :
      t.dropWait.tick m = ⟨t.dropWait.stepDots m, 0, t.dropWait.framesWithin m⟩ :=
    tick_of_idle (t := t.dropWait) h rfl m
  rw [stall_tick, hidle, t.tick_eq_stepDots n h, stepDots_dropWait, framesWithin_dropWait]
  exact ⟨rfl, rfl⟩

/-- With a wait pending, a tick stalls the program for what it leaves of the
line, and not at all if it takes the beam to the line's end. Afterwards the
chip is where the same time takes it without a wait. The wait is over then: the
program is not stalled again before it asks again, whatever else it does. And
to ask more than once before the tick is to ask once. -/
theorem tick_stalls_to_line_end {t : Tia} (h : Reachable t) (hw : t.waiting = true) (n : Nat) :
    ((t.tick n).stall
        = if n < lineLength - t.beam.x then lineLength - t.beam.x - n else 0)
      ∧ ((t.tick n).tia = (t.dropWait.tick (n + (t.tick n).stall)).tia
          ∧ (t.tick n).frames = (t.dropWait.tick (n + (t.tick n).stall)).frames)
      ∧ (∀ calls m, (∀ c ∈ calls, c.requestsWait = false) →
          (((t.tick n).tia.run calls).tick m).stall = 0)
      ∧ ∀ calls, (∀ c ∈ calls, c.isInstant = true) →
          (t.run calls).tick n = (t.run (calls.filter fun c => !c.requestsWait)).tick n := by
  have hrange := h.beam_inRange
  refine ⟨?_, tick_eq_tick_dropWait hrange.x_lt n, ?_, ?_⟩
  · rw [stall_tick, stallAfter, if_pos hw]
    split
    · rfl
    · omega
  · intro calls m hcalls
    have hreach : Reachable ((t.tick n).tia.run calls) := (h.call (.tick n)).run calls
    have hidle := waiting_run (beam_inRange_tick hrange n) (waiting_tick hrange.x_lt n) calls hcalls
    rw [tick_of_idle hreach.beam_inRange.x_lt hidle]
  · intro calls hcalls
    rw [run_filter_requestsWait hw calls hcalls]

/-- A chip 60 dots into a line that was asked for a wait. -/
def askedForWait : Tia := powerOn.run [.tick 60, .write 0x02 0x00]

/-- A tick of nine dots there stalls for the other 159 of the line. It would
do so too if the program had asked twice more, with a color change between;
the tick after it, which finds another background, does not stall. -/
theorem tick_stalls_to_line_end_askedForWait :
    askedForWait.waiting = true
      ∧ (askedForWait.tick 9).stall = 159
      ∧ (((askedForWait.tick 9).tia.run [.write 0x09 0x1E]).tick 6).stall = 0
      ∧ (askedForWait.run [.write 0x42 0xFF, .write 0x08 0x0E, .write 0x02 0x00]).tick 9
          = (askedForWait.run [.write 0x08 0x0E]).tick 9 :=
  have h := tick_stalls_to_line_end
    ((Reachable.powerOn.run _ : Reachable askedForWait)) rfl 9
  ⟨rfl, h.1, h.2.2.1 [.write 0x09 0x1E] 6 (by decide),
    h.2.2.2 [.write 0x42 0xFF, .write 0x08 0x0E, .write 0x02 0x00] (by decide)⟩

end VideoComputer.Tia
