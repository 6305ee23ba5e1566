/-
VideoComputer.Proofs.Video.VerticalDelay — delayed graphics as a matter of what was
written when.

A program has no time to write the graphics of both players and the ball before the
beam reaches them. So the chip keeps two values for each, and hands the first one on
to the second when something else is written: for each player the graphics of the
other one, and for the ball the graphics of player two. One bit for each says which of
the two values is shown.

Hence what is shown can be told from the past. Without delay it is what was written
last; with delay it is what had been written last when the other register was written
last, however often it was written since. The bits only choose. They may be set and
cleared at any time, and no value is lost by that or handed on early.

* `VideoRegisters.graphics_writeAll` and the like — the values that are held.
* `VideoRegisters.held_writeAll_filter` — and the bits have no part in them.
* `Tia.shown_by_history` — what is shown, for a chip that was asked for anything.
-/
import VideoComputer.Proofs.Video.PastWrites

namespace VideoComputer

/-- Whether a register chooses between two values that are held. -/
def VideoRegister.choosesDelay : VideoRegister → Bool
  | .delayPlayer _ | .delayBall => true
  | _ => false

namespace VideoRegisters

/-- Both graphics of the players and both bits of the ball, whichever are shown. -/
structure Held where
  graphics : PerPlayer UInt8
  delayedGraphics : PerPlayer UInt8
  ballEnabled : Bool
  delayedBallEnabled : Bool
  deriving DecidableEq, Repr

/-- What is held for players and ball. -/
def held (r : VideoRegisters) : Held where
  graphics := r.graphics
  delayedGraphics := r.delayedGraphics
  ballEnabled := r.ballEnabled
  delayedBallEnabled := r.delayedBallEnabled

/-- What is held is made of what was held, -/
theorem held_write_congr {s s' : VideoRegisters} (h : s.held = s'.held) (r : VideoRegister)
    (data : UInt8) : (s.write r data).held = (s'.write r data).held := by
  obtain ⟨hgraphics, hdelayed, hball, hdelayedBall⟩ := Held.mk.inj h
  cases r with
  | graphics p =>
    cases p <;> simp [held, write, writeGraphics, hgraphics, hdelayed, hball, hdelayedBall]
  | _ => simp [held, write, hgraphics, hdelayed, hball, hdelayedBall]

/-- and the bits that choose have no part in it. -/
theorem held_write_of_choosesDelay (s : VideoRegisters) {r : VideoRegister}
    (h : r.choosesDelay = true) (data : UInt8) : (s.write r data).held = s.held := by
  cases r with
  | delayPlayer p => rfl
  | delayBall => rfl
  | _ => cases h

/-- Writes to the bits that choose do not have a part in what there is to choose from. -/
theorem held_writeAll_filter (writes : List RegisterWrite) :
    (powerOn.writeAll (writes.filter fun w => !w.register.choosesDelay)).held
      = (powerOn.writeAll writes).held := by
  refine seen_foldl_filter (v := held) ?_ ?_ writes powerOn
  · intro s s' w h
    exact held_write_congr h w.register w.data
  · intro s w hw
    exact s.held_write_of_choosesDelay (by simpa using hw) w.data

/-! ## What is held -/

section

variable (p : Player) (writes : List RegisterWrite)

/-- A player's graphics are what was written last for it, -/
theorem graphics_writeAll :
    (powerOn.writeAll writes).graphics.get p = lastWritten (.graphics p) writes :=
  field_writeAll (v := fun s => s.graphics.get p) (d := id)
    (fun s r data => s.graphics_write r data p) (PerPlayer.get_both 0 p) writes

/-- and behind them is what was written last for it before graphics were written for
the other player. -/
theorem delayedGraphics_writeAll :
    (powerOn.writeAll writes).delayedGraphics.get p
      = lastWritten (.graphics p) (beforeLast (·.register == .graphics p.other) writes) :=
  copy_writeAll (v := fun s => s.graphics.get p) (w := fun s => s.delayedGraphics.get p) (d := id)
    (fun s r data => s.graphics_write r data p) (fun s r data => s.delayedGraphics_write r data p)
    (PerPlayer.get_both 0 p) rfl writes

/-- The ball is enabled as it was last, -/
theorem ballEnabled_writeAll :
    (powerOn.writeAll writes).ballEnabled = bitAt (lastWritten .enableBall writes) 1 :=
  field_writeAll (d := (bitAt · 1)) ballEnabled_write rfl writes

/-- and behind that is how it was enabled before graphics were written for player two. -/
theorem delayedBallEnabled_writeAll :
    (powerOn.writeAll writes).delayedBallEnabled
      = bitAt (lastWritten .enableBall (beforeLast (·.register == .graphics .two) writes)) 1 :=
  copy_writeAll (d := (bitAt · 1)) ballEnabled_write delayedBallEnabled_write rfl rfl writes

/-- The bit that chooses is what was written last to it, for a player, -/
theorem delayPlayer_writeAll :
    (powerOn.writeAll writes).delayPlayer.get p = bitAt (lastWritten (.delayPlayer p) writes) 0 :=
  field_writeAll (v := fun s => s.delayPlayer.get p) (d := (bitAt · 0))
    (fun s r data => s.delayPlayer_write r data p) (PerPlayer.get_both false p) writes

/-- and for the ball. -/
theorem delayBall_writeAll :
    (powerOn.writeAll writes).delayBall = bitAt (lastWritten .delayBall writes) 0 :=
  field_writeAll (d := (bitAt · 0)) delayBall_write rfl writes

end

end VideoRegisters

namespace Tia

/-- Whatever the chip was asked for: a player shows the graphics that were written last
for it, or, if its bit is set, those that were written last for it before graphics were
last written for the other player. The ball is shown if it was enabled last, or, if its
bit is set, if it was enabled last before graphics were last written for player two.
What was not written since the last reset is 0. And both values of all three are the
same in a run without any write to the bits. -/
theorem shown_by_history (calls : List Call) :
    let r := (powerOn.run calls).scene.registers
    let past := pastWrites calls
    (∀ p : Player,
        r.shownGraphics p
          = lastWritten (.graphics p)
              (if bitAt (lastWritten (.delayPlayer p) past) 0 = true then
                beforeLast (·.register == .graphics p.other) past
              else past))
      ∧ r.shownBall
        = bitAt
            (lastWritten .enableBall
              (if bitAt (lastWritten .delayBall past) 0 = true then
                beforeLast (·.register == .graphics .two) past
              else past))
            1
      ∧ (powerOn.run
            (calls.filter (Call.storesOnly fun w => !w.register.choosesDelay))).scene.registers.held
        = r.held := by
  intro r past
  have hr : r = VideoRegisters.powerOn.writeAll past := registers_run calls
  refine ⟨?_, ?_, ?_⟩
  · intro p
    rw [hr, VideoRegisters.shownGraphics, VideoRegisters.delayPlayer_writeAll]
    split
    · exact VideoRegisters.delayedGraphics_writeAll p past
    · exact VideoRegisters.graphics_writeAll p past
  · rw [hr, VideoRegisters.shownBall, VideoRegisters.delayBall_writeAll]
    split
    · exact VideoRegisters.delayedBallEnabled_writeAll past
    · exact VideoRegisters.ballEnabled_writeAll past
  · rw [registers_run, pastWrites_filter, hr]
    exact VideoRegisters.held_writeAll_filter past

/-- With delay, graphics that are written twice show as they were when those of the other
player were written in between, here at another address of the same register; and the
ball is shown as it was enabled then. -/
theorem shown_by_history_delayed :
    let calls : List Call := [.write 0x1B 0x11, .write 0x1F 0x02, .write 0x5C 0x22, .tick 5,
      .write 0x1B 0x33, .write 0x1F 0x00, .write 0x25 0x01, .write 0x27 0x01]
    (powerOn.run calls).scene.registers.shownGraphics .one = 0x11
      ∧ (powerOn.run calls).scene.registers.shownGraphics .two = 0x22
      ∧ (powerOn.run calls).scene.registers.shownBall = true := by
  obtain ⟨hplayers, hball, -⟩ := shown_by_history [.write 0x1B 0x11, .write 0x1F 0x02,
    .write 0x5C 0x22, .tick 5, .write 0x1B 0x33, .write 0x1F 0x00, .write 0x25 0x01,
    .write 0x27 0x01]
  exact ⟨(hplayers .one).trans (by decide), (hplayers .two).trans (by decide),
    hball.trans (by decide)⟩

end Tia

end VideoComputer
