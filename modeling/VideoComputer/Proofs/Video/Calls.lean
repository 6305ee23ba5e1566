/-
VideoComputer.Proofs.Video.Calls — what can be asked of the video chip, and
what stays true whatever is asked.

A chip that exists was switched on and then asked for something again and
again. `Tia.Call` lists what can be asked as far as it changes the chip;
reading a register does not. A property of all chips that exist is a property
of the chip at power-on that every call keeps.

* `Reachable` — the chips that exist.
* `Reachable.beam_inRange` — the beam is inside a line, on a line of the
  picture.
-/
import VideoComputer.Proofs.Video.DotByDot
import VideoComputer.Video.Write

namespace VideoComputer

namespace Tia

/-! ## Calls -/

/-- A call that changes the chip. -/
inductive Call where
  | write (address : UInt16) (data : UInt8)
  | tick (dots : Nat)
  | takeFrame
  | setFire (player : Player) (pressed : Bool)
  | reset
  deriving DecidableEq, Repr

namespace Call

/-- Whether the call asks for the program to be stalled until the line ends. -/
def requestsWait : Call → Bool
  | .write address _ => VideoRegister.decode address == .waitForLine
  | .tick _ | .takeFrame | .setFire .. | .reset => false

/-- Whether the call takes no time on the chip and leaves its past alone. -/
def isInstant : Call → Bool
  | .write .. | .takeFrame | .setFire .. => true
  | .tick _ | .reset => false

end Call

/-- The chip after a call. -/
def call (t : Tia) : Call → Tia
  | .write address data => t.write address data
  | .tick dots => (t.tick dots).tia
  | .takeFrame => t.takeFrame.2
  | .setFire player pressed => t.setFire player pressed
  | .reset => t.reset

/-- The chip after several calls. -/
def run (t : Tia) (calls : List Call) : Tia := calls.foldl call t

@[simp] theorem run_nil (t : Tia) : t.run [] = t := rfl

@[simp] theorem run_cons (t : Tia) (c : Call) (calls : List Call) :
    t.run (c :: calls) = (t.call c).run calls := rfl

/-- A chip that was switched on and then asked for whatever it was. -/
inductive Reachable : Tia → Prop
  | powerOn : Reachable powerOn
  | call {t : Tia} (h : Reachable t) (c : Call) : Reachable (t.call c)

/-- What can be reached can be reached by way of something else. -/
theorem Reachable.run {t : Tia} (h : Reachable t) (calls : List Call) :
    Reachable (t.run calls) := by
  induction calls generalizing t with
  | nil => exact h
  | cons c calls ih => exact ih (h.call c)

/-! ## Calls without time -/

/-- A write moves no beam. -/
@[simp] theorem beam_write (t : Tia) (address : UInt16) (data : UInt8) :
    (t.write address data).beam = t.beam := by
  rw [write]
  cases VideoRegister.decode address <;> rfl

/-- A write publishes nothing, and takes nothing. -/
@[simp] theorem published_write (t : Tia) (address : UInt16) (data : UInt8) :
    (t.write address data).published = t.published := by
  rw [write]
  cases VideoRegister.decode address <;> rfl

/-- A write keeps a pending wait, and only one register asks for one. -/
@[simp] theorem waiting_write (t : Tia) (address : UInt16) (data : UInt8) :
    (t.write address data).waiting
      = (t.waiting || VideoRegister.decode address == .waitForLine) := by
  rw [write]
  cases VideoRegister.decode address with
  | waitForLine => exact (Bool.or_true _).symm
  | _ => exact (Bool.or_false _).symm

/-- Asking again for a wait that is pending changes nothing. -/
theorem write_waitForLine {t : Tia} (h : t.waiting = true) {address : UInt16}
    (ha : VideoRegister.decode address = .waitForLine) (data : UInt8) :
    t.write address data = t := by
  obtain ⟨scene, canvas, beam, waiting, fire, published⟩ := t
  cases h
  rw [write, ha]
  rfl

end Tia

/-! ## The beam -/

/-- Whether the beam is at a dot of a line of the picture. -/
structure Beam.InRange (b : Beam) : Prop where
  x_lt : b.x < lineLength
  y_lt : b.y < lineCount

namespace Tia

/-- Every line has a next one. -/
theorem nextLine_lt (t : Tia) : t.nextLine < lineCount := by
  unfold nextLine
  split
  · decide
  · exact Nat.mod_lt _ (by decide)

theorem beam_inRange_powerOn : powerOn.beam.InRange := ⟨by decide, by decide⟩

/-- A dot keeps the beam in its range, -/
theorem beam_inRange_stepDot {t : Tia} (h : t.beam.InRange) : t.stepDot.beam.InRange := by
  refine ⟨?_, ?_⟩
  · rw [t.beam_x_stepDot h.x_lt]
    exact Nat.mod_lt _ lineLength_pos
  · rw [stepDot_eq]
    split
    · exact t.nextLine_lt
    · exact h.y_lt

/-- so do several, -/
theorem beam_inRange_stepDots {t : Tia} (h : t.beam.InRange) (n : Nat) :
    (t.stepDots n).beam.InRange := by
  induction n generalizing t with
  | zero => exact h
  | succ n ih => exact ih (beam_inRange_stepDot h)

/-- Time passes, and the beam stays in its range. -/
theorem beam_inRange_tick {t : Tia} (h : t.beam.InRange) (n : Nat) :
    (t.tick n).tia.beam.InRange := by
  rw [t.tick_eq_stepDots n h.x_lt]
  exact beam_inRange_stepDots h _

/-- and so does every call. -/
theorem beam_inRange_call {t : Tia} (h : t.beam.InRange) (c : Call) : (t.call c).beam.InRange := by
  cases c with
  | write address data =>
    rw [call, beam_write]
    exact h
  | tick dots => exact beam_inRange_tick h dots
  | takeFrame => exact h
  | setFire player pressed => exact h
  | reset => exact beam_inRange_powerOn

/-- The beam never leaves the line it is on, nor the lines of the picture. -/
theorem Reachable.beam_inRange {t : Tia} (h : Reachable t) : t.beam.InRange := by
  induction h with
  | powerOn => exact beam_inRange_powerOn
  | call _ c ih => exact beam_inRange_call ih c

/-! ## A pending wait -/

/-- No wait is pending after a tick. -/
theorem waiting_tick {t : Tia} (h : t.beam.x < lineLength) (n : Nat) :
    (t.tick n).tia.waiting = false := by
  rw [t.tick_eq_stepDots n h]
  rfl

/-- A wait is pending after a call only if one was pending before, or is asked
for. -/
theorem waiting_call {t : Tia} (h : t.beam.InRange) (hw : t.waiting = false) (c : Call) :
    (t.call c).waiting = c.requestsWait := by
  cases c with
  | write address data => rw [call, waiting_write, hw, Bool.false_or]; rfl
  | tick dots => exact waiting_tick h.x_lt dots
  | takeFrame => exact hw
  | setFire player pressed => exact hw
  | reset => rfl

/-- No wait is pending as long as none is asked for. -/
theorem waiting_run {t : Tia} (h : t.beam.InRange) (hw : t.waiting = false) (calls : List Call)
    (hc : ∀ c ∈ calls, c.requestsWait = false) : (t.run calls).waiting = false := by
  induction calls generalizing t with
  | nil => exact hw
  | cons c calls ih =>
    obtain ⟨hfirst, hrest⟩ := List.forall_mem_cons.mp hc
    exact ih (beam_inRange_call h c) ((waiting_call h hw c).trans hfirst) hrest

/-- A call without time keeps a pending wait. -/
theorem waiting_call_of_instant {t : Tia} (hw : t.waiting = true) {c : Call}
    (hc : c.isInstant = true) : (t.call c).waiting = true := by
  cases c with
  | write address data => rw [call, waiting_write, hw, Bool.true_or]
  | takeFrame => exact hw
  | setFire player pressed => exact hw
  | tick dots => cases hc
  | reset => cases hc

/-- While a wait is pending, no time passes and the chip is not reset, further
requests for a wait may as well be left out. -/
theorem run_filter_requestsWait {t : Tia} (hw : t.waiting = true) (calls : List Call)
    (hc : ∀ c ∈ calls, c.isInstant = true) :
    t.run calls = t.run (calls.filter fun c => !c.requestsWait) := by
  induction calls generalizing t with
  | nil => rfl
  | cons c calls ih =>
    obtain ⟨hfirst, hrest⟩ := List.forall_mem_cons.mp hc
    have htail := ih (waiting_call_of_instant hw hfirst) hrest
    cases hreq : c.requestsWait with
    | false => simpa [hreq] using htail
    | true =>
      have hsame : t.call c = t := by
        cases c with
        | write address data => exact write_waitForLine hw (eq_of_beq hreq) data
        | _ => cases hreq
      simp only [List.filter_cons, hreq, Bool.not_true, Bool.false_eq_true, if_false]
      rw [run_cons, hsame, ih hw hrest]

end Tia

end VideoComputer
