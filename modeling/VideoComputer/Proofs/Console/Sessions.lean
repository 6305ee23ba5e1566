/-
VideoComputer.Proofs.Console.Sessions — what can be asked of the console, and
what it executes to answer.

A console is only ever used by being asked for something: an instruction, a
frame, a reset, another cartridge, an input event, a picture. A `Session` is a
console together with a record of what was executed since its last reset. Each
entry of the record is the console as it was when the instruction began, so
that everything about the instruction can be told from it: how many cycles it
took, and for how many dots it stalled.

* `Session.run` — a console that is asked for one thing after the other.
* `Session.cycles`, `dots`, `clocks` — sums over the record.
* `Session.call_runFrame` — a frame, with a cartridge in the slot.
-/
import VideoComputer.Proofs.Console.Frames

namespace VideoComputer.Console

/-! ## Calls -/

/-- Something a console can be asked for. -/
inductive Call where
  | step
  | runFrame
  | reset
  | insert (cartridge : Cartridge)
  | send (event : InputEvent)
  | takePicture
  deriving DecidableEq, Repr

namespace Call

/-- Whether the call resets the console. -/
def resets : Call → Bool
  | .reset | .insert _ => true
  | .step | .runFrame | .send _ | .takePicture => false

/-- Whether the call lets time pass in whole frames, if at all. -/
def isPaced : Call → Bool
  | .runFrame | .send _ | .takePicture => true
  | .step | .reset | .insert _ => false

/-- Whether the call asks for a frame. -/
def isFrame : Call → Bool
  | .runFrame => true
  | .step | .reset | .insert _ | .send _ | .takePicture => false

end Call

/-- To put a cartridge in is to put it on the bus and to reset the console. -/
theorem insert_eq (c : Console) (cartridge : Cartridge) :
    c.insert cartridge
      = reset { c with
          machine := { c.machine with memory := c.machine.memory.insert cartridge } } := rfl

/-! ## Sessions -/

/-- A console and what it has done since its last reset. -/
structure Session where
  console : Console
  /-- The instructions that were executed, oldest first, each as the console it
  found. -/
  executed : List Console
  /-- Frames that were run to their end. -/
  frames : Nat

namespace Session

/-- A console that has done nothing since it was switched on or reset. -/
def fresh (c : Console) : Session := ⟨c, [], 0⟩

/-- The session after a call. What a call leaves of the console is kept even if it is
stopped; only a frame that is run to its end counts. -/
def call (s : Session) : Call → Session
  | .step =>
    { s with console := s.console.step.console, executed := s.executed ++ [s.console] }
  | .runFrame =>
    match s.console.runFrame with
    | ⟨console, _, _, none⟩ =>
      { console, executed := s.executed ++ s.console.instructionsOfFrame, frames := s.frames + 1 }
    | ⟨console, _, _, some _⟩ => { s with console }
  | .reset => fresh s.console.reset
  | .insert cartridge => fresh (s.console.insert cartridge)
  | .send event => { s with console := s.console.send event }
  | .takePicture => { s with console := s.console.takePicture.2 }

/-- The session after several calls. -/
def run (s : Session) (calls : List Call) : Session := calls.foldl call s

@[simp] theorem run_nil (s : Session) : s.run [] = s := rfl

@[simp] theorem run_cons (s : Session) (call : Call) (calls : List Call) :
    s.run (call :: calls) = (s.call call).run calls := rfl

theorem run_append (s : Session) (calls calls' : List Call) :
    s.run (calls ++ calls') = (s.run calls).run calls' := List.foldl_append

/-- The session of a console that is switched on and then asked for one thing
after the other. -/
def played (settings : Settings) (calls : List Call) : Session :=
  (fresh (Console.powerOn settings)).run calls

/-! ## Sums over the record -/

/-- Cycles since the last reset, the sum of what the instructions took. -/
def cycles (s : Session) : Nat := cyclesOf s.executed

/-- Dots by which the video chip was advanced since the last reset. -/
def dots (s : Session) : Nat := dotsOf s.executed

/-- Cycles for which the timer was clocked since the last reset. -/
def clocks (s : Session) : Nat := clocksOf s.executed

/-! ## Frames -/

/-- A call for a frame executes the loop of the frame, with a cartridge in the
slot, -/
theorem call_runFrame {s : Session} (h : s.console.hasCartridge = true) :
    ∃ c', FrameLoop s.console.takeInput s.console.instructionsOfFrame c'
      ∧ s.call .runFrame
          = ⟨c'.nextFrame, s.executed ++ s.console.instructionsOfFrame, s.frames + 1⟩ := by
  obtain ⟨c', notices, hloop, hframe⟩ := runFrame_of_hasCartridge h
  refine ⟨c', hloop, ?_⟩
  simp only [call, hframe]

/-- and does nothing without one. -/
theorem call_runFrame_of_empty {s : Session} (h : s.console.hasCartridge = false) :
    s.call .runFrame = s := by
  simp only [call, runFrame_of_empty h]

end Session

end VideoComputer.Console
