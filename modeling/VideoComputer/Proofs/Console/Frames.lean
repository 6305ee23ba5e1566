/-
VideoComputer.Proofs.Console.Frames — what an instruction costs the chips, and
how many instructions a frame has.

An instruction is at least two cycles long, which are six dots, and it never
takes more than a line: without a stall it is at most seventeen cycles long,
and a stall ends with the line the instruction began on. So the loop that runs
a frame comes to its end, and it runs over by less than a line.

`runUntilFrameEnd` is given as many instructions as it may execute.
`FrameLoop` is the loop without such a bound, which goes on for as long as the
frame lasts. The bound is never met.

* `dotsOfStep_le`, `six_le_dotsOfStep` — the dots of one instruction.
* `step_counts_or_stops` — its dots are counted, or the count overflows and stops the console.
* `FrameLoop.dots_eq`, `frameDots_lt`, `length_le` — the dots and the instructions
  of a frame.
* `runFrame_of_hasCartridge` — a frame is what its loop leaves.
-/
import Mathlib.Algebra.GroupWithZero.Nat
import VideoComputer.Console
import VideoComputer.Proofs.Bus.Accesses
import VideoComputer.Proofs.Cpu.Timing
import VideoComputer.Proofs.Video.Stall

namespace VideoComputer.Console

/-! ## One instruction -/

/-- The chips of the console. -/
def chips (c : Console) : Bus := c.machine.memory

/-- The chips when the processor has executed its next instruction and no time
has passed for them yet. -/
def chipsAfterInstruction (c : Console) : Bus := c.machine.step.machine.memory

/-- Dots that the next instruction takes, a stall aside. -/
def instructionDots (c : Console) : Nat := dotsPerCycle * c.machine.step.cycles

/-- Dots for which the next instruction stalls the program, as the video chip
reports it. -/
def stall (c : Console) : Nat := (c.chipsAfterInstruction.tia.tick c.instructionDots).stall

/-- Dots by which the next instruction advances the video chip. -/
def dotsOfStep (c : Console) : Nat := c.instructionDots + c.stall

/-- Cycles for which the next instruction clocks the timer. -/
def clocksOfStep (c : Console) : Nat := c.machine.step.cycles + c.stall / dotsPerCycle

/-- Behind an instruction, each chip has had its share of the time. -/
theorem chips_step (c : Console) :
    c.step.console.chips
      = ⟨(c.chipsAfterInstruction.tia.tick c.instructionDots).tia,
          c.chipsAfterInstruction.riot.clock c.clocksOfStep,
          c.chipsAfterInstruction.cartridge⟩ := rfl

/-- The instruction itself leaves the beam where it was. -/
theorem beam_chipsAfterInstruction (c : Console) :
    c.chipsAfterInstruction.tia.beam = c.chips.tia.beam :=
  Bus.beam_accessed c.machine.accessed_step

/-- An instruction takes two cycles at least, which are six dots. -/
theorem six_le_dotsOfStep (c : Console) : 6 ≤ c.dotsOfStep := by
  have hcycles := c.machine.two_le_cycles_step
  unfold dotsOfStep instructionDots dotsPerCycle
  omega

/-- An instruction takes no more than a line. -/
theorem dotsOfStep_le (c : Console) : c.dotsOfStep ≤ lineLength := by
  have hcycles := c.machine.cycles_step_le
  have hshort : c.instructionDots ≤ lineLength := by
    unfold instructionDots dotsPerCycle lineLength
    omega
  unfold dotsOfStep stall
  rw [Tia.stall_tick, Tia.stallAfter]
  -- a stall makes up what the instruction leaves of the line, and no more
  split
  · omega
  · exact hshort

/-- Whether the count of dots has no room for those of the next instruction. -/
def overflows (c : Console) : Bool := UInt32.size ≤ c.frameDots.toNat + c.dotsOfStep

/-- The next instruction has its dots counted, or the count overflows. Then that stops
the console, and the count stays as it was. -/
theorem step_counts_or_stops (c : Console) :
    (c.overflows = false ∧ c.step.stop = none
        ∧ c.step.console.frameDots.toNat = c.frameDots.toNat + c.dotsOfStep)
      ∨ (c.overflows = true ∧ c.step.stop = some .overflow
        ∧ c.step.console.frameDots = c.frameDots) := by
  have hcount : c.step.console.frameDots
      = (addDots? c.frameDots c.dotsOfStep).getD c.frameDots := rfl
  have hstop : c.step.stop
      = if (addDots? c.frameDots c.dotsOfStep).isNone then some .overflow else none := rfl
  rw [hcount, hstop, addDots?]
  by_cases hroom : c.frameDots.toNat + c.dotsOfStep < UInt32.size
  · refine .inl ⟨decide_eq_false (Nat.not_le.mpr hroom), by rw [if_pos hroom]; rfl, ?_⟩
    rw [if_pos hroom, Option.getD_some, UInt32.toNat_add, UInt32.toNat_ofNat', Nat.add_mod_mod]
    exact Nat.mod_eq_of_lt hroom
  · refine .inr ⟨decide_eq_true (Nat.not_lt.mp hroom), by rw [if_neg hroom]; rfl, ?_⟩
    rw [if_neg hroom]
    rfl

/-- While the frame lasts, there is room for another instruction. -/
theorem overflows_of_lasts {c : Console} (h : c.frameDots < dotsPerFrame) :
    c.overflows = false := by
  have hdots : c.dotsOfStep ≤ 228 := c.dotsOfStep_le
  have hbegun : c.frameDots.toNat < 59659 := UInt32.lt_iff_toNat_lt.mp h
  apply decide_eq_false
  simp only [UInt32.size]
  omega

/-- So its dots are counted, and it is not stopped. -/
theorem counted_step_of_lasts {c : Console} (h : c.frameDots < dotsPerFrame) :
    c.step.stop = none
      ∧ c.step.console.frameDots.toNat = c.frameDots.toNat + c.dotsOfStep := by
  obtain ⟨-, hcounted⟩ | ⟨hover, -⟩ := c.step_counts_or_stops
  · exact hcounted
  · rw [overflows_of_lasts h] at hover
    cases hover

@[simp] theorem frameDots_collectPicture (c : Console) :
    c.collectPicture.frameDots = c.frameDots := rfl

/-- A frame that has come to its end is taken off the count. -/
theorem frameDots_nextFrame_toNat {c : Console} (h : dotsPerFrame.toNat ≤ c.frameDots.toNat) :
    c.nextFrame.frameDots.toNat = c.frameDots.toNat - dotsPerFrame.toNat :=
  UInt32.toNat_sub_of_le _ _ (UInt32.le_iff_toNat_le.mpr h)

@[simp] theorem frameDots_takeInput (c : Console) : c.takeInput.frameDots = c.frameDots := by
  unfold takeInput
  simp only
  split <;> rfl

/-! ## The cartridge -/

/-- No instruction takes the cartridge out. -/
@[simp] theorem hasCartridge_step (c : Console) :
    c.step.console.hasCartridge = c.hasCartridge := by
  have hslot := Bus.cartridge_accessed c.machine.accessed_step
  exact congrArg Option.isSome hslot

@[simp] theorem hasCartridge_collectPicture (c : Console) :
    c.collectPicture.hasCartridge = c.hasCartridge := rfl

@[simp] theorem hasCartridge_takeInput (c : Console) :
    c.takeInput.hasCartridge = c.hasCartridge := by
  unfold takeInput
  simp only
  split <;> rfl

theorem hasCartridge_insert (c : Console) (cartridge : Cartridge) :
    (c.insert cartridge).hasCartridge = true := by
  rw [hasCartridge, cartridge_insert]
  rfl

/-! ## Instructions in a row -/

/-- Cycles that instructions take, each given as the console it found. -/
def cyclesOf (executed : List Console) : Nat := (executed.map fun c => c.step.cycles).sum

/-- Dots by which they advance the video chip. -/
def dotsOf (executed : List Console) : Nat := (executed.map dotsOfStep).sum

/-- Cycles for which they clock the timer. -/
def clocksOf (executed : List Console) : Nat := (executed.map clocksOfStep).sum

@[simp] theorem cyclesOf_nil : cyclesOf [] = 0 := rfl

@[simp] theorem cyclesOf_cons (c : Console) (executed : List Console) :
    cyclesOf (c :: executed) = c.step.cycles + cyclesOf executed := List.sum_cons

@[simp] theorem cyclesOf_append (executed executed' : List Console) :
    cyclesOf (executed ++ executed') = cyclesOf executed + cyclesOf executed' := by
  rw [cyclesOf, List.map_append, List.sum_append_nat]
  rfl

@[simp] theorem dotsOf_nil : dotsOf [] = 0 := rfl

@[simp] theorem dotsOf_cons (c : Console) (executed : List Console) :
    dotsOf (c :: executed) = c.dotsOfStep + dotsOf executed := List.sum_cons

@[simp] theorem dotsOf_append (executed executed' : List Console) :
    dotsOf (executed ++ executed') = dotsOf executed + dotsOf executed' := by
  rw [dotsOf, List.map_append, List.sum_append_nat]
  rfl

/-! ## The loop of a frame -/

/-- The loop of a frame, from one console to another by way of the consoles
that its instructions found. -/
inductive FrameLoop : Console → List Console → Console → Prop
  | done {c : Console} (h : ¬ c.frameDots < dotsPerFrame) : FrameLoop c [] c
  | next {c c' : Console} {executed : List Console} (h : c.frameDots < dotsPerFrame)
      (rest : FrameLoop c.step.console.collectPicture executed c') :
      FrameLoop c (c :: executed) c'

namespace FrameLoop

variable {c c' : Console} {executed : List Console}

/-- The loop counts the dots of its instructions, and it ends when the count has
come to a frame, -/
theorem dots_eq (h : FrameLoop c executed c') :
    c'.frameDots.toNat = c.frameDots.toNat + dotsOf executed
      ∧ dotsPerFrame.toNat ≤ c'.frameDots.toNat := by
  induction h with
  | done hover => exact ⟨rfl, Nat.le_of_not_lt (hover ∘ UInt32.lt_iff_toNat_lt.mpr)⟩
  | @next c c' executed hlasts _ ih =>
    obtain ⟨hcount, hover⟩ := ih
    refine ⟨?_, hover⟩
    rw [hcount, frameDots_collectPicture, (counted_step_of_lasts hlasts).2, dotsOf_cons,
      Nat.add_assoc]

/-- and no later than that. -/
theorem frameDots_lt (h : FrameLoop c executed c')
    (hc : c.frameDots.toNat < dotsPerFrame.toNat + lineLength) :
    c'.frameDots.toNat < dotsPerFrame.toNat + lineLength := by
  induction h with
  | done => exact hc
  | @next c c' executed hlasts _ ih =>
    have hstep := (counted_step_of_lasts hlasts).2
    have hdots := c.dotsOfStep_le
    have hbegun := UInt32.lt_iff_toNat_lt.mp hlasts
    exact ih (by rw [frameDots_collectPicture, hstep]; omega)

/-- Each instruction brings the end of the frame six dots nearer. -/
theorem length_le (h : FrameLoop c executed c') :
    executed.length ≤ (dotsPerFrame.toNat - c.frameDots.toNat + 5) / 6 := by
  induction h with
  | done => exact Nat.zero_le _
  | @next c c' executed hlasts _ ih =>
    have hstep := (counted_step_of_lasts hlasts).2
    have hdots := c.six_le_dotsOfStep
    have hbegun := UInt32.lt_iff_toNat_lt.mp hlasts
    rw [frameDots_collectPicture, hstep] at ih
    rw [List.length_cons]
    omega

/-- The loop leaves the cartridge in the slot. -/
theorem hasCartridge_eq (h : FrameLoop c executed c') : c'.hasCartridge = c.hasCartridge := by
  induction h with
  | done => rfl
  | next _ _ ih => rw [ih, hasCartridge_collectPicture, hasCartridge_step]

end FrameLoop

/-- The instructions of `runUntilFrameEnd`, each as the console it finds. -/
def frameInstructions : (fuel : Nat) → Console → List Console
  | 0, _ => []
  | fuel + 1, c =>
    if c.frameDots < dotsPerFrame then
      c :: frameInstructions fuel c.step.console.collectPicture
    else []

/-- With six dots of fuel for an instruction, fuel for the rest of the frame is
enough for the loop to come to its end, and nothing stops it. -/
theorem frameLoop_runUntilFrameEnd (fuel : Nat) (c : Console) (cycles : Nat)
    (notices : Array Notice) (h : dotsPerFrame.toNat ≤ c.frameDots.toNat + 6 * fuel) :
    ∃ c' notices', FrameLoop c (c.frameInstructions fuel) c'
      ∧ runUntilFrameEnd fuel c cycles notices
          = ⟨c', cycles + cyclesOf (c.frameInstructions fuel), notices', none⟩ := by
  induction fuel generalizing c cycles notices with
  | zero =>
    exact ⟨c, notices, .done (Nat.not_lt.mpr h ∘ UInt32.lt_iff_toNat_lt.mp), rfl⟩
  | succ fuel ih =>
    by_cases hlasts : c.frameDots < dotsPerFrame
    · obtain ⟨hstop, hstep⟩ := counted_step_of_lasts hlasts
      have hdots := c.six_le_dotsOfStep
      obtain ⟨c', notices', hloop, hrun⟩ := ih c.step.console.collectPicture
        (cycles + c.step.cycles) (notices ++ c.step.notices)
        (by rw [frameDots_collectPicture, hstep]; omega)
      refine ⟨c', notices', ?_, ?_⟩
      · rw [frameInstructions, if_pos hlasts]
        exact .next hlasts hloop
      · simp only [runUntilFrameEnd, frameInstructions, if_pos hlasts, hstop, hrun, cyclesOf_cons,
          Nat.add_assoc]
    · refine ⟨c, notices, ?_, ?_⟩
      · rw [frameInstructions, if_neg hlasts]
        exact .done hlasts
      · simp only [runUntilFrameEnd, frameInstructions, if_neg hlasts]
        rfl

/-! ## A frame -/

/-- The instructions of a frame. -/
def instructionsOfFrame (c : Console) : List Console :=
  c.takeInput.frameInstructions maxInstructionsPerFrame

/-- With a cartridge in the slot a frame succeeds. It takes the cycles of its
instructions, and the next frame begins where its loop ends. -/
theorem runFrame_of_hasCartridge {c : Console} (h : c.hasCartridge = true) :
    ∃ c' notices, FrameLoop c.takeInput c.instructionsOfFrame c'
      ∧ c.runFrame = ⟨c'.nextFrame, cyclesOf c.instructionsOfFrame, notices, none⟩ := by
  have hfuel : dotsPerFrame.toNat ≤ c.takeInput.frameDots.toNat + 6 * maxInstructionsPerFrame :=
    Nat.le_trans (by decide) (Nat.le_add_left _ _)
  obtain ⟨c', notices, hloop, hrun⟩ := frameLoop_runUntilFrameEnd maxInstructionsPerFrame
    c.takeInput 0 (c.inbox.toArray.map Notice.input) hfuel
  refine ⟨c', notices, hloop, ?_⟩
  rw [Nat.zero_add] at hrun
  rw [runFrame, if_pos h]
  simp only [hrun]
  rfl

/-- Without one it is refused, and the console is left as it is. -/
theorem runFrame_of_empty {c : Console} (h : c.hasCartridge = false) :
    c.runFrame = ⟨c, 0, #[], some (.refused .noCartridge)⟩ := by
  rw [runFrame, h]
  rfl

/-- A frame is stopped for one reason only: there is no cartridge. -/
theorem stop_runFrame_eq_some_iff (c : Console) (stop : Stop) :
    c.runFrame.stop = some stop ↔ c.hasCartridge = false ∧ stop = .refused .noCartridge := by
  cases h : c.hasCartridge with
  | true =>
    obtain ⟨c', notices, -, hframe⟩ := runFrame_of_hasCartridge h
    simp [hframe]
  | false => simp [runFrame_of_empty h, eq_comm]

end VideoComputer.Console
