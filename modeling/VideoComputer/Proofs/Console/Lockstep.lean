/-
VideoComputer.Proofs.Console.Lockstep — the chips keep time with the processor.

The video chip runs three times as fast as the processor, and the timer as fast
as the processor. The console does not run them together, though: it lets the
processor execute an instruction, lets the video chip draw for that long, adds
the stall the video chip reports, and clocks the timer with the sum in cycles.
That sum is taken by dividing the stall by three. It loses nothing, because a
stall ends with the line, lines are whole numbers of cycles long, and the beam
is where a whole number of cycles since the reset has taken it.

* `Bus.passCycle` — one cycle of the processor, with the chips in step.
* `InLockstep` — an instruction with its stall is such cycles in a row.
* `OnBeat` — the invariant: where the beam is, and that nobody waits.
* `played_inLockstep` — a console that is used as it is meant to be.
-/
import VideoComputer.Proofs.Console.Sessions

namespace VideoComputer

namespace Bus

/-! ## Chips in step -/

/-- One cycle of the processor passes for the chips: three dots, and one step of
the timer. -/
def passCycle (b : Bus) : Bus :=
  { b with
    tia := b.tia.stepDots Console.dotsPerCycle
    riot := { b.riot with timer := b.riot.timer.step } }

/-- Several cycles pass, one after the other. -/
def passCycles : (cycles : Nat) → Bus → Bus
  | 0, b => b
  | cycles + 1, b => passCycles cycles b.passCycle

/-- The same chips with no wait pending. -/
def dropWait (b : Bus) : Bus := { b with tia := b.tia.dropWait }

/-- Each chip may have its share of the cycles in one go. -/
theorem passCycles_eq (n : Nat) (b : Bus) :
    b.passCycles n
      = ⟨b.tia.stepDots (Console.dotsPerCycle * n), b.riot.clock n, b.cartridge⟩ := by
  induction n generalizing b with
  | zero => rfl
  | succ n ih =>
    show b.passCycle.passCycles n = _
    rw [ih, Nat.mul_succ, Nat.add_comm _ Console.dotsPerCycle, Tia.stepDots_add]
    rfl

end Bus

namespace Console

/-! ## One instruction -/

/-- What it means that an instruction keeps the clocks together. Its stall is a
whole number of cycles, so that the video chip is advanced by three dots for
each cycle it is said to take; and the chips are left as those cycles leave
them, one after the other. -/
structure InLockstep (c : Console) : Prop where
  stall_dvd : dotsPerCycle ∣ c.stall
  dots_eq : c.dotsOfStep = dotsPerCycle * c.step.cycles
  chips_eq : c.step.console.chips = c.chipsAfterInstruction.dropWait.passCycles c.step.cycles

/-- The dots of such an instruction are those that the video chip draws, one after the
other. -/
theorem InLockstep.tia_eq {c : Console} (h : c.InLockstep) :
    c.step.console.chips.tia = c.chipsAfterInstruction.tia.dropWait.stepDots c.dotsOfStep := by
  rw [h.chips_eq, Bus.passCycles_eq, h.dots_eq]
  rfl

/-- Whether the beam is where `n` cycles since the reset have taken it, and no
wait is pending. -/
structure OnBeat (c : Console) (n : Nat) : Prop where
  beam_x : c.chips.tia.beam.x = dotsPerCycle * n % lineLength
  idle : c.chips.tia.waiting = false

/-- A line is a whole number of cycles long. -/
theorem dotsPerCycle_dvd_lineLength : dotsPerCycle ∣ lineLength := by decide

namespace OnBeat

variable {c : Console} {n : Nat}

theorem beam_lt (h : c.OnBeat n) : c.chips.tia.beam.x < lineLength := by
  rw [h.beam_x]
  exact Nat.mod_lt _ Tia.lineLength_pos

/-- The beam is between two cycles. -/
theorem dvd_beam (h : c.OnBeat n) : dotsPerCycle ∣ c.chips.tia.beam.x := by
  rw [h.beam_x]
  exact (Nat.dvd_mod_iff dotsPerCycle_dvd_lineLength).mpr (Nat.dvd_mul_right _ n)

/-- What the beam's place leaves of the line, and what the instruction leaves of
that, are whole numbers of cycles. -/
theorem stall_dvd (h : c.OnBeat n) : dotsPerCycle ∣ c.stall := by
  rw [stall, Tia.stall_tick, Tia.stallAfter, beam_chipsAfterInstruction]
  split
  · have hrest := Nat.dvd_sub dotsPerCycle_dvd_lineLength h.dvd_beam
    exact Nat.dvd_sub hrest (Nat.dvd_mul_right _ _)
  · exact Nat.dvd_zero _

/-- So an instruction that begins on the beat keeps the clocks together. -/
theorem inLockstep (h : c.OnBeat n) : c.InLockstep := by
  have hdots : c.dotsOfStep = dotsPerCycle * c.step.cycles := by
    have hcycles : c.step.cycles = c.machine.step.cycles + c.stall / dotsPerCycle := rfl
    rw [hcycles, Nat.mul_add, Nat.mul_div_cancel' h.stall_dvd]
    rfl
  refine ⟨h.stall_dvd, hdots, ?_⟩
  have hbeam : c.chipsAfterInstruction.tia.beam.x < lineLength := by
    rw [beam_chipsAfterInstruction]
    exact h.beam_lt
  have hstall : c.chipsAfterInstruction.tia.stallAfter c.instructionDots = c.stall :=
    (Tia.stall_tick _ _).symm
  have htick := c.chipsAfterInstruction.tia.tick_eq_stepDots c.instructionDots hbeam
  rw [hstall, ← dotsOfStep, hdots] at htick
  rw [chips_step, htick, Bus.passCycles_eq]
  show _ = (⟨c.chipsAfterInstruction.tia.dropWait.stepDots _, _, _⟩ : Bus)
  rw [Tia.stepDots_dropWait]
  rfl

/-- An instruction takes the beam on by its cycles, and leaves no wait
pending. -/
theorem step (h : c.OnBeat n) : c.step.console.OnBeat (n + c.step.cycles) := by
  have hchips := h.inLockstep.chips_eq
  rw [Bus.passCycles_eq] at hchips
  constructor
  · have hbeam : c.chipsAfterInstruction.dropWait.tia.beam = c.chips.tia.beam :=
      c.beam_chipsAfterInstruction
    have hlt : c.chipsAfterInstruction.dropWait.tia.beam.x < lineLength := by
      rw [hbeam]
      exact h.beam_lt
    rw [hchips, Tia.beam_x_stepDots _ _ hlt, hbeam, h.beam_x, Nat.mod_add_mod, Nat.mul_add]
  · rw [hchips, Tia.waiting_stepDots]
    rfl

/-! ## Between instructions -/

theorem collectPicture (h : c.OnBeat n) : c.collectPicture.OnBeat n := ⟨h.beam_x, h.idle⟩

theorem nextFrame (h : c.OnBeat n) : c.nextFrame.OnBeat n := ⟨h.beam_x, h.idle⟩

/-- Input reaches the ports and the fire buttons only. -/
theorem takeInput (h : c.OnBeat n) : c.takeInput.OnBeat n := by
  unfold Console.takeInput
  simp only
  split
  · exact ⟨h.beam_x, h.idle⟩
  · exact ⟨h.beam_x, h.idle⟩

/-- The instructions of a frame, one after the other. -/
theorem frameLoop {c' : Console} {executed : List Console} (h : c.OnBeat n)
    (hloop : FrameLoop c executed c') :
    c'.OnBeat (n + cyclesOf executed) ∧ ∀ i ∈ executed, i.InLockstep := by
  induction hloop generalizing n with
  | done => exact ⟨h, fun _ hi => nomatch hi⟩
  | next _ _ ih =>
    obtain ⟨hbeat, hall⟩ := ih h.step.collectPicture
    rw [cyclesOf_cons, ← Nat.add_assoc]
    exact ⟨hbeat, List.forall_mem_cons.mpr ⟨h.inLockstep, hall⟩⟩

end OnBeat

/-! ## Resets -/

/-- The beat begins where the video chip does. -/
theorem onBeat_zero {c : Console} {t : Tia} (h : c.chips.tia = t) (hx : t.beam.x = 0)
    (hw : t.waiting = false) : c.OnBeat 0 := by
  rw [← h] at hx hw
  exact ⟨hx, hw⟩

theorem onBeat_powerOn (settings : Settings) : (powerOn settings).OnBeat 0 :=
  onBeat_zero (Bus.tia_machineReset _) rfl rfl

theorem onBeat_reset (c : Console) : c.reset.OnBeat 0 :=
  onBeat_zero (Bus.tia_machineReset _) rfl rfl

theorem onBeat_insert (c : Console) (cartridge : Cartridge) : (c.insert cartridge).OnBeat 0 := by
  rw [insert_eq]
  exact onBeat_reset _

/-! ## Sessions -/

namespace Session

/-- The invariant of a session: the beam is where the cycles of its record have
taken it, and every instruction of the record kept the clocks together. -/
structure InLockstep (s : Session) : Prop where
  onBeat : s.console.OnBeat s.cycles
  executed : ∀ c ∈ s.executed, c.InLockstep

theorem inLockstep_fresh {c : Console} (h : c.OnBeat 0) : (fresh c).InLockstep :=
  ⟨h, fun _ hi => nomatch hi⟩

/-- A call goes on with the beat, or begins it anew, -/
theorem inLockstep_call {s : Session} (h : s.InLockstep) (call : Call) :
    (s.call call).InLockstep := by
  cases call with
  | step =>
    constructor
    · show s.console.step.console.OnBeat (cyclesOf (s.executed ++ [s.console]))
      rw [cyclesOf_append, cyclesOf_cons, cyclesOf_nil, Nat.add_zero]
      exact h.onBeat.step
    · have hlast := List.forall_mem_singleton.mpr h.onBeat.inLockstep
      exact List.forall_mem_append.mpr ⟨h.executed, hlast⟩
  | runFrame =>
    cases hslot : s.console.hasCartridge with
    | false =>
      rw [call_runFrame_of_empty hslot]
      exact h
    | true =>
      obtain ⟨c', hloop, hcall⟩ := call_runFrame hslot
      obtain ⟨hbeat, hall⟩ := h.onBeat.takeInput.frameLoop hloop
      rw [hcall]
      constructor
      · show c'.nextFrame.OnBeat (cyclesOf (s.executed ++ s.console.instructionsOfFrame))
        rw [cyclesOf_append]
        exact hbeat.nextFrame
      · exact List.forall_mem_append.mpr ⟨h.executed, hall⟩
  | reset => exact inLockstep_fresh s.console.onBeat_reset
  | insert cartridge => exact inLockstep_fresh (s.console.onBeat_insert cartridge)
  | send event => exact ⟨⟨h.onBeat.beam_x, h.onBeat.idle⟩, h.executed⟩
  | takePicture => exact ⟨⟨h.onBeat.beam_x, h.onBeat.idle⟩, h.executed⟩

/-- and so does every run, -/
theorem inLockstep_run {s : Session} (h : s.InLockstep) (calls : List Call) :
    (s.run calls).InLockstep := by
  induction calls generalizing s with
  | nil => exact h
  | cons call calls ih => exact ih (inLockstep_call h call)

/-- from the power-on on. -/
theorem inLockstep_played (settings : Settings) (calls : List Call) :
    (played settings calls).InLockstep :=
  inLockstep_run (inLockstep_fresh (onBeat_powerOn settings)) calls

end Session

/-- Instructions that keep the clocks together advance the video chip by three
dots for each of their cycles. -/
theorem dotsOf_of_inLockstep {executed : List Console} (h : ∀ c ∈ executed, c.InLockstep) :
    dotsOf executed = dotsPerCycle * cyclesOf executed := by
  induction executed with
  | nil => rfl
  | cons c executed ih =>
    obtain ⟨hfirst, hrest⟩ := List.forall_mem_cons.mp h
    rw [dotsOf_cons, cyclesOf_cons, hfirst.dots_eq, ih hrest, Nat.mul_add]

/-- The beam is where the dots of its record have taken it. -/
theorem Session.InLockstep.beam_x {s : Session} (h : s.InLockstep) :
    s.console.chips.tia.beam.x = s.dots % lineLength := by
  rw [h.onBeat.beam_x, Session.dots, dotsOf_of_inLockstep h.executed, Session.cycles]

/-- However a console is used: since its last reset the video chip was advanced
by three dots for each cycle, and the timer was clocked once for it; the beam is
where those cycles take it, at a multiple of three; no wait is pending between
two calls; and each instruction kept the clocks together. -/
theorem played_inLockstep (settings : Settings) (calls : List Call) :
    let s := Session.played settings calls
    s.dots = dotsPerCycle * s.cycles
      ∧ s.clocks = s.cycles
      ∧ s.console.chips.tia.beam.x = dotsPerCycle * s.cycles % lineLength
      ∧ dotsPerCycle ∣ s.console.chips.tia.beam.x
      ∧ s.console.chips.tia.waiting = false
      ∧ ∀ c ∈ s.executed, c.InLockstep := by
  intro s
  have hs : s.InLockstep := Session.inLockstep_played settings calls
  exact ⟨dotsOf_of_inLockstep hs.executed, rfl, hs.onBeat.beam_x, hs.onBeat.dvd_beam,
    hs.onBeat.idle, hs.executed⟩

/-- A cartridge with one instruction that waits for the end of the line, where a reset
enters it; everywhere else are instructions that do nothing. -/
def waitingCartridge : Cartridge where
  name := "waiting"
  rom := ((Array.replicate 2048 0xFA).set 0x2FA 0x85 (by simp)).set 0x2FB 0x02 (by simp)
  size_eq := .inl (by simp)

/-- It takes the beam to the end of its line, and the next one begins there. -/
theorem played_inLockstep_waiting :
    let s := Session.played .standard [.insert waitingCartridge, .step, .step]
    s.cycles = 78 ∧ s.clocks = 78 ∧ s.dots = 234 ∧ s.console.chips.tia.beam.x = 6
      ∧ ∃ c ∈ s.executed, c.stall = 219 ∧ c.InLockstep := by
  intro s
  obtain ⟨hdots, hclocks, hbeam, -, -, hexecuted⟩ :=
    played_inLockstep .standard [.insert waitingCartridge, .step, .step]
  have hcycles : s.cycles = 78 := by decide +kernel
  have hbegun : s.executed.head? = some ((powerOn .standard).insert waitingCartridge) := rfl
  have hfirst := List.mem_of_head? hbegun
  refine ⟨hcycles, hclocks.trans hcycles, ?_, ?_, _, hfirst, ?_, hexecuted _ hfirst⟩
  · rw [hdots, hcycles]
    rfl
  · rw [hbeam, hcycles]
    rfl
  · decide +kernel

end Console

end VideoComputer
