/-
VideoComputer.Proofs.Console.FrameCount — what the count of a frame's dots is worth.

The console counts the dots of the current frame in 32 bits. An instruction adds to the
count, and only a frame takes from it again. Nothing bounds the number of instructions
that a host asks for one by one, so the count can overflow. That stops the console in the
middle of an instruction: its dots have passed, but they are not counted, and a frame that
is asked for then does not know of them.

The count is exact as long as no addition overflows, and it is behind by the dots of each
instruction with which it did. An instruction takes at least six dots and at most a line,
which tells after how many instructions an overflow is possible, and after how many there
is no way around it.

* `singleSteps` — instructions that are asked for one by one.
* `singleSteps_exact_iff` — none of them overflows just if there is room for them all.
* `Session.Counted` — the dots since the last reset, in terms of the count.
* `Session.counted_call`, `Session.counted_run` — this holds in every session.
* `frame_count_exact_iff` — when the count is exact, and how long it stays so.
-/
import VideoComputer.Proofs.Console.Sessions

namespace VideoComputer.Console

/-! ## One instruction -/

theorem stop_step_eq_none_iff (c : Console) : c.step.stop = none ↔ c.overflows = false := by
  obtain ⟨hover, hstop, -⟩ | ⟨hover, hstop, -⟩ := c.step_counts_or_stops <;> simp [hover, hstop]

/-- An instruction is stopped where the count has no room for its dots. -/
theorem stop_step_eq_overflow_iff (c : Console) :
    c.step.stop = some .overflow ↔ 2 ^ 32 ≤ c.frameDots.toNat + c.dotsOfStep := by
  have hroom : c.overflows = true ↔ 2 ^ 32 ≤ c.frameDots.toNat + c.dotsOfStep := decide_eq_true_iff
  rw [← hroom]
  obtain ⟨hover, hstop, -⟩ | ⟨hover, hstop, -⟩ := c.step_counts_or_stops <;> simp [hover, hstop]

/-- An overflow is all that stops an instruction. -/
theorem stop_step_of_ne_none {c : Console} (h : c.step.stop ≠ none) :
    c.step.stop = some .overflow := by
  obtain ⟨-, hstop, -⟩ | ⟨-, hstop, -⟩ := c.step_counts_or_stops
  · exact absurd hstop h
  · exact hstop

/-- The loop of a frame never meets one. -/
theorem FrameLoop.filter_overflows {c c' : Console} {executed : List Console}
    (h : FrameLoop c executed c') : executed.filter overflows = [] := by
  induction h with
  | done => rfl
  | next hlasts _ ih => simp [ih, overflows_of_lasts hlasts]

/-! ## Single instructions -/

/-- Instructions that are asked for one by one, each as the console it finds. What was
stopped by an overflow goes on with the next one. -/
def singleSteps : (n : Nat) → Console → List Console
  | 0, _ => []
  | n + 1, c => c :: singleSteps n c.step.console

/-- Each has six dots at least and a line at most. -/
theorem dotsOf_singleSteps (n : Nat) (c : Console) :
    6 * n ≤ dotsOf (c.singleSteps n) ∧ dotsOf (c.singleSteps n) ≤ lineLength * n := by
  induction n generalizing c with
  | zero => exact ⟨Nat.le_refl _, Nat.le_refl _⟩
  | succ n ih =>
    have hleast := c.six_le_dotsOfStep
    have hmost := c.dotsOfStep_le
    obtain ⟨hlower, hupper⟩ := ih c.step.console
    rw [singleSteps, dotsOf_cons, Nat.mul_succ, Nat.mul_succ]
    constructor <;> omega

/-- None of them overflows just if the count has room for the dots of all. -/
theorem singleSteps_exact_iff (n : Nat) (c : Console) :
    (∀ i ∈ c.singleSteps n, i.step.stop = none)
      ↔ c.frameDots.toNat + dotsOf (c.singleSteps n) < 2 ^ 32 := by
  induction n generalizing c with
  | zero => simpa [singleSteps] using c.frameDots.toNat_lt
  | succ n ih =>
    have hfirst := c.stop_step_eq_overflow_iff
    rw [singleSteps, List.forall_mem_cons, ih, dotsOf_cons]
    obtain ⟨-, hstop, hcount⟩ | ⟨-, hstop, -⟩ := c.step_counts_or_stops
    · simp only [hstop, hcount, true_and, Nat.add_assoc]
    · have hover := hfirst.mp hstop
      simp only [hstop, reduceCtorEq, false_and, false_iff]
      omega

/-! ## Sessions -/

namespace Session

/-- The dots since the last reset that the count has lost: those of the instructions with
which it overflowed. -/
def lost (s : Session) : Nat := dotsOf (s.executed.filter Console.overflows)

/-- Since the last reset, whole frames have passed, the dots that are counted for the
current one, and the dots that overflows lost. -/
def Counted (s : Session) : Prop :=
  s.dots = s.frames * dotsPerFrame.toNat + s.console.frameDots.toNat + s.lost

/-- A session begins with nothing counted. -/
theorem counted_fresh {c : Console} (h : c.frameDots = 0) : (fresh c).Counted := by
  show 0 = 0 * dotsPerFrame.toNat + c.frameDots.toNat + 0
  rw [h, Nat.zero_mul]
  rfl

/-- The dots of an instruction have passed, whether it was stopped or not, -/
theorem dots_step (s : Session) : (s.call .step).dots = s.dots + s.console.dotsOfStep := by
  show dotsOf (s.executed ++ [s.console]) = _
  rw [dotsOf_append, dotsOf_cons, dotsOf_nil]
  rfl

/-- and if it was, they are lost. -/
theorem lost_step (s : Session) :
    (s.call .step).lost
      = s.lost + if s.console.overflows then s.console.dotsOfStep else 0 := by
  show dotsOf ((s.executed ++ [s.console]).filter Console.overflows) = _
  rw [List.filter_append, dotsOf_append, List.filter_cons]
  cases s.console.overflows <;> simp [lost]

/-- The dots of an instruction are counted, or lost. -/
theorem counted_step {s : Session} (h : s.Counted) : (s.call .step).Counted := by
  unfold Counted at h ⊢
  rw [dots_step, lost_step, h]
  show _ = s.frames * dotsPerFrame.toNat + s.console.step.console.frameDots.toNat + _
  obtain ⟨hover, -, hcount⟩ | ⟨hover, -, hcount⟩ := s.console.step_counts_or_stops
  · rw [hover, hcount]
    simp only [Bool.false_eq_true, if_false]
    omega
  · rw [hover, hcount, if_pos rfl]
    omega

/-- Those of a frame are counted. -/
theorem counted_frame {s : Session} (h : s.Counted) : (s.call .runFrame).Counted := by
  cases hslot : s.console.hasCartridge with
  | false =>
    rw [call_runFrame_of_empty hslot]
    exact h
  | true =>
    obtain ⟨c', hloop, hcall⟩ := call_runFrame hslot
    have hdots : dotsOf s.executed
        = s.frames * dotsPerFrame.toNat + s.console.frameDots.toNat + s.lost := h
    obtain ⟨hcount, hover⟩ := hloop.dots_eq
    rw [frameDots_takeInput] at hcount
    have hrest := frameDots_nextFrame_toNat hover
    have hlost : dotsOf ((s.executed ++ s.console.instructionsOfFrame).filter Console.overflows)
        = s.lost := by
      rw [List.filter_append, hloop.filter_overflows, List.append_nil]
      rfl
    rw [hcall]
    show dotsOf (s.executed ++ s.console.instructionsOfFrame)
      = (s.frames + 1) * dotsPerFrame.toNat + c'.nextFrame.frameDots.toNat
        + dotsOf ((s.executed ++ s.console.instructionsOfFrame).filter Console.overflows)
    rw [dotsOf_append, hdots, hrest, hlost, Nat.succ_mul]
    omega

/-- No call gets the dots wrong, -/
theorem counted_call {s : Session} (h : s.Counted) (call : Call) : (s.call call).Counted := by
  cases call with
  | step => exact counted_step h
  | runFrame => exact counted_frame h
  | reset => exact counted_fresh rfl
  | insert cartridge => exact counted_fresh rfl
  | send event => exact h
  | takePicture => exact h

/-- and so no session does. -/
theorem counted_run {s : Session} (h : s.Counted) (calls : List Call) : (s.run calls).Counted := by
  induction calls generalizing s with
  | nil => exact h
  | cons call calls ih => exact ih (counted_call h call)

theorem counted_played (settings : Settings) (calls : List Call) :
    (played settings calls).Counted := counted_run (counted_fresh rfl) calls

/-- Nothing is lost just if no instruction was stopped, since each has dots. -/
theorem lost_eq_zero_iff (s : Session) :
    s.lost = 0 ↔ ∀ c ∈ s.executed, c.step.stop = none := by
  rw [lost]
  generalize s.executed = executed
  induction executed with
  | nil => simp
  | cons c executed ih =>
    have hleast := c.six_le_dotsOfStep
    rw [List.forall_mem_cons, stop_step_eq_none_iff, ← ih, List.filter_cons]
    cases c.overflows with
    | false => simp
    | true =>
      simp only [if_true, dotsOf_cons, reduceCtorEq, false_and, iff_false]
      omega

/-- Instructions that are asked for one by one are added to the record. -/
theorem executed_run_steps (s : Session) (n : Nat) :
    (s.run (.replicate n .step)).executed = s.executed ++ s.console.singleSteps n := by
  induction n generalizing s with
  | zero => exact (List.append_nil _).symm
  | succ n ih =>
    rw [List.replicate_succ, run_cons, ih]
    show (s.executed ++ [s.console]) ++ _ = s.executed ++ (s.console :: _)
    rw [List.append_assoc]
    rfl

/-- So many instructions in a row take more dots than the count has room for. -/
theorem stopped_of_many {s : Session} (h : s.Counted) {n : Nat}
    (hn : 2 ^ 32 ≤ s.console.frameDots.toNat + 6 * n) :
    let later := s.run (.replicate n .step)
    (∃ c ∈ later.executed, c.step.stop = some .overflow)
      ∧ later.frames * dotsPerFrame.toNat + later.console.frameDots.toNat < later.dots := by
  intro later
  have hlater : later.Counted := counted_run h _
  have hleast := (s.console.dotsOf_singleSteps n).1
  have hroom : ¬ ∀ c ∈ s.console.singleSteps n, c.step.stop = none := by
    rw [singleSteps_exact_iff]
    omega
  simp only [not_forall] at hroom
  obtain ⟨c, hc, hstopped⟩ := hroom
  have hexecuted : c ∈ later.executed := by
    rw [show later.executed = _ from s.executed_run_steps n]
    exact List.mem_append_right _ hc
  have hlost : later.lost ≠ 0 := fun hnone => hstopped (later.lost_eq_zero_iff.mp hnone c hexecuted)
  unfold Counted at hlater
  exact ⟨⟨c, hexecuted, stop_step_of_ne_none hstopped⟩, by omega⟩

end Session

/-! ## The count -/

/-- An instruction is stopped just if the count has no room for its dots, and leaves the
count as it was then. However the console was used since it was switched on: the dots
since the last reset are those of the frames that were run, those that are counted for the
current one, and those of the instructions that were stopped; so the count is exact if and
only if there was none. Of any number of instructions that are executed one by one from
there on, none is stopped if and only if the count has room for all their dots, of which
each has six at least and a line at most. -/
theorem frame_count_exact_iff (settings : Settings) (calls : List Call) (n : Nat) :
    let s := Session.played settings calls
    let further := s.console.singleSteps n
    (∀ c : Console,
        (c.step.stop = some .overflow ↔ 2 ^ 32 ≤ c.frameDots.toNat + c.dotsOfStep)
          ∧ (c.step.stop ≠ none →
              c.step.stop = some .overflow ∧ c.step.console.frameDots = c.frameDots))
      ∧ s.dots = s.frames * dotsPerFrame.toNat + s.console.frameDots.toNat + s.lost
      ∧ ((∀ c ∈ s.executed, c.step.stop = none)
        ↔ s.dots = s.frames * dotsPerFrame.toNat + s.console.frameDots.toNat)
      ∧ (s.run (.replicate n .step)).executed = s.executed ++ further
      ∧ ((∀ c ∈ further, c.step.stop = none)
        ↔ s.console.frameDots.toNat + dotsOf further < 2 ^ 32)
      ∧ 6 * n ≤ dotsOf further ∧ dotsOf further ≤ lineLength * n := by
  intro s further
  have hcounted : s.dots = s.frames * dotsPerFrame.toNat + s.console.frameDots.toNat + s.lost :=
    Session.counted_played settings calls
  refine ⟨?_, hcounted, ?_, s.executed_run_steps n, s.console.singleSteps_exact_iff n,
    s.console.dotsOf_singleSteps n⟩
  · intro c
    refine ⟨c.stop_step_eq_overflow_iff, ?_⟩
    intro hstopped
    obtain ⟨-, hstop, -⟩ | ⟨-, hstop, hcount⟩ := c.step_counts_or_stops
    · exact absurd hstop hstopped
    · exact ⟨hstop, hcount⟩
  · rw [← s.lost_eq_zero_iff]
    omega

/-- A console that is switched on and then asked for 715827883 instructions one by one, of
six dots at least: one of them is stopped, and the count does not tell in the end what has
passed. -/
theorem frame_count_overflows :
    let s := Session.played .standard (.replicate 715827883 .step)
    (∃ c ∈ s.executed, c.step.stop = some .overflow)
      ∧ s.frames * dotsPerFrame.toNat + s.console.frameDots.toNat < s.dots := by
  have hstopped := Session.stopped_of_many (Session.counted_played .standard [])
    (n := 715827883) (Nat.le_add_left_of_le (by decide))
  unfold Session.played at hstopped ⊢
  rw [Session.run_nil] at hstopped
  exact hstopped

end VideoComputer.Console
