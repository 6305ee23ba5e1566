/-
VideoComputer.Proofs.Riot.Underflows — the flags of the timer tell when it
underflowed.

The timer underflows in the cycle in which its counter goes from 0 to 255. Both
flags are raised by that and by nothing else, and differ in what lowers them: one
goes down when the flags are read and when the timer or the chip starts anew, the
other one only when the chip does. So whether a flag is up is a question about the
past: whether there was an underflow since the last call that lowers it.

* `IntervalTimer.Underflows`, `UnderflowsWithin` — what an underflow is.
* `Riot.UnderflowedSince` — an underflow behind the last call of some kind.
* `up_run_iff` — a flag, by what raises and lowers it, from a call to a run.
* `flags_tell_underflows` — the two flags, and what reads leave alone.
-/
import Mathlib.Data.List.Induction
import VideoComputer.Proofs.Riot.Calls

namespace VideoComputer

/-! ## Underflows -/

namespace IntervalTimer

/-- Whether the counter goes from 0 to 255 in the next cycle. -/
def Underflows (t : IntervalTimer) : Prop := t.counter = 0 ∧ t.step.counter = 0xFF

/-- Whether it does so in one of the next cycles. -/
def UnderflowsWithin (t : IntervalTimer) (cycles : Nat) : Prop :=
  ∃ k < cycles, (t.clock k).Underflows

theorem underflows_iff (t : IntervalTimer) :
    t.Underflows ↔ t.counter = 0 ∧ t.interval ≤ t.prescaler + 1 := by
  rw [Underflows, step]
  refine and_congr_right fun hzero => ?_
  split
  · simp [hzero]
    omega
  · simp [decrement, hzero]
    omega

instance : DecidablePred Underflows := fun _ => inferInstanceAs (Decidable (_ ∧ _))

@[simp] theorem not_underflowsWithin_zero (t : IntervalTimer) : ¬ t.UnderflowsWithin 0 := by
  rintro ⟨k, hk, -⟩
  exact Nat.not_lt_zero k hk

theorem underflowsWithin_succ (t : IntervalTimer) (cycles : Nat) :
    t.UnderflowsWithin (cycles + 1) ↔ t.Underflows ∨ t.step.UnderflowsWithin cycles := by
  constructor
  · rintro ⟨_ | k, hk, hunderflows⟩
    · exact .inl hunderflows
    · exact .inr ⟨k, Nat.lt_of_succ_lt_succ hk, hunderflows⟩
  · rintro (hnow | ⟨k, hk, hlater⟩)
    · exact ⟨0, Nat.succ_pos _, hnow⟩
    · exact ⟨k + 1, Nat.succ_lt_succ hk, hlater⟩

/-- A cycle raises both flags if the counter underflows in it, and touches none
otherwise. -/
theorem underflow_step (t : IntervalTimer) :
    (t.step.underflow = true ↔ t.underflow = true ∨ t.Underflows)
      ∧ (t.step.everUnderflowed = true ↔ t.everUnderflowed = true ∨ t.Underflows) := by
  simp only [underflows_iff, step, decrement]
  split
  · rename_i hwaits
    simp [Nat.not_le.mpr hwaits]
  · rename_i hdue
    split
    · rename_i hzero
      simp [hzero, Nat.not_lt.mp hdue]
    · rename_i hnonzero
      simp [hnonzero]

/-- A flag that every underflow raises, and nothing else in a cycle changes, is up after
some cycles if it was up or there was an underflow. -/
theorem up_clock_iff {flag : IntervalTimer → Bool}
    (hstep : ∀ t, flag t.step = true ↔ flag t = true ∨ t.Underflows) (cycles : Nat)
    (t : IntervalTimer) :
    flag (t.clock cycles) = true ↔ flag t = true ∨ t.UnderflowsWithin cycles := by
  induction cycles generalizing t with
  | zero => simp [clock]
  | succ cycles ih => rw [clock, ih, hstep, underflowsWithin_succ, or_assoc]

end IntervalTimer

namespace Riot

/-! ## Underflows in the past -/

/-- Whether the timer underflowed behind the last of the calls that are looked for, or at
all if there is no such call. -/
def UnderflowedSince (IsMark : Call → Prop) (start : Riot) (calls : List Call) : Prop :=
  ∃ before c after, calls = before ++ c :: after
    ∧ (start.run before).timer.UnderflowsWithin c.cycles ∧ ∀ c' ∈ after, ¬ IsMark c'

/-- Whether the timer underflowed at all. -/
def Underflowed (start : Riot) (calls : List Call) : Prop :=
  UnderflowedSince (fun _ => False) start calls

section

variable {IsMark : Call → Prop} {start : Riot}

theorem not_underflowedSince_nil : ¬ UnderflowedSince IsMark start [] := by
  rintro ⟨before, c, after, heq, -⟩
  exact List.append_ne_nil_of_right_ne_nil _ (List.cons_ne_nil _ _) heq.symm

/-- The underflow was in the last call, or before it and the last call is none of those
that are looked for. -/
theorem underflowedSince_concat (calls : List Call) (c : Call) :
    UnderflowedSince IsMark start (calls ++ [c])
      ↔ (start.run calls).timer.UnderflowsWithin c.cycles
        ∨ ¬ IsMark c ∧ UnderflowedSince IsMark start calls := by
  constructor
  · rintro ⟨before, c', after, heq, hunderflows, hafter⟩
    cases after using List.reverseRecOn with
    | nil =>
      obtain ⟨rfl, hc⟩ := List.append_inj' heq rfl
      obtain rfl : c = c' := (List.cons.inj hc).1
      exact .inl hunderflows
    | append_singleton after last =>
      rw [← List.cons_append, ← List.append_assoc] at heq
      obtain ⟨rfl, hc⟩ := List.append_inj' heq rfl
      obtain rfl : c = last := (List.cons.inj hc).1
      refine .inr ⟨hafter c (by simp), before, c', after, rfl, hunderflows, ?_⟩
      intro c' hc'
      exact hafter c' (List.mem_append_left _ hc')
  · rintro (hunderflows | ⟨hc, before, c', after, rfl, hunderflows, hafter⟩)
    · exact ⟨calls, c, [], rfl, hunderflows, by simp⟩
    · refine ⟨before, c', after ++ [c], by simp, hunderflows, ?_⟩
      intro c' hc'
      obtain hc' | hc' := List.mem_append.mp hc'
      · exact hafter c' hc'
      · rwa [List.mem_singleton.mp hc']

/-- A flag that is down at first, that every underflow raises and that the calls looked
for lower, is up if the timer underflowed since the last of them. -/
theorem up_run_iff {flag : IntervalTimer → Bool} (hstart : flag start.timer = false)
    (hcall : ∀ (r : Riot) (c : Call), flag (r.call c).timer = true
      ↔ r.timer.UnderflowsWithin c.cycles ∨ ¬ IsMark c ∧ flag r.timer = true)
    (calls : List Call) :
    flag (start.run calls).timer = true ↔ UnderflowedSince IsMark start calls := by
  induction calls using List.reverseRecOn with
  | nil => simp [hstart, not_underflowedSince_nil]
  | append_singleton calls c ih => rw [run_concat, hcall, underflowedSince_concat, ih]

end

/-! ## The two flags -/

/-- The flag is up behind a call if there was an underflow during it, or if it was up
and not acknowledged. -/
theorem underflow_call (r : Riot) (c : Call) :
    (r.call c).timer.underflow = true
      ↔ r.timer.UnderflowsWithin c.cycles ∨ ¬ c.Acknowledges ∧ r.timer.underflow = true := by
  cases c with
  | read address =>
    rw [call, afterRead_eq, Call.Acknowledges]
    split <;> simp_all [Call.cycles, IntervalTimer.acknowledge]
  | write address data =>
    rw [call, timer_write, Call.Acknowledges]
    split <;> simp_all [Call.cycles, IntervalTimer.load]
  | clock cycles =>
    have hclock := IntervalTimer.up_clock_iff (fun t => t.underflow_step.1) cycles r.timer
    simpa [call, clock, Call.cycles, Call.Acknowledges, or_comm] using hclock
  | setPins port pins => simp [call, timer_setPins, Call.cycles, Call.Acknowledges]
  | reset => simp [call, reset, IntervalTimer.powerOn, Call.cycles, Call.Acknowledges]

/-- The other flag is lowered by a reset only. -/
theorem everUnderflowed_call (r : Riot) (c : Call) :
    (r.call c).timer.everUnderflowed = true
      ↔ r.timer.UnderflowsWithin c.cycles ∨ ¬ c = .reset ∧ r.timer.everUnderflowed = true := by
  cases c with
  | read address =>
    rw [call, afterRead_eq]
    split <;> simp [Call.cycles, IntervalTimer.acknowledge]
  | write address data =>
    rw [call, timer_write]
    split <;> simp [Call.cycles, IntervalTimer.load]
  | clock cycles =>
    have hclock := IntervalTimer.up_clock_iff (fun t => t.underflow_step.2) cycles r.timer
    simpa [call, clock, Call.cycles, or_comm] using hclock
  | setPins port pins => simp [call, timer_setPins, Call.cycles]
  | reset => simp [call, reset, IntervalTimer.powerOn, Call.cycles]

/-- The flags show in the two top bits. -/
theorem bitAt_flags (t : IntervalTimer) (n : Nat) :
    bitAt t.flags n = (t.underflow && 7 == n || t.everUnderflowed && 6 == n) := by
  rw [IntervalTimer.flags, bitAt_or, bitAt_flagAt _ (by decide), bitAt_flagAt _ (by decide)]

/-- A flag address reads the flags. -/
theorem read_of_readsFlags (r : Riot) {address : UInt16} (h : ReadsFlags address) :
    r.read address = r.timer.flags := by
  rw [read, (RiotSource.decode_eq_iff address).1.mpr h]
  rfl

/-- However the chip was used since power-on: its flags are read with bit 7 set if the
timer underflowed since the flags were last read, the timer started or the chip reset,
with bit 6 set if it underflowed since the chip was last reset, and with the other bits
clear. Such a read lowers bit 7 and changes nothing else; other reads change nothing. -/
theorem flags_tell_underflows :
    (∀ (calls : List Call) (address : UInt16), ReadsFlags address →
        let flags := (powerOn.run calls).read address
        (bitAt flags 7 = true ↔ UnderflowedSince Call.Acknowledges powerOn calls)
          ∧ (bitAt flags 6 = true ↔ UnderflowedSince (· = .reset) powerOn calls)
          ∧ ∀ n < 6, bitAt flags n = false)
      ∧ ∀ (r : Riot) (address : UInt16),
          r.afterRead address
            = if ReadsFlags address then { r with timer := { r.timer with underflow := false } }
              else r := by
  refine ⟨?_, afterRead_eq⟩
  intro calls address haddress
  rw [read_of_readsFlags _ haddress]
  simp only [bitAt_flags]
  refine ⟨?_, ?_, ?_⟩
  · have hflag := up_run_iff (show powerOn.timer.underflow = false from rfl) underflow_call calls
    simpa using hflag
  · have hflag := up_run_iff (show powerOn.timer.everUnderflowed = false from rfl)
      everUnderflowed_call calls
    simpa using hflag
  · intro n hn
    simp [show ¬ 7 = n by omega, show ¬ 6 = n by omega]

/-- An underflow is read once in bit 7, and remembered in bit 6. -/
theorem flags_tell_underflows_readTwice :
    ReadsFlags 0x0285
      ∧ bitAt ((powerOn.run [.write 0x0294 0, .clock 1]).read 0x0285) 7 = true
      ∧ bitAt ((powerOn.run [.write 0x0294 0, .clock 1, .read 0x0287]).read 0x0285) 7 = false
      ∧ bitAt ((powerOn.run [.write 0x0294 0, .clock 1, .read 0x0287]).read 0x0285) 6 = true := by
  have hflags : ReadsFlags 0x0285 := by decide
  have hwithin : (powerOn.run [.write 0x0294 0]).timer.UnderflowsWithin 1 :=
    ⟨0, by decide, by decide⟩
  obtain ⟨htell, -⟩ := flags_tell_underflows
  refine ⟨hflags, ?_, ?_, ?_⟩
  · rw [(htell _ _ hflags).1]
    exact ⟨[.write 0x0294 0], .clock 1, [], rfl, hwithin, by simp⟩
  · rw [Bool.eq_false_iff, ne_eq, (htell _ _ hflags).1]
    refine mt (underflowedSince_concat [.write 0x0294 0, .clock 1] (.read 0x0287)).mp ?_
    rintro (hnow | ⟨hread, -⟩)
    · exact IntervalTimer.not_underflowsWithin_zero _ hnow
    · exact hread (by decide)
  · rw [(htell _ _ hflags).2.1]
    exact ⟨[.write 0x0294 0], .clock 1, [.read 0x0287], rfl, hwithin, by simp⟩

end Riot

end VideoComputer
