/-
VideoComputer.Proofs.Riot.Countdown — where the timer is after any number of
cycles.

A timer that was started counts down once an interval until it underflows, and once
a cycle from then on. Three of its registers take part in that: the counter, the
interval, which the underflow changes, and the prescaler. `Countdown` is what they
hold, and `Countdown.after` gives it for any number of cycles in closed form. Only
the sum of the cycles counts, however they are dealt out and whatever is read and
written in between, as long as the timer does not start anew.

* `Countdown.after_succ` — the closed form goes through the steps of the timer.
* `Countdown.underflows_after_iff` — it underflows at the end of the first countdown
  and every 256 cycles after it.
* `countdown_run` — the registers behind a list of calls.
* `timer_counts_down` — the counter as it is read, and when there was an underflow.
-/
import Mathlib.Logic.Function.Iterate
import Mathlib.Tactic.Ring
import VideoComputer.Proofs.Riot.Underflows

namespace VideoComputer

/-! ## The countdown -/

/-- The registers of the timer that take part in counting. -/
structure Countdown where
  counter : Nat
  interval : Nat
  prescaler : Nat
  deriving DecidableEq, Repr

namespace Countdown

/-- The registers after a cycle. -/
def next (c : Countdown) : Countdown :=
  if c.prescaler + 1 < c.interval then { c with prescaler := c.prescaler + 1 }
  else if c.counter = 0 then ⟨255, 1, 0⟩
  else { c with counter := c.counter - 1, prescaler := 0 }

/-- Whether the counter underflows in the next cycle. -/
def Underflows (c : Countdown) : Prop := c.counter = 0 ∧ c.interval ≤ c.prescaler + 1

/-- Whether it does so in one of the next cycles. -/
def UnderflowsWithin (c : Countdown) (cycles : Nat) : Prop :=
  ∃ k < cycles, (next^[k] c).Underflows

/-- The registers so many cycles after the timer was started from a value. -/
def after (value interval cycles : Nat) : Countdown :=
  let limit := (value + 1) * interval
  if cycles < limit then ⟨value - cycles / interval, interval, cycles % interval⟩
  else ⟨255 - (cycles - limit) % 256, 1, 0⟩

variable {value interval : Nat}

/-- A cycle within the interval counts the prescaler, -/
theorem next_of_lt {counter prescaler : Nat} (h : prescaler + 1 < interval) :
    next ⟨counter, interval, prescaler⟩ = ⟨counter, interval, prescaler + 1⟩ := if_pos h

/-- the last one at 0 wraps the counter and makes it count every cycle, -/
theorem next_zero {prescaler : Nat} (h : interval ≤ prescaler + 1) :
    next ⟨0, interval, prescaler⟩ = ⟨255, 1, 0⟩ := if_neg (Nat.not_lt.mpr h)

/-- and elsewhere it takes one from the counter. -/
theorem next_succ {counter prescaler : Nat} (h : interval ≤ prescaler + 1) :
    next ⟨counter + 1, interval, prescaler⟩ = ⟨counter, interval, 0⟩ := if_neg (Nat.not_lt.mpr h)

/-! ## The closed form -/

/-- Whole intervals are taken from the counter one by one, -/
theorem after_of_lt (value : Nat) {n rest : Nat} (hrest : rest < interval) (hn : n ≤ value) :
    after value interval (rest + interval * n) = ⟨value - n, interval, rest⟩ := by
  have hpos : 0 < interval := Nat.zero_lt_of_lt hrest
  have hlt : rest + interval * n < (value + 1) * interval := by
    calc rest + interval * n < interval * (n + 1) := by rw [Nat.mul_succ]; omega
      _ ≤ interval * (value + 1) := Nat.mul_le_mul_left _ (Nat.succ_le_succ hn)
      _ = (value + 1) * interval := Nat.mul_comm ..
  rw [after, if_pos hlt, Nat.add_mul_div_left _ _ hpos, Nat.div_eq_of_lt hrest, Nat.zero_add,
    Nat.add_mul_mod_self_left, Nat.mod_eq_of_lt hrest]

/-- and beyond its end single cycles are. -/
theorem after_limit_add (value interval n : Nat) :
    after value interval ((value + 1) * interval + n) = ⟨255 - n % 256, 1, 0⟩ := by
  rw [after, if_neg (by omega), Nat.add_sub_cancel_left]

/-- A number of cycles ends in some interval of the countdown, or beyond them all. -/
theorem cases_cycles (value : Nat) (hpos : 0 < interval) (cycles : Nat) :
    (∃ n rest, n ≤ value ∧ rest < interval ∧ cycles = rest + interval * n)
      ∨ ∃ n, cycles = (value + 1) * interval + n := by
  by_cases h : cycles < (value + 1) * interval
  · refine .inl ⟨cycles / interval, cycles % interval, ?_, Nat.mod_lt _ hpos,
      (Nat.mod_add_div ..).symm⟩
    exact Nat.lt_succ_iff.mp ((Nat.div_lt_iff_lt_mul hpos).mpr h)
  · exact .inr ⟨cycles - (value + 1) * interval, by omega⟩

/-- With its last cycle an interval is whole. -/
theorem whole_interval {rest : Nat} (h : rest + 1 = interval) (n : Nat) :
    rest + interval * n + 1 = (n + 1) * interval := by
  rw [← h]
  ring

/-- The closed form goes through the steps of the timer. -/
theorem after_succ (hpos : 0 < interval) (cycles : Nat) :
    after value interval (cycles + 1) = (after value interval cycles).next := by
  obtain ⟨n, rest, hn, hrest, rfl⟩ | ⟨n, rfl⟩ := cases_cycles value hpos cycles
  · rw [after_of_lt value hrest hn]
    by_cases hwaits : rest + 1 < interval
    · rw [next_of_lt hwaits, Nat.add_right_comm, after_of_lt value hwaits hn]
    · rw [whole_interval (by omega)]
      obtain rfl | ⟨below, hbelow⟩ : n = value ∨ ∃ below, value - n = below + 1 :=
        hn.eq_or_lt.imp_right fun h => ⟨value - n - 1, by omega⟩
      · -- the last interval ends
        rw [Nat.sub_self, next_zero (by omega)]
        exact after_limit_add n interval 0
      · have hnext := after_of_lt value hpos (show n + 1 ≤ value by omega)
        rw [Nat.zero_add, Nat.mul_comm] at hnext
        rw [hbelow, next_succ (by omega), hnext, show value - (n + 1) = below by omega]
  · rw [Nat.add_assoc, after_limit_add, after_limit_add]
    obtain hzero | ⟨below, hbelow⟩ : 255 - n % 256 = 0 ∨ ∃ below, 255 - n % 256 = below + 1 :=
      (Nat.eq_zero_or_pos _).imp_right fun h => ⟨255 - n % 256 - 1, by omega⟩
    · rw [hzero, next_zero (Nat.le_refl _), show 255 - (n + 1) % 256 = 255 by omega]
    · rw [hbelow, next_succ (Nat.le_refl _), show 255 - (n + 1) % 256 = below by omega]

/-- The closed form is what the cycles come to, one after the other. -/
theorem after_eq_iterate (hpos : 0 < interval) (cycles : Nat) :
    after value interval cycles = next^[cycles] ⟨value, interval, 0⟩ := by
  induction cycles with
  | zero =>
    have hstart := after_of_lt value hpos (Nat.zero_le _)
    simpa using hstart
  | succ cycles ih => rw [after_succ hpos, ih, Function.iterate_succ_apply']

/-- The first underflow ends the countdown, and then there is one every 256 cycles. -/
theorem underflows_after_iff (hpos : 0 < interval) (cycles : Nat) :
    (after value interval cycles).Underflows
      ↔ ∃ n, cycles + 1 = (value + 1) * interval + 256 * n := by
  constructor
  · obtain ⟨n, rest, hn, hrest, rfl⟩ | ⟨n, rfl⟩ := cases_cycles value hpos cycles
    · rw [after_of_lt value hrest hn]
      rintro ⟨hzero : value - n = 0, hdue : interval ≤ rest + 1⟩
      obtain rfl : n = value := by omega
      exact ⟨0, whole_interval (by omega) n⟩
    · rw [after_limit_add]
      rintro ⟨hzero : 255 - n % 256 = 0, -⟩
      exact ⟨(n + 1) / 256, by omega⟩
  · rintro ⟨_ | n, hcycles⟩
    · have hwhole := whole_interval (Nat.sub_add_cancel hpos) value
      obtain rfl : cycles = interval - 1 + interval * value := by omega
      rw [after_of_lt value (by omega) (Nat.le_refl _)]
      exact ⟨Nat.sub_self _, by show interval ≤ interval - 1 + 1; omega⟩
    · obtain rfl : cycles = (value + 1) * interval + (256 * n + 255) := by omega
      rw [after_limit_add]
      exact ⟨by show 255 - (256 * n + 255) % 256 = 0; omega, Nat.le_refl _⟩

/-! ## Underflows among several cycles -/

@[simp] theorem not_underflowsWithin_zero (c : Countdown) : ¬ c.UnderflowsWithin 0 := by
  rintro ⟨k, hk, -⟩
  exact Nat.not_lt_zero k hk

/-- Some cycles and some more underflow in one part or in the other. -/
theorem underflowsWithin_add (c : Countdown) (m n : Nat) :
    c.UnderflowsWithin (m + n) ↔ c.UnderflowsWithin m ∨ (next^[m] c).UnderflowsWithin n := by
  constructor
  · rintro ⟨k, hk, hunderflows⟩
    by_cases hfirst : k < m
    · exact .inl ⟨k, hfirst, hunderflows⟩
    · refine .inr ⟨k - m, by omega, ?_⟩
      rwa [← Function.iterate_add_apply, Nat.sub_add_cancel (Nat.not_lt.mp hfirst)]
  · rintro (⟨k, hk, hunderflows⟩ | ⟨k, hk, hunderflows⟩)
    · exact ⟨k, by omega, hunderflows⟩
    · refine ⟨k + m, by omega, ?_⟩
      rwa [Function.iterate_add_apply]

/-- A timer that was started underflows once its last interval has ended. -/
theorem underflowsWithin_started_iff (hpos : 0 < interval) (cycles : Nat) :
    (⟨value, interval, 0⟩ : Countdown).UnderflowsWithin cycles
      ↔ (value + 1) * interval ≤ cycles := by
  have hlimit : 0 < (value + 1) * interval := Nat.mul_pos (Nat.succ_pos _) hpos
  simp only [UnderflowsWithin, ← after_eq_iterate hpos, underflows_after_iff hpos]
  constructor
  · rintro ⟨k, hk, n, hn⟩
    omega
  · intro h
    exact ⟨(value + 1) * interval - 1, by omega, 0, by omega⟩

end Countdown

/-! ## The timer -/

namespace IntervalTimer

/-- The registers that take part in counting. -/
def countdown (t : IntervalTimer) : Countdown := ⟨t.counter.toNat, t.interval, t.prescaler⟩

theorem countdown_load (t : IntervalTimer) (value : UInt8) (interval : Nat) :
    (t.load value interval).countdown = ⟨value.toNat, interval, 0⟩ := rfl

theorem countdown_acknowledge (t : IntervalTimer) : t.acknowledge.countdown = t.countdown := rfl

theorem countdown_step (t : IntervalTimer) : t.step.countdown = t.countdown.next := by
  by_cases hwaits : t.prescaler + 1 < t.interval
  · rw [step, if_pos hwaits]
    exact (Countdown.next_of_lt hwaits).symm
  · have hdue := Nat.not_lt.mp hwaits
    rw [step, if_neg hwaits, decrement]
    by_cases hzero : t.counter = 0
    · have hcountdown : t.countdown = ⟨0, t.interval, t.prescaler⟩ := by rw [countdown, hzero]; rfl
      rw [if_pos hzero, hcountdown, Countdown.next_zero hdue]
      rfl
    · have hnat : t.counter.toNat ≠ 0 := fun h => hzero (UInt8.toNat_inj.mp h)
      obtain ⟨below, hbelow⟩ := Nat.exists_eq_add_one_of_ne_zero hnat
      have hcountdown : t.countdown = ⟨below + 1, t.interval, t.prescaler⟩ := by
        rw [countdown, hbelow]
      have hcounter : (t.counter - 1).toNat = below := by
        have hone : (1 : UInt8) ≤ t.counter := Nat.pos_of_ne_zero hnat
        rw [UInt8.toNat_sub_of_le _ _ hone, hbelow]
        rfl
      rw [if_neg hzero, hcountdown, Countdown.next_succ hdue, countdown, hcounter]

/-- Clocking the timer is counting down. -/
theorem countdown_clock (cycles : Nat) (t : IntervalTimer) :
    (t.clock cycles).countdown = Countdown.next^[cycles] t.countdown := by
  induction cycles generalizing t with
  | zero => rfl
  | succ cycles ih => rw [clock, ih, countdown_step, Function.iterate_succ_apply]

/-- The timer underflows where its countdown does. -/
theorem underflowsWithin_iff (t : IntervalTimer) (cycles : Nat) :
    t.UnderflowsWithin cycles ↔ t.countdown.UnderflowsWithin cycles := by
  have hunderflows (t : IntervalTimer) : t.Underflows ↔ t.countdown.Underflows := by
    rw [underflows_iff, ← UInt8.toNat_inj]
    rfl
  simp only [UnderflowsWithin, Countdown.UnderflowsWithin, hunderflows, countdown_clock]

end IntervalTimer

namespace Riot

/-! ## The timer behind a list of calls -/

variable {calls : List Call}

theorem cyclesOf_cons (c : Call) (calls : List Call) :
    cyclesOf (c :: calls) = c.cycles + cyclesOf calls := List.sum_cons

theorem cyclesOf_concat (calls : List Call) (c : Call) :
    cyclesOf (calls ++ [c]) = cyclesOf calls + c.cycles := by
  simp [cyclesOf]

/-- Whatever is done with the chip, it counts on, as long as the timer does not start
anew. -/
theorem countdown_run (r : Riot) (h : ∀ c ∈ calls, ¬ c.Restarts) :
    (r.run calls).timer.countdown = Countdown.next^[cyclesOf calls] r.timer.countdown := by
  induction calls generalizing r with
  | nil => rfl
  | cons c calls ih =>
    obtain ⟨hfirst, hrest⟩ := List.forall_mem_cons.mp h
    have hcall : (r.call c).timer.countdown = Countdown.next^[c.cycles] r.timer.countdown := by
      rw [← IntervalTimer.countdown_clock]
      obtain htimer | htimer := r.timer_call hfirst
      · rw [htimer]
      · rw [htimer, IntervalTimer.countdown_acknowledge]
    rw [run_cons, ih _ hrest, hcall, cyclesOf_cons, Nat.add_comm, Function.iterate_add_apply]

/-- And it underflows in one of the calls if it does so in one of their cycles. -/
theorem underflowed_iff (r : Riot) (h : ∀ c ∈ calls, ¬ c.Restarts) :
    Underflowed r calls ↔ r.timer.countdown.UnderflowsWithin (cyclesOf calls) := by
  induction calls using List.reverseRecOn with
  | nil => exact iff_of_false not_underflowedSince_nil (Countdown.not_underflowsWithin_zero _)
  | append_singleton calls c ih =>
    have hbefore : ∀ c ∈ calls, ¬ c.Restarts := fun c hc => h c (List.mem_append_left _ hc)
    rw [Underflowed, underflowedSince_concat, cyclesOf_concat, Countdown.underflowsWithin_add,
      IntervalTimer.underflowsWithin_iff, countdown_run r hbefore, ← ih hbefore, Underflowed]
    simp [or_comm]

/-! ## Intervals -/

/-- The interval that a write to the timer chooses is one of four, told apart by the two
low lines. -/
theorem intervalOf_of_mem {address : UInt16} {interval : Nat}
    (h : ((address &&& 0x0003).toNat, interval) ∈ [(0, 1), (1, 8), (2, 64), (3, 1024)]) :
    IntervalTimer.intervalOf (address.toNat % 4) = interval ∧ 0 < interval := by
  have hlines : (address &&& 0x0003).toNat = address.toNat % 4 := by
    rw [UInt16.toNat_and]
    exact Nat.and_two_pow_sub_one_eq_mod _ 2
  rw [hlines] at h
  simp only [List.mem_cons, Prod.mk.injEq, List.not_mem_nil, or_false] at h
  obtain ⟨hline, rfl⟩ | ⟨hline, rfl⟩ | ⟨hline, rfl⟩ | ⟨hline, rfl⟩ := h
  all_goals
    rw [hline]
    decide

/-- A counter address reads the counter. -/
theorem read_of_readsCounter (r : Riot) {address : UInt16} (h : ReadsCounter address) :
    r.read address = r.timer.counter := by
  rw [read, (RiotSource.decode_eq_iff address).2.mpr h]
  rfl

/-! ## The law of the timer -/

/-- Whatever the chip was used for before: once its timer was started from a value, and
while it does not start anew, it counts down once an interval through zero, and once a
cycle, modulo 256, from then on. It depends on the sum of the cycles alone; and there was
an underflow if and only if they have reached the end of the last interval. -/
theorem timer_counts_down (r : Riot) {start : UInt16} (hstart : StartsTimer start)
    {interval : Nat}
    (hinterval : ((start &&& 0x0003).toNat, interval) ∈ [(0, 1), (1, 8), (2, 64), (3, 1024)])
    (value : UInt8) {calls : List Call} (hcalls : ∀ c ∈ calls, ¬ c.Restarts) :
    let started := r.write start value
    let cycles := cyclesOf calls
    let limit := (value.toNat + 1) * interval
    (∀ address, ReadsCounter address →
        ((started.run calls).read address).toNat
          = if cycles < limit then value.toNat - cycles / interval
            else 255 - (cycles - limit) % 256)
      ∧ (Underflowed started calls ↔ limit ≤ cycles) := by
  intro started cycles limit
  obtain ⟨hchosen, hpos⟩ := intervalOf_of_mem hinterval
  have hcountdown : started.timer.countdown = ⟨value.toNat, interval, 0⟩ := by
    rw [timer_write, if_pos hstart, hchosen, IntervalTimer.countdown_load]
  constructor
  · intro address haddress
    have hrun := countdown_run started hcalls
    rw [hcountdown, ← Countdown.after_eq_iterate hpos] at hrun
    have hcounter : ((started.run calls).timer.counter).toNat
        = (Countdown.after value.toNat interval cycles).counter := congrArg Countdown.counter hrun
    rw [read_of_readsCounter _ haddress, hcounter, Countdown.after, apply_ite Countdown.counter]
  · rw [underflowed_iff started hcalls, hcountdown, Countdown.underflowsWithin_started_iff hpos]

/-- Calls that go three cycles beyond a countdown of two intervals of eight, with a read of
the flags, a write to the edge detector and one to RAM in between. -/
def beyondCountdown : List Call :=
  [.clock 8, .read 0x0285, .clock 7, .write 0x0284 0x33, .write 0x0080 0x12, .clock 4]

/-- The counter is read three below 255. -/
theorem timer_counts_down_beyondCountdown :
    StartsTimer 0x0295
      ∧ (((0x0295 : UInt16) &&& 0x0003).toNat, 8) ∈ [(0, 1), (1, 8), (2, 64), (3, 1024)]
      ∧ (∀ c ∈ beyondCountdown, ¬ c.Restarts)
      ∧ (((powerOn.write 0x0295 1).run beyondCountdown).read 0x0284).toNat = 252
      ∧ Underflowed (powerOn.write 0x0295 1) beyondCountdown := by
  have hstart : StartsTimer 0x0295 := by decide
  have hinterval : (((0x0295 : UInt16) &&& 0x0003).toNat, 8)
      ∈ [(0, 1), (1, 8), (2, 64), (3, 1024)] := by decide
  have hcalls : ∀ c ∈ beyondCountdown, ¬ c.Restarts := by decide
  obtain ⟨hcounter, hunderflow⟩ := timer_counts_down powerOn hstart hinterval 1 hcalls
  exact ⟨hstart, hinterval, hcalls, hcounter 0x0284 (by decide), hunderflow.mpr (by decide)⟩

end Riot

end VideoComputer
