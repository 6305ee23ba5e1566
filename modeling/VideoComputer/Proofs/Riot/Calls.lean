/-
VideoComputer.Proofs.Riot.Calls — everything that can be done with the I/O chip,
in any order, and which of it the timer notices.

A program reads and writes; beside it, processor cycles pass, the devices on the
ports change what they drive, and the console is reset. Of the reads and writes
only those of a few addresses concern the timer, and a program knows these by
masks: address line 9 tells ports and timer from RAM, and the low lines tell them
apart.

* `Riot.Call`, `run` — the calls, and the chip behind a list of them.
* `ReadsFlags`, `ReadsCounter`, `StartsTimer` — the addresses of the timer.
* `afterRead_eq`, `timer_write` — what reads and writes leave of the timer.
-/
import Mathlib.Data.Nat.Bitwise
import VideoComputer.Riot.Chip

namespace VideoComputer

/-! ## The addresses of the timer -/

/-- Whether a read of the address yields the flags of the timer. -/
def ReadsFlags (address : UInt16) : Prop :=
  address &&& 0x0200 ≠ 0 ∧ (address &&& 0x0007 = 5 ∨ address &&& 0x0007 = 7)

/-- Whether a read of the address yields the counter of the timer. -/
def ReadsCounter (address : UInt16) : Prop :=
  address &&& 0x0200 ≠ 0 ∧ (address &&& 0x0007 = 4 ∨ address &&& 0x0007 = 6)

/-- Whether a write to the address starts the timer. -/
def StartsTimer (address : UInt16) : Prop := address &&& 0x0214 = 0x0214

instance : DecidablePred ReadsFlags := fun _ => inferInstanceAs (Decidable (_ ∧ _))

instance : DecidablePred ReadsCounter := fun _ => inferInstanceAs (Decidable (_ ∧ _))

instance : DecidablePred StartsTimer := fun _ => inferInstanceAs (Decidable (_ = _))

/-- The mask and the line say the same. -/
theorem selectsRam_eq_false_iff (address : UInt16) :
    selectsRam address = false ↔ address &&& 0x0200 ≠ 0 := by
  have hmask : address.toNat &&& 0x0200 = (address.toNat.testBit 9).toNat * 2 ^ 9 :=
    Nat.and_two_pow _ 9
  simp only [selectsRam, ne_eq, ← UInt16.toNat_inj, UInt16.toNat_and, UInt16.reduceToNat, hmask]
  cases address.toNat.testBit 9 <;> decide

theorem and_seven_eq_iff (address line : UInt16) :
    address &&& 0x0007 = line ↔ address.toNat % 8 = line.toNat := by
  rw [← UInt16.toNat_inj, UInt16.toNat_and]
  exact (Nat.and_two_pow_sub_one_eq_mod _ 3).congr_left

/-- Of the reads, those at two of eight lines outside RAM yield the flags, and those at
two others the counter. -/
theorem RiotSource.decode_eq_iff (address : UInt16) :
    (decode address = .flags ↔ ReadsFlags address)
      ∧ (decode address = .counter ↔ ReadsCounter address) := by
  simp only [ReadsFlags, ReadsCounter, ← selectsRam_eq_false_iff, and_seven_eq_iff]
  unfold decode
  cases selectsRam address with
  | true => simp
  | false =>
    have hlt : address.toNat % 8 < 8 := Nat.mod_lt _ (by decide)
    generalize address.toNat % 8 = line at hlt
    obtain rfl | rfl | rfl | rfl | rfl | rfl | rfl | rfl :
      line = 0 ∨ line = 1 ∨ line = 2 ∨ line = 3 ∨ line = 4 ∨ line = 5 ∨ line = 6 ∨ line = 7 := by
        omega
    all_goals simp

/-- Of the writes, those with three lines raised start the timer, and two lines choose
the interval. -/
theorem RiotTarget.decode_eq_timer_iff (address : UInt16) (interval : Nat) :
    decode address = .timer interval
      ↔ StartsTimer address ∧ interval = IntervalTimer.intervalOf (address.toNat % 4) := by
  -- the mask leaves the three lines, each in its place
  have hmask : address.toNat &&& 0x0214
      = (address.toNat.testBit 9).toNat * 2 ^ 9 ||| (address.toNat.testBit 4).toNat * 2 ^ 4
        ||| (address.toNat.testBit 2).toNat * 2 ^ 2 := by
    simp only [← Nat.and_two_pow, ← Nat.and_or_distrib_left]
    rfl
  have hstarts : StartsTimer address ↔ address.toNat.testBit 9 = true
      ∧ address.toNat.testBit 2 = true ∧ address.toNat.testBit 4 = true := by
    simp only [StartsTimer, ← UInt16.toNat_inj, UInt16.toNat_and, UInt16.reduceToNat, hmask]
    cases address.toNat.testBit 9 <;> cases address.toNat.testBit 4 <;>
      cases address.toNat.testBit 2 <;> decide
  rw [hstarts]
  unfold decode selectsRam
  cases address.toNat.testBit 9 <;> cases address.toNat.testBit 2 <;>
    cases address.toNat.testBit 4 <;> simp [eq_comm]
  all_goals split <;> simp

namespace Riot

/-! ## Calls -/

/-- Something that is done with the chip. -/
inductive Call where
  | read (address : UInt16)
  | write (address : UInt16) (data : UInt8)
  | clock (cycles : Nat)
  | setPins (port : PortName) (pins : UInt8)
  | reset
  deriving DecidableEq, Repr

/-- The chip after a call. -/
def call (r : Riot) : Call → Riot
  | .read address => r.afterRead address
  | .write address data => r.write address data
  | .clock cycles => r.clock cycles
  | .setPins port pins => r.setPins port pins
  | .reset => r.reset

/-- The chip after several calls. -/
def run (r : Riot) (calls : List Call) : Riot := calls.foldl call r

@[simp] theorem run_nil (r : Riot) : r.run [] = r := rfl

@[simp] theorem run_cons (r : Riot) (c : Call) (calls : List Call) :
    r.run (c :: calls) = (r.call c).run calls := rfl

theorem run_concat (r : Riot) (calls : List Call) (c : Call) :
    r.run (calls ++ [c]) = (r.run calls).call c := by
  rw [run, List.foldl_append]
  rfl

namespace Call

/-- The processor cycles that pass with a call. -/
def cycles : Call → Nat
  | .clock cycles => cycles
  | .read _ | .write .. | .setPins .. | .reset => 0

/-- Whether the timer starts anew with a call. -/
def Restarts : Call → Prop
  | .write address _ => StartsTimer address
  | .reset => True
  | .read _ | .clock _ | .setPins .. => False

/-- Whether a call lowers the flag that tells of the underflows since it was last looked
at. -/
def Acknowledges : Call → Prop
  | .read address => ReadsFlags address
  | .write address _ => StartsTimer address
  | .reset => True
  | .clock _ | .setPins .. => False

instance : DecidablePred Restarts
  | .write address _ => inferInstanceAs (Decidable (StartsTimer address))
  | .reset => .isTrue trivial
  | .read _ | .clock _ | .setPins .. => .isFalse not_false

instance : DecidablePred Acknowledges
  | .read address => inferInstanceAs (Decidable (ReadsFlags address))
  | .write address _ => inferInstanceAs (Decidable (StartsTimer address))
  | .reset => .isTrue trivial
  | .clock _ | .setPins .. => .isFalse not_false

end Call

/-- The processor cycles that pass with several calls. -/
def cyclesOf (calls : List Call) : Nat := (calls.map Call.cycles).sum

/-! ## The timer behind a call -/

/-- A read of the flags lowers one of them, and no other read changes anything. -/
theorem afterRead_eq (r : Riot) (address : UInt16) :
    r.afterRead address
      = if ReadsFlags address then { r with timer := r.timer.acknowledge } else r := by
  rw [afterRead]
  split
  · rename_i h
    rw [if_pos ((RiotSource.decode_eq_iff address).1.mp h)]
  all_goals
    rename_i h
    rw [if_neg]
    rw [← (RiotSource.decode_eq_iff address).1, h]
    exact RiotSource.noConfusion

/-- Only a write to the timer reaches the timer. -/
theorem timer_writeTarget (r : Riot) {target : RiotTarget} (h : ∀ i, target ≠ .timer i)
    (data : UInt8) : (writeTarget target data r).timer = r.timer := by
  cases target with
  | timer interval => exact absurd rfl (h interval)
  | output port | direction port => cases port <;> rfl
  | ram | edgeDetector => rfl

/-- A write to the timer starts it, and no other write touches it. -/
theorem timer_write (r : Riot) (address : UInt16) (data : UInt8) :
    (r.write address data).timer
      = if StartsTimer address
        then r.timer.load data (IntervalTimer.intervalOf (address.toNat % 4)) else r.timer := by
  have htimer := RiotTarget.decode_eq_timer_iff address
  rw [write]
  split
  · rename_i hstarts
    rw [(htimer _).mpr ⟨hstarts, rfl⟩]
    rfl
  · rename_i hstarts
    refine r.timer_writeTarget ?_ data
    intro interval hdecode
    exact hstarts ((htimer interval).mp hdecode).1

theorem timer_setPins (r : Riot) (port : PortName) (pins : UInt8) :
    (r.setPins port pins).timer = r.timer := by
  cases port <;> rfl

/-- A call with which the timer does not start anew lets its cycles pass; and it may
lower a flag. -/
theorem timer_call (r : Riot) {c : Call} (h : ¬ c.Restarts) :
    (r.call c).timer = r.timer.clock c.cycles
      ∨ (r.call c).timer = (r.timer.clock c.cycles).acknowledge := by
  cases c with
  | read address =>
    rw [call, afterRead_eq]
    split
    · exact .inr rfl
    · exact .inl rfl
  | write address data =>
    rw [call, timer_write, if_neg (show ¬ StartsTimer address from h)]
    exact .inl rfl
  | clock cycles => exact .inl rfl
  | setPins port pins => exact .inl (r.timer_setPins port pins)
  | reset => exact absurd trivial h

end Riot

end VideoComputer
