/-
VideoComputer.Proofs.Riot.Ports — the ports as what was written to them and what is
plugged in.

Each port has two registers, and four addresses tell the four of them apart: two low
address lines do, as long as line 9 selects the I/O part of the chip and line 2 is low.
The other lines are not looked at, so every register appears many times, with the timer
and the edge detector in between. Reads decode the lines in one way and writes in
another, and both come to the same.

Hence a register holds what was written last since the reset at any of its addresses,
whatever else was done. The lines of a port are made of both of its registers and of what
the devices drive, which no reset changes.

* `PortRegister.Selects` — the addresses of a register, for reads and writes alike.
* `held_call`, `held_run` — what a register holds, after a call and after a run.
* `pins_run` — what the devices drive.
* `ports_by_history` — what a program reads at the ports, and what they have no part in.
-/
import VideoComputer.Proofs.History
import VideoComputer.Proofs.Riot.Calls

namespace VideoComputer

/-! ## The registers of the ports -/

/-- A register of a port. -/
inductive PortRegister where
  /-- What the program drives. -/
  | output (port : PortName)
  /-- Which lines it drives. -/
  | direction (port : PortName)
  deriving DecidableEq, Repr

/-- Whether the address is one of a port. -/
def SelectsPorts (address : UInt16) : Prop := address &&& 0x0200 ≠ 0 ∧ address &&& 0x0004 = 0

instance : DecidablePred SelectsPorts := fun _ => inferInstanceAs (Decidable (_ ∧ _))

namespace PortRegister

/-- The register on the two low address lines. -/
def line : PortRegister → UInt16
  | .output .a => 0
  | .direction .a => 1
  | .output .b => 2
  | .direction .b => 3

/-- Whether the address is one of the register. -/
def Selects (address : UInt16) (reg : PortRegister) : Prop :=
  SelectsPorts address ∧ address &&& 0x0003 = reg.line

instance (address : UInt16) (reg : PortRegister) : Decidable (reg.Selects address) :=
  inferInstanceAs (Decidable (_ ∧ _))

/-- What a read of the register reaches. The lines of the port are read in place of what
the program drives. -/
def source : PortRegister → RiotSource
  | .output port => .pins port
  | .direction port => .direction port

/-- What a write to the register reaches. -/
def target : PortRegister → RiotTarget
  | .output port => .output port
  | .direction port => .direction port

end PortRegister

/-! ## Addresses -/

theorem selectsPorts_iff (address : UInt16) :
    SelectsPorts address ↔ selectsRam address = false ∧ address.toNat.testBit 2 = false := by
  have hmask : address.toNat &&& 0x0004 = (address.toNat.testBit 2).toNat * 2 ^ 2 :=
    Nat.and_two_pow _ 2
  simp only [SelectsPorts, selectsRam_eq_false_iff]
  refine and_congr_right fun _ => ?_
  simp only [← UInt16.toNat_inj, UInt16.toNat_and, UInt16.reduceToNat, hmask]
  cases address.toNat.testBit 2 <;> decide

theorem and_three_eq_iff (address line : UInt16) :
    address &&& 0x0003 = line ↔ address.toNat % 4 = line.toNat := by
  rw [← UInt16.toNat_inj, UInt16.toNat_and]
  exact (Nat.and_two_pow_sub_one_eq_mod _ 2).congr_left

/-- Reads tell the registers of the ports apart by three lines, -/
theorem RiotSource.decode_eq_source_iff (address : UInt16) (reg : PortRegister) :
    decode address = reg.source ↔ reg.Selects address := by
  have hlines : address.toNat % 8 = address.toNat % 4 + 4 * (address.toNat.testBit 2).toNat := by
    rw [Nat.testBit_eq_decide_div_mod_eq]
    by_cases h : address.toNat / 2 ^ 2 % 2 = 1
    · simp only [h, decide_true, Bool.toNat_true]
      omega
    · simp only [h, decide_false, Bool.toNat_false]
      omega
  have hlt : address.toNat % 4 < 4 := Nat.mod_lt _ (by decide)
  rw [PortRegister.Selects, selectsPorts_iff, and_three_eq_iff]
  unfold decode
  rw [hlines]
  generalize address.toNat % 4 = line at hlt
  obtain rfl | rfl | rfl | rfl : line = 0 ∨ line = 1 ∨ line = 2 ∨ line = 3 := by omega
  all_goals
    cases selectsRam address <;> cases address.toNat.testBit 2 <;>
      rcases reg with (_ | _) | (_ | _) <;> simp [PortRegister.source, PortRegister.line]

/-- and writes by one line and then by two. -/
theorem RiotTarget.decode_eq_target_iff (address : UInt16) (reg : PortRegister) :
    decode address = reg.target ↔ reg.Selects address := by
  have hlt : address.toNat % 4 < 4 := Nat.mod_lt _ (by decide)
  rw [PortRegister.Selects, selectsPorts_iff, and_three_eq_iff]
  unfold decode
  generalize address.toNat % 4 = line at hlt
  obtain rfl | rfl | rfl | rfl : line = 0 ∨ line = 1 ∨ line = 2 ∨ line = 3 := by omega
  all_goals
    cases selectsRam address <;> cases address.toNat.testBit 2 <;>
      cases address.toNat.testBit 4 <;>
      rcases reg with (_ | _) | (_ | _) <;> simp [PortRegister.target, PortRegister.line]

/-- Every address of a port is one of a register. -/
theorem SelectsPorts.exists_register {address : UInt16} (h : SelectsPorts address) :
    ∃ reg : PortRegister, reg.Selects address := by
  have hlt : address.toNat % 4 < 4 := Nat.mod_lt _ (by decide)
  have hline : ∀ line < 4, ∃ reg : PortRegister, line = reg.line.toNat := by
    intro line hline
    obtain rfl | rfl | rfl | rfl : line = 0 ∨ line = 1 ∨ line = 2 ∨ line = 3 := by omega
    · exact ⟨.output .a, rfl⟩
    · exact ⟨.direction .a, rfl⟩
    · exact ⟨.output .b, rfl⟩
    · exact ⟨.direction .b, rfl⟩
  obtain ⟨reg, hreg⟩ := hline _ hlt
  exact ⟨reg, h, (and_three_eq_iff _ _).mpr hreg⟩

namespace Riot

/-! ## What the registers hold -/

/-- What a register of a port holds. -/
def held (r : Riot) : PortRegister → UInt8
  | .output port => (r.port port).output
  | .direction port => (r.port port).direction

/-- A port is its registers and what the devices drive. -/
theorem port_eq (r : Riot) (port : PortName) :
    r.port port = ⟨r.held (.output port), r.held (.direction port), (r.port port).pins⟩ := rfl

theorem held_writeTarget (r : Riot) (target : RiotTarget) (data : UInt8) (reg : PortRegister) :
    (writeTarget target data r).held reg = if target = reg.target then data else r.held reg := by
  rcases target with _ | (_ | _) | (_ | _) | _ | _ <;> rcases reg with (_ | _) | (_ | _) <;>
    simp [writeTarget, held, port, PortRegister.target]

/-- A write at one of its addresses sets a register, and no other write touches it. -/
theorem held_write (r : Riot) (address : UInt16) (data : UInt8) (reg : PortRegister) :
    (r.write address data).held reg = if reg.Selects address then data else r.held reg := by
  rw [write, held_writeTarget]
  simp only [RiotTarget.decode_eq_target_iff]

/-- No write reaches the devices. -/
theorem pins_write (r : Riot) (address : UInt16) (data : UInt8) (port : PortName) :
    ((r.write address data).port port).pins = (r.port port).pins := by
  rw [write]
  cases RiotTarget.decode address with
  | output written | direction written => cases written <;> cases port <;> rfl
  | ram | timer | edgeDetector => cases port <;> rfl

/-- A write that is not to a port leaves both alone, -/
theorem port_write_of_not_selectsPorts (r : Riot) {address : UInt16} (h : ¬ SelectsPorts address)
    (data : UInt8) (port : PortName) : (r.write address data).port port = r.port port := by
  have hheld (reg : PortRegister) : (r.write address data).held reg = r.held reg := by
    rw [held_write, if_neg]
    intro hselects
    exact h hselects.1
  rw [port_eq, hheld, hheld, pins_write, ← port_eq]

/-- and a write to a port leaves everything else alone. -/
theorem write_of_selectsPorts (r : Riot) {address : UInt16} (h : SelectsPorts address)
    (data : UInt8) :
    (r.write address data).ram = r.ram ∧ (r.write address data).timer = r.timer := by
  obtain ⟨reg, hreg⟩ := h.exists_register
  rw [write, (RiotTarget.decode_eq_target_iff address reg).mpr hreg]
  rcases reg with (_ | _) | (_ | _) <;> exact ⟨rfl, rfl⟩

@[simp] theorem port_afterRead (r : Riot) (address : UInt16) (port : PortName) :
    (r.afterRead address).port port = r.port port := by
  rw [afterRead_eq]
  split <;> cases port <;> rfl

theorem port_setPins (r : Riot) (driven port : PortName) (pins : UInt8) :
    (r.setPins driven pins).port port
      = if driven = port then { r.port port with pins } else r.port port := by
  cases driven <;> cases port <;> rfl

theorem port_reset (r : Riot) (port : PortName) :
    r.reset.port port = { output := 0, direction := 0, pins := (r.port port).pins } := by
  cases port <;> rfl

/-! ## Calls -/

/-- What a call writes to a register. -/
def Call.writes? (reg : PortRegister) : Call → Option UInt8
  | .write address data => if reg.Selects address then some data else none
  | .read _ | .clock _ | .setPins .. | .reset => none

/-- What the devices on a port drive from a call on. -/
def Call.drives? (port : PortName) : Call → Option UInt8
  | .setPins driven pins => if driven = port then some pins else none
  | .read _ | .write .. | .clock _ | .reset => none

/-- What was written to a register last since the last reset, if anything was. -/
def lastWritten? (reg : PortRegister) (calls : List Call) : Option UInt8 :=
  ((calls.rtakeWhile (· != .reset)).filterMap (Call.writes? reg)).getLast?

/-- What the devices on a port drive after calls, resets or not. -/
def lastDriven (port : PortName) (calls : List Call) : UInt8 :=
  ((calls.filterMap (Call.drives? port)).getLast?).getD (powerOn.port port).pins

/-- A register of a port holds what was last written to it. -/
theorem held_call (r : Riot) {c : Call} (h : c ≠ .reset) (reg : PortRegister) :
    (r.call c).held reg = (c.writes? reg).getD (r.held reg) := by
  cases c with
  | reset => exact absurd rfl h
  | write address data =>
    rw [call, held_write, Call.writes?]
    split <;> rfl
  | read address => cases reg <;> simp [call, held, Call.writes?]
  | clock cycles => rcases reg with (_ | _) | (_ | _) <;> rfl
  | setPins driven pins =>
    cases reg <;> simp only [call, held, port_setPins, Call.writes?] <;> split <;> rfl

/-- The pins are what was last driven. -/
theorem pins_call (r : Riot) (c : Call) (port : PortName) :
    ((r.call c).port port).pins = (c.drives? port).getD (r.port port).pins := by
  cases c with
  | read address => simp [call, Call.drives?]
  | write address data => exact r.pins_write address data port
  | clock cycles => cases port <;> rfl
  | setPins driven pins =>
    simp only [call, port_setPins, Call.drives?]
    split <;> rfl
  | reset => simp [call, port_reset, Call.drives?]

/-- A register holds what was written to it last since the reset, or 0. -/
theorem held_run (calls : List Call) (reg : PortRegister) :
    (powerOn.run calls).held reg = (lastWritten? reg calls).getD 0 := by
  have hreset : ∀ (r : Riot) c, (c == Call.reset) = true → (r.call c).held reg = 0 := by
    intro r c hc
    rw [eq_of_beq hc]
    cases reg <;> simp [call, held, port_reset]
  have hother : ∀ (r : Riot) c, (c == Call.reset) = false →
      (r.call c).held reg = (c.writes? reg).getD (r.held reg) := by
    intro r c hc
    exact r.held_call (ne_of_beq_false hc) reg
  have hfirst : powerOn.held reg = 0 := by
    rcases reg with (_ | _) | (_ | _) <;> rfl
  exact seen_foldl_since (v := fun r : Riot => r.held reg) hreset hother calls hfirst

/-- The devices drive what they were made to drive last. -/
theorem pins_run (calls : List Call) (port : PortName) :
    ((powerOn.run calls).port port).pins = lastDriven port calls :=
  seen_foldl (v := fun r : Riot => (r.port port).pins) (fun r c => r.pins_call c port) calls
    powerOn

/-! ## The law of the ports -/

theorem read_of_selects (r : Riot) {reg : PortRegister} {address : UInt16}
    (h : reg.Selects address) : r.read address = r.readSource reg.source := by
  rw [read, (RiotSource.decode_eq_source_iff address reg).mpr h]

/-- A line is low if a device pulls it low, or if the program drives it and drives it
low. -/
theorem bitAt_read_eq_false_iff (p : Port) (n : Nat) :
    bitAt p.read n = false
      ↔ bitAt p.pins n = false ∨ bitAt p.direction n = true ∧ bitAt p.output n = false := by
  by_cases hn : n < 8
  · rw [p.bitAt_read hn]
    cases bitAt p.pins n <;> cases bitAt p.direction n <;> cases bitAt p.output n <;> decide
  · simp [bitAt_of_le _ (Nat.not_lt.mp hn)]

/-- However the chip was used since power-on: at any address of a direction register a
program reads what was written last since the reset at any other one, or 0; and at any
address of the lines of a port, a line is low exactly if a device pulls it low, or if it
is an output for which 0 was written last since the reset, or nothing. A write elsewhere,
to RAM, to the timer or to the edge detector, leaves both ports alone, and a write to a
port leaves RAM and timer alone. A reset clears the registers of the ports, and keeps RAM
and what the devices drive. -/
theorem ports_by_history :
    (∀ (calls : List Call) (port : PortName) (address : UInt16),
        ((PortRegister.direction port).Selects address →
          (powerOn.run calls).read address = (lastWritten? (.direction port) calls).getD 0)
        ∧ ((PortRegister.output port).Selects address → ∀ n,
          (bitAt ((powerOn.run calls).read address) n = false
            ↔ bitAt (lastDriven port calls) n = false
              ∨ bitAt ((lastWritten? (.direction port) calls).getD 0) n = true
                ∧ ∀ data ∈ lastWritten? (.output port) calls, bitAt data n = false)))
      ∧ (∀ (r : Riot) (address : UInt16) (data : UInt8),
          (¬ SelectsPorts address → ∀ port, (r.write address data).port port = r.port port)
          ∧ (SelectsPorts address →
            (r.write address data).ram = r.ram ∧ (r.write address data).timer = r.timer))
      ∧ ∀ r : Riot, r.reset.ram = r.ram
          ∧ ∀ port, r.reset.port port
              = { output := 0, direction := 0, pins := (r.port port).pins } := by
  refine ⟨?_, ?_, ?_⟩
  · intro calls port address
    have hdirection := held_run calls (.direction port)
    have houtput := held_run calls (.output port)
    constructor
    · intro haddress
      rw [read_of_selects _ haddress, ← hdirection]
      rfl
    · intro haddress n
      have hread : (powerOn.run calls).read address = ((powerOn.run calls).port port).read :=
        read_of_selects _ haddress
      have hlow : bitAt ((lastWritten? (.output port) calls).getD 0) n = false
          ↔ ∀ data ∈ lastWritten? (.output port) calls, bitAt data n = false := by
        cases lastWritten? (.output port) calls <;> simp [bitAt]
      rw [hread, bitAt_read_eq_false_iff, pins_run, ← hdirection, ← hlow, ← houtput]
      rfl
  · intro r address data
    constructor
    · intro h port
      exact r.port_write_of_not_selectsPorts h data port
    · intro h
      exact r.write_of_selectsPorts h data
  · intro r
    exact ⟨rfl, r.port_reset⟩

/-- Writes to both registers of port A, a reset between the first two of them, and writes
to RAM, to the timer and to the edge detector behind the same low lines. -/
def mirroredWrites : List Call :=
  [.write 0x0281 0xFF, .reset, .write 0x0281 0x0F, .write 0x0001 0x77, .write 0x0295 0x66,
    .write 0x0285 0x55, .setPins .a 0xBF, .write 0x1B00 0x05]

/-- The low half of port A is driven then, as is read in another page; the line that is
driven low reads low, and so does the one that a device pulls low. -/
theorem ports_by_history_mirrored :
    (PortRegister.direction .a).Selects 0xFFF9 ∧ (PortRegister.output .a).Selects 0x0208
      ∧ ¬ SelectsPorts 0x0295 ∧ SelectsPorts 0x1B00
      ∧ (powerOn.run mirroredWrites).read 0xFFF9 = 0x0F
      ∧ bitAt ((powerOn.run mirroredWrites).read 0x0208) 0 = true
      ∧ bitAt ((powerOn.run mirroredWrites).read 0x0208) 1 = false
      ∧ bitAt ((powerOn.run mirroredWrites).read 0x0208) 6 = false
      ∧ (powerOn.write 0x0295 0x12).port .a = powerOn.port .a
      ∧ (powerOn.write 0x1B00 0x12).timer = powerOn.timer := by
  obtain ⟨hreads, hwrites, -⟩ := ports_by_history
  have hdirection : (PortRegister.direction .a).Selects 0xFFF9 := by decide
  have houtput : (PortRegister.output .a).Selects 0x0208 := by decide
  have helsewhere : ¬ SelectsPorts 0x0295 := by decide
  have hports : SelectsPorts 0x1B00 := by decide
  obtain ⟨hregister, -⟩ := hreads mirroredWrites .a 0xFFF9
  obtain ⟨-, hlines⟩ := hreads mirroredWrites .a 0x0208
  have hdriven : lastWritten? (.direction .a) mirroredWrites = some 0x0F := by decide
  have hlow : lastWritten? (.output .a) mirroredWrites = some 0x05 := by decide
  have hpins : lastDriven .a mirroredWrites = 0xBF := by decide
  rw [hdriven] at hregister
  simp only [hdriven, hlow, hpins, Option.getD_some, Option.mem_some_iff, forall_eq'] at hlines
  refine ⟨hdirection, houtput, helsewhere, hports, hregister hdirection, ?_, ?_, ?_,
    (hwrites powerOn 0x0295 0x12).1 helsewhere .a, ((hwrites powerOn 0x1B00 0x12).2 hports).2⟩
  · rw [← Bool.not_eq_false, hlines houtput]
    decide
  · rw [hlines houtput]
    decide
  · rw [hlines houtput]
    decide

end Riot

end VideoComputer
