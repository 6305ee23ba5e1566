/-
VideoComputer.Proofs.Console.Controls — what events leave of the controls, and on
which lines they show.

There are fourteen controls: four directions and a fire button for each player,
two switches on the console, and a difficulty switch for each player. An event
puts one of them into a position, so all that matters of many events is the last
one for each control, and events for different controls may come in any order.

Each control has a line of its own. Most pull it low while they are held, and the
difficulty switches let it go high. A program sees the lines through the chips,
where it may drive lines of a port itself; it can pull a line low then, but it
cannot hold up one that a control pulls low.

* `Controls.isActive_foldl` — the last event for a control decides about it.
* `Controls.apply_comm` — events for different controls commute.
* `Controls.level_lines` — the lines of the controls.
* `Bus.bitRead_eq` — the bits a program reads.
-/
import VideoComputer.Proofs.Bus.Regions

namespace VideoComputer

/-! ## Controls one by one -/

/-- A control. -/
inductive Control where
  | direction (player : Player) (direction : Direction)
  | fire (player : Player)
  | switch (which : Switch)
  | difficulty (player : Player)
  deriving DecidableEq, Repr

/-- The control an event is about. -/
def InputEvent.control : InputEvent → Control
  | .joystick player direction _ => .direction player direction
  | .fire player _ => .fire player
  | .switch which _ => .switch which
  | .difficulty player _ => .difficulty player

/-- Whether the event leaves its control held, or a difficulty switch in
position A. -/
def InputEvent.active : InputEvent → Bool
  | .joystick _ _ pressed => pressed
  | .fire _ pressed => pressed
  | .switch _ pressed => pressed
  | .difficulty _ position => position == .a

/-- Whether one direction is held. -/
def Joystick.isHeld (j : Joystick) : Direction → Bool
  | .up => j.up
  | .down => j.down
  | .left => j.left
  | .right => j.right

theorem Joystick.ext_isHeld {j j' : Joystick} (h : ∀ d, j.isHeld d = j'.isHeld d) : j = j' := by
  obtain ⟨up, down, left, right⟩ := j
  obtain ⟨up', down', left', right'⟩ := j'
  obtain rfl : up = up' := h .up
  obtain rfl : down = down' := h .down
  obtain rfl : left = left' := h .left
  obtain rfl : right = right' := h .right
  rfl

namespace Controls

/-- Whether a control is held, or a difficulty switch in position A. -/
def isActive (c : Controls) : Control → Bool
  | .direction player direction => (c.joystick.get player).isHeld direction
  | .fire player => c.fire.get player
  | .switch .reset => c.resetHeld
  | .switch .select => c.selectHeld
  | .difficulty player => c.difficulty.get player == .a

/-- Controls at rest have nothing active. -/
theorem isActive_released (k : Control) : released.isActive k = false := by
  cases k with
  | direction p d => cases p <;> cases d <;> rfl
  | fire p => cases p <;> rfl
  | switch which => cases which <;> rfl
  | difficulty p => cases p <;> rfl

/-- The controls are known if each of them is. -/
theorem ext_isActive {c c' : Controls} (h : ∀ k, c.isActive k = c'.isActive k) : c = c' := by
  have hjoystick : c.joystick = c'.joystick :=
    PerPlayer.ext_get fun p => Joystick.ext_isHeld fun d => h (.direction p d)
  have hfire : c.fire = c'.fire := PerPlayer.ext_get fun p => h (.fire p)
  have hdifficulty : c.difficulty = c'.difficulty := by
    apply PerPlayer.ext_get
    intro p
    have hp : (c.difficulty.get p == .a) = (c'.difficulty.get p == .a) := h (.difficulty p)
    cases hc : c.difficulty.get p <;> cases hc' : c'.difficulty.get p <;> simp_all
  obtain ⟨joystick, fire, resetHeld, selectHeld, difficulty⟩ := c
  obtain rfl : resetHeld = c'.resetHeld := h (.switch .reset)
  obtain rfl : selectHeld = c'.selectHeld := h (.switch .select)
  cases hjoystick
  cases hfire
  cases hdifficulty
  rfl

/-- An event sets its control and no other. -/
theorem isActive_apply (c : Controls) (e : InputEvent) (k : Control) :
    (c.apply e).isActive k = if e.control = k then e.active else c.isActive k := by
  cases e with
  | joystick p d pressed =>
    cases k with
    | direction q d' => cases p <;> cases q <;> cases d <;> cases d' <;> rfl
    | switch which => cases which <;> rfl
    | _ => rfl
  | fire p pressed =>
    cases k with
    | fire q => cases p <;> cases q <;> rfl
    | switch which => cases which <;> rfl
    | _ => rfl
  | switch which pressed =>
    cases which <;> cases k with
    | switch which' => cases which' <;> rfl
    | _ => rfl
  | difficulty p position =>
    cases k with
    | difficulty q => cases p <;> cases q <;> rfl
    | switch which => cases which <;> rfl
    | _ => rfl

/-- Events for different controls may come in either order. -/
theorem apply_comm (c : Controls) {e e' : InputEvent} (h : e.control ≠ e'.control) :
    (c.apply e).apply e' = (c.apply e').apply e := by
  apply ext_isActive
  intro k
  simp only [isActive_apply]
  by_cases hk : e.control = k
  · have hk' : ¬ e'.control = k := fun h' => h (hk.trans h'.symm)
    simp [hk, hk']
  · simp [hk]

/-- The position an event puts a control into. -/
def position? (k : Control) (e : InputEvent) : Option Bool :=
  if e.control = k then some e.active else none

/-- Of many events, the last one for a control decides about it. -/
theorem isActive_foldl (k : Control) (events : List InputEvent) (c : Controls) :
    (events.foldl apply c).isActive k
      = ((events.filterMap (position? k)).getLast?).getD (c.isActive k) := by
  refine seen_foldl (v := fun c => c.isActive k) ?_ events c
  intro c e
  rw [isActive_apply, position?]
  split <;> rfl

end Controls

/-! ## Lines -/

/-- The lines on which controls show: those of the two ports, and whether the fire
buttons are held. -/
structure InputLines where
  portA : UInt8
  portB : UInt8
  fire : PerPlayer Bool
  deriving DecidableEq, Repr

/-- The lines as the controls pull them. -/
def Controls.lines (c : Controls) : InputLines := ⟨c.portA, c.portB, c.fire⟩

/-- The lines as the chips have them. -/
def Bus.lines (b : Bus) : InputLines := ⟨b.riot.portA.pins, b.riot.portB.pins, b.tia.fire⟩

namespace Control

/-- The bit of a direction in the nibble of its player. -/
def directionBit : Direction → Nat
  | .up => 0
  | .down => 1
  | .left => 2
  | .right => 3

/-- The bit of a control in the byte where a program finds it. -/
def bit : Control → Nat
  | .direction .one d => 4 + directionBit d
  | .direction .two d => directionBit d
  | .fire _ => 7
  | .switch .reset => 0
  | .switch .select => 1
  | .difficulty .one => 6
  | .difficulty .two => 7

theorem bit_lt (k : Control) : k.bit < 8 := by
  cases k with
  | direction p d => cases p <;> cases d <;> decide
  | fire p => exact Nat.lt_succ_self 7
  | switch which => cases which <;> decide
  | difficulty p => cases p <;> decide

/-- Whether the line of a control is high while it is active. -/
def raises : Control → Bool
  | .difficulty _ => true
  | .direction .. | .fire _ | .switch _ => false

end Control

/-- Whether the line of a control is high. -/
def InputLines.level (l : InputLines) (k : Control) : Bool :=
  match k with
  | .direction .. => bitAt l.portA k.bit
  | .fire p => !l.fire.get p
  | .switch _ | .difficulty _ => bitAt l.portB k.bit

/-- A direction has its own bit in the nibble of its joystick. -/
theorem Joystick.testBit_nibble (j : Joystick) (d : Direction) :
    j.nibble.testBit (Control.directionBit d) = j.isHeld d := by
  obtain ⟨up, down, left, right⟩ := j
  cases up <;> cases down <;> cases left <;> cases right <;> cases d <;> rfl

theorem Joystick.nibble_lt (j : Joystick) : j.nibble < 2 ^ 4 := by
  have hup := j.up.toNat_le
  have hdown := j.down.toNat_le
  have hleft := j.left.toNat_le
  have hright := j.right.toNat_le
  unfold nibble
  omega

namespace Controls

/-- A direction that is held pulls its line on port A low, -/
theorem bitAt_portA (c : Controls) (p : Player) (d : Direction) :
    bitAt c.portA (Control.direction p d).bit = !c.isActive (.direction p d) := by
  have hone := c.joystick.one.nibble_lt
  have htwo := c.joystick.two.nibble_lt
  have hbit := (Control.direction p d).bit_lt
  have hvalue : c.portA.toNat
      = 2 ^ 8 - (2 ^ 4 * c.joystick.one.nibble + c.joystick.two.nibble + 1) := by
    rw [portA, UInt8.toNat_ofNat']
    omega
  rw [bitAt, hvalue, Nat.testBit_two_pow_sub_succ (by omega), Nat.testBit_two_pow_mul_add _ htwo,
    decide_eq_true hbit, Bool.true_and]
  congr 1
  cases p with
  | one =>
    have hhigh : ¬ 4 + Control.directionBit d < 4 := by omega
    rw [Control.bit, if_neg hhigh, Nat.add_sub_cancel_left, Joystick.testBit_nibble]
    rfl
  | two =>
    have hlow : Control.directionBit d < 4 := by cases d <;> decide
    rw [Control.bit, if_pos hlow, Joystick.testBit_nibble]
    rfl

/-- and the lines of port B are told one by one. -/
theorem bitAt_portB (c : Controls) (n : Nat) :
    bitAt c.portB n
      = (!c.resetHeld && 0 == n || !c.selectHeld && 1 == n || 3 == n
        || c.difficulty.one == .a && 6 == n || c.difficulty.two == .a && 7 == n) := by
  simp only [portB, bitAt_or, bitAt_flagAt _ (by decide : 0 < 8),
    bitAt_flagAt _ (by decide : 1 < 8), bitAt_flagAt _ (by decide : 3 < 8),
    bitAt_flagAt _ (by decide : 6 < 8), bitAt_flagAt _ (by decide : 7 < 8), Bool.true_and]

/-- Each control shows on its line. -/
theorem level_lines (c : Controls) (k : Control) :
    c.lines.level k = (c.isActive k == k.raises) := by
  cases k with
  | direction p d => exact (c.bitAt_portA p d).trans (beq_false _).symm
  | fire p => exact (beq_false _).symm
  | switch which =>
    refine (c.bitAt_portB _).trans ?_
    cases which <;> simp [Control.bit, isActive, Control.raises]
  | difficulty p =>
    refine (c.bitAt_portB _).trans ?_
    cases p <;> simp [Control.bit, isActive, Control.raises, PerPlayer.get]

/-- The lines of port B without a control: color stays high, the rest low. -/
theorem portB_unwired (c : Controls) :
    bitAt c.portB 3 = true ∧ bitAt c.portB 2 = false ∧ bitAt c.portB 4 = false
      ∧ bitAt c.portB 5 = false := by
  simp [bitAt_portB]

end Controls

/-! ## What a program reads -/

namespace Bus

/-- The bit that a program reads for a control, at the address where it is found. -/
def bitRead (b : Bus) (k : Control) : Bool :=
  match k with
  | .direction .. => bitAt (b.read 0x0280) k.bit
  | .fire .one => bitAt (b.read 0x000C) k.bit
  | .fire .two => bitAt (b.read 0x000D) k.bit
  | .switch _ | .difficulty _ => bitAt (b.read 0x0282) k.bit

/-- Whether the program pulls the line of a control low itself. -/
def pullsLow (b : Bus) (k : Control) : Bool :=
  match k with
  | .direction .. => bitAt b.riot.portA.direction k.bit && !bitAt b.riot.portA.output k.bit
  | .fire _ => false
  | .switch _ | .difficulty _ =>
    bitAt b.riot.portB.direction k.bit && !bitAt b.riot.portB.output k.bit

/-- A program reads the line of a control as the control has it, except that it may
pull it low. -/
theorem bitRead_eq (b : Bus) (k : Control) : b.bitRead k = (!b.pullsLow k && b.lines.level k) := by
  have hlt := k.bit_lt
  cases k with
  | direction p d =>
    refine (b.riot.portA.bitAt_read hlt).trans ?_
    simp only [pullsLow, Bool.not_and, Bool.not_not, Bool.or_comm]
    rfl
  | fire p =>
    cases p <;> exact (bitAt_flagAt _ hlt _).trans (Bool.and_true _)
  | switch which | difficulty p =>
    refine (b.riot.portB.bitAt_read hlt).trans ?_
    simp only [pullsLow, Bool.not_and, Bool.not_not, Bool.or_comm]
    rfl

end Bus

end VideoComputer
