/-
VideoComputer.Proofs.Video.Motion — objects move on a circle.

The picture is 160 columns wide, and an object that leaves it on one side comes back
on the other. A motion is at most eight columns, and no object is ever further out
than ten, so one width of the picture is always enough to bring it back. That is
what makes columns a circle: motions add up, in whatever order they are made and in
however many steps, and all that counts in the end is their sum.

A missile that is locked to its player has no part in this. It goes where the player
goes.

* `lastMotion` — the motion that an object was given last.
* `Scene.column_write` — a free object after a write that leaves it alone.
* `Tia.travel`, `Tia.column_run` — and after a run: the sum of its motions.
* `Tia.motion_on_circle` — all of it, for a chip that was asked for anything.
-/
import Mathlib.Logic.Function.Iterate
import VideoComputer.Proofs.Video.LockedMissiles
import VideoComputer.Proofs.Video.PastWrites

namespace VideoComputer

/-! ## Writes -/

namespace RegisterWrite

/-- The motion that a write gives to an object, if it does. -/
def motion? (o : Movable) (w : RegisterWrite) : Option Int :=
  if w.register = .motion o then some (signedHighNibble w.data)
  else if w.register = .clearMotion then some 0
  else none

/-- Whether a write locks an object to its player. -/
def locks (o : Movable) (w : RegisterWrite) : Bool :=
  match o with
  | .missile p => w.register == .lockMissile p && bitAt w.data 1
  | .player _ | .ball => false

/-- Whether a write leaves an object where it is and free, or moves it like all
others. -/
def leaves (o : Movable) (w : RegisterWrite) : Bool :=
  w.register != .position o && !w.locks o

end RegisterWrite

/-- The motion that an object was given last: 0, if it was given none. -/
def lastMotion (o : Movable) (writes : List RegisterWrite) : Int :=
  ((writes.filterMap (RegisterWrite.motion? o)).getLast?).getD 0

/-- A position that is at most one width of the picture off the screen keeps its place
on the circle. -/
theorem wrapPosition_emod {i : Int} (h : -92 ≤ i) (h' : i < 388) :
    (wrapPosition i : Int) - blankLength = (i - blankLength) % 160 := by
  unfold wrapPosition
  split
  · simp only [lineLength, blankLength] at *
    omega
  · split <;> simp only [lineLength, blankLength] at * <;> omega

namespace Scene

/-- The column of the picture in which an object starts, or would start if the picture
went on to the right. -/
def column (s : Scene) (o : Movable) : Int := (s.positions.get o : Int) - blankLength

/-- What is on the circle is on the screen. -/
theorem onScreen_of_column {s : Scene} {o : Movable} {i : Int} (h : s.column o = i % 160) :
    s.OnScreen o := by
  simp only [column, OnScreen, lineLength, blankLength] at *
  omega

/-- The place of an object is known from its place on the circle. -/
theorem position_eq_of_column {s s' : Scene} {o : Movable} (h : s.column o = s'.column o) :
    s.positions.get o = s'.positions.get o := by
  simp only [column] at h
  omega

/-- A motion is a way on the circle, once around or not. -/
theorem InBounds.wrap_motion {s : Scene} (h : s.InBounds) (o : Movable) :
    (wrapPosition ((s.positions.get o : Int) - s.registers.motion.get o) : Int) - blankLength
      = (s.column o - s.registers.motion.get o) % 160 := by
  have hmotion := h.motion o
  have hposition := h.position o
  have hreach := reach_le o
  simp only [lineLength, blankLength] at hposition hreach
  rw [wrapPosition_emod (by omega) (by omega), column]
  congr 1
  omega

/-! ## Free objects -/

section

variable {s : Scene} {o : Movable} (hfree : s.isLocked o = false) {w : RegisterWrite}
  (hw : w.leaves o = true) (x : Nat)

include hfree hw

/-- A write that leaves an object alone does not align it. -/
theorem aligns_of_leaves : s.aligns w.register w.data o = false := by
  cases o with
  | missile p =>
    have hlocked : s.registers.missileLocked.get p = false := hfree
    obtain ⟨r, data⟩ := w
    cases r with
    | lockMissile q =>
      simpa [RegisterWrite.leaves, RegisterWrite.locks, aligns, imp_iff_not_or] using hw
    | move => exact hfree
    | position o => cases o <;> simp [aligns, hlocked]
    | _ => rfl
  | player p => rfl
  | ball => rfl

/-- A free object that is left alone is free. -/
theorem isLocked_write_of_leaves : (s.write x w.register w.data).isLocked o = false := by
  cases o with
  | missile p =>
    rw [isLocked_write, hfree]
    simp only [RegisterWrite.leaves, RegisterWrite.locks, Bool.and_eq_true] at hw
    split <;> simp_all
  | player p => rfl
  | ball => rfl

/-- It is moved by its motion if the write moves all objects, and stays where it is
otherwise. -/
theorem column_write (h : s.InBounds) :
    (s.write x w.register w.data).column o
      = if w.register = .move then (s.column o - s.registers.motion.get o) % 160
        else s.column o := by
  have hplace : w.register ≠ .position o := by
    simp only [RegisterWrite.leaves, Bool.and_eq_true, bne_iff_ne] at hw
    exact hw.1
  rw [column, position_write_of_not_aligns (aligns_of_leaves hfree hw), if_neg hplace]
  split
  · exact h.wrap_motion o
  · rfl

end

/-- A write tells the motion that it stores, and keeps the motion otherwise. -/
theorem motion_write_eq (s : Scene) (x : Nat) (w : RegisterWrite) (o : Movable) :
    (s.write x w.register w.data).registers.motion.get o
      = (w.motion? o).getD (s.registers.motion.get o) := by
  rw [motion_write, RegisterWrite.motion?]
  split
  · rfl
  · split <;> rfl

/-! ## Motions alone -/

/-- Moves change positions only. -/
theorem registers_iterate_move (s : Scene) (n : Nat) : (move^[n] s).registers = s.registers := by
  induction n generalizing s with
  | zero => rfl
  | succ n ih => rw [Function.iterate_succ_apply, ih, registers_move]

theorem iterate_move_eq (s : Scene) (n : Nat) :
    move^[n] s = { s with positions := (move^[n] s).positions } :=
  congrArg (Scene.mk · (move^[n] s).positions) (s.registers_iterate_move n)

/-- After some motions a locked missile is in the middle of its player. -/
theorem middle_iterate_move {s : Scene} {p : Player} (h : s.isLocked (.missile p) = true) {n : Nat}
    (hn : n ≠ 0) :
    (move^[n] s).positions.get (.missile p)
      = (move^[n] s).positions.get (.player p)
        + (s.registers.numberSize.get p).formation.lockOffset := by
  -- the last motion moves the player first, and nothing moves it after that
  obtain ⟨n, rfl⟩ := Nat.exists_eq_succ_of_ne_zero hn
  have hlocked : (move^[n] s).registers.missileLocked.get p = true := by
    rw [registers_iterate_move]
    exact h
  rw [Function.iterate_succ_apply', position_move_of_aligns hlocked, middle, registers_move,
    registers_iterate_move]

end Scene

namespace Tia

/-! ## Free objects -/

namespace Call

/-- Whether a call moves all objects. -/
def moves (c : Call) : Bool := c.store?.any (·.register == .move)

/-- The motion that a call gives to an object, if it does. -/
def motion? (o : Movable) (c : Call) : Option Int := c.store?.bind (·.motion? o)

/-- Whether a call leaves an object where it is and free, or moves it like all
others. -/
def leaves (o : Movable) (c : Call) : Bool := c != .reset && c.storesOnly (·.leaves o)

/-- A call that moves is a write to the register that moves. -/
theorem exists_of_moves {c : Call} (h : c.moves = true) :
    ∃ address data, c = .write address data ∧ VideoRegister.decode address = .move := by
  cases c with
  | write address data => exact ⟨address, data, rfl, by simpa [moves, store?] using h⟩
  | tick n | takeFrame | reset => cases h
  | setFire player pressed => cases h

/-- It leaves every object to its own motion, -/
theorem leaves_of_moves {c : Call} (h : c.moves = true) (o : Movable) : c.leaves o = true := by
  obtain ⟨address, data, rfl, hmove⟩ := exists_of_moves h
  cases o <;> simp [leaves, storesOnly, store?, RegisterWrite.leaves, RegisterWrite.locks, hmove]

/-- and stores none. -/
theorem motion?_of_moves {c : Call} (h : c.moves = true) (o : Movable) : c.motion? o = none := by
  obtain ⟨address, data, rfl, hmove⟩ := exists_of_moves h
  simp [motion?, store?, RegisterWrite.motion?, hmove]

end Call

/-- How far some calls move an object to the left that is left alone by them: the sum of
the motions it has when it is moved. At first its motion is `motion`. -/
def travel (o : Movable) : (motion : Int) → List Call → Int
  | _, [] => 0
  | motion, c :: calls =>
    (if c.moves then motion else 0) + travel o ((c.motion? o).getD motion) calls

/-- Without moves nothing travels. -/
theorem travel_of_not_moves (o : Movable) (motion : Int) {calls : List Call}
    (h : calls.any Call.moves = false) : travel o motion calls = 0 := by
  induction calls generalizing motion with
  | nil => rfl
  | cons c calls ih =>
    rw [List.any_cons, Bool.or_eq_false_iff] at h
    simp [travel, h.1, ih _ h.2]

/-- With nothing but moves, the motion adds up. -/
theorem travel_of_moves (o : Movable) (motion : Int) {calls : List Call}
    (h : ∀ c ∈ calls, c.moves = true) : travel o motion calls = calls.length * motion := by
  induction calls with
  | nil => simp [travel]
  | cons c calls ih =>
    have hc := h c List.mem_cons_self
    rw [travel, if_pos hc, Call.motion?_of_moves hc, Option.getD_none,
      ih fun c' hc' => h c' (List.mem_cons_of_mem c hc'), List.length_cons, Int.natCast_succ,
      Int.add_mul, Int.one_mul, Int.add_comm]

section

variable {t : Tia} (ht : Reachable t) {o : Movable} (hfree : t.scene.isLocked o = false)

include ht hfree

/-- What one call does to a free object that it leaves alone. -/
theorem column_call {c : Call} (hc : c.leaves o = true) :
    (t.call c).scene.isLocked o = false
      ∧ (t.call c).scene.registers.motion.get o
        = (c.motion? o).getD (t.scene.registers.motion.get o)
      ∧ (t.call c).scene.column o
        = if c.moves then (t.scene.column o - t.scene.registers.motion.get o) % 160
          else t.scene.column o := by
  cases c with
  | write address data =>
    have hw : RegisterWrite.leaves o ⟨.decode address, data⟩ = true := by
      simpa [Call.leaves, Call.storesOnly, Call.store?] using hc
    rw [call, scene_write]
    refine ⟨Scene.isLocked_write_of_leaves hfree hw _, Scene.motion_write_eq _ _ ⟨_, data⟩ o, ?_⟩
    rw [Scene.column_write hfree hw _ ht.inBounds]
    simp [Call.moves, Call.store?]
  | reset => cases hc
  | tick n | takeFrame =>
    rw [scene_call_of_isQuiet ht.beam_inRange rfl]
    exact ⟨hfree, rfl, rfl⟩
  | setFire player pressed =>
    rw [scene_call_of_isQuiet ht.beam_inRange rfl]
    exact ⟨hfree, rfl, rfl⟩

/-- On the way a free object stays where it is until it is moved, and then its motions
add up. -/
theorem column_run {calls : List Call} (hcalls : ∀ c ∈ calls, c.leaves o = true) :
    (t.run calls).scene.column o
      = if calls.any Call.moves then
          (t.scene.column o - travel o (t.scene.registers.motion.get o) calls) % 160
        else t.scene.column o := by
  induction calls generalizing t with
  | nil => rfl
  | cons c calls ih =>
    obtain ⟨hfree', hmotion, hcolumn⟩ := column_call ht hfree (hcalls c List.mem_cons_self)
    have hrest := ih (ht.call c) hfree' fun c' hc' => hcalls c' (List.mem_cons_of_mem c hc')
    rw [run_cons, hrest, hmotion, hcolumn, travel, List.any_cons]
    -- if objects are moved later, the circle is gone round once more, which changes nothing
    cases hlater : calls.any Call.moves with
    | false =>
      rw [travel_of_not_moves o _ hlater]
      cases c.moves <;> simp
    | true =>
      cases c.moves with
      | false => simp
      | true =>
        simp only [if_true, Bool.or_true]
        omega

/-- If it is moved and nothing else is done, its motion is the same each time. -/
theorem column_run_of_moves {moves : List Call} (hne : moves ≠ [])
    (hmoves : ∀ c ∈ moves, c.moves = true) :
    (t.run moves).scene.column o
      = (t.scene.column o - moves.length * t.scene.registers.motion.get o) % 160 := by
  obtain ⟨c, hc⟩ := List.exists_mem_of_ne_nil moves hne
  have hany : moves.any Call.moves = true := List.any_eq_true.mpr ⟨c, hc, hmoves c hc⟩
  have hleaves : ∀ c ∈ moves, c.leaves o = true :=
    fun c hc => Call.leaves_of_moves (hmoves c hc) o
  rw [column_run ht hfree hleaves, if_pos hany, travel_of_moves o _ hmoves]

end

/-! ## Motions alone -/

/-- A motion moves objects and does nothing else. -/
theorem call_of_moves {c : Call} (h : c.moves = true) (t : Tia) :
    t.call c = { t with scene := t.scene.move } := by
  obtain ⟨address, data, rfl, hmove⟩ := Call.exists_of_moves h
  rw [call, write, hmove]
  rfl

theorem run_of_moves {moves : List Call} (h : ∀ c ∈ moves, c.moves = true) (t : Tia) :
    t.run moves = { t with scene := Scene.move^[moves.length] t.scene } := by
  induction moves generalizing t with
  | nil => rfl
  | cons c moves ih =>
    rw [run_cons, ih (fun c' hc' => h c' (List.mem_cons_of_mem c hc')),
      call_of_moves (h c List.mem_cons_self), List.length_cons, Function.iterate_succ_apply]

/-- The motion in force is the last one that was stored. -/
theorem motion_run (calls : List Call) (o : Movable) :
    (powerOn.run calls).scene.registers.motion.get o = lastMotion o (pastWrites calls) := by
  rw [registers_run, VideoRegisters.writeAll]
  refine (seen_foldl (v := fun r : VideoRegisters => r.motion.get o)
    (g := RegisterWrite.motion? o) ?_ _ _).trans ?_
  · intro r w
    simpa using Scene.motion_write_eq ⟨r, .all 0⟩ 0 w o
  · rw [VideoRegisters.powerOn, PerObject.get_all, lastMotion]

/-- Whatever the chip was asked for, the motion of an object is the one it was given
last, from -8 to 7. If objects are moved several times, and nothing else is done, each
free object ends on the screen, so many times its motion further to the left on a
circle of 160 columns, also one that was beyond the end of the line. Each locked missile
ends in the middle of its player, whatever its own motion is. And positions are all
that changes. If other things are done on the way that leave a free object alone, it
ends where the sum of its motions leads; so ways with the same sum, around the circle,
end at the same place. -/
theorem motion_on_circle (calls : List Call) :
    let t := powerOn.run calls
    let past := pastWrites calls
    (∀ o, -8 ≤ lastMotion o past ∧ lastMotion o past ≤ 7)
      ∧ (∀ moves : List Call, moves ≠ [] → (∀ c ∈ moves, c.moves = true) →
          let t' := t.run moves
          (∀ o, t.scene.isLocked o = false →
              t'.scene.OnScreen o
                ∧ t'.scene.column o = (t.scene.column o - moves.length * lastMotion o past) % 160)
            ∧ (∀ p, t.scene.isLocked (.missile p) = true →
                t'.scene.positions.get (.missile p)
                  = t'.scene.positions.get (.player p)
                    + (t.scene.registers.numberSize.get p).formation.lockOffset)
            ∧ t' = { t with scene := { t.scene with positions := t'.scene.positions } })
      ∧ ∀ o, t.scene.isLocked o = false → ∀ way : List Call, (∀ c ∈ way, c.leaves o = true) →
          way.any Call.moves = true →
          (t.run way).scene.OnScreen o
            ∧ (t.run way).scene.column o
              = (t.scene.column o - travel o (lastMotion o past) way) % 160
            ∧ ∀ way' : List Call, (∀ c ∈ way', c.leaves o = true) → way'.any Call.moves = true →
                travel o (lastMotion o past) way' % 160 = travel o (lastMotion o past) way % 160 →
                (t.run way').scene.positions.get o = (t.run way).scene.positions.get o := by
  intro t past
  have ht : Reachable t := Reachable.powerOn.run calls
  have hmotion (o : Movable) : t.scene.registers.motion.get o = lastMotion o past :=
    motion_run calls o
  have hway {o : Movable} (hfree : t.scene.isLocked o = false) {way : List Call}
      (hleaves : ∀ c ∈ way, c.leaves o = true) (hmoves : way.any Call.moves = true) :
      (t.run way).scene.column o = (t.scene.column o - travel o (lastMotion o past) way) % 160 := by
    rw [column_run ht hfree hleaves, if_pos hmoves, hmotion]
  refine ⟨?_, ?_, ?_⟩
  · intro o
    rw [← hmotion]
    exact ht.inBounds.motion o
  · intro moves hne hmoves t'
    have hrun : t' = { t with scene := Scene.move^[moves.length] t.scene } := run_of_moves hmoves t
    refine ⟨?_, ?_, ?_⟩
    · intro o hfree
      have hcolumn := column_run_of_moves ht hfree hne hmoves
      rw [hmotion] at hcolumn
      exact ⟨Scene.onScreen_of_column hcolumn, hcolumn⟩
    · intro p hlocked
      rw [hrun]
      exact Scene.middle_iterate_move hlocked (List.length_pos_of_ne_nil hne).ne'
    · rw [hrun]
      exact congrArg (fun scene => { t with scene }) (Scene.iterate_move_eq t.scene moves.length)
  · intro o hfree way hleaves hmoves
    have hcolumn := hway hfree hleaves hmoves
    refine ⟨Scene.onScreen_of_column hcolumn, hcolumn, ?_⟩
    intro way' hleaves' hmoves' hsum
    refine Scene.position_eq_of_column ?_
    rw [hcolumn, hway hfree hleaves' hmoves']
    omega

/-- Player one at the last dot of a line with a missile that was locked to it, and is
released with a motion of seven; player two at the same dot with a missile that is still
locked to it. -/
def beyondTheEnd : List Call :=
  [.tick 227, .write 0x10 0x00, .write 0x28 0x02, .write 0x28 0x00, .write 0x22 0x70,
    .write 0x11 0x00, .write 0x29 0x02, .write 0x21 0x30, .write 0x23 0x80]

/-- The released missile is in column 162 and gets to column 141 with three motions. The
locked one stays with its player. And the ball gets as far with motions of three and four
as with one of seven. -/
theorem motion_on_circle_beyondTheEnd :
    let t := powerOn.run beyondTheEnd
    let t' := t.run [.write 0x2A 0x00, .write 0x6A 0xFF, .write 0x2A 0x00]
    t.scene.column (.missile .one) = 162 ∧ t'.scene.column (.missile .one) = 141
      ∧ t'.scene.column (.player .two) = 150
      ∧ t'.scene.positions.get (.missile .two) = t'.scene.positions.get (.player .two) + 3
      ∧ (t.run [.write 0x24 0x70, .write 0x2A 0x00]).scene.positions.get .ball
        = (t.run [.write 0x24 0x30, .write 0x2A 0x00, .tick 9, .write 0x24 0x40,
            .write 0x2A 0x00]).scene.positions.get .ball := by
  obtain ⟨-, halone, hways⟩ := motion_on_circle beyondTheEnd
  obtain ⟨hfree, hlocked, -⟩ :=
    halone [.write 0x2A 0x00, .write 0x6A 0xFF, .write 0x2A 0x00] (by simp) (by decide)
  obtain ⟨-, -, hsame⟩ :=
    hways .ball rfl
      [.write 0x24 0x30, .write 0x2A 0x00, .tick 9, .write 0x24 0x40, .write 0x2A 0x00]
      (by decide) (by decide)
  have hcolumns : (powerOn.run beyondTheEnd).scene.column (.missile .one) = 162
      ∧ (powerOn.run beyondTheEnd).scene.column (.player .two) = 159 := by decide
  have hmotions : lastMotion (.missile .one) (pastWrites beyondTheEnd) = 7
      ∧ lastMotion (.player .two) (pastWrites beyondTheEnd) = 3 := by decide
  dsimp only
  refine ⟨hcolumns.1, ?_, ?_, hlocked .two rfl, ?_⟩
  · rw [(hfree (.missile .one) rfl).2, hcolumns.1, hmotions.1]
    rfl
  · rw [(hfree (.player .two) rfl).2, hcolumns.2, hmotions.2]
    rfl
  · exact hsame [.write 0x24 0x70, .write 0x2A 0x00] (by decide) (by decide) (by decide)

end Tia

end VideoComputer
