/-
VideoComputer.Proofs.Video.Meetings — what the collision latches remember.

A program does not see two objects meet. It reads a register some time later,
maybe frames later, so a latch has to keep what happened on the way of the beam
until the program clears it, and must not show anything that did not happen
there. The way of the beam is its trail, and what happened there is said of the
scene at each of its dots: two things met where both were present at a dot that
was drawn.

Registers and bits are laid out as a program reads them, eight registers with
two pairs each, of which one has only one.

* `Passage.meets` — whether two things met at a dot of the beam's way.
* `Tia.trailSinceClear` — the way since the latches were last cleared.
* `Tia.Remembers` — the latches are what a trail says; kept by a dot, a stretch
  of dots, a call and a run.
* `Tia.latches_tell_meetings` — what is read, at every address and bit.
-/
import VideoComputer.Proofs.Video.Racing

namespace VideoComputer

/-! ## Things that meet -/

/-- Something that can be present at a dot. -/
inductive Thing where
  | playfield
  | ball
  | player (p : Player)
  | missile (p : Player)
  deriving DecidableEq, Repr

/-- Whether a thing is present at a dot. -/
def Scene.shows (s : Scene) (x : Nat) : Thing → Bool
  | .playfield => s.playfieldAt x
  | .ball => s.ballAt x
  | .player p => s.playerAt p x
  | .missile p => s.missileAt p x

/-- The two things whose meeting sets a latch. -/
def Latch.pair : Latch → Thing × Thing
  | .missilePlayer m p => (.missile m, .player p)
  | .playerPlayfield p => (.player p, .playfield)
  | .playerBall p => (.player p, .ball)
  | .missilePlayfield m => (.missile m, .playfield)
  | .missileBall m => (.missile m, .ball)
  | .ballPlayfield => (.ball, .playfield)
  | .players => (.player .one, .player .two)
  | .missiles => (.missile .one, .missile .two)

/-- A latch is for two objects, and is hit where both of them show. -/
theorem Latch.isHit_dotAt (l : Latch) (s : Scene) (x : Nat) :
    l.isHit (s.dotAt x) = (s.shows x l.pair.1 && s.shows x l.pair.2) := by
  cases l with
  | missilePlayer m p => cases m <;> cases p <;> rfl
  | playerPlayfield p => cases p <;> rfl
  | playerBall p => cases p <;> rfl
  | missilePlayfield m => cases m <;> rfl
  | missileBall m => cases m <;> rfl
  | ballPlayfield | players | missiles => rfl

/-- Whether the two things of a latch met where the beam passed: at a visible
dot, outside vertical sync and vertical blank. -/
def Passage.meets (p : Passage) (l : Latch) : Bool :=
  blankLength ≤ p.dot && p.dot < lineLength && !p.scene.registers.isBlanked
    && (p.scene.shows p.dot l.pair.1 && p.scene.shows p.dot l.pair.2)

/-! ## Latches -/

namespace Collisions

/-- Recording a dot sets the bits of the latches that it hits, and no others. -/
theorem testBit_foldl_insert (d : Dot) (n : Nat) (ls : List Latch) (c : Collisions) :
    (ls.foldl (fun c l => if l.isHit d then c.insert l else c) c).bits.toNat.testBit n
      = (c.bits.toNat.testBit n || ls.any fun l => l.isHit d && decide (l.bit = n)) := by
  induction ls generalizing c with
  | nil => simp
  | cons l ls ih =>
    rw [List.foldl_cons, ih, List.any_cons]
    cases hhit : l.isHit d with
    | false => simp
    | true => simp [testBit_insert, Bool.or_assoc]

/-- A dot adds the latches of the pairs that meet there, -/
theorem contains_record (c : Collisions) (d : Dot) (l : Latch) :
    (c.record d).contains l = (c.contains l || l.isHit d) := by
  have hany : (Latch.all.any fun l' => l'.isHit d && decide (l'.bit = l.bit)) = l.isHit d := by
    rw [Bool.eq_iff_iff, List.any_eq_true]
    constructor
    · rintro ⟨l', -, h⟩
      obtain ⟨hhit, hbit⟩ := Bool.and_eq_true_iff.mp h
      rwa [Latch.bit_inj (of_decide_eq_true hbit)] at hhit
    · intro hhit
      exact ⟨l, l.mem_all, by simp [hhit]⟩
  rw [contains, record, testBit_foldl_insert, hany]
  rfl

/-- and leaves the bit alone that keeps no latch. -/
theorem testBit_thirteen_record (c : Collisions) (d : Dot) :
    (c.record d).bits.toNat.testBit 13 = c.bits.toNat.testBit 13 := by
  have hunused : ∀ l ∈ Latch.all, l.bit ≠ 13 := by decide
  have hany : (Latch.all.any fun l => l.isHit d && decide (l.bit = 13)) = false := by
    rw [List.any_eq_false]
    intro l hl
    simp [hunused l hl]
  rw [record, testBit_foldl_insert, hany, Bool.or_false]

end Collisions

/-! ## Registers -/

/-- A collision register. -/
inductive CollisionRegister where
  | missilePlayers (m : Player)
  | playerField (p : Player)
  | missileField (m : Player)
  | ballField
  /-- The meeting of the players, and that of the missiles. -/
  | twins
  deriving DecidableEq, Repr

namespace CollisionRegister

/-- The register with a number below 8, the low three bits of an address. -/
def ofNumber : Nat → CollisionRegister
  | 0 => .missilePlayers .one
  | 1 => .missilePlayers .two
  | 2 => .playerField .one
  | 3 => .playerField .two
  | 4 => .missileField .one
  | 5 => .missileField .two
  | 6 => .ballField
  | _ => .twins

/-- The register a read of an address reaches. -/
def decode (address : UInt16) : CollisionRegister := ofNumber (address.toNat % 8)

/-- The latch that shows in a bit of the register. A missile's meeting with the
other side's player comes before that with its own. -/
def latchAt : CollisionRegister → Nat → Option Latch
  | .missilePlayers m, 7 => some (.missilePlayer m m.other)
  | .missilePlayers m, 6 => some (.missilePlayer m m)
  | .playerField p, 7 => some (.playerPlayfield p)
  | .playerField p, 6 => some (.playerBall p)
  | .missileField m, 7 => some (.missilePlayfield m)
  | .missileField m, 6 => some (.missileBall m)
  | .ballField, 7 => some .ballPlayfield
  | .twins, 7 => some .players
  | .twins, 6 => some .missiles
  | _, _ => none

/-- Every latch shows somewhere. -/
theorem exists_latchAt (l : Latch) : ∃ r n, latchAt r n = some l := by
  cases l with
  | missilePlayer m p =>
    by_cases hown : p = m
    · exact ⟨.missilePlayers m, 6, by rw [hown]; rfl⟩
    · have hother : p = m.other := by
        cases m <;> cases p <;> simp_all [Player.other]
      exact ⟨.missilePlayers m, 7, by rw [hother]; rfl⟩
  | playerPlayfield p => exact ⟨.playerField p, 7, rfl⟩
  | playerBall p => exact ⟨.playerField p, 6, rfl⟩
  | missilePlayfield m => exact ⟨.missileField m, 7, rfl⟩
  | missileBall m => exact ⟨.missileField m, 6, rfl⟩
  | ballPlayfield => exact ⟨.ballField, 7, rfl⟩
  | players => exact ⟨.twins, 7, rfl⟩
  | missiles => exact ⟨.twins, 6, rfl⟩

/-- The low six bits of a register show nothing. -/
theorem latchAt_of_unwired (r : CollisionRegister) {n : Nat} (h7 : n ≠ 7) (h6 : n ≠ 6) :
    r.latchAt n = none := by
  unfold latchAt
  split <;> simp_all

end CollisionRegister

/-- A bit of a register shows its latch, and 0 where it has none. -/
theorem Collisions.bitAt_register {c : Collisions} (h : c.bits.toNat.testBit 13 = false)
    (address : UInt16) (n : Nat) :
    bitAt (c.register address) n
      = ((CollisionRegister.decode address).latchAt n).any c.contains := by
  have hlt : address.toNat % 8 < 8 := Nat.mod_lt _ (by decide)
  simp only [register, CollisionRegister.decode, bitAt_or, bitAt_flagAt _ (by decide : 7 < 8),
    bitAt_flagAt _ (by decide : 6 < 8)]
  generalize address.toNat % 8 = k at hlt
  by_cases h7 : n = 7
  · rw [h7, show (6 == 7) = false from rfl, Bool.and_false, Bool.or_false, beq_self_eq_true,
      Bool.and_true]
    match k, hlt with
    | 0, _ | 1, _ | 2, _ | 3, _ | 4, _ | 5, _ | 6, _ | 7, _ => rfl
  · by_cases h6 : n = 6
    · rw [h6, show (7 == 6) = false from rfl, Bool.and_false, Bool.false_or, beq_self_eq_true,
        Bool.and_true]
      match k, hlt with
      | 0, _ | 1, _ | 2, _ | 3, _ | 4, _ | 5, _ | 7, _ => rfl
      -- the bit in the store that no latch has is shown here
      | 6, _ => exact h
    · rw [CollisionRegister.latchAt_of_unwired _ h7 h6]
      simp [Ne.symm h7, Ne.symm h6]

namespace Tia

/-! ## The way since the last clearing -/

/-- Whether a call clears the latches. -/
def Call.clearsLatches : Call → Bool
  | .write address _ => VideoRegister.decode address == .clearCollisions
  | .reset => true
  | .tick _ | .takeFrame | .setFire .. => false

/-- The trail that calls leave behind since the latches were last cleared. -/
def trailSinceClear (t : Tia) (trail : Trail) : List Call → Trail
  | [] => trail
  | c :: calls =>
    let kept := if c.clearsLatches then [] else t.trailDots (t.dotsIn c) trail
    (t.call c).trailSinceClear kept calls

/-! ## The latches are read off the trail -/

/-- Each latch is what a trail says, and the bit without a latch is clear. -/
structure Remembers (t : Tia) (trail : Trail) : Prop where
  contains_eq (l : Latch) : t.canvas.collisions.contains l = trail.any (·.meets l)
  spare_clear : t.canvas.collisions.bits.toNat.testBit 13 = false

/-- A dot that is drawn is recorded, and no other. -/
theorem collisions_stepDot (t : Tia) :
    t.stepDot.canvas.collisions
      = if blankLength ≤ t.beam.x && !t.scene.registers.isBlanked then
          t.canvas.collisions.record (t.scene.dotAt t.beam.x)
        else t.canvas.collisions := by
  rw [canvas_stepDot]
  unfold drawDot
  split <;> rfl

theorem remembers_nil {t : Tia} (h : t.canvas.collisions = .empty) : t.Remembers [] := by
  constructor
  · intro l
    simp [h]
  · rw [h]
    rfl

/-- A dot is added to what is remembered, -/
theorem remembers_stepDot {t : Tia} (h : t.beam.InRange) {trail : Trail} (hr : t.Remembers trail) :
    t.stepDot.Remembers (t.passage :: trail) := by
  constructor
  · intro l
    -- the beam is inside its line, so a passage meets exactly where a dot is recorded
    have hmeets : t.passage.meets l
        = (blankLength ≤ t.beam.x && !t.scene.registers.isBlanked
            && l.isHit (t.scene.dotAt t.beam.x)) := by
      rw [l.isHit_dotAt, Passage.meets, passage, decide_eq_true h.x_lt, Bool.and_true]
    rw [collisions_stepDot, List.any_cons, hmeets, ← hr.contains_eq]
    split
    next hdrawn => rw [Collisions.contains_record, hdrawn, Bool.true_and, Bool.or_comm]
    next hdrawn => simp [hdrawn]
  · rw [collisions_stepDot]
    split
    · rw [Collisions.testBit_thirteen_record, hr.spare_clear]
    · exact hr.spare_clear

/-- so are several, -/
theorem remembers_stepDots {t : Tia} (h : t.beam.InRange) {trail : Trail} (hr : t.Remembers trail)
    (n : Nat) : (t.stepDots n).Remembers (t.trailDots n trail) := by
  induction n generalizing t trail with
  | zero => exact hr
  | succ n ih => exact ih (beam_inRange_stepDot h) (remembers_stepDot h hr)

/-- A write clears the latches or leaves them alone. -/
theorem collisions_write (t : Tia) (address : UInt16) (data : UInt8) :
    (t.write address data).canvas.collisions
      = if VideoRegister.decode address == .clearCollisions then .empty
        else t.canvas.collisions := by
  rw [write]
  cases VideoRegister.decode address <;> rfl

/-- and those of a call, unless it clears the latches. -/
theorem remembers_call {t : Tia} (h : t.beam.InRange) {trail : Trail} (hr : t.Remembers trail)
    (c : Call) :
    (t.call c).Remembers (if c.clearsLatches then [] else t.trailDots (t.dotsIn c) trail) := by
  cases c with
  | write address data =>
    have hwrite := t.collisions_write address data
    show (t.write address data).Remembers
      (if VideoRegister.decode address == .clearCollisions then [] else trail)
    split at hwrite
    next hclears =>
      rw [if_pos hclears]
      exact remembers_nil hwrite
    next hkeeps =>
      rw [if_neg hkeeps]
      exact ⟨fun l => hwrite ▸ hr.contains_eq l, hwrite ▸ hr.spare_clear⟩
  | tick n =>
    have hdots := remembers_stepDots h hr (t.dotsIn (.tick n))
    rw [call, (tick_eq_stepDots_dotsIn h n).1]
    exact ⟨hdots.contains_eq, hdots.spare_clear⟩
  | takeFrame => exact ⟨hr.contains_eq, hr.spare_clear⟩
  | setFire player pressed => exact ⟨hr.contains_eq, hr.spare_clear⟩
  | reset => exact remembers_nil rfl

/-- A run is remembered from where the latches were last cleared. -/
theorem remembers_run {t : Tia} (h : t.beam.InRange) {trail : Trail} (hr : t.Remembers trail)
    (calls : List Call) : (t.run calls).Remembers (t.trailSinceClear trail calls) := by
  induction calls generalizing t trail with
  | nil => exact hr
  | cons c calls ih => exact ih (beam_inRange_call h c) (remembers_call h hr c)

/-! ## What a program reads -/

/-- Whatever the chip was asked for, and whatever address is read: a bit is set
if and only if it shows a latch, and the two things of that latch have met at a
dot that was drawn since the latches were last cleared. Every latch shows in some
bit of some register. -/
theorem latches_tell_meetings (calls : List Call) :
    (∀ address n,
        bitAt ((powerOn.run calls).read address) n = true
          ↔ ∃ l, (CollisionRegister.decode address).latchAt n = some l
              ∧ ∃ p ∈ powerOn.trailSinceClear [] calls, p.meets l = true)
      ∧ ∀ l : Latch, ∃ r n, CollisionRegister.latchAt r n = some l := by
  refine ⟨?_, CollisionRegister.exists_latchAt⟩
  intro address n
  have hr := remembers_run beam_inRange_powerOn (remembers_nil (t := powerOn) rfl) calls
  rw [read, Collisions.bitAt_register hr.spare_clear, Option.any_eq_true]
  simp only [hr.contains_eq, List.any_eq_true]

/-- The ball is enabled where the playfield begins: once the beam was there the register
at 6, which is at 0x36 as well, shows in bit 7 that they met, and in bit 6 nothing. A write
to 0x2C clears it. -/
theorem latches_tell_meetings_ballPlayfield :
    bitAt ((powerOn.run [.write 0x0D 0xF0, .write 0x1F 0x02, .tick 69]).read 0x36) 7 = true
      ∧ bitAt ((powerOn.run [.write 0x0D 0xF0, .write 0x1F 0x02, .tick 69]).read 0x36) 6 = false
      ∧ bitAt ((powerOn.run [.write 0x0D 0xF0, .write 0x1F 0x02, .tick 69, .write 0x2C 0]).read
          0x36) 7 = false := by
  refine ⟨?_, ?_, ?_⟩
  · refine ((latches_tell_meetings [.write 0x0D 0xF0, .write 0x1F 0x02, .tick 69]).1 0x36 7).mpr ?_
    exact ⟨.ballPlayfield, rfl, by decide +kernel⟩
  · rw [Bool.eq_false_iff, ne_eq, (latches_tell_meetings _).1]
    rintro ⟨l, hl, -⟩
    cases hl
  · rw [Bool.eq_false_iff, ne_eq, (latches_tell_meetings _).1]
    rintro ⟨l, -, p, hp, -⟩
    cases hp

end Tia

end VideoComputer
