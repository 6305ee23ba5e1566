/-
VideoComputer.Proofs.Video.Exchange — the two sides of the video chip may be
exchanged.

Player one and player two have the same registers, at different addresses. If a
program uses the registers of one side for those of the other, it gets the same
display with the sides exchanged: the objects at each other's places, and their
meetings in each other's registers. Nothing in the chip may prefer a side then,
neither where a register is found nor in which order objects are moved.

One thing does. The delayed bit of the ball follows its current one when graphics
of player two are written, and there is no such link on the other side. It shows
only if the ball is told to use the delayed bit, so it does no harm in a run that
never tells it to.

* `Scene.Exchanged` — a scene and the same with the sides exchanged; kept by
  writes that are exchanged.
* `Call.exchanged` — the same call for the other side.
* `Tia.sides_exchangeable` — two runs, one of them with all calls exchanged.
-/
import Mathlib.Data.List.Forall2
import VideoComputer.Proofs.Video.Meetings
import VideoComputer.Proofs.Video.PastWrites
import VideoComputer.Proofs.Video.Timing

namespace VideoComputer

/-! ## The other side -/

/-- The same object of the other side. -/
def Movable.other : Movable → Movable
  | .player p => .player p.other
  | .missile p => .missile p.other
  | .ball => .ball

/-- The values of the objects with the sides exchanged. -/
def PerObject.swap {α : Type} (s : PerObject α) : PerObject α :=
  ⟨s.player.swap, s.missile.swap, s.ball⟩

/-- The objects at a dot with the sides exchanged. -/
def Dot.swap (d : Dot) : Dot := { d with player := d.player.swap, missile := d.missile.swap }

/-- The same pair of the other side. -/
def Latch.other : Latch → Latch
  | .missilePlayer m p => .missilePlayer m.other p.other
  | .playerPlayfield p => .playerPlayfield p.other
  | .playerBall p => .playerBall p.other
  | .missilePlayfield m => .missilePlayfield m.other
  | .missileBall m => .missileBall m.other
  | .ballPlayfield => .ballPlayfield
  | .players => .players
  | .missiles => .missiles

/-- What meets on one side meets on the other one after the exchange. -/
theorem Latch.isHit_swap (l : Latch) (d : Dot) : l.other.isHit d.swap = l.isHit d := by
  cases l with
  | missilePlayer m p => cases m <;> cases p <;> rfl
  | playerPlayfield p => cases p <;> rfl
  | playerBall p => cases p <;> rfl
  | missilePlayfield m => cases m <;> rfl
  | missileBall m => cases m <;> rfl
  | ballPlayfield => rfl
  | players => exact Bool.and_comm _ _
  | missiles => exact Bool.and_comm _ _

/-- The same collision register of the other side. -/
def CollisionRegister.other : CollisionRegister → CollisionRegister
  | .missilePlayers m => .missilePlayers m.other
  | .playerField p => .playerField p.other
  | .missileField m => .missileField m.other
  | .ballField => .ballField
  | .twins => .twins

/-- The other side's register shows the other side's latch in the same bit. -/
theorem CollisionRegister.latchAt_other (r : CollisionRegister) (n : Nat) :
    r.other.latchAt n = (r.latchAt n).map Latch.other := by
  by_cases h7 : n = 7
  · subst h7
    cases r <;> rfl
  · by_cases h6 : n = 6
    · subst h6
      cases r <;> rfl
    · rw [latchAt_of_unwired _ h7 h6, latchAt_of_unwired _ h7 h6]
      rfl

namespace VideoRegister

/-- The same write register of the other side. The sound registers have no side on
the screen. -/
def other : VideoRegister → VideoRegister
  | .numberSize p => .numberSize p.other
  | .playerColor p => .playerColor p.other
  | .reflect p => .reflect p.other
  | .position o => .position o.other
  | .graphics p => .graphics p.other
  | .enableMissile p => .enableMissile p.other
  | .motion o => .motion o.other
  | .delayPlayer p => .delayPlayer p.other
  | .lockMissile p => .lockMissile p.other
  | r => r

/-- The number of the same register of the other side. -/
def otherNumber : Nat → Nat
  | 0x04 => 0x05 | 0x05 => 0x04
  | 0x06 => 0x07 | 0x07 => 0x06
  | 0x0B => 0x0C | 0x0C => 0x0B
  | 0x10 => 0x11 | 0x11 => 0x10
  | 0x12 => 0x13 | 0x13 => 0x12
  | 0x1B => 0x1C | 0x1C => 0x1B
  | 0x1D => 0x1E | 0x1E => 0x1D
  | 0x20 => 0x21 | 0x21 => 0x20
  | 0x22 => 0x23 | 0x23 => 0x22
  | 0x25 => 0x26 | 0x26 => 0x25
  | 0x28 => 0x29 | 0x29 => 0x28
  | number => number

/-- The address of the same register of the other side. -/
def otherAddress (address : UInt16) : UInt16 :=
  UInt16.ofNat (address.toNat / 64 * 64 + otherNumber (address.toNat % 64))

/-- The number of the other side's register is a number of a register. -/
theorem ofNumber_otherNumber :
    ∀ number < 64,
      otherNumber number < 64 ∧ ofNumber (otherNumber number) = (ofNumber number).other := by
  decide

/-- An address and its exchanged one decode to the two sides' registers. -/
theorem decode_otherAddress (address : UInt16) :
    decode (otherAddress address) = (decode address).other := by
  have haddress := address.toNat_lt
  obtain ⟨hlt, hother⟩ := ofNumber_otherNumber (address.toNat % 64) (Nat.mod_lt _ (by decide))
  rw [decode, decode, otherAddress, UInt16.toNat_ofNat', ← hother]
  congr 1
  omega

end VideoRegister

/-! ## Scenes -/

namespace VideoRegisters

/-- The registers with the sides exchanged. -/
def swap (r : VideoRegisters) : VideoRegisters :=
  { r with
    numberSize := r.numberSize.swap, playerColor := r.playerColor.swap
    reflected := r.reflected.swap, graphics := r.graphics.swap
    delayedGraphics := r.delayedGraphics.swap, missileEnabled := r.missileEnabled.swap
    delayPlayer := r.delayPlayer.swap, missileLocked := r.missileLocked.swap
    motion := r.motion.swap }

/-- The registers without the bit that follows one side only. -/
def evened (r : VideoRegisters) : VideoRegisters := { r with delayedBallEnabled := false }

/-- A write and the exchange may change places, if the other side is written to and the bit
that follows one side only is left out, -/
theorem swap_write (r : VideoRegisters) (register : VideoRegister) (data : UInt8) :
    (r.write register data).swap.evened = (r.swap.write register.other data).evened := by
  cases register with
  | motion o =>
    cases o with
    | player p => cases p <;> rfl
    | missile p => cases p <;> rfl
    | ball => rfl
  | numberSize p | playerColor p | reflect p => cases p <;> rfl
  | graphics p | enableMissile p | delayPlayer p | lockMissile p => cases p <;> rfl
  | _ => rfl

/-- which can be left out before a write or behind it. -/
theorem evened_write (r : VideoRegisters) (register : VideoRegister) (data : UInt8) :
    (r.write register data).evened = (r.evened.write register data).evened := by
  cases register with
  | graphics p => cases p <;> rfl
  | _ => rfl

end VideoRegisters

namespace Scene

/-- The scene with the sides exchanged. -/
def swap (s : Scene) : Scene := ⟨s.registers.swap, s.positions.swap⟩

/-- The scene without the bit that follows one side only. -/
def evened (s : Scene) : Scene := s.mapRegisters VideoRegisters.evened

/-- To align a missile and to exchange the sides may change places, -/
theorem swap_alignIfLocked (s : Scene) (p : Player) :
    (s.alignIfLocked p).swap = s.swap.alignIfLocked p.other := by
  have hlocked : s.swap.registers.missileLocked.get p.other = s.registers.missileLocked.get p := by
    cases p <;> rfl
  rw [alignIfLocked, alignIfLocked, hlocked]
  split <;> cases p <;> rfl

/-- to place an object, -/
theorem swap_place (s : Scene) (x : Nat) (o : Movable) :
    (s.place x o).swap = s.swap.place x o.other := by
  cases o with
  | player p =>
    refine (swap_alignIfLocked _ p).trans ?_
    cases p <;> rfl
  | missile p => cases p <;> rfl
  | ball => rfl

/-- to move one, -/
theorem swap_moveObject (s : Scene) (o : Movable) :
    (s.moveObject o).swap = s.swap.moveObject o.other := by
  cases o with
  | player p => cases p <;> rfl
  | missile p => cases p <;> rfl
  | ball => rfl

/-- and to move a missile, locked or not. -/
theorem swap_moveMissile (s : Scene) (p : Player) :
    (s.moveMissile p).swap = s.swap.moveMissile p.other := by
  rw [moveMissile_eq, moveMissile_eq]
  cases p <;> rfl

/-- The missiles may be moved in either order. -/
theorem moveMissile_comm (s : Scene) :
    (s.moveMissile .two).moveMissile .one = (s.moveMissile .one).moveMissile .two := by
  simp only [moveMissile_eq]
  rfl

/-- The objects move one after the other, but no motion looks at the other side. -/
theorem swap_move (s : Scene) : s.move.swap = s.swap.move := by
  simp only [move, swap_moveObject, swap_moveMissile, Movable.other, Player.other]
  rw [moveMissile_comm]
  rfl

/-- So may a write and the exchange, without the bit that follows one side only, -/
theorem swap_write (s : Scene) (x : Nat) (r : VideoRegister) (data : UInt8) :
    (s.write x r data).swap.evened = (s.swap.write x r.other data).evened := by
  cases r with
  | position o => exact congrArg evened (swap_place s x o)
  | move => exact congrArg evened (swap_move s)
  | lockMissile p =>
    refine congrArg evened ((swap_alignIfLocked _ p).trans ?_)
    cases p <;> rfl
  | _ => exact congrArg (Scene.mk · s.positions.swap) (s.registers.swap_write _ data)

/-- which a write to what is drawn does not look at. -/
theorem evened_write (s : Scene) (x : Nat) (r : VideoRegister) (data : UInt8) :
    (s.write x r data).evened = (s.evened.write x r data).evened :=
  mapRegisters_write (f := VideoRegisters.evened) ⟨fun _ => rfl, fun _ => rfl, fun _ => rfl⟩ s
    (fun registers => registers.evened_write r data) x

/-- Two scenes of which each is the other with the sides exchanged, and in which the
ball does not show the bit that follows one side only. -/
structure Exchanged (s s' : Scene) : Prop where
  evened_eq : s'.evened = s.swap.evened
  delayBall_eq : s.registers.delayBall = false

section

variable {s s' : Scene}

/-- Exchanged scenes have their objects exchanged. -/
theorem Exchanged.positions (h : Exchanged s s') : s'.positions = s.positions.swap :=
  congrArg Scene.positions h.evened_eq

/-- Without delay, what is drawn does not look at the bit that follows one side only, -/
theorem dotAt_evened (h : s.registers.delayBall = false) (x : Nat) :
    s.evened.dotAt x = s.dotAt x := by
  have hball : s.evened.registers.shownBall = s.registers.shownBall := by
    simp [VideoRegisters.shownBall, evened, mapRegisters, VideoRegisters.evened, h]
  simp only [dotAt, ballAt, hball]
  rfl

/-- so exchanged scenes draw the exchanged dot everywhere. -/
theorem Exchanged.dotAt (h : Exchanged s s') (x : Nat) : s'.dotAt x = (s.dotAt x).swap := by
  have hdelay : s'.registers.delayBall = false :=
    (congrArg (fun s => s.registers.delayBall) h.evened_eq).trans h.delayBall_eq
  rw [← dotAt_evened hdelay, h.evened_eq, dotAt_evened (s := s.swap) h.delayBall_eq]
  rfl

/-- They are exchanged behind writes to the two sides, as long as the ball is not delayed. -/
theorem Exchanged.write (h : Exchanged s s') {r : VideoRegister} {data : UInt8}
    (hr : ¬ (r = .delayBall ∧ bitAt data 0 = true)) (x : Nat) :
    Exchanged (s.write x r data) (s'.write x r.other data) := by
  constructor
  · rw [evened_write, h.evened_eq, ← evened_write, swap_write]
  · rw [registers_write, VideoRegisters.delayBall_write]
    split
    next hdelay => simpa [hdelay] using hr
    next => exact h.delayBall_eq

end

end Scene

/-! ## Latches -/

namespace Collisions

/-- Whether each latch is set just if the same latch of the other side is. -/
def Exchanged (c c' : Collisions) : Prop := ∀ l : Latch, c'.contains l.other = c.contains l

/-- Latches that are exchanged stay so with every dot that is recorded. -/
theorem Exchanged.record {c c' : Collisions} (h : c.Exchanged c') (d : Dot) :
    (c.record d).Exchanged (c'.record d.swap) := by
  intro l
  rw [contains_record, contains_record, h, l.isHit_swap]

/-- What is read is found in the registers of the other side. -/
theorem Exchanged.register {c c' : Collisions} (h : c.Exchanged c')
    (hspare : c.bits.toNat.testBit 13 = false) (hspare' : c'.bits.toNat.testBit 13 = false)
    {address address' : UInt16}
    (ha : CollisionRegister.decode address' = (CollisionRegister.decode address).other) :
    c'.register address' = c.register address := by
  apply eq_of_bitAt
  intro n
  rw [bitAt_register hspare, bitAt_register hspare', ha, CollisionRegister.latchAt_other]
  cases (CollisionRegister.decode address).latchAt n with
  | none => rfl
  | some l => exact h l

end Collisions

namespace Tia

/-! ## Calls -/

/-- The same call for the other side. -/
def Call.exchanged : Call → Call
  | .write address data => .write (VideoRegister.otherAddress address) data
  | .setFire player pressed => .setFire player.other pressed
  | .tick dots => .tick dots
  | .takeFrame => .takeFrame
  | .reset => .reset

/-- Whether a call tells the ball to use its delayed bit. -/
def Call.delaysBall : Call → Bool
  | .write address data => VideoRegister.decode address == .delayBall && bitAt data 0
  | .tick _ | .takeFrame | .setFire .. | .reset => false

/-- The sides have the same part in the timing, namely none. -/
theorem Call.timed?_exchanged (c : Call) : c.exchanged.timed? = c.timed? := by
  cases c with
  | write address data =>
    rw [exchanged, timed?, timed?, VideoRegister.decode_otherAddress]
    cases VideoRegister.decode address <;> rfl
  | _ => rfl

/-- Chips with one timing, and with scenes and latches of which each are the others
with the sides exchanged. -/
abbrev Exchanged : Tia → Tia → Prop := Alongside Scene.Exchanged Collisions.Exchanged

/-- Neither dots nor lines put an end to the exchange. -/
theorem keptByStrokes_exchanged : KeptByStrokes Exchanged :=
  keptByStrokes_alongside (f := Dot.swap) Scene.Exchanged.dotAt fun d h => h.record d

theorem exchanged_powerOn : Exchanged powerOn powerOn := by
  refine ⟨rfl, ⟨rfl, rfl⟩, ?_⟩
  intro l
  simp [powerOn, Canvas.blank]

/-- A call and its exchanged one keep it, -/
theorem exchanged_call {t t' : Tia} (h : Exchanged t t') {c : Call} (hc : c.delaysBall = false) :
    Exchanged (t.call c) (t'.call c.exchanged) := by
  have htiming : (t.call c).timing = (t'.call c.exchanged).timing :=
    timing_call_of_timed? h.timing c.timed?_exchanged.symm
  cases c with
  | write address data =>
    refine ⟨htiming, ?_, ?_⟩
    · have hball : ¬ (VideoRegister.decode address = .delayBall ∧ bitAt data 0 = true) := by
        simpa [Call.delaysBall] using hc
      rw [Call.exchanged, call, call, scene_write, scene_write, VideoRegister.decode_otherAddress,
        ← beam_of_timing h.timing]
      exact h.scene.write hball _
    · rw [Call.exchanged, call, call, collisions_write, collisions_write,
        VideoRegister.decode_otherAddress]
      cases VideoRegister.decode address with
      | clearCollisions => exact exchanged_powerOn.latches
      | _ => exact h.latches
  | tick n => exact (keptByStrokes_exchanged.tick h n).tia
  | takeFrame => exact ⟨htiming, h.scene, h.latches⟩
  | setFire player pressed => exact ⟨htiming, h.scene, h.latches⟩
  | reset => exact ⟨htiming, exchanged_powerOn.scene, exchanged_powerOn.latches⟩

/-- and so do two runs, call by call. -/
theorem exchanged_run {t t' : Tia} (h : Exchanged t t') {calls : List Call}
    (hcalls : ∀ c ∈ calls, c.delaysBall = false) :
    Exchanged (t.run calls) (t'.run (calls.map Call.exchanged)) := by
  refine run_forall₂ (S := fun c c' => c.delaysBall = false ∧ c' = c.exchanged) ?_ ?_ h
  · rintro t t' c _ h ⟨hc, rfl⟩
    exact exchanged_call h hc
  · exact List.forall₂_map_right_iff.mpr (List.forall₂_same.mpr fun c hc => ⟨hcalls c hc, rfl⟩)

/-! ## Two runs -/

/-- A program that never tells the ball to use its delayed bit may be written for the
other side. The beam is where it was, the program is stalled as long, and frames are
published when they were; the objects are at each other's positions, and what is
read in a collision register is found in that of the other side. -/
theorem sides_exchangeable (calls : List Call) (hcalls : ∀ c ∈ calls, c.delaysBall = false) :
    let t := powerOn.run calls
    let t' := powerOn.run (calls.map Call.exchanged)
    powerOn.stalls (calls.map Call.exchanged) = powerOn.stalls calls
      ∧ t'.beam = t.beam ∧ t'.frameReady = t.frameReady
      ∧ (∀ n, (t'.tick n).stall = (t.tick n).stall ∧ (t'.tick n).frames = (t.tick n).frames)
      ∧ (∀ o : Movable, t'.scene.positions.get o.other = t.scene.positions.get o)
      ∧ ∀ address address',
          CollisionRegister.decode address' = (CollisionRegister.decode address).other →
          t'.read address' = t.read address := by
  intro t t'
  have hrun : Exchanged t t' := exchanged_run exchanged_powerOn hcalls
  have htiming := hrun.timing
  refine ⟨?_, (beam_of_timing htiming).symm, (frameReady_of_timing htiming).symm, ?_, ?_, ?_⟩
  · have htimed : (calls.map Call.exchanged).filterMap Call.timed?
        = calls.filterMap Call.timed? := by
      simp [List.filterMap_map, Call.timed?_exchanged]
    exact (timing_run_of_timed? rfl htimed).2
  · intro n
    have htick := keptByStrokes_exchanged.tick hrun n
    exact ⟨htick.stall_eq.symm, htick.frames_eq.symm⟩
  · intro o
    rw [hrun.scene.positions]
    cases o with
    | player p => cases p <;> rfl
    | missile p => cases p <;> rfl
    | ball => rfl
  · intro address address' ha
    have hremembers (calls : List Call) :=
      remembers_run beam_inRange_powerOn (remembers_nil (t := powerOn) rfl) calls
    exact hrun.latches.register (hremembers calls).spare_clear
      (hremembers (calls.map Call.exchanged)).spare_clear ha

/-- Player one is put on the playfield, or so it is written. -/
def playerOneOnField : List Call :=
  [.write 0x0D 0xF0, .tick 70, .write 0x10 0x00, .write 0x1B 0xFF, .tick 2]

/-- Written for the other side, it is player two that is put there. -/
theorem sides_exchangeable_playerOneOnField :
    let t' := powerOn.run (playerOneOnField.map Call.exchanged)
    t'.scene.positions.get (.player .two) = 70 ∧ t'.read 0x03 = 0x80 ∧ t'.read 0x02 = 0x00 := by
  obtain ⟨-, -, -, -, hpositions, hreads⟩ := sides_exchangeable playerOneOnField (by decide)
  refine ⟨hpositions (.player .one), ?_, ?_⟩
  · exact (hreads 0x02 0x03 rfl).trans (by decide)
  · exact (hreads 0x03 0x02 rfl).trans (by decide)

end Tia

end VideoComputer
