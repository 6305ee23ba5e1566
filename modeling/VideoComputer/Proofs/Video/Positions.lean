/-
VideoComputer.Proofs.Video.Positions — where objects start, and what moves
them.

An object is put somewhere in three ways. A program puts it where the beam is;
a program moves it, and it comes back on the other side if it leaves the
screen; or, if it is a missile locked to its player, it is put into the middle
of the player. Only the last way has no edge: the middle of a player that is
near the right edge is beyond it, and so is the missile then, until something
else puts it somewhere.

* `Scene.position_write_of_not_aligns`, `Scene.position_write_of_aligns` — where
  an object is after a write.
* `Scene.mapRegisters_write` — no more registers are looked at than have to be.
* `Scene.InBounds` — what holds of all positions in any case.
* `Tia.always_iff` — something holds at every point of a run just if no call
  breaks it.
* `Tia.positions_on_screen` — every object is on the screen at every point of a
  run just if no call puts a missile into the middle of a player that is too far
  to the right.
-/
import Mathlib.Data.List.Induction
import VideoComputer.Proofs.Video.Racing

namespace VideoComputer

/-! ## What a write does to positions -/

namespace Scene

/-- Whether an object starts at a dot that the beam draws. -/
def OnScreen (s : Scene) (o : Movable) : Prop :=
  blankLength ≤ s.positions.get o ∧ s.positions.get o < lineLength

instance (s : Scene) (o : Movable) : Decidable (s.OnScreen o) :=
  inferInstanceAs (Decidable (_ ∧ _))

/-- Whether an object is a missile that is locked to its player. -/
def isLocked (s : Scene) : Movable → Bool
  | .missile p => s.registers.missileLocked.get p
  | .player _ | .ball => false

/-- Where a missile that is locked to its player belongs: the middle of the
player, at its size. -/
def middle (s : Scene) (p : Player) : Nat :=
  s.positions.get (.player p) + (s.registers.numberSize.get p).formation.lockOffset

/-- Whether a write puts an object into the middle of its player. -/
def aligns (s : Scene) (r : VideoRegister) (data : UInt8) : Movable → Bool
  | .missile p =>
    match r with
    | .lockMissile q => q == p && bitAt data 1
    | .position (.player q) => q == p && s.registers.missileLocked.get p
    | .move => s.isLocked (.missile p)
    | _ => false
  | .player _ | .ball => false

theorem aligns_move (s : Scene) (data : UInt8) (o : Movable) :
    s.aligns .move data o = s.isLocked o := by
  cases o <;> rfl

/-- Only a locked missile is aligned, to the middle of its player. -/
theorem position_alignIfLocked (s : Scene) (p : Player) (o : Movable) :
    (s.alignIfLocked p).positions.get o
      = if o = .missile p ∧ s.registers.missileLocked.get p = true then s.middle p
        else s.positions.get o := by
  unfold alignIfLocked
  by_cases hlocked : s.registers.missileLocked.get p = true
  · simp only [hlocked, if_true, and_true]
    exact s.positions.get_set _ o _
  · simp [hlocked]

/-- A motion moves one object and wraps it, -/
theorem position_moveObject (s : Scene) (o o' : Movable) :
    (s.moveObject o).positions.get o'
      = if o' = o then wrapPosition ((s.positions.get o : Int) - s.registers.motion.get o)
        else s.positions.get o' := s.positions.get_set o o' _

/-- A missile is put somewhere, and nothing else happens. -/
theorem moveMissile_eq (s : Scene) (p : Player) :
    s.moveMissile p
      = { s with
          positions := s.positions.set (.missile p)
            (if s.registers.missileLocked.get p then s.middle p
            else wrapPosition
              ((s.positions.get (.missile p) : Int) - s.registers.motion.get (.missile p))) } := by
  unfold moveMissile
  split <;> rfl

/-- and a missile, unless it is locked to its player. -/
theorem position_moveMissile (s : Scene) (p : Player) (o : Movable) :
    (s.moveMissile p).positions.get o
      = if o = .missile p then
          if s.registers.missileLocked.get p then s.middle p
          else
            wrapPosition
              ((s.positions.get (.missile p) : Int) - s.registers.motion.get (.missile p))
        else s.positions.get o := by
  rw [moveMissile_eq]
  exact s.positions.get_set _ o _

@[simp] theorem registers_moveObject (s : Scene) (o : Movable) :
    (s.moveObject o).registers = s.registers := rfl

@[simp] theorem registers_alignIfLocked (s : Scene) (p : Player) :
    (s.alignIfLocked p).registers = s.registers := by
  unfold alignIfLocked
  split <;> rfl

@[simp] theorem registers_moveMissile (s : Scene) (p : Player) :
    (s.moveMissile p).registers = s.registers := by
  rw [moveMissile_eq]

@[simp] theorem registers_move (s : Scene) : s.move.registers = s.registers := by
  simp only [move, registers_moveObject, registers_moveMissile]

@[simp] theorem registers_write (s : Scene) (x : Nat) (r : VideoRegister) (data : UInt8) :
    (s.write x r data).registers = s.registers.write r data := by
  cases r with
  | position o => cases o <;> simp [write, place, VideoRegisters.write]
  | move => exact s.registers_move
  | lockMissile p => exact registers_alignIfLocked _ p
  | _ => rfl

/-- A motion takes every object that is not locked its own way, whatever the
order. -/
theorem position_move_of_not_aligns {s : Scene} {data : UInt8} {o : Movable}
    (h : s.aligns .move data o = false) :
    s.move.positions.get o
      = wrapPosition ((s.positions.get o : Int) - s.registers.motion.get o) := by
  cases o with
  | player p => cases p <;> simp [move, position_moveObject, position_moveMissile]
  | ball => simp [move, registers_moveObject, position_moveObject, position_moveMissile]
  | missile p =>
    have hfree : s.registers.missileLocked.get p = false := h
    cases p <;> simp [move, position_moveObject, position_moveMissile, hfree]

/-- Behind a move a locked missile is at the middle of its player. -/
theorem position_move_of_aligns {s : Scene} {p : Player}
    (h : s.registers.missileLocked.get p = true) :
    s.move.positions.get (.missile p) = s.move.middle p := by
  cases p <;> simp [move, middle, position_moveObject, position_moveMissile, h]

/-- Where an object is after a write that does not put it into the middle of its
player. -/
theorem position_write_of_not_aligns {s : Scene} {r : VideoRegister} {data : UInt8} {o : Movable}
    (h : s.aligns r data o = false) (x : Nat) :
    (s.write x r data).positions.get o
      = if r = .position o then max x blankLength
        else if r = .move then
          wrapPosition ((s.positions.get o : Int) - s.registers.motion.get o)
        else s.positions.get o := by
  cases r with
  | move => simpa [write] using position_move_of_not_aligns h
  | lockMissile q =>
    simp only [write, position_alignIfLocked, reduceCtorEq, if_false]
    rw [if_neg]
    rintro ⟨rfl, hlocks⟩
    simp [aligns, VideoRegisters.write] at h hlocks
    simp [h] at hlocks
  | position o' =>
    have hplace : (s.write x (.position o') data).positions.get o
        = if o = o' then max x blankLength else s.positions.get o := by
      cases o' with
      | player q =>
        simp only [write, place, position_alignIfLocked, PerObject.get_set]
        rw [if_neg]
        rintro ⟨rfl, hlocked⟩
        simp [aligns] at h
        simp [h] at hlocked
      | missile q => exact s.positions.get_set _ o _
      | ball => exact s.positions.get_set _ o _
    simp [hplace, eq_comm]
  | _ => simp [write]

/-- A write that puts a missile into the middle of its player leaves it there. -/
theorem position_write_of_aligns {s : Scene} {r : VideoRegister} {data : UInt8} {p : Player}
    (h : s.aligns r data (.missile p) = true) (x : Nat) :
    (s.write x r data).positions.get (.missile p) = (s.write x r data).middle p := by
  cases r with
  | move => exact position_move_of_aligns h
  | lockMissile q =>
    obtain ⟨hside, hlocks⟩ := Bool.and_eq_true_iff.mp h
    obtain rfl := eq_of_beq hside
    simp [write, middle, position_alignIfLocked, VideoRegisters.write, hlocks]
  | position o =>
    cases o with
    | player q =>
      obtain ⟨hside, hlocked⟩ := Bool.and_eq_true_iff.mp h
      obtain rfl := eq_of_beq hside
      simp [write, place, middle, position_alignIfLocked, hlocked]
    | missile q => cases h
    | ball => cases h
  | _ => cases h

/-- Motions are stored one by one and cleared together. -/
theorem motion_write (s : Scene) (x : Nat) (r : VideoRegister) (data : UInt8) (o : Movable) :
    (s.write x r data).registers.motion.get o
      = if r = .motion o then signedHighNibble data
        else if r = .clearMotion then 0
        else s.registers.motion.get o := by
  rw [registers_write]
  cases r with
  | motion o' => simp [VideoRegisters.write, PerObject.get_set, eq_comm]
  | graphics p => cases p <;> simp [VideoRegisters.write, VideoRegisters.writeGraphics]
  | _ => simp [VideoRegisters.write]

/-! ## What objects are placed by -/

/-- The scene with its registers changed. -/
def mapRegisters (f : VideoRegisters → VideoRegisters) (s : Scene) : Scene :=
  { s with registers := f s.registers }

/-- Whether a change of the registers leaves alone what objects are placed by. -/
structure KeepsPlacing (f : VideoRegisters → VideoRegisters) : Prop where
  numberSize (r : VideoRegisters) : (f r).numberSize = r.numberSize
  missileLocked (r : VideoRegisters) : (f r).missileLocked = r.missileLocked
  motion (r : VideoRegisters) : (f r).motion = r.motion

section

variable {f : VideoRegisters → VideoRegisters} (hf : KeepsPlacing f) (s : Scene)

include hf

/-- What is stored in registers that are not looked at has no part in where objects
are: neither for an aligned missile, -/
theorem mapRegisters_alignIfLocked (p : Player) :
    (s.alignIfLocked p).mapRegisters f = (s.mapRegisters f).alignIfLocked p := by
  simp only [alignIfLocked, alignMissile, mapRegisters, hf.missileLocked, hf.numberSize]
  split <;> rfl

/-- nor for an object that is placed, -/
theorem mapRegisters_place (x : Nat) (o : Movable) :
    (s.place x o).mapRegisters f = (s.mapRegisters f).place x o := by
  cases o with
  | player p => exact mapRegisters_alignIfLocked hf _ p
  | missile p => rfl
  | ball => rfl

/-- nor for one that is moved, -/
theorem mapRegisters_moveObject (o : Movable) :
    (s.moveObject o).mapRegisters f = (s.mapRegisters f).moveObject o := by
  simp only [moveObject, mapRegisters, hf.motion]

/-- nor for a missile that is, -/
theorem mapRegisters_moveMissile (p : Player) :
    (s.moveMissile p).mapRegisters f = (s.mapRegisters f).moveMissile p := by
  simp only [moveMissile_eq, middle, mapRegisters, hf.missileLocked, hf.numberSize, hf.motion]

/-- nor for all of them. -/
theorem mapRegisters_move : s.move.mapRegisters f = (s.mapRegisters f).move := by
  simp only [move, mapRegisters_moveObject hf, mapRegisters_moveMissile hf]

/-- If a write to the registers does not look at what a change changes, nor does the
write to the scene. -/
theorem mapRegisters_write {r : VideoRegister} {data data' : UInt8}
    (hr : ∀ registers : VideoRegisters,
      f (registers.write r data) = f ((f registers).write r data')) (x : Nat) :
    (s.write x r data).mapRegisters f = ((s.mapRegisters f).write x r data').mapRegisters f := by
  cases r with
  | position o =>
    have htwice : (s.mapRegisters f).mapRegisters f = s.mapRegisters f :=
      congrArg (Scene.mk · s.positions) (hr s.registers).symm
    simp only [write]
    rw [mapRegisters_place hf, mapRegisters_place hf, htwice]
  | move =>
    have htwice : (s.mapRegisters f).mapRegisters f = s.mapRegisters f :=
      congrArg (Scene.mk · s.positions) (hr s.registers).symm
    simp only [write]
    rw [mapRegisters_move hf, mapRegisters_move hf, htwice]
  | lockMissile p =>
    simp only [write]
    rw [mapRegisters_alignIfLocked hf, mapRegisters_alignIfLocked hf]
    simp only [mapRegisters, hr s.registers]
  | _ => exact congrArg (Scene.mk · s.positions) (hr s.registers)

end

/-! ## Bounds -/

/-- A position that is at most one width of the picture off the screen is
brought back to it, -/
theorem wrapPosition_onScreen {i : Int} (h : -92 ≤ i) (h' : i < 388) :
    blankLength ≤ wrapPosition i ∧ wrapPosition i < lineLength := by
  unfold wrapPosition
  split
  · simp only [lineLength, blankLength] at *
    omega
  · split <;> simp only [lineLength, blankLength] at * <;> omega

/-- and one that is on the screen stays. -/
theorem wrapPosition_of_onScreen {n : Nat} (h : blankLength ≤ n) (h' : n < lineLength) :
    wrapPosition n = n := by
  unfold wrapPosition
  rw [if_neg (by omega), if_neg (by omega), Int.toNat_natCast]

/-- How far to the right an object can be. Only a missile gets beyond the end of
the line. -/
def reach : Movable → Nat
  | .missile _ => lineLength + 10
  | .player _ | .ball => lineLength

/-- No object gets further to the right than ten dots behind the line. -/
theorem reach_le (o : Movable) : reach o ≤ lineLength + 10 := by
  cases o <;> simp [reach]

/-- What holds of motions and positions whatever is written. -/
structure InBounds (s : Scene) : Prop where
  motion (o : Movable) : -8 ≤ s.registers.motion.get o ∧ s.registers.motion.get o ≤ 7
  position (o : Movable) : blankLength ≤ s.positions.get o ∧ s.positions.get o < reach o

theorem inBounds_powerOn : powerOn.InBounds := by
  constructor
  · intro o
    simp [powerOn, VideoRegisters.powerOn]
  · intro o
    cases o <;> simp [powerOn, reach, blankLength, lineLength]

section

variable {s : Scene} {x : Nat} {r : VideoRegister} {data : UInt8}

/-- An object that is not put into the middle of its player gets no further to
the right than it was, or than the end of the line. -/
theorem InBounds.position_write_lt (h : s.InBounds) (hx : x < lineLength) {o : Movable}
    (ho : s.aligns r data o = false) {bound : Nat} (hline : lineLength ≤ bound)
    (hbound : s.positions.get o < bound) :
    blankLength ≤ (s.write x r data).positions.get o
      ∧ (s.write x r data).positions.get o < bound := by
  have hmotion := h.motion o
  have hpos := h.position o
  have hreach := reach_le o
  have hwrap := wrapPosition_onScreen (i := (s.positions.get o : Int) - s.registers.motion.get o)
  rw [position_write_of_not_aligns ho]
  simp only [blankLength, lineLength] at *
  split
  · omega
  · split
    · have := hwrap (by omega) (by omega)
      omega
    · omega

/-- Within its bounds a player is on the screen, -/
theorem InBounds.onScreen_player (h : s.InBounds) (p : Player) : s.OnScreen (.player p) :=
  h.position (.player p)

/-- and so is the ball. -/
theorem InBounds.onScreen_ball (h : s.InBounds) : s.OnScreen .ball := h.position .ball

/-- A write keeps the objects within their bounds. -/
theorem inBounds_write (h : s.InBounds) (hx : x < lineLength) (r : VideoRegister) (data : UInt8) :
    (s.write x r data).InBounds := by
  constructor
  · intro o
    rw [motion_write]
    split
    · exact signedHighNibble_mem data
    · split
      · decide
      · exact h.motion o
  · intro o
    cases haligns : s.aligns r data o with
    | false =>
      refine h.position_write_lt hx haligns ?_ (h.position o).2
      cases o <;> simp [reach]
    | true =>
      cases o with
      | missile p =>
        -- the player is on the screen, and its middle at most ten dots further
        have hfree : s.aligns r data (.player p) = false := rfl
        have hplayer := h.position_write_lt hx hfree (Nat.le_refl _) (h.position (.player p)).2
        have hoffset := ((s.write x r data).registers.numberSize.get p).formation.lockOffset_le
        rw [position_write_of_aligns haligns, middle]
        simp only [reach]
        omega
      | player p => cases haligns
      | ball => cases haligns

/-- A missile that is on the screen leaves it just if it is put into the middle
of a player that is too far to the right. -/
theorem onScreen_write_iff (h : s.InBounds) (hx : x < lineLength) {p : Player}
    (hp : s.OnScreen (.missile p)) (r : VideoRegister) (data : UInt8) :
    (s.write x r data).OnScreen (.missile p)
      ↔ ¬ (s.aligns r data (.missile p) = true
            ∧ lineLength ≤ (s.write x r data).middle p) := by
  cases haligns : s.aligns r data (.missile p) with
  | false =>
    -- the end of the line is a bound that holds already
    have hstays := h.position_write_lt hx haligns (Nat.le_refl _) hp.2
    simp [OnScreen, hstays]
  | true =>
    have hleft := ((inBounds_write h hx r data).position (.missile p)).1
    rw [position_write_of_aligns haligns] at hleft
    simp [OnScreen, position_write_of_aligns haligns, hleft]

/-- An object that is free and has no motion is left alone by a motion just if it
is on the screen. -/
theorem position_move_eq_iff (h : s.InBounds) {o : Movable} (hfree : s.isLocked o = false)
    (hstill : s.registers.motion.get o = 0) :
    s.move.positions.get o = s.positions.get o ↔ s.OnScreen o := by
  have hmoved : s.move.positions.get o = wrapPosition (s.positions.get o) := by
    have halone : s.aligns .move 0 o = false := by rw [aligns_move, hfree]
    rw [position_move_of_not_aligns halone, hstill, Int.sub_zero]
  have hpos := h.position o
  have hreach := reach_le o
  rw [hmoved]
  constructor
  · intro hsame
    have hback := wrapPosition_onScreen (i := s.positions.get o)
      (by simp only [lineLength] at *; omega) (by simp only [lineLength] at *; omega)
    rwa [hsame] at hback
  · intro hon
    exact wrapPosition_of_onScreen hon.1 hon.2

end

end Scene

namespace Tia

/-! ## The scene -/

/-- A write reaches the scene with the beam where it is. -/
theorem scene_write (t : Tia) (address : UInt16) (data : UInt8) :
    (t.write address data).scene
      = t.scene.write t.beam.x (VideoRegister.decode address) data := by
  rw [write]
  cases VideoRegister.decode address <;> rfl

@[simp] theorem scene_stepDots (n : Nat) (t : Tia) : (t.stepDots n).scene = t.scene := by
  induction n generalizing t with
  | zero => rfl
  | succ n ih => exact (ih t.stepDot).trans t.scene_stepDot

/-- Time changes what is drawn, but not the scene. -/
theorem scene_call_of_isQuiet {t : Tia} (h : t.beam.InRange) {c : Call} (hc : c.isQuiet = true) :
    (t.call c).scene = t.scene := by
  cases c with
  | tick n =>
    rw [call, t.tick_eq_stepDots n h.x_lt]
    exact scene_stepDots _ t
  | takeFrame => rfl
  | setFire player pressed => rfl
  | write address data => cases hc
  | reset => cases hc

/-- If only writes can break what holds of the scene, a call keeps it just if it is
not a write that does. -/
theorem scene_call_iff {P : Scene → Prop} {B : Call → Prop} {t : Tia} (h : t.beam.InRange)
    (hpowerOn : P Scene.powerOn) (hp : P t.scene)
    (hwrite : ∀ address data, P (t.write address data).scene ↔ ¬ B (.write address data))
    (hbreaks : ∀ c, B c → ∃ address data, c = .write address data) (c : Call) :
    P (t.call c).scene ↔ ¬ B c := by
  by_cases hb : B c
  · obtain ⟨address, data, rfl⟩ := hbreaks c hb
    exact hwrite address data
  · refine iff_of_true ?_ hb
    cases c with
    | write address data => exact (hwrite address data).mpr hb
    | reset => exact hpowerOn
    | tick n | takeFrame => rwa [scene_call_of_isQuiet h rfl]
    | setFire player pressed => rwa [scene_call_of_isQuiet h rfl]

/-- Every call keeps the objects within their bounds, -/
theorem inBounds_call {t : Tia} (hbeam : t.beam.InRange) (h : t.scene.InBounds) (c : Call) :
    (t.call c).scene.InBounds := by
  cases c with
  | write address data =>
    rw [call, scene_write]
    exact Scene.inBounds_write h hbeam.x_lt _ data
  | reset => exact Scene.inBounds_powerOn
  | tick n | takeFrame => rw [scene_call_of_isQuiet hbeam rfl]; exact h
  | setFire player pressed => rw [scene_call_of_isQuiet hbeam rfl]; exact h

/-- so they are there in every chip that exists. -/
theorem Reachable.inBounds {t : Tia} (h : Reachable t) : t.scene.InBounds := by
  induction h with
  | powerOn => exact Scene.inBounds_powerOn
  | call h c ih => exact inBounds_call h.beam_inRange ih c

/-! ## At every point of a run -/

theorem run_concat (t : Tia) (calls : List Call) (c : Call) :
    t.run (calls ++ [c]) = (t.run calls).call c := by
  simp [run]

/-- If something holds at power-on, and is known to be kept by all calls but
those that break it, it holds at every point of a run just if no call of the run
breaks it. -/
theorem always_iff {P : Tia → Prop} {Breaks : Tia → Call → Prop} (hpowerOn : P powerOn)
    (hcall : ∀ t, Reachable t → P t → ∀ c, P (t.call c) ↔ ¬ Breaks t c) (calls : List Call) :
    (∀ past, past <+: calls → P (powerOn.run past))
      ↔ ∀ past c, past ++ [c] <+: calls → ¬ Breaks (powerOn.run past) c := by
  constructor
  · intro h past c hstart
    have hbefore := h past ((List.prefix_append past [c]).trans hstart)
    have hafter := h (past ++ [c]) hstart
    rw [run_concat] at hafter
    exact (hcall _ (Reachable.powerOn.run past) hbefore c).mp hafter
  · intro h past
    -- a call is judged by the run before it, so the run is taken from its end
    induction past using List.reverseRecOn with
    | nil => exact fun _ => hpowerOn
    | append_singleton past c ih =>
      intro hstart
      have hbefore := ih ((List.prefix_append past [c]).trans hstart)
      rw [run_concat]
      exact (hcall _ (Reachable.powerOn.run past) hbefore c).mpr (h past c hstart)

/-! ## Objects on the screen -/

/-- Whether a call puts an object into the middle of its player. -/
def aligns (t : Tia) : Call → Movable → Bool
  | .write address data, o => t.scene.aligns (VideoRegister.decode address) data o
  | .tick _, _ | .takeFrame, _ | .setFire .., _ | .reset, _ => false

/-- Whether a call puts a missile into the middle of a player that is too far to
the right. -/
def Overhangs (t : Tia) (c : Call) (p : Player) : Prop :=
  t.aligns c (.missile p) = true ∧ lineLength ≤ (t.call c).scene.middle p

theorem onScreen_powerOn (p : Player) : powerOn.scene.OnScreen (.missile p) := by
  cases p <;> decide

/-- A call leaves a missile on the screen, unless it is one of those that let it hang over. -/
theorem onScreen_call_iff {t : Tia} (h : Reachable t) {p : Player}
    (hp : t.scene.OnScreen (.missile p)) (c : Call) :
    (t.call c).scene.OnScreen (.missile p) ↔ ¬ t.Overhangs c p := by
  refine scene_call_iff (P := fun s => s.OnScreen (.missile p)) (B := fun c => t.Overhangs c p)
    h.beam_inRange (onScreen_powerOn p) hp ?_ ?_ c
  · intro address data
    have hwrite := Scene.onScreen_write_iff h.inBounds h.beam_inRange.x_lt hp
      (VideoRegister.decode address) data
    rw [← scene_write] at hwrite
    exact hwrite
  · intro c hover
    cases c with
    | write address data => exact ⟨address, data, rfl⟩
    | _ => cases hover.1

/-- Players and ball are always on the screen. A missile is on the screen at every
point of a run just if no call of the run puts it into the middle of a player
that is too far to the right; it is never far off. And a motion leaves an object
that is free and has none of its own where it is, just if it is on the screen. -/
theorem positions_on_screen (calls : List Call) :
    let t := powerOn.run calls
    (∀ p, t.scene.OnScreen (.player p)) ∧ t.scene.OnScreen .ball
      ∧ (∀ p,
          ((∀ past, past <+: calls → (powerOn.run past).scene.OnScreen (.missile p))
              ↔ ∀ past c, past ++ [c] <+: calls → ¬ (powerOn.run past).Overhangs c p)
            ∧ blankLength ≤ t.scene.positions.get (.missile p)
            ∧ t.scene.positions.get (.missile p) < lineLength + 10)
      ∧ ∀ address data o, VideoRegister.decode address = .move → t.scene.isLocked o = false →
          t.scene.registers.motion.get o = 0 →
          ((t.write address data).scene.positions.get o = t.scene.positions.get o
            ↔ t.scene.OnScreen o) := by
  intro t
  have hbounds : t.scene.InBounds := (Reachable.powerOn.run calls).inBounds
  refine ⟨hbounds.onScreen_player, hbounds.onScreen_ball, ?_, ?_⟩
  · intro p
    exact ⟨always_iff (onScreen_powerOn p) (fun t ht hp c => onScreen_call_iff ht hp c) calls,
      hbounds.position (.missile p)⟩
  · intro address data o hmove hfree hstill
    rw [scene_write, hmove]
    exact Scene.position_move_eq_iff hbounds hfree hstill

/-- A missile locked to a player in the middle of the screen, and released there. -/
def releasedMissile : List Call :=
  [.tick 100, .write 0x10 0x00, .write 0x28 0x02, .write 0x28 0x00]

/-- It stays where it is when objects are moved. -/
theorem positions_on_screen_releasedMissile :
    let t := powerOn.run releasedMissile
    t.scene.isLocked (.missile .one) = false ∧ t.scene.positions.get (.missile .one) = 103
      ∧ (t.write 0x2A 0x00).scene.positions.get (.missile .one) = 103 := by
  have hmove := (positions_on_screen releasedMissile).2.2.2 0x2A 0x00 (.missile .one) rfl rfl rfl
  exact ⟨rfl, rfl, hmove.mpr (by decide)⟩

/-- Had the player been at the last dot of the line, the missile would have been
released beyond it, and would come back on the other side. -/
theorem missile_released_offScreen :
    let t := powerOn.run [.tick 227, .write 0x10 0x00, .write 0x28 0x02, .write 0x28 0x00]
    t.scene.isLocked (.missile .one) = false ∧ t.scene.registers.motion.get (.missile .one) = 0
      ∧ t.scene.positions.get (.missile .one) = 230 ∧ ¬ t.scene.OnScreen (.missile .one)
      ∧ (t.write 0x2A 0x00).scene.positions.get (.missile .one) = 70 := by
  refine ⟨rfl, rfl, rfl, ?_, rfl⟩
  decide

end Tia

end VideoComputer
