/-
VideoComputer.Proofs.Video.LockedMissiles — when a locked missile is with its
player.

A missile that is locked to its player is put into the middle of the player
whenever it is locked, whenever the player is put somewhere, and whenever
objects are moved. Between these it stays where it is. Two writes can part it
from the player then: one that puts the missile itself somewhere, and one that
changes the size of the player, and with it where its middle is. A missile that
was parted from its player and is released shows where it was left.

* `Scene.WithPlayer` — a missile is with its player if it is locked to it.
* `Scene.Parts` — a write that parts them.
* `Tia.locked_missile_with_player` — a locked missile is with its player at every
  point of a run just if no call of the run parts them.
-/
import VideoComputer.Proofs.Video.Positions

namespace VideoComputer

namespace Scene

/-- Whether a missile, if it is locked, is in the middle of its player. -/
def WithPlayer (s : Scene) (p : Player) : Prop :=
  s.isLocked (.missile p) = true → s.positions.get (.missile p) = s.middle p

/-- Whether a write parts a locked missile from its player: it puts the missile
somewhere else, or moves the middle of the player. -/
def Parts (s : Scene) (x : Nat) (r : VideoRegister) (data : UInt8) (p : Player) : Prop :=
  s.isLocked (.missile p) = true
    ∧ (r = .position (.missile p) ∧ max x blankLength ≠ s.middle p
      ∨ r = .numberSize p
        ∧ (NumberSize.ofByte data).formation.lockOffset
          ≠ (s.registers.numberSize.get p).formation.lockOffset)

/-- The size of a player and its missile changes with its own register only. -/
theorem numberSize_write (s : Scene) (x : Nat) (r : VideoRegister) (data : UInt8) (p : Player) :
    (s.write x r data).registers.numberSize.get p
      = if r = .numberSize p then .ofByte data else s.registers.numberSize.get p := by
  rw [registers_write]
  cases r with
  | numberSize q => simp [VideoRegisters.write, PerPlayer.get_set, eq_comm]
  | graphics q => cases q <;> simp [VideoRegisters.write, VideoRegisters.writeGraphics]
  | _ => simp [VideoRegisters.write]

/-- A missile is locked and released by its own register only. -/
theorem isLocked_write (s : Scene) (x : Nat) (r : VideoRegister) (data : UInt8) (p : Player) :
    (s.write x r data).isLocked (.missile p)
      = if r = .lockMissile p then bitAt data 1 else s.isLocked (.missile p) := by
  unfold isLocked
  rw [registers_write]
  cases r with
  | lockMissile q => simp [VideoRegisters.write, PerPlayer.get_set, eq_comm]
  | graphics q => cases q <;> simp [VideoRegisters.write, VideoRegisters.writeGraphics]
  | _ => simp [VideoRegisters.write]

/-- A write to a player's own registers aside, its middle stays where it is. -/
theorem middle_write {s : Scene} {r : VideoRegister} {p : Player}
    (hplace : r ≠ .position (.player p)) (hmove : r ≠ .move) (x : Nat) (data : UInt8) :
    (s.write x r data).middle p
      = s.positions.get (.player p)
        + (if r = .numberSize p then NumberSize.ofByte data
          else s.registers.numberSize.get p).formation.lockOffset := by
  rw [middle, numberSize_write, position_write_of_not_aligns rfl, if_neg hplace, if_neg hmove]

/-- A missile that is with its player stays with it just if the write does not
part them. -/
theorem withPlayer_write_iff {s : Scene} {p : Player} (h : s.WithPlayer p) (x : Nat)
    (r : VideoRegister) (data : UInt8) :
    (s.write x r data).WithPlayer p ↔ ¬ s.Parts x r data p := by
  cases haligns : s.aligns r data (.missile p) with
  | true =>
    -- neither of the writes that part them is one that puts them together
    have hparts : ¬ s.Parts x r data p := by
      rintro ⟨-, ⟨rfl, -⟩ | ⟨rfl, -⟩⟩ <;> cases haligns
    exact iff_of_true (fun _ => position_write_of_aligns haligns x) hparts
  | false =>
    unfold WithPlayer Parts
    rw [isLocked_write, position_write_of_not_aligns haligns]
    by_cases hlock : r = .lockMissile p
    · -- the write releases the missile
      subst hlock
      have hreleases : bitAt data 1 = false := by simpa [aligns] using haligns
      simp [hreleases]
    · rw [if_neg hlock]
      by_cases hlocked : s.isLocked (.missile p) = true
      · have hmove : r ≠ .move := by
          rintro rfl
          rw [aligns_move, hlocked] at haligns
          cases haligns
        have hplace : r ≠ .position (.player p) := by
          rintro rfl
          simp [aligns, isLocked] at haligns hlocked
          simp [haligns] at hlocked
        have hmiddle := h hlocked
        rw [middle_write hplace hmove, if_neg hmove]
        by_cases hmissile : r = .position (.missile p)
        · subst hmissile
          simp [hlocked, middle]
        · by_cases hsize : r = .numberSize p
          · subst hsize
            simp [hlocked, hmiddle, middle, eq_comm]
          · simp [hlocked, hmissile, hsize, hmiddle, middle]
      · simp [hlocked]

/-- To release a missile is not to move it. -/
theorem position_release (s : Scene) (x : Nat) {data : UInt8} (h : bitAt data 1 = false)
    (p : Player) :
    (s.write x (.lockMissile p) data).positions.get (.missile p) = s.positions.get (.missile p)
      ∧ (s.write x (.lockMissile p) data).middle p = s.middle p := by
  have haligns : s.aligns (.lockMissile p) data (.missile p) = false := by simp [aligns, h]
  constructor
  · simp [position_write_of_not_aligns haligns]
  · have hmiddle := middle_write (s := s) (r := .lockMissile p) (p := p) (by simp) (by simp) x data
    simpa [middle] using hmiddle

end Scene

namespace Tia

/-- Whether a call parts a locked missile from its player. -/
def Parts (t : Tia) (c : Call) (p : Player) : Prop :=
  ∃ address data, c = .write address data
    ∧ t.scene.Parts t.beam.x (VideoRegister.decode address) data p

theorem withPlayer_powerOn (p : Player) : powerOn.scene.WithPlayer p := by
  cases p <;> exact fun h => nomatch h

/-- A call leaves a locked missile with its player, unless it is one of those that part them. -/
theorem withPlayer_call_iff {t : Tia} (h : t.beam.InRange) {p : Player}
    (hp : t.scene.WithPlayer p) (c : Call) :
    (t.call c).scene.WithPlayer p ↔ ¬ t.Parts c p := by
  refine scene_call_iff (P := fun s => s.WithPlayer p) (B := fun c => t.Parts c p) h
    (withPlayer_powerOn p) hp ?_ ?_ c
  · intro address data
    rw [scene_write, Scene.withPlayer_write_iff hp]
    apply not_congr
    constructor
    · intro hparts
      exact ⟨address, data, rfl, hparts⟩
    · rintro ⟨_, _, ⟨⟩, hparts⟩
      exact hparts
  · rintro c ⟨address, data, rfl, -⟩
    exact ⟨address, data, rfl⟩

/-- A missile is with its player, whenever it is locked, at every point of a run
just if no call of the run parts them. A call that puts it into the middle of its
player brings them together whatever was before. And a missile that is released is
in the middle of its player then just if it was with it while it was locked. -/
theorem locked_missile_with_player (calls : List Call) (p : Player) :
    let t := powerOn.run calls
    ((∀ past, past <+: calls → (powerOn.run past).scene.WithPlayer p)
        ↔ ∀ past c, past ++ [c] <+: calls → ¬ (powerOn.run past).Parts c p)
      ∧ (∀ c, t.aligns c (.missile p) = true →
          (t.call c).scene.positions.get (.missile p) = (t.call c).scene.middle p)
      ∧ ∀ address data, VideoRegister.decode address = .lockMissile p → bitAt data 1 = false →
          t.scene.isLocked (.missile p) = true →
          ((t.write address data).scene.positions.get (.missile p)
              = (t.write address data).scene.middle p
            ↔ t.scene.WithPlayer p) := by
  intro t
  refine ⟨?_, ?_, ?_⟩
  · exact always_iff (withPlayer_powerOn p)
      (fun t ht hp c => withPlayer_call_iff ht.beam_inRange hp c) calls
  · intro c haligns
    cases c with
    | write address data =>
      rw [call, scene_write]
      exact Scene.position_write_of_aligns haligns _
    | tick n | takeFrame | reset => cases haligns
    | setFire player pressed => cases haligns
  · intro address data hlock hreleases hlocked
    obtain ⟨hposition, hmiddle⟩ := t.scene.position_release t.beam.x hreleases p
    rw [scene_write, hlock, hposition, hmiddle]
    exact ⟨fun h _ => h, fun h => h hlocked⟩

/-- A missile locked to a player of single size. -/
def lockedMissile : List Call := [.tick 100, .write 0x10 0x00, .write 0x28 0x02]

/-- It is in the middle of the player, also when the player was put elsewhere, and
when it is released there. -/
theorem locked_missile_with_player_lockedMissile :
    let t := powerOn.run (lockedMissile ++ [.tick 50])
    t.aligns (.write 0x10 0x00) (.missile .one) = true
      ∧ (t.write 0x10 0x00).scene.positions.get (.missile .one) = 153
      ∧ (t.write 0x28 0x00).scene.positions.get (.missile .one) = 103 := by
  obtain ⟨-, htogether, hreleased⟩ :=
    locked_missile_with_player (lockedMissile ++ [.tick 50]) .one
  have hplaced := htogether (.write 0x10 0x00) rfl
  have hcentered := (hreleased 0x28 0x00 rfl rfl rfl).mpr fun _ => rfl
  exact ⟨rfl, hplaced, hcentered⟩

/-- But if the player is made four times as wide while the missile is locked, or the
missile is put where the beam is, it is released where it was left. -/
theorem missile_left_behind :
    let stretched := powerOn.run (lockedMissile ++ [.write 0x04 0x07])
    let placed := powerOn.run (lockedMissile ++ [.tick 50, .write 0x12 0x00])
    stretched.scene.isLocked (.missile .one) = true
      ∧ stretched.scene.middle .one = 110
      ∧ stretched.scene.positions.get (.missile .one) = 103
      ∧ (stretched.write 0x28 0x00).scene.positions.get (.missile .one) = 103
      ∧ placed.scene.isLocked (.missile .one) = true
      ∧ placed.scene.middle .one = 103
      ∧ placed.scene.positions.get (.missile .one) = 150
      ∧ (placed.write 0x28 0x00).scene.positions.get (.missile .one) = 150 := by
  exact ⟨rfl, rfl, rfl, rfl, rfl, rfl, rfl, rfl⟩

end Tia

end VideoComputer
