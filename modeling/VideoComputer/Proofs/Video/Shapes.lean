/-
VideoComputer.Proofs.Video.Shapes — which dots an object covers.

The chip asks at every dot whether an object is there, and answers by looking for a
copy of the object and for the pixel of the copy that the dot falls on. This module
says it the other way round. An object is a set of dots: a pixel is a stretch as
long as the scale, a copy is eight pixels in a row, and the copies begin at their
distances from the position. On a line without an end that is all of it. The line
has an end, and what is beyond it is not drawn there or anywhere else.

Copies are never so close that they meet, so the dots of an object can be counted,
and a reflected player is one whose graphics are written in the opposite order.

* `mirrored`, `bitCount` — a byte the other way round, and its set bits.
* `copyDots`, `card_copyDots` — copies of a thing, and how many dots they have.
* `Scene.playerAt_iff`, `Scene.missileAt_iff`, `Scene.ballAt_iff` — who covers a
  dot.
* `Scene.card_player`, `Scene.card_missile`, `Scene.card_ball` — and how many.
* `Tia.objects_cover_shapes` — all of it, for a chip that was asked for anything.
-/
import VideoComputer.Proofs.Video.NoFailure
import VideoComputer.Proofs.Video.Playfields

namespace VideoComputer

/-! ## Bytes -/

/-- A byte with its bits in the opposite order. -/
def mirrored (b : UInt8) : UInt8 := ⟨b.toBitVec.reverse⟩

theorem bitAt_eq_getLsbD (b : UInt8) (n : Nat) : bitAt b n = b.toBitVec.getLsbD n := rfl

/-- A mirrored byte has its bits in the other order. -/
theorem bitAt_mirrored (b : UInt8) {n : Nat} (hn : n < 8) :
    bitAt (mirrored b) n = bitAt b (7 - n) := by
  rw [bitAt_eq_getLsbD, bitAt_eq_getLsbD, mirrored, BitVec.getLsbD_reverse,
    BitVec.getMsbD_eq_getLsbD, decide_eq_true hn, Bool.true_and]

/-- How many bits of a byte are set. -/
def bitCount (b : UInt8) : Nat := ((Finset.range 8).filter fun n => bitAt b n = true).card

/-! ## Copies -/

theorem disjoint_Ico_of_le {a b c d : Nat} (h : b ≤ c) :
    Disjoint (Finset.Ico a b) (Finset.Ico c d) :=
  (Finset.Ico_disjoint_Ico_consecutive a b d).mono_right (Finset.Ico_subset_Ico_left h)

/-- The dots of a line that are drawn. -/
def lineDots : Finset Nat := Finset.Ico blankLength lineLength

/-- The dots of a thing at some position, of which there are copies at some distances.
`unit` is what one of them covers, counted from its start. The line has no end. -/
def copyDots (position : Nat) (copies : List Nat) (unit : Finset Nat) : Finset Nat :=
  copies.toFinset.biUnion fun offset => unit.image (position + offset + ·)

/-- A dot is in a copied shape if one of the copies has it. -/
theorem mem_copyDots {position : Nat} {copies : List Nat} {unit : Finset Nat} {x : Nat} :
    x ∈ copyDots position copies unit
      ↔ ∃ offset ∈ copies, position + offset ≤ x ∧ x - (position + offset) ∈ unit := by
  simp only [copyDots, Finset.mem_biUnion, List.mem_toFinset, Finset.mem_image]
  refine exists_congr fun offset => and_congr_right fun _ => ?_
  constructor
  · rintro ⟨d, hd, rfl⟩
    simpa using hd
  · rintro ⟨hle, hd⟩
    exact ⟨_, hd, by omega⟩

section

variable {position width : Nat} {copies : List Nat} {unit : Finset Nat}

/-- Copies that are far enough from each other do not share a dot. -/
theorem card_copyDots (hunit : ∀ d ∈ unit, d < width)
    (hapart : copies.Pairwise fun a b => a + width ≤ b) (hnodup : copies.Nodup) :
    (copyDots position copies unit).card = copies.length * unit.card := by
  -- copies are listed from left to right, but a union does not know their order
  have hsides : copies.Pairwise fun a b => a + width ≤ b ∨ b + width ≤ a := hapart.imp Or.inl
  rw [copyDots, Finset.card_biUnion]
  · have hone : ∀ offset ∈ copies.toFinset,
        (unit.image (position + offset + ·)).card = unit.card := by
      intro offset _
      exact Finset.card_image_of_injective _ fun _ _ h => Nat.add_left_cancel h
    rw [Finset.sum_const_nat hone, List.toFinset_card_of_nodup hnodup]
  · intro a ha b hb hne
    rw [Finset.mem_coe, List.mem_toFinset] at ha hb
    have hside : a + width ≤ b ∨ b + width ≤ a := by
      have : Std.Symm fun a b : Nat => a + width ≤ b ∨ b + width ≤ a := ⟨fun _ _ h => h.symm⟩
      exact hsides.forall ha hb hne
    rw [Function.onFun, Finset.disjoint_left]
    intro x hx hx'
    obtain ⟨d, hd, rfl⟩ := Finset.mem_image.mp hx
    obtain ⟨d', hd', heq⟩ := Finset.mem_image.mp hx'
    have hlt := hunit d hd
    have hlt' := hunit d' hd'
    have heq' : position + b + d' = position + a + d := heq
    omega

/-- If all copies end before the line does, so many dots of the line are covered. -/
theorem card_covered {covers : Nat → Bool}
    (hcovers : ∀ x, covers x = true ↔ x ∈ copyDots position copies unit)
    (hblank : blankLength ≤ position) (hunit : ∀ d ∈ unit, d < width)
    (hapart : copies.Pairwise fun a b => a + width ≤ b) (hnodup : copies.Nodup)
    (hfits : ∀ offset ∈ copies, position + offset + width ≤ lineLength) :
    (lineDots.filter fun x => covers x = true).card = copies.length * unit.card := by
  have hall : (lineDots.filter fun x => covers x = true) = copyDots position copies unit := by
    ext x
    simp only [Finset.mem_filter, hcovers, lineDots, Finset.mem_Ico, and_iff_right_iff_imp]
    intro hx
    obtain ⟨offset, hoffset, hle, hd⟩ := mem_copyDots.mp hx
    have hlt := hunit _ hd
    have hend := hfits offset hoffset
    omega
  rw [hall, card_copyDots hunit hapart hnodup]

end

/-- No formation has two copies at one place. -/
theorem Formation.nodup_copies (f : Formation) : f.copies.Nodup := by
  cases f <;> decide

/-- Copies of a player are at least as far from each other as a player is wide, and
sixteen dots in any case. -/
theorem Formation.copies_apart (f : Formation) :
    f.copies.Pairwise fun a b => a + 8 * f.scale ≤ b ∧ a + 16 ≤ b := by
  cases f <;> decide

namespace Scene

/-! ## Players -/

/-- The dots of one copy of a player, counted from its start. -/
def playerUnit (graphics : UInt8) (reflected : Bool) (scale : Nat) : Finset Nat :=
  (Finset.range (scale * 8)).filter fun d => graphicsPixel graphics reflected (d / scale) = true

/-- A player has as many dots as its graphics have bits, times the width of each. -/
theorem card_playerUnit (graphics : UInt8) (reflected : Bool) {scale : Nat} (hscale : 0 < scale) :
    (playerUnit graphics reflected scale).card = scale * bitCount graphics := by
  have hpixels : ((Finset.range 8).filter fun i => graphicsPixel graphics reflected i = true).card
      = bitCount graphics := by
    rw [bitCount, Finset.card_filter, Finset.card_filter]
    cases reflected with
    | false => exact Finset.sum_range_reflect (fun n => if bitAt graphics n = true then 1 else 0) 8
    | true => rfl
  rw [playerUnit, card_stretched (graphicsPixel graphics reflected) hscale 8, hpixels]

/-- A reflected player has the pixels of mirrored graphics. -/
theorem graphicsPixel_mirrored (graphics : UInt8) (reflected : Bool) {i : Nat} (hi : i < 8) :
    graphicsPixel (mirrored graphics) (!reflected) i = graphicsPixel graphics reflected i := by
  cases reflected with
  | false => exact bitAt_mirrored graphics hi
  | true =>
    refine (bitAt_mirrored graphics (by omega : 7 - i < 8)).trans ?_
    rw [show 7 - (7 - i) = i by omega]
    rfl

theorem graphicsPixel_zero (reflected : Bool) (i : Nat) : graphicsPixel 0 reflected i = false :=
  Nat.zero_testBit _

/-- A dot is covered by the pixel in whose stretch it lies. -/
theorem copyCovers_iff (graphics : UInt8) (reflected : Bool) {scale : Nat} (hscale : 0 < scale)
    (start x : Nat) :
    copyCovers graphics reflected scale start x = true
      ↔ ∃ i < 8, x ∈ Finset.Ico (start + scale * i) (start + scale * (i + 1))
          ∧ graphicsPixel graphics reflected i = true := by
  simp only [copyCovers, Bool.and_eq_true, decide_eq_true_eq, Finset.mem_Ico]
  constructor
  · rintro ⟨⟨hstart, hstop⟩, hpixel⟩
    have hleft := Nat.mul_div_le (x - start) scale
    have hright := Nat.lt_mul_div_succ (x - start) hscale
    refine ⟨(x - start) / scale, ?_, ⟨by omega, by omega⟩, hpixel⟩
    exact (Nat.div_lt_iff_lt_mul hscale).mpr (by omega)
  · rintro ⟨i, hi, ⟨hleft, hright⟩, hpixel⟩
    have hindex : (x - start) / scale = i :=
      Nat.div_eq_of_lt_le (by rw [Nat.mul_comm]; omega) (by rw [Nat.mul_comm]; omega)
    have hwidth : scale * (i + 1) ≤ scale * 8 := Nat.mul_le_mul_left _ hi
    rw [hindex]
    exact ⟨⟨by omega, by omega⟩, hpixel⟩

/-- It is in the unit of the copy then. -/
theorem copyCovers_iff_mem (graphics : UInt8) (reflected : Bool) (scale start x : Nat) :
    copyCovers graphics reflected scale start x = true
      ↔ start ≤ x ∧ x - start ∈ playerUnit graphics reflected scale := by
  simp only [copyCovers, playerUnit, Bool.and_eq_true, decide_eq_true_eq, Finset.mem_filter,
    Finset.mem_range, and_assoc]
  refine and_congr_right fun hstart => and_congr_left fun _ => ?_
  omega

/-- Graphics without a set pixel cover no dot, so they are no exception. -/
theorem playerAt_iff_copyCovers (s : Scene) (p : Player) (x : Nat) :
    s.playerAt p x = true
      ↔ ∃ offset ∈ (s.registers.numberSize.get p).formation.copies,
          copyCovers (s.registers.shownGraphics p) (s.registers.reflected.get p)
            (s.registers.numberSize.get p).formation.scale
            (s.positions.get (.player p) + offset) x = true := by
  unfold playerAt
  by_cases hnone : s.registers.shownGraphics p = 0
  · simp [hnone, copyCovers, graphicsPixel_zero]
  · simp only [hnone, if_false, List.any_eq_true]
    rfl

/-- A player covers a dot if a pixel of one of its copies is set there. -/
theorem playerAt_iff (s : Scene) (p : Player) (x : Nat) :
    s.playerAt p x = true
      ↔ ∃ offset ∈ (s.registers.numberSize.get p).formation.copies, ∃ i < 8,
          x ∈ Finset.Ico
              (s.positions.get (.player p) + offset
                + (s.registers.numberSize.get p).formation.scale * i)
              (s.positions.get (.player p) + offset
                + (s.registers.numberSize.get p).formation.scale * (i + 1))
            ∧ graphicsPixel (s.registers.shownGraphics p) (s.registers.reflected.get p) i
              = true := by
  have hscale := (s.registers.numberSize.get p).formation.scale_mem.1
  simp only [playerAt_iff_copyCovers, copyCovers_iff _ _ hscale]

/-- A player shows at the dots of its copies, each the shape of its graphics. -/
theorem playerAt_iff_mem (s : Scene) (p : Player) (x : Nat) :
    s.playerAt p x = true
      ↔ x ∈ copyDots (s.positions.get (.player p)) (s.registers.numberSize.get p).formation.copies
          (playerUnit (s.registers.shownGraphics p) (s.registers.reflected.get p)
            (s.registers.numberSize.get p).formation.scale) := by
  simp only [playerAt_iff_copyCovers, copyCovers_iff_mem, mem_copyDots]

/-- If the graphics of two players are mirror images, and one of the players is
reflected and the other one is not, they look the same. -/
theorem playerAt_mirrored {s s' : Scene} {p : Player}
    (hposition : s'.positions.get (.player p) = s.positions.get (.player p))
    (hsize : s'.registers.numberSize.get p = s.registers.numberSize.get p)
    (hgraphics : s'.registers.shownGraphics p = mirrored (s.registers.shownGraphics p))
    (hreflected : s'.registers.reflected.get p = !s.registers.reflected.get p) (x : Nat) :
    s'.playerAt p x = s.playerAt p x := by
  rw [Bool.eq_iff_iff, playerAt_iff, playerAt_iff, hposition, hsize, hgraphics, hreflected]
  refine exists_congr fun offset => and_congr_right fun _ => exists_congr fun i => ?_
  refine and_congr_right fun hi => and_congr_right fun _ => ?_
  rw [graphicsPixel_mirrored _ _ hi]

/-! ## Missiles and the ball -/

theorem mem_copyDots_range {position size x : Nat} {copies : List Nat} :
    x ∈ copyDots position copies (Finset.range size)
      ↔ ∃ offset ∈ copies, x ∈ Finset.Ico (position + offset) (position + offset + size) := by
  rw [mem_copyDots]
  refine exists_congr fun offset => and_congr_right fun _ => ?_
  rw [Finset.mem_range, Finset.mem_Ico]
  omega

/-- A missile shows at the dots of its copies, if it is enabled and not locked. -/
theorem missileAt_iff (s : Scene) (p : Player) (x : Nat) :
    s.missileAt p x = true
      ↔ s.registers.missileEnabled.get p = true ∧ s.isLocked (.missile p) = false
        ∧ x ∈ copyDots (s.positions.get (.missile p))
            (s.registers.numberSize.get p).formation.copies
            (Finset.range (s.registers.numberSize.get p).missileSize) := by
  rw [mem_copyDots_range, isLocked]
  unfold missileAt
  cases s.registers.missileEnabled.get p <;> cases s.registers.missileLocked.get p <;>
    simp [PerObject.get]

/-- The ball shows at its dots, if it is enabled. -/
theorem ballAt_iff (s : Scene) (x : Nat) :
    s.ballAt x = true
      ↔ s.registers.shownBall = true
        ∧ x ∈ copyDots (s.positions.get .ball) [0] (Finset.range s.registers.control.ballSize) := by
  rw [mem_copyDots_range, ballAt]
  simp [and_assoc, PerObject.get]

/-! ## On a line -/

section

variable (s : Scene) (p : Player)

/-- No object covers a dot on the left of its position. -/
theorem position_le_of_covered (x : Nat) :
    (s.playerAt p x = true → s.positions.get (.player p) ≤ x)
      ∧ (s.missileAt p x = true → s.positions.get (.missile p) ≤ x)
      ∧ (s.ballAt x = true → s.positions.get .ball ≤ x) := by
  rw [playerAt_iff_mem, missileAt_iff, ballAt_iff]
  simp only [mem_copyDots]
  refine ⟨?_, ?_, ?_⟩
  · rintro ⟨offset, -, hle, -⟩
    omega
  · rintro ⟨-, -, offset, -, hle, -⟩
    omega
  · rintro ⟨-, offset, -, hle, -⟩
    omega

variable {s} (h : s.FitsWords)

include h

/-- The copies of a player do not overlap, nor do those of its missile. -/
theorem copies_disjoint :
    (s.registers.numberSize.get p).formation.copies.Pairwise fun a b =>
      Disjoint
          (Finset.Ico (s.positions.get (.player p) + a)
            (s.positions.get (.player p) + a + 8 * (s.registers.numberSize.get p).formation.scale))
          (Finset.Ico (s.positions.get (.player p) + b)
            (s.positions.get (.player p) + b + 8 * (s.registers.numberSize.get p).formation.scale))
        ∧ Disjoint
          (Finset.Ico (s.positions.get (.missile p) + a)
            (s.positions.get (.missile p) + a + (s.registers.numberSize.get p).missileSize))
          (Finset.Ico (s.positions.get (.missile p) + b)
            (s.positions.get (.missile p) + b + (s.registers.numberSize.get p).missileSize)) := by
  have hsmall := h.sizes.missileSize p
  refine (s.registers.numberSize.get p).formation.copies_apart.imp ?_
  rintro a b ⟨hwide, hgap⟩
  exact ⟨disjoint_Ico_of_le (by omega), disjoint_Ico_of_le (by omega)⟩

/-- On a line that has room for all copies, a player shows the dots of all of them, -/
theorem card_player
    (hline : ∀ offset ∈ (s.registers.numberSize.get p).formation.copies,
      s.positions.get (.player p) + offset + 8 * (s.registers.numberSize.get p).formation.scale
        ≤ lineLength) :
    (lineDots.filter fun x => s.playerAt p x = true).card
      = (s.registers.numberSize.get p).formation.copies.length
        * bitCount (s.registers.shownGraphics p)
        * (s.registers.numberSize.get p).formation.scale := by
  have hscale := (s.registers.numberSize.get p).formation.scale_mem.1
  have hapart := (s.registers.numberSize.get p).formation.copies_apart.imp And.left
  have hunit : ∀ d ∈ playerUnit (s.registers.shownGraphics p) (s.registers.reflected.get p)
      (s.registers.numberSize.get p).formation.scale,
      d < 8 * (s.registers.numberSize.get p).formation.scale := by
    intro d hd
    have hlt := Finset.mem_range.mp (Finset.mem_filter.mp hd).1
    omega
  rw [card_covered (s.playerAt_iff_mem p) (h.position _).1 hunit hapart
      (Formation.nodup_copies _) hline,
    card_playerUnit _ _ hscale, Nat.mul_comm (Formation.scale _), Nat.mul_assoc]

/-- so does a missile, -/
theorem card_missile (henabled : s.registers.missileEnabled.get p = true)
    (hfree : s.isLocked (.missile p) = false)
    (hline : ∀ offset ∈ (s.registers.numberSize.get p).formation.copies,
      s.positions.get (.missile p) + offset + (s.registers.numberSize.get p).missileSize
        ≤ lineLength) :
    (lineDots.filter fun x => s.missileAt p x = true).card
      = (s.registers.numberSize.get p).formation.copies.length
        * (s.registers.numberSize.get p).missileSize := by
  have hsmall := h.sizes.missileSize p
  have hapart : (s.registers.numberSize.get p).formation.copies.Pairwise fun a b =>
      a + (s.registers.numberSize.get p).missileSize ≤ b :=
    (Formation.copies_apart _).imp fun hgap => by omega
  have hcovers (x : Nat) := s.missileAt_iff p x
  simp only [henabled, hfree, true_and] at hcovers
  rw [card_covered hcovers (h.position _).1 (fun _ => Finset.mem_range.mp) hapart
      (Formation.nodup_copies _) hline, Finset.card_range]

/-- and the ball shows its own. -/
theorem card_ball (hshown : s.registers.shownBall = true)
    (hline : s.positions.get .ball + s.registers.control.ballSize ≤ lineLength) :
    (lineDots.filter fun x => s.ballAt x = true).card = s.registers.control.ballSize := by
  have hcovers (x : Nat) := s.ballAt_iff x
  simp only [hshown, true_and] at hcovers
  rw [card_covered hcovers (h.position _).1 (fun _ => Finset.mem_range.mp)
      (List.pairwise_singleton _ _) (List.nodup_singleton _) (by simpa using hline),
    Finset.card_range, List.length_singleton, Nat.one_mul]

end

end Scene

namespace Tia

theorem Reachable.fitsWords {t : Tia} (h : Reachable t) : t.FitsWords := by
  induction h with
  | powerOn => exact fitsWords_powerOn
  | call _ c ih => exact fitsWords_call ih c

/-- Whatever the chip was asked for: at every dot of a line, a player is where a pixel of
one of its copies is set, pixels being as wide as its scale and counted from the left, or
from the right if the player is reflected; a missile is where one of its copies is, if it
is enabled and not locked; and the ball is where it is, if it is shown. Copies do not
overlap, so an object that ends before the line does covers as many dots as its copies
together. No object covers a dot on the left of its position, so that what is beyond the
end of the line is not seen. And a player looks as it does without reflection and with its
graphics mirrored. -/
theorem objects_cover_shapes (calls : List Call) (p : Player) :
    let s := (powerOn.run calls).scene
    let size := s.registers.numberSize.get p
    let copies := size.formation.copies
    let scale := size.formation.scale
    let graphics := s.registers.shownGraphics p
    let player := s.positions.get (.player p)
    let missile := s.positions.get (.missile p)
    let ball := s.positions.get .ball
    (∀ x ∈ lineDots,
        (s.playerAt p x = true
          ↔ ∃ offset ∈ copies, ∃ i < 8,
              x ∈ Finset.Ico (player + offset + scale * i) (player + offset + scale * (i + 1))
                ∧ bitAt graphics (if s.registers.reflected.get p then i else 7 - i) = true)
        ∧ (s.missileAt p x = true
          ↔ s.registers.missileEnabled.get p = true ∧ s.isLocked (.missile p) = false
            ∧ ∃ offset ∈ copies,
                x ∈ Finset.Ico (missile + offset) (missile + offset + size.missileSize))
        ∧ (s.ballAt x = true
          ↔ s.registers.shownBall = true
            ∧ x ∈ Finset.Ico ball (ball + s.registers.control.ballSize)))
      ∧ copies.Pairwise (fun a b =>
          Disjoint (Finset.Ico (player + a) (player + a + 8 * scale))
              (Finset.Ico (player + b) (player + b + 8 * scale))
            ∧ Disjoint (Finset.Ico (missile + a) (missile + a + size.missileSize))
              (Finset.Ico (missile + b) (missile + b + size.missileSize)))
      ∧ ((∀ offset ∈ copies, player + offset + 8 * scale ≤ lineLength) →
          (lineDots.filter fun x => s.playerAt p x = true).card
            = copies.length * bitCount graphics * scale)
      ∧ (s.registers.missileEnabled.get p = true → s.isLocked (.missile p) = false →
          (∀ offset ∈ copies, missile + offset + size.missileSize ≤ lineLength) →
          (lineDots.filter fun x => s.missileAt p x = true).card
            = copies.length * size.missileSize)
      ∧ (s.registers.shownBall = true → ball + s.registers.control.ballSize ≤ lineLength →
          (lineDots.filter fun x => s.ballAt x = true).card = s.registers.control.ballSize)
      ∧ (∀ x, (s.playerAt p x = true → player ≤ x) ∧ (s.missileAt p x = true → missile ≤ x)
          ∧ (s.ballAt x = true → ball ≤ x))
      ∧ ∀ s' : Scene, s'.positions.get (.player p) = player → s'.registers.numberSize.get p = size →
          s'.registers.shownGraphics p = mirrored graphics →
          s'.registers.reflected.get p = !s.registers.reflected.get p →
          ∀ x, s'.playerAt p x = s.playerAt p x := by
  intro s size copies scale graphics player missile ball
  have hfits : s.FitsWords := (Reachable.powerOn.run calls).fitsWords.scene
  refine ⟨?_, Scene.copies_disjoint p hfits, Scene.card_player p hfits,
    Scene.card_missile p hfits, Scene.card_ball hfits, s.position_le_of_covered p, ?_⟩
  · intro x _
    refine ⟨s.playerAt_iff p x, ?_, ?_⟩
    · rw [s.missileAt_iff p x, Scene.mem_copyDots_range]
    · rw [s.ballAt_iff x, Scene.mem_copyDots_range]
      simp [ball]
  · intro s' hposition hsize hgraphics hreflected x
    exact Scene.playerAt_mirrored hposition hsize hgraphics hreflected x

/-- A player with three close copies, its missile and the ball, all at dot 100. -/
def threeCopies : List Call :=
  [.tick 100, .write 0x10 0x00, .write 0x12 0x00, .write 0x14 0x00, .write 0x04 0x23,
    .write 0x0A 0x20, .write 0x1B 0xE1, .write 0x1D 0x02, .write 0x1F 0x02]

/-- The last of its four set bits is the last dot of the last copy, its dots are twelve,
and it looks the same if it is reflected and its graphics are written the other way
round. -/
theorem objects_cover_shapes_threeCopies :
    let s := (powerOn.run threeCopies).scene
    let s' := (powerOn.run (threeCopies ++ [.write 0x0B 0x08, .write 0x1B 0x87])).scene
    s.playerAt .one 139 = true
      ∧ (lineDots.filter fun x => s.playerAt .one x = true).card = 12
      ∧ (lineDots.filter fun x => s.missileAt .one x = true).card = 12
      ∧ (lineDots.filter fun x => s.ballAt x = true).card = 4
      ∧ ∀ x, s'.playerAt .one x = s.playerAt .one x := by
  intro s s'
  obtain ⟨hcovers, -, hplayer, hmissile, hball, -, hmirrored⟩ :=
    objects_cover_shapes threeCopies .one
  have hlast : 139 ∈ lineDots := by simp [lineDots, blankLength, lineLength]
  have hpixel := (hcovers 139 hlast).1.mpr ⟨32, by decide, 7, by decide, by decide, rfl⟩
  refine ⟨hpixel, ?_, hmissile rfl rfl (by decide), hball rfl (by decide), ?_⟩
  · exact hplayer (by decide)
  · exact hmirrored s' rfl rfl (by decide) rfl

end Tia

end VideoComputer
