/-
VideoComputer.Proofs.Video.Playfields — twenty bits across a line.

A line is 160 pixels wide and its playfield has twenty bits, so each bit is four
pixels wide on the left half, and the right half shows all of them once more. It
shows them in the same order or in the opposite one. Either way each bit is seen
twice, and a program that counts lit pixels cannot tell the two apart.

The bits are spread over three registers, and the one in the middle is drawn the
other way round than its neighbours. Places in a register are found by subtraction,
on the mirrored half twice over, which is where such a pattern goes wrong if it
does.

* `card_stretched` — if each of some bits is repeated, so is their number.
* `Playfield.bits` — the twenty bits, from left to right.
* `Playfield.isSet_repeated`, `Playfield.isSet_mirrored` — the right half.
* `Playfield.line_shows_bits` — all of it, for any contents of the registers.
-/
import Mathlib.Algebra.BigOperators.Intervals
import Mathlib.Data.Nat.Count
import VideoComputer.Proofs.Video.Checked

namespace VideoComputer

/-- If each of `n` things takes so many places in a row, there are so many times as
many places with a thing of some kind as there are things of it. -/
theorem card_stretched (f : Nat → Bool) {width : Nat} (hwidth : 0 < width) (n : Nat) :
    ((Finset.range (width * n)).filter fun place => f (place / width) = true).card
      = width * ((Finset.range n).filter fun i => f i = true).card := by
  simp only [Finset.card_filter]
  induction n with
  | zero => simp
  | succ n ih =>
    have hlast : ∑ place ∈ Finset.range width,
        (if f ((width * n + place) / width) = true then 1 else 0)
          = width * if f n = true then 1 else 0 := by
      refine (Finset.sum_const_nat ?_).trans (by rw [Finset.card_range])
      intro place hplace
      rw [Nat.mul_add_div hwidth, Nat.div_eq_of_lt (Finset.mem_range.mp hplace), Nat.add_zero]
    rw [Nat.mul_succ, Finset.sum_range_add, ih, hlast, Finset.sum_range_succ, Nat.mul_add]

namespace Playfield

/-! ## The bits -/

/-- The twenty bits of a playfield from left to right: bits 4 to 7 of the first
register, 7 to 0 of the second and 0 to 7 of the third. -/
def bits (p : Playfield) : List Bool :=
  [4, 5, 6, 7].map (bitAt p.pf0) ++ [7, 6, 5, 4, 3, 2, 1, 0].map (bitAt p.pf1)
    ++ [0, 1, 2, 3, 4, 5, 6, 7].map (bitAt p.pf2)

theorem bits_eq (p : Playfield) : p.bits = (List.range 20).map p.patternBit := rfl

/-- The bits of the pattern are found by their index, -/
theorem getElem?_bits (p : Playfield) {index : Nat} (h : index < 20) :
    p.bits[index]? = some (p.patternBit index) := by
  rw [bits_eq, List.getElem?_map, List.getElem?_range h, Option.map_some]

/-- and are as many as there are indices whose bit is set. -/
theorem count_bits (p : Playfield) :
    p.bits.count true = ((Finset.range 20).filter fun index => p.patternBit index = true).card := by
  rw [bits_eq, List.count_eq_countP, List.countP_map, ← Nat.count_eq_card_filter_range, Nat.count]
  refine List.countP_congr ?_
  intro index _
  simp

/-- Of the first register the high nibble counts. -/
theorem patternBit_congr {p p' : Playfield} (h0 : p'.pf0 &&& 0xF0 = p.pf0 &&& 0xF0)
    (h1 : p'.pf1 = p.pf1) (h2 : p'.pf2 = p.pf2) (index : Nat) :
    p'.patternBit index = p.patternBit index := by
  unfold patternBit
  rw [h1, h2]
  split
  next hindex =>
    have hmask : ∀ index < 4, bitAt 0xF0 (4 + index) = true := by decide
    have hbit := congrArg (bitAt · (4 + index)) h0
    simpa [bitAt_and, hmask index hindex] using hbit
  next => rfl

/-! ## The two halves -/

section

variable (p : Playfield) (reflect : Bool) {pixel : Nat}

/-- On the left half of the line the pattern shows as it is. -/
theorem isSet_left (h : pixel < 80) : p.isSet reflect pixel = p.patternBit (pixel / 4) := by
  rw [isSet, patternIndex, Nat.mod_eq_of_lt h]
  simp [Nat.not_le.mpr h]

/-- The right half repeats the left one, -/
theorem isSet_repeated (pixel : Nat) : p.isSet false (pixel + 80) = p.isSet false pixel := by
  simp [isSet, patternIndex]

/-- or the line is the same from both ends. -/
theorem isSet_mirrored (h : pixel < 160) :
    p.isSet true (159 - pixel) = p.isSet true pixel := by
  have hindex : patternIndex true (159 - pixel) = patternIndex true pixel := by
    simp only [patternIndex, Bool.and_true, decide_eq_true_eq]
    split <;> split <;> omega
  rw [isSet, hindex, isSet]

/-- As many pixels are lit on the right half as on the left one. -/
theorem card_right :
    ((Finset.range 80).filter fun pixel => p.isSet reflect (80 + pixel) = true).card
      = ((Finset.range 80).filter fun pixel => p.isSet reflect pixel = true).card := by
  simp only [Finset.card_filter]
  cases reflect with
  | false =>
    refine Finset.sum_congr rfl ?_
    intro pixel _
    rw [Nat.add_comm, p.isSet_repeated]
  | true =>
    rw [← Finset.sum_range_reflect]
    refine Finset.sum_congr rfl ?_
    intro pixel hpixel
    have hlt := Finset.mem_range.mp hpixel
    rw [← p.isSet_mirrored (by omega), show 159 - (80 + (80 - 1 - pixel)) = pixel by omega]

/-- Each bit lights four pixels on either half. -/
theorem card_lit :
    ((Finset.range 160).filter fun pixel => p.isSet reflect pixel = true).card
      = 8 * p.bits.count true := by
  have hleft : ((Finset.range 80).filter fun pixel => p.isSet reflect pixel = true).card
      = 4 * p.bits.count true := by
    rw [count_bits, ← card_stretched p.patternBit (by decide) 20]
    refine congrArg Finset.card (Finset.filter_congr ?_)
    intro pixel hpixel
    rw [p.isSet_left reflect (Finset.mem_range.mp hpixel)]
  have hright := (p.card_right reflect).trans hleft
  rw [Finset.card_filter] at hleft hright ⊢
  rw [Finset.sum_range_add _ 80 80, hleft, hright, ← Nat.add_mul]

end

/-! ## The line -/

/-- Whatever is written to the registers of the playfield: on the left half, a pixel
shows the bit that is a quarter of its place from the left; the right half repeats
the left one if it is not mirrored, and a line whose right half is mirrored is the
same from both ends. So eight pixels are lit for each bit that is set, and the low
nibble of the first register has no part in it. A machine of small words finds the
bit of every pixel it may be asked for without a difference below zero and without a
shift beyond a byte. -/
theorem line_shows_bits (pf0 pf1 pf2 control : UInt8) :
    let p : Playfield := ⟨pf0, pf1, pf2⟩
    let reflect := (PlayfieldControl.ofByte control).reflect
    (∀ pixel < 80, p.bits[pixel / 4]? = some (p.isSet reflect pixel))
      ∧ (bitAt control 0 = false →
          ∀ pixel < 80, p.isSet reflect (pixel + 80) = p.isSet reflect pixel)
      ∧ (bitAt control 0 = true →
          ∀ pixel < 160, p.isSet reflect (159 - pixel) = p.isSet reflect pixel)
      ∧ ((Finset.range 160).filter fun pixel => p.isSet reflect pixel = true).card
        = 8 * p.bits.count true
      ∧ (∀ pf0' : UInt8, pf0' &&& 0xF0 = pf0 &&& 0xF0 →
          ∀ pixel, isSet ⟨pf0', pf1, pf2⟩ reflect pixel = p.isSet reflect pixel)
      ∧ ∀ pixel : UInt16, p.isSet? reflect pixel.toNat = some (p.isSet reflect pixel.toNat) := by
  intro p reflect
  refine ⟨?_, ?_, ?_, p.card_lit reflect, ?_, fun pixel => p.isSet?_eq reflect pixel.toNat⟩
  · intro pixel hpixel
    rw [p.isSet_left reflect hpixel]
    exact p.getElem?_bits (by omega)
  · intro hcontrol pixel _
    have hreflect : reflect = false := hcontrol
    rw [hreflect, p.isSet_repeated]
  · intro hcontrol pixel hpixel
    have hreflect : reflect = true := hcontrol
    rw [hreflect, p.isSet_mirrored hpixel]
  · intro pf0' hhigh pixel
    have hsame : ∀ index, patternBit ⟨pf0', pf1, pf2⟩ index = p.patternBit index :=
      patternBit_congr hhigh rfl rfl
    rw [isSet, hsame, isSet]

/-- With one bit of each register set, the last pixel of a mirrored line is lit as the
first one is, whatever is in the nibble that has no part; and 24 pixels are lit. -/
theorem line_shows_bits_oneOfEach :
    let p : Playfield := ⟨0x10, 0x80, 0x01⟩
    p.isSet true 159 = true ∧ isSet ⟨0x1F, 0x80, 0x01⟩ true 159 = true
      ∧ p.isSet false 96 = true
      ∧ ((Finset.range 160).filter fun pixel => p.isSet true pixel = true).card = 24 := by
  intro p
  obtain ⟨hbits, -, hmirrored, hcount, hnibble, -⟩ := line_shows_bits 0x10 0x80 0x01 0x01
  obtain ⟨hbits', hrepeated, -⟩ := line_shows_bits 0x10 0x80 0x01 0x00
  have hfirst : p.isSet true 0 = true := (Option.some_inj.mp (hbits 0 (by decide))).symm
  have hlast : p.isSet true 159 = true := (hmirrored rfl 0 (by decide)).trans hfirst
  have hfifth : p.isSet false 16 = true := (Option.some_inj.mp (hbits' 16 (by decide))).symm
  refine ⟨hlast, ?_, ?_, hcount⟩
  · exact (hnibble 0x1F (by decide) 159).trans hlast
  · exact (hrepeated rfl 16 (by decide)).trans hfifth

end Playfield

end VideoComputer
