/-
VideoComputer.Video.Collision — what is present at one dot, and the latches
that remember which objects have met.

There is a latch for each of the fifteen pairs that can meet. A latch is set
when both objects of its pair are present at a dot that is drawn, and stays
set until all of them are cleared. Latches are read two at a time, in bits 7
and 6 of eight registers; one register has a single latch.
-/
import VideoComputer.Bits
import VideoComputer.Players

namespace VideoComputer

/-- Which objects are present at a dot. -/
structure Dot where
  playfield : Bool
  ball : Bool
  player : PerPlayer Bool
  missile : PerPlayer Bool
  deriving DecidableEq, Repr

/-- A pair of objects that can meet. -/
inductive Latch where
  | missilePlayer (missile player : Player)
  | playerPlayfield (player : Player)
  | playerBall (player : Player)
  | missilePlayfield (missile : Player)
  | missileBall (missile : Player)
  | ballPlayfield
  | players
  | missiles
  deriving DecidableEq, Repr

namespace Latch

/-- All latches, in the order of their bits. -/
def all : List Latch :=
  [.missilePlayer .one .two, .missilePlayer .one .one,
    .missilePlayer .two .one, .missilePlayer .two .two,
    .playerPlayfield .one, .playerBall .one, .playerPlayfield .two, .playerBall .two,
    .missilePlayfield .one, .missileBall .one, .missilePlayfield .two, .missileBall .two,
    .ballPlayfield, .players, .missiles]

/-- The bit that keeps a latch. Bit 13 keeps none. -/
def bit : Latch → Nat
  | .missilePlayer .one .two => 0
  | .missilePlayer .one .one => 1
  | .missilePlayer .two .one => 2
  | .missilePlayer .two .two => 3
  | .playerPlayfield .one => 4
  | .playerBall .one => 5
  | .playerPlayfield .two => 6
  | .playerBall .two => 7
  | .missilePlayfield .one => 8
  | .missileBall .one => 9
  | .missilePlayfield .two => 10
  | .missileBall .two => 11
  | .ballPlayfield => 12
  | .players => 14
  | .missiles => 15

theorem bit_lt (l : Latch) : l.bit < 16 := by
  cases l with
  | missilePlayer m p => cases m <;> cases p <;> decide
  | playerPlayfield p => cases p <;> decide
  | playerBall p => cases p <;> decide
  | missilePlayfield m => cases m <;> decide
  | missileBall m => cases m <;> decide
  | ballPlayfield | players | missiles => decide

/-- The list of all latches misses none. -/
theorem mem_all (l : Latch) : l ∈ all := by
  cases l with
  | missilePlayer m p => cases m <;> cases p <;> decide
  | playerPlayfield p => cases p <;> decide
  | playerBall p => cases p <;> decide
  | missilePlayfield m => cases m <;> decide
  | missileBall m => cases m <;> decide
  | ballPlayfield | players | missiles => decide

/-- No two latches share a bit. -/
theorem bit_inj {l l' : Latch} (h : l.bit = l'.bit) : l = l' := by
  have distinct : ∀ l ∈ all, ∀ l' ∈ all, l.bit = l'.bit → l = l' := by decide
  exact distinct l l.mem_all l' l'.mem_all h

/-- Whether both objects of the pair are present. -/
def isHit (d : Dot) : Latch → Bool
  | .missilePlayer m p => d.missile.get m && d.player.get p
  | .playerPlayfield p => d.player.get p && d.playfield
  | .playerBall p => d.player.get p && d.ball
  | .missilePlayfield m => d.missile.get m && d.playfield
  | .missileBall m => d.missile.get m && d.ball
  | .ballPlayfield => d.ball && d.playfield
  | .players => d.player.one && d.player.two
  | .missiles => d.missile.one && d.missile.two

end Latch

/-- The latches that are set, as bits of a word. -/
structure Collisions where
  bits : UInt16
  deriving DecidableEq, Repr

namespace Collisions

/-- No latch set. -/
def empty : Collisions := ⟨0⟩

/-- The latches among the bits of a word: bit 13 is dropped. -/
def ofBits (bits : UInt16) : Collisions := ⟨bits &&& 0xDFFF⟩

/-- Whether a latch is set. -/
def contains (c : Collisions) (l : Latch) : Bool := c.bits.toNat.testBit l.bit

/-- Sets a latch. -/
def insert (c : Collisions) (l : Latch) : Collisions :=
  ⟨c.bits ||| UInt16.ofNat (1 <<< l.bit)⟩

@[simp] theorem contains_empty (l : Latch) : empty.contains l = false := by
  simp [contains, empty]

/-- Setting a latch sets its bit and no other. -/
theorem testBit_insert (c : Collisions) (l : Latch) (n : Nat) :
    (c.insert l).bits.toNat.testBit n = (c.bits.toNat.testBit n || decide (l.bit = n)) := by
  have hlt : 2 ^ l.bit < 2 ^ 16 := Nat.pow_lt_pow_right (by decide) l.bit_lt
  have hb : (UInt16.ofNat (1 <<< l.bit)).toNat = 2 ^ l.bit := by
    rw [UInt16.toNat_ofNat', Nat.one_shiftLeft]
    exact Nat.mod_eq_of_lt hlt
  simp only [insert, UInt16.toNat_or, hb, Nat.testBit_or, Nat.testBit_two_pow]

/-- Sets every latch whose pair meets at the dot (`update_collisions`). -/
def record (c : Collisions) (d : Dot) : Collisions :=
  Latch.all.foldl (fun c l => if l.isHit d then c.insert l else c) c

/-- The byte read from a collision register: its two latches in bits 7 and 6.
There are eight registers, repeated. -/
def register (c : Collisions) (number : UInt16) : UInt8 :=
  let first := 2 * (number.toNat % 8)
  flagAt (c.bits.toNat.testBit first) 7 ||| flagAt (c.bits.toNat.testBit (first + 1)) 6

end Collisions

end VideoComputer
