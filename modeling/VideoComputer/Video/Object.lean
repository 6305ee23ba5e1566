/-
VideoComputer.Video.Object — the movable objects and how they multiply and
stretch.

Each side has a player, eight pixels wide before stretching, and a missile;
there is one ball. A number-size register tells how many copies of a player
and its missile a line shows, at what distances, and how wide both are.
-/
import VideoComputer.Bits
import VideoComputer.Players

namespace VideoComputer

/-! ## Objects -/

/-- An object that is positioned on the line. -/
inductive Movable where
  | player (side : Player)
  | missile (side : Player)
  | ball
  deriving DecidableEq, Repr

/-- A value for each movable object. -/
structure PerObject (α : Type) where
  player : PerPlayer α
  missile : PerPlayer α
  ball : α
  deriving DecidableEq, Repr

namespace PerObject

variable {α : Type}

/-- The same value for every object. -/
def all (a : α) : PerObject α := ⟨.both a, .both a, a⟩

/-- The value of one object. -/
def get (s : PerObject α) : Movable → α
  | .player side => s.player.get side
  | .missile side => s.missile.get side
  | .ball => s.ball

/-- Replaces the value of one object and keeps all others. -/
def set (s : PerObject α) (o : Movable) (a : α) : PerObject α :=
  match o with
  | .player side => { s with player := s.player.set side a }
  | .missile side => { s with missile := s.missile.set side a }
  | .ball => { s with ball := a }

/-- The values in order: players, missiles, ball. -/
def toList (s : PerObject α) : List α :=
  [s.player.one, s.player.two, s.missile.one, s.missile.two, s.ball]

@[simp] theorem get_all (a : α) (o : Movable) : (all a).get o = a := by
  cases o <;> simp [all, get]

@[simp] theorem get_set_self (s : PerObject α) (o : Movable) (a : α) : (s.set o a).get o = a := by
  cases o <;> simp [set, get]

theorem get_set_of_ne (s : PerObject α) {o o' : Movable} (h : o' ≠ o) (a : α) :
    (s.set o a).get o' = s.get o' := by
  cases o with
  | player p =>
    cases o' with
    | player q => exact PerPlayer.get_set_of_ne _ (fun e => h (congrArg Movable.player e)) a
    | missile q => rfl
    | ball => rfl
  | missile p =>
    cases o' with
    | player q => rfl
    | missile q => exact PerPlayer.get_set_of_ne _ (fun e => h (congrArg Movable.missile e)) a
    | ball => rfl
  | ball => cases o' <;> simp_all [set, get]

theorem get_set (s : PerObject α) (o o' : Movable) (a : α) :
    (s.set o a).get o' = if o' = o then a else s.get o' := by
  split
  next h => rw [h, get_set_self]
  next h => exact get_set_of_ne s h a

end PerObject

/-! ## Copies and sizes -/

/-- How a player is repeated or stretched on a line. -/
inductive Formation where
  | single
  | twoClose
  | twoMedium
  | threeClose
  | twoWide
  | double
  | threeMedium
  | quadruple
  deriving DecidableEq, Repr

namespace Formation

/-- The formation with a number below 8, the low three bits of the register. -/
def ofNumber : Nat → Formation
  | 1 => .twoClose
  | 2 => .twoMedium
  | 3 => .threeClose
  | 4 => .twoWide
  | 5 => .double
  | 6 => .threeMedium
  | 7 => .quadruple
  | _ => .single

/-- The distance of each copy from the object's position, in dots. -/
def copies : Formation → List Nat
  | .twoClose => [0, 16]
  | .twoMedium => [0, 32]
  | .threeClose => [0, 16, 32]
  | .twoWide => [0, 64]
  | .threeMedium => [0, 32, 64]
  | .single | .double | .quadruple => [0]

/-- How many dots wide each of the eight pixels of a player is
(`player_scale`). -/
def scale : Formation → Nat
  | .double => 2
  | .quadruple => 4
  | _ => 1

/-- How far from its player's position a missile locked to the player sits: the
middle of the player (`missile_lock_offset`). -/
def lockOffset : Formation → Nat
  | .double => 6
  | .quadruple => 10
  | _ => 3

theorem lockOffset_le (f : Formation) : f.lockOffset ≤ 10 := by
  cases f <;> decide

end Formation

/-- The content of a number-size register. -/
structure NumberSize where
  formation : Formation
  /-- How wide the missile is, in dots. -/
  missileSize : Nat
  deriving DecidableEq, Repr

/-- What a byte written to a number-size register means. Bits 3, 6 and 7 have
no influence. -/
def NumberSize.ofByte (b : UInt8) : NumberSize where
  formation := .ofNumber (b.toNat % 8)
  missileSize := 1 <<< twoBitsAt b 4

end VideoComputer
