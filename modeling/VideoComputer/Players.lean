/-
VideoComputer.Players — the two players and data kept once for each of them.

Everything that exists twice on the console — joysticks, fire buttons,
difficulty switches, and on the video chip players, missiles and their
registers — is a `PerPlayer`, so that a rule for one side is written once and
the exchange of the two sides is a function, `PerPlayer.swap`.
-/

namespace VideoComputer

/-- One of the two players, and with it one of the two sides of everything
that exists twice. -/
inductive Player where
  | one
  | two
  deriving DecidableEq, Repr, Inhabited

namespace Player

/-- The opponent. -/
def other : Player → Player
  | .one => .two
  | .two => .one

/-- The player a zero-based index stands for: there are exactly two. -/
def ofIndex? : Nat → Option Player
  | 0 => some .one
  | 1 => some .two
  | _ => none

end Player

/-- A value for each player. -/
structure PerPlayer (α : Type) where
  one : α
  two : α
  deriving DecidableEq, Repr

namespace PerPlayer

variable {α : Type}

/-- The same value for both players. -/
def both (a : α) : PerPlayer α := ⟨a, a⟩

/-- The value of one player. -/
def get (s : PerPlayer α) : Player → α
  | .one => s.one
  | .two => s.two

/-- Replaces the value of one player and keeps the other. -/
def set (s : PerPlayer α) (p : Player) (a : α) : PerPlayer α :=
  match p with
  | .one => { s with one := a }
  | .two => { s with two := a }

/-- Exchanges the two sides. -/
def swap (s : PerPlayer α) : PerPlayer α := ⟨s.two, s.one⟩

@[simp] theorem get_both (a : α) (p : Player) : (both a).get p = a := by
  cases p <;> rfl

@[simp] theorem get_set_self (s : PerPlayer α) (p : Player) (a : α) : (s.set p a).get p = a := by
  cases p <;> rfl

theorem get_set_of_ne (s : PerPlayer α) {p q : Player} (h : q ≠ p) (a : α) :
    (s.set p a).get q = s.get q := by
  cases p <;> cases q <;> simp_all [get, set]

theorem get_set (s : PerPlayer α) (p q : Player) (a : α) :
    (s.set p a).get q = if q = p then a else s.get q := by
  split
  next h => rw [h, get_set_self]
  next h => exact get_set_of_ne s h a

@[ext] theorem ext_get {s t : PerPlayer α} (h : ∀ p, s.get p = t.get p) : s = t := by
  cases s; cases t
  have h₁ := h .one
  have h₂ := h .two
  simp only [get] at h₁ h₂
  subst h₁ h₂
  rfl

end PerPlayer

end VideoComputer
