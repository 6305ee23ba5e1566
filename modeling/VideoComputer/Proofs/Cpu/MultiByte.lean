/-
VideoComputer.Proofs.Cpu.MultiByte — arithmetic on numbers of several bytes.

The processor adds and subtracts one byte at a time. A program that works with
longer numbers goes through their bytes, the low ones first, and lets the carry
pass from one to the next: it loads a byte of the first number, combines it with
the byte of the second and stores what is left in A. What this comes to follows
from a law about one byte, whichever way numbers are written in bytes.

* `Numeral` — a way of writing the numbers below a base as bytes.
* `Numeral.Represents` — bytes that are a number, the low byte first.
* `Registers.chain` — the pass over two numbers.
* `Numeral.Adds`, `Numeral.Subtracts` — the laws about one byte.
* `Combines.chain` — such a law, for numbers of any length.
* `Combines.last` — the end of a pass is the end of its last operation.
* `Adds.represents`, `Subtracts.represents` — what the passes store, and the
  carry they end with.
* `Subtracts.restores` — a subtraction undoes an addition.
-/
import Mathlib.Data.Nat.Digits.Defs
import Mathlib.Tactic.Ring
import VideoComputer.Cpu.Arithmetic

namespace VideoComputer

/-! ## Numbers in bytes -/

/-- A way of writing the numbers below a base as bytes. -/
structure Numeral where
  base : Nat
  /-- Which bytes are written numbers. -/
  IsDigit : UInt8 → Prop
  value : UInt8 → Nat
  one_lt_base : 1 < base
  value_lt : ∀ b, IsDigit b → value b < base
  value_inj : ∀ a b, IsDigit a → IsDigit b → value a = value b → a = b

namespace Numeral

variable (d : Numeral)

/-- The number that bytes stand for, the low byte first. -/
def number (bytes : List UInt8) : Nat := Nat.ofDigits d.base (bytes.map d.value)

/-- The bytes are a number written with so many bytes. -/
structure Represents (bytes : List UInt8) (n value : Nat) : Prop where
  length_eq : bytes.length = n
  isDigit : ∀ b ∈ bytes, d.IsDigit b
  number_eq : d.number bytes = value

variable {d} {bytes bytes' : List UInt8} {b : UInt8} {n value : Nat}

theorem number_cons : d.number (b :: bytes) = d.value b + d.base * d.number bytes :=
  Nat.ofDigits_cons

theorem represents_nil : d.Represents [] 0 0 := ⟨rfl, by simp, rfl⟩

theorem Represents.cons (hb : d.IsDigit b) (h : d.Represents bytes n value) :
    d.Represents (b :: bytes) (n + 1) (d.value b + d.base * value) where
  length_eq := by rw [List.length_cons, h.length_eq]
  isDigit := List.forall_mem_cons.mpr ⟨hb, h.isDigit⟩
  number_eq := by rw [number_cons, h.number_eq]

/-- A number of several bytes is its low byte and the number above it. -/
theorem Represents.of_cons (h : d.Represents (b :: bytes) n value) :
    ∃ n' value', n = n' + 1 ∧ value = d.value b + d.base * value'
      ∧ d.IsDigit b ∧ d.Represents bytes n' value' := by
  obtain ⟨hb, hbytes⟩ := List.forall_mem_cons.mp h.isDigit
  exact ⟨bytes.length, d.number bytes, h.length_eq.symm, h.number_eq.symm.trans number_cons,
    hb, ⟨rfl, hbytes, rfl⟩⟩

theorem digits_lt (h : ∀ b ∈ bytes, d.IsDigit b) : ∀ x ∈ bytes.map d.value, x < d.base := by
  intro x hx
  obtain ⟨b, hb, rfl⟩ := List.mem_map.mp hx
  exact d.value_lt b (h b hb)

theorem Represents.lt (h : d.Represents bytes n value) : value < d.base ^ n := by
  have hlt := Nat.ofDigits_lt_base_pow_length d.one_lt_base (digits_lt h.isDigit)
  rw [List.length_map, h.length_eq] at hlt
  rw [← h.number_eq]
  exact hlt

theorem Represents.ne_nil (h : d.Represents bytes n value) (hn : 0 < n) : bytes ≠ [] := by
  rintro rfl
  exact hn.ne h.length_eq

/-- There is one way to write a number with so many bytes. -/
theorem Represents.unique (h : d.Represents bytes n value) (h' : d.Represents bytes' n value) :
    bytes = bytes' := by
  have hvalues : bytes.map d.value = bytes'.map d.value :=
    Nat.ofDigits_inj_of_len_eq d.one_lt_base
      (by rw [List.length_map, List.length_map, h.length_eq, h'.length_eq])
      (digits_lt h.isDigit) (digits_lt h'.isDigit) (h.number_eq.trans h'.number_eq.symm)
  have hdigits := h.isDigit
  have hdigits' := h'.isDigit
  clear h h'
  induction bytes generalizing bytes' with
  | nil => exact (List.map_eq_nil_iff.mp hvalues.symm).symm
  | cons b bytes ih =>
    obtain ⟨b', rest, rfl, hb, hrest⟩ := List.map_eq_cons_iff.mp hvalues.symm
    obtain ⟨hbdigit, hdigits⟩ := List.forall_mem_cons.mp hdigits
    obtain ⟨hbdigit', hdigits'⟩ := List.forall_mem_cons.mp hdigits'
    rw [d.value_inj b b' hbdigit hbdigit' hb.symm, ih hrest.symm hdigits hdigits']

end Numeral

/-! ## The pass over two numbers -/

/-- Goes through two numbers from their low bytes up, and loads a byte of the
first, combines it with the byte of the second and stores A. Gives the bytes
stored and the registers at the end. -/
def Registers.chain (op : Registers → UInt8 → Registers) :
    Registers → List UInt8 → List UInt8 → List UInt8 × Registers
  | r, a :: as, b :: bs =>
    let r := op (r.lda a) b
    let rest := chain op r as bs
    (r.a :: rest.1, rest.2)
  | r, _, _ => ([], r)

@[simp] theorem Registers.chain_nil (op : Registers → UInt8 → Registers) (r : Registers)
    (bs : List UInt8) : r.chain op [] bs = ([], r) := by
  unfold chain
  rfl

@[simp] theorem Registers.chain_cons (op : Registers → UInt8 → Registers) (r : Registers)
    (a b : UInt8) (as bs : List UInt8) :
    r.chain op (a :: as) (b :: bs)
      = ((op (r.lda a) b).a :: ((op (r.lda a) b).chain op as bs).1,
          ((op (r.lda a) b).chain op as bs).2) := rfl

namespace Numeral

/-! ## Laws about a byte -/

/-- Two numbers and what is carried in make the result and what is carried out,
which counts as much as the limit. -/
def Sum (limit a b carryIn result carryOut : Nat) : Prop :=
  a + b + carryIn = result + limit * carryOut

/-- The result is what the second number and the borrow are taken from the first
one to get: a sum read backwards. -/
def Difference (limit a b borrowIn result borrowOut : Nat) : Prop :=
  Sum limit result b borrowIn a borrowOut

/-- A law that holds of numbers of several digits if it holds of each digit, with
what goes out of the low ones coming into the high ones. -/
structure Digitwise (Law : Nat → Nat → Nat → Nat → Nat → Nat → Prop) : Prop where
  nil : ∀ carry, Law 1 0 0 carry 0 carry
  cons : ∀ {base x y x' y' z z' carryIn carry carryOut n : Nat},
    Law base x y carryIn z carry → Law (base ^ n) x' y' carry z' carryOut →
      Law (base ^ (n + 1)) (x + base * x') (y + base * y') carryIn (z + base * z') carryOut

theorem sum_digitwise : Digitwise Sum where
  nil carry := by rw [Sum, Nat.one_mul]
  cons {base x y x' y' z z' carryIn carry carryOut n} hlow hhigh := by
    rw [Sum] at hlow hhigh ⊢
    calc x + base * x' + (y + base * y') + carryIn
        = x + y + carryIn + base * (x' + y') := by ring
      _ = z + base * (x' + y' + carry) := by rw [hlow]; ring
      _ = z + base * z' + base ^ (n + 1) * carryOut := by rw [hhigh]; ring

theorem difference_digitwise : Digitwise Difference where
  nil carry := sum_digitwise.nil carry
  cons hlow hhigh := sum_digitwise.cons hlow hhigh

/-- In a mode that it keeps, the operation makes a digit out of two, and they obey
the law. -/
structure Combines (d : Numeral) (Mode : Registers → Prop) (op : Registers → UInt8 → Registers)
    (carry : Registers → Nat) (Law : Nat → Nat → Nat → Nat → Nat → Nat → Prop) : Prop where
  mode : ∀ r a b, Mode r → Mode (op (r.lda a) b)
  isDigit : ∀ r a b, Mode r → d.IsDigit a → d.IsDigit b → d.IsDigit (op (r.lda a) b).a
  law : ∀ r a b, Mode r → d.IsDigit a → d.IsDigit b →
    Law d.base (d.value a) (d.value b) (carry r) (d.value (op (r.lda a) b).a)
      (carry (op (r.lda a) b))

/-- The operation adds two digits and the carry. -/
abbrev Adds (d : Numeral) (Mode : Registers → Prop) (op : Registers → UInt8 → Registers) : Prop :=
  d.Combines Mode op (fun r => (r.status.get .carry).toNat) Sum

/-- The operation subtracts a digit and the borrow. -/
abbrev Subtracts (d : Numeral) (Mode : Registers → Prop) (op : Registers → UInt8 → Registers) :
    Prop :=
  d.Combines Mode op Registers.borrow Difference

variable {d : Numeral} {Mode : Registers → Prop} {op op' : Registers → UInt8 → Registers}
variable {r : Registers} {as bs : List UInt8} {n a b : Nat}

/-- The law about a byte, for a whole number. -/
theorem Combines.chain {carry : Registers → Nat}
    {Law : Nat → Nat → Nat → Nat → Nat → Nat → Prop} (h : d.Combines Mode op carry Law)
    (hlaw : Digitwise Law) (hr : Mode r) (ha : d.Represents as n a) (hb : d.Represents bs n b) :
    ∃ result, d.Represents (r.chain op as bs).1 n result
      ∧ Law (d.base ^ n) a b (carry r) result (carry (r.chain op as bs).2) := by
  induction as generalizing r bs n a b with
  | nil =>
    obtain rfl : 0 = n := ha.length_eq
    obtain rfl : bs = [] := List.length_eq_zero_iff.mp hb.length_eq
    obtain rfl : 0 = a := ha.number_eq
    obtain rfl : 0 = b := hb.number_eq
    rw [Registers.chain_nil, Nat.pow_zero]
    exact ⟨0, represents_nil, hlaw.nil _⟩
  | cons x as ih =>
    obtain ⟨n, a, rfl, rfl, hx, ha⟩ := ha.of_cons
    obtain ⟨y, bs, rfl⟩ := List.exists_cons_of_length_eq_add_one hb.length_eq
    obtain ⟨m, b, hm, rfl, hy, hb⟩ := hb.of_cons
    obtain rfl : n = m := by omega
    obtain ⟨result, hresult, hrest⟩ := ih (h.mode r x y hr) ha hb
    rw [Registers.chain_cons]
    exact ⟨_, hresult.cons (h.isDigit r x y hr hx hy), hlaw.cons (h.law r x y hr hx hy) hrest⟩

/-- What is left at the end of a pass was left by the operation on the top bytes. -/
theorem Combines.last {carry : Registers → Nat}
    {Law : Nat → Nat → Nat → Nat → Nat → Nat → Prop} (h : d.Combines Mode op carry Law)
    (hr : Mode r) (hlength : as.length = bs.length) (has : as ≠ []) :
    ∃ r' x y, Mode r' ∧ as.getLast? = some x ∧ bs.getLast? = some y
      ∧ (r.chain op as bs).1.getLast? = some (op (r'.lda x) y).a
      ∧ (r.chain op as bs).2 = op (r'.lda x) y := by
  induction as generalizing r bs with
  | nil => exact absurd rfl has
  | cons x as ih =>
    obtain ⟨y, bs, rfl⟩ := List.exists_cons_of_length_eq_add_one hlength.symm
    have hlength : as.length = bs.length := Nat.succ.inj hlength
    rw [Registers.chain_cons]
    cases as with
    | nil =>
      obtain rfl : bs = [] := List.length_eq_zero_iff.mp hlength.symm
      exact ⟨r, x, y, hr, rfl, rfl, rfl, rfl⟩
    | cons x' as =>
      obtain ⟨y', bs, rfl⟩ := List.exists_cons_of_length_eq_add_one hlength.symm
      obtain ⟨r', x'', y'', hr', hx, hy, hlast, hend⟩ :=
        ih (h.mode r x y hr) hlength (List.cons_ne_nil _ _)
      refine ⟨r', x'', y'', hr', ?_, ?_, ?_, hend⟩
      · rw [List.getLast?_cons_cons, hx]
      · rw [List.getLast?_cons_cons, hy]
      · rw [Registers.chain_cons, List.getLast?_cons_cons]
        rwa [Registers.chain_cons] at hlast

/-! ## Addition -/

/-- A pass of additions stores the sum, as far as there are bytes for it, and
ends with the carry set if there are not enough. -/
theorem Adds.represents (h : d.Adds Mode op) (hr : Mode r) (ha : d.Represents as n a)
    (hb : d.Represents bs n b) :
    d.Represents (r.chain op as bs).1 n ((a + b + (r.status.get .carry).toNat) % d.base ^ n)
      ∧ ((r.chain op as bs).2.status.get .carry = true
          ↔ d.base ^ n ≤ a + b + (r.status.get .carry).toNat) := by
  obtain ⟨sum, hsum, hcarry⟩ := h.chain sum_digitwise hr ha hb
  have hlt := hsum.lt
  rw [Sum] at hcarry
  rw [hcarry, Nat.add_mul_mod_self_left, Nat.mod_eq_of_lt hlt]
  refine ⟨hsum, ?_⟩
  cases (r.chain op as bs).2.status.get .carry with
  | false => simpa using hlt
  | true => simp

/-! ## Subtraction -/

/-- A pass of subtractions stores the difference modulo what the bytes can hold,
and ends with the carry set if nothing had to be borrowed. -/
theorem Subtracts.represents (h : d.Subtracts Mode op) (hr : Mode r) (ha : d.Represents as n a)
    (hb : d.Represents bs n b) :
    d.Represents (r.chain op as bs).1 n
        (((a : Int) - b - r.borrow) % (d.base ^ n : Nat)).toNat
      ∧ ((r.chain op as bs).2.status.get .carry = true ↔ b + r.borrow ≤ a) := by
  obtain ⟨difference, hdifference, hborrow⟩ := h.chain difference_digitwise hr ha hb
  have hlt := hdifference.lt
  rw [Difference, Sum, Registers.borrow.eq_1 (r.chain op as bs).2] at hborrow
  generalize d.base ^ n = limit at hborrow hlt
  have hvalue : ((a : Int) - b - r.borrow) % (limit : Nat) = difference := by
    have hdiff : (a : Int) - b - r.borrow
        = difference + limit * -((!(r.chain op as bs).2.status.get .carry).toNat : Int) := by
      have hint : ((difference + b + r.borrow : Nat) : Int)
          = ((a + limit * (!(r.chain op as bs).2.status.get .carry).toNat : Nat) : Int) := by
        rw [hborrow]
      push_cast at hint ⊢
      linarith
    rw [hdiff, Int.add_mul_emod_self_left, Int.emod_eq_of_lt (Int.natCast_nonneg _)]
    exact Int.ofNat_lt.mpr hlt
  rw [hvalue]
  refine ⟨hdifference, ?_⟩
  cases hcarry : (r.chain op as bs).2.status.get .carry with
  | false =>
    simp only [hcarry, Bool.not_false, Bool.toNat_true, Nat.mul_one] at hborrow
    simp only [Bool.false_eq_true, false_iff]
    omega
  | true =>
    simp only [hcarry, Bool.not_true, Bool.toNat_false, Nat.mul_zero] at hborrow
    simp only [true_iff]
    omega

/-- A pass of subtractions undoes a pass of additions, if it starts with the
other carry. It ends with the other carry, too. -/
theorem Subtracts.restores (h : d.Adds Mode op) (h' : d.Subtracts Mode op') {r' : Registers}
    (hr : Mode r) (hr' : Mode r') (hcarry : r'.status.get .carry = !r.status.get .carry)
    (ha : d.Represents as n a) (hb : d.Represents bs n b) :
    (r'.chain op' (r.chain op as bs).1 bs).1 = as
      ∧ (r'.chain op' (r.chain op as bs).1 bs).2.status.get .carry
        = !(r.chain op as bs).2.status.get .carry := by
  obtain ⟨sum, hsum, hadded⟩ := h.chain sum_digitwise hr ha hb
  obtain ⟨back, hback, hsubtracted⟩ := h'.chain difference_digitwise hr' hsum hb
  rw [Sum] at hadded
  rw [Difference, Sum] at hsubtracted
  have hborrow : r'.borrow = (r.status.get .carry).toNat := by
    rw [Registers.borrow, hcarry, Bool.not_not]
  have hlta := ha.lt
  have hltback := hback.lt
  rw [hborrow, Registers.borrow] at hsubtracted
  generalize ((r'.chain op' (r.chain op as bs).1 bs).2.status.get .carry) = carryBack at *
  generalize ((r.chain op as bs).2.status.get .carry) = carry at *
  generalize d.base ^ n = limit at *
  have hboth : back = a ∧ carryBack = !carry := by
    cases carry <;> cases carryBack <;>
      simp only [Bool.not_true, Bool.not_false, Bool.toNat_true, Bool.toNat_false, Nat.mul_one,
        Nat.mul_zero, reduceCtorEq, and_true, and_false] at hadded hsubtracted ⊢ <;>
      omega
  obtain ⟨rfl, hcarries⟩ := hboth
  exact ⟨hback.unique ha, hcarries⟩

end Numeral

end VideoComputer
