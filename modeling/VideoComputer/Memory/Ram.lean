/-
VideoComputer.Memory.Ram — flat memory of any size, seen through 16-bit
addresses that wrap around its size.

A memory of no bytes can exist but cannot be accessed: the functions that end
in `?` answer `none` for it. The total forms `read` and `write` are what the
processor uses, on memory that it was given bytes to run in.
-/
import VideoComputer.Memory.Basic

namespace VideoComputer

/-- Flat read-write memory. -/
structure Ram where
  bytes : Array UInt8
  deriving DecidableEq, Repr

namespace Ram

/-- Cleared memory of the given size. -/
def ofSize (size : Nat) : Ram := ⟨Array.replicate size 0⟩

/-- Cleared memory behind every address. -/
def full : Ram := ofSize 0x10000

/-- The number of bytes. -/
def size (r : Ram) : Nat := r.bytes.size

/-- The same memory with all bytes 0. -/
def clear (r : Ram) : Ram := ofSize r.size

/-- The index of the byte behind an address. -/
def index (r : Ram) (address : UInt16) : Nat := address.toNat % r.size

/-- The byte behind an address. -/
def read (r : Ram) (address : UInt16) : UInt8 :=
  r.bytes.getD (r.index address) 0

/-- Replaces the byte behind an address. -/
def write (r : Ram) (address : UInt16) (data : UInt8) : Ram :=
  let i := r.index address
  ⟨r.bytes.setIfInBounds i data⟩

/-- Writes bytes to consecutive addresses, wrapping after `$FFFF`. -/
def load (r : Ram) (address : UInt16) : List UInt8 → Ram
  | [] => r
  | byte :: rest => (r.write address byte).load (address + 1) rest

/-! ## Access to memory that may have no bytes -/

/-- The byte behind an address, if the memory has any. -/
def read? (r : Ram) (address : UInt16) : Option UInt8 :=
  if r.size = 0 then none else some (r.read address)

/-- The memory after a write, if it has any bytes. -/
def write? (r : Ram) (address : UInt16) (data : UInt8) : Option Ram :=
  if r.size = 0 then none else some (r.write address data)

/-- The memory after a load. Loading nothing needs no bytes. -/
def load? (r : Ram) (address : UInt16) (data : List UInt8) : Option Ram :=
  if r.size = 0 ∧ data ≠ [] then none else some (r.load address data)

instance : Memory Ram where
  read := read
  afterRead r _ := r
  write := write
  writeNotice? _ _ _ := none

/-! ## What the operations do to the size and to each byte -/

theorem memory_read (r : Ram) (address : UInt16) : Memory.read r address = r.read address := rfl

@[simp] theorem size_ofSize (size : Nat) : (ofSize size).size = size := by
  simp [ofSize, Ram.size]

@[simp] theorem size_write (r : Ram) (address : UInt16) (data : UInt8) :
    (r.write address data).size = r.size := by
  simp [write, size]

@[simp] theorem size_load (r : Ram) (address : UInt16) (data : List UInt8) :
    (r.load address data).size = r.size := by
  induction data generalizing r address with
  | nil => rfl
  | cons byte rest ih => simp [load, ih]

/-- A read after a write: the byte written, wherever the two addresses meet
modulo the size, and the old byte elsewhere. -/
theorem read_write (r : Ram) (h : 0 < r.size) (a b : UInt16) (data : UInt8) :
    (r.write a data).read b = if r.index a = r.index b then data else r.read b := by
  have hb : r.index b < r.bytes.size := Nat.mod_lt _ h
  simp only [read, write, index, size, Array.size_setIfInBounds] at hb ⊢
  rw [Array.getD_eq_getD_getElem?, Array.getElem?_setIfInBounds, Array.getD_eq_getD_getElem?]
  by_cases same : a.toNat % r.bytes.size = b.toNat % r.bytes.size
  · simp [same, hb]
  · simp [same]

/-! ## Memory behind every address -/

/-- Whether there is a byte of its own behind every address. -/
def IsFull (r : Ram) : Prop := r.size = 0x10000

@[simp] theorem read_full (address : UInt16) : full.read address = 0 := by
  rw [read, full, ofSize, Array.getD_eq_getD_getElem?, Array.getElem?_replicate]
  split <;> rfl

namespace IsFull

variable {r : Ram}

theorem full : full.IsFull := size_ofSize _

theorem write (h : r.IsFull) (address : UInt16) (data : UInt8) : (r.write address data).IsFull :=
  (r.size_write address data).trans h

theorem load (h : r.IsFull) (address : UInt16) (data : List UInt8) :
    (r.load address data).IsFull := (r.size_load address data).trans h

theorem size_pos (h : r.IsFull) : 0 < r.size := by
  rw [h]
  decide

/-- The address is the index of the byte. -/
theorem index_eq (h : r.IsFull) (address : UInt16) : r.index address = address.toNat := by
  rw [index, h]
  exact Nat.mod_eq_of_lt address.toNat_lt

theorem read_eq (h : r.IsFull) (address : UInt16) :
    r.read address = r.bytes.getD address.toNat 0 := by
  rw [Ram.read, h.index_eq]

/-- A write changes the byte at its address and no other. -/
theorem read_write (h : r.IsFull) (a b : UInt16) (data : UInt8) :
    (r.write a data).read b = if a = b then data else r.read b := by
  rw [Ram.read_write r h.size_pos, h.index_eq, h.index_eq]
  simp only [UInt16.toNat_inj]

end IsFull

end Ram

end VideoComputer
