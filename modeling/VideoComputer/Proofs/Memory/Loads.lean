/-
VideoComputer.Proofs.Memory.Loads — rows of bytes of any length, in memory of any size.

A load counts the bytes of its row, and the address of a byte wraps twice: the count is
added to the start in 16 bits, and of the sum the remainder by the size is taken. Unless
the size divides 65536 that is not one wrap, since behind `$FFFF` the row goes on at
index 0, wherever it was. So bytes of a row can meet at one index even if the row is
shorter than the memory, and the last of them stays.

* `checkedRead`, `checkedWrite`, `checkedLoad` — accesses that fail if an index is out of
  range.
* `checkedLoad_eq` — they fail in memory without bytes only.
* `places` — the bytes of a row that go where an address leads.
* `load_wraps_twice` — what a load leaves.
-/
import Mathlib.Data.List.Induction
import Mathlib.Data.Set.Basic
import Mathlib.Order.Bounds.Defs
import VideoComputer.Memory.Ram

namespace VideoComputer.Ram

variable {r : Ram} {start address : UInt16} {byte : UInt8} {data : List UInt8}

/-! ## Rows -/

theorem add_ofNat_succ (start : UInt16) (i : Nat) :
    start + UInt16.ofNat (i + 1) = start + 1 + UInt16.ofNat i := by
  rw [Nat.add_comm, UInt16.ofNat_add, ← UInt16.add_assoc]
  rfl

theorem load_concat (r : Ram) (start : UInt16) (data : List UInt8) (byte : UInt8) :
    r.load start (data ++ [byte])
      = (r.load start data).write (start + UInt16.ofNat data.length) byte := by
  induction data generalizing r start with
  | nil =>
    have hstart : start + UInt16.ofNat 0 = start := UInt16.add_zero _
    rw [List.nil_append, List.length_nil, hstart, load, load, load]
  | cons first data ih =>
    rw [List.cons_append, load, ih, load, List.length_cons, add_ofNat_succ]

/-! ## Access with its checks -/

/-- The index of the byte behind an address. There is no remainder by zero. -/
def index? (r : Ram) (address : UInt16) : Option Nat :=
  if r.size = 0 then none else some (address.toNat % r.size)

/-- The byte behind an address, if its index is in range. -/
def checkedRead (r : Ram) (address : UInt16) : Option UInt8 :=
  (r.index? address).bind fun i => r.bytes[i]?

/-- Replaces the byte behind an address, if its index is in range. -/
def checkedWrite (r : Ram) (address : UInt16) (data : UInt8) : Option Ram :=
  (r.index? address).bind fun i =>
    if h : i < r.bytes.size then some ⟨r.bytes.set i data h⟩ else none

/-- Writes one byte after another, each as far behind the start as there were bytes before
it. The count is cut down to 16 bits, and all indices have to be in range. -/
def checkedLoad (r : Ram) (start : UInt16) (data : List UInt8) : Option Ram :=
  data.zipIdx.foldlM (fun r (byte, count) => r.checkedWrite (start + UInt16.ofNat count) byte) r

theorem index_lt (h : r.size ≠ 0) (address : UInt16) : r.index address < r.bytes.size :=
  Nat.mod_lt _ (Nat.pos_of_ne_zero h)

theorem index?_of_ne_zero (h : r.size ≠ 0) (address : UInt16) :
    r.index? address = some (r.index address) := if_neg h

/-- Indexing the bytes is what fails when a read fails, -/
theorem checkedRead_eq (r : Ram) (address : UInt16) : r.checkedRead address = r.read? address := by
  unfold checkedRead read?
  split
  case isTrue h => rw [index?, if_pos h, Option.bind_none]
  case isFalse h =>
    rw [index?_of_ne_zero h, Option.bind_some, Array.getElem?_eq_getElem (index_lt h address), read,
      Array.getD_eq_getD_getElem?, Array.getElem?_eq_getElem (index_lt h address), Option.getD_some]

/-- and a write. -/
theorem checkedWrite_eq (r : Ram) (address : UInt16) (data : UInt8) :
    r.checkedWrite address data = r.write? address data := by
  unfold checkedWrite write?
  split
  case isTrue h => rw [index?, if_pos h, Option.bind_none]
  case isFalse h =>
    rw [index?_of_ne_zero h, Option.bind_some, dif_pos (index_lt h address), write,
      Array.setIfInBounds, dif_pos (index_lt h address)]

theorem checkedLoad_concat (r : Ram) (start : UInt16) (data : List UInt8) (byte : UInt8) :
    r.checkedLoad start (data ++ [byte])
      = (r.checkedLoad start data).bind fun r' =>
          r'.checkedWrite (start + UInt16.ofNat data.length) byte := by
  rw [checkedLoad, List.zipIdx_append, List.foldlM_append]
  simp [checkedLoad]

/-- Only memory without bytes has none for a load. -/
theorem checkedLoad_eq (r : Ram) (start : UInt16) (data : List UInt8) :
    r.checkedLoad start data = r.load? start data := by
  induction data using List.reverseRecOn with
  | nil => simp [checkedLoad, load?, load]
  | append_singleton data byte ih =>
    rw [checkedLoad_concat, ih, load?, load?]
    by_cases h : r.size = 0
    · cases data <;> simp [checkedWrite_eq, write?, load, h]
    · simp [checkedWrite_eq, write?, h, load_concat]

/-! ## Two wraps -/

/-- A byte of a row is behind an address of 16 bits, at an index below the size. -/
theorem index_add (r : Ram) (start : UInt16) (i : Nat) :
    r.index (start + UInt16.ofNat i) = (start.toNat + i) % 0x10000 % r.size := by
  rw [index, UInt16.toNat_add, UInt16.toNat_ofNat', Nat.add_mod_mod]

/-- The places of the bytes in a row that go where an address leads. -/
def places (r : Ram) (start : UInt16) (length : Nat) (address : UInt16) : Set Nat :=
  {i | i < length ∧ (start.toNat + i) % 0x10000 % r.size = address.toNat % r.size}

theorem mem_places {length i : Nat} :
    i ∈ r.places start length address
      ↔ i < length ∧ r.index (start + UInt16.ofNat i) = r.index address := by
  rw [index_add]
  rfl

/-- The last byte of a row goes over what the others left. -/
theorem read_load_concat (h : 0 < r.size) :
    (r.load start (data ++ [byte])).read address
      = if (start.toNat + data.length) % 0x10000 % r.size = address.toNat % r.size then byte
        else (r.load start data).read address := by
  rw [load_concat, read_write _ (by rwa [size_load]), index_add, index, size_load]

/-- Where no byte of a row goes, memory is as it was. -/
theorem read_load_of_places_eq_empty (h : 0 < r.size)
    (hnone : r.places start data.length address = ∅) :
    (r.load start data).read address = r.read address := by
  induction data using List.reverseRecOn with
  | nil => rfl
  | append_singleton data byte ih =>
    rw [Set.eq_empty_iff_forall_notMem, List.length_append] at hnone
    have hlast : ¬ (start.toNat + data.length) % 0x10000 % r.size = address.toNat % r.size :=
      fun hmeets => hnone data.length ⟨Nat.lt_succ_self _, hmeets⟩
    rw [read_load_concat h, if_neg hlast]
    apply ih
    rw [Set.eq_empty_iff_forall_notMem]
    rintro i ⟨hi, hmeets⟩
    exact hnone i ⟨Nat.lt_succ_of_lt hi, hmeets⟩

/-- Of the bytes that go to one index the last one stays. -/
theorem read_load_of_isGreatest (h : 0 < r.size) {i : Nat}
    (hi : IsGreatest (r.places start data.length address) i) :
    data[i]? = some ((r.load start data).read address) := by
  -- from the end of the row: either its last byte goes there, or the row is one byte shorter
  induction data using List.reverseRecOn with
  | nil => exact absurd hi.1.1 (Nat.not_lt_zero i)
  | append_singleton data byte ih =>
    obtain ⟨⟨hlt, hmeets⟩, hmax⟩ := hi
    rw [List.length_append, List.length_singleton] at hlt hmax
    rw [read_load_concat h]
    split
    case isTrue hlast =>
      have hle : data.length ≤ i := hmax ⟨Nat.lt_succ_self _, hlast⟩
      obtain rfl : i = data.length := Nat.le_antisymm (Nat.le_of_lt_succ hlt) hle
      exact List.getElem?_concat_length
    case isFalse hlast =>
      have hbefore : i < data.length := by
        refine Nat.lt_of_le_of_ne (Nat.le_of_lt_succ hlt) ?_
        rintro rfl
        exact hlast hmeets
      rw [List.getElem?_append_left hbefore]
      exact ih ⟨⟨hbefore, hmeets⟩, fun j hj => hmax ⟨Nat.lt_succ_of_lt hj.1, hj.2⟩⟩

/-- A load of any row into memory of any size, with all accesses in range: the size stays,
and behind each address there is the byte of the last place that both wraps take there, or
what was there before if there is no such place. -/
theorem load_wraps_twice (r : Ram) (h : 0 < r.size) (start : UInt16) (data : List UInt8) :
    r.checkedLoad start data = some (r.load start data)
      ∧ (r.load start data).size = r.size
      ∧ ∀ address : UInt16,
          (r.load start data).checkedRead address = some ((r.load start data).read address)
          ∧ (∀ i, IsGreatest (r.places start data.length address) i →
              data[i]? = some ((r.load start data).read address))
          ∧ (r.places start data.length address = ∅ →
              (r.load start data).read address = r.read address) := by
  have hne : r.size ≠ 0 := Nat.ne_of_gt h
  refine ⟨?_, size_load r start data, fun address => ⟨?_, fun i hi => ?_, fun hnone => ?_⟩⟩
  · rw [checkedLoad_eq, load?, if_neg (fun hempty => hne hempty.1)]
  · rw [checkedRead_eq, read?, size_load, if_neg hne]
  · exact read_load_of_isGreatest h hi
  · exact read_load_of_places_eq_empty h hnone

/-- In a memory of 7 bytes a row starts at `$FFFF`, which is index 1, and goes on at 0 and
1: the third byte goes over the first, behind each address of that index, and index 5 is
left alone. -/
theorem load_wraps_twice_sevenBytes :
    let r := (ofSize 7).write 5 0xAA
    0 < r.size
      ∧ r.checkedLoad 0xFFFF [0x11, 0x22, 0x33] = some (r.load 0xFFFF [0x11, 0x22, 0x33])
      ∧ IsGreatest (r.places 0xFFFF 3 8) 2
      ∧ (r.load 0xFFFF [0x11, 0x22, 0x33]).read 8 = 0x33
      ∧ (r.load 0xFFFF [0x11, 0x22, 0x33]).read 5 = 0xAA := by
  intro r
  have h : 0 < r.size := by decide
  obtain ⟨hloads, -, hreads⟩ := load_wraps_twice r h 0xFFFF [0x11, 0x22, 0x33]
  have hlast : IsGreatest (r.places 0xFFFF 3 8) 2 :=
    ⟨⟨by decide, by decide⟩, fun i hi => Nat.le_of_lt_succ hi.1⟩
  refine ⟨h, hloads, hlast, ?_, ?_⟩
  · obtain ⟨-, hread, -⟩ := hreads 8
    exact (Option.some_inj.mp (hread 2 hlast)).symm
  · obtain ⟨-, -, hkept⟩ := hreads 5
    have hnone : r.places 0xFFFF 3 5 = ∅ := by
      rw [Set.eq_empty_iff_forall_notMem]
      rintro i ⟨hi, hmeets⟩
      revert i
      decide
    exact (hkept hnone).trans (by decide)

end VideoComputer.Ram
