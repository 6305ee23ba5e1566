/-
VideoComputer.Proofs.Memory.Contents — bytes in a row in memory.

A program is a row of bytes from some address on, around the end of memory if it must
be. `Ram.Holds` says that they are there. To write elsewhere leaves them there, and to
load them puts them there, if there are no more of them than there are addresses.

* `Ram.Holds`, `Ram.Covers` — the row, and the addresses that it takes.
* `IsFull.read_load` — what a load leaves.
-/
import VideoComputer.Proofs.Memory.Loads

namespace VideoComputer.Ram

/-- The addresses of so many bytes in a row. -/
def Covers (start : UInt16) (length : Nat) (address : UInt16) : Prop :=
  ∃ i < length, start + UInt16.ofNat i = address

instance (start : UInt16) (length : Nat) (address : UInt16) :
    Decidable (Covers start length address) :=
  inferInstanceAs (Decidable (∃ i < length, start + UInt16.ofNat i = address))

/-- The memory has these bytes in a row, from an address on. -/
def Holds (r : Ram) (start : UInt16) (bytes : List UInt8) : Prop :=
  ∀ i (h : i < bytes.length), r.read (start + UInt16.ofNat i) = bytes[i]

variable {r : Ram} {start address : UInt16} {byte : UInt8} {bytes : List UInt8} {length : Nat}

/-- What lies behind some bytes of a row lies in the row. -/
theorem Covers.of_behind {before : Nat} (h : Covers (start + UInt16.ofNat before) length address) :
    Covers start (before + length) address := by
  obtain ⟨i, hi, rfl⟩ := h
  exact ⟨before + i, by omega, by rw [UInt16.ofNat_add, UInt16.add_assoc]⟩

/-- The place of an address in a row is its distance from the start. -/
theorem toNat_sub_start {i : Nat} (hi : i < 0x10000) :
    (start + UInt16.ofNat i - start).toNat = i := by
  rw [UInt16.add_comm, UInt16.add_sub_cancel, UInt16.toNat_ofNat']
  exact Nat.mod_eq_of_lt hi

theorem covers_iff (hlength : length ≤ 0x10000) :
    Covers start length address ↔ (address - start).toNat < length := by
  constructor
  · rintro ⟨i, hi, rfl⟩
    rwa [toNat_sub_start (by omega)]
  · intro h
    refine ⟨_, h, ?_⟩
    rw [UInt16.ofNat_toNat, UInt16.add_comm, UInt16.sub_add_cancel]

@[simp] theorem holds_nil : r.Holds start [] := by
  intro i hi
  cases hi

@[simp] theorem holds_cons :
    r.Holds start (byte :: bytes) ↔ r.read start = byte ∧ r.Holds (start + 1) bytes := by
  constructor
  · intro h
    refine ⟨?_, fun i hi => ?_⟩
    · have hfirst := h 0 (by simp)
      have hstart : start + UInt16.ofNat 0 = start := UInt16.add_zero _
      rwa [hstart, List.getElem_cons_zero] at hfirst
    · rw [← add_ofNat_succ]
      exact h (i + 1) (by simpa using hi)
  · rintro ⟨hbyte, hbytes⟩ i hi
    cases i with
    | zero => simpa using hbyte
    | succ i =>
      rw [add_ofNat_succ]
      exact hbytes i (by simpa using hi)

/-- Two rows one behind the other. -/
theorem Holds.append {bytes' : List UInt8} (h : r.Holds start (bytes ++ bytes')) :
    r.Holds start bytes ∧ r.Holds (start + UInt16.ofNat bytes.length) bytes' := by
  constructor
  · intro i hi
    rw [h i (by simp; omega), List.getElem_append_left hi]
  · intro i hi
    rw [UInt16.add_assoc, ← UInt16.ofNat_add, h (bytes.length + i) (by simpa using hi)]
    simp

/-- What leaves the addresses of a row alone leaves the row. -/
theorem Holds.of_agree (h : r.Holds start bytes) {r' : Ram}
    (hagree : ∀ address, Covers start bytes.length address → r'.read address = r.read address) :
    r'.Holds start bytes := by
  intro i hi
  rw [hagree _ ⟨i, hi, rfl⟩, h i hi]

namespace IsFull

theorem mem_places (hfull : r.IsFull) {i : Nat} :
    i ∈ r.places start length address ↔ i < length ∧ start + UInt16.ofNat i = address := by
  rw [Ram.mem_places, hfull.index_eq, hfull.index_eq, UInt16.toNat_inj]

/-- A load leaves everything beside it alone. -/
theorem read_load_of_not_covers (hfull : r.IsFull) (h : ¬ Covers start bytes.length address) :
    (r.load start bytes).read address = r.read address := by
  refine read_load_of_places_eq_empty hfull.size_pos (Set.eq_empty_iff_forall_notMem.mpr ?_)
  exact fun i hi => h ⟨i, hfull.mem_places.mp hi⟩

/-- A row of bytes that was loaded is there. -/
theorem holds_load (hfull : r.IsFull) (hlength : bytes.length ≤ 0x10000) :
    (r.load start bytes).Holds start bytes := by
  intro i hi
  have hlast : IsGreatest (r.places start bytes.length (start + UInt16.ofNat i)) i := by
    refine ⟨hfull.mem_places.mpr ⟨hi, rfl⟩, fun j hj => ?_⟩
    -- a row that is no longer than the address space comes to an address once
    obtain ⟨hj, hsame⟩ := hfull.mem_places.mp hj
    have hdistance : (start + UInt16.ofNat j - start).toNat = j := toNat_sub_start (by omega)
    rw [hsame, toNat_sub_start (by omega)] at hdistance
    exact Nat.le_of_eq hdistance.symm
  have hread := read_load_of_isGreatest hfull.size_pos hlast
  rw [List.getElem?_eq_getElem hi, Option.some_inj] at hread
  exact hread.symm

/-- What is read after a load: the byte of the row at this distance from its start, and
the old byte elsewhere. -/
theorem read_load (hfull : r.IsFull) (hlength : bytes.length ≤ 0x10000) :
    (r.load start bytes).read address
      = (bytes[(address - start).toNat]?).getD (r.read address) := by
  by_cases h : Covers start bytes.length address
  · have hlt := (covers_iff hlength).mp h
    have hholds : (r.load start bytes).read (start + UInt16.ofNat (address - start).toNat)
        = bytes[(address - start).toNat] := hfull.holds_load hlength _ hlt
    rw [UInt16.ofNat_toNat, UInt16.add_comm, UInt16.sub_add_cancel] at hholds
    rw [hholds, List.getElem?_eq_getElem hlt, Option.getD_some]
  · have hle : bytes.length ≤ (address - start).toNat := by
      rwa [covers_iff hlength, Nat.not_lt] at h
    rw [hfull.read_load_of_not_covers h, List.getElem?_eq_none hle, Option.getD_none]

end IsFull

end VideoComputer.Ram
