/-
VideoComputer.Memory.Traffic — memory that remembers how it was accessed.

`Traffic M` behaves as the memory `M` inside it and keeps every access in
order, under the address that was put out, before any decoding or wrapping.
-/
import VideoComputer.Memory.Basic

namespace VideoComputer

/-- One access: its address and the byte that was read or written. -/
inductive Access where
  | read (address : UInt16) (data : UInt8)
  | write (address : UInt16) (data : UInt8)
  deriving DecidableEq, Repr

/-- Memory together with the accesses made to it, oldest first. -/
structure Traffic (M : Type) where
  memory : M
  accesses : Array Access

namespace Traffic

variable {M : Type}

/-- Memory that has not been accessed yet. -/
def watch (memory : M) : Traffic M := ⟨memory, ∅⟩

/-- The same memory with its record emptied. -/
def forget (t : Traffic M) : Traffic M := { t with accesses := ∅ }

instance [Memory M] : Memory (Traffic M) where
  read t address := Memory.read t.memory address
  afterRead t address :=
    let data := Memory.read t.memory address
    { memory := Memory.afterRead t.memory address
      accesses := t.accesses.push (.read address data) }
  write t address data :=
    { memory := Memory.write t.memory address data
      accesses := t.accesses.push (.write address data) }
  writeNotice? t address data := Memory.writeNotice? t.memory address data

end Traffic

end VideoComputer
