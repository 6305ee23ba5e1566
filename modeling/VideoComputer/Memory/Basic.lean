/-
VideoComputer.Memory.Basic — the interface between the processor and what it
is connected to.

The processor puts out a 16-bit address and reads or writes one byte. Behind
the address may be plain memory or a chip on which a read has side effects, so
a read has two results that are two functions here: the byte, and the memory
it leaves behind. Plain memory is left as it was.
-/
import VideoComputer.Notice

namespace VideoComputer

/-- Byte-wide devices behind a 16-bit address. -/
class Memory (M : Type) where
  /-- The byte a read of the address yields. -/
  read : M → UInt16 → UInt8
  /-- The device after that read. -/
  afterRead : M → UInt16 → M
  /-- The device after a write. -/
  write : M → UInt16 → UInt8 → M
  /-- What there is to report about a write, if anything. -/
  writeNotice? : M → UInt16 → UInt8 → Option Notice

end VideoComputer
