/-
VideoComputer.Cartridge — a read-only memory of 2 or 4 kilobytes.

The console sees a cartridge through a window of 4 kilobytes, in which a
smaller image appears twice. Images of any other size are refused, so every
`Cartridge` has bytes to read.
-/
import VideoComputer.Failure
import VideoComputer.Notice

namespace VideoComputer

/-- A game cartridge. -/
structure Cartridge where
  name : String
  rom : Array UInt8
  /-- An image fills the window or half of it. -/
  size_eq : rom.size = 2048 ∨ rom.size = 4096
  deriving DecidableEq, Repr

namespace Cartridge

/-- The number of bytes. -/
def size (c : Cartridge) : Nat := c.rom.size

theorem size_pos (c : Cartridge) : 0 < c.rom.size := by
  have := c.size_eq
  omega

/-- The title shown to the user: the name, and the size in kilobytes. -/
def title (c : Cartridge) : String := s!"{c.name} ({c.size / 1024} kB)"

/-- The byte behind an address; twelve address bits count, and a small image
repeats. -/
def read (c : Cartridge) (address : UInt16) : UInt8 :=
  have := Nat.mod_lt (address.toNat % 4096) c.size_pos
  c.rom[address.toNat % 4096 % c.rom.size]

/-- Reported once the image of a cartridge was accepted. -/
def accepted (c : Cartridge) : Notice := .imageAccepted c.name c.size

/-! ## Images -/

/-- A cartridge from its image (`from_bytes`). -/
def ofImage (name : String) (rom : Array UInt8) : Except Failure Cartridge :=
  if size_eq : rom.size = 2048 ∨ rom.size = 4096 then .ok { name, rom, size_eq }
  else if rom.isEmpty then .error (.badCartridge name .empty)
  else .error (.badCartridge name (.unsupportedSize rom.size))

/-- The name of the file a path leads to: its last component, where empty
components and single dots do not count. A path that has none, or that ends by
going up, goes by its full text. -/
def fileName (path : String) : String :=
  let components := (path.splitOn "/").filter fun c => c != "" && c != "."
  match components.getLast? with
  | none | some ".." => path
  | some name => name

/-- A cartridge from what came of reading the file at a path (`load`). -/
def ofFile (path : String) (contents : Except FileError (Array UInt8)) :
    Except Failure Cartridge :=
  match contents with
  | .ok rom => ofImage (fileName path) rom
  | .error reason => .error (.badCartridge (fileName path) (.unreadable path reason))

end Cartridge

end VideoComputer
