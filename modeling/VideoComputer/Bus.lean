/-
VideoComputer.Bus — the chips around the processor, and what its reads and writes
do to them.

The decoders say which device an address selects. RAM and the rest of the I/O chip
are one chip, which decodes the address once more; so does the video chip, with one
table for its input ports and others for its collision registers and for writes.
-/
import VideoComputer.Cartridge
import VideoComputer.Decoder
import VideoComputer.Riot.Chip
import VideoComputer.Video.Write

namespace VideoComputer

/-- The chips around the processor. -/
structure Bus where
  tia : Tia
  riot : Riot
  cartridge : Option Cartridge

namespace Bus

/-- All chips at power-on and the cartridge slot empty. -/
def powerOn : Bus := ⟨.powerOn, .powerOn, none⟩

/-- Puts a cartridge into the slot (`insert_cartridge`). -/
def insert (c : Cartridge) : Bus → Bus
  | ⟨tia, riot, _⟩ => ⟨tia, riot, some c⟩

/-- Resets both chips. -/
def reset : Bus → Bus
  | ⟨tia, riot, cartridge⟩ => ⟨tia.reset, riot.reset, cartridge⟩

/-! ## Access -/

/-- The byte a read yields. An empty cartridge slot reads 0. -/
def read (b : Bus) (address : UInt16) : UInt8 :=
  match Device.decodeRead (Device.wired address) with
  | .ram | .riot => b.riot.read (Device.wired address)
  | .tiaInputs => b.tia.readInput (Device.wired address)
  | .tia => b.tia.read (Device.wired address)
  | .cartridge =>
    match b.cartridge with
    | some c => c.read (Device.wired address)
    | none => 0

/-- The chips after a read: only the I/O chip can tell. -/
def afterRead (b : Bus) (address : UInt16) : Bus :=
  match Device.decodeRead (Device.wired address) with
  | .ram | .riot => { b with riot := b.riot.afterRead (Device.wired address) }
  | .tiaInputs | .tia | .cartridge => b

/-- The chips after a write. A write that goes to no chip is lost. -/
def write (address : UInt16) (data : UInt8) : Bus → Bus
  | ⟨tia, riot, cartridge⟩ =>
    match Device.decodeWrite (Device.wired address) with
    | .ram | .riot => ⟨tia, riot.write (Device.wired address) data, cartridge⟩
    | .tia => ⟨tia.write (Device.wired address) data, riot, cartridge⟩
    | .tiaInputs | .cartridge => ⟨tia, riot, cartridge⟩

/-- No read takes the cartridge out. -/
@[simp] theorem cartridge_afterRead (b : Bus) (address : UInt16) :
    (b.afterRead address).cartridge = b.cartridge := by
  unfold afterRead
  split <;> rfl

/-- No write takes the cartridge out. -/
@[simp] theorem cartridge_write (b : Bus) (address : UInt16) (data : UInt8) :
    (b.write address data).cartridge = b.cartridge := by
  obtain ⟨tia, riot, cartridge⟩ := b
  unfold write
  simp only
  split <;> rfl

/-- What there is to report about a write. -/
def writeNotice? (address : UInt16) (data : UInt8) : Option Notice :=
  match Device.decodeWrite (Device.wired address) with
  | .ram | .riot => Riot.writeNotice? (Device.wired address) data
  | .tia => Tia.writeNotice? (Device.wired address)
  | .tiaInputs => some (.writeIgnored .tiaInputs (Device.wired address) data)
  | .cartridge => some (.writeIgnored .cartridge (Device.wired address) data)

instance : Memory Bus where
  read := read
  afterRead := afterRead
  write b address data := b.write address data
  writeNotice? _ := writeNotice?

end Bus

end VideoComputer
