/-
VideoComputer.Decoder — which device answers to an address.

The processor has thirteen address lines. Each device looks at a few of them, so
everything appears many times in the address space. A device is selected when the
lines it looks at carry certain levels (`Select`), and the decoder asks one device
after the other. Reads and writes each have a decoder: on a read, the input ports of
the video chip are told from its collision registers, and the order in which the
devices are asked is not the same.
-/
namespace VideoComputer

/-- What an address can select. RAM is a part of the I/O chip, and the input ports
are a part of the video chip. -/
inductive Device where
  | ram
  | riot
  | tiaInputs
  | tia
  | cartridge
  deriving DecidableEq, Repr

/-- The address lines a device looks at, and what selects it there. -/
structure Select where
  lines : UInt16
  levels : UInt16

namespace Select

/-- Whether an address selects. -/
def Matches (s : Select) (address : UInt16) : Prop := address &&& s.lines = s.levels

instance (s : Select) (address : UInt16) : Decidable (s.Matches address) :=
  inferInstanceAs (Decidable (address &&& s.lines = s.levels))

/-- Line 12 low, line 9 low, line 7 high. -/
def ram : Select := ⟨0x1280, 0x0080⟩

/-- Line 12 low, line 9 high, line 7 high. -/
def riot : Select := ⟨0x1280, 0x0280⟩

/-- Line 12 low, line 7 low, line 3 high. -/
def tiaInputs : Select := ⟨0x1088, 0x0008⟩

/-- Line 12 low, line 7 low. -/
def tia : Select := ⟨0x1080, 0x0000⟩

end Select

namespace Device

/-- The lowest thirteen bits of an address, which reach the devices. -/
def wired (address : UInt16) : UInt16 := address &&& 0x1FFF

/-- The device that answers to a read (`decode_read`). -/
def decodeRead (address : UInt16) : Device :=
  if Select.ram.Matches address then .ram
  else if Select.riot.Matches address then .riot
  else if Select.tiaInputs.Matches address then .tiaInputs
  else if Select.tia.Matches address then .tia
  else .cartridge

/-- The device that a write goes to (`decode_write`). -/
def decodeWrite (address : UInt16) : Device :=
  if Select.ram.Matches address then .ram
  else if Select.tia.Matches address then .tia
  else if Select.riot.Matches address then .riot
  else .cartridge

/-- The name of a device in notices. -/
def name : Device → String
  | .ram => "Ram"
  | .riot => "Riot"
  | .tiaInputs => "TiaInputs"
  | .tia => "Tia"
  | .cartridge => "Cartridge"

end Device

end VideoComputer
