/-
VideoComputer.Video.Color — pixels and the colors a color register stands for.

A color register has seven wired bits: four choose a hue and three its
luminance. Bit 0 is not wired, so two neighbouring register values show the
same color.
-/

namespace VideoComputer

/-- A color as the host shows it. -/
structure Pixel where
  red : UInt8
  green : UInt8
  blue : UInt8
  deriving DecidableEq, Repr, Inhabited

namespace Pixel

/-- No light. -/
def black : Pixel := ⟨0, 0, 0⟩

/-- Full light. -/
def white : Pixel := ⟨0xFF, 0xFF, 0xFF⟩

/-- The pixel packed into the low 24 bits of a number, red highest
(`from_hex`). -/
def ofPacked (rgb : UInt32) : Pixel where
  red := (rgb >>> 16).toUInt8
  green := (rgb >>> 8).toUInt8
  blue := rgb.toUInt8

/-- The colors of a television for sixty frames a second: sixteen hues, a row
each, in eight luminances. -/
def palette : Vector Pixel 128 :=
  #v[
    0x000000, 0x404040, 0x6C6C6C, 0x909090, 0xB0B0B0, 0xC8C8C8, 0xDCDCDC, 0xECECEC,
    0x444400, 0x646410, 0x848424, 0xA0A034, 0xB8B840, 0xD0D050, 0xE8E85C, 0xFCFC68,
    0x702800, 0x844414, 0x985C28, 0xAC783C, 0xBC8C4C, 0xCCA05C, 0xDCB468, 0xECC878,
    0x841800, 0x983418, 0xAC5030, 0xC06848, 0xD0805C, 0xE09470, 0xECA880, 0xFCBC94,
    0x880000, 0x9C2020, 0xB03C3C, 0xC05858, 0xD07070, 0xE08888, 0xECA0A0, 0xFCB4B4,
    0x78005C, 0x8C2074, 0xA03C88, 0xB0589C, 0xC070B0, 0xD084C0, 0xDC9CD0, 0xECB0E0,
    0x480078, 0x602090, 0x783CA4, 0x8C58B8, 0xA070CC, 0xB484DC, 0xC49CEC, 0xD4B0FC,
    0x140084, 0x302098, 0x4C3CAC, 0x6858C0, 0x7C70D0, 0x9488E0, 0xA8A0EC, 0xBCB4FC,
    0x000088, 0x1C209C, 0x3840B0, 0x505CC0, 0x6874D0, 0x7C8CE0, 0x90A4EC, 0xA4B8FC,
    0x00187C, 0x1C3890, 0x3854A8, 0x5070BC, 0x6888CC, 0x7C9CDC, 0x90B4EC, 0xA4C8FC,
    0x002C5C, 0x1C4C78, 0x386890, 0x5084AC, 0x689CC0, 0x7CB4D4, 0x90CCE8, 0xA4E0FC,
    0x003C2C, 0x1C5C48, 0x387C64, 0x509C80, 0x68B494, 0x7CD0AC, 0x90E4C0, 0xA4FCD4,
    0x003C00, 0x205C20, 0x407C40, 0x5C9C5C, 0x74B474, 0x8CD08C, 0xA4E4A4, 0xB8FCB8,
    0x143800, 0x345C1C, 0x507C38, 0x6C9850, 0x84B468, 0x9CCC7C, 0xB4E490, 0xC8FCA4,
    0x2C3000, 0x4C501C, 0x687034, 0x848C4C, 0x9CA864, 0xB4C078, 0xCCD488, 0xE0EC9C,
    0x442800, 0x644818, 0x846830, 0xA08444, 0xB89C58, 0xD0B46C, 0xE8CC7C, 0xFCE08C
  ].map ofPacked

/-- The color a color register shows. -/
def ofColor (color : UInt8) : Pixel :=
  have : color.toNat / 2 < 128 := by have := color.toNat_lt; omega
  palette[color.toNat / 2]

end Pixel

end VideoComputer
