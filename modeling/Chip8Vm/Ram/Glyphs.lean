import Chip8Vm.Ram

/-!
# Chip8Vm.Ram.Glyphs

The sixteen built-in pictures of the hexadecimal digits, five rows each, and
the memory a machine starts with.
-/

namespace Chip8Vm.Ram

/-- Where the glyphs start. -/
def glyphStart : UInt16 := 0x050

def glyphRows : Nat := 5

def glyphs : List UInt8 :=
  [0xF0, 0x90, 0x90, 0x90, 0xF0,
   0x20, 0x60, 0x20, 0x20, 0x70,
   0xF0, 0x10, 0xF0, 0x80, 0xF0,
   0xF0, 0x10, 0xF0, 0x10, 0xF0,
   0x90, 0x90, 0xF0, 0x10, 0x10,
   0xF0, 0x80, 0xF0, 0x10, 0xF0,
   0xF0, 0x80, 0xF0, 0x90, 0xF0,
   0xF0, 0x10, 0x20, 0x40, 0x40,
   0xF0, 0x90, 0xF0, 0x90, 0xF0,
   0xF0, 0x90, 0xF0, 0x10, 0xF0,
   0xF0, 0x90, 0xF0, 0x90, 0x90,
   0xE0, 0x90, 0xE0, 0x90, 0xE0,
   0xF0, 0x80, 0x80, 0x80, 0xF0,
   0xE0, 0x90, 0x90, 0x90, 0xE0,
   0xF0, 0x80, 0xF0, 0x80, 0xF0,
   0xF0, 0x80, 0xF0, 0x80, 0x80]

/-- The address of the glyph of a byte's low nibble. -/
def glyphAddress (digit : UInt8) : UInt16 :=
  glyphStart + UInt16.ofNat (glyphRows * (digit.toNat % 16))

/-- The memory a machine starts with: the glyphs, and zeros. -/
def initial : Ram := blank.writeAll glyphStart glyphs

/-- Sixteen glyphs of five rows. -/
theorem length_glyphs : glyphs.length = 16 * glyphRows := rfl

end Chip8Vm.Ram
