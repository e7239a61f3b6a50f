import Chip8Vm.Bitmap

/-!
# Chip8Vm.Bitmap.Sprite

Drawing sprites.

A sprite is a list of bytes, one row of eight pixels each, and at most fifteen
of them count.  Its origin is brought onto the picture once, by one of two
rules; what then still lies past the right or the bottom edge is cut off.
Drawing flips every pixel under a set bit, and a flipped pixel that was lit is a
collision.
-/

namespace Chip8Vm

/-- How the origin of a sprite is brought onto the picture. -/
inductive OriginWrap where
  /-- Modulo the dimension less one: the last column and row count as the first. -/
  | inherited
  /-- Modulo the dimension. -/
  | modulo
  deriving DecidableEq, Repr, Inhabited

def OriginWrap.apply (wrap : OriginWrap) (origin dimension : Nat) : Nat :=
  match wrap with
  | inherited => origin % max (dimension - 1) 1
  | modulo => origin % max dimension 1

namespace Sprite

def maxRows : Nat := 15

/-- Is the bit of a row at a column set?  Column zero is the highest bit. -/
def bit (row : UInt8) (col : Nat) : Bool := row.toNat.testBit (7 - col)

/-- The offsets of the set bits from the origin, row by row. -/
def offsets (sprite : List UInt8) : List (Nat × Nat) :=
  (sprite.take maxRows).zipIdx.flatMap fun (row, r) =>
    ((List.range 8).filter (bit row)).map fun c => (c, r)

/-- The coordinates under the set bits of a sprite drawn from (`ox`, `oy`), as
far as they lie on a picture of `w` times `h`. -/
def pixels (w h ox oy : Nat) (sprite : List UInt8) : List (Nat × Nat) :=
  ((offsets sprite).map fun o => (ox + o.1, oy + o.2)).filter fun p => p.1 < w && p.2 < h

end Sprite

/-- Draw a sprite at an origin; was a lit pixel made dark? -/
def Bitmap.blit {w h : Nat} (b : Bitmap w h) (wrap : OriginWrap) (x y : Nat)
    (sprite : List UInt8) : Bool × Bitmap w h :=
  let touched := Sprite.pixels w h (wrap.apply x w) (wrap.apply y h) sprite
  let collision := touched.any b.isLit
  (collision, touched.foldl Bitmap.flip b)

def Sprite.rowBound : Nat := 0x10000000000000000

/-- The same, unless a row of the sprite has no number. -/
def Bitmap.blit? {w h : Nat} (b : Bitmap w h) (wrap : OriginWrap) (x y : Nat)
    (sprite : List UInt8) : Option (Bool × Bitmap w h) :=
  if wrap.apply y h + (sprite.take Sprite.maxRows).length ≤ Sprite.rowBound then
    some (b.blit wrap x y sprite)
  else none

end Chip8Vm
