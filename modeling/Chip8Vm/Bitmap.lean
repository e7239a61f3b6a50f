/-!
# Chip8Vm.Bitmap

The picture: `w` times `h` pixels that are lit or dark, row by row.

The size is part of the type, so that two pictures that can be compared have
the same shape.  A pixel is found by one number, row by row; a coordinate whose
number lies past the last pixel has none.
-/

namespace Chip8Vm

/-- A picture of `w` columns and `h` rows. -/
structure Bitmap (w h : Nat) where
  cells : Vector Bool (w * h)
  deriving DecidableEq

namespace Bitmap

variable {w h : Nat}

/-- One more than the most pixels that a picture can have. -/
def sizeBound : Nat := 0x8000000000000000

def isSize (w h : Nat) : Bool := w * h < sizeBound

def blank (w h : Nat) : Bitmap w h := ⟨Vector.replicate (w * h) false⟩

/-! ## Pixels -/

/-- The number of a pixel, counted row by row. -/
def index (w x y : Nat) : Nat := y * w + x

/-- Is the pixel lit?  There is no answer past the last pixel. -/
def get? (b : Bitmap w h) (x y : Nat) : Option Bool := b.cells[index w x y]?

/-- Light the pixel or make it dark, unless its number is past the last. -/
def set? (b : Bitmap w h) (x y : Nat) (lit : Bool) : Option (Bitmap w h) :=
  if hi : index w x y < w * h then some ⟨b.cells.set (index w x y) lit⟩ else none

def isLit (b : Bitmap w h) (p : Nat × Nat) : Bool := (b.get? p.1 p.2).getD false

def light (b : Bitmap w h) (p : Nat × Nat) : Bitmap w h :=
  if hi : index w p.1 p.2 < w * h then ⟨b.cells.set (index w p.1 p.2) true⟩ else b

/-- Light a dark pixel and make a lit one dark; nothing past the last pixel. -/
def flip (b : Bitmap w h) (p : Nat × Nat) : Bitmap w h :=
  if hi : index w p.1 p.2 < w * h then
    ⟨b.cells.set (index w p.1 p.2) (!b.cells[index w p.1 p.2])⟩
  else
    b

/-- Every coordinate of the picture, row by row; rows without columns have none. -/
def coordinates (w h : Nat) : List (Nat × Nat) :=
  if w = 0 then []
  else (List.range h).flatMap fun y => (List.range w).map fun x => (x, y)

def lit (b : Bitmap w h) : List (Nat × Nat) := (coordinates w h).filter b.isLit

/-! ## Text -/

def trimEnd (line : List Char) : List Char :=
  (line.reverse.dropWhile (· == ' ')).reverse

/-- A row of the picture: `o` for lit, a space for dark, nothing after the last
lit pixel. -/
def rowText (b : Bitmap w h) (y : Nat) : List Char :=
  trimEnd ((List.range w).map fun x => if b.isLit (x, y) then 'o' else ' ')

/-- The picture as text, a line for every row.  A picture without columns has no
lines. -/
def text (b : Bitmap w h) : String :=
  if w = 0 then ""
  else String.ofList ((List.range h).flatMap fun y => b.rowText y ++ ['\n'])

end Bitmap

end Chip8Vm
