import Chip8Vm.Bitmap
import Chip8Vm.Device.Panel
import Chip8Vm.Terminal.Grid

/-!
# Chip8Vm.Terminal.Plot

Pictures as character cells.

A `Plot` follows the calls to a screen of a fixed size: pixels outside it are
ignored.  When it is drawn, every pixel of the size is either in the lit plane or
in the dark plane, and the frame around the pixels shows both.  A frame that is not
of the pixels' size shows them scaled, corner in corner; a cell is then lit if one of
its pixels is.
-/

namespace Chip8Vm.Terminal

/-- The pixels set since the last clear, on a screen of `w` times `h`, from the last to
the first. -/
structure Plot (w h : Nat) where
  pixels : List (Nat × Nat) := []
  deriving DecidableEq

namespace Plot

variable {w h : Nat}

def blank (w h : Nat) : Plot w h := {}

def apply (p : Plot w h) : ScreenCall → Plot w h
  | .clear => .blank w h
  | .pixel x y =>
    if x < w ∧ y < h then ⟨(x, y) :: p.pixels⟩ else p
  | .draw => p
  | .stop => p

def picture (p : Plot w h) : Bitmap w h := p.pixels.foldl Bitmap.light (.blank w h)

def lit (p : Plot w h) : List (Nat × Nat) := p.picture.lit

def dark (p : Plot w h) : List (Nat × Nat) :=
  let picture := p.picture
  (Bitmap.coordinates w h).filter fun c => !picture.isLit c

/-! ## The frame -/

/-- The character of a cell whose pixel is lit. -/
def litMark : Char := '#'

/-- The character of a cell whose pixel is dark. -/
def darkMark : Char := '.'

/-- The character of a cell inside the frame in which no pixel is painted. -/
def bareMark : Char := '~'

/-- The title in the top edge. -/
def title : List Char := "CHIP-8".toList

/-- A row of the frame between two characters. -/
def frameRow (first last : Char) (inside : List Char) : List Char := first :: inside ++ [last]

/-- A frame of a size, with nothing painted inside. -/
def emptyFrame (cols rows : Nat) : Grid :=
  let edge := List.replicate (cols - 2) '─'
  let name := title.take (cols - 2)
  let top := frameRow '┌' '┐' (name ++ edge.drop name.length)
  let middle := frameRow '│' '│' (List.replicate (cols - 2) bareMark)
  let bottom := frameRow '└' '┘' edge
  ⟨cols, rows, (top :: List.replicate (rows - 2) middle ++ [bottom]).flatten.toArray⟩

/-- Where a pixel is, of so many on a side that has so many cells: the first pixel is in
the first cell and the last pixel in the last. -/
def scaled (pixels cells i : Nat) : Nat := i * (cells - 1) / (pixels - 1)

def paint (w h : Nat) (mark : Char) (g : Grid) (pixels : List (Nat × Nat)) : Grid :=
  pixels.foldl
    (fun g c => g.put (scaled w (g.cols - 2) c.1 + 1, scaled h (g.rows - 2) c.2 + 1) mark) g

/-- The picture in a frame of a size.  A screen of a single row or column has nothing
painted. -/
def framed (p : Plot w h) (cols rows : Nat) : Grid :=
  let g := emptyFrame cols rows
  if w ≤ 1 ∨ h ≤ 1 then g
  else paint w h litMark (paint w h darkMark g p.dark) p.lit

end Plot

end Chip8Vm.Terminal
