import Chip8Vm.Bitmap

/-!
# Chip8Vm.Terminal.Grid

A rectangle of character cells.
-/

namespace Chip8Vm.Terminal

/-- Cells row by row; a space is a cell in which nothing was ever drawn. -/
structure Grid where
  cols : Nat
  rows : Nat
  cells : Array Char
  deriving DecidableEq

namespace Grid

def blank (cols rows : Nat) : Grid := ⟨cols, rows, Array.replicate (cols * rows) ' '⟩

def has (g : Grid) (p : Nat × Nat) : Bool := p.1 < g.cols && p.2 < g.rows

def get (g : Grid) (p : Nat × Nat) : Char :=
  if g.has p then g.cells.getD (p.2 * g.cols + p.1) ' ' else ' '

def put (g : Grid) (p : Nat × Nat) (c : Char) : Grid :=
  if g.has p then { g with cells := g.cells.setIfInBounds (p.2 * g.cols + p.1) c } else g

/-- Another grid laid onto this one at the top left. -/
def overlay (g top : Grid) : Grid :=
  (Bitmap.coordinates top.cols top.rows).foldl (fun g p => g.put p (top.get p)) g

/-- The part of a grid that fits into another size, with nothing drawn in the
rest. -/
def resize (g : Grid) (cols rows : Nat) : Grid :=
  ⟨cols, rows, Array.ofFn fun i : Fin (cols * rows) => g.get (i.val % cols, i.val / cols)⟩

/-- The cells of a grid in another size, row by row as they come. -/
def recut (g : Grid) (cols rows : Nat) : Grid :=
  ⟨cols, rows, Array.ofFn fun i : Fin (cols * rows) => g.cells.getD i.val ' '⟩

def rowText (g : Grid) (y : Nat) : String :=
  let cs := (List.range g.cols).map fun x => g.get (x, y)
  String.ofList (cs.reverse.dropWhile (· == ' ')).reverse

def texts (g : Grid) : List String :=
  (((List.range g.rows).map g.rowText).reverse.dropWhile (· == "")).reverse

end Grid

end Chip8Vm.Terminal
