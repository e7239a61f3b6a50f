import Chip8Vm.Terminal.Canvas

/-!
# Chip8Vm.Terminal.Paint

The control sequences that bring a terminal from what one canvas shows to what
another shows.
-/

namespace Chip8Vm.Terminal

namespace Paint

def control (text : String) : String := "\x1b[" ++ text

def moveTo (p : Nat × Nat) : String :=
  control (toString (p.2 + 1) ++ ";" ++ toString (p.1 + 1) ++ "H")

def clear : String := control "0m" ++ control "2J"

def cursor (hidden : Bool) : String := control (if hidden then "?25l" else "?25h")

/-- A cell: a block in white or black, or a character on black. -/
def cell (c : Char) : String :=
  if c = Plot.litMark then control "0;97m" ++ "█"
  else if c = Plot.darkMark then control "0;30m" ++ "█"
  else if c = ' ' then control "0m" ++ " "
  else control "0;40m" ++ String.ofList [if c = Plot.bareMark then ' ' else c]

/-- The cells that differ between two grids of one size. -/
def cells (before after : Grid) : String :=
  let changed := (Bitmap.coordinates after.cols after.rows).filter fun p =>
    after.get p != before.get p
  "".intercalate (changed.map fun p => moveTo p ++ cell (after.get p))

/-- Everything that differs between two canvases. -/
def update (before after : Canvas) : String :=
  cells before.shown after.shown ++ control "0m" ++ moveTo after.cursor ++
    cursor after.cursorHidden

end Paint

end Chip8Vm.Terminal
