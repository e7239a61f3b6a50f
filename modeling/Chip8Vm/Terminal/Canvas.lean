import Chip8Vm.Terminal.Area
import Chip8Vm.Terminal.Plot

/-!
# Chip8Vm.Terminal.Canvas

A terminal and the display on it.

A display has a sheet of the area for the terminal's size.  To draw is to lay the
frame onto the sheet at its top left, to send the cells that differ from those drawn
before, and to take a new sheet; the cursor is then behind the last cell that was
sent.  A terminal that changed its area is cleared first, and the sheet is cut anew:
its cells keep their numbers.  A frame that does not fit, or that has no inside, is not
drawn, though its background stays on the sheet as far as it came.
-/

namespace Chip8Vm.Terminal

/-- A display on a terminal. -/
structure Display where
  width : Nat
  height : Nat
  plot : Plot width height
  /-- What was drawn last, in the area that the terminal had then. -/
  drawn : Grid
  /-- What the next frame is laid onto, in the same area. -/
  sheet : Grid
  /-- Did the display hide the cursor? -/
  hidesCursor : Bool := true

namespace Display

def ofSize (width height : Nat) (area : Area) : Display where
  width := width
  height := height
  plot := .blank width height
  drawn := .blank area.cols area.rows
  sheet := .blank area.cols area.rows

/-- Does the display know that area? -/
def knows (d : Display) (area : Area) : Bool :=
  d.drawn.cols == area.cols && d.drawn.rows == area.rows

/-- The display after the terminal took another area and was cleared. -/
def refit (d : Display) (area : Area) : Display :=
  { d with
    drawn := .blank area.cols area.rows
    sheet := d.sheet.recut area.cols area.rows }

/-! ## The frame -/

/-- One more than the longest side of a frame. -/
def sideBound : Nat := 65536

/-- The side of the frame around so many pixels.  Of more pixels than a side can have it
goes around the remainder, and there is no answer when the two edges are too much. -/
def side? (pixels : Nat) : Option Nat :=
  let side := pixels % sideBound + 2
  if side < sideBound then some side else none

/-- The area of the frame; there is none around nothing. -/
def frame? (d : Display) : Option Area :=
  if d.width = 0 ∨ d.height = 0 then none
  else
    match side? d.width, side? d.height with
    | some cols, some rows => some (.ofSize cols rows)
    | _, _ => none

/-- Can the frame be drawn?  It has an inside and fits onto the sheet. -/
def takes (d : Display) (frame : Area) : Bool :=
  2 < frame.cols && 2 < frame.rows &&
    frame.cols ≤ d.sheet.cols && frame.rows ≤ d.sheet.rows

/-- The display after its frame could not be drawn: the background was laid row by row
up to the first cell that is not on the sheet. -/
def spoil (d : Display) (frame : Area) : Display :=
  let reached := (Bitmap.coordinates frame.cols frame.rows).takeWhile d.sheet.has
  { d with sheet := reached.foldl (fun g p => g.put p Plot.bareMark) d.sheet }

end Display

structure Canvas where
  shown : Grid
  /-- Where the cursor was last put; the terminal's edges do not bound it. -/
  cursor : Nat × Nat := (0, 0)
  cursorHidden : Bool := false
  display : Option Display := none

namespace Canvas

def ofSize (cols rows : Nat) : Canvas := { shown := .blank cols rows }

def area (c : Canvas) : Area := .ofSize c.shown.cols c.shown.rows

def wipe (c : Canvas) : Canvas := { c with shown := .blank c.shown.cols c.shown.rows }

/-- A display that goes shows the cursor it hid. -/
def close (c : Canvas) : Canvas :=
  match c.display with
  | none => c
  | some d => { c with cursorHidden := c.cursorHidden && !d.hidesCursor, display := none }

/-- A new display clears the terminal and hides the cursor; only then the display before
it goes. -/
def start (c : Canvas) (width height : Nat) : Canvas :=
  { ({ c.wipe with cursorHidden := true }).close with
    display := some (.ofSize width height c.area) }

/-- The same if there is a picture of the size.  If there is none, the new display clears
the terminal and goes itself; there is no answer, and the display before it stays. -/
def start? (c : Canvas) (width height : Nat) : Option Unit × Canvas :=
  if Bitmap.isSize width height then (some (), c.start width height)
  else (none, { c.wipe with cursorHidden := false })

def resize (c : Canvas) (cols rows : Nat) : Canvas :=
  { c with shown := c.shown.resize cols rows }

/-- Clear the terminal if it has another area than the display knows. -/
def adjust (c : Canvas) (d : Display) : Canvas × Display :=
  if d.knows c.area then (c, d) else (c.wipe, d.refit c.area)

/-- Show a drawn grid: send the cells that differ from those drawn before. -/
def send (c : Canvas) (d : Display) (drawn : Grid) : Canvas :=
  let sent := (Bitmap.coordinates drawn.cols drawn.rows).filter fun p =>
    drawn.get p != d.drawn.get p
  { shown := sent.foldl (fun g p => g.put p (drawn.get p)) c.shown
    cursor := match sent.getLast? with
      | some (x, y) => (x + 1, y)
      | none => c.cursor
    cursorHidden := true
    display := some
      { d with drawn := drawn, sheet := .blank drawn.cols drawn.rows, hidesCursor := true } }

/-- Draw the frame of a display; there is no answer if it has none that can be drawn. -/
def draw (c : Canvas) (d : Display) : Option Unit × Canvas :=
  match d.frame? with
  | none => (none, c)
  | some frame =>
    let (c, d) := c.adjust d
    if d.takes frame then
      (some (), c.send d (d.sheet.overlay (d.plot.framed frame.cols frame.rows)))
    else
      (none, { c with display := some (d.spoil frame) })

/-- Can the cursor be sent to the row?  Rows are sent counted from one, as sides are. -/
def reaches (row : Nat) : Bool := row + 1 < Display.sideBound

/-- Show the cursor and put it below the frame of a display; there is no answer if it
cannot be sent there. -/
def leave (c : Canvas) (d : Display) : Option Unit × Canvas :=
  let c := { c with cursorHidden := false, display := some { d with hidesCursor := false } }
  match (Display.side? d.height).filter reaches with
  | none => (none, c)
  | some row => (some (), { c with cursor := (0, row) })

/-- Make a call to the display; there is no answer when it cannot be made, and none
without a display. -/
def call (c : Canvas) (s : ScreenCall) : Option Unit × Canvas :=
  match c.display with
  | none => (none, c)
  | some d =>
    match s with
    | .draw => c.draw d
    | .stop => c.leave d
    | s => (some (), { c with display := some { d with plot := d.plot.apply s } })

def perform (c : Canvas) : List ScreenCall → Option Unit × Canvas
  | [] => (some (), c)
  | s :: rest =>
    match c.call s with
    | (some (), c) => c.perform rest
    | (none, c) => (none, c)

/-- Where the cursor is seen. -/
def visibleCursor (c : Canvas) : Option (Nat × Nat) :=
  if c.cursorHidden then none else some c.cursor

end Canvas

end Chip8Vm.Terminal
