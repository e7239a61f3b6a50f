/-!
# Chip8Vm.Device.Panel

The calls a screen understands, and the headless panel.

A panel collects the pixels set since the last clear and shows them when it is
drawn; drawing keeps what was collected, so that it can be shown again.
-/

namespace Chip8Vm

/-- A call to a screen. -/
inductive ScreenCall where
  /-- Forget the pixels set so far. -/
  | clear
  /-- Light one pixel. -/
  | pixel (x y : Nat)
  /-- Show the pixels set since the last clear. -/
  | draw
  /-- Give the screen back. -/
  | stop
  deriving DecidableEq, Repr

inductive ScreenOp where
  | clear | pixel | draw | stop
  deriving DecidableEq, Repr

def ScreenOp.text : ScreenOp → String
  | clear => "clear"
  | pixel => "pixel"
  | draw => "draw"
  | stop => "stop"

def ScreenCall.op : ScreenCall → ScreenOp
  | clear => .clear
  | pixel _ _ => .pixel
  | draw => .draw
  | stop => .stop

/-- A screen without a window: what was set, what was shown last, how often
something was shown, and whether the screen was given back. -/
structure Panel where
  pending : Array (Nat × Nat) := #[]
  frame : Array (Nat × Nat) := #[]
  draws : Nat := 0
  stopped : Bool := false
  deriving DecidableEq, Repr

def Panel.apply (p : Panel) : ScreenCall → Panel
  | .clear => { p with pending := #[] }
  | .pixel x y => { p with pending := p.pending.push (x, y) }
  | .draw => { p with frame := p.pending, draws := p.draws + 1 }
  | .stop => { p with stopped := true }

end Chip8Vm
