import Chip8Vm.Bitmap
import Chip8Vm.Device.Panel
import Chip8Vm.Fault

/-!
# Chip8Vm.Device.Screen

A screen that may fail.

The screen keeps a record of every call and whether it succeeded.  Which calls
fail is fixed beforehand: `fails op n` is about the call of that name that
`n` calls of the same name came before.  A failing call does not reach the
panel.  Somebody may watch the screen and raise the stop signal: `raises n` says
whether the `n`-th shown frame is a reason to.
-/

namespace Chip8Vm

structure ScreenTally where
  clear : Nat := 0
  pixel : Nat := 0
  draw : Nat := 0
  stop : Nat := 0
  deriving DecidableEq, Repr

namespace ScreenTally

def count (t : ScreenTally) : ScreenOp → Nat
  | .clear => t.clear
  | .pixel => t.pixel
  | .draw => t.draw
  | .stop => t.stop

def bump (t : ScreenTally) : ScreenOp → ScreenTally
  | .clear => { t with clear := t.clear + 1 }
  | .pixel => { t with pixel := t.pixel + 1 }
  | .draw => { t with draw := t.draw + 1 }
  | .stop => { t with stop := t.stop + 1 }

end ScreenTally

/-- A panel behind calls that may fail. -/
structure Screen where
  panel : Panel := {}
  /-- Every call and whether it succeeded, in order. -/
  calls : Array (ScreenCall × Bool) := #[]
  made : ScreenTally := {}
  /-- Which calls fail, by name and number. -/
  fails : ScreenOp → Nat → Bool := fun _ _ => false
  /-- Which shown frames make the onlooker raise the stop signal. -/
  raises : Nat → Bool := fun _ => false
  /-- Has the onlooker raised the stop signal? -/
  raised : Bool := false

namespace Screen

def fault (op : ScreenOp) : Fault := .io ("display " ++ op.text ++ " failed")

def call (s : Screen) (c : ScreenCall) : Except Fault Unit × Screen :=
  let s' := { s with made := s.made.bump c.op }
  if s.fails c.op (s.made.count c.op) then
    (.error (fault c.op), { s' with calls := s'.calls.push (c, false) })
  else
    let panel := s'.panel.apply c
    (.ok (), { s' with
      calls := s'.calls.push (c, true)
      panel := panel
      raised := s'.raised || (c == .draw && s'.raises panel.draws) })

/-- Make calls one after the other, up to the first that fails. -/
def perform (s : Screen) : List ScreenCall → Except Fault Unit × Screen
  | [] => (.ok (), s)
  | c :: cs =>
    match s.call c with
    | (.ok (), s') => s'.perform cs
    | (.error f, s') => (.error f, s')

/-- The calls that show a picture: clear, light every lit pixel, draw. -/
def presentation {w h : Nat} (b : Bitmap w h) : List ScreenCall :=
  .clear :: b.lit.map (fun p => .pixel p.1 p.2) ++ [.draw]

def present {w h : Nat} (s : Screen) (b : Bitmap w h) : Except Fault Unit × Screen :=
  s.perform (presentation b)

end Screen

end Chip8Vm
