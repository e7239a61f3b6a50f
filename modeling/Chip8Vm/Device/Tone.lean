import Chip8Vm.Fault

/-!
# Chip8Vm.Device.Tone

A tone generator that may fail.

It keeps a record of every call and whether it succeeded; `fails call n` is
about the call that `n` calls of the same name came before.
-/

namespace Chip8Vm

inductive ToneCall where
  | beep | stop
  deriving DecidableEq, Repr

def ToneCall.text : ToneCall → String
  | beep => "beep"
  | stop => "stop"

structure Tone where
  /-- Every call and whether it succeeded, in order. -/
  calls : Array (ToneCall × Bool) := #[]
  beeps : Nat := 0
  stops : Nat := 0
  /-- Which calls fail, by name and number. -/
  fails : ToneCall → Nat → Bool := fun _ _ => false

namespace Tone

def fault (c : ToneCall) : Fault := .tone (c.text ++ " failed")

def count (t : Tone) : ToneCall → Nat
  | .beep => t.beeps
  | .stop => t.stops

def log (t : Tone) (c : ToneCall) (succeeded : Bool) : Tone :=
  match c with
  | .beep => { t with calls := t.calls.push (c, succeeded), beeps := t.beeps + 1 }
  | .stop => { t with calls := t.calls.push (c, succeeded), stops := t.stops + 1 }

def call (t : Tone) (c : ToneCall) : Except Fault Unit × Tone :=
  if t.fails c (t.count c) then (.error (fault c), t.log c false) else (.ok (), t.log c true)

end Tone

end Chip8Vm
