import Chip8Vm.Console
import Chip8Vm.Pace.Cadence

/-!
# Chip8Vm.Pace.Clock

Clocks, and what happens while one sleeps.

A clock is a state that can be read and put to sleep until a deadline.  Sleeping
gives the state afterwards and, in order, what others did meanwhile: keys that
went down or came up, and the stop signal.  Others do not wait for a sleep, and
time goes on while the machine is at work: that is a lapse.  Nothing is assumed
about how punctual a clock is.
-/

namespace Chip8Vm

/-- Something that others do while time goes on. -/
inductive Happening where
  | key (e : KeyEvent)
  | note (n : Note)
  | stop
  deriving DecidableEq, Repr

def Console.happen {w h : Nat} (c : Console w h) : Happening → Console w h
  | .key e => c.accept e
  | .note n => c.note [n]
  | .stop => { c with stop := true }

/-- A source of time with states `σ`. -/
structure Clock (σ : Type) where
  now : σ → Nat
  sleepUntil : Nat → σ → σ × List Happening
  /-- Go on while the machine is at work, up to its next look at the clock or at the
  stop signal. -/
  lapse : σ → σ × List Happening := fun s => (s, [])

namespace Clock

/-- The reading of a clock, if it is a span. -/
def read? {σ : Type} (clock : Clock σ) (s : σ) : Option Nat := Span.add? (clock.now s) 0

/-- A clock that others leave alone: it sleeps exactly until the deadline, or not
at all if that is past.  Its state is the time. -/
def punctual : Clock Nat where
  now := id
  sleepUntil := fun deadline now => (max now deadline, [])

end Clock

end Chip8Vm
