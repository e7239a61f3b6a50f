/-!
# Chip8Vm.Pace.Cadence

Spans of time and regular series of ticks.

Time is counted in nanoseconds from when a clock started.  A span has a longest
value, so adding two may have no answer.  The deadline of a tick is computed
from its number and never from the deadline before it, so deadlines do not
drift: the tick after `k` others is due `(k + 1) * 10^9 / hz` nanoseconds after
the origin, rounded down.
-/

namespace Chip8Vm

/-! ## Spans -/

namespace Span

def second : Nat := 1000000000

/-- The longest span: a nanosecond short of two to the sixty-fourth seconds. -/
def longest : Nat := Nat.pow 2 64 * second - 1

/-- The sum of two spans, if it is a span. -/
def add? (a b : Nat) : Option Nat := if a + b ≤ longest then some (a + b) else none

end Span

/-! ## Cadences -/

structure Cadence where
  hz : Nat
  origin : Nat
  ticks : Nat
  deriving DecidableEq, Repr

namespace Cadence

/-- How far a cadence can count. -/
def maxTicks : Nat := Nat.pow 2 64

/-- A cadence of this rate; a rate of zero counts as one. -/
def ofRate (hz : Nat) : Cadence := ⟨max hz 1, 0, 0⟩

def restart (c : Cadence) (origin : Nat) : Cadence := { c with origin := origin, ticks := 0 }

/-- How long after the origin the next tick is due.  The offset is a 64-bit
number of nanoseconds. -/
def offset (c : Cadence) : Nat := (c.ticks + 1) * Span.second / c.hz % Nat.pow 2 64

/-- When the next tick is due, if that is a span. -/
def next? (c : Cadence) : Option Nat := Span.add? c.origin c.offset

/-- The cadence after its next tick, as long as ticks can be counted. -/
def advance? (c : Cadence) : Option Cadence :=
  if c.ticks + 1 < maxTicks then some { c with ticks := c.ticks + 1 } else none

/-- A cadence that advances counts one tick and changes nothing else. -/
theorem of_advance? {c d : Cadence} (h : c.advance? = some d) :
    d = { c with ticks := c.ticks + 1 } ∧ d.ticks < maxTicks := by
  unfold advance? at h
  split at h
  · next hlt =>
    cases h
    exact ⟨rfl, hlt⟩
  · cases h

end Cadence

end Chip8Vm
