import Chip8Vm.Pace.Clock

/-!
# Chip8Vm.Pace.Script

A clock that is written down beforehand.

Sleeping until a deadline does what the script has for any time up to it, in the
order of the script, and moves the time forward to the deadline.  A list of
delays says how much too late the clock wakes, sleep by sleep and over again, and
a clock that has slept often enough raises the stop signal.
-/

namespace Chip8Vm

structure Script where
  now : Nat := 0
  /-- What is still to happen, and when. -/
  entries : List (Nat × Happening) := []
  /-- How much too late the sleeps end, over and over. -/
  delays : Array Nat := #[]
  /-- The sleep from which on the stop signal is raised. -/
  patience : Option Nat := none
  /-- The deadlines of the sleeps so far. -/
  slept : Array Nat := #[]

namespace Script

/-- How much too late the sleep after `k` others ends. -/
def delay (s : Script) (k : Nat) : Nat := s.delays.getD (k % s.delays.size) 0

def sleepUntil (deadline : Nat) (s : Script) : Script × List Happening :=
  let (due, later) := s.entries.partition fun e => e.1 ≤ deadline
  let tired : Bool := s.patience.any fun n => n ≤ s.slept.size + 1
  ({ s with
      now := max s.now deadline + s.delay s.slept.size
      entries := later
      slept := s.slept.push deadline },
    due.map (·.2) ++ if tired then [.stop] else [])

def clock : Clock Script where
  now := now
  sleepUntil := sleepUntil

end Script

end Chip8Vm
