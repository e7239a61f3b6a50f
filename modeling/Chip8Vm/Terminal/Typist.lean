import Chip8Vm.Terminal.Keyboard

/-!
# Chip8Vm.Terminal.Typist

A clock with somebody at the keyboard.

While the clock sleeps for the first time, a text is typed, or the stop signal is
sent.  The keyboard is polled at the end of every sleep.
-/

namespace Chip8Vm.Terminal

/-- A clock's time, the keyboard, and what is still to be done with it. -/
structure Typist where
  now : Nat := 0
  keyboard : Keyboard
  text : List UInt8 := []
  signal : Bool := false

namespace Typist

def sleepUntil (deadline : Nat) (t : Typist) : Typist × List Happening :=
  let now := max t.now deadline
  let (keyboard, happenings) := (t.keyboard.type t.text).pollOrQuit now
  ({ now := now, keyboard := keyboard }, happenings ++ if t.signal then [.stop] else [])

def clock : Clock Typist where
  now := now
  sleepUntil := sleepUntil

end Typist

end Chip8Vm.Terminal
