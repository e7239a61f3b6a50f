import Chip8Vm.Text.Quoted

/-!
# Chip8Vm.Terminal.Key

What a terminal reports when a key goes down: a key, and whether Ctrl or Alt
went with it.  Terminals report presses only, never releases.  Besides keys they
report what is done with a pointer.
-/

namespace Chip8Vm.Terminal

inductive Key where
  | char (c : Char)
  | escape
  | enter
  | tab
  | backTab
  | backspace
  | up
  | down
  | left
  | right
  | home
  | endKey
  | pageUp
  | pageDown
  | insert
  | delete
  /-- F1 and up. -/
  | function (n : Nat)
  deriving DecidableEq, Repr

def Key.name : Key → String
  | char c => Text.quoted c
  | escape => "Esc"
  | enter => "Enter"
  | tab => "Tab"
  | backTab => "BackTab"
  | backspace => "Backspace"
  | up => "Up"
  | down => "Down"
  | left => "Left"
  | right => "Right"
  | home => "Home"
  | endKey => "End"
  | pageUp => "PageUp"
  | pageDown => "PageDown"
  | insert => "Insert"
  | delete => "Delete"
  | function n => "F(" ++ toString n ++ ")"

/-- A key going down, with the modifiers that matter here. -/
structure Keystroke where
  key : Key
  ctrl : Bool := false
  alt : Bool := false
  deriving DecidableEq, Repr

/-- What is done at a terminal. -/
inductive Input where
  | stroke (s : Keystroke)
  /-- Something done with the pointer; nobody here minds what. -/
  | pointer
  deriving DecidableEq, Repr

end Chip8Vm.Terminal
