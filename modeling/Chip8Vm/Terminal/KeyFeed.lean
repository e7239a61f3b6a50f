import Chip8Vm.HexPad.Layout
import Chip8Vm.Pace.Clock
import Chip8Vm.Terminal.Key

/-!
# Chip8Vm.Terminal.KeyFeed

Feeding the pad from a keyboard that reports presses only.

A key counts as held from its first keystroke until no keystroke for it came for
150 milliseconds.  The feed keeps a table of the held keys with the time of their
last keystroke: a keystroke for a key outside the table presses it, one for a key
in the table only renews its time, and a key whose time is over is released at the
end of a poll.  Escape and Ctrl-C end a poll at once; what was not handled then
waits for the next.
-/

namespace Chip8Vm.Terminal

/-- What a poll came to. -/
inductive FeedStatus where
  | goOn
  | quit
  deriving DecidableEq, Repr

/-- A layout and the held keys with the times of their last keystrokes. -/
structure KeyFeed where
  layout : Layout
  held : List (PadKey × Nat) := []
  deriving DecidableEq, Repr

namespace KeyFeed

/-- How long a key counts as held, in nanoseconds. -/
def hold : Nat := 150000000

def isQuit : Input → Bool
  | .stroke s => s.key == .escape || (s.key == .char 'c' && s.ctrl)
  | .pointer => false

def holds (f : KeyFeed) (k : PadKey) : Bool := f.held.any fun e => e.1 == k

/-- The table with the time of a key's last keystroke. -/
def renew (f : KeyFeed) (k : PadKey) (time : Nat) : KeyFeed :=
  { f with held := (k, time) :: f.held.filter fun e => e.1 != k }

def event (k : PadKey) (pressed : Bool) : Happening := .key ⟨UInt8.ofNat k.val, pressed⟩

def type (f : KeyFeed) (time : Nat) (c : Char) : KeyFeed × List Happening :=
  match f.layout.typedKey? c with
  | none => (f, [.note (.unmappedKey (.char c.toLower))])
  | some k => (f.renew k time, if f.holds k then [] else [event k true])

/-- Handle an input at a time; the pointer does nothing. -/
def handle (f : KeyFeed) (time : Nat) : Input → KeyFeed × List Happening
  | .pointer => (f, [])
  | .stroke s =>
    match s.key with
    | .char c => f.type time c
    | k => (f, [.note (.unmappedKey k)])

/-- Is the time of a keystroke so long ago that its key is no longer held? -/
def isOver (now time : Nat) : Bool := hold ≤ now - time

/-- Release the keys whose time is over. -/
def expire (f : KeyFeed) (now : Nat) : KeyFeed × List Happening :=
  ({ f with held := f.held.filter fun e => !isOver now e.2 },
    (f.held.filter fun e => isOver now e.2).map fun e => event e.1 false)

/-- Handle inputs in order, up to the first that asks to quit; what comes after it is
left over. -/
def drain (f : KeyFeed) : List (Nat × Input) →
    FeedStatus × KeyFeed × List Happening × List (Nat × Input)
  | [] => (.goOn, f, [], [])
  | (time, i) :: rest =>
    if isQuit i then (.quit, f, [], rest)
    else
      let (f, first) := f.handle time i
      let (status, f, others, left) := f.drain rest
      (status, f, first ++ others, left)

/-- A poll: handle inputs, and unless one asks to quit, release what is no longer held
at the end. -/
def poll (f : KeyFeed) (inputs : List (Nat × Input)) (finish : Nat) :
    FeedStatus × KeyFeed × List Happening × List (Nat × Input) :=
  match f.drain inputs with
  | (.quit, f, happenings, left) => (.quit, f, happenings, left)
  | (.goOn, f, happenings, left) =>
    let (f, released) := f.expire finish
    (.goOn, f, happenings ++ released, left)

end KeyFeed

end Chip8Vm.Terminal
