import Chip8Vm.Terminal.Keyboard

/-!
# Chip8Vm.Terminal.Watch

Watching a keyboard until the stop signal is raised.

Whoever watches polls the keyboard over and over, and raises the signal when a
keystroke asks to quit.  An onlooker who sees nothing but the pad may raise it
too.
-/

namespace Chip8Vm.Terminal

/-! ## Onlookers -/

/-- Someone who looks at the pad now and then. -/
inductive Onlooker where
  /-- Never raises the stop signal. -/
  | idle
  /-- Raises it as soon as the key is held. -/
  | forPress (k : UInt8)
  /-- Raises it as soon as the key, once held, is held no more. -/
  | forRelease (k : UInt8) (wasHeld : Bool)
  deriving DecidableEq, Repr

/-- Look at the pad: is the signal to be raised? -/
def Onlooker.look (o : Onlooker) (pad : HexPad) : Bool × Onlooker :=
  match o with
  | idle => (false, idle)
  | forPress k => (pad.isHeld k, forPress k)
  | forRelease k wasHeld => (wasHeld && !pad.isHeld k, forRelease k (wasHeld || pad.isHeld k))

/-! ## Watches -/

/-- A keyboard, the pad it feeds, and the stop signal. -/
structure Watch where
  keyboard : Keyboard
  pad : HexPad := .initial
  stop : Bool := false
  notes : List Note := []
  now : Nat := 0
  /-- Was something typed since the last poll? -/
  alerted : Bool := false

namespace Watch

/-- What a happening does to the pad, the signal and the notes. -/
def happen (w : Watch) : Happening → Watch
  | .key e => { w with pad := w.pad.accept e, notes := w.notes ++ HexPad.notes e }
  | .note n => { w with notes := w.notes ++ [n] }
  | .stop => { w with stop := true }

def type (w : Watch) (bytes : List UInt8) : Watch :=
  { w with keyboard := w.keyboard.type bytes, alerted := w.alerted || !bytes.isEmpty }

/-- Poll once, waiting for a first input if something was typed since the last poll. -/
def poll (w : Watch) : FeedStatus × Watch :=
  let (status, keyboard, happenings) := w.keyboard.poll w.alerted w.now
  (status, happenings.foldl happen { w with keyboard := keyboard, alerted := false })

/-- Poll once and, if that asks to quit, raise the stop signal. -/
def pollOrQuit (w : Watch) : Watch :=
  let (keyboard, happenings) := w.keyboard.pollOrQuit w.now
  happenings.foldl happen { w with keyboard := keyboard, alerted := false }

/-- Poll until the stop signal is raised, at most so often.  The onlooker looks
before and after every poll. -/
def run : (polls : Nat) → Onlooker → Watch → Watch
  | 0, _, w => w
  | polls + 1, o, w =>
    if w.stop then w
    else
      let (early, o) := o.look w.pad
      let w := w.pollOrQuit
      let (late, o) := o.look w.pad
      run polls o { w with stop := w.stop || early || late, now := w.now + Keyboard.pollTime }

end Watch

end Chip8Vm.Terminal
