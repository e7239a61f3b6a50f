import Chip8Vm.Journal

/-!
# Chip8Vm.HexPad

The sixteen keys: which are held, and a slot for the last press.

Both follow the same events by different rules.  Every event of a key sets
whether it is held; only presses fill the slot, and `arm` and `take` empty it.
An event for a key that the pad does not have changes nothing.
-/

namespace Chip8Vm

abbrev PadKey := Nibble

/-- A key went down or came up, as it is reported to the pad. -/
structure KeyEvent where
  key : UInt8
  pressed : Bool
  deriving DecidableEq, Repr

/-- The state of the pad. -/
structure HexPad where
  held : Vector Bool 16
  slot : Option PadKey
  deriving DecidableEq

namespace HexPad

def initial : HexPad := ⟨Vector.replicate 16 false, none⟩

/-- The key that an event is about, if the pad has it. -/
def keyOf? (key : UInt8) : Option PadKey :=
  if h : key.toNat < 16 then some ⟨key.toNat, h⟩ else none

def enter (p : HexPad) (k : PadKey) (held : Bool) : HexPad :=
  { p with held := p.held.set k.val held }

def post (p : HexPad) (k : PadKey) : HexPad := { p with slot := some k }

def accept (p : HexPad) (e : KeyEvent) : HexPad :=
  match keyOf? e.key with
  | none => p
  | some k => if e.pressed then (p.enter k true).post k else p.enter k false

/-- What taking in an event is worth noting. -/
def notes (e : KeyEvent) : List Note :=
  if (keyOf? e.key).isSome then [] else [.ignoredKey e.key]

/-- Is the key held?  Only the low nibble counts. -/
def isHeld (p : HexPad) (key : UInt8) : Bool := p.held.get (Nibble.ofNat key.toNat)

def arm (p : HexPad) : HexPad := { p with slot := none }

/-- The last press since the slot was emptied, and the pad with an empty slot. -/
def take (p : HexPad) : Option PadKey × HexPad := (p.slot, { p with slot := none })

def heldKeys (p : HexPad) : List PadKey := (List.finRange 16).filter fun k => p.held[k.val]

end HexPad

end Chip8Vm
