import Chip8Vm.HexPad

/-!
# Chip8Vm.HexPad.Layout

Which character of a keyboard stands for which key of the pad.
-/

namespace Chip8Vm

inductive Layout where
  /-- The left-hand block of a keyboard: `1234`, `qwer`, `asdf`, `zxcv`. -/
  | conventional
  /-- The digits and the letters from `a` to `f`. -/
  | literal
  deriving DecidableEq, Repr, Inhabited

namespace Layout

/-- The characters of a layout in the order of the keys. -/
def characters : Layout → List Char
  | conventional => "x123qweasdzc4rfv".toList
  | literal => "0123456789abcdef".toList

def key? (l : Layout) (c : Char) : Option PadKey :=
  (List.finRange 16).find? fun k => l.characters[k.val]? == some c

/-- The key that a character stands for when capitals count as small letters. -/
def typedKey? (l : Layout) (c : Char) : Option PadKey := l.key? c.toLower

end Layout

end Chip8Vm
