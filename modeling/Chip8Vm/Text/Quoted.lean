import Chip8Vm.Text.Digits
import Chip8Vm.Text.Hidden

/-!
# Chip8Vm.Text.Quoted

A character between single quotes.  The quote, the backslash and the characters
that do not show are written as escapes, all others as themselves; a double
quote needs no escape between single ones.
-/

namespace Chip8Vm.Text

/-- What stands for a character between the quotes. -/
def escape (c : Char) : List Char :=
  match c with
  | '\x00' => ['\\', '0']
  | '\t' => ['\\', 't']
  | '\n' => ['\\', 'n']
  | '\r' => ['\\', 'r']
  | '\x27' => ['\\', '\x27']
  | '\\' => ['\\', '\\']
  | _ =>
    if isHidden c then
      ['\\', 'u', '\x7b'] ++ fixedHex (hexLength c.toNat) c.toNat ++ ['\x7d']
    else
      [c]

/-- The character between single quotes. -/
def quoted (c : Char) : String :=
  String.ofList (['\x27'] ++ escape c ++ ['\x27'])

end Chip8Vm.Text
