import Chip8Vm.Bitmap.Sprite
import Chip8Vm.HexPad.Layout

/-!
# Chip8Vm.CommandLine.Settings

What can be set about a session.
-/

namespace Chip8Vm

/-- The settings of a session; all but the program have defaults. -/
structure Settings where
  rom : String
  /-- Instructions in a second. -/
  instructionRate : Nat := 500
  wrap : OriginWrap := .inherited
  layout : Layout := .conventional
  mute : Bool := false
  /-- No screen and no keyboard: the last picture is printed. -/
  headless : Bool := false
  /-- End after so many nanoseconds. -/
  runFor : Option Nat := none
  seed : Option UInt64 := none
  deriving DecidableEq

namespace Settings

/-- Are all settings but the program's path the defaults? -/
def isDefault (s : Settings) : Bool := s == { rom := s.rom }

end Settings

end Chip8Vm
