import Chip8Vm.Text.Digits

/-!
# Chip8Vm.Fault

Everything that ends a run against its will: three faults of the program, a
program that does not fit, and two of the outside world.  `Fault.message` is the
one place that words them; `Fault.record` spells out the cause and its fields.
-/

namespace Chip8Vm

/-- Why the machine could not go on.  Addresses are those of the faulting
instruction. -/
inductive Fault where
  /-- The word at `addr` spells no instruction. -/
  | unknownOpcode (word addr : UInt16)
  /-- The call at `addr` would open a seventeenth subroutine. -/
  | stackOverflow (addr : UInt16)
  /-- The return at `addr` found no open subroutine. -/
  | stackUnderflow (addr : UInt16)
  /-- A program of `size` bytes where only `limit` fit. -/
  | programTooLarge (size limit : Nat)
  /-- The tone generator refused. -/
  | tone (text : String)
  /-- A reader or the screen failed. -/
  | io (text : String)
  deriving DecidableEq, Repr

namespace Fault

def message : Fault → String
  | unknownOpcode word addr =>
    "unknown opcode " ++ Text.hexWord 4 word.toNat ++ " at " ++ Text.hexAddress 3 addr.toNat
  | stackOverflow addr =>
    "stack overflow: call at " ++ Text.hexAddress 3 addr.toNat ++ " exceeds 16 nested subroutines"
  | stackUnderflow addr =>
    "stack underflow: return at " ++ Text.hexAddress 3 addr.toNat ++ " with an empty call stack"
  | programTooLarge size limit =>
    "program is too large (" ++ toString size ++ " bytes), max size is " ++ toString limit ++
      " bytes"
  | tone text => "sound device failed: " ++ text
  | io text => text

/-- A name with its fields, in the notation of a record. -/
def recordText (name : String) (fields : List (String × String)) : String :=
  name ++ " \x7b " ++ ", ".intercalate (fields.map fun f => f.1 ++ ": " ++ f.2) ++ " \x7d"

/-- A fault as a record: the cause with its fields in decimal. -/
def record : Fault → String
  | unknownOpcode word addr =>
    recordText "UnknownOpcode" [("opcode", toString word.toNat), ("addr", toString addr.toNat)]
  | stackOverflow addr => recordText "StackOverflow" [("addr", toString addr.toNat)]
  | stackUnderflow addr => recordText "StackUnderflow" [("addr", toString addr.toNat)]
  | programTooLarge size limit =>
    recordText "RomTooLarge" [("size", toString size), ("max_size", toString limit)]
  | tone text => "Sound(" ++ text.quote ++ ")"
  | io text =>
    "Io(" ++ recordText "Custom" [("kind", "Other"), ("error", text.quote)] ++ ")"

end Fault

end Chip8Vm
