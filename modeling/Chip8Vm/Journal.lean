import Chip8Vm.Fault
import Chip8Vm.Opcode.Assembly
import Chip8Vm.Terminal.Key

/-!
# Chip8Vm.Journal

The records the machine and its surroundings make of what they do.

A `Note` says what happened; its level and its wording are functions of that,
and a journal is the list of notes in the order they were made.
-/

namespace Chip8Vm

inductive Level where
  | trace | debug | info | warn
  deriving DecidableEq, Repr

def Level.text : Level → String
  | trace => "TRACE"
  | debug => "DEBUG"
  | info => "INFO"
  | warn => "WARN"

/-- Something worth a record. -/
inductive Note where
  /-- A program of `size` bytes went into memory at `base`. -/
  | loaded (size : Nat) (base : UInt16)
  /-- The word at `addr` is carried out as `instruction`. -/
  | fetched (addr word : UInt16) (instruction : Instruction)
  | awaiting (x : Reg)
  /-- A key ended the wait for the register. -/
  | resumed (key : Nibble) (x : Reg)
  | soundOn (ticks : UInt8)
  | soundOff
  /-- There is no such key on the pad. -/
  | ignoredKey (key : UInt8)
  /-- The keyboard's key has no place on the pad. -/
  | unmappedKey (key : Terminal.Key)
  /-- The user asked to quit at the keyboard. -/
  | quitRequested
  /-- The pacer found the stop signal raised. -/
  | stopRequested
  /-- The pacer came to the end of its time. -/
  | limitReached
  /-- The pacer ended after so many ticks. -/
  | pacerStopped (instructionTicks timerTicks : Nat)
  deriving DecidableEq, Repr

namespace Note

def level : Note → Level
  | fetched .. => .trace
  | awaiting _ | resumed .. | soundOn _ | soundOff | unmappedKey _ => .debug
  | loaded .. | quitRequested | stopRequested | limitReached | pacerStopped .. => .info
  | ignoredKey _ => .warn

def text : Note → String
  | loaded size base =>
    "loaded " ++ toString size ++ " byte program at " ++ Text.hexAddress 3 base.toNat
  | fetched addr word instruction =>
    Text.hexAddress 3 addr.toNat ++ "  " ++ String.ofList (Text.fixedHex 4 word.toNat) ++ "  " ++
      instruction.text
  | awaiting x => "waiting for a key press into " ++ (Operand.reg x).text
  | resumed key x =>
    "key " ++ Text.hexAddress 1 key.val ++ " pressed, resuming with " ++ (Operand.reg x).text
  | soundOn ticks => "sound on for " ++ toString ticks.toNat ++ " ticks"
  | soundOff => "sound off"
  | ignoredKey key => "ignoring event for key " ++ Text.hexWord 2 key.toNat
  | unmappedKey key => "can't map " ++ key.name ++ " to a COSMAC key"
  | quitRequested => "quit requested from keyboard"
  | stopRequested => "stop requested"
  | limitReached => "run time limit reached"
  | pacerStopped instructionTicks timerTicks =>
    "scheduler stopped after " ++ toString instructionTicks ++ " instruction ticks, " ++
      toString timerTicks ++ " timer ticks"

/-- A note as a line: its level and its wording. -/
def line (n : Note) : String := n.level.text ++ " " ++ n.text

end Note

abbrev Journal := Array Note

end Chip8Vm
