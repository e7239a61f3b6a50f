import Chip8Vm.CommandLine.Arguments
import Chip8Vm.Session

/-!
# Chip8Vm.CommandLine.Report

What a program that ended leaves behind: a number and two texts.

1. Zero is a good end; a headless session has its last picture as output.
2. One is a fault, and the errors spell it out.
3. Two is a command line that is not understood.
4. A hundred and one is an abrupt end, when a frame cannot be drawn or a time has
   to be computed that is no span.
-/

namespace Chip8Vm.CommandLine

/-- Why a file cannot be opened, as the system says. -/
structure SystemError where
  code : Nat
  kind : String
  message : String
  deriving DecidableEq, Repr

namespace SystemError

def notFound : SystemError := ⟨2, "NotFound", "No such file or directory"⟩

def denied : SystemError := ⟨13, "PermissionDenied", "Permission denied"⟩

/-- The error as a record. -/
def record (e : SystemError) : String :=
  Fault.recordText "Os"
    [("code", toString e.code), ("kind", e.kind), ("message", e.message.quote)]

end SystemError

def UsageError.message : UsageError → String
  | missingProgram => "the path of a program is required"
  | unknownArgument => "an argument is not known"
  | givenTwice => "something is given twice"
  | invalidValue => "a value is missing or not one of the possible values"
  | valueForFlag => "a flag takes no value"
  | unreadable message => "a value cannot be read: " ++ message
  | helpWanted => "help"

def usage : String :=
  "Usage: chip8 [OPTIONS] <ROM>\n\n" ++
  "      --instruction-hz <N>   instructions per second (500)\n" ++
  "      --sprite-wrap <RULE>   inherited or modulo\n" ++
  "      --keymap <LAYOUT>      conventional or literal\n" ++
  "      --mute                 no tone\n" ++
  "      --headless             no terminal, the last picture is printed\n" ++
  "      --run-for <SECONDS>    stop after so many seconds\n" ++
  "      --seed <N>             seed of the random bytes\n" ++
  "  -h, --help                 this text\n"

/-- What is left of a program that ended. -/
structure Report where
  exit : Nat := 0
  output : String := ""
  errors : String := ""
  deriving DecidableEq, Repr

namespace Report

def failed (record : String) : Report := { exit := 1, errors := "Error: " ++ record ++ "\n" }

/-- The report on an abrupt end. -/
def abrupt : Report := { exit := 101 }

def ofUsage : UsageError → Report
  | .helpWanted => { output := usage }
  | e => { exit := 2, errors := "error: " ++ e.message ++ "\n\n" ++ usage }

/-- The report on a session, as soon as it has ended. -/
def ofSession? {w h : Nat} (headless : Bool) : SessionResult w h → Option Report
  | .shown picture => some { output := if headless then picture.text else "" }
  | .failed f => some (failed f.record)
  | .overflow => some abrupt
  | .unfinished => none

end Report

end Chip8Vm.CommandLine
