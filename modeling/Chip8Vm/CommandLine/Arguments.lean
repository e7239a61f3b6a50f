import Chip8Vm.CommandLine.Seconds
import Chip8Vm.CommandLine.Settings

/-!
# Chip8Vm.CommandLine.Arguments

From the arguments of a command line to settings.

Arguments are read from left to right.

1. `--name value` and `--name=value` give an option a value, `--name` alone sets a
   flag; names are written out.  An argument that starts with a dash is never the
   value of the option before it, unless it is the dash alone.
2. `--` ends the options; everything after it is a path.
3. The one argument besides is the path of the program.
4. A value in an argument of its own is looked at when the next option, flag or
   path comes, or at the end; a value after `=` is looked at once.
5. Nothing may be given twice.

The first thing wrong in this order is the one that is reported.
-/

namespace Chip8Vm.CommandLine

open Number

/-! ## Names -/

inductive OptionName where
  | instructionRate
  | wrap
  | layout
  | runFor
  | seed
  deriving DecidableEq, Repr

inductive FlagName where
  | mute
  | headless
  | help
  deriving DecidableEq, Repr

inductive LongName where
  | option (name : OptionName)
  | flag (name : FlagName)
  deriving DecidableEq, Repr

def longNames : List (String × LongName) :=
  [("instruction-hz", .option .instructionRate), ("sprite-wrap", .option .wrap),
    ("keymap", .option .layout), ("run-for", .option .runFor), ("seed", .option .seed),
    ("mute", .flag .mute), ("headless", .flag .headless), ("help", .flag .help)]

def wrapNames : List (String × OriginWrap) :=
  [("inherited", .inherited), ("modulo", .modulo)]

def layoutNames : List (String × Layout) :=
  [("conventional", .conventional), ("literal", .literal)]

/-! ## Errors -/

/-- What is wrong with a command line; asking for help counts as well. -/
inductive UsageError where
  /-- No path of a program. -/
  | missingProgram
  | unknownArgument
  /-- Something is given twice. -/
  | givenTwice
  /-- A value is missing or none of the possible ones. -/
  | invalidValue
  /-- A flag has a value. -/
  | valueForFlag
  /-- A value cannot be read. -/
  | unreadable (message : String)
  | helpWanted
  deriving DecidableEq, Repr

/-! ## What was given -/

/-- What was given so far. -/
structure Given where
  rom : Option String := none
  instructionRate : Option Nat := none
  wrap : Option OriginWrap := none
  layout : Option Layout := none
  mute : Bool := false
  headless : Bool := false
  runFor : Option Nat := none
  seed : Option UInt64 := none
  deriving DecidableEq

namespace Given

/-- The settings that were given, with the defaults for the others. -/
def settings? (g : Given) : Except UsageError Settings :=
  match g.rom with
  | none => .error .missingProgram
  | some rom =>
    let defaults : Settings := { rom := rom }
    .ok { rom := rom
          instructionRate := g.instructionRate.getD defaults.instructionRate
          wrap := g.wrap.getD defaults.wrap
          layout := g.layout.getD defaults.layout
          mute := g.mute
          headless := g.headless
          runFor := g.runFor
          seed := g.seed }

def has (g : Given) : OptionName → Bool
  | .instructionRate => g.instructionRate.isSome
  | .wrap => g.wrap.isSome
  | .layout => g.layout.isSome
  | .runFor => g.runFor.isSome
  | .seed => g.seed.isSome

end Given

/-! ## Values -/

def rateBound : Nat := Nat.pow 2 32

/-- A rate: a 64-bit number with a sign that is in the range of rates. -/
def readRate (text : String) : Except UsageError Nat :=
  match readInt (Nat.pow 2 63) text.toList with
  | .error e => .error (.unreadable e.message)
  | .ok n =>
    if 0 ≤ n ∧ n < rateBound then .ok n.toNat
    else .error (.unreadable
      (toString n ++ " is not in 0..=" ++ toString (rateBound - 1)))

def readSeed (text : String) : Except UsageError UInt64 :=
  match readNat (Nat.pow 2 64) text.toList with
  | .error e => .error (.unreadable e.message)
  | .ok n => .ok (UInt64.ofNat n)

def readName {α : Type} (names : List (String × α)) (text : String) : Except UsageError α :=
  match names.lookup text with
  | some a => .ok a
  | none => .error .invalidValue

def Given.giveOption (g : Given) (name : OptionName) (text : String) :
    Except UsageError Given :=
  if g.has name then
    .error .givenTwice
  else
    match name with
    | .instructionRate => do
      let rate ← readRate text
      .ok { g with instructionRate := some rate }
    | .wrap => do
      let wrap ← readName wrapNames text
      .ok { g with wrap := some wrap }
    | .layout => do
      let layout ← readName layoutNames text
      .ok { g with layout := some layout }
    | .runFor =>
      match readSeconds text.toList with
      | .error e => .error (.unreadable e.message)
      | .ok nanos => .ok { g with runFor := some nanos }
    | .seed => do
      let seed ← readSeed text
      .ok { g with seed := some seed }

def Given.giveFlag (g : Given) : FlagName → Except UsageError Given
  | .mute => if g.mute then .error .givenTwice else .ok { g with mute := true }
  | .headless => if g.headless then .error .givenTwice else .ok { g with headless := true }
  | .help => .error .helpWanted

def Given.givePath (g : Given) (path : String) : Except UsageError Given :=
  if path.isEmpty then .error .invalidValue else .ok { g with rom := some path }

/-! ## Arguments -/

/-- What was read but not looked at yet. -/
inductive Pending where
  | nothing
  | option (name : OptionName) (value : Option String)
  | path (value : String)
  deriving DecidableEq, Repr

structure Reading where
  given : Given := {}
  pending : Pending := .nothing
  /-- Are the options over? -/
  trailing : Bool := false
  pathSeen : Bool := false

/-- Look at what was not looked at. -/
def Reading.settle (r : Reading) : Except UsageError Reading := do
  let given ← match r.pending with
    | .nothing => .ok r.given
    | .option _ none => .error .invalidValue
    | .option name (some value) => r.given.giveOption name value
    | .path value => r.given.givePath value
  .ok { r with given := given, pending := .nothing }

/-- What an argument looks like while options can come. -/
inductive Shape where
  | endOfOptions
  /-- Two dashes and a name, perhaps with a value. -/
  | long (name : String) (value : Option String)
  /-- One dash and letters. -/
  | short (letters : List Char)
  | plain
  deriving DecidableEq, Repr

def shapeOf (argument : List Char) : Shape :=
  match argument with
  | ['-', '-'] => .endOfOptions
  | '-' :: '-' :: cs =>
    let name := String.ofList (cs.takeWhile (· != '='))
    match cs.dropWhile (· != '=') with
    | '=' :: value => .long name (some (String.ofList value))
    | _ => .long name none
  | '-' :: c :: cs => .short (c :: cs)
  | _ => .plain

def Reading.path (r : Reading) (argument : String) : Except UsageError Reading :=
  if r.pathSeen then .error .unknownArgument
  else do
    let r ← r.settle
    .ok { r with pending := .path argument, pathSeen := true }

def Reading.long (r : Reading) (name : String) (value : Option String) :
    Except UsageError Reading :=
  match longNames.lookup name, value with
  | none, _ => .error .unknownArgument
  | some (.flag _), some _ => .error .valueForFlag
  | some (.flag flag), none => do
    let r ← r.settle
    let given ← r.given.giveFlag flag
    .ok { r with given := given }
  | some (.option option), some value => do
    let r ← r.settle
    let given ← r.given.giveOption option value
    .ok { r with given := given }
  | some (.option option), none => do
    let r ← r.settle
    .ok { r with pending := .option option none }

/-- Take in letters after one dash: only `h` is known, and asks for help. -/
def Reading.short (r : Reading) : List Char → Except UsageError Reading
  | 'h' :: _ => do
    let _ ← r.settle
    .error .helpWanted
  | _ => .error .unknownArgument

def Reading.argument (r : Reading) (argument : String) : Except UsageError Reading :=
  if r.trailing then r.path argument
  else
    match shapeOf argument.toList with
    | .endOfOptions => .ok { r with trailing := true }
    | .long name value => r.long name value
    | .short letters => r.short letters
    | .plain =>
      match r.pending with
      | .option name none => .ok { r with pending := .option name (some argument) }
      | _ => r.path argument

/-- The settings that arguments give. -/
def readArguments (arguments : List String) : Except UsageError Settings := do
  let r ← arguments.foldlM Reading.argument {}
  let r ← r.settle
  r.given.settings?

end Chip8Vm.CommandLine
