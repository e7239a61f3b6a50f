import Chip8Vm.CommandLine.Launch
import Chip8Vm.Terminal.Paint

/-!
# Chip8Vm.Main

The command line program.

It reads the program file, runs the session in real time and ends with the number
of the report.  On a terminal it draws every frame, rings the bell for the tone
and feeds the pad from the keyboard; the terminal has to pass keystrokes on at
once for that (raw mode), and its size comes from the environment.  The program
leaves when the read of the keyboard that is under way returns.
-/

namespace Chip8Vm

open CommandLine Terminal

abbrev Program := Console pictureWidth pictureHeight

/-- The outside of a session that runs in real time. -/
structure Live where
  settings : Settings
  origin : Nat
  /-- The terminal, unless there is none. -/
  canvas : Option Canvas
  keyboard : Keyboard
  /-- The bytes that were typed and not read yet. -/
  typed : IO.Ref ByteArray
  /-- How many of them there were at the last poll. -/
  seen : Nat := 0

namespace Live

def now (l : Live) : IO Nat := do
  return (← IO.monoNanosNow) - l.origin

/-- Write what brings the terminal to another canvas. -/
def paint (before after : Canvas) : IO Unit := do
  let out ← IO.getStdout
  out.putStr (Paint.update before after)
  out.flush

/-- Carry out what the console has on record. -/
def carryOut (l : Live) (c : Program) : IO (Live × Program) := do
  for n in c.journal do
    if n.level = .warn then IO.eprintln n.line
  if !l.settings.mute && c.tone.calls.any (fun call => call.1 == .beep) then IO.eprint "\x07"
  let calls := c.screen.calls.toList.map (·.1)
  match l.canvas with
  | none => return (l, c.forget)
  | some canvas =>
    if calls.isEmpty then return (l, c.forget)
    let (drawn, after) := canvas.perform calls
    paint canvas after
    if drawn.isNone then
      paint after after.close
      throw (IO.userError "the terminal is too small")
    return ({ l with canvas := some after }, c.forget)

/-- The bytes that were typed, once nothing was added to them since the last poll: the
bytes of one key come in quick succession. -/
def takeTyped (l : Live) : IO (Live × List UInt8) := do
  let bytes ← l.typed.get
  if bytes.size = l.seen then
    l.typed.modify fun b => b.extract bytes.size b.size
    return ({ l with seen := 0 }, bytes.toList)
  else
    return ({ l with seen := bytes.size }, [])

/-- Sleep until a deadline, though never longer than until the next poll of the
keyboard, and poll it. -/
def sleepUntil (l : Live) (deadline : Nat) : IO (Live × List Happening) := do
  let wait := min (deadline - (← l.now)) Keyboard.pollTime
  IO.sleep (UInt32.ofNat ((wait + 999999) / 1000000))
  if l.canvas.isNone then return (l, [])
  let (l, bytes) ← l.takeTyped
  let (keyboard, happenings) := (l.keyboard.type bytes).pollOrQuit (← l.now)
  return ({ l with keyboard := keyboard }, happenings)

/-- The run of the program; its clock is read and put to sleep from outside. -/
abbrev Paced := Run Nat pictureWidth pictureHeight

/-- Pass after pass until the run ends. -/
partial def pace (l : Live) (limit : Option Nat) (r : Paced) : IO (Ending × Live × Paced) := do
  match r.pass .punctual limit (← l.now) with
  | (.error e, r) => return (e, l, r)
  | (.ok deadline, r) =>
    let (l, c) ← l.carryOut r.console
    let (l, happenings) ← l.sleepUntil deadline
    l.pace limit ({ r with console := c }.elapse (r.clock, happenings))

/-- Pace a loaded program from its first picture to its end. -/
def run (l : Live) (c : Program) : IO (Ending × Live × Program) := do
  let p := Pacer.ofRate l.settings.instructionRate l.settings.runFor
  match p.begin (← l.now) c with
  | (.error e, p, c) => return (e, l, (p.finish c).2)
  | (.ok limit, p, c) =>
    let (e, l, r) ← l.pace limit { pacer := p, console := c, clock := 0 }
    return (e, l, r.finish.console)

/-- A session from its settings to its end. -/
def session (l : Live) (source : Source) (chance : UInt64) :
    IO (SessionResult pictureWidth pictureHeight) := do
  let c := (console l.settings chance).configure l.settings.wrap l.settings.seed
  let (ending, l, c) ← match c.load source with
    | (.error f, c) => pure (Ending.failed f, l, c)
    | (.ok _, c) => l.run c
  let (result, c) := Session.close ending c
  let (l, _) ← l.carryOut c
  if let some canvas := l.canvas then paint canvas canvas.close
  return result

end Live

/-! ## Start and end -/

/-- Keep reading what is typed, until told not to. -/
partial def readKeyboard (input : IO.FS.Stream) (typed : IO.Ref ByteArray) : IO Unit := do
  let bytes ← input.read 1
  if bytes.isEmpty || (← IO.checkCanceled) then return
  typed.modify (· ++ bytes)
  readKeyboard input typed

def environmentNat (name : String) (default : Nat) : IO Nat := do
  return ((← IO.getEnv name).bind String.toNat?).getD default

/-- Run a program whose settings and file were read. -/
def runProgram (settings : Settings) (source : Source) : IO Report := do
  let typed ← IO.mkRef ByteArray.empty
  let size := (← environmentNat "COLUMNS" 80, ← environmentNat "LINES" 40)
  let blank := Canvas.ofSize size.1 size.2
  let canvas := blank.start pictureWidth pictureHeight
  let input ← IO.getStdin
  let reader ←
    if settings.headless then
      pure none
    else
      IO.print Paint.clear
      Live.paint blank canvas
      some <$> IO.asTask (readKeyboard input typed) .dedicated
  let live : Live :=
    { settings := settings
      origin := ← IO.monoNanosNow
      canvas := if settings.headless then none else some canvas
      keyboard := .ofLayout settings.layout
      typed := typed }
  let chance ← IO.rand 0 (Nat.pow 2 64 - 1)
  try
    let result ← live.session source (UInt64.ofNat chance)
    return (Report.ofSession? settings.headless result).getD .abrupt
  catch e =>
    IO.eprintln e
    return .abrupt
  finally
    if let some task := reader then IO.cancel task

def systemError : IO.Error → SystemError
  | .noFileOrDirectory .. => .notFound
  | .permissionDenied .. => .denied
  | e => ⟨5, "Other", toString e⟩

def report (args : List String) : IO Report := do
  match readArguments args with
  | .error e => return .ofUsage e
  | .ok settings =>
    match ← (IO.FS.readBinFile settings.rom).toBaseIO with
    | .error e => return .failed (systemError e).record
    | .ok bytes => runProgram settings { bytes := bytes.toList }

end Chip8Vm

def main (args : List String) : IO UInt32 := do
  let report ← Chip8Vm.report args
  IO.print report.output
  IO.eprint report.errors
  return UInt32.ofNat report.exit
