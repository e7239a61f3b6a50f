import Chip8Vm.Device.Screen
import Chip8Vm.Device.Tone
import Chip8Vm.Machine
import Chip8Vm.Random.ChaCha

/-!
# Chip8Vm.Console

A machine plugged to its devices.

The console carries out the machine's steps and then does what they want from
the devices.  A device that fails ends the operation with its fault, after the
machine has changed; the next operation goes on from there.  The devices see
everything the machine asks for and tell it nothing.
-/

namespace Chip8Vm

/-- A machine, its devices, and what is kept about them. -/
structure Console (w h : Nat) where
  machine : Machine w h
  screen : Screen := {}
  tone : Tone := {}
  journal : Journal := #[]
  /-- Was the tone started and not stopped since? -/
  sounding : Bool := false
  /-- How many instructions were carried out, devices included. -/
  executed : Nat := 0
  /-- Was the stop signal raised, other than by who watches the screen? -/
  stop : Bool := false

namespace Console

variable {w h : Nat}

/-- A console before anything is done with it, whatever its random bytes are. -/
def blank (w h : Nat) (random : Random.Stream) : Console w h :=
  { machine := .initial w h random }

/-- The program's own console, with a seed for its generator. -/
def initial (w h : Nat) (seed : UInt64) : Console w h := .blank w h (.chacha seed)

def note (c : Console w h) (notes : List Note) : Console w h :=
  { c with journal := notes.foldl Array.push c.journal }

def isStopped (c : Console w h) : Bool := c.stop || c.screen.raised

/-! ## Devices -/

def present (c : Console w h) : Except Fault Unit × Console w h :=
  let (r, screen) := c.screen.present c.machine.picture
  (r, { c with screen := screen })

/-- Make a call to the tone generator; the tone is then on or off, unless the
call failed. -/
def callTone (c : Console w h) (call : ToneCall) : Except Fault Unit × Console w h :=
  match c.tone.call call with
  | (.ok (), tone) => (.ok (), { c with tone := tone, sounding := call == .beep })
  | (.error f, tone) => (.error f, { c with tone := tone })

/-- Start or stop the tone if the sound timer says so and it is not so yet. -/
def syncTone (c : Console w h) : Except Fault Unit × Console w h :=
  let ticks := c.machine.cpu.sound
  if (ticks != 0) == c.sounding then
    (.ok (), c)
  else if ticks != 0 then
    (c.note [.soundOn ticks]).callTone .beep
  else
    (c.note [.soundOff]).callTone .stop

def perform (c : Console w h) : Effect → Except Fault Unit × Console w h
  | .nothing => (.ok (), c)
  | .present => c.present
  | .tone => c.syncTone

/-! ## Operations -/

/-- One step of the machine.  An instruction counts as carried out when the
devices have done their part. -/
def step (c : Console w h) : Except Fault Outcome × Console w h :=
  let s := c.machine.step
  let c := { c with machine := s.machine }.note s.notes
  match s.result with
  | .error f => (.error f, c)
  | .ok (outcome, effect) =>
    match c.perform effect with
    | (.error f, c) => (.error f, c)
    | (.ok (), c) =>
      match outcome with
      | .executed _ => (.ok outcome, { c with executed := c.executed + 1 })
      | _ => (.ok outcome, c)

def tickTimers (c : Console w h) : Except Fault Unit × Console w h :=
  { c with machine := c.machine.tick }.syncTone

/-- Load a program; the number of its bytes. -/
def load (c : Console w h) (s : Source) : Except Fault Nat × Console w h :=
  match c.machine.ram.load s with
  | (.error f, ram) => (.error f, { c with machine := { c.machine with ram := ram } })
  | (.ok n, ram) =>
    (.ok n, { c with machine := { c.machine with ram := ram } }.note
      [.loaded n Ram.programStart])

/-- Silence the tone and give the screen back.  A tone that cannot be silenced
ends the shutdown. -/
def shutdown (c : Console w h) : Except Fault Unit × Console w h :=
  let (r, c) := if c.sounding then c.callTone .stop else (.ok (), c)
  match r with
  | .error f => (.error f, c)
  | .ok () =>
    let (r, screen) := c.screen.call .stop
    (r, { c with screen := screen })

def setWrap (c : Console w h) (wrap : OriginWrap) : Console w h :=
  { c with machine := { c.machine with wrap := wrap } }

def reseed (c : Console w h) (seed : UInt64) : Console w h :=
  { c with machine := { c.machine with random := c.machine.random.reseed seed } }

def configure (c : Console w h) (wrap : OriginWrap) (seed : Option UInt64) : Console w h :=
  match seed with
  | some s => (c.setWrap wrap).reseed s
  | none => c.setWrap wrap

/-- A console with nothing on record. -/
def forget (c : Console w h) : Console w h :=
  { c with
    screen := { c.screen with calls := #[] }
    tone := { c.tone with calls := #[] }
    journal := #[] }

def accept (c : Console w h) (e : KeyEvent) : Console w h :=
  { c with machine := c.machine.accept e }.note (HexPad.notes e)

end Console

end Chip8Vm
