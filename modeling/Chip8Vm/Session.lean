import Chip8Vm.CommandLine.Settings
import Chip8Vm.Pace.Pacer

/-!
# Chip8Vm.Session

A whole session: set up the console, load the program, pace it to its end, and
shut the devices down.

The shutdown comes on every way out, also when the program cannot be loaded.
What went wrong in the run is reported ahead of what went wrong in the shutdown.
-/

namespace Chip8Vm

inductive SessionResult (w h : Nat) where
  /-- It ended in good order with this picture. -/
  | shown (picture : Bitmap w h)
  /-- It ended with a fault. -/
  | failed (f : Fault)
  | overflow
  | unfinished

namespace Session

variable {σ : Type} {w h : Nat}

/-- Load the program and, if it loads, pace it to its end. -/
def loadAndRun (settings : Settings) (source : Source) (clock : Clock σ) (sleeps : Nat)
    (s : σ) (c : Console w h) : Ending × Console w h × σ :=
  match c.load source with
  | (.error f, c) => (.failed f, c, s)
  | (.ok _, c) =>
    let pacer := Pacer.ofRate settings.instructionRate settings.runFor
    let (ending, r) := Run.run clock sleeps { pacer := pacer, console := c, clock := s }
    (ending, r.console, r.clock)

def close (ending : Ending) (c : Console w h) : SessionResult w h × Console w h :=
  match ending, c.shutdown with
  | .overflow, (_, c) => (.overflow, c)
  | .unfinished, _ => (.unfinished, c)
  | .failed f, (_, c) => (.failed f, c)
  | .stopped, (.error f, c) => (.failed f, c)
  | .stopped, (.ok (), c) => (.shown c.machine.picture, c)

/-- A session from its settings to its end. -/
def run (settings : Settings) (source : Source) (clock : Clock σ) (sleeps : Nat)
    (s : σ) (c : Console w h) : SessionResult w h × Console w h × σ :=
  let c := c.configure settings.wrap settings.seed
  let (ending, c, s) := loadAndRun settings source clock sleeps s c
  let (result, c) := close ending c
  (result, c, s)

end Session

end Chip8Vm
