import Chip8Vm.CommandLine.Report
import Chip8Vm.Terminal.Canvas
import Chip8Vm.Terminal.Typist

/-!
# Chip8Vm.CommandLine.Launch

Whole sessions with the settings of a command line, with a terminal or without.
-/

namespace Chip8Vm.CommandLine

open Terminal

def pictureWidth : Nat := 64

def pictureHeight : Nat := 32

/-- A console before its session; `chance` stands in for a seed that is not set. -/
def console (settings : Settings) (chance : UInt64) : Console pictureWidth pictureHeight :=
  .initial pictureWidth pictureHeight (settings.seed.getD chance)

/-- A session that nobody watches, of at most so many sleeps. -/
def launchHeadless (settings : Settings) (source : Source) (chance : UInt64) (sleeps : Nat) :
    Option Report :=
  let (result, _, _) :=
    Session.run settings source .punctual sleeps 0 (console settings chance)
  Report.ofSession? true result

/-- A session on a terminal with somebody at its keyboard, of at most so many sleeps:
the report and what the terminal shows at the end.  A frame that cannot be drawn
ends the session abruptly. -/
def launchOnTerminal (settings : Settings) (source : Source) (chance : UInt64) (sleeps : Nat)
    (canvas : Canvas) (typist : Typist) : Option Report × Canvas :=
  let (result, c, _) :=
    Session.run settings source Typist.clock sleeps typist (console settings chance)
  let (drawn, canvas) :=
    (canvas.start pictureWidth pictureHeight).perform (c.screen.calls.toList.map (·.1))
  (if drawn.isSome then Report.ofSession? false result else some .abrupt, canvas.close)

end Chip8Vm.CommandLine
