import Chip8Vm.Proofs.Machine.Confined
import Chip8Vm.Proofs.Machine.Meanwhile

/-!
# Chip8Vm.Proofs.Machine.Timer

The two timers, and which steps set them.

Each timer is set by one instruction alone.  A step that does not come to it leaves the timer as
it is, whether the step carries out another instruction, waits or is at fault (`timer_step`);
a tick counts both down (`timer_tick`).
-/

namespace Chip8Vm

inductive Timer where
  | delay | sound
  deriving DecidableEq, Repr

def Cpu.timer (c : Cpu) : Timer → UInt8
  | .delay => c.delay
  | .sound => c.sound

/-- Does the instruction set the timer? -/
def Instruction.sets (t : Timer) (i : Instruction) : Bool :=
  match t, i with
  | .delay, setDelay _ => true
  | .sound, setSound _ => true
  | _, _ => false

theorem Instruction.sets_of_usesTimer {t : Timer} {i : Instruction} (hi : i.usesTimer = false) :
    i.sets t = false := by
  cases i <;> cases t <;> first | rfl | cases hi

namespace Machine

variable {w h : Nat} {m : Machine w h} {t : Timer}

theorem timer_tick (m : Machine w h) (t : Timer) :
    m.tick.cpu.timer t = Cpu.countDown (m.cpu.timer t) := by
  cases t <;> rfl

theorem Confined.timer {m' : Machine w h} {i : Instruction} (hm' : Confined i m m')
    (hi : i.sets t = false) : m'.cpu.timer t = m.cpu.timer t := by
  cases t with
  | delay => exact hm'.cpu.delay fun x hx => nomatch hx ▸ hi
  | sound => exact hm'.cpu.sound fun x hx => nomatch hx ▸ hi

/-- A step that does not come to an instruction which sets the timer leaves it as it is. -/
theorem timer_step (hi : ∀ i, m.upcoming? = some i → i.sets t = false) :
    m.step.machine.cpu.timer t = m.cpu.timer t := by
  generalize hout : m.step = out
  have hcase := hout ▸ m.stepCase
  cases hcase with
  | waiting hmode hslot => rfl
  | resumed hmode hslot => cases t <;> rfl
  | unknown hmode hword => cases t <;> rfl
  | refused hupcoming hf => cases t <;> rfl
  | executed hupcoming hm' =>
      have hkept := (confined_execute hm').timer (hi _ hupcoming)
      rw [hkept]
      cases t <;> rfl

end Machine

end Chip8Vm
