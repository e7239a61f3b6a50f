import Chip8Vm.Proofs.Console.Step
import Chip8Vm.Proofs.Machine.Step

/-!
# Chip8Vm.Proofs.Console.Operation

The operations of a console as data, and what any number of them does to the machine.

An operation may fail, and whatever comes next goes on from there.  `Machine.operate` is
an operation without its devices; `machine_operate` says that the machine in a console
changes by it alone, whatever the devices do.  So two consoles with the same machine go
through the same machines, however differently their devices behave
(`machines_of_hazards`).
-/

namespace Chip8Vm

/-- Something that can be done with a console. -/
inductive Operation where
  | load (source : Source)
  | step
  | tick
  | present
  | shutdown
  | configure (wrap : OriginWrap) (seed : Option UInt64)
  | setWrap (wrap : OriginWrap)
  | reseed (seed : UInt64)
  | accept (e : KeyEvent)

/-- What an operation answers unless it fails. -/
inductive Answer where
  | loaded (bytes : Nat)
  | stepped (outcome : Outcome)
  | done
  deriving DecidableEq

abbrev Response := Except Fault Answer

namespace Machine

variable {w h : Nat}

/-- An operation on a machine without devices. -/
def operate (m : Machine w h) : Operation → Machine w h
  | .load source => { m with ram := (m.ram.load source).2 }
  | .step => m.step.machine
  | .tick => m.tick
  | .present => m
  | .shutdown => m
  | .configure wrap seed =>
    { m with wrap := wrap, random := seed.elim m.random m.random.reseed }
  | .setWrap wrap => { m with wrap := wrap }
  | .reseed seed => { m with random := m.random.reseed seed }
  | .accept e => m.accept e

/-- The machines after every one of some operations. -/
def course (m : Machine w h) : List Operation → List (Machine w h)
  | [] => []
  | op :: ops => m.operate op :: (m.operate op).course ops

end Machine

namespace Console

variable {w h : Nat}

def operate (c : Console w h) : Operation → Response × Console w h
  | .load source => let (r, c) := c.load source; (r.map .loaded, c)
  | .step => let (r, c) := c.step; (r.map .stepped, c)
  | .tick => let (r, c) := c.tickTimers; (r.map fun _ => .done, c)
  | .present => let (r, c) := c.present; (r.map fun _ => .done, c)
  | .shutdown => let (r, c) := c.shutdown; (r.map fun _ => .done, c)
  | .configure wrap seed => (.ok .done, c.configure wrap seed)
  | .setWrap wrap => (.ok .done, c.setWrap wrap)
  | .reseed seed => (.ok .done, c.reseed seed)
  | .accept e => (.ok .done, c.accept e)

/-- Carry out operations one after the other, also after one that fails; every response and
the console after it. -/
def course (c : Console w h) : List Operation → List (Response × Console w h)
  | [] => []
  | op :: ops => c.operate op :: (c.operate op).2.course ops

/-! ## Devices leave the machine alone -/

@[simp] theorem machine_present (c : Console w h) : c.present.2.machine = c.machine := rfl

@[simp] theorem machine_callTone (c : Console w h) (call : ToneCall) :
    (c.callTone call).2.machine = c.machine := by
  unfold callTone
  cases c.tone.call call with
  | mk r tone => cases r <;> rfl

@[simp] theorem machine_syncTone (c : Console w h) : c.syncTone.2.machine = c.machine := by
  simp only [syncTone]
  split
  · rfl
  · split
    · rw [machine_callTone, machine_note]
    · rw [machine_callTone, machine_note]

@[simp] theorem machine_perform (c : Console w h) (e : Effect) :
    (c.perform e).2.machine = c.machine := by
  cases e with
  | nothing => rfl
  | present => exact machine_present c
  | tone => exact machine_syncTone c

@[simp] theorem machine_counting (c : Console w h) (o : Outcome) :
    (c.counting o).machine = c.machine := by
  cases o <;> rfl

/-- A step changes the machine as it does without devices, however it goes. -/
theorem machine_step (c : Console w h) : c.step.2.machine = c.machine.step.machine := by
  generalize hout : c.step = out
  have hcase := hout ▸ c.stepCase
  cases hcase with
  | fault hf => rfl
  | @refused o e f d hr hd =>
      have hmachine := machine_perform c.stepped e
      rw [hd] at hmachine
      exact hmachine
  | @done o e d hr hd =>
      have hmachine := machine_perform c.stepped e
      rw [hd] at hmachine
      exact (machine_counting d o).trans hmachine

/-- A step that carries out an instruction leaves the machine that the instruction leaves. -/
theorem machine_of_execute {c : Console w h} {i : Instruction} {m' : Machine w h} {e : Effect}
    (hi : c.machine.upcoming? = some i) (hm' : c.machine.moved.execute i = .ok (m', e)) :
    c.step.2.machine = m' := by
  rw [machine_step, Machine.step_of_upcoming hi, hm']

/-- An instruction that wants nothing from the devices is carried out. -/
theorem step_of_execute {c : Console w h} {i : Instruction} {m' : Machine w h}
    (hi : c.machine.upcoming? = some i) (hm' : c.machine.moved.execute i = .ok (m', .nothing)) :
    c.step.1 = .ok (.executed i) :=
  step_of_nothing (by rw [Machine.step_of_upcoming hi, hm'])

theorem machine_load (c : Console w h) (source : Source) :
    (c.load source).2.machine = { c.machine with ram := (c.machine.ram.load source).2 } := by
  unfold load
  cases c.machine.ram.load source with
  | mk r ram => cases r <;> rfl

/-- What calls to the tone generator keep, and stopping the screen, a shutdown keeps. -/
theorem shutdown_keeps {α : Type} (view : Console w h → α)
    (htone : ∀ (c : Console w h) call, view (c.callTone call).2 = view c)
    (hscreen : ∀ c : Console w h, view { c with screen := (c.screen.call .stop).2 } = view c)
    (c : Console w h) : view c.shutdown.2 = view c := by
  have hsilenced : view (if c.sounding then c.callTone .stop else (.ok (), c)).2 = view c := by
    split
    · exact htone c .stop
    · rfl
  unfold shutdown
  generalize (if c.sounding then c.callTone .stop else (.ok (), c)) = out at hsilenced ⊢
  obtain ⟨r, d⟩ := out
  cases r with
  | error f => exact hsilenced
  | ok u => exact (hscreen d).trans hsilenced

theorem machine_shutdown (c : Console w h) : c.shutdown.2.machine = c.machine :=
  shutdown_keeps machine machine_callTone (fun _ => rfl) c

/-- An operation changes the machine as it does without devices. -/
theorem machine_operate (c : Console w h) (op : Operation) :
    (c.operate op).2.machine = c.machine.operate op := by
  cases op with
  | load source => exact machine_load c source
  | step => exact machine_step c
  | tick => exact machine_syncTone _
  | present => exact machine_present c
  | shutdown => exact machine_shutdown c
  | configure wrap seed => cases seed <;> rfl
  | setWrap wrap => rfl
  | reseed seed => rfl
  | accept e => rfl

theorem machine_course (ops : List Operation) (c : Console w h) :
    (c.course ops).map (fun entry => entry.2.machine) = c.machine.course ops := by
  induction ops generalizing c with
  | nil => rfl
  | cons op ops ih =>
      simp only [course, Machine.course, List.map_cons]
      rw [ih, machine_operate]

/-! ## Any two schedules of failures -/

/-- Which device calls fail, and which frames make somebody raise the stop signal. -/
structure Hazards where
  screen : ScreenOp → Nat → Bool := fun _ _ => false
  tone : ToneCall → Nat → Bool := fun _ _ => false
  raises : Nat → Bool := fun _ => false

/-- A new console on devices that fail by a schedule, whatever its random bytes are. -/
def plugged (w h : Nat) (random : Random.Stream) (wrap : OriginWrap) (hazards : Hazards) :
    Console w h :=
  { (blank w h random).setWrap wrap with
    screen := { fails := hazards.screen, raises := hazards.raises }
    tone := { fails := hazards.tone } }

/-- **Devices never influence the machine.** Whatever is done with a new console, in any
order and going on after faults, and whichever device calls fail, every single operation
leaves the machine that it leaves under any other schedule of failures: the one that the
operations make of a machine with no devices at all. -/
theorem machines_of_hazards (w h : Nat) (random : Random.Stream) (wrap : OriginWrap)
    (ops : List Operation) (one other : Hazards) :
    ((plugged w h random wrap one).course ops).map (fun entry => entry.2.machine) =
      ((plugged w h random wrap other).course ops).map (fun entry => entry.2.machine) ∧
    ((plugged w h random wrap one).course ops).map (fun entry => entry.2.machine) =
      ({ Machine.initial w h random with wrap := wrap } : Machine w h).course ops := by
  have hone := machine_course ops (plugged w h random wrap one)
  have hother := machine_course ops (plugged w h random wrap other)
  exact ⟨hone.trans hother.symm, hone⟩

end Console

end Chip8Vm
