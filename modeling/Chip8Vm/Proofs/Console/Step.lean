import Chip8Vm.Pace.Pacer
import Chip8Vm.Proofs.Device.Record

/-!
# Chip8Vm.Proofs.Console.Step

What an operation of a console can do.

A step of the console is the machine's step and then, unless the program is at
fault, what that wants from the devices.  `StepCase` lists the ways this can
go; every later proof about steps goes by its cases.  All that an operation does
to the devices it does through `perform`, so what `perform` keeps is kept by
every tick (`Stable.ofPerform`).
-/

namespace Chip8Vm

instance decidableEqExcept {ε α : Type} [DecidableEq ε] [DecidableEq α] :
    DecidableEq (Except ε α)
  | .error f, .error g => decidable_of_iff (f = g) (by rw [Except.error.injEq])
  | .ok a, .ok b => decidable_of_iff (a = b) (by rw [Except.ok.injEq])
  | .error _, .ok _ => .isFalse nofun
  | .ok _, .error _ => .isFalse nofun

namespace Console

variable {w h : Nat}

/-! ## Fields -/

@[simp] theorem machine_note (c : Console w h) (n : List Note) : (c.note n).machine = c.machine :=
  rfl

@[simp] theorem screen_note (c : Console w h) (n : List Note) : (c.note n).screen = c.screen := rfl

@[simp] theorem tone_note (c : Console w h) (n : List Note) : (c.note n).tone = c.tone := rfl

@[simp] theorem sounding_note (c : Console w h) (n : List Note) :
    (c.note n).sounding = c.sounding := rfl

/-! ## Steps by cases -/

/-- The console after the machine's part of a step. -/
def stepped (c : Console w h) : Console w h :=
  { c with machine := c.machine.step.machine }.note c.machine.step.notes

/-- The console with one more instruction counted, if that is what was done. -/
def counting (c : Console w h) : Outcome → Console w h
  | .executed _ => { c with executed := c.executed + 1 }
  | _ => c

/-- The ways a step can go. -/
inductive StepCase (c : Console w h) : Except Fault Outcome × Console w h → Prop where
  /-- The program is at fault. -/
  | fault {f : Fault} (hf : c.machine.step.result = .error f) :
      StepCase c (.error f, c.stepped)
  /-- A device fails after the machine's part is done. -/
  | refused {o : Outcome} {e : Effect} {f : Fault} {d : Console w h}
      (hr : c.machine.step.result = .ok (o, e)) (hd : c.stepped.perform e = (.error f, d)) :
      StepCase c (.error f, d)
  /-- The devices have done their part. -/
  | done {o : Outcome} {e : Effect} {d : Console w h}
      (hr : c.machine.step.result = .ok (o, e)) (hd : c.stepped.perform e = (.ok (), d)) :
      StepCase c (.ok o, d.counting o)

theorem step_of_fault {c : Console w h} {f : Fault} (hf : c.machine.step.result = .error f) :
    c.step = (.error f, c.stepped) := by
  simp only [step, hf, stepped]

theorem step_of_refused {c d : Console w h} {o : Outcome} {e : Effect} {f : Fault}
    (hr : c.machine.step.result = .ok (o, e)) (hd : c.stepped.perform e = (.error f, d)) :
    c.step = (.error f, d) := by
  simp only [stepped] at hd
  simp only [step, hr, hd]

theorem step_of_done {c d : Console w h} {o : Outcome} {e : Effect}
    (hr : c.machine.step.result = .ok (o, e)) (hd : c.stepped.perform e = (.ok (), d)) :
    c.step = (.ok o, d.counting o) := by
  simp only [stepped] at hd
  simp only [step, hr, hd]
  cases o <;> rfl

theorem stepCase (c : Console w h) : StepCase c c.step := by
  cases hr : c.machine.step.result with
  | error f =>
      rw [step_of_fault hr]
      exact .fault hr
  | ok oe =>
      obtain ⟨o, e⟩ := oe
      rcases hd : c.stepped.perform e with ⟨f | u, d⟩
      · rw [step_of_refused hr hd]
        exact .refused hr hd
      · rw [step_of_done hr hd]
        exact .done hr hd

/-- What the machine did is the answer of the step when nothing is asked of the devices. -/
theorem step_of_nothing {c : Console w h} {o : Outcome}
    (hr : c.machine.step.result = .ok (o, .nothing)) : c.step.1 = .ok o := by
  generalize hout : c.step = out
  have hcase := hout ▸ c.stepCase
  cases hcase with
  | fault hf => exact nomatch hf.symm.trans hr
  | refused hr' hd =>
      cases hr'.symm.trans hr
      exact nomatch hd
  | done hr' hd =>
      cases hr'.symm.trans hr
      rfl

theorem result_of_step_ok {c : Console w h} {o : Outcome} (ho : c.step.1 = .ok o) :
    ∃ e, c.machine.step.result = .ok (o, e) := by
  generalize hout : c.step = out at ho
  have hcase := hout ▸ c.stepCase
  cases hcase with
  | fault hf => exact nomatch ho
  | refused hr hd => exact nomatch ho
  | @done o' e d hr hd =>
      cases ho
      exact ⟨e, hr⟩

/-- An instruction tick leaves what the step leaves. -/
theorem serve_instruction_snd (c : Console w h) : (c.serve .instruction).2 = c.step.2 := by
  unfold serve
  obtain ⟨_ | _, d⟩ := c.step <;> rfl

/-! ## What is kept -/

/-- A property of consoles that nothing which can happen in a run takes away. -/
structure Stable (Q : Console w h → Prop) : Prop where
  present : ∀ c, Q c → Q c.present.2
  serve : ∀ c t, Q c → Q (c.serve t).2
  happen : ∀ c e, Q c → Q (c.happen e)
  note : ∀ c n, Q c → Q (c.note n)

/-- The devices, and what the console knows of the tone. -/
def devices (c : Console w h) : Screen × Tone × Bool := (c.screen, c.tone, c.sounding)

/-- Nothing is asked of the devices on the way from one console to the other; the
stop signal may be raised. -/
structure Untouched (c d : Console w h) : Prop where
  devices : d.devices = c.devices
  stop : c.stop = true → d.stop = true

theorem untouched_stepped (c : Console w h) : Untouched c c.stepped := ⟨rfl, id⟩

theorem untouched_counting (c : Console w h) (o : Outcome) : Untouched c (c.counting o) := by
  cases o <;> exact ⟨rfl, id⟩

theorem untouched_happen (c : Console w h) (e : Happening) : Untouched c (c.happen e) := by
  cases e with
  | key e => exact ⟨rfl, id⟩
  | note n => exact ⟨rfl, id⟩
  | stop => exact ⟨rfl, fun _ => rfl⟩

/-- A property of the devices that their calls keep is stable. -/
theorem Stable.ofPerform {Q : Console w h → Prop}
    (hdevices : ∀ c d : Console w h, Untouched c d → Q c → Q d)
    (hperform : ∀ c e, Q c → Q (c.perform e).2) : Stable Q where
  present c hc := hperform c .present hc
  happen c e hc := hdevices c _ (untouched_happen c e) hc
  note c n hc := hdevices c (c.note n) ⟨rfl, id⟩ hc
  serve c t hc := by
    cases t with
    | timer =>
        have htick : Q { c with machine := c.machine.tick } := hdevices c _ ⟨rfl, id⟩ hc
        exact hperform _ .tone htick
    | instruction =>
        have hstepped : Q c.stepped := hdevices c _ (untouched_stepped c) hc
        rw [serve_instruction_snd]
        generalize hout : c.step = out
        have hcase := hout ▸ c.stepCase
        cases hcase with
        | fault hf => exact hstepped
        | @refused o e f d hr hd =>
            have hd' := hperform c.stepped e hstepped
            rwa [hd] at hd'
        | @done o e d hr hd =>
            have hd' := hperform c.stepped e hstepped
            rw [hd] at hd'
            exact hdevices d _ (untouched_counting d o) hd'

end Console

end Chip8Vm
