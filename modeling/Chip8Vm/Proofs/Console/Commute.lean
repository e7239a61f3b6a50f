import Chip8Vm.Proofs.Console.History
import Chip8Vm.Proofs.Console.Unnoted
import Chip8Vm.Proofs.Machine.Meanwhile
import Chip8Vm.Proofs.Machine.Timer

/-!
# Chip8Vm.Proofs.Console.Commute

Steps, ticks and key events that do not depend on their order.

A change that a step neither notices nor undoes can be made before the step or after it
(`step_comm`).  Such are the change that a tick makes of the timers and of the tone, unless the
step comes to an instruction that uses a timer, and the change that a key event makes of the
pad, unless the step waits for a key or comes to an instruction that uses the pad
(`step_commutes`).  Only the order of the notes is another.
-/

namespace Chip8Vm.Console

variable {w h : Nat} {c d : Console w h} {s : Meanwhile}

/-! ## Changes that a step does not notice -/

/-- A change commutes with a step if it does with the machine's part and the devices' part. -/
theorem step_comm (f : Console w h → Console w h)
    (hresult : (f c).machine.step.result = c.machine.step.result)
    (hstepped : (f c).stepped = f c.stepped)
    (hperform : ∀ o e, c.machine.step.result = .ok (o, e) →
      (f c.stepped).perform e = ((c.stepped.perform e).1, f (c.stepped.perform e).2))
    (hcounting : ∀ d o, (f d).counting o = f (d.counting o)) :
    (f c).step = (c.step.1, f c.step.2) := by
  generalize hout : c.step = out
  have hcase := hout ▸ c.stepCase
  cases hcase with
  | fault hf => rw [step_of_fault (hresult.trans hf), hstepped]
  | @refused o e g d hr hd =>
      have hother := hperform o e hr
      rw [hd, ← hstepped] at hother
      exact step_of_refused (hresult.trans hr) hother
  | @done o e d hr hd =>
      have hother := hperform o e hr
      rw [hd, ← hstepped] at hother
      rw [step_of_done (hresult.trans hr) hother, hcounting]

/-- The console after a change of the machine's pad and timers. -/
def meanwhile (c : Console w h) (s : Meanwhile) : Console w h :=
  { c with machine := c.machine.meanwhile s }

/-- The console with another generator, and with what is to be known of it. -/
def withTone (c : Console w h) (tone : Tone) (sounding : Bool) : Console w h :=
  { c with tone := tone, sounding := sounding }

theorem callTone_meanwhile (c : Console w h) (s : Meanwhile) (call : ToneCall) :
    (c.meanwhile s).callTone call = ((c.callTone call).1, (c.callTone call).2.meanwhile s) := by
  have htone : (c.meanwhile s).tone.call call = c.tone.call call := rfl
  simp only [callTone, htone]
  obtain ⟨_ | _, t⟩ := c.tone.call call <;> rfl

/-- Bringing the tone in line looks at the sound timer alone. -/
theorem syncTone_meanwhile (c : Console w h) (hs : s.sound = id) :
    (c.meanwhile s).syncTone = (c.syncTone.1, c.syncTone.2.meanwhile s) := by
  have hsound : (c.meanwhile s).machine.cpu.sound = c.machine.cpu.sound :=
    congrFun hs c.machine.cpu.sound
  have hsounding : (c.meanwhile s).sounding = c.sounding := rfl
  simp only [syncTone, hsound, hsounding]
  split
  · rfl
  · split
    · exact callTone_meanwhile (c.note [.soundOn c.machine.cpu.sound]) s .beep
    · exact callTone_meanwhile (c.note [.soundOff]) s .stop

theorem perform_meanwhile (c : Console w h) {e : Effect} (he : e = .tone → s.sound = id) :
    (c.meanwhile s).perform e = ((c.perform e).1, (c.perform e).2.meanwhile s) := by
  cases e with
  | nothing => rfl
  | present => rfl
  | tone => exact syncTone_meanwhile c (he rfl)

/-- A change of the pad and the timers that the machine's part of a step ignores can be made
before the step or after it. -/
theorem step_meanwhile (hmode : c.machine.mode = .running ∨ s.pad = id)
    (hi : ∀ i, c.machine.upcoming? = some i → i.Ignores s) :
    (c.meanwhile s).step = (c.step.1, c.step.2.meanwhile s) := by
  have hmachine : (c.meanwhile s).machine.step = _ := Machine.step_meanwhile hmode hi
  refine step_comm (fun d => d.meanwhile s) ?_ ?_ (fun o e hr => ?_) fun d o => ?_
  · rw [hmachine]
  · simp only [stepped, hmachine]
    rfl
  · refine perform_meanwhile c.stepped fun he => ?_
    obtain ⟨x, hx⟩ := Machine.setSound_of_result (he ▸ hr)
    exact ((hi _ hx).timers rfl).2
  · cases o <;> rfl

/-- What is known of the generator matters only to the instruction that sets the sound timer. -/
theorem step_withTone (hi : ∀ i, c.machine.upcoming? = some i → i.sets .sound = false) (tone : Tone)
    (sounding : Bool) :
    (c.withTone tone sounding).step = (c.step.1, c.step.2.withTone tone sounding) := by
  refine step_comm (fun d => d.withTone tone sounding) rfl rfl (fun o e hr => ?_) fun d o => ?_
  · cases e with
    | nothing => rfl
    | present => rfl
    | tone =>
        obtain ⟨x, hx⟩ := Machine.setSound_of_result hr
        cases hi _ hx
  · cases o <;> rfl

/-! ## Ticks and key events -/

theorem callTone_congr (htone : d.tone = c.tone) (hsounding : d.sounding = c.sounding)
    (call : ToneCall) :
    (d.callTone call).1 = (c.callTone call).1 ∧
      (d.callTone call).2.unnoted =
        (d.withTone (c.callTone call).2.tone (c.callTone call).2.sounding).unnoted := by
  simp only [callTone, htone]
  rcases c.tone.call call with ⟨f | u, t⟩
  · refine ⟨rfl, ?_⟩
    show ({ d with tone := t } : Console w h).unnoted = (d.withTone t c.sounding).unnoted
    rw [← hsounding]
    rfl
  · exact ⟨rfl, rfl⟩

/-- Bringing the tone in line looks at the sound timer, the generator and what is known of it,
and changes the last two, but for what is noted. -/
theorem syncTone_congr (hsound : d.machine.cpu.sound = c.machine.cpu.sound)
    (htone : d.tone = c.tone) (hsounding : d.sounding = c.sounding) :
    d.syncTone.1 = c.syncTone.1 ∧
      d.syncTone.2.unnoted =
        (d.withTone c.syncTone.2.tone c.syncTone.2.sounding).unnoted := by
  simp only [syncTone, hsound, hsounding]
  split
  · rw [← htone, ← hsounding]
    exact ⟨rfl, rfl⟩
  · split
    · exact callTone_congr (c := c.note _) (d := d.note _) htone hsounding .beep
    · exact callTone_congr (c := c.note _) (d := d.note _) htone hsounding .stop

theorem tick_comm (hi : ∀ i, c.machine.upcoming? = some i → i.usesTimer = false) :
    c.tickTimers.2.step.1 = c.step.1 ∧ c.step.2.tickTimers.1 = c.tickTimers.1 ∧
      c.tickTimers.2.step.2.unnoted = c.step.2.tickTimers.2.unnoted := by
  have hsets : ∀ i, c.machine.upcoming? = some i → i.sets .sound = false := fun i hupcoming =>
    Instruction.sets_of_usesTimer (hi i hupcoming)
  have hstep : (c.meanwhile .tick).step = (c.step.1, c.step.2.meanwhile .tick) :=
    step_meanwhile (.inr rfl) fun i hupcoming => Instruction.ignores_tick (hi i hupcoming)
  -- the tick first: apart from the notes it changes the timers and the tone
  have hticked : c.tickTimers.2.unnoted = ((c.meanwhile .tick).withTone c.tickTimers.2.tone
      c.tickTimers.2.sounding).unnoted :=
    (syncTone_congr (c := c.meanwhile .tick) (d := c.meanwhile .tick) rfl rfl rfl).2
  obtain ⟨hresult, hconsole⟩ := unreading_step.congr hticked
  rw [step_withTone (c := c.meanwhile .tick) hsets, hstep] at hresult hconsole
  -- the step first: it leaves the tick the same sound timer and the same tone
  have hkept : c.step = (c.step.1, c.step.2.withTone c.tone c.sounding) :=
    step_withTone hsets c.tone c.sounding
  have hsound : c.step.2.machine.cpu.sound = c.machine.cpu.sound := by
    rw [machine_step]
    exact Machine.timer_step (t := .sound) hsets
  have hlate := syncTone_congr (c := c.meanwhile .tick) (d := c.step.2.meanwhile .tick)
    (congrArg Cpu.countDown hsound) (congrArg (fun out => out.2.tone) hkept)
    (congrArg (fun out => out.2.sounding) hkept)
  exact ⟨hresult, hlate.1, hconsole.trans hlate.2.symm⟩

theorem accept_comm (hmode : c.machine.mode = .running)
    (hi : ∀ i, c.machine.upcoming? = some i → i.usesPad = false) (e : KeyEvent) :
    (c.accept e).step.1 = c.step.1 ∧
      (c.accept e).step.2.unnoted = (c.step.2.accept e).unnoted := by
  have hstep : (c.meanwhile (.event e)).step = (c.step.1, c.step.2.meanwhile (.event e)) :=
    step_meanwhile (.inl hmode) fun i hupcoming => Instruction.ignores_event (hi i hupcoming) e
  have haccepted : (c.accept e).unnoted = (c.meanwhile (.event e)).unnoted := rfl
  obtain ⟨hresult, hconsole⟩ := unreading_step.congr haccepted
  rw [hstep] at hresult hconsole
  exact ⟨hresult, hconsole⟩

/-- **Independent operations commute.** Unless a step comes to an instruction that uses a timer,
it answers alike before and after a tick, the tick answers alike before and after the step, and
both orders leave the same machine and the same devices, with the same records of their calls.
Unless a step waits for a key or comes to an instruction that uses the pad, the same is true of
the step and any key event.  Only the notes stand in another order; whether the program is at
fault or a device refuses makes no difference. -/
theorem step_commutes (c : Console w h) :
    ((∀ i, c.machine.upcoming? = some i → i.usesTimer = false) →
      c.tickTimers.2.step.1 = c.step.1 ∧ c.step.2.tickTimers.1 = c.tickTimers.1 ∧
        c.tickTimers.2.step.2.unnoted = c.step.2.tickTimers.2.unnoted) ∧
    (c.machine.mode = .running →
      (∀ i, c.machine.upcoming? = some i → i.usesPad = false) → ∀ e : KeyEvent,
      (c.accept e).step.1 = c.step.1 ∧
        (c.accept e).step.2.unnoted = (c.step.2.accept e).unnoted) :=
  ⟨tick_comm, accept_comm⟩

/-- A console whose tone ends with the next tick, and whose next instruction draws. -/
def humming : Console 8 4 :=
  (plugged 8 4 (.chacha 0) .inherited {}).after
    [.load { bytes := [0x61, 0x01, 0xf1, 0x18, 0xd0, 0x05] }, .step, .step]

/-- The tone is silenced and the glyph is shown, whichever comes first; a key that is pressed
makes no difference to the drawing. -/
theorem step_commutes_drawing :
    humming.sounding = true ∧ humming.machine.cpu.sound = 1 ∧
    humming.machine.mode = .running ∧
    humming.machine.upcoming? = some (.draw 0 0 5) ∧
    humming.tickTimers.2.step.2.unnoted = humming.step.2.tickTimers.2.unnoted ∧
    (humming.accept ⟨0x4, true⟩).step.2.unnoted =
      (humming.step.2.accept ⟨0x4, true⟩).unnoted := by
  have hrun : humming.sounding = true ∧ humming.machine.cpu.sound = 1 ∧
      humming.machine.mode = .running ∧
      humming.machine.upcoming? = some (.draw 0 0 5) := by decide +kernel
  obtain ⟨hsounding, hsound, hmode, hupcoming⟩ := hrun
  have htimers : ∀ i, humming.machine.upcoming? = some i → i.usesTimer = false := by
    rintro i hi
    cases hupcoming.symm.trans hi
    rfl
  have hpad : ∀ i, humming.machine.upcoming? = some i → i.usesPad = false := by
    rintro i hi
    cases hupcoming.symm.trans hi
    rfl
  have hticked := ((step_commutes humming).1 htimers).2.2
  have haccepted := ((step_commutes humming).2 hmode hpad ⟨0x4, true⟩).2
  exact ⟨hsounding, hsound, hmode, hupcoming, hticked, haccepted⟩

end Chip8Vm.Console
