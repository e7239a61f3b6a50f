import Chip8Vm.Proofs.Console.Step

/-!
# Chip8Vm.Proofs.Console.InTune

The console knows whether the tone is on.

`Console.sounding` is what the console keeps about the tone, and `Tone.isOn` is
what the record of the generator says.  They agree in the beginning
(`Unused.inTune`) and whatever is called, because the console only takes note of
calls that succeed (`inTune_callTone`).
-/

namespace Chip8Vm.Console

variable {w h : Nat}

/-- What the console keeps about the tone is what the record of the generator says. -/
def InTune (c : Console w h) : Prop := c.sounding = c.tone.isOn

/-- A console whose devices were not called yet.  Nothing is said of its machine, of
the stop signal or of which calls are going to fail. -/
structure Unused (c : Console w h) : Prop where
  screen : c.screen.calls = #[]
  tone : c.tone.calls = #[]
  sounding : c.sounding = false

theorem Unused.inTune {c : Console w h} (hc : c.Unused) : c.InTune := by
  simp [InTune, Tone.isOn, hc.tone, hc.sounding]

/-! ## Calls to the generator -/

theorem callTone_refused {c : Console w h} {call : ToneCall} (hr : c.tone.refuses call = true) :
    c.callTone call = (.error (Tone.fault call), { c with tone := (c.tone.call call).2 }) := by
  simp [callTone, Tone.call_eq, hr]

theorem callTone_accepted {c : Console w h} {call : ToneCall}
    (hr : c.tone.refuses call = false) :
    c.callTone call =
      (.ok (), { c with tone := (c.tone.call call).2, sounding := call == .beep }) := by
  simp [callTone, Tone.call_eq, hr]

@[simp] theorem screen_callTone (c : Console w h) (call : ToneCall) :
    (c.callTone call).2.screen = c.screen := by
  cases hr : c.tone.refuses call
  · rw [callTone_accepted hr]
  · rw [callTone_refused hr]

@[simp] theorem executed_callTone (c : Console w h) (call : ToneCall) :
    (c.callTone call).2.executed = c.executed := by
  cases hr : c.tone.refuses call with
  | true => rw [callTone_refused hr]
  | false => rw [callTone_accepted hr]

theorem inTune_callTone {c : Console w h} (hc : c.InTune) (call : ToneCall) :
    (c.callTone call).2.InTune := by
  cases hr : c.tone.refuses call
  · rw [callTone_accepted hr]
    simp [InTune, hr]
  · rw [callTone_refused hr]
    simpa [InTune, hr] using hc

/-! ## What a run keeps -/

@[simp] theorem screen_syncTone (c : Console w h) : c.syncTone.2.screen = c.screen := by
  simp only [syncTone]
  split
  · rfl
  · split <;> simp

@[simp] theorem executed_syncTone (c : Console w h) : c.syncTone.2.executed = c.executed := by
  simp only [syncTone]
  split
  · rfl
  · split
    · exact executed_callTone _ _
    · exact executed_callTone _ _

theorem inTune_syncTone {c : Console w h} (hc : c.InTune) : c.syncTone.2.InTune := by
  simp only [syncTone]
  split
  · exact hc
  · split
    · exact inTune_callTone (c := c.note _) hc .beep
    · exact inTune_callTone (c := c.note _) hc .stop

theorem InTune.of_untouched {c d : Console w h} (hd : Untouched c d) (hc : c.InTune) :
    d.InTune := by
  have htone : d.tone = c.tone := congrArg (·.2.1) hd.devices
  have hsounding : d.sounding = c.sounding := congrArg (·.2.2) hd.devices
  rw [InTune, htone, hsounding]
  exact hc

/-- No tick and no happening puts the console out of tune. -/
theorem stable_inTune : Stable (InTune : Console w h → Prop) :=
  .ofPerform (fun _ _ => InTune.of_untouched) fun _ e hc => by
    cases e with
    | nothing => exact hc
    | present => exact hc
    | tone => exact inTune_syncTone hc

end Chip8Vm.Console
