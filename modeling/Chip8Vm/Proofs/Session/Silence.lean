import Chip8Vm.Proofs.Console.ToneOrder
import Chip8Vm.Proofs.Session.Release

/-!
# Chip8Vm.Proofs.Session.Silence

The tone generator is called in turn, and a session leaves it silent.

A run calls the generator by its ticks only, so the record is still orderly when the shutdown
of a session begins (`inOrder_atShutdown`).  A tone that is on then is stopped, and stays
on only if that very call fails.  `tone_called_in_turn` joins this to what holds of every
history of operations.
-/

namespace Chip8Vm.Session

variable {σ : Type} {w h : Nat}

theorem inOrder_atShutdown (settings : Settings) (source : Source) (clock : Clock σ)
    (sleeps : Nat) (s : σ) {c : Console w h} (hnew : c.Unused) :
    (atShutdown settings source clock sleeps s c).InOrder :=
  keeps_atShutdown Console.stable_inOrder (fun _ _ hc => ⟨hc.inTune, hc.orderly⟩) settings source
    clock sleeps s c hnew.inOrder

/-- **The tone generator is called in turn.** Take a console whose devices were not called yet.
Whatever is done with it, going on after faults and whichever calls fail: the tone was off at
every beep and on at every stop, so the calls that succeed alternate, beginning with a beep;
and after a tick of the timers without a fault the tone is on exactly while the sound
timer runs.  The same is true of the record of every session that comes back, and then the
tone is off unless the last call of all was a stop of the shutdown that failed. -/
theorem tone_called_in_turn {c : Console w h} (hnew : c.Unused) :
    (∀ ops,
      Tone.Orderly (c.after ops).tone.calls.toList ∧
      Tone.Alternating (Tone.accepted (c.after ops).tone.calls.toList) ∧
      ((c.after ops).tickTimers.1 = .ok () →
        ((c.after ops).tickTimers.2.tone.isOn = true ↔
          (c.after ops).tickTimers.2.machine.cpu.sound ≠ 0))) ∧
    ∀ (σ : Type) (settings : Settings) (source : Source) (clock : Clock σ) (sleeps : Nat) (s : σ),
      (run settings source clock sleeps s c).1.isBack = true →
        Tone.Orderly (run settings source clock sleeps s c).2.1.tone.calls.toList ∧
        Tone.Alternating
          (Tone.accepted (run settings source clock sleeps s c).2.1.tone.calls.toList) ∧
        ((run settings source clock sleeps s c).2.1.tone.isOn = true →
          (run settings source clock sleeps s c).2.1.tone.calls =
            (atShutdown settings source clock sleeps s c).tone.calls.push (.stop, false)) := by
  refine ⟨fun ops => ?_, fun σ settings source clock sleeps s hback => ?_⟩
  · have hafter := Console.inOrder_after hnew ops
    exact ⟨hafter.orderly, hafter.orderly.alternating.1, Console.isOn_tickTimers hafter.inTune⟩
  · have hbefore := inOrder_atShutdown settings source clock sleeps s hnew
    have hclosed := Console.inOrder_shutdown hbefore
    rw [console_run settings source clock sleeps s c hback]
    exact ⟨hclosed.orderly, hclosed.orderly.alternating.1,
      Console.calls_shutdown_of_isOn hbefore.inTune⟩

/-- A console whose tone generator refuses the first beep. -/
def reluctant : Console 8 4 :=
  .plugged 8 4 (.chacha 0) .inherited { tone := fun call n => call == .beep && n == 0 }

/-- The program asks for the tone. -/
def askedToBeep : List Operation := [.load beeping, .step, .step]

/-- The beep that was refused is made up for by the next tick, and the tone is then on.  A
generator that never stops the tone leaves it on, and its last call was that of the shutdown. -/
theorem tone_called_in_turn_reluctant :
    reluctant.Unused ∧ (reluctant.after askedToBeep).tone.calls = #[(.beep, false)] ∧
    (reluctant.after askedToBeep).tickTimers.1 = .ok () ∧
    (reluctant.after askedToBeep).tickTimers.2.tone.isOn = true ∧
    stubborn.Unused ∧ (run brief beeping .punctual 3 0 stubborn).1.isBack = true ∧
    (run brief beeping .punctual 3 0 stubborn).2.1.tone.isOn = true ∧
    (run brief beeping .punctual 3 0 stubborn).2.1.tone.calls =
      (atShutdown brief beeping .punctual 3 0 stubborn).tone.calls.push (.stop, false) := by
  have hnew : reluctant.Unused := ⟨rfl, rfl, rfl⟩
  have hcalls : (reluctant.after askedToBeep).tone.calls = #[(.beep, false)] := by decide +kernel
  have hok : (reluctant.after askedToBeep).tickTimers.1 = .ok () := by decide +kernel
  have hsound : (reluctant.after askedToBeep).tickTimers.2.machine.cpu.sound ≠ 0 := by
    decide +kernel
  have hon := (((tone_called_in_turn hnew).1 askedToBeep).2.2 hok).mpr hsound
  have hnew' : stubborn.Unused := ⟨rfl, rfl, rfl⟩
  have hback : (run brief beeping .punctual 3 0 stubborn).1.isBack = true := by decide +kernel
  have hsticks : (run brief beeping .punctual 3 0 stubborn).2.1.tone.isOn = true := by
    decide +kernel
  have hlast := ((tone_called_in_turn hnew').2 Nat brief beeping .punctual 3 0 hback).2.2 hsticks
  exact ⟨hnew, hcalls, hok, hon, hnew', hback, hsticks, hlast⟩

end Chip8Vm.Session
