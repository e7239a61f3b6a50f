import Chip8Vm.Proofs.Console.Shown
import Chip8Vm.Proofs.Machine.Confined

/-!
# Chip8Vm.Proofs.Console.Confined

What an instruction leaves alone, the devices included.

The machine keeps to what its instruction may change (`Machine.confined_step`), and each device
is called for a few instructions only: the screen for those that change the picture, and the
tone generator for the one that sets the sound timer.
-/

namespace Chip8Vm.Console

variable {w h : Nat} {c : Console w h} {i : Instruction}

/-- From one console to the other, only what the instruction may change is different, and only
the devices that it may call have been called. -/
structure Confined (i : Instruction) (c d : Console w h) : Prop where
  machine : c.machine.Confined i d.machine
  screen : i.shows = false → d.screen = c.screen
  tone : (∀ x, i ≠ .setSound x) → d.tone = c.tone ∧ d.sounding = c.sounding

/-- Only the wish to bring the tone in line makes calls to the generator. -/
theorem tone_perform {e : Effect} (he : e ≠ .tone) :
    (c.perform e).2.tone = c.tone ∧ (c.perform e).2.sounding = c.sounding := by
  cases e with
  | nothing => exact ⟨rfl, rfl⟩
  | present => exact ⟨rfl, rfl⟩
  | tone => exact absurd rfl he

/-- The parts of the devices' wish that an instruction does not have are not carried out. -/
theorem confined_perform {e : Effect} (hshows : i.shows = false → e ≠ .present)
    (hsounds : (∀ x, i ≠ .setSound x) → e ≠ .tone)
    (hmachine : c.machine.Confined i c.stepped.machine) :
    Confined i c (c.stepped.perform e).2 where
  machine := by
    rw [machine_perform]
    exact hmachine
  screen hi := screen_perform (c := c.stepped) (hshows hi)
  tone hi := tone_perform (c := c.stepped) (hsounds hi)

/-- **The frame law.** A step that succeeds in carrying out an instruction finds the machine
running, and the instruction is the one that the word at the program counter spells.  Memory,
picture, call stack, index, timers, random bytes, pad, mode and registers are as before but for
what that instruction may change, and no device is called but for what it may call. -/
theorem step_confined (hi : c.step.1 = .ok (.executed i)) :
    c.machine.mode = .running ∧
      Instruction.ofWord? (c.machine.ram.word c.machine.cpu.pc) = some i ∧
      Confined i c c.step.2 := by
  generalize hout : c.step = out at hi ⊢
  have hcase := hout ▸ c.stepCase
  cases hcase with
  | fault hf => exact nomatch hi
  | refused hr hd => exact nomatch hi
  | @done o e d hr hd =>
      cases hi
      obtain ⟨hupcoming, hm'⟩ := Machine.execute_of_result hr
      have hshows : i.shows = false → e ≠ .present := fun hshows he =>
        nomatch hshows.symm.trans ((Machine.effect_eq_present_iff hm').mp he)
      have hsounds : (∀ x, i ≠ .setSound x) → e ≠ .tone := fun hsounds he =>
        have ⟨x, hx⟩ := (Machine.effect_eq_tone_iff hm').mp he
        hsounds x hx
      have hconfined := confined_perform hshows hsounds (Machine.confined_step hr)
      rw [hd] at hconfined
      exact ⟨Machine.mode_of_upcoming hupcoming, Machine.ofWord?_of_upcoming hupcoming,
        hconfined.machine, hconfined.screen, hconfined.tone⟩

/-- A program that stores V0 and V1 in the last cell and the first. -/
def storesAround : Console 8 4 :=
  (plugged 8 4 (.chacha 0) .inherited {}).after
    [.load { bytes := [0xaf, 0xff, 0xf1, 0x55] }, .step]

/-- The program itself is not written, and neither are the registers or the index. -/
theorem step_confined_storing :
    storesAround.step.1 = .ok (.executed (.store 1)) ∧ storesAround.machine.cpu.i = 0xfff ∧
    Ram.Covers 0xfff 2 0x000 ∧
    storesAround.step.2.machine.ram.read 0x200 = storesAround.machine.ram.read 0x200 ∧
    (∀ y, storesAround.step.2.machine.cpu.get y = storesAround.machine.cpu.get y) ∧
    storesAround.step.2.machine.cpu.i = 0xfff ∧
    storesAround.step.2.screen = storesAround.screen := by
  have hi : storesAround.step.1 = .ok (.executed (.store 1)) := by decide +kernel
  have hindex : storesAround.machine.cpu.i = 0xfff := by decide +kernel
  obtain ⟨-, -, hconfined⟩ := step_confined hi
  have hmachine := hconfined.machine
  refine ⟨hi, hindex, by decide, hmachine.ram _ ?_, fun y => ?_, ?_, hconfined.screen rfl⟩
  · rw [hindex]
    decide
  · exact hmachine.cpu.registers y List.not_mem_nil
  · rw [hmachine.cpu.index rfl, hindex]

end Chip8Vm.Console
