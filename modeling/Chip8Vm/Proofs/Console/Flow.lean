import Chip8Vm.Proofs.Console.History
import Chip8Vm.Proofs.Machine.Flow
import Chip8Vm.Proofs.Ram.Written

/-!
# Chip8Vm.Proofs.Console.Flow

Where a program goes on after a step.

The word that a step fetches is made of the bytes in two cells that follow each other around
memory (`Ram.toNat_word`), and a step that succeeds leaves the program counter where the way of
that word leads (`step_goes_on`).
-/

namespace Chip8Vm

/-- A word has its first byte in the high half, and its second byte may be in the first cell. -/
theorem Ram.toNat_word (r : Ram) {a : UInt16} {p : Addr} (hp : a.toNat = p.val) :
    (r.word a).toNat =
      256 * (r.cells.get p).toNat + (r.cells.get (Addr.ofNat (p.val + 1))).toNat := by
  have hfirst : cell a = p := by
    rw [cell, hp]
    exact Fin.ext (Nat.mod_eq_of_lt p.isLt)
  have hsecond : cell (a + 1) = Addr.ofNat (p.val + 1) := by
    apply Fin.ext
    have hlt := p.isLt
    simp only [cell, Addr.ofNat, Fin.ofNat, UInt16.toNat_add, hp, UInt16.reduceToNat]
    omega
  have hbytes : (r.word a).toNat = 256 * (r.cells.get (cell a)).toNat +
      (r.cells.get (cell (a + 1))).toNat := toNat_word_eq r a
  rw [hbytes, hfirst, hsecond]

namespace Console

variable {w h : Nat} {c : Console w h} {o : Outcome}

/-- **Control flow.** The program counter of a reachable console that runs is the address of a
cell.  Take the word made of the byte in that cell and, below it, the byte in the cell that
follows around memory.  A step that succeeds leaves the program counter where the way of that
word leads, as told by the registers, the call stack and the pad before the step. -/
theorem step_goes_on (hc : c.Reachable) (hmode : c.machine.mode = .running)
    (ho : c.step.1 = .ok o) :
    ∃ (p : Addr) (word : UInt16), c.machine.cpu.pc.toNat = p.val ∧
      word.toNat = 256 * (c.machine.ram.cells.get p).toNat +
        (c.machine.ram.cells.get (Addr.ofNat (p.val + 1))).toNat ∧
      c.machine.onward (c.machine.flow (Fields.ofWord word)) =
        some c.step.2.machine.cpu.pc.toNat := by
  obtain ⟨e, hr⟩ := result_of_step_ok ho
  obtain ⟨i, rfl⟩ := Machine.executed_of_running hmode hr
  refine ⟨⟨c.machine.cpu.pc.toNat, hc.bounded.pc⟩, c.machine.ram.word c.machine.cpu.pc, rfl,
    Ram.toNat_word _ rfl, ?_⟩
  rw [machine_step]
  exact Machine.onward_step hr

/-- A program that stores a skip in the last cell and the first, and goes there. -/
def skipsAround : Console 8 4 :=
  (plugged 8 4 (.chacha 0) .inherited {}).after
    [.load { bytes := [0x60, 0x31, 0x61, 0x07, 0xaf, 0xff, 0xf1, 0x55, 0x1f, 0xff] },
      .step, .step, .step, .step, .step]

/-- The word `3107` lies around the top of memory, and its skip goes past the second cell. -/
theorem step_goes_on_around :
    skipsAround.Reachable ∧ skipsAround.machine.mode = .running ∧
    skipsAround.machine.cpu.pc = 0xfff ∧
    skipsAround.step.1 = .ok (.executed (.skipEqByte 1 0x07)) ∧
    skipsAround.step.2.machine.cpu.pc = 3 ∧
    ∃ (p : Addr) (word : UInt16), p.val = 4095 ∧ word.toNat = 0x3107 ∧
      skipsAround.machine.onward (skipsAround.machine.flow (Fields.ofWord word)) = some 3 := by
  have hc : skipsAround.Reachable := (Reachable.plugged (.chacha 0) .inherited {}).after _
  have hrun : skipsAround.machine.mode = .running ∧ skipsAround.machine.cpu.pc = 0xfff ∧
      skipsAround.step.1 = .ok (.executed (.skipEqByte 1 0x07)) ∧
      skipsAround.step.2.machine.cpu.pc = 3 := by decide +kernel
  have hbytes : skipsAround.machine.ram.cells.get 4095 = 0x31 ∧
      skipsAround.machine.ram.cells.get (Addr.ofNat ((4095 : Addr).val + 1)) = 0x07 := by
    decide +kernel
  obtain ⟨hmode, hpc, ho, hafter⟩ := hrun
  obtain ⟨p, word, hp, hword, honward⟩ := step_goes_on hc hmode ho
  have htop : p = 4095 := by
    apply Fin.ext
    rw [← hp, hpc]
    decide
  have hspelled : word.toNat = 0x3107 := by
    rw [hword, htop, hbytes.1, hbytes.2]
    rfl
  rw [hafter] at honward
  exact ⟨hc, hmode, hpc, ho, hafter, p, word, congrArg Fin.val htop, hspelled, honward⟩

end Console

end Chip8Vm
