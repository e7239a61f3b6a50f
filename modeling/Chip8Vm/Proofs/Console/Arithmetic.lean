import Chip8Vm.Proofs.Console.Glyphs
import Chip8Vm.Proofs.Machine.Arithmetic
import Chip8Vm.Proofs.Machine.Confined

/-!
# Chip8Vm.Proofs.Console.Arithmetic

Results and flags of a program that names registers twice.

An instruction may read the register that it writes, and the flag register like any other.
Whichever it names, result and flag are those of the values before it, and where both want VF
the flag is there (`arithmetic_despite_aliases`).  Drawing has its flag too and is no different:
the place is read before the flag is written.
-/

namespace Chip8Vm.Console

open Machine

variable {w h : Nat}

/-- **Registers may be named twice.** Whatever the registers hold and whichever of them an
arithmetic instruction names, VF included, it is carried out, and its result and its flag are
what the table says of the values before; where both want VF the flag is there, and no other
register changes.  A sprite is drawn at the place that its two registers hold before the flag
of the collision is written, and no other register changes, however the screen behaves. -/
theorem arithmetic_despite_aliases (c : Console w h) :
    (∀ i a, c.machine.upcoming? = some i →
      i.arithmetic? (fun y => (c.machine.cpu.get y).toNat) = some a →
      c.step.1 = .ok (.executed i) ∧ c.machine.cpu.Computes a c.step.2.machine.cpu) ∧
    ∀ x y n, c.machine.upcoming? = some (.draw x y n) →
      Draws c x y (c.machine.ram.readMany c.machine.cpu.i n.val) c.step.2 ∧
      ∀ z, z ≠ Reg.flag → c.step.2.machine.cpu.get z = c.machine.cpu.get z := by
  constructor
  · intro i a hi ha
    -- moving on to the next word leaves the registers alone
    obtain ⟨d, hexecute, hcomputes⟩ := computes_execute c.machine.moved ha
    rw [machine_of_execute hi hexecute]
    exact ⟨step_of_execute hi hexecute, hcomputes.flag, hcomputes.result, hcomputes.others⟩
  · intro x y n hi
    refine ⟨draws_step_draw hi, fun z hz => ?_⟩
    have hexecute : c.machine.moved.execute (.draw x y n) = .ok (_, .present) := rfl
    rw [machine_of_execute hi hexecute]
    exact (confined_execute hexecute).cpu.registers z (mt List.mem_singleton.mp hz)

/-- A console about to add V1, which is 100, to VF, which is 200.  Its program then draws the
first of its bytes at (VF, VF). -/
def carrying : Console 8 4 :=
  (plugged 8 4 (.chacha 0) .inherited {}).after
    [.load { bytes := [0xa2, 0x00, 0x6f, 0xc8, 0x61, 0x64, 0x8f, 0x14, 0xdf, 0xf1] },
      .step, .step, .step]

/-- The carry is left in VF, not the sum; the sprite is drawn at (1, 1), and then there is no
collision in VF. -/
theorem arithmetic_despite_aliases_flag :
    carrying.machine.upcoming? = some (.add Reg.flag 1) ∧
    carrying.step.2.machine.cpu.get Reg.flag = 1 ∧
    carrying.step.2.machine.upcoming? = some (.draw Reg.flag Reg.flag 1) ∧
    carrying.step.2.step.2.machine.picture =
      (carrying.step.2.machine.picture.blit carrying.step.2.machine.wrap 1 1 [0xa2]).2 ∧
    carrying.step.2.step.2.machine.cpu.get Reg.flag = 0 := by
  obtain ⟨hadd, hflag, hone, hdraw, hrows, hblank⟩ :
      carrying.machine.upcoming? = some (.add Reg.flag 1) ∧
      carrying.machine.cpu.get Reg.flag = 200 ∧
      carrying.machine.cpu.get 1 = 100 ∧
      carrying.step.2.machine.upcoming? = some (.draw Reg.flag Reg.flag 1) ∧
      carrying.step.2.machine.ram.readMany carrying.step.2.machine.cpu.i (1 : Nibble).val =
        [0xa2] ∧
      (carrying.step.2.machine.picture.blit carrying.step.2.machine.wrap 1 1 [0xa2]).1 =
        false := by
    decide +kernel
  have hsum : (Instruction.add Reg.flag 1).arithmetic?
      (fun y => (carrying.machine.cpu.get y).toNat) = some ⟨Reg.flag, 300, some true⟩ := by
    simp only [Instruction.arithmetic?, hflag, hone]
    rfl
  obtain ⟨-, hcomputes⟩ := (arithmetic_despite_aliases carrying).1 _ _ hadd hsum
  have hcarry : carrying.step.2.machine.cpu.get Reg.flag = 1 := hcomputes.flag true rfl
  obtain ⟨⟨hpicture, hcollision⟩, -⟩ := (arithmetic_despite_aliases carrying.step.2).2 _ _ _ hdraw
  rw [hrows, hcarry] at hpicture hcollision
  refine ⟨hadd, hcarry, hdraw, hpicture, ?_⟩
  rw [hcollision, if_neg]
  exact hblank ▸ Bool.false_ne_true

end Chip8Vm.Console
