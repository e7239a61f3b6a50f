import Mathlib.Data.List.GetD
import Chip8Vm.Proofs.Machine.Step
import Chip8Vm.Proofs.Ram.Written

/-!
# Chip8Vm.Proofs.Machine.Transfer

Registers moved to memory and back.

The registers up to one are a block of bytes (`length_registersUpTo`), and setting registers
from V0 on reads such a block back (`get_setRegisters`, `registersUpTo_setRegisters`).  Memory
keeps a block wherever it starts (`Ram.readMany_writeAll`), so what one instruction moves the
other one moves back.
-/

namespace Chip8Vm.Machine

variable {c : Cpu} {x y : Reg} {bytes : List UInt8}

/-! ## Blocks of registers -/

@[simp] theorem length_registersUpTo (c : Cpu) (x : Reg) :
    (registersUpTo c x).length = x.val + 1 := by
  have hx := x.isLt
  rw [registersUpTo, List.length_take, Vector.length_toList]
  omega

theorem getElem_registersUpTo (c : Cpu) (x y : Reg) (hy : y.val < (registersUpTo c x).length) :
    (registersUpTo c x)[y.val] = c.get y := by
  simp only [registersUpTo, List.getElem_take, Vector.getElem_toList]
  rfl

/-- A block is told by its registers. -/
theorem registersUpTo_eq (hlength : bytes.length = x.val + 1)
    (hget : ∀ (y : Reg) (hy : y.val < bytes.length), c.get y = bytes[y.val]) :
    registersUpTo c x = bytes := by
  apply List.ext_getElem
  · rw [length_registersUpTo, hlength]
  · intro j hj hj'
    have hreg : j < 16 := by omega
    rw [← hget ⟨j, hreg⟩ hj']
    exact getElem_registersUpTo c x ⟨j, hreg⟩ hj

theorem registersUpTo_congr {d : Cpu} (hsame : ∀ y : Reg, y.val ≤ x.val → d.get y = c.get y) :
    registersUpTo d x = registersUpTo c x := by
  refine registersUpTo_eq (length_registersUpTo c x) fun y hy => ?_
  rw [getElem_registersUpTo]
  rw [length_registersUpTo] at hy
  exact hsame y (Nat.le_of_lt_succ hy)

/-- Setting registers from one on changes those that there are bytes for. -/
theorem get_foldl_set (c : Cpu) (bytes : List UInt8) (n : Nat) (y : Reg) :
    ((bytes.zipIdx n).foldl
        (fun c (b, n) => if hn : n < 16 then c.set ⟨n, hn⟩ b else c) c).get y =
      if y.val < n then c.get y else bytes.getD (y.val - n) (c.get y) := by
  induction bytes generalizing c n with
  | nil => simp
  | cons b bytes ih =>
      have hfirst : (if hn : n < 16 then c.set ⟨n, hn⟩ b else c).get y =
          if n = y.val then b else c.get y := by
        split
        · simp only [Cpu.get_set, Fin.ext_iff]
        · rw [if_neg (by omega)]
      rw [List.zipIdx_cons, List.foldl_cons, ih, hfirst]
      rcases Nat.lt_trichotomy y.val n with hbelow | hhere | habove
      · rw [if_pos (by omega), if_pos hbelow, if_neg (by omega)]
      · rw [if_pos (by omega), if_pos hhere.symm, if_neg (by omega), hhere, Nat.sub_self,
          List.getD_cons_zero]
      · have hnext : y.val - n = y.val - (n + 1) + 1 := by omega
        rw [if_neg (by omega), if_neg (by omega), if_neg (by omega), hnext, List.getD_cons_succ]

theorem get_setRegisters (c : Cpu) (bytes : List UInt8) (y : Reg) :
    (setRegisters c bytes).get y = bytes.getD y.val (c.get y) :=
  get_foldl_set c bytes 0 y

/-- Registers that were set from a block are that block. -/
theorem registersUpTo_setRegisters (c : Cpu) (hlength : bytes.length = x.val + 1) :
    registersUpTo (setRegisters c bytes) x = bytes := by
  refine registersUpTo_eq hlength fun y hy => ?_
  rw [get_setRegisters, List.getD_eq_getElem _ _ hy]

/-- Of the registers that are set from others, those up to the last of these are theirs. -/
theorem get_setRegisters_registersUpTo (c d : Cpu) (x y : Reg) :
    (setRegisters d (registersUpTo c x)).get y = if y.val ≤ x.val then c.get y else d.get y := by
  rw [get_setRegisters]
  split
  · next hyx =>
      have hy : y.val < (registersUpTo c x).length := by
        rw [length_registersUpTo]
        exact Nat.lt_succ_of_le hyx
      rw [List.getD_eq_getElem _ _ hy, getElem_registersUpTo]
  · next hyx =>
      refine List.getD_eq_default _ _ ?_
      rw [length_registersUpTo]
      omega

/-! ## Decimal digits -/

/-- The digits of a byte, from hundreds to ones. -/
structure IsDecimal (b hundreds tens ones : UInt8) : Prop where
  hundreds_le : hundreds.toNat ≤ 9
  tens_le : tens.toNat ≤ 9
  ones_le : ones.toNat ≤ 9
  sum : 100 * hundreds.toNat + 10 * tens.toNat + ones.toNat = b.toNat

theorem isDecimal_decimalDigits (b : UInt8) :
    ∃ hundreds tens ones, decimalDigits b = [hundreds, tens, ones] ∧
      IsDecimal b hundreds tens ones := by
  have hb := b.toNat_lt
  refine ⟨_, _, _, rfl, ?_⟩
  constructor <;>
    simp only [UInt8.toNat_div, UInt8.toNat_mod, UInt8.reduceToNat] <;> omega

end Chip8Vm.Machine
