import Chip8Vm.Number.Rounding

/-!
# Chip8Vm.Number.Root

Square roots: the whole part of the root of a whole number, and the root of a
positive quotient as a binary floating-point number.

The whole part is the largest number whose square is not too large (`floorRoot_bounds`), so
rounding it leaves a mantissa that is within one half of the root (`mantissa_root`).
-/

namespace Chip8Vm.Number

/-! ## Whole part -/

/-- Add to a number what of so many lower bits keeps its square at most `n`. -/
def rootBits (n : Nat) : Nat → Nat → Nat
  | 0, r => r
  | bits + 1, r =>
    let s := r + Nat.pow 2 bits
    rootBits n bits (if s * s ≤ n then s else r)

/-- The whole part of the root of a number. -/
def floorRoot (n : Nat) : Nat := rootBits n (n.log2 / 2 + 1) 0

theorem rootBits_bounds (n bits r : Nat) (low : r * r ≤ n)
    (high : n < (r + Nat.pow 2 bits) * (r + Nat.pow 2 bits)) :
    rootBits n bits r * rootBits n bits r ≤ n ∧
      n < (rootBits n bits r + 1) * (rootBits n bits r + 1) := by
  induction bits generalizing r with
  | zero => exact ⟨low, high⟩
  | succ bits ih =>
    have double : r + Nat.pow 2 (bits + 1) = r + Nat.pow 2 bits + Nat.pow 2 bits := by
      show r + 2 ^ (bits + 1) = r + 2 ^ bits + 2 ^ bits
      rw [Nat.pow_succ]
      omega
    rw [double] at high
    unfold rootBits
    simp only
    split
    · exact ih _ ‹_› high
    · exact ih _ low (Nat.lt_of_not_le ‹_›)

/-- The whole part is not too large, and the number after it is. -/
theorem floorRoot_bounds (n : Nat) :
    floorRoot n * floorRoot n ≤ n ∧ n < (floorRoot n + 1) * (floorRoot n + 1) := by
  apply rootBits_bounds n _ 0 (Nat.zero_le n)
  have whole : n < 2 ^ (n.log2 + 1) := Nat.lt_log2_self
  have halves : n.log2 + 1 ≤ (n.log2 / 2 + 1) + (n.log2 / 2 + 1) := by omega
  have square : Nat.pow 2 (n.log2 / 2 + 1) * Nat.pow 2 (n.log2 / 2 + 1) =
      2 ^ ((n.log2 / 2 + 1) + (n.log2 / 2 + 1)) := (Nat.pow_add ..).symm
  rw [Nat.zero_add, square]
  exact Nat.lt_of_lt_of_le whole (Nat.pow_le_pow_right (by omega) halves)

/-! ## Binary floating point -/

namespace Binary

/-- The number nearest to the root of a positive quotient.  The root of a number of the
format is never halfway between two others. -/
def root (num den : Nat) : Binary :=
  let exponent := floorLog2 num den / 2 - (precision - 1 : Nat)
  let (n, d) := scale num den (-2 * exponent)
  let whole := floorRoot (n / d)
  ⟨if (2 * whole + 1) * (2 * whole + 1) * d < 4 * n then whole + 1 else whole, exponent⟩

/-- The mantissa is within one half of the root of the scaled quotient. -/
theorem mantissa_root (num : Nat) {den : Nat} (h : 0 < den) :
    let exponent := floorLog2 num den / 2 - (precision - 1 : Nat)
    let (n, d) := scale num den (-2 * exponent)
    let m := (root num den).mantissa
    (2 * m - 1) * (2 * m - 1) * d ≤ 4 * n ∧ 4 * n ≤ (2 * m + 1) * (2 * m + 1) * d := by
  simp only [root]
  generalize hscaled : scale num den _ = scaled
  have hd : 0 < scaled.2 := hscaled ▸ scale_den_pos num h _
  obtain ⟨n, d⟩ := scaled
  obtain ⟨hlow, hhigh⟩ := floorRoot_bounds (n / d)
  generalize floorRoot (n / d) = whole at hlow hhigh ⊢
  have hlow : whole * whole * d ≤ n := (Nat.le_div_iff_mul_le hd).mp hlow
  have hhigh : n < (whole + 1) * (whole + 1) * d := (Nat.div_lt_iff_lt_mul hd).mp hhigh
  split
  · next hup =>
    have hsucc : (2 * (whole + 1) - 1) * (2 * (whole + 1) - 1) * d =
        (2 * whole + 1) * (2 * whole + 1) * d := rfl
    refine ⟨Nat.le_of_lt (hsucc ▸ hup), ?_⟩
    grind
  · next hdown =>
    have hhalf : (2 * whole - 1) * (2 * whole - 1) * d ≤ 2 * whole * (2 * whole) * d :=
      Nat.mul_le_mul_right d (Nat.mul_le_mul (Nat.sub_le _ _) (Nat.sub_le _ _))
    refine ⟨Nat.le_trans hhalf ?_, Nat.le_of_not_lt hdown⟩
    grind

def floor (b : Binary) : Nat :=
  let (n, d) := b.toQuotient
  n / d

end Binary

end Chip8Vm.Number
