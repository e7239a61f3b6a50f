/-!
# Chip8Vm.Number.Rounding

Rounding a quotient to the nearest whole number, and a positive quotient to the
nearest binary floating-point number of 53 bits.

Everything is exact arithmetic on whole numbers.  `two_mul_roundDiv` says that a
rounded quotient is within one half of the quotient.
-/

namespace Chip8Vm.Number

/-! ## Whole numbers -/

/-- The whole number nearest to `num / den`; a half goes to the even neighbour. -/
def roundDiv (num den : Nat) : Nat :=
  let q := num / den
  let twice := 2 * (num % den)
  if twice < den then q
  else if den < twice then q + 1
  else if q % 2 = 0 then q
  else q + 1

/-- A rounded quotient is at most one half away from the quotient. -/
theorem two_mul_roundDiv (num : Nat) {den : Nat} (h : 0 < den) :
    2 * den * roundDiv num den ≤ 2 * num + den ∧ 2 * num ≤ 2 * den * roundDiv num den + den := by
  have hmod := Nat.mod_lt num h
  have hdiv := Nat.div_add_mod num den
  have hmul : 2 * den * (num / den) = 2 * (den * (num / den)) := Nat.mul_assoc ..
  have hsucc : 2 * den * (num / den + 1) = 2 * (den * (num / den)) + 2 * den := by
    rw [Nat.mul_add, hmul, Nat.mul_one]
  unfold roundDiv
  simp only
  split
  · omega
  · split
    · omega
    · split <;> omega

/-! ## Binary floating point -/

/-- A number `mantissa * 2 ^ exponent`. -/
structure Binary where
  mantissa : Nat
  exponent : Int
  deriving DecidableEq, Repr

namespace Binary

def precision : Nat := 53

def leastExponent : Int := -1074

/-- Numbers from two to this power on are not finite. -/
def rangeBits : Nat := 1024

/-- The value `num / den` times two to a power, as a quotient. -/
def scale (num den : Nat) (power : Int) : Nat × Nat :=
  if 0 ≤ power then (num * Nat.pow 2 power.toNat, den)
  else (num, den * Nat.pow 2 (-power).toNat)

theorem scale_den_pos (num : Nat) {den : Nat} (h : 0 < den) (power : Int) :
    0 < (scale num den power).2 := by
  unfold scale
  split
  · exact h
  · exact Nat.mul_pos h (Nat.pow_pos (Nat.succ_pos 1))

/-- The number as a quotient. -/
def toQuotient (b : Binary) : Nat × Nat := scale b.mantissa 1 b.exponent

/-- The whole number below the base-two logarithm of a positive quotient. -/
def floorLog2 (num den : Nat) : Int :=
  let guess : Int := (num.log2 : Int) - (den.log2 : Int)
  let (n, d) := scale num den (-guess)
  if d ≤ n then guess else guess - 1

/-- The number nearest to a positive quotient; a half goes to the even mantissa. -/
def nearest (num den : Nat) : Binary :=
  let exponent := max leastExponent (floorLog2 num den - (precision - 1 : Nat))
  let (n, d) := scale num den (-exponent)
  ⟨roundDiv n d, exponent⟩

def isFinite (b : Binary) : Bool :=
  let (n, d) := b.toQuotient
  n < Nat.pow 2 rangeBits * d

end Binary

end Chip8Vm.Number
