import Chip8Vm.Nibble

/-!
# Chip8Vm.Text.Digits

Numbers as text: the sixteen hexadecimal digits in both cases, hexadecimal
of a fixed width, and hexadecimal of a least width.

Everything is a list of characters first, so that two texts can be compared
digit by digit; `length_fixedHex` and `fixedHex_inj` say that a fixed width
loses nothing that fits into it.
-/

namespace Chip8Vm.Text

/-! ## One digit -/

/-- The hexadecimal digit of a nibble in lower case. -/
def hexDigit (d : Nibble) : Char :=
  "0123456789abcdef".toList.getD d.val '0'

/-- The hexadecimal digit of a nibble in upper case. -/
def upperHexDigit (d : Nibble) : Char :=
  "0123456789ABCDEF".toList.getD d.val '0'

theorem hexDigit_inj : ∀ {a b : Nibble}, hexDigit a = hexDigit b → a = b := by decide

/-! ## Whole numbers -/

/-- The lowest `width` hexadecimal digits of `n`, most significant first. -/
def fixedHex : (width : Nat) → (n : Nat) → List Char
  | 0, _ => []
  | width + 1, n => fixedHex width (n / 16) ++ [hexDigit (Nibble.ofNat n)]

/-- How many hexadecimal digits `n` has when it is written without leading
zeros; zero has one. -/
def hexLength (n : Nat) : Nat := n.log2 / 4 + 1

/-- Every hexadecimal digit of `n`, with zeros in front up to `width` digits. -/
def leastHex (width n : Nat) : List Char :=
  fixedHex (max width (hexLength n)) n

@[simp] theorem length_fixedHex (width n : Nat) : (fixedHex width n).length = width := by
  induction width generalizing n with
  | zero => rfl
  | succ width ih => simp [fixedHex, ih]

/-- Numbers that fit into the width and have the same digits are the same. -/
theorem fixedHex_inj {width a b : Nat} (ha : a < Nat.pow 16 width) (hb : b < Nat.pow 16 width)
    (h : fixedHex width a = fixedHex width b) : a = b := by
  induction width generalizing a b with
  | zero => simp at ha hb; omega
  | succ width ih =>
    simp only [fixedHex] at h
    obtain ⟨hi, lo⟩ := List.append_inj h (by simp)
    have ha : a < Nat.pow 16 width * 16 := ha
    have hb : b < Nat.pow 16 width * 16 := hb
    have hdiv := @ih (a / 16) (b / 16) (by omega) (by omega) hi
    have hmod := congrArg Fin.val (hexDigit_inj (List.head_eq_of_cons_eq lo))
    simp only [Nibble.ofNat, Fin.ofNat] at hmod
    omega

/-! ## Texts -/

/-- Hexadecimal of exactly `width` digits after `0x`. -/
def hexWord (width n : Nat) : String := "0x" ++ String.ofList (fixedHex width n)

/-- Hexadecimal of at least `width` digits after `0x`. -/
def hexAddress (width n : Nat) : String := "0x" ++ String.ofList (leastHex width n)

end Chip8Vm.Text
