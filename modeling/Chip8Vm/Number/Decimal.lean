import Chip8Vm.Number.Rounding

/-!
# Chip8Vm.Number.Decimal

Numbers in decimal text.

Whole numbers have an optional sign and at least one digit, and are read from
left to right, so that of two things wrong the one that comes first is told.
Decimal fractions may have a point and an exponent, need one digit on either side
of the point, and stand for the nearest binary floating-point number; `inf`,
`infinity` and `nan` are read in any case.
-/

namespace Chip8Vm.Number

def digit? (c : Char) : Option Nat :=
  if '0' ≤ c ∧ c ≤ '9' then some (c.toNat - '0'.toNat) else none

/-! ## Whole numbers -/

inductive WholeError where
  | empty
  | invalidDigit
  | tooLarge
  | tooSmall
  deriving DecidableEq, Repr

def WholeError.message : WholeError → String
  | empty => "cannot parse integer from empty string"
  | invalidDigit => "invalid digit found in string"
  | tooLarge => "number too large to fit in target type"
  | tooSmall => "number too small to fit in target type"

/-- The value of digits after `acc`, as long as it stays below the bound. -/
def readDigits (bound : Nat) (passed : WholeError) (acc : Nat) : List Char → Except WholeError Nat
  | [] => .ok acc
  | c :: cs =>
    match digit? c with
    | none => .error .invalidDigit
    | some d =>
      let next := acc * 10 + d
      if next < bound then readDigits bound passed next cs else .error passed

/-- A number below the bound, with an optional plus sign. -/
def readNat (bound : Nat) : List Char → Except WholeError Nat
  | [] => .error .empty
  | ['+'] => .error .invalidDigit
  | '+' :: cs => readDigits bound .tooLarge 0 cs
  | cs => readDigits bound .tooLarge 0 cs

/-- A number from `-bound` to below `bound`, with an optional sign. -/
def readInt (bound : Nat) : List Char → Except WholeError Int
  | ['-'] => .error .invalidDigit
  | '-' :: cs => (readDigits (bound + 1) .tooSmall 0 cs).map fun n => -(n : Int)
  | cs => (readNat bound cs).map Int.ofNat

/-! ## Fractions -/

/-- What a text of a fraction stands for. -/
inductive Fraction where
  /-- A number and whether it has a minus sign. -/
  | finite (negative : Bool) (value : Binary)
  | infinite (negative : Bool)
  | undefined
  deriving DecidableEq, Repr

inductive FractionError where
  | empty
  | invalid
  deriving DecidableEq, Repr

def FractionError.message : FractionError → String
  | empty => "cannot parse float from empty string"
  | invalid => "invalid float literal"

/-- The digits at the front of a text, and the rest. -/
def spanDigits (cs : List Char) : List Char × List Char := cs.span fun c => (digit? c).isSome

def valueOf (digits : List Char) : Nat :=
  digits.foldl (fun n c => n * 10 + (digit? c).getD 0) 0

/-- The exponent part: nothing, or `e` with an optional sign and digits. -/
def readExponent : List Char → Option Int
  | [] => some 0
  | c :: cs =>
    if c = 'e' ∨ c = 'E' then
      let (negative, cs) : Bool × List Char := match cs with
        | '-' :: cs => (true, cs)
        | '+' :: cs => (false, cs)
        | cs => (false, cs)
      match spanDigits cs with
      | ([], _) => none
      | (digits, []) =>
        let n : Int := valueOf digits
        some (if negative then -n else n)
      | _ => none
    else
      none

/-- A power of ten that no finite number reaches, and under which every number
is nearest to zero. -/
def farPower : Int := 400

/-- The nearest binary number to `digits * 10 ^ power`, or infinity.  `digits` has
at most `count` digits; a power far off decides by itself. -/
def nearestDecimal (negative : Bool) (digits count : Nat) (power : Int) : Fraction :=
  if digits = 0 ∨ power + count < -farPower then
    .finite negative ⟨0, 0⟩
  else if farPower < power then
    .infinite negative
  else
    let value :=
      if 0 ≤ power then Binary.nearest (digits * Nat.pow 10 power.toNat) 1
      else Binary.nearest digits (Nat.pow 10 (-power).toNat)
    if value.isFinite then .finite negative value else .infinite negative

/-- A fraction without its sign. -/
def readUnsigned (negative : Bool) (cs : List Char) : Option Fraction :=
  let lower := cs.map Char.toLower
  if lower = "inf".toList ∨ lower = "infinity".toList then some (.infinite negative)
  else if lower = "nan".toList then some .undefined
  else
    let (whole, rest) := spanDigits cs
    let (part, rest) : List Char × List Char := match rest with
      | '.' :: rest => spanDigits rest
      | rest => ([], rest)
    let digits := whole ++ part
    if digits.isEmpty then none
    else (readExponent rest).map fun e =>
      nearestDecimal negative (valueOf digits) digits.length (e - part.length)

def readFraction (cs : List Char) : Except FractionError Fraction :=
  match cs with
  | [] => .error .empty
  | '-' :: cs => ((readUnsigned true cs).map .ok).getD (.error .invalid)
  | '+' :: cs => ((readUnsigned false cs).map .ok).getD (.error .invalid)
  | cs => ((readUnsigned false cs).map .ok).getD (.error .invalid)

end Chip8Vm.Number
