import Chip8Vm.Number.Decimal
import Chip8Vm.Pace.Cadence

/-!
# Chip8Vm.CommandLine.Seconds

A span of time as decimal seconds.

The text stands for the nearest binary floating-point number, and the span is
that number rounded to whole nanoseconds, both times with halves to the even
neighbour.  `isNearest_of_readSeconds` says how near the span is to the number.
-/

namespace Chip8Vm.CommandLine

open Number

inductive SecondsError where
  | text (e : FractionError)
  | negative
  /-- The number is no number, or too big for a span. -/
  | noSpan
  deriving DecidableEq, Repr

def SecondsError.message : SecondsError → String
  | text e => e.message
  | negative => "cannot convert float seconds to Duration: value is negative"
  | noSpan => "cannot convert float seconds to Duration: value is either too big or NaN"

/-- The span nearest to a number of seconds, if it is one. -/
def spanOf? (seconds : Binary) : Option Nat :=
  let (n, d) := seconds.toQuotient
  let nanos := roundDiv (n * Span.second) d
  if n < Nat.pow 2 64 * d ∧ nanos ≤ Span.longest then some nanos else none

/-- The span is one, and it is within half a nanosecond of the number of seconds. -/
def IsNearest (seconds : Binary) (span : Nat) : Prop :=
  let (n, d) := seconds.toQuotient
  span ≤ Span.longest ∧ 2 * d * span ≤ 2 * (n * Span.second) + d ∧
    2 * (n * Span.second) ≤ 2 * d * span + d

theorem isNearest_of_spanOf? {seconds : Binary} {span : Nat} (h : spanOf? seconds = some span) :
    IsNearest seconds span := by
  have hd : 0 < seconds.toQuotient.2 := Binary.scale_den_pos _ Nat.one_pos _
  unfold spanOf? at h
  unfold IsNearest
  generalize seconds.toQuotient = quotient at h hd ⊢
  obtain ⟨n, d⟩ := quotient
  simp only [Option.ite_none_right_eq_some, Option.some.injEq] at h
  obtain ⟨⟨-, hlongest⟩, rfl⟩ := h
  exact ⟨hlongest, two_mul_roundDiv _ hd⟩

/-- The span that a text of seconds means.  Minus zero is zero. -/
def readSeconds (text : List Char) : Except SecondsError Nat :=
  match readFraction text with
  | .error e => .error (.text e)
  | .ok .undefined => .error .noSpan
  | .ok (.infinite negative) => .error (if negative then .negative else .noSpan)
  | .ok (.finite negative value) =>
    if negative ∧ value.mantissa ≠ 0 then .error .negative
    else match spanOf? value with
      | some nanos => .ok nanos
      | none => .error .noSpan

/-- A text that is read as a span stands for a number that has no minus sign or is zero, and
the span is the nearest to that number. -/
theorem isNearest_of_readSeconds {text : List Char} {span : Nat}
    (h : readSeconds text = .ok span) :
    ∃ negative value, readFraction text = .ok (.finite negative value) ∧
      ¬ (negative ∧ value.mantissa ≠ 0) ∧ IsNearest value span := by
  unfold readSeconds at h
  rcases hread : readFraction text with e | ⟨negative, value⟩ | negative | _ <;> rw [hread] at h
  · exact nomatch h
  · simp only at h
    split at h
    · exact nomatch h
    · next hsign =>
      cases hspan : spanOf? value with
      | none =>
          rw [hspan] at h
          exact nomatch h
      | some nanos =>
          rw [hspan] at h
          cases h
          exact ⟨negative, value, rfl, hsign, isNearest_of_spanOf? hspan⟩
  · exact nomatch h
  · exact nomatch h

end Chip8Vm.CommandLine
