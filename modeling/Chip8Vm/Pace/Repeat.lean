/-!
# Chip8Vm.Pace.Repeat

Doing a step over and over until it has a result.

Every step that has none gives a state of a smaller measure, so the repetition
ends; `repeatUntil_eq` unfolds it once and `repeatUntil_induct` is how properties
of a result are proved.
-/

namespace Chip8Vm

/-- What a step gives: a result, or a state of a smaller measure to go on from. -/
abbrev StepResult {α : Type} (β : Type) (measure : α → Nat) (a : α) :=
  β ⊕ { b : α // measure b < measure a }

/-- Repeat a step until it has a result. -/
def repeatUntil {α β : Type} (measure : α → Nat) (step : (a : α) → StepResult β measure a)
    (a : α) : β :=
  match step a with
  | .inl b => b
  | .inr next => repeatUntil measure step next.val
termination_by measure a
decreasing_by exact next.property

theorem repeatUntil_eq {α β : Type} (measure : α → Nat)
    (step : (a : α) → StepResult β measure a) (a : α) :
    repeatUntil measure step a =
      match step a with
      | .inl b => b
      | .inr next => repeatUntil measure step next.val := by
  rw [repeatUntil]

/-- What holds between a state and its result, and between a state and what a
later state results in, holds of every repetition. -/
theorem repeatUntil_induct {α β : Type} (measure : α → Nat)
    (step : (a : α) → StepResult β measure a) (P : α → β → Prop)
    (done : ∀ a b, step a = .inl b → P a b)
    (more : ∀ a next b, step a = .inr next → P next.val b → P a b) (a : α) :
    P a (repeatUntil measure step a) := by
  generalize hn : measure a = n
  induction n using Nat.strongRecOn generalizing a with
  | ind n ih =>
    rw [repeatUntil_eq]
    split
    · next b hb => exact done a b hb
    · next next hs => exact more a next _ hs (ih _ (hn ▸ next.property) next.val rfl)

end Chip8Vm
