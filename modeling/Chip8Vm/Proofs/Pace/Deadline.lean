import Chip8Vm.Proofs.Pace.Timetable

/-!
# Chip8Vm.Proofs.Pace.Deadline

How long the deadlines of a cadence stay exact.

A deadline comes from the number of its tick alone, so no error adds up.  But how long after the
origin it is has to be a 64-bit number of nanoseconds, and is cut down to one.  So deadlines are
exact, and later ticks are due no earlier, for as long as the ticks are due within `2 ^ 64`
nanoseconds (`deadlines_exact_iff`), which is more than five hundred years; the first tick after
that falls back to the origin (`exists_fallsBack`).
-/

namespace Chip8Vm

namespace Timetable

variable {hz : Nat} {t : Tick} {j k : Nat}

/-- At a rate of at most a tick per nanosecond, later ticks of a kind are due later. -/
theorem deadline_lt (hrate : rate hz t ≤ Span.second) (h : j < k) :
    deadline hz (t, j) < deadline hz (t, k) := by
  have hnext : deadline hz (t, j) + 1 ≤ deadline hz (t, j + 1) := by
    simp only [deadline]
    rw [← Nat.add_div_right _ (rate_pos hz t), Nat.succ_mul]
    exact Nat.div_le_div_right (Nat.add_le_add_left hrate _)
  exact Nat.lt_of_lt_of_le hnext (deadline_mono h)

end Timetable

namespace Cadence

open Timetable

variable {hz origin i j k : Nat} {c : Cadence}

/-! ## Counting -/

/-- The cadence after so many ticks, as long as they can be counted. -/
def after? (c : Cadence) : Nat → Option Cadence
  | 0 => some c
  | k + 1 => (c.after? k).bind advance?

/-- When the tick after so many others is due. -/
def deadline? (c : Cadence) (k : Nat) : Option Nat := (c.after? k).bind next?

theorem after?_eq (hk : c.ticks + k < maxTicks) :
    c.after? k = some { c with ticks := c.ticks + k } := by
  induction k with
  | zero => rfl
  | succ k ih =>
      rw [after?, ih (Nat.lt_of_succ_lt hk), Option.bind_some]
      exact if_pos hk

/-! ## What is due -/

/-- How long after the origin the tick after `k` others is due. -/
def due (hz k : Nat) : Nat := (k + 1) * Span.second / max hz 1

theorem due_eq_deadline (hz k : Nat) : due hz k = deadline hz (.instruction, k + 1) := rfl

theorem due_mono (h : j ≤ k) : due hz j ≤ due hz k := by
  rw [due_eq_deadline, due_eq_deadline]
  exact deadline_mono (Nat.succ_le_succ h)

theorem due_lt (hrate : hz ≤ Span.second) (h : j < k) : due hz j < due hz k := by
  have hmax : max hz 1 ≤ Span.second := Nat.max_le.mpr ⟨hrate, by decide⟩
  rw [due_eq_deadline, due_eq_deadline]
  exact deadline_lt hmax (Nat.succ_lt_succ h)

/-- Before a tick that is not due within 64 bits there is a last one that is, and of the one after
that the cut leaves less. -/
theorem exists_fallsBack (hlong : Nat.pow 2 64 ≤ due hz k) :
    ∃ j < k, due hz j < Nat.pow 2 64 ∧ due hz (j + 1) % Nat.pow 2 64 < due hz j := by
  have hbound : 2 * Span.second + 1 < Nat.pow 2 64 := by decide
  induction k with
  | zero =>
      have hfirst : due hz 0 ≤ 1 * Span.second := Nat.div_le_self _ _
      omega
  | succ k ih =>
      by_cases hbefore : Nat.pow 2 64 ≤ due hz k
      · obtain ⟨j, hj, hfalls⟩ := ih hbefore
        exact ⟨j, Nat.lt_succ_of_lt hj, hfalls⟩
      · refine ⟨k, Nat.lt_succ_self k, Nat.lt_of_not_le hbefore, ?_⟩
        have hnext : due hz (k + 1) ≤ due hz k + Span.second + 1 := by
          rw [due_eq_deadline, due_eq_deadline]
          exact deadline_succ_le (k + 1)
        -- a second past the cut at most, and more than a second before it
        rw [Nat.mod_eq_sub_mod hlong, Nat.mod_eq_of_lt (by omega)]
        omega

/-! ## Deadlines -/

/-- The deadlines up to the one of the tick after `k` others can be told, and stand in relation to
all later ones. -/
def Ordered (relation : Nat → Nat → Prop) (c : Cadence) (k : Nat) : Prop :=
  ∀ i j, i < j → j ≤ k →
    ∃ x y, c.deadline? i = some x ∧ c.deadline? j = some y ∧ relation x y

section Restarted

variable (hc : c.hz = max hz 1) (hk : k < maxTicks) (hspan : origin + due hz k ≤ Span.longest)

include hc hk

/-- The ticks can be counted, and a 128-bit number holds the product that the deadline comes
from. -/
theorem after?_restart : ∃ d, (c.restart origin).after? k = some d ∧ d.hz = max hz 1 ∧
    d.ticks = k ∧ (d.ticks + 1) * Span.second < Nat.pow 2 128 := by
  have hticks : (c.restart origin).ticks + k < maxTicks := by rwa [restart, Nat.zero_add]
  refine ⟨_, after?_eq hticks, hc, Nat.zero_add k, ?_⟩
  calc
    (0 + k + 1) * Span.second ≤ maxTicks * Span.second := Nat.mul_le_mul_right _ (by omega)
    _ < Nat.pow 2 128 := by decide

theorem deadline?_restart :
    (c.restart origin).deadline? k = Span.add? origin (due hz k % Nat.pow 2 64) := by
  have hticks : (c.restart origin).ticks + k < maxTicks := by rwa [restart, Nat.zero_add]
  rw [deadline?, after?_eq hticks, Option.bind_some]
  simp only [next?, offset, restart, Nat.zero_add, hc, due]

include hspan

/-- A deadline that is a span before the cut is one after it, and so are those before. -/
theorem deadline?_eq_some (hj : j ≤ k) :
    (c.restart origin).deadline? j = some (origin + due hz j % Nat.pow 2 64) := by
  have hcut : due hz j % Nat.pow 2 64 ≤ due hz j := Nat.mod_le _ _
  have hdue : due hz j ≤ due hz k := due_mono hj
  rw [deadline?_restart hc (Nat.lt_of_le_of_lt hj hk), Span.add?, if_pos (by omega)]

theorem deadline?_exact (hdue : due hz k < Nat.pow 2 64) (hj : j ≤ k) :
    (c.restart origin).deadline? j = some (origin + due hz j) := by
  rw [deadline?_eq_some hc hk hspan hj, Nat.mod_eq_of_lt (Nat.lt_of_le_of_lt (due_mono hj) hdue)]

theorem deadline?_exact_iff :
    (c.restart origin).deadline? k = some (origin + due hz k) ↔ due hz k < Nat.pow 2 64 := by
  refine ⟨fun h => ?_, fun hdue => deadline?_exact hc hk hspan hdue (Nat.le_refl k)⟩
  rw [deadline?_eq_some hc hk hspan (Nat.le_refl k), Option.some_inj, Nat.add_left_cancel_iff] at h
  exact h ▸ Nat.mod_lt _ (by decide)

theorem ordered_le_iff :
    (c.restart origin).Ordered (· ≤ ·) k ↔ due hz k < Nat.pow 2 64 := by
  refine ⟨fun hordered => Nat.lt_of_not_le fun hlong => ?_, fun hdue i j hij hj => ?_⟩
  · obtain ⟨j, hj, hdue, hfalls⟩ := exists_fallsBack hlong
    obtain ⟨x, y, hx, hy, hle⟩ := hordered j (j + 1) (Nat.lt_succ_self j) hj
    rw [deadline?_eq_some hc hk hspan (Nat.le_of_lt hj), Option.some_inj,
      Nat.mod_eq_of_lt hdue] at hx
    rw [deadline?_eq_some hc hk hspan (j := j + 1) hj, Option.some_inj] at hy
    omega
  · exact ⟨_, _, deadline?_exact hc hk hspan hdue (Nat.le_of_lt (Nat.lt_of_lt_of_le hij hj)),
      deadline?_exact hc hk hspan hdue hj,
      Nat.add_le_add_left (due_mono (Nat.le_of_lt hij)) _⟩

theorem ordered_lt (hdue : due hz k < Nat.pow 2 64) (hrate : hz ≤ Span.second) :
    (c.restart origin).Ordered (· < ·) k := fun _ _ hij hj =>
  ⟨_, _, deadline?_exact hc hk hspan hdue (Nat.le_of_lt (Nat.lt_of_lt_of_le hij hj)),
    deadline?_exact hc hk hspan hdue hj, Nat.add_lt_add_left (due_lt hrate hij) _⟩

end Restarted

/-- **How long deadlines are exact.** Restart a cadence of any rate, zero counting as one, at any
origin, and let it count any number of ticks whose exact next deadline is a span.  It can count
them, and a 128-bit number holds the product that the deadline comes from.  The deadline is the
exact one if and only if that is due within `2 ^ 64` nanoseconds, and if and only if it is, none
up to there was earlier than one before it.  Then, at a rate of at most a tick per nanosecond,
each was later than those before it. -/
theorem deadlines_exact_iff (hc : c.hz = max hz 1) (hk : k < maxTicks)
    (hspan : origin + (k + 1) * Span.second / max hz 1 ≤ Span.longest) :
    (∃ d, (c.restart origin).after? k = some d ∧ d.hz = max hz 1 ∧ d.ticks = k ∧
      (d.ticks + 1) * Span.second < Nat.pow 2 128) ∧
    ((c.restart origin).deadline? k = some (origin + (k + 1) * Span.second / max hz 1) ↔
      (k + 1) * Span.second / max hz 1 < Nat.pow 2 64) ∧
    ((c.restart origin).Ordered (· ≤ ·) k ↔
      (k + 1) * Span.second / max hz 1 < Nat.pow 2 64) ∧
    ((k + 1) * Span.second / max hz 1 < Nat.pow 2 64 → hz ≤ Span.second →
      (c.restart origin).Ordered (· < ·) k) :=
  ⟨after?_restart hc hk, deadline?_exact_iff hc hk hspan, ordered_le_iff hc hk hspan,
    ordered_lt hc hk hspan⟩

/-- The last exact deadline of a cadence that ticks once in a second, and began at five. -/
theorem deadlines_exact_iff_last :
    (ofRate 0).hz = max 0 1 ∧ 18446744072 < maxTicks ∧
      5 + (18446744072 + 1) * Span.second / max 0 1 ≤ Span.longest ∧
      (18446744072 + 1) * Span.second / max 0 1 < Nat.pow 2 64 ∧
      ((ofRate 0).restart 5).deadline? 18446744072 = some 18446744073000000005 ∧
      ((ofRate 0).restart 5).Ordered (· < ·) 18446744072 := by
  have hspan : 5 + (18446744072 + 1) * Span.second / max 0 1 ≤ Span.longest := by decide
  have hdue : (18446744072 + 1) * Span.second / max 0 1 < Nat.pow 2 64 := by decide
  obtain ⟨-, hexact, -, hordered⟩ := deadlines_exact_iff (c := ofRate 0) rfl (by decide) hspan
  exact ⟨rfl, by decide, hspan, hdue, hexact.mpr hdue, hordered hdue (by decide)⟩

/-- The tick after it, of one that began at zero, is not due at its second but long before the
last one was. -/
theorem deadline_falls_back :
    18446744073 < maxTicks ∧
      0 + (18446744073 + 1) * Span.second / max 1 1 ≤ Span.longest ∧
      0 + (18446744073 + 1) * Span.second / max 1 1 = 18446744074000000000 ∧
      ((ofRate 1).restart 0).deadline? 18446744073 = some 290448384 ∧
      ((ofRate 1).restart 0).deadline? 18446744072 = some 18446744073000000000 := by
  have hrate : (ofRate 1).hz = max 1 1 := rfl
  have hcount : 18446744073 < maxTicks := by decide
  have hspan : 0 + due 1 18446744073 ≤ Span.longest := by decide
  exact ⟨hcount, hspan, by decide, deadline?_eq_some hrate hcount hspan (Nat.le_refl _),
    deadline?_eq_some hrate hcount hspan (Nat.le_succ _)⟩

end Cadence

end Chip8Vm
