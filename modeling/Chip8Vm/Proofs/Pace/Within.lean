import Chip8Vm.Proofs.Pace.Timetable

/-!
# Chip8Vm.Proofs.Pace.Within

Pacers that have counted nothing but ticks of a timetable.

`Pacer.Within` says of a pacer that its cadences count from a time on and have counted no tick
that is not due within a span.  The 64-bit offsets of its cadences are then exact, so what the
pacer picks next is what the timetable has next (`Within.upcoming_cases`), and as long as that is
due within the span it can be counted (`Within.advance`).  No clock comes into it; how many
sleeps are needed is told by readings and deadlines (`allowance`).
-/

namespace Chip8Vm

open Timetable

namespace Run

/-- How long after the start the next tick of either kind is due. -/
def nextDue (hz : Nat) (p : Pacer) : Nat :=
  min (deadline hz (.timer, p.timers.ticks + 1))
    (deadline hz (.instruction, p.instructions.ticks + 1))

/-- How many ticks of the timetable are left. -/
def toGo (hz limit : Nat) (p : Pacer) : Nat :=
  (count hz limit .timer - p.timers.ticks) + (count hz limit .instruction - p.instructions.ticks)

end Run

namespace Pacer

open Run

variable {origin hz limit : Nat} {p q : Pacer} {tick : Tick} {due : Nat}

/-- The pacer counts from a time on, and has counted ticks of the timetable only. -/
structure Within (origin hz limit : Nat) (p : Pacer) : Prop where
  timers : p.timers = ⟨rate hz .timer, origin, p.timers.ticks⟩
  instructions : p.instructions = ⟨rate hz .instruction, origin, p.instructions.ticks⟩
  timersDue : p.timers.ticks ≤ count hz limit .timer
  instructionsDue : p.instructions.ticks ≤ count hz limit .instruction

theorem within_restart (origin hz limit : Nat) :
    ((Pacer.ofRate hz (some limit)).restart origin).Within origin hz limit where
  timers := rfl
  instructions := rfl
  timersDue := Nat.zero_le _
  instructionsDue := Nat.zero_le _

/-- A cadence counts the tick that it advances by. -/
theorem ticks_of_advance? (hq : p.advance? tick = some q) :
    q.timers.ticks = p.timers.ticks + (tick == .timer).toNat ∧
      q.instructions.ticks = p.instructions.ticks + (tick == .instruction).toNat ∧
      q.timers.origin = p.timers.origin ∧ q.instructions.origin = p.instructions.origin := by
  cases tick with
  | timer =>
      obtain ⟨cadence, hcadence, rfl⟩ := Option.map_eq_some_iff.mp hq
      obtain ⟨rfl, -⟩ := Cadence.of_advance? hcadence
      exact ⟨rfl, rfl, rfl, rfl⟩
  | instruction =>
      obtain ⟨cadence, hcadence, rfl⟩ := Option.map_eq_some_iff.mp hq
      obtain ⟨rfl, -⟩ := Cadence.of_advance? hcadence
      exact ⟨rfl, rfl, rfl, rfl⟩

/-! ## The tick that is next -/

theorem upcoming?_eq {timer instruction : Nat} (htimer : p.timers.next? = some timer)
    (hinstruction : p.instructions.next? = some instruction) :
    p.upcoming? = if timer ≤ instruction then some (.timer, timer)
      else some (.instruction, instruction) := by
  simp only [upcoming?, htimer, hinstruction, Option.bind_eq_bind, Option.bind_some]

/-- The deadline after ticks that are due within the span is less than `2 ^ 64` nanoseconds after
the start, so a cadence computes it exactly. -/
theorem next?_eq (hshort : limit + Span.second + 1 < Nat.pow 2 64) {t : Tick} {k : Nat}
    (hk : k ≤ count hz limit t) :
    (⟨rate hz t, origin, k⟩ : Cadence).next? = Span.add? origin (deadline hz (t, k + 1)) := by
  have hdue : deadline hz (t, k) ≤ limit := le_count_iff.mp hk
  have hnext : deadline hz (t, k + 1) ≤ deadline hz (t, k) + Span.second + 1 := deadline_succ_le k
  have hoffset : (⟨rate hz t, origin, k⟩ : Cadence).offset = deadline hz (t, k + 1) := by
    have hsixtyfour : deadline hz (t, k + 1) < Nat.pow 2 64 := by omega
    rw [← Nat.mod_eq_of_lt hsixtyfour]
    simp only [Cadence.offset, deadline]
  rw [Cadence.next?, hoffset]

variable (hp : p.Within origin hz limit) (hshort : limit + Span.second + 1 < Nat.pow 2 64)

include hp hshort

/-- The tick that a pacer picks is of both kinds the one that is due first, and the timers on a
tie. -/
theorem Within.upcoming_cases (hu : p.upcoming? = some (tick, due)) :
    (tick = .timer ∧ due = origin + deadline hz (.timer, p.timers.ticks + 1) ∧
      deadline hz (.timer, p.timers.ticks + 1) ≤
        deadline hz (.instruction, p.instructions.ticks + 1)) ∨
    (tick = .instruction ∧ due = origin + deadline hz (.instruction, p.instructions.ticks + 1) ∧
      deadline hz (.instruction, p.instructions.ticks + 1) <
        deadline hz (.timer, p.timers.ticks + 1)) := by
  obtain ⟨timer, htimer, instruction, hinstruction, hpick⟩ :
      ∃ timer, p.timers.next? = some timer ∧ ∃ instruction,
        p.instructions.next? = some instruction ∧
        (if timer ≤ instruction then some (Tick.timer, timer)
          else some (Tick.instruction, instruction)) = some (tick, due) := by
    simpa only [upcoming?, Option.bind_eq_bind, Option.bind_eq_some_iff] using hu
  rw [hp.timers, next?_eq hshort hp.timersDue] at htimer
  rw [hp.instructions, next?_eq hshort hp.instructionsDue] at hinstruction
  cases (Option.ite_none_right_eq_some.mp htimer).2
  cases (Option.ite_none_right_eq_some.mp hinstruction).2
  split at hpick
  · next hfirst =>
    cases hpick
    exact .inl ⟨rfl, rfl, by omega⟩
  · next hfirst =>
    cases hpick
    exact .inr ⟨rfl, rfl, by omega⟩

/-- The next deadline is that of the tick that the pacer picks. -/
theorem Within.due_eq (hu : p.upcoming? = some (tick, due)) : due = origin + nextDue hz p := by
  rw [nextDue]
  obtain ⟨-, hdue, hfirst⟩ | ⟨-, hdue, hfirst⟩ := hp.upcoming_cases hshort hu
  · rw [Nat.min_eq_left hfirst, hdue]
  · rw [Nat.min_eq_right (Nat.le_of_lt hfirst), hdue]

/-- A pacer picks no tick only if the next deadlines are near the longest span. -/
theorem Within.longest_lt (hu : p.upcoming? = none) :
    Span.longest < origin + limit + Span.second + 1 := by
  have hspan {t : Tick} {k : Nat} (hk : k ≤ count hz limit t)
      (hlong : origin + limit + Span.second + 1 ≤ Span.longest) :
      (⟨rate hz t, origin, k⟩ : Cadence).next? = some (origin + deadline hz (t, k + 1)) := by
    have hdue : deadline hz (t, k) ≤ limit := le_count_iff.mp hk
    have hnext : deadline hz (t, k + 1) ≤ deadline hz (t, k) + Span.second + 1 :=
      deadline_succ_le k
    rw [next?_eq hshort hk, Span.add?, if_pos (by omega)]
  refine Nat.lt_of_not_le fun hlong => ?_
  have htimer := hspan hp.timersDue hlong
  have hinstruction := hspan hp.instructionsDue hlong
  rw [← hp.timers] at htimer
  rw [← hp.instructions] at hinstruction
  rw [upcoming?_eq htimer hinstruction] at hu
  split at hu <;> cases hu

/-! ## Counting it -/

variable (hu : p.upcoming? = some (tick, due)) (hd : due ≤ origin + limit)

include hu hd

/-- A tick that is due within the span is one of the timetable. -/
theorem Within.counted : tick = .timer ∧ p.timers.ticks + 1 ≤ count hz limit .timer ∨
    tick = .instruction ∧ p.instructions.ticks + 1 ≤ count hz limit .instruction := by
  obtain ⟨htick, hdue, -⟩ | ⟨htick, hdue, -⟩ := hp.upcoming_cases hshort hu
  · exact .inl ⟨htick, le_count_iff.mpr (by omega)⟩
  · exact .inr ⟨htick, le_count_iff.mpr (by omega)⟩

theorem Within.toGo_pos : 0 < toGo hz limit p := by
  rw [toGo]
  obtain ⟨-, hcount⟩ | ⟨-, hcount⟩ := hp.counted hshort hu hd <;> omega

/-- A pacer that counts it has one tick less to go. -/
theorem Within.advance (hq : p.advance? tick = some q) :
    q.Within origin hz limit ∧ toGo hz limit q + 1 = toGo hz limit p := by
  obtain ⟨rfl, hcount⟩ | ⟨rfl, hcount⟩ := hp.counted hshort hu hd
  · obtain ⟨cadence, hcadence, rfl⟩ := Option.map_eq_some_iff.mp hq
    obtain ⟨rfl, -⟩ := Cadence.of_advance? hcadence
    refine ⟨{ hp with timers := ?_, timersDue := hcount }, ?_⟩
    · exact congrArg (fun t : Cadence => { t with ticks := t.ticks + 1 }) hp.timers
    · simp only [toGo]
      omega
  · obtain ⟨cadence, hcadence, rfl⟩ := Option.map_eq_some_iff.mp hq
    obtain ⟨rfl, -⟩ := Cadence.of_advance? hcadence
    refine ⟨{ hp with instructions := ?_, instructionsDue := hcount }, ?_⟩
    · exact congrArg (fun t : Cadence => { t with ticks := t.ticks + 1 }) hp.instructions
    · simp only [toGo]
      omega

/-- One that cannot be counted is one of too many instructions. -/
theorem Within.uncounted (ha : p.advance? tick = none) :
    Cadence.maxTicks ≤ count hz limit .instruction := by
  obtain ⟨rfl, hcount⟩ | ⟨rfl, hcount⟩ := hp.counted hshort hu hd
  · have hrate : timerRate ≤ Span.second := by decide
    have htimers : count hz limit .timer ≤ limit := count_le hrate
    have hshort : limit + Span.second + 1 < Cadence.maxTicks := hshort
    simp only [advance?, Option.map_eq_none_iff, Cadence.advance?, ite_eq_right_iff,
      reduceCtorEq, imp_false] at ha
    omega
  · simp only [advance?, Option.map_eq_none_iff, Cadence.advance?, ite_eq_right_iff,
      reduceCtorEq, imp_false] at ha
    omega

end Pacer

/-! ## Sleeping for it -/

namespace Run

variable {origin hz limit now later : Nat} {p q : Pacer}

/-- How many sleeps a loop can have from a reading on: one for every tick that is left, and one
more unless something is due or the limit is reached. -/
def allowance (origin hz limit now : Nat) (p : Pacer) : Nat :=
  toGo hz limit p + if min (origin + nextDue hz p) (origin + limit) ≤ now then 0 else 1

theorem allowance_le (now : Nat) (p : Pacer) :
    allowance origin hz limit now p ≤ toGo hz limit p + 1 := by
  rw [allowance]
  split <;> omega

/-- A pass has caught up with its reading, with ticks if there is another deadline then; when it
has slept for that or until the limit, fewer sleeps are left. -/
theorem allowance_lt (hnow : now < origin + limit) (hdue : now < origin + nextDue hz q)
    (hle : toGo hz limit q ≤ toGo hz limit p)
    (hidle : toGo hz limit q = toGo hz limit p → nextDue hz q = nextDue hz p)
    (hlater : min (origin + nextDue hz q) (origin + limit) ≤ later) :
    allowance origin hz limit later q < allowance origin hz limit now p := by
  rw [allowance, allowance, if_pos hlater]
  split
  · next hready =>
    have hdone : origin + nextDue hz p ≤ now :=
      (Std.min_le.mp hready).resolve_right (Nat.not_le.mpr hnow)
    have hother : toGo hz limit q ≠ toGo hz limit p := fun hsame => by
      rw [hidle hsame] at hdue
      omega
    omega
  · omega

end Run

end Chip8Vm
