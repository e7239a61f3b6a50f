import Chip8Vm.Proofs.Console.KeyWait
import Chip8Vm.Proofs.Machine.Timer

/-!
# Chip8Vm.Proofs.Console.Countdown

Timers count down by ticks alone.

An operation other than a tick changes a timer only if it is a step that comes to the
instruction which sets it (`timer_operate`).  So a timer that no step of a history sets is down
by the number of ticks (`timer_after`), whatever else was done and whichever device calls
failed, and an instruction that reads the delay timer on the way finds it down by the ticks so
far (`timers_count_ticks`).
-/

namespace Chip8Vm.Console

variable {w h : Nat} {c : Console w h} {t : Timer} {x : Reg} {op : Operation}
  {ops : List Operation}

open Operation

/-- The instruction that an operation comes to; only steps come to instructions. -/
def instruction? (c : Console w h) : Operation → Option Instruction
  | .step => c.machine.upcoming?
  | _ => none

/-- No step of a history comes to an instruction that sets the timer. -/
def Unset (c : Console w h) (t : Timer) (ops : List Operation) : Prop :=
  ∀ i ∈ trace instruction? c ops, i.sets t = false

instance decidableUnset (c : Console w h) (t : Timer) (ops : List Operation) :
    Decidable (c.Unset t ops) :=
  inferInstanceAs (Decidable (∀ i ∈ trace instruction? c ops, i.sets t = false))

theorem unset_cons :
    c.Unset t (op :: ops) ↔
      (∀ i, c.instruction? op = some i → i.sets t = false) ∧ (c.operate op).2.Unset t ops := by
  simp only [Unset, trace, List.mem_append, Option.mem_toList, or_imp, forall_and]

theorem Unset.before {before later : List Operation} (hops : c.Unset t (before ++ later)) :
    c.Unset t before := fun i hi => by
  refine hops i ?_
  rw [trace_append]
  exact List.mem_append_left _ hi

/-- One operation takes one from the timer if it is a tick, and else leaves it. -/
theorem timer_operate (hi : ∀ i, c.instruction? op = some i → i.sets t = false) :
    ((c.operate op).2.machine.cpu.timer t).toNat =
      (c.machine.cpu.timer t).toNat - if op.isTick then 1 else 0 := by
  rw [machine_operate]
  cases op with
  | step => exact congrArg UInt8.toNat (Machine.timer_step hi)
  | tick =>
      show (c.machine.tick.cpu.timer t).toNat = (c.machine.cpu.timer t).toNat - 1
      rw [Machine.timer_tick, Cpu.toNat_countDown]
  | _ => rfl

/-- A timer that is not set is down by the number of ticks. -/
theorem timer_after (hops : c.Unset t ops) :
    ((c.after ops).machine.cpu.timer t).toNat = (c.machine.cpu.timer t).toNat - ticks ops := by
  induction ops generalizing c with
  | nil => rfl
  | cons op ops ih =>
      obtain ⟨hfirst, hrest⟩ := unset_cons.mp hops
      have hticks : ticks (op :: ops) = (if op.isTick then 1 else 0) + ticks ops := by
        rw [ticks, List.countP_cons, Nat.add_comm]
        rfl
      rw [after, ih hrest, timer_operate hfirst, hticks, Nat.sub_sub]

/-- The step that reads the delay timer. -/
theorem step_of_readDelay (hx : c.machine.upcoming? = some (.readDelay x)) :
    c.step.1 = .ok (.executed (.readDelay x)) ∧
      c.step.2.machine.cpu.get x = c.machine.cpu.delay := by
  refine ⟨step_of_execute hx rfl, ?_⟩
  rw [machine_of_execute hx rfl]
  exact (Cpu.get_set _ x x _).trans (if_pos rfl)

/-- **Timers count down by ticks alone.** Take any history of any console.  A timer that no step
of it sets, whether it was carried out or its device call failed, is down by the number of
ticks, or is zero if these were more; waits, faults, key events and failing devices make no
difference.  If that is so of the delay timer, every step on the way that comes to the
instruction which reads it succeeds, and puts into the register what the ticks before it have
left of the timer. -/
theorem timers_count_ticks (c : Console w h) (ops : List Operation) :
    (∀ t, c.Unset t ops →
      ((c.after ops).machine.cpu.timer t).toNat = (c.machine.cpu.timer t).toNat - ticks ops) ∧
    (∀ before later x, ops = before ++ .step :: later → c.Unset .delay ops →
      (c.after before).machine.upcoming? = some (.readDelay x) →
      (c.after before).step.1 = .ok (.executed (.readDelay x)) ∧
        ((c.after before).step.2.machine.cpu.get x).toNat =
          c.machine.cpu.delay.toNat - ticks before) := by
  refine ⟨fun t => timer_after, fun before later x hsplit hops hx => ?_⟩
  rw [hsplit] at hops
  obtain ⟨hresult, hread⟩ := step_of_readDelay hx
  refine ⟨hresult, ?_⟩
  rw [hread]
  exact timer_after hops.before

/-- A console whose generator refuses every call, after both timers were set to three; its
program reads the delay timer into V2 again and again. -/
def timing : Console 8 4 :=
  (plugged 8 4 (.chacha 0) .inherited { tone := fun _ _ => true }).after
    [.load { bytes := [0x61, 0x03, 0xf1, 0x15, 0xf1, 0x18, 0xf2, 0x07, 0x12, 0x06] },
      .step, .step, .step]

/-- Two ticks, between which the program goes around once and a key is pressed. -/
def twoTicks : List Operation := [.tick, .step, .accept ⟨0x4, true⟩, .step, .tick]

/-- After the two ticks one is left of three, and the program reads it; two ticks later both
timers are at zero. -/
theorem timers_count_ticks_refused :
    timing.Unset .delay (twoTicks ++ [.step, .tick, .tick]) ∧
    timing.Unset .sound (twoTicks ++ [.step, .tick, .tick]) ∧
    timing.machine.cpu.timer .delay = 3 ∧
    ((timing.after twoTicks).step.2.machine.cpu.get 2).toNat = 1 ∧
    ((timing.after (twoTicks ++ [.step, .tick, .tick])).machine.cpu.timer .delay).toNat = 0 ∧
    ((timing.after (twoTicks ++ [.step, .tick, .tick])).machine.cpu.timer .sound).toNat = 0 := by
  have hrun : timing.Unset .delay (twoTicks ++ [.step, .tick, .tick]) ∧
      timing.Unset .sound (twoTicks ++ [.step, .tick, .tick]) ∧
      timing.machine.cpu.timer .delay = 3 ∧ timing.machine.cpu.timer .sound = 3 ∧
      (timing.after twoTicks).machine.upcoming? = some (.readDelay 2) := by decide +kernel
  obtain ⟨hdelay, hsound, hthree, hthree', hx⟩ := hrun
  obtain ⟨hcounts, hreads⟩ := timers_count_ticks timing (twoTicks ++ [.step, .tick, .tick])
  have hread := (hreads twoTicks [.tick, .tick] 2 rfl hdelay hx).2
  have hdelayed := hcounts .delay hdelay
  have hsounded := hcounts .sound hsound
  rw [show timing.machine.cpu.delay = 3 from hthree] at hread
  rw [hthree] at hdelayed
  rw [hthree'] at hsounded
  exact ⟨hdelay, hsound, hthree, hread, hdelayed, hsounded⟩

end Chip8Vm.Console
