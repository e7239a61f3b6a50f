import Chip8Vm.Proofs.Console.Nesting
import Chip8Vm.Proofs.HexPad.History

/-!
# Chip8Vm.Proofs.Console.KeyWait

Waiting for a key, whatever is pressed meanwhile.

From the instruction that waits until the wait ends, a console does steps, ticks and key
events in any order.  What it has come to is `Parked`: only the pad and the timers differ
from where the wait began, and the slot of the pad holds the last press since then.  A
history belongs to one wait as long as no step comes after a press (`Unanswered`), because
the first such step ends it.

* `Parked.operate` — what each operation makes of a parked console;
* `parked_after` — what a whole history makes of it;
* `wait_ends_with_last_press` — the main theorem.
-/

namespace Chip8Vm

/-! ## Presses and ticks of a history -/

namespace Operation

/-- Does it go on while a program runs: is it a step, a tick or a key event? -/
def isPlay : Operation → Bool
  | step => true
  | tick => true
  | accept _ => true
  | _ => false

def isTick : Operation → Bool
  | tick => true
  | _ => false

/-- The key of the pad that an operation presses. -/
def pressed? : Operation → Option PadKey
  | accept e => if e.pressed then HexPad.keyOf? e.key else none
  | _ => none

/-- The last press among some operations. -/
def lastPress? (ops : List Operation) : Option PadKey := (ops.filterMap pressed?).getLast?

def ticks (ops : List Operation) : Nat := ops.countP isTick

/-- No step comes after a press. -/
def Unanswered (ops : List Operation) : Prop :=
  ops.Pairwise fun before later => before.pressed? ≠ none → later ≠ step

theorem lastPress?_concat (ops : List Operation) (op : Operation) :
    lastPress? (ops ++ [op]) = op.pressed?.or (lastPress? ops) := by
  rw [← lastOf_singleton (f := pressed?)]
  exact lastOf_append ops [op]

theorem lastPress?_eq_none {ops : List Operation} (hops : ∀ op ∈ ops, op.pressed? = none) :
    lastPress? ops = none :=
  lastOf_eq_none_iff.mpr hops

theorem ticks_concat (ops : List Operation) (op : Operation) :
    ticks (ops ++ [op]) = ticks ops + if op.isTick then 1 else 0 := by
  rw [ticks, List.countP_append, List.countP_singleton]
  rfl

/-- A history that goes on is unanswered before, and a step that follows it follows no press. -/
theorem Unanswered.of_concat {ops : List Operation} {op : Operation}
    (hops : Unanswered (ops ++ [op])) :
    Unanswered ops ∧ (op = step → ∀ earlier ∈ ops, earlier.pressed? = none) := by
  obtain ⟨hbefore, -, hlast⟩ := List.pairwise_append.mp hops
  refine ⟨hbefore, fun hop earlier hearlier => ?_⟩
  by_contra hpressed
  exact hlast earlier hearlier op (List.mem_singleton_self op) hpressed hop

end Operation

namespace Console

variable {w h : Nat} {c d : Console w h} {x : Reg}

open Operation

/-! ## Steps that wait -/

/-- While no key is pressed, a step that waits for one changes nothing at all. -/
theorem step_of_waiting (hmode : c.machine.mode = .awaiting x)
    (hslot : c.machine.pad.slot = none) : c.step = (.ok .waiting, c) := by
  simp only [step, Machine.step_of_waiting hmode hslot]
  rfl

/-- The step that finds a press puts it into the register and goes on. -/
theorem step_of_pressed {k : PadKey} (hmode : c.machine.mode = .awaiting x)
    (hslot : c.machine.pad.slot = some k) :
    c.step = (.ok (.resumed k),
      { c with machine := c.machine.resumed x k, journal := c.journal.push (.resumed k x) }) := by
  simp only [step, Machine.step_of_pressed hmode hslot]
  rfl

/-- The step that begins a wait. -/
theorem step_of_awaitKey (hx : c.machine.upcoming? = some (.awaitKey x)) :
    c.step.1 = .ok (.executed (.awaitKey x)) ∧ c.step.2.executed = c.executed + 1 ∧
      c.step.2.machine =
        { c.machine.moved with pad := c.machine.pad.arm, mode := .awaiting x } := by
  have hstep := Machine.step_of_upcoming hx
  simp only [Machine.execute] at hstep
  simp only [step, hstep]
  exact ⟨rfl, rfl, rfl⟩

/-! ## Parked consoles -/

/-- What a console has come to that began to wait at `c` and did these operations since. -/
structure Parked (c : Console w h) (x : Reg) (ops : List Operation) (d : Console w h) : Prop where
  /-- Nothing of the machine has changed but the program counter, which has moved on, the
  pad and the timers. -/
  kept : d.machine = { c.machine with
    mode := .awaiting x
    pad := d.machine.pad
    cpu := { c.machine.cpu with
      pc := Machine.following c.machine.cpu.pc
      delay := d.machine.cpu.delay
      sound := d.machine.cpu.sound } }
  /-- The last press since the wait began is pending. -/
  slot : d.machine.pad.slot = lastPress? ops
  /-- Every tick counts both timers down. -/
  delay : d.machine.cpu.delay.toNat = c.machine.cpu.delay.toNat - ticks ops
  sound : d.machine.cpu.sound.toNat = c.machine.cpu.sound.toNat - ticks ops
  /-- Only the instruction that waits was carried out. -/
  executed : d.executed = c.executed + 1

variable {ops : List Operation}

theorem Parked.mode (hd : Parked c x ops d) : d.machine.mode = .awaiting x := by
  rw [hd.kept]

theorem Parked.pc (hd : Parked c x ops d) :
    d.machine.cpu.pc = Machine.following c.machine.cpu.pc := by
  rw [hd.kept]

theorem Parked.ram (hd : Parked c x ops d) : d.machine.ram = c.machine.ram := by
  rw [hd.kept]

theorem parked_step (hx : c.machine.upcoming? = some (.awaitKey x)) : Parked c x [] c.step.2 := by
  obtain ⟨-, hexecuted, hmachine⟩ := step_of_awaitKey hx
  constructor
  · rw [hmachine]
    rfl
  · rw [hmachine]
    rfl
  · rw [hmachine]
    rfl
  · rw [hmachine]
    rfl
  · exact hexecuted

/-- Every step that follows no press, every tick and every key event leaves it parked. -/
theorem Parked.operate (hd : Parked c x ops d) {op : Operation} (hplay : op.isPlay = true)
    (hstep : op = .step → lastPress? ops = none) :
    Parked c x (ops ++ [op]) (d.operate op).2 := by
  cases op with
  | step =>
      have hslot : d.machine.pad.slot = none := hd.slot.trans (hstep rfl)
      have hsame : (d.operate .step).2 = d := congrArg Prod.snd (step_of_waiting hd.mode hslot)
      rw [hsame]
      refine ⟨hd.kept, ?_, ?_, ?_, hd.executed⟩
      · rw [lastPress?_concat]
        exact hd.slot
      · rw [ticks_concat]
        exact hd.delay
      · rw [ticks_concat]
        exact hd.sound
  | tick =>
      have hmachine : (d.operate .tick).2.machine = d.machine.tick := machine_operate d .tick
      have hexecuted : (d.operate .tick).2.executed = d.executed :=
        executed_syncTone { d with machine := d.machine.tick }
      constructor
      · rw [hmachine]
        exact congrArg Machine.tick hd.kept
      · rw [hmachine, lastPress?_concat]
        exact hd.slot
      · rw [hmachine, ticks_concat]
        exact (Cpu.toNat_countDown _).trans (by rw [hd.delay]; rfl)
      · rw [hmachine, ticks_concat]
        exact (Cpu.toNat_countDown _).trans (by rw [hd.sound]; rfl)
      · rw [hexecuted, hd.executed]
  | accept e =>
      have hmachine : (d.operate (.accept e)).2.machine = d.machine.accept e := rfl
      constructor
      · rw [hmachine]
        exact congrArg (fun m => Machine.accept m e) hd.kept
      · rw [hmachine, lastPress?_concat, ← hd.slot]
        exact d.machine.pad.slot_accept e
      · rw [hmachine, ticks_concat]
        exact hd.delay
      · rw [hmachine, ticks_concat]
        exact hd.sound
      · exact hd.executed
  | _ => exact nomatch hplay

/-- The whole time since the wait began, as long as no step has come after a press. -/
theorem parked_after (hx : c.machine.upcoming? = some (.awaitKey x))
    (hplay : ∀ op ∈ ops, op.isPlay = true) (hunanswered : Unanswered ops) :
    Parked c x ops (c.step.2.after ops) := by
  induction ops using List.reverseRecOn with
  | nil => exact parked_step hx
  | append_singleton ops op ih =>
      obtain ⟨hbefore, hpressed⟩ := hunanswered.of_concat
      have hearlier : ∀ op ∈ ops, op.isPlay = true := fun op hop =>
        hplay op (List.mem_append_left _ hop)
      rw [after_append]
      exact (ih hearlier hbefore).operate (hplay op (List.mem_append_right _ List.mem_cons_self))
        fun hop => lastPress?_eq_none (hpressed hop)

/-! ## After the wait -/

/-- Ticks and key events change only the pad and the timers. -/
theorem machine_operate_idle {op : Operation} (hplay : op.isPlay = true) (hop : op ≠ .step) :
    ∃ pad delay sound, (c.operate op).2.machine = { c.machine with
      pad := pad, cpu := { c.machine.cpu with delay := delay, sound := sound } } := by
  rw [machine_operate]
  cases op with
  | step => exact absurd rfl hop
  | tick => exact ⟨_, _, _, rfl⟩
  | accept e => exact ⟨_, _, _, rfl⟩
  | _ => exact nomatch hplay

theorem machine_after_idle {rest : List Operation}
    (hrest : ∀ op ∈ rest, op.isPlay = true ∧ op ≠ .step) :
    ∃ pad delay sound, (c.after rest).machine = { c.machine with
      pad := pad, cpu := { c.machine.cpu with delay := delay, sound := sound } } := by
  induction rest generalizing c with
  | nil => exact ⟨_, _, _, rfl⟩
  | cons op rest ih =>
      obtain ⟨hop, hlater⟩ := List.forall_mem_cons.mp hrest
      obtain ⟨_, _, _, hfirst⟩ := machine_operate_idle (c := c) hop.1 hop.2
      obtain ⟨pad, delay, sound, hsame⟩ := ih (c := (c.operate op).2) hlater
      rw [hfirst] at hsame
      exact ⟨pad, delay, sound, hsame⟩

/-- What a step does that ends a wait begun at `c`. -/
structure Resumes (c : Console w h) (x : Reg) (k : PadKey) (d : Console w h) : Prop where
  /-- The key goes into the register and its press out of the pad, the machine runs again, and
  nothing else changes but for the note of it. -/
  step : d.step = (.ok (.resumed k), { d with
    machine := { d.machine with
      mode := .running
      pad := d.machine.pad.arm
      cpu := d.machine.cpu.set x (UInt8.ofNat k.val) }
    journal := d.journal.push (.resumed k x) })
  /-- The next instruction is the one behind the instruction that waited, however many ticks
  and key events come before it. -/
  next : ∀ rest : List Operation, (∀ op ∈ rest, op.isPlay = true ∧ op ≠ .step) →
    (d.step.2.after rest).machine.mode = .running ∧
      (d.step.2.after rest).machine.cpu.pc.toNat = (c.machine.cpu.pc.toNat + 2) % 4096 ∧
      (d.step.2.after rest).machine.ram = c.machine.ram

theorem Parked.resumes {k : PadKey} (hd : Parked c x ops d) (hk : lastPress? ops = some k) :
    Resumes c x k d := by
  have hstep := step_of_pressed hd.mode (hd.slot.trans hk)
  refine ⟨hstep, fun rest hrest => ?_⟩
  obtain ⟨pad, delay, sound, hsame⟩ := machine_after_idle (c := d.step.2) hrest
  rw [hsame, hstep]
  refine ⟨rfl, ?_, hd.ram⟩
  have hpc : (d.machine.resumed x k).cpu.pc.toNat = (c.machine.cpu.pc.toNat + 2) % 4096 := by
    rw [← Machine.toNat_following, ← hd.pc]
    rfl
  exact hpc

/-- **A wait ends with the last press.** The instruction that waits for a key is always carried
out.  Take any history of steps, ticks and key events since, in which no step comes after a
press.  Until then the console is parked: only the timers count and the pad takes note.
If no key of the pad was pressed since the wait began, the next step answers that it waits
and changes nothing at all; otherwise it ends the wait with the last key that was pressed. -/
theorem wait_ends_with_last_press (hx : c.machine.upcoming? = some (.awaitKey x))
    (hplay : ∀ op ∈ ops, op.isPlay = true) (hunanswered : Unanswered ops) :
    c.step.1 = .ok (.executed (.awaitKey x)) ∧
    Parked c x ops (c.step.2.after ops) ∧
    (lastPress? ops = none →
      (c.step.2.after ops).step = (.ok .waiting, c.step.2.after ops)) ∧
    (∀ k, lastPress? ops = some k → Resumes c x k (c.step.2.after ops)) := by
  have hparked := parked_after hx hplay hunanswered
  refine ⟨(step_of_awaitKey hx).1, hparked, fun hnone => ?_, fun k hk => hparked.resumes hk⟩
  exact step_of_waiting hparked.mode (hparked.slot.trans hnone)

/-- A new console with a program of one wait for V3, after a press that came too early. -/
def aboutToWait : Console 8 4 :=
  (plugged 8 4 (.chacha 0) .inherited {}).after
    [.load { bytes := [0xf3, 0x0a] }, .accept ⟨0x2, true⟩]

/-- Two keys are pressed, one that the pad does not have is too, and one is released. -/
def pressing : List Operation :=
  [.step, .accept ⟨0x4, true⟩, .tick, .accept ⟨0xe, true⟩, .accept ⟨0x10, true⟩,
    .accept ⟨0xe, false⟩]

/-- The press before the wait does not end it, and of the two keys the later one does. -/
theorem wait_ends_with_later_press :
    aboutToWait.machine.upcoming? = some (.awaitKey 3) ∧
    (∀ op ∈ pressing, op.isPlay = true) ∧ Unanswered pressing ∧
    aboutToWait.step.2.step.1 = .ok .waiting ∧
    Resumes aboutToWait 3 0xe (aboutToWait.step.2.after pressing) := by
  have hx : aboutToWait.machine.upcoming? = some (.awaitKey 3) := by decide +kernel
  have hplay : ∀ op ∈ pressing, op.isPlay = true := by simp [pressing, isPlay]
  have hunanswered : Unanswered pressing := by simp [pressing, Unanswered, pressed?]
  have hnone : ∀ op ∈ ([] : List Operation), op.isPlay = true := nofun
  have hwaits := (wait_ends_with_last_press hx hnone .nil).2.2.1 rfl
  have hends := (wait_ends_with_last_press hx hplay hunanswered).2.2.2 0xe rfl
  exact ⟨hx, hplay, hunanswered, congrArg Prod.fst hwaits, hends⟩

end Console

end Chip8Vm
