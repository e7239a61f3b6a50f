import Chip8Vm.Proofs.Machine.Step

/-!
# Chip8Vm.Proofs.Machine.Meanwhile

What happens to a machine beside its own steps, and which steps notice.

Ticks and key events change the timers and the pad of a machine.  A `Meanwhile` is any such
change.  An instruction that does not look at what changes is carried out alike before and after
it (`execute_meanwhile`), and so is every step but one that waits for a key while the pad
changes (`step_meanwhile`).
-/

namespace Chip8Vm

/-- A change of the pad and of the timers. -/
structure Meanwhile where
  pad : HexPad → HexPad := id
  delay : UInt8 → UInt8 := id
  sound : UInt8 → UInt8 := id

namespace Meanwhile

/-- What a tick changes: both timers count down. -/
def tick : Meanwhile := { delay := Cpu.countDown, sound := Cpu.countDown }

/-- What a key event changes: the pad. -/
def event (e : KeyEvent) : Meanwhile := { pad := fun p => p.accept e }

end Meanwhile

namespace Instruction

/-- Does the instruction look at a timer or set one? -/
def usesTimer : Instruction → Bool
  | readDelay _ | setDelay _ | setSound _ => true
  | _ => false

/-- Does the instruction look at the pad or take its last press back? -/
def usesPad : Instruction → Bool
  | skipHeld _ | skipNotHeld _ | awaitKey _ => true
  | _ => false

/-- What the instruction uses does not change meanwhile. -/
structure Ignores (i : Instruction) (s : Meanwhile) : Prop where
  timers : i.usesTimer = true → s.delay = id ∧ s.sound = id
  pad : i.usesPad = true → s.pad = id

theorem ignores_tick {i : Instruction} (hi : i.usesTimer = false) : i.Ignores .tick where
  timers huses := nomatch hi.symm.trans huses
  pad _ := rfl

theorem ignores_event {i : Instruction} (hi : i.usesPad = false) (e : KeyEvent) :
    i.Ignores (.event e) where
  timers _ := ⟨rfl, rfl⟩
  pad huses := nomatch hi.symm.trans huses

end Instruction

/-- The registers after a change of the timers. -/
def Cpu.meanwhile (c : Cpu) (s : Meanwhile) : Cpu :=
  { c with delay := s.delay c.delay, sound := s.sound c.sound }

namespace Machine

variable {w h : Nat} {m : Machine w h} {i : Instruction} {s : Meanwhile}

/-- The machine after a change of its pad and its timers. -/
def meanwhile (m : Machine w h) (s : Meanwhile) : Machine w h :=
  { m with pad := s.pad m.pad, cpu := m.cpu.meanwhile s }

/-! ## Instructions -/

theorem skip_meanwhile (m : Machine w h) (s : Meanwhile) (condition : Bool) :
    (.ok ((m.meanwhile s).skipIf condition, .nothing) : Except Fault (Machine w h × Effect)) =
      .ok ((m.skipIf condition).meanwhile s, .nothing) := by
  cases condition <;> rfl

/-- Registers are set one after the other, and none of them is a timer. -/
theorem setRegisters_meanwhile (c : Cpu) (s : Meanwhile) (bytes : List UInt8) :
    setRegisters (c.meanwhile s) bytes = (setRegisters c bytes).meanwhile s := by
  unfold setRegisters
  refine List.foldl_hom (fun c : Cpu => c.meanwhile s) fun d entry => ?_
  by_cases hn : entry.2 < 16
  · simp only [hn, dif_pos]
    rfl
  · simp only [hn, dif_neg, not_false_iff]

/-- An instruction that ignores a change is carried out alike before and after it. -/
theorem execute_meanwhile (hi : i.Ignores s) :
    (m.meanwhile s).execute i = (m.execute i).map fun out => (out.1.meanwhile s, out.2) := by
  obtain ⟨pad, delay, sound⟩ := s
  cases i with
  | call nnn =>
      cases hpush : m.cpu.stack.push? m.cpu.pc with
      | none | some _ =>
          have hother : (m.meanwhile ⟨pad, delay, sound⟩).cpu.stack.push?
              (m.meanwhile ⟨pad, delay, sound⟩).cpu.pc = _ := hpush
          simp only [execute, Cpu.push, hpush, hother]
          rfl
  | ret =>
      cases hpop : m.cpu.stack.pop? with
      | none | some _ =>
          have hother : (m.meanwhile ⟨pad, delay, sound⟩).cpu.stack.pop? = _ := hpop
          simp only [execute, Cpu.pop, hpop, hother]
          rfl
  | skipEqByte | skipNeByte | skipEq | skipNe => exact skip_meanwhile m _ _
  | skipHeld | skipNotHeld =>
      obtain rfl : pad = id := hi.pad rfl
      exact skip_meanwhile m _ _
  | awaitKey x =>
      obtain rfl : pad = id := hi.pad rfl
      rfl
  | readDelay x | setDelay x | setSound x =>
      obtain ⟨rfl, rfl⟩ : delay = id ∧ sound = id := hi.timers rfl
      rfl
  | restore x =>
      have hset := setRegisters_meanwhile m.cpu ⟨pad, delay, sound⟩
        (m.ram.readMany m.cpu.i (x.val + 1))
      exact congrArg (fun c : Cpu => Except.ok
        (({ m with pad := pad m.pad, cpu := c } : Machine w h), Effect.nothing)) hset
  | _ => rfl

/-! ## Steps -/

/-- A step that ignores a change goes alike before and after it. -/
theorem step_meanwhile (hmode : m.mode = .running ∨ s.pad = id)
    (hi : ∀ i, m.upcoming? = some i → i.Ignores s) :
    (m.meanwhile s).step =
      ⟨m.step.machine.meanwhile s, m.step.notes, m.step.result⟩ := by
  generalize hout : m.step = out
  have hcase := hout ▸ m.stepCase
  cases hcase with
  | waiting hawaiting hslot =>
      have hpad : s.pad = id :=
        hmode.resolve_left fun hrunning => nomatch hawaiting.symm.trans hrunning
      have hother : (m.meanwhile s).pad.slot = none := by
        rw [meanwhile, hpad]
        exact hslot
      exact step_of_waiting hawaiting hother
  | @resumed x k hawaiting hslot =>
      have hpad : s.pad = id :=
        hmode.resolve_left fun hrunning => nomatch hawaiting.symm.trans hrunning
      have hother : (m.meanwhile s).pad.slot = some k := by
        rw [meanwhile, hpad]
        exact hslot
      have hresumed : (m.meanwhile s).resumed x k = (m.resumed x k).meanwhile s := by
        rw [resumed, meanwhile, meanwhile, hpad]
        rfl
      rw [step_of_pressed (m := m.meanwhile s) hawaiting hother, hresumed]
  | unknown hrunning hword => exact step_of_unknown (m := m.meanwhile s) hrunning hword
  | @refused i f hupcoming hf =>
      have hsame : (m.meanwhile s).moved.execute i = _ :=
        execute_meanwhile (m := m.moved) (hi i hupcoming)
      rw [step_of_upcoming (m := m.meanwhile s) hupcoming, hsame, hf]
      rfl
  | @executed i m' e hupcoming hm' =>
      have hsame : (m.meanwhile s).moved.execute i = _ :=
        execute_meanwhile (m := m.moved) (hi i hupcoming)
      rw [step_of_upcoming (m := m.meanwhile s) hupcoming, hsame, hm']
      rfl

end Machine

end Chip8Vm
