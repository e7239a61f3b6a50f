import Chip8Vm.Machine

/-!
# Chip8Vm.Proofs.Machine.Step

What a step of the machine can do.

`Machine.StepCase` lists the ways a step can go, each with its condition and with all that
it leaves behind; later proofs about steps go by its cases and open no definition of the
machine.  Of the instructions only calls and returns can be at fault (`Refuses`), two want the
picture shown (`effect_eq_present_iff`) and one wants the tone brought in line
(`effect_eq_tone_iff`).
-/

namespace Chip8Vm

/-! ## The call stack at its ends -/

namespace CallStack

theorem push?_eq_none_iff {s : CallStack} {a : UInt16} : s.push? a = none ↔ s.depth.val = 16 := by
  have hdepth := s.depth.isLt
  simp only [push?, dite_eq_right_iff, reduceCtorEq, imp_false]
  omega

theorem pop?_eq_none_iff {s : CallStack} : s.pop? = none ↔ s.depth.val = 0 := by
  simp only [pop?, dite_eq_right_iff, reduceCtorEq, imp_false]
  omega

end CallStack

namespace Instruction

/-- Does the instruction change the picture, and so want it shown? -/
def shows : Instruction → Bool
  | clear => true
  | draw _ _ _ => true
  | _ => false

/-- Does the instruction open or close a subroutine? -/
def nests : Instruction → Bool
  | call _ => true
  | ret => true
  | _ => false

end Instruction

namespace Machine

variable {w h : Nat} {m m' : Machine w h} {i : Instruction} {e : Effect} {f : Fault}

/-- The instruction that the next step carries out; none while the machine waits for a key,
and none where the word at the program counter spells none. -/
def upcoming? (m : Machine w h) : Option Instruction :=
  match m.mode with
  | .running => Instruction.ofWord? (m.ram.word m.cpu.pc)
  | .awaiting _ => none

/-- The machine with its program counter past the word that it fetches. -/
def moved (m : Machine w h) : Machine w h := m.withCpu fun c => { c with pc := following c.pc }

/-- The machine after the key that it waited for came. -/
def resumed (m : Machine w h) (x : Reg) (k : PadKey) : Machine w h :=
  { m with pad := m.pad.arm, cpu := m.cpu.set x (UInt8.ofNat k.val), mode := .running }

theorem toNat_wrapAddress (a : UInt16) : (wrapAddress a).toNat = a.toNat % 4096 := by
  rw [wrapAddress, UInt16.toNat_and]
  exact Nat.and_two_pow_sub_one_eq_mod a.toNat 12

/-- Addresses follow each other around memory. -/
theorem toNat_following (a : UInt16) : (following a).toNat = (a.toNat + 2) % 4096 := by
  rw [following, toNat_wrapAddress, UInt16.toNat_add]
  simp only [UInt16.reduceToNat]
  omega

theorem mode_of_upcoming (hi : m.upcoming? = some i) : m.mode = .running := by
  unfold upcoming? at hi
  cases hmode : m.mode with
  | running => rfl
  | awaiting x =>
      rw [hmode] at hi
      exact nomatch hi

/-- The instruction is the one that the word at the program counter spells. -/
theorem ofWord?_of_upcoming (hi : m.upcoming? = some i) :
    Instruction.ofWord? (m.ram.word m.cpu.pc) = some i := by
  rwa [upcoming?, mode_of_upcoming hi] at hi

/-! ## Steps by cases -/

/-- What is noted of an instruction that is fetched. -/
def fetchNotes (m : Machine w h) (i : Instruction) : List Note :=
  .fetched m.cpu.pc (m.ram.word m.cpu.pc) i :: executionNotes i

/-- A step that comes to an instruction moves on and carries it out. -/
theorem step_of_upcoming (hi : m.upcoming? = some i) :
    m.step = match m.moved.execute i with
      | .error f => ⟨m.moved, m.fetchNotes i, .error f⟩
      | .ok (m', e) => ⟨m', m.fetchNotes i, .ok (.executed i, e)⟩ := by
  simp only [step, mode_of_upcoming hi, fetch, Instruction.decode, ofWord?_of_upcoming hi]
  rfl

/-- The ways a step can go. -/
inductive StepCase (m : Machine w h) : Stepped w h → Prop where
  /-- No key was pressed, and nothing changes. -/
  | waiting {x : Reg} (hmode : m.mode = .awaiting x) (hslot : m.pad.slot = none) :
      StepCase m ⟨m, [], .ok (.waiting, .nothing)⟩
  /-- The key that was waited for is put into its register. -/
  | resumed {x : Reg} {k : PadKey} (hmode : m.mode = .awaiting x)
      (hslot : m.pad.slot = some k) :
      StepCase m ⟨m.resumed x k, [.resumed k x], .ok (.resumed k, .nothing)⟩
  /-- The word at the program counter spells no instruction. -/
  | unknown (hmode : m.mode = .running)
      (hword : Instruction.ofWord? (m.ram.word m.cpu.pc) = none) :
      StepCase m ⟨m.moved, [], .error (.unknownOpcode (m.ram.word m.cpu.pc) m.cpu.pc)⟩
  /-- The instruction is at fault. -/
  | refused {i : Instruction} {f : Fault} (hi : m.upcoming? = some i)
      (hf : m.moved.execute i = .error f) :
      StepCase m ⟨m.moved, m.fetchNotes i, .error f⟩
  /-- The instruction is carried out. -/
  | executed {i : Instruction} {m' : Machine w h} {e : Effect} (hi : m.upcoming? = some i)
      (hm' : m.moved.execute i = .ok (m', e)) :
      StepCase m ⟨m', m.fetchNotes i, .ok (.executed i, e)⟩

/-- While no key is pressed, a step that waits for one changes nothing. -/
theorem step_of_waiting {x : Reg} (hmode : m.mode = .awaiting x) (hslot : m.pad.slot = none) :
    m.step = ⟨m, [], .ok (.waiting, .nothing)⟩ := by
  have hsame : ({ m with pad := { m.pad with slot := none } } : Machine w h) = m := by
    rw [← hslot]
  have hstep : m.step = m.resume x := by rw [step, hmode]
  simp only [hstep, resume, HexPad.take, hslot, hsame]

theorem step_of_pressed {x : Reg} {k : PadKey} (hmode : m.mode = .awaiting x)
    (hslot : m.pad.slot = some k) :
    m.step = ⟨m.resumed x k, [.resumed k x], .ok (.resumed k, .nothing)⟩ := by
  simp only [step, hmode, resume, HexPad.take, hslot]
  rfl

/-- A step that comes to a word which spells no instruction only moves on. -/
theorem step_of_unknown (hmode : m.mode = .running)
    (hword : Instruction.ofWord? (m.ram.word m.cpu.pc) = none) :
    m.step = ⟨m.moved, [], .error (.unknownOpcode (m.ram.word m.cpu.pc) m.cpu.pc)⟩ := by
  simp only [step, hmode, fetch, Instruction.decode, hword]
  rfl

theorem stepCase (m : Machine w h) : StepCase m m.step := by
  cases hmode : m.mode with
  | awaiting x =>
      cases hslot : m.pad.slot with
      | none =>
          rw [step_of_waiting hmode hslot]
          exact .waiting hmode hslot
      | some k =>
          rw [step_of_pressed hmode hslot]
          exact .resumed hmode hslot
  | running =>
      cases hword : Instruction.ofWord? (m.ram.word m.cpu.pc) with
      | none =>
          rw [step_of_unknown hmode hword]
          exact .unknown hmode hword
      | some i =>
          have hi : m.upcoming? = some i := by rw [upcoming?, hmode, hword]
          rw [step_of_upcoming hi]
          cases hm' : m.moved.execute i with
          | error f => exact .refused hi hm'
          | ok out =>
              obtain ⟨m', e⟩ := out
              exact .executed hi hm'

/-- What was carried out is the instruction that was coming up. -/
theorem execute_of_result (hr : m.step.result = .ok (.executed i, e)) :
    m.upcoming? = some i ∧ m.moved.execute i = .ok (m.step.machine, e) := by
  generalize hout : m.step = out at hr ⊢
  have hcase := hout ▸ m.stepCase
  cases hcase with
  | waiting hmode hslot => exact nomatch hr
  | resumed hmode hslot => exact nomatch hr
  | unknown hmode hword => exact nomatch hr
  | refused hi hf => exact nomatch hr
  | executed hi hm' =>
      cases hr
      exact ⟨hi, hm'⟩

/-- A step at fault has only moved on. -/
theorem moved_of_error (hf : m.step.result = .error f) : m.step.machine = m.moved := by
  generalize hout : m.step = out at hf ⊢
  have hcase := hout ▸ m.stepCase
  cases hcase with
  | waiting hmode hslot => exact nomatch hf
  | resumed hmode hslot => exact nomatch hf
  | unknown hmode hword => rfl
  | refused hi hrefused => rfl
  | executed hi hm' => exact nomatch hf

/-- Only instructions want something from the devices. -/
theorem execute_of_effect {o : Outcome} (hr : m.step.result = .ok (o, e)) (he : e ≠ .nothing) :
    ∃ i m', m.upcoming? = some i ∧ m.moved.execute i = .ok (m', e) := by
  generalize hout : m.step = out at hr
  have hcase := hout ▸ m.stepCase
  cases hcase with
  | waiting hmode hslot =>
      cases hr
      exact absurd rfl he
  | resumed hmode hslot =>
      cases hr
      exact absurd rfl he
  | unknown hmode hword => exact nomatch hr
  | refused hi hrefused => exact nomatch hr
  | executed hi hm' =>
      cases hr
      exact ⟨_, _, hi, hm'⟩

/-! ## Instructions at fault -/

/-- The ways an instruction can be at fault. -/
inductive Refuses (m : Machine w h) : Instruction → Fault → Prop where
  /-- The call would open a seventeenth subroutine. -/
  | overflow {nnn : Addr} (hdepth : m.cpu.stack.depth.val = 16) :
      Refuses m (.call nnn) (.stackOverflow (m.cpu.pc - 2))
  /-- The return finds no open subroutine. -/
  | underflow (hdepth : m.cpu.stack.depth.val = 0) :
      Refuses m .ret (.stackUnderflow (m.cpu.pc - 2))

theorem execute_eq_error_iff : m.execute i = .error f ↔ m.Refuses i f := by
  constructor
  · intro hf
    cases i with
    | call nnn =>
        cases hpush : m.cpu.stack.push? m.cpu.pc with
        | none =>
            simp only [execute, Cpu.push, hpush, bind, Except.bind, Except.error.injEq] at hf
            subst hf
            exact .overflow (CallStack.push?_eq_none_iff.mp hpush)
        | some s =>
            simp only [execute, Cpu.push, hpush, bind, Except.bind] at hf
            exact nomatch hf
    | ret =>
        cases hpop : m.cpu.stack.pop? with
        | none =>
            simp only [execute, Cpu.pop, hpop, bind, Except.bind, Except.error.injEq] at hf
            subst hf
            exact .underflow (CallStack.pop?_eq_none_iff.mp hpop)
        | some popped =>
            simp only [execute, Cpu.pop, hpop, bind, Except.bind] at hf
            exact nomatch hf
    | _ => exact nomatch hf
  · rintro (hdepth | hdepth)
    · simp only [execute, Cpu.push, CallStack.push?_eq_none_iff.mpr hdepth]
      rfl
    · simp only [execute, Cpu.pop, CallStack.pop?_eq_none_iff.mpr hdepth]
      rfl

/-! ## Subroutines -/

theorem execute_call_eq_ok {nnn : Addr} (hm' : m.execute (.call nnn) = .ok (m', e)) :
    ∃ s, m.cpu.stack.push? m.cpu.pc = some s ∧ e = .nothing ∧
      m' = { m with cpu := { m.cpu with stack := s, pc := ofAddr nnn } } := by
  cases hpush : m.cpu.stack.push? m.cpu.pc with
  | none =>
      simp only [execute, Cpu.push, hpush, bind, Except.bind] at hm'
      exact nomatch hm'
  | some s =>
      simp only [execute, Cpu.push, hpush, bind, Except.bind] at hm'
      cases hm'
      exact ⟨s, rfl, rfl, rfl⟩

theorem execute_ret_eq_ok (hm' : m.execute .ret = .ok (m', e)) :
    ∃ a s, m.cpu.stack.pop? = some (a, s) ∧ e = .nothing ∧
      m' = { m with cpu := { m.cpu with stack := s, pc := a } } := by
  cases hpop : m.cpu.stack.pop? with
  | none =>
      simp only [execute, Cpu.pop, hpop, bind, Except.bind] at hm'
      exact nomatch hm'
  | some popped =>
      simp only [execute, Cpu.pop, hpop, bind, Except.bind] at hm'
      cases hm'
      exact ⟨popped.1, popped.2, rfl, rfl, rfl⟩

/-- A call that is carried out opens a subroutine that returns to the program counter. -/
theorem stack_execute_call {nnn : Addr} (hm' : m.execute (.call nnn) = .ok (m', e)) :
    m'.cpu.stack.toList = m.cpu.stack.toList ++ [m.cpu.pc] := by
  obtain ⟨s, hpush, -, rfl⟩ := execute_call_eq_ok hm'
  exact CallStack.toList_push hpush

/-- A return that is carried out closes the innermost subroutine and goes on where that
returns to. -/
theorem stack_execute_ret (hm' : m.execute .ret = .ok (m', e)) :
    m.cpu.stack.toList = m'.cpu.stack.toList ++ [m'.cpu.pc] := by
  obtain ⟨a, s, hpop, -, rfl⟩ := execute_ret_eq_ok hm'
  exact CallStack.toList_of_pop hpop

/-- Calls and returns want nothing from the devices. -/
theorem effect_of_nests (hr : m.step.result = .ok (.executed i, e)) (hi : i.nests = true) :
    e = .nothing := by
  obtain ⟨-, hm'⟩ := execute_of_result hr
  cases i with
  | call nnn =>
      obtain ⟨s, -, he, -⟩ := execute_call_eq_ok hm'
      exact he
  | ret =>
      obtain ⟨a, s, -, he, -⟩ := execute_ret_eq_ok hm'
      exact he
  | _ => exact nomatch hi

theorem stack_step_call {nnn : Addr} (hr : m.step.result = .ok (.executed (.call nnn), e)) :
    m.step.machine.cpu.stack.toList = m.cpu.stack.toList ++ [following m.cpu.pc] :=
  stack_execute_call (execute_of_result hr).2

theorem stack_step_ret (hr : m.step.result = .ok (.executed .ret, e)) :
    m.cpu.stack.toList = m.step.machine.cpu.stack.toList ++ [m.step.machine.cpu.pc] :=
  stack_execute_ret (m := m.moved) (execute_of_result hr).2

/-! ## What is wanted from the devices -/

/-- The instructions that change the picture want it shown, and no others do. -/
theorem effect_eq_present_iff (hm' : m.execute i = .ok (m', e)) :
    e = .present ↔ i.shows = true := by
  cases i with
  | call nnn =>
      obtain ⟨s, -, rfl, -⟩ := execute_call_eq_ok hm'
      exact ⟨nofun, nofun⟩
  | ret =>
      obtain ⟨a, s, -, rfl, -⟩ := execute_ret_eq_ok hm'
      exact ⟨nofun, nofun⟩
  | _ => cases hm'; simp [Instruction.shows]

/-- The instruction that sets the sound timer wants the tone brought in line, and no other
does. -/
theorem effect_eq_tone_iff (hm' : m.execute i = .ok (m', e)) :
    e = .tone ↔ ∃ x, i = .setSound x := by
  cases i with
  | call nnn =>
      obtain ⟨s, -, rfl, -⟩ := execute_call_eq_ok hm'
      exact ⟨nofun, nofun⟩
  | ret =>
      obtain ⟨a, s, -, rfl, -⟩ := execute_ret_eq_ok hm'
      exact ⟨nofun, nofun⟩
  | _ => cases hm'; simp

/-- A step that wants the picture shown comes to an instruction that changes it. -/
theorem shows_of_result {o : Outcome} (hr : m.step.result = .ok (o, .present)) :
    ∃ i, m.upcoming? = some i ∧ i.shows = true := by
  obtain ⟨i, m', hi, hm'⟩ := execute_of_effect hr nofun
  exact ⟨i, hi, (effect_eq_present_iff hm').mp rfl⟩

/-- A step that wants the tone brought in line comes to the instruction that sets the sound
timer. -/
theorem setSound_of_result {o : Outcome} (hr : m.step.result = .ok (o, .tone)) :
    ∃ x, m.upcoming? = some (.setSound x) := by
  obtain ⟨i, m', hi, hm'⟩ := execute_of_effect hr nofun
  obtain ⟨x, rfl⟩ := (effect_eq_tone_iff hm').mp rfl
  exact ⟨x, hi⟩

/-- Does the next step carry out an instruction that changes the picture? -/
def isShowing (m : Machine w h) : Bool := m.upcoming?.any Instruction.shows

/-- An instruction that changes the picture is never at fault. -/
theorem execute_of_shows (m : Machine w h) (hi : i.shows = true) :
    ∃ m', m.execute i = .ok (m', .present) := by
  cases i with
  | clear => exact ⟨_, rfl⟩
  | draw x y n => exact ⟨_, rfl⟩
  | _ => exact nomatch hi

/-- A step that changes the picture wants it shown. -/
theorem result_of_isShowing (hm : m.isShowing = true) :
    ∃ o, m.step.result = .ok (o, .present) := by
  obtain ⟨i, hi, hshows⟩ := (Option.any_eq_true _ _).mp hm
  obtain ⟨m', hm'⟩ := m.moved.execute_of_shows hshows
  exact ⟨.executed i, by rw [step_of_upcoming hi, hm']⟩

end Machine

end Chip8Vm
