import Chip8Vm.Proofs.Machine.Bounded
import Chip8Vm.Proofs.Machine.Step

/-!
# Chip8Vm.Proofs.Machine.Flow

Where a program goes on after an instruction.

`Flow` lists the ways to go on.  `Machine.flow` tells the way from the nibbles of the word at
the program counter, and `Machine.onward` the address that it leads to; both look at the machine
before the step alone.  That every instruction takes its way has one case for each of them
(`pc_execute`), and the way of a word is that of its instruction (`flow_eq_flowOf`).
-/

namespace Chip8Vm

/-- How a program goes on. -/
inductive Flow where
  /-- With the next word. -/
  | next
  | jump (nnn : Addr)
  /-- At an address plus V0. -/
  | offset (nnn : Addr)
  /-- Where the innermost subroutine returns to. -/
  | back
  /-- Past the next word if the condition holds, and else with it. -/
  | skip (condition : Bool)
  deriving DecidableEq

namespace Machine

variable {w h : Nat} {m m' : Machine w h} {i : Instruction} {e : Effect}

/-! ## The ways to go on -/

/-- Is the key held whose number is the low nibble of Vx? -/
def holdsKey (m : Machine w h) (x : Reg) : Bool :=
  m.pad.held.get ⟨(m.cpu.get x).toNat % 16, Nat.mod_lt _ (Nat.succ_pos 15)⟩

/-- How the program goes on after a word with these nibbles. -/
def flow (m : Machine w h) (f : Fields) : Flow :=
  match f.group with
  | 0x0 => if f.nnn = 0x0ee then .back else .next
  | 0x1 | 0x2 => .jump f.nnn
  | 0x3 => .skip (m.cpu.get f.x == f.kk)
  | 0x4 => .skip (m.cpu.get f.x != f.kk)
  | 0x5 => .skip (m.cpu.get f.x == m.cpu.get f.y)
  | 0x9 => .skip (m.cpu.get f.x != m.cpu.get f.y)
  | 0xb => .offset f.nnn
  | 0xe => if f.kk = 0x9e then .skip (m.holdsKey f.x)
    else if f.kk = 0xa1 then .skip (!m.holdsKey f.x)
    else .next
  | _ => .next

/-- The address that a way leads to; a return leads nowhere if no subroutine is open. -/
def onward (m : Machine w h) : Flow → Option Nat
  | .next => some ((m.cpu.pc.toNat + 2) % 4096)
  | .jump nnn => some nnn.val
  | .offset nnn => some ((nnn.val + (m.cpu.get 0).toNat) % 4096)
  | .back => m.cpu.stack.toList.getLast?.map UInt16.toNat
  | .skip condition => some ((m.cpu.pc.toNat + if condition then 4 else 2) % 4096)

/-- How the program goes on after an instruction. -/
def flowOf (m : Machine w h) : Instruction → Flow
  | .ret => .back
  | .jump nnn => .jump nnn
  | .call nnn => .jump nnn
  | .skipEqByte x kk => .skip (m.cpu.get x == kk)
  | .skipNeByte x kk => .skip (m.cpu.get x != kk)
  | .skipEq x y => .skip (m.cpu.get x == m.cpu.get y)
  | .skipNe x y => .skip (m.cpu.get x != m.cpu.get y)
  | .jumpOffset nnn => .offset nnn
  | .skipHeld x => .skip (m.holdsKey x)
  | .skipNotHeld x => .skip (!m.holdsKey x)
  | _ => .next

/-- The way after a word is the way after the instruction that it spells. -/
theorem flow_eq_flowOf {f : Fields} (hi : Instruction.ofFields? f = some i) :
    m.flow f = m.flowOf i := by
  revert hi
  fun_cases Instruction.ofFields? f <;> intro hi <;> cases hi <;> simp [flow, flowOf, *]

/-! ## Instructions and steps -/

/-- Skipping masks the program counter twice, which comes to one sum around memory. -/
theorem pc_skipIf (m : Machine w h) (condition : Bool) :
    (m.moved.skipIf condition).cpu.pc.toNat =
      (m.cpu.pc.toNat + if condition then 4 else 2) % 4096 := by
  have hmoved : m.moved.cpu.pc.toNat = (m.cpu.pc.toNat + 2) % 4096 := toNat_following _
  cases condition with
  | false => exact hmoved
  | true =>
      have hskipped : (m.moved.skipIf true).cpu.pc.toNat = (m.moved.cpu.pc.toNat + 2) % 4096 :=
        toNat_following _
      rw [hskipped, hmoved]
      simp only [if_true]
      omega

theorem pc_setRegisters (c : Cpu) (bytes : List UInt8) : (setRegisters c bytes).pc = c.pc := by
  unfold setRegisters
  refine List.foldlRecOn (motive := fun d : Cpu => d.pc = c.pc) _ _ rfl fun d hd entry _ => ?_
  by_cases hn : entry.2 < 16
  · simp only [hn, dif_pos]
    exact hd
  · simp only [hn, dif_neg, not_false_iff]
    exact hd

/-- Every instruction that is carried out leaves the program counter where its way leads, as
told before the instruction was fetched. -/
theorem pc_execute (hm' : m.moved.execute i = .ok (m', e)) :
    m.onward (m.flowOf i) = some m'.cpu.pc.toNat := by
  have hnext : m.onward .next = some m.moved.cpu.pc.toNat := by
    rw [onward, ← toNat_following]
    rfl
  cases i with
  | ret =>
      have hstack : m.cpu.stack.toList = m'.cpu.stack.toList ++ [m'.cpu.pc] :=
        stack_execute_ret (m := m.moved) hm'
      rw [flowOf, onward, hstack, List.getLast?_concat]
      rfl
  | call nnn =>
      obtain ⟨s, -, -, rfl⟩ := execute_call_eq_ok hm'
      rw [flowOf, onward, toNat_ofAddr]
  | jump nnn =>
      cases hm'
      rw [flowOf, onward, withCpu, toNat_ofAddr]
  | jumpOffset nnn =>
      cases hm'
      have hnnn := nnn.isLt
      have hbyte := (m.cpu.get 0).toNat_lt
      have hsum : (ofAddr nnn + (m.cpu.get 0).toUInt16).toNat = nnn.val + (m.cpu.get 0).toNat := by
        rw [UInt16.toNat_add, toNat_ofAddr, UInt8.toNat_toUInt16]
        omega
      rw [flowOf, onward, ← hsum, ← toNat_wrapAddress]
      rfl
  | skipEqByte | skipNeByte | skipEq | skipNe | skipHeld | skipNotHeld =>
      cases hm'
      exact congrArg some (pc_skipIf m _).symm
  | restore x =>
      cases hm'
      rw [withCpu, pc_setRegisters]
      exact hnext
  | _ =>
      cases hm'
      exact hnext

/-- A step that carries out an instruction goes on the way of the word at the program counter. -/
theorem onward_step (hr : m.step.result = .ok (.executed i, e)) :
    m.onward (m.flow (Fields.ofWord (m.ram.word m.cpu.pc))) =
      some m.step.machine.cpu.pc.toNat := by
  obtain ⟨hi, hm'⟩ := execute_of_result hr
  rw [flow_eq_flowOf (ofWord?_of_upcoming hi)]
  exact pc_execute hm'

/-- A running machine does nothing but carry out instructions. -/
theorem executed_of_running {o : Outcome} (hmode : m.mode = .running)
    (hr : m.step.result = .ok (o, e)) : ∃ i, o = .executed i := by
  generalize hout : m.step = out at hr
  have hcase := hout ▸ m.stepCase
  cases hcase with
  | waiting hawaiting hslot => exact nomatch hmode.symm.trans hawaiting
  | resumed hawaiting hslot => exact nomatch hmode.symm.trans hawaiting
  | unknown hrunning hword => exact nomatch hr
  | refused hi hf => exact nomatch hr
  | @executed i m' e hi hm' =>
      cases hr
      exact ⟨i, rfl⟩

end Machine

end Chip8Vm
