import Chip8Vm.Proofs.Console.History
import Chip8Vm.Proofs.Console.InTune
import Chip8Vm.Proofs.Machine.Confined

/-!
# Chip8Vm.Proofs.Console.Faults

The faults that a step ends in, and the address they name.

A word that spells no instruction is reported with the address it was fetched from.  The
two faults of the call stack name two less than the program counter, which was cut to
twelve bits on its way past the instruction, and the difference is not cut again.  So
they are right about every instruction but one in the last two bytes of memory, of which
only the low twelve bits are right (`step_names_instruction`).
-/

namespace Chip8Vm

namespace Fault

/-- The address that a fault of the program names. -/
def address? : Fault → Option UInt16
  | unknownOpcode _ addr => some addr
  | stackOverflow addr => some addr
  | stackUnderflow addr => some addr
  | _ => none

/-- Is it a fault of the call stack? -/
def isNesting : Fault → Bool
  | stackOverflow _ => true
  | stackUnderflow _ => true
  | _ => false

end Fault

/-! ## Faults of the devices -/

namespace Screen

variable {s t : Screen} {f : Fault}

theorem fault_of_call {c : ScreenCall} (hf : s.call c = (.error f, t)) : f = fault c.op := by
  unfold call at hf
  split at hf
  · cases hf
    rfl
  · cases hf

/-- The screen's own faults are all that its calls end in. -/
theorem fault_of_perform {l : List ScreenCall} (hf : (s.perform l).1 = .error f) :
    ∃ op, f = fault op := by
  induction l generalizing s with
  | nil => cases hf
  | cons c cs ih =>
      unfold perform at hf
      rcases hc : s.call c with ⟨g | u, t⟩
      · rw [hc] at hf
        cases hf
        exact ⟨c.op, fault_of_call hc⟩
      · rw [hc] at hf
        exact ih hf

end Screen

namespace Console

variable {w h : Nat} {c d : Console w h} {f : Fault}

theorem fault_of_callTone {call : ToneCall} (hf : c.callTone call = (.error f, d)) :
    f = Tone.fault call := by
  cases hr : c.tone.refuses call with
  | true =>
      rw [callTone_refused hr] at hf
      cases hf
      rfl
  | false =>
      rw [callTone_accepted hr] at hf
      exact nomatch hf

theorem fault_of_syncTone (hf : c.syncTone = (.error f, d)) : ∃ call, f = Tone.fault call := by
  simp only [syncTone] at hf
  split at hf
  · cases hf
  · split at hf
    · exact ⟨.beep, fault_of_callTone hf⟩
    · exact ⟨.stop, fault_of_callTone hf⟩

/-- What the machine wants from the devices ends in no fault of the program. -/
theorem address?_of_perform {e : Effect} (hf : c.perform e = (.error f, d)) :
    f.address? = none := by
  cases e with
  | nothing => cases hf
  | present =>
      have hscreen : (c.screen.present c.machine.picture).1 = .error f := congrArg Prod.fst hf
      obtain ⟨op, rfl⟩ := Screen.fault_of_perform hscreen
      rfl
  | tone =>
      obtain ⟨call, rfl⟩ := fault_of_syncTone hf
      rfl

end Console

/-! ## Faults of the program -/

namespace Machine

variable {w h : Nat} {m : Machine w h} {i : Instruction} {f : Fault} {a : UInt16}

/-- Two less than the following address, as the faults of the call stack have it: the
address itself, or the address with all higher bits set for the last two. -/
theorem toNat_following_sub_two (ha : a.toNat < 4096) :
    (following a - 2).toNat = if a.toNat < 4094 then a.toNat else a.toNat + 61440 := by
  rw [UInt16.toNat_sub, toNat_following]
  simp only [UInt16.reduceToNat]
  split <;> omega

theorem wrapAddress_following_sub_two (ha : a.toNat < 4096) :
    wrapAddress (following a - 2) = a := by
  apply UInt16.toNat_inj.mp
  rw [toNat_wrapAddress, toNat_following_sub_two ha]
  split <;> omega

theorem following_sub_two_eq_iff (ha : a.toNat < 4096) :
    following a - 2 = a ↔ a.toNat < 4094 := by
  rw [← UInt16.toNat_inj, toNat_following_sub_two ha]
  split <;> omega

/-- An instruction at fault names two less than the address that follows its own. -/
theorem address?_of_refuses (hf : m.moved.Refuses i f) :
    f.isNesting = true ∧ f.address? = some (following m.cpu.pc - 2) := by
  cases hf with
  | overflow hdepth => exact ⟨rfl, rfl⟩
  | underflow hdepth => exact ⟨rfl, rfl⟩

/-- What a fault of the program says about where the program was. -/
structure Blames (m : Machine w h) (f : Fault) (a : UInt16) : Prop where
  /-- An unknown word is the one at the program counter. -/
  word : ∀ word, f = .unknownOpcode word a → word = m.ram.word m.cpu.pc
  /-- The low twelve bits are those of the program counter. -/
  low : wrapAddress a = m.cpu.pc
  /-- All bits are, but for a fault of the call stack in the last two bytes of memory. -/
  exact_iff : a = m.cpu.pc ↔ f.isNesting = false ∨ m.cpu.pc.toNat < 4094

theorem blames_of_step (hm : m.cpu.pc.toNat < 4096) (hf : m.step.result = .error f)
    (ha : f.address? = some a) : m.Blames f a := by
  generalize hout : m.step = out at hf
  have hcase := hout ▸ m.stepCase
  cases hcase with
  | waiting hmode hslot => exact nomatch hf
  | resumed hmode hslot => exact nomatch hf
  | executed hi hm' => exact nomatch hf
  | unknown hmode hword =>
      cases hf
      cases ha
      refine ⟨fun word hword => ?_, ?_, iff_of_true rfl (.inl rfl)⟩
      · exact (Fault.unknownOpcode.inj hword).1.symm
      · apply UInt16.toNat_inj.mp
        rw [toNat_wrapAddress, Nat.mod_eq_of_lt hm]
  | refused hi hexecute =>
      cases hf
      obtain ⟨hnesting, hnamed⟩ := address?_of_refuses (execute_eq_error_iff.mp hexecute)
      cases hnamed.symm.trans ha
      refine ⟨fun word hword => ?_, wrapAddress_following_sub_two hm, ?_⟩
      · rw [hword] at hnesting
        exact nomatch hnesting
      · rw [following_sub_two_eq_iff hm, hnesting]
        simp

end Machine

namespace Console

variable {w h : Nat} {c : Console w h}

/-- A fault of the program that ends a step is that of the machine. -/
theorem result_of_step {f : Fault} {a : UInt16} (hf : c.step.1 = .error f)
    (ha : f.address? = some a) : c.machine.step.result = .error f := by
  generalize hout : c.step = out at hf
  have hcase := hout ▸ c.stepCase
  cases hcase with
  | fault hfault =>
      cases hf
      exact hfault
  | refused hr hd =>
      cases hf
      exact nomatch (address?_of_perform hd).symm.trans ha
  | done hr hd => exact nomatch hf

/-- **Faults name the instruction, except at the top of memory.** When a step of a reachable
console ends in a fault of the program, the program counter was an address of memory, the
low twelve bits of the address in the fault are the program counter, and an unknown word is
the one at the program counter.  The whole address is the program counter unless the
fault is one of the call stack and the instruction lies in the last two bytes of memory. -/
theorem step_names_instruction (hc : c.Reachable) {f : Fault} {a : UInt16}
    (hf : c.step.1 = .error f) (ha : f.address? = some a) :
    c.machine.cpu.pc.toNat < 4096 ∧ c.machine.Blames f a :=
  ⟨hc.bounded.pc, Machine.blames_of_step hc.bounded.pc (result_of_step hf ha) ha⟩

/-- A new console with a program of one return. -/
def returning : Console 8 4 :=
  (plugged 8 4 (.chacha 0) .inherited {}).after [.load { bytes := [0x00, 0xee] }]

/-- The return at the start of the program is named by its address. -/
theorem step_names_return :
    returning.Reachable ∧ returning.step.1 = .error (.stackUnderflow 0x200) ∧
    returning.machine.Blames (.stackUnderflow 0x200) 0x200 := by
  have hreachable : returning.Reachable := (Reachable.plugged (.chacha 0) .inherited {}).after _
  have hfault : returning.step.1 = .error (.stackUnderflow 0x200) := by decide +kernel
  exact ⟨hreachable, hfault, (step_names_instruction hreachable hfault rfl).2⟩

/-- A program that writes a return into the last two bytes of memory and goes there. -/
def topReturning : Console 8 4 :=
  (plugged 8 4 (.chacha 0) .inherited {}).after
    [.load { bytes := [0x60, 0x00, 0x61, 0xee, 0xaf, 0xfe, 0xf1, 0x55, 0x1f, 0xfe] },
      .step, .step, .step, .step, .step]

/-- The return in the last two bytes of memory is not named by its address. -/
theorem step_misnames_top_return :
    topReturning.Reachable ∧ topReturning.machine.cpu.pc = 0xffe ∧
    topReturning.step.1 = .error (.stackUnderflow 0xfffe) := by
  exact ⟨(Reachable.plugged (.chacha 0) .inherited {}).after _, by decide +kernel,
    by decide +kernel⟩

end Console

end Chip8Vm
