import Chip8Vm.Proofs.Console.Faults

/-!
# Chip8Vm.Proofs.Console.Failure

How a step fails, and what it leaves behind.

A step fails because the word at the program counter spells no instruction, because the call
stack refuses a call or a return, or because a device refuses its call (`failCase`).  In the
first two cases nothing has changed but the program counter.  A refusing device was called by
one of a few instructions: the screen by those that change the picture, and the tone generator
by the one that sets the sound timer.
-/

namespace Chip8Vm

namespace Console

variable {w h : Nat} {c d : Console w h} {f : Fault} {x : Reg}

/-! ## Failing steps by cases -/

/-- From one console to the other only the program counter has changed, to the address of the
next word, and something may have been noted. -/
structure MovedOn (c d : Console w h) : Prop where
  kept : d = { c with
    machine := { c.machine with cpu := { c.machine.cpu with pc := d.machine.cpu.pc } }
    journal := d.journal }
  pc : d.machine.cpu.pc.toNat = (c.machine.cpu.pc.toNat + 2) % 4096

theorem movedOn_stepped (hf : c.machine.step.result = .error f) : c.MovedOn c.stepped := by
  have hmachine : c.stepped.machine = c.machine.moved := Machine.moved_of_error hf
  constructor
  · rw [hmachine]
    unfold stepped
    rw [Machine.moved_of_error hf]
    rfl
  · rw [hmachine]
    exact Machine.toNat_following c.machine.cpu.pc

/-- The ways a step can fail, with the fault and what is left. -/
inductive FailCase (c : Console w h) : Fault → Console w h → Prop where
  /-- The program is at fault, with a word that is no instruction or on the call stack. -/
  | program {f : Fault} {a : UInt16} {d : Console w h} (ha : f.address? = some a)
      (hd : c.MovedOn d) : FailCase c f d
  /-- The screen refused a call for an instruction that changes the picture. -/
  | screen {i : Instruction} {op : ScreenOp} {d : Console w h}
      (hi : c.machine.upcoming? = some i) (hshows : i.shows = true) :
      FailCase c (Screen.fault op) d
  /-- The generator refused a call for the instruction that sets the sound timer. -/
  | tone {x : Reg} {call : ToneCall} {d : Console w h}
      (hx : c.machine.upcoming? = some (.setSound x)) : FailCase c (Tone.fault call) d

theorem address?_of_result (hf : c.machine.step.result = .error f) : ∃ a, f.address? = some a := by
  generalize hout : c.machine.step = out at hf
  have hcase := hout ▸ c.machine.stepCase
  cases hcase with
  | waiting hmode hslot => exact nomatch hf
  | resumed hmode hslot => exact nomatch hf
  | executed hi hm' => exact nomatch hf
  | unknown hmode hword =>
      cases hf
      exact ⟨_, rfl⟩
  | refused hi hrefused =>
      cases hf
      exact ⟨_, (Machine.address?_of_refuses (Machine.execute_eq_error_iff.mp hrefused)).2⟩

theorem failCase (hf : c.step.1 = .error f) : FailCase c f c.step.2 := by
  generalize hout : c.step = out at hf ⊢
  have hcase := hout ▸ c.stepCase
  cases hcase with
  | fault hresult =>
      cases hf
      obtain ⟨a, ha⟩ := address?_of_result hresult
      exact .program ha (movedOn_stepped hresult)
  | @refused o e f d hr hd =>
      cases hf
      cases e with
      | nothing => exact nomatch hd
      | present =>
          obtain ⟨i, hi, hshows⟩ := Machine.shows_of_result hr
          have hscreen : (c.stepped.screen.present c.stepped.machine.picture).1 = .error f :=
            congrArg Prod.fst hd
          obtain ⟨op, rfl⟩ := Screen.fault_of_perform hscreen
          exact .screen hi hshows
      | tone =>
          obtain ⟨x, hx⟩ := Machine.setSound_of_result hr
          obtain ⟨call, rfl⟩ := fault_of_syncTone hd
          exact .tone hx
  | done hr hd => exact nomatch hf

/-- The instructions that change the picture are the one that blanks it and the one that draws. -/
theorem shows_iff {i : Instruction} :
    i.shows = true ↔ i = .clear ∨ ∃ x y n, i = .draw x y n := by
  cases i <;> simp [Instruction.shows]

/-- A step that waits for a key never fails. -/
theorem step_ok_of_awaiting (hmode : c.machine.mode = .awaiting x) : ∃ o, c.step.1 = .ok o := by
  cases hslot : c.machine.pad.slot with
  | none =>
      have hresult : c.machine.step.result = .ok (.waiting, .nothing) := by
        rw [Machine.step_of_waiting hmode hslot]
      exact ⟨_, step_of_nothing hresult⟩
  | some k =>
      have hresult : c.machine.step.result = .ok (.resumed k, .nothing) := by
        rw [Machine.step_of_pressed hmode hslot]
      exact ⟨_, step_of_nothing hresult⟩

/-- **Faults of the program are clean.** When a step ends in a fault of the program, nothing has
changed but the program counter, which is at the next word, and what is noted: every other part
of the machine, the devices with the records of their calls, what the console knows of the tone
and the count of instructions are as before.  The screen's faults come from the instruction that
blanks the picture and the one that draws alone, the generator's from the one that sets the
sound timer alone, and a step that waits for a key never fails. -/
theorem step_fails_cleanly (c : Console w h) :
    (∀ f a, c.step.1 = .error f → f.address? = some a → c.MovedOn c.step.2) ∧
    (∀ text, c.step.1 = .error (.io text) → c.machine.upcoming? = some .clear ∨
      ∃ x y n, c.machine.upcoming? = some (.draw x y n)) ∧
    (∀ text, c.step.1 = .error (.tone text) → ∃ x, c.machine.upcoming? = some (.setSound x)) ∧
    (∀ x, c.machine.mode = .awaiting x → ∃ o, c.step.1 = .ok o) := by
  refine ⟨fun f a hf ha => ?_, fun text hf => ?_, fun text hf => ?_, fun x => step_ok_of_awaiting⟩
  · have hcase := failCase hf
    cases hcase with
    | program _ hd => exact hd
    | screen hi hshows => exact nomatch ha
    | tone hx => exact nomatch ha
  · have hcase := failCase hf
    cases hcase with
    | program ha hd => exact nomatch ha
    | screen hi hshows =>
        obtain rfl | ⟨x, y, n, rfl⟩ := shows_iff.mp hshows
        · exact .inl hi
        · exact .inr ⟨x, y, n, hi⟩
  · have hcase := failCase hf
    cases hcase with
    | program ha hd => exact nomatch ha
    | tone hx => exact ⟨_, hx⟩

/-- A console whose screen and generator refuse every call, with a program that sets the sound
timer, blanks the picture, returns from nowhere and waits for a key. -/
def refusing : Console 8 4 :=
  (plugged 8 4 (.chacha 0) .inherited { screen := fun _ _ => true, tone := fun _ _ => true }).after
    [.load { bytes := [0x61, 0x05, 0xf1, 0x18, 0x00, 0xe0, 0x00, 0xee, 0xf1, 0x0a] }, .step]

/-- Each of the first three fails in its own way, and the wait that follows them does not. -/
theorem step_fails_cleanly_refusing :
    refusing.step.1 = .error (Tone.fault .beep) ∧
    (∃ x, refusing.machine.upcoming? = some (.setSound x)) ∧
    (refusing.after [.step]).step.1 = .error (Screen.fault .clear) ∧
    ((refusing.after [.step]).machine.upcoming? = some .clear ∨
      ∃ x y n, (refusing.after [.step]).machine.upcoming? = some (.draw x y n)) ∧
    (refusing.after [.step, .step]).step.1 = .error (.stackUnderflow 0x206) ∧
    (refusing.after [.step, .step]).MovedOn (refusing.after [.step, .step]).step.2 ∧
    ∃ o, (refusing.after [.step, .step, .step, .step]).step.1 = .ok o := by
  have hrun : refusing.step.1 = .error (Tone.fault .beep) ∧
      (refusing.after [.step]).step.1 = .error (Screen.fault .clear) ∧
      (refusing.after [.step, .step]).step.1 = .error (.stackUnderflow 0x206) ∧
      (refusing.after [.step, .step, .step, .step]).machine.mode = .awaiting 1 := by
    decide +kernel
  obtain ⟨htone, hscreen, hprogram, hmode⟩ := hrun
  have hsounds := (step_fails_cleanly refusing).2.2.1 _ htone
  have hshows := (step_fails_cleanly (refusing.after [.step])).2.1 _ hscreen
  have hmoved := (step_fails_cleanly (refusing.after [.step, .step])).1 _ _ hprogram rfl
  have hwaits := (step_fails_cleanly (refusing.after [.step, .step, .step, .step])).2.2.2 1 hmode
  exact ⟨htone, hsounds, hscreen, hshows, hprogram, hmoved, hwaits⟩

end Console

end Chip8Vm
