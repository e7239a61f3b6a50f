import Chip8Vm.Machine

/-!
# Chip8Vm.Proofs.Machine.Bounded

The addresses that a machine holds lie in its memory.

The program counter, the index and the return addresses are 16-bit words of which memory
has use for twelve bits.  `Cpu.Bounded` says that they have no more; every instruction
keeps it (`Machine.bounded_execute`), and so does every step, also one that fails.
-/

namespace Chip8Vm

/-! ## Addresses -/

theorem Machine.toNat_wrapAddress_lt (a : UInt16) : (Machine.wrapAddress a).toNat < 4096 := by
  rw [Machine.wrapAddress, UInt16.toNat_and]
  exact Nat.and_lt_two_pow (n := 12) _ (by decide)

theorem Machine.toNat_following_lt (a : UInt16) : (Machine.following a).toNat < 4096 :=
  Machine.toNat_wrapAddress_lt _

theorem Machine.toNat_ofAddr (a : Addr) : (Machine.ofAddr a).toNat = a.val := by
  have ha := a.isLt
  rw [Machine.ofAddr, UInt16.toNat_ofNat']
  omega

theorem Machine.toNat_ofAddr_lt (a : Addr) : (Machine.ofAddr a).toNat < 4096 := by
  rw [Machine.toNat_ofAddr]
  exact a.isLt

theorem Ram.toNat_glyphAddress (digit : UInt8) :
    (Ram.glyphAddress digit).toNat = 80 + 5 * (digit.toNat % 16) := by
  have hdigit := Nat.mod_lt digit.toNat (show 16 > 0 by decide)
  simp only [Ram.glyphAddress, Ram.glyphStart, Ram.glyphRows, UInt16.toNat_add,
    UInt16.toNat_ofNat', UInt16.reduceToNat]
  omega

/-! ## Registers -/

namespace Cpu

/-- The program counter, the index and the return addresses, also those that were taken
back, are addresses of memory. -/
structure Bounded (c : Cpu) : Prop where
  pc : c.pc.toNat < 4096
  i : c.i.toNat < 4096
  stack : ∀ (k : Nat) (hk : k < 16), (c.stack.slots[k]).toNat < 4096

variable {c d : Cpu}

theorem bounded_initial : (initial Ram.programStart).Bounded where
  pc := by decide
  i := by decide
  stack k hk := by
    simp only [initial, CallStack.empty, Vector.getElem_replicate]
    decide

theorem Bounded.withPc (hc : c.Bounded) {a : UInt16} (ha : a.toNat < 4096) :
    Bounded { c with pc := a } :=
  { hc with pc := ha }

theorem Bounded.withIndex (hc : c.Bounded) {a : UInt16} (ha : a.toNat < 4096) :
    Bounded { c with i := a } :=
  { hc with i := ha }

theorem Bounded.set (hc : c.Bounded) (x : Reg) (b : UInt8) : (c.set x b).Bounded :=
  ⟨hc.pc, hc.i, hc.stack⟩

theorem Bounded.setFlag (hc : c.Bounded) (b : Bool) : (c.setFlag b).Bounded := hc.set _ _

theorem Bounded.tick (hc : c.Bounded) : c.tick.Bounded := ⟨hc.pc, hc.i, hc.stack⟩

theorem Bounded.setRegisters (hc : c.Bounded) (bytes : List UInt8) :
    (Machine.setRegisters c bytes).Bounded := by
  unfold Machine.setRegisters
  refine List.foldlRecOn (motive := Bounded) _ _ hc fun d hd entry _ => ?_
  by_cases hn : entry.2 < 16
  · simp only [hn, dif_pos]
    exact hd.set _ _
  · simp only [hn, dif_neg, not_false_iff]
    exact hd

/-- A return address that is pushed is one of memory like the others. -/
theorem Bounded.push (hc : c.Bounded) {a : UInt16} (ha : a.toNat < 4096)
    (hd : c.push a = .ok d) : d.Bounded := by
  unfold Cpu.push CallStack.push? at hd
  by_cases hroom : c.stack.depth.val < 16
  · simp only [hroom, dif_pos, Except.ok.injEq] at hd
    subst hd
    refine { hc with stack := fun k hk => ?_ }
    rw [Vector.getElem_set]
    split
    · exact ha
    · exact hc.stack k hk
  · simp only [hroom, dif_neg, not_false_iff] at hd
    exact nomatch hd

theorem Bounded.pop (hc : c.Bounded) {a : UInt16} (hd : c.pop = .ok (a, d)) :
    a.toNat < 4096 ∧ d.Bounded := by
  unfold Cpu.pop CallStack.pop? at hd
  by_cases hopen : 0 < c.stack.depth.val
  · simp only [hopen, dif_pos, Except.ok.injEq, Prod.mk.injEq] at hd
    obtain ⟨rfl, rfl⟩ := hd
    exact ⟨hc.stack _ _, ⟨hc.pc, hc.i, hc.stack⟩⟩
  · simp only [hopen, dif_neg, not_false_iff] at hd
    exact nomatch hd

end Cpu

/-! ## Instructions and steps -/

namespace Machine

variable {w h : Nat} {m m' : Machine w h} {e : Effect}

theorem bounded_skipIf (hm : m.cpu.Bounded) (condition : Bool) :
    (m.skipIf condition).cpu.Bounded := by
  unfold skipIf
  cases condition with
  | true => exact hm.withPc (toNat_following_lt _)
  | false => exact hm

/-- Every instruction keeps the addresses in memory. -/
theorem bounded_execute (hm : m.cpu.Bounded) (i : Instruction) (hi : m.execute i = .ok (m', e)) :
    m'.cpu.Bounded := by
  cases i with
  | ret =>
      cases hp : m.cpu.pop with
      | error f =>
          simp only [execute, hp, bind, Except.bind] at hi
          exact nomatch hi
      | ok popped =>
          obtain ⟨a, c⟩ := popped
          obtain ⟨ha, hc⟩ := hm.pop hp
          simp only [execute, hp, bind, Except.bind] at hi
          cases hi
          exact hc.withPc ha
  | call nnn =>
      cases hp : m.cpu.push m.cpu.pc with
      | error f =>
          simp only [execute, hp, bind, Except.bind] at hi
          exact nomatch hi
      | ok c =>
          simp only [execute, hp, bind, Except.bind] at hi
          cases hi
          exact (hm.push hm.pc hp).withPc (toNat_ofAddr_lt nnn)
  | jump nnn => cases hi; exact hm.withPc (toNat_ofAddr_lt nnn)
  | jumpOffset nnn => cases hi; exact hm.withPc (toNat_wrapAddress_lt _)
  | skipEqByte x kk => cases hi; exact bounded_skipIf hm _
  | skipNeByte x kk => cases hi; exact bounded_skipIf hm _
  | skipEq x y => cases hi; exact bounded_skipIf hm _
  | skipNe x y => cases hi; exact bounded_skipIf hm _
  | skipHeld x => cases hi; exact bounded_skipIf hm _
  | skipNotHeld x => cases hi; exact bounded_skipIf hm _
  | loadIndex nnn => cases hi; exact hm.withIndex (toNat_ofAddr_lt nnn)
  | addIndex x => cases hi; exact hm.withIndex (toNat_wrapAddress_lt _)
  | glyph x =>
      cases hi
      refine hm.withIndex ?_
      rw [Ram.toNat_glyphAddress]
      omega
  | clear => cases hi; exact hm
  | awaitKey x => cases hi; exact hm
  | decimal x => cases hi; exact hm
  | store x => cases hi; exact hm
  | setDelay x => cases hi; exact ⟨hm.pc, hm.i, hm.stack⟩
  | setSound x => cases hi; exact ⟨hm.pc, hm.i, hm.stack⟩
  | restore x => cases hi; exact hm.setRegisters _
  | draw x y n => cases hi; exact hm.setFlag _
  | random x kk => cases hi; exact hm.set _ _
  | loadByte x kk => cases hi; exact hm.set _ _
  | addByte x kk => cases hi; exact hm.set _ _
  | load x y => cases hi; exact hm.set _ _
  | or x y => cases hi; exact hm.set _ _
  | and x y => cases hi; exact hm.set _ _
  | xor x y => cases hi; exact hm.set _ _
  | readDelay x => cases hi; exact hm.set _ _
  | add x y => cases hi; exact (hm.set _ _).setFlag _
  | sub x y => cases hi; exact (hm.set _ _).setFlag _
  | subFrom x y => cases hi; exact (hm.set _ _).setFlag _
  | shiftRight x => cases hi; exact (hm.set _ _).setFlag _
  | shiftLeft x => cases hi; exact (hm.set _ _).setFlag _

/-- A step keeps the addresses in memory, also when it fails. -/
theorem bounded_step (hm : m.cpu.Bounded) : m.step.machine.cpu.Bounded := by
  unfold step
  cases hmode : m.mode with
  | awaiting x =>
      simp only [resume, HexPad.take]
      cases m.pad.slot with
      | none => exact hm
      | some k => exact hm.set _ _
  | running =>
      have hmoved : (m.withCpu fun c => { c with pc := following m.cpu.pc }).cpu.Bounded :=
        hm.withPc (toNat_following_lt _)
      simp only [fetch]
      cases Instruction.decode (m.ram.word m.cpu.pc) m.cpu.pc with
      | error f => exact hmoved
      | ok i =>
          simp only
          cases hi : (m.withCpu fun c => { c with pc := following m.cpu.pc }).execute i with
          | error f => exact hmoved
          | ok out =>
              obtain ⟨m', e⟩ := out
              exact bounded_execute hmoved i hi

end Machine

end Chip8Vm
