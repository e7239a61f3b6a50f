import Chip8Vm.Proofs.Machine.Step
import Chip8Vm.Proofs.Ram.Outside

/-!
# Chip8Vm.Proofs.Machine.Confined

What an instruction leaves alone.

Every instruction changes a few parts of the machine and no others.  `Cpu.Confined` and
`Machine.Confined` say of the way from one state to another that it stays within what an
instruction may change, part by part; `confined_execute` says that instructions do, with one
case for each of them.  What steps leave alone follows from it: `confined_step`, `ram_step`,
`stack_step` and `picture_step`.
-/

namespace Chip8Vm

namespace Instruction

/-- How many bytes the instruction writes into memory, from the index on. -/
def written : Instruction → Nat
  | decimal _ => 3
  | store x => x.val + 1
  | _ => 0

/-- Does the instruction change the index? -/
def points : Instruction → Bool
  | loadIndex _ => true
  | addIndex _ => true
  | glyph _ => true
  | _ => false

/-- The registers that the instruction may change. -/
def destinations : Instruction → List Reg
  | loadByte x _ | addByte x _ | load x _ | or x _ | and x _ | xor x _ => [x]
  | random x _ | readDelay x => [x]
  | add x _ | sub x _ | subFrom x _ | shiftRight x | shiftLeft x => [x, Reg.flag]
  | draw _ _ _ => [Reg.flag]
  | restore x => (List.finRange 16).filter fun y => y.val ≤ x.val
  | _ => []

end Instruction

variable {i : Instruction}

/-! ## Registers and timers -/

namespace Cpu

variable {c d : Cpu} {x : Reg}

/-- From one state to the other, only what the instruction may change is different; the program
counter aside. -/
structure Confined (i : Instruction) (c d : Cpu) : Prop where
  registers : ∀ y, y ∉ i.destinations → d.get y = c.get y
  stack : i.nests = false → d.stack = c.stack
  index : i.points = false → d.i = c.i
  delay : (∀ x, i ≠ .setDelay x) → d.delay = c.delay
  sound : (∀ x, i ≠ .setSound x) → d.sound = c.sound

theorem Confined.refl (i : Instruction) (c : Cpu) : Confined i c c where
  registers _ _ := rfl
  stack _ := rfl
  index _ := rfl
  delay _ := rfl
  sound _ := rfl

theorem Confined.withPc (hd : Confined i c d) (a : UInt16) : Confined i c { d with pc := a } :=
  ⟨hd.registers, hd.stack, hd.index, hd.delay, hd.sound⟩

/-- A register that the instruction may change is set. -/
theorem Confined.set (hd : Confined i c d) (hx : x ∈ i.destinations) (b : UInt8) :
    Confined i c (d.set x b) where
  registers y hy := by
    have hxy : x ≠ y := fun hxy => hy (hxy ▸ hx)
    rw [get_set, if_neg hxy, hd.registers y hy]
  stack := hd.stack
  index := hd.index
  delay := hd.delay
  sound := hd.sound

theorem Confined.setFlag (hd : Confined i c d) (hflag : Reg.flag ∈ i.destinations) (b : Bool) :
    Confined i c (d.setFlag b) := hd.set hflag _

/-- Setting registers from V0 on changes no more of them than there are bytes. -/
theorem confined_setRegisters {bytes : List UInt8}
    (hbytes : ∀ y : Reg, y.val < bytes.length → y ∈ i.destinations) :
    Confined i c (Machine.setRegisters c bytes) := by
  unfold Machine.setRegisters
  refine List.foldlRecOn (motive := Confined i c) _ _ (.refl i c) fun d hd entry hentry => ?_
  obtain ⟨b, n⟩ := entry
  have hn : n < bytes.length := by simpa using (List.mem_zipIdx hentry).2.1
  by_cases hreg : n < 16
  · simp only [hreg, dif_pos]
    exact hd.set (hbytes ⟨n, hreg⟩ hn) b
  · simp only [hreg, dif_neg, not_false_iff]
    exact hd

end Cpu

/-! ## Instructions -/

namespace Machine

variable {w h : Nat} {m m' : Machine w h} {e : Effect}

/-- From one machine to the other, only what the instruction may change is different. -/
structure Confined (i : Instruction) (m m' : Machine w h) : Prop where
  cpu : m.cpu.Confined i m'.cpu
  /-- Bytes are written from the index on. -/
  ram : ∀ q, ¬Ram.Covers m.cpu.i i.written q → m'.ram.read q = m.ram.read q
  picture : i.shows = false → m'.picture = m.picture
  random : (∀ x kk, i ≠ .random x kk) → m'.random = m.random
  /-- Only the instruction that waits for a key begins to wait, and takes back the last press
  that was pending. -/
  waits : (∀ x, i ≠ .awaitKey x) → m'.pad = m.pad ∧ m'.mode = m.mode
  held : m'.pad.held = m.pad.held
  wrap : m'.wrap = m.wrap

/-- An instruction that changes registers and timers at most. -/
theorem Confined.ofCpu {c : Cpu} (hc : m.cpu.Confined i c) : Confined i m { m with cpu := c } where
  cpu := hc
  ram _ _ := rfl
  picture _ := rfl
  random _ := rfl
  waits _ := ⟨rfl, rfl⟩
  held := rfl
  wrap := rfl

theorem Confined.refl (i : Instruction) (m : Machine w h) : Confined i m m := .ofCpu (.refl i m.cpu)

theorem confined_skipIf (i : Instruction) (m : Machine w h) (condition : Bool) :
    Confined i m (m.skipIf condition) := by
  cases condition with
  | true => exact .ofCpu ((Cpu.Confined.refl i m.cpu).withPc _)
  | false => exact .refl i m

/-- An instruction that sets one register. -/
theorem confined_set {x : Reg} (hx : i.destinations = [x]) (b : UInt8) :
    Confined i m { m with cpu := m.cpu.set x b } :=
  .ofCpu ((Cpu.Confined.refl i m.cpu).set (hx ▸ List.mem_singleton_self x) b)

/-- An instruction that sets one register and then the flag. -/
theorem confined_setFlag {x : Reg} (hx : i.destinations = [x, Reg.flag]) (b : UInt8)
    (flag : Bool) : Confined i m { m with cpu := (m.cpu.set x b).setFlag flag } :=
  .ofCpu (((Cpu.Confined.refl i m.cpu).set (by simp [hx]) b).setFlag (by simp [hx]) flag)

/-- An instruction that writes bytes from the index on. -/
theorem confined_write {bytes : List UInt8} (hbytes : bytes.length ≤ i.written) :
    Confined i m { m with ram := m.ram.writeAll m.cpu.i bytes } :=
  { Confined.refl i m with
    ram := fun _ hq => Ram.read_writeAll _ fun ⟨j, hj, hmeans⟩ =>
      hq ⟨j, Nat.lt_of_lt_of_le hj hbytes, hmeans⟩ }

/-- Every instruction that is carried out keeps to what it may change. -/
theorem confined_execute (hm' : m.execute i = .ok (m', e)) : Confined i m m' := by
  have hcpu := Cpu.Confined.refl i m.cpu
  cases i with
  | call nnn =>
      obtain ⟨s, -, -, rfl⟩ := execute_call_eq_ok hm'
      exact .ofCpu { hcpu with stack := nofun }
  | ret =>
      obtain ⟨a, s, -, -, rfl⟩ := execute_ret_eq_ok hm'
      exact .ofCpu { hcpu with stack := nofun }
  | clear => cases hm'; exact { Confined.refl _ m with picture := nofun }
  | draw x y n =>
      cases hm'
      exact { Confined.ofCpu (hcpu.setFlag (List.mem_singleton_self _) _) with picture := nofun }
  | jump | jumpOffset => cases hm'; exact .ofCpu (hcpu.withPc _)
  | skipEqByte | skipNeByte | skipEq | skipNe | skipHeld | skipNotHeld =>
      cases hm'
      exact confined_skipIf _ m _
  | loadIndex | addIndex | glyph => cases hm'; exact .ofCpu { hcpu with index := nofun }
  | setDelay x => cases hm'; exact .ofCpu { hcpu with delay := fun hi => absurd rfl (hi x) }
  | setSound x => cases hm'; exact .ofCpu { hcpu with sound := fun hi => absurd rfl (hi x) }
  | awaitKey x =>
      cases hm'
      exact { Confined.refl _ m with waits := fun hi => absurd rfl (hi x) }
  | decimal x => cases hm'; exact confined_write (Nat.le_refl 3)
  | store x =>
      cases hm'
      refine confined_write ?_
      rw [registersUpTo, List.length_take]
      exact Nat.min_le_left _ _
  | restore x =>
      cases hm'
      refine .ofCpu (Cpu.confined_setRegisters fun y hy => ?_)
      rw [Ram.length_readMany] at hy
      simp only [Instruction.destinations, List.mem_filter, List.mem_finRange, true_and,
        decide_eq_true_eq]
      omega
  | random x kk =>
      cases hm'
      exact { confined_set rfl _ with random := fun hi => absurd rfl (hi x kk) }
  | loadByte | addByte | load | or | and | xor | readDelay => cases hm'; exact confined_set rfl _
  | add | sub | subFrom | shiftRight | shiftLeft => cases hm'; exact confined_setFlag rfl _ _

/-! ## Steps -/

/-- A step that carries out an instruction keeps to what that may change, but for the program
counter. -/
theorem confined_step (hr : m.step.result = .ok (.executed i, e)) :
    Confined i m m.step.machine := by
  obtain ⟨-, hm'⟩ := execute_of_result hr
  -- fetching moves the program counter only, so the same is true of the machine before it
  have hmoved := confined_execute hm'
  exact {
    cpu := ⟨hmoved.cpu.registers, hmoved.cpu.stack, hmoved.cpu.index, hmoved.cpu.delay,
      hmoved.cpu.sound⟩
    ram := hmoved.ram
    picture := hmoved.picture
    random := hmoved.random
    waits := hmoved.waits
    held := hmoved.held
    wrap := hmoved.wrap }

/-- Does the next step write the byte at `q`? -/
def Writes (m : Machine w h) (q : UInt16) : Prop :=
  ∃ i, m.upcoming? = some i ∧ Ram.Covers m.cpu.i i.written q

/-- A byte that the next step does not write is left as it is, however the step goes. -/
theorem ram_step {q : UInt16} (hq : ¬m.Writes q) : m.step.machine.ram.read q = m.ram.read q := by
  generalize hout : m.step = out
  have hcase := hout ▸ m.stepCase
  cases hcase with
  | waiting hmode hslot => rfl
  | resumed hmode hslot => rfl
  | unknown hmode hword => rfl
  | refused hi hf => rfl
  | executed hi hm' => exact (confined_execute hm').ram q fun hcovers => hq ⟨_, hi, hcovers⟩

/-- A step that carries out no call and no return leaves the call stack alone. -/
theorem stack_step (hr : ∀ i e, m.step.result = .ok (.executed i, e) → i.nests = false) :
    m.step.machine.cpu.stack = m.cpu.stack := by
  generalize hout : m.step = out at hr ⊢
  have hcase := hout ▸ m.stepCase
  cases hcase with
  | waiting hmode hslot => rfl
  | resumed hmode hslot => rfl
  | unknown hmode hword => rfl
  | refused hi hf => rfl
  | executed hi hm' => exact (confined_execute hm').cpu.stack (hr _ _ rfl)

/-- A step that leaves the picture as it is does not want it shown. -/
theorem picture_step (hm : m.isShowing = false) :
    m.step.machine.picture = m.picture ∧ ∀ o, m.step.result ≠ .ok (o, .present) := by
  generalize hout : m.step = out
  have hcase := hout ▸ m.stepCase
  cases hcase with
  | waiting hmode hslot => exact ⟨rfl, nofun⟩
  | resumed hmode hslot => exact ⟨rfl, nofun⟩
  | unknown hmode hword => exact ⟨rfl, nofun⟩
  | refused hi hf => exact ⟨rfl, nofun⟩
  | @executed i m' e hi hm' =>
      have hshows : i.shows = false := by rwa [isShowing, hi] at hm
      refine ⟨(confined_execute hm').picture hshows, fun o hr => ?_⟩
      cases hr
      exact nomatch hshows.symm.trans ((effect_eq_present_iff hm').mp rfl)

end Machine

end Chip8Vm
