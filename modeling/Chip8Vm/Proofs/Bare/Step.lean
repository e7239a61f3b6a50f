import Chip8Vm.Proofs.Bare.Picture
import Chip8Vm.Proofs.Bare.Work
import Chip8Vm.Proofs.Console.Step

/-!
# Chip8Vm.Proofs.Bare.Step

Instructions and steps, move by move, on plain arrays and words.

Every instruction comes to an end, and it leaves what a `Console` leaves that lets its machine carry
out the instruction and then does what that wants from the devices (`execute_leaves`).  So it is
when a move in the midst of it fails: a call or a return that is refused has changed nothing yet,
and an instruction that calls a device has nothing left to do to the machine.  The same is true of
every step (`step_leaves`).  The conditions are that the picture fits in memory and that the
instructions can be counted.
-/

namespace Chip8Vm

variable {w h : Nat}

namespace Console

/-- The console on plain arrays and words. -/
def bare (c : Console w h) : BareConsole where
  machine := c.machine.bare
  screen := c.screen
  tone := c.tone
  journal := c.journal
  sounding := c.sounding
  executed := c.executed

/-- Let the machine carry out an instruction, and then do what that wants from the devices. -/
def carryOut (c : Console w h) (i : Instruction) : Except Fault Unit × Console w h :=
  match c.machine.execute i with
  | .error f => (.error f, c.note (Machine.executionNotes i))
  | .ok (m, e) => ({ c with machine := m }.note (Machine.executionNotes i)).perform e

/-- The console once the instruction was fetched, which is noted if there is one. -/
def fetched (c : Console w h) (notes : List Note) : Console w h :=
  { c with machine := c.machine.withCpu fun cpu =>
      { cpu with pc := Machine.following c.machine.cpu.pc } }.note notes

variable {c : Console w h}

theorem step_of_decode_error {f : Fault} (hmode : c.machine.mode = .running)
    (hf : Instruction.decode (c.machine.ram.word c.machine.cpu.pc) c.machine.cpu.pc = .error f) :
    c.step = (.error f, c.fetched []) := by
  simp only [step, Machine.step, hmode, Machine.fetch, hf]
  rfl

/-- An instruction that was fetched is carried out and then counted. -/
theorem step_of_decode {i : Instruction} (hmode : c.machine.mode = .running)
    (hi : Instruction.decode (c.machine.ram.word c.machine.cpu.pc) c.machine.cpu.pc = .ok i) :
    c.step = match (c.fetched [.fetched c.machine.cpu.pc
        (c.machine.ram.word c.machine.cpu.pc) i]).carryOut i with
      | (.error f, d) => (.error f, d)
      | (.ok (), d) => (.ok (.executed i), { d with executed := d.executed + 1 }) := by
  simp only [step, Machine.step, hmode, Machine.fetch, hi, carryOut, fetched, machine_note]
  rcases (c.machine.withCpu fun cpu =>
    { cpu with pc := Machine.following c.machine.cpu.pc }).execute i with f | ⟨m, e⟩
  · rfl
  · rfl

end Console

namespace Bare

variable (m : Machine w h)

/-! ## Parts of instructions -/

@[simp] theorem skipIf_bare (condition : Bool) :
    m.bare.skipIf condition = (m.skipIf condition).bare := by
  cases condition <;> rfl

@[simp] theorem combine?_bare (x y : Reg) (f : UInt8 → UInt8 → UInt8) :
    m.bare.combine? x.byte y.byte f =
      some (m.withCpu fun c => c.set x (f (c.get x) (c.get y))).bare := by
  simp only [combine?, get?_bare, set?_bare, Option.bind_eq_bind, Option.bind_some]
  rfl

@[simp] theorem combineFlag?_bare (x y : Reg) (f : UInt8 → UInt8 → UInt8)
    (flag : UInt8 → UInt8 → Bool) :
    m.bare.combineFlag? x.byte y.byte f flag =
      some (m.withCpu fun c =>
        (c.set x (f (c.get x) (c.get y))).setFlag (flag (c.get x) (c.get y))).bare := by
  simp only [combineFlag?, get?_bare, set?_bare, setFlag?_bare, Option.bind_eq_bind,
    Option.bind_some]
  rfl

@[simp] theorem compare?_bare (x y : Reg) (condition : UInt8 → UInt8 → Bool) :
    m.bare.compare? x.byte y.byte condition =
      some (m.skipIf (condition (m.cpu.get x) (m.cpu.get y))).bare := by
  simp only [compare?, get?_bare, skipIf_bare, Option.bind_eq_bind, Option.bind_some]

theorem bytes_blank : (Bitmap.blank w h).bytes = Array.replicate (w * h) 0 := by
  rw [Bitmap.bytes, Bitmap.blank, Vector.toArray_replicate, Array.map_replicate]
  rfl

theorem size_bytes (b : Bitmap w h) : b.bytes.size = w * h := by
  rw [Bitmap.bytes, Array.size_map, Vector.size_toArray]

theorem darken_bare : m.bare.darken = ({ m with picture := .blank w h } : Machine w h).bare := by
  have hdark : m.bare.cells.map (fun _ => (0 : UInt8)) = (Bitmap.blank w h).bytes := by
    rw [bytes_blank, Array.map_const', Machine.bare, size_bytes]
  rw [darken, hdark]
  rfl

@[simp] theorem draw?_bare (hsize : w * h < Bitmap.sizeBound) (x y : Reg) (n : Nibble) :
    m.bare.draw? x.byte y.byte n.byte = some (m.drawSprite x y n).bare := by
  have hsprite : m.bare.readMany? m.bare.i n.byte.toNat =
      some (m.ram.readMany m.cpu.i n.val) := by
    rw [Nibble.toNat_byte]
    exact readMany?_bare m m.cpu.i n.val
  simp only [draw?, hsprite, get?_bare, blit?_bare hsize, setFlag?_bare, Option.bind_eq_bind,
    Option.bind_some]
  rfl

theorem writeAll?_index (bytes : List UInt8) :
    m.bare.writeAll? m.bare.i bytes =
      some ({ m with ram := m.ram.writeAll m.cpu.i bytes } : Machine w h).bare :=
  writeAll?_bare m m.cpu.i bytes

theorem restore_bare (x : Reg) :
    (List.range (x.byte.toNat + 1)).foldlM restoreOne? m.bare =
      some (m.withCpu fun c =>
        Machine.setRegisters c (m.ram.readMany c.i (x.val + 1))).bare := by
  have hx := x.isLt
  have hindex : m.cpu.i + UInt16.ofNat 0 = m.cpu.i := UInt16.add_zero m.cpu.i
  rw [Nibble.toNat_byte, List.range_eq_range', foldlM_restoreOne? m 0 _ (by omega)]
  simp only [Machine.withCpu, hindex]
  rfl

end Bare

namespace Work

open Bare Bare.Checked

variable (c : Console w h)

/-! ## Devices -/

theorem callScreen_leaves {call : ScreenCall} {r : Except Fault Unit} {screen : Screen}
    (hcall : c.screen.call call = (r, screen)) :
    Leaves (callScreen call) c.bare r { c with screen := screen }.bare := by
  have hset : Leaves (do set { c.bare with screen := screen }; ofExcept r) c.bare r
      { c with screen := screen }.bare :=
    (leaves_set _ _).bind (leaves_ofExcept r _)
  refine (leaves_get c.bare).bind ?_
  rw [show c.bare.screen = c.screen from rfl, hcall]
  exact hset

theorem callTone_leaves {call : ToneCall} {r : Except Fault Unit} {tone : Tone}
    (hcall : c.tone.call call = (r, tone)) :
    Leaves (callTone call) c.bare r { c with tone := tone }.bare := by
  have hset : Leaves (do set { c.bare with tone := tone }; ofExcept r) c.bare r
      { c with tone := tone }.bare :=
    (leaves_set _ _).bind (leaves_ofExcept r _)
  refine (leaves_get c.bare).bind ?_
  rw [show c.bare.tone = c.tone from rfl, hcall]
  exact hset

/-- Lighting pixels and then drawing goes as far as the screen allows it. -/
theorem pixels_leaves (pixels : List (Nat × Nat)) {r : Except Fault Unit} {screen : Screen}
    (hcalls : c.screen.perform (pixels.map (fun p => .pixel p.1 p.2) ++ [.draw]) = (r, screen)) :
    Leaves (do pixels.forM fun p => callScreen (.pixel p.1 p.2); callScreen .draw) c.bare r
      { c with screen := screen }.bare := by
  induction pixels generalizing c with
  | nil =>
      simp only [List.map_nil, List.nil_append, Screen.perform] at hcalls
      rcases hdraw : c.screen.call .draw with ⟨f | u, drawn⟩
      · rw [hdraw] at hcalls
        cases hcalls
        exact (leaves_pure () c.bare).bind (callScreen_leaves c hdraw)
      · rw [hdraw] at hcalls
        cases hcalls
        exact (leaves_pure () c.bare).bind (callScreen_leaves c hdraw)
  | cons p pixels ih =>
      simp only [List.map_cons, List.cons_append, Screen.perform] at hcalls
      rw [List.forM_eq_forM, List.forM_cons, bind_assoc]
      rcases hpixel : c.screen.call (.pixel p.1 p.2) with ⟨f | u, lit⟩
      · rw [hpixel] at hcalls
        cases hcalls
        exact (callScreen_leaves c hpixel).bind_error
      · rw [hpixel] at hcalls
        exact (callScreen_leaves c hpixel).bind (ih { c with screen := lit } hcalls)

theorem present_leaves : Leaves present c.bare c.present.1 c.present.2.bare := by
  simp only [Console.present, Screen.present, Screen.presentation, List.cons_append,
    Screen.perform]
  rcases hclear : c.screen.call .clear with ⟨f | u, blank⟩
  · exact (callScreen_leaves c hclear).bind_error
  · have hlit : Leaves (look lit?) { c with screen := blank }.bare (.ok c.machine.picture.lit)
        { c with screen := blank }.bare := leaves_look (lit?_bare c.machine)
    exact (callScreen_leaves c hclear).bind
      (hlit.bind (pixels_leaves { c with screen := blank } _ rfl))

/-- A call of the tone generator that comes back is the last thing to do but one. -/
theorem callTone_sounding (call : ToneCall) :
    Leaves (do callTone call; modify fun c => { c with sounding := call == .beep }) c.bare
      (c.callTone call).1 (c.callTone call).2.bare := by
  unfold Console.callTone
  rcases hcall : c.tone.call call with ⟨f | u, tone⟩
  · exact (callTone_leaves c hcall).bind_error
  · exact (callTone_leaves c hcall).bind rfl

theorem syncTone_leaves : Leaves syncTone c.bare c.syncTone.1 c.syncTone.2.bare := by
  have hsound : c.bare.machine.sound = c.machine.cpu.sound := rfl
  have hsounding : c.bare.sounding = c.sounding := rfl
  refine (leaves_get c.bare).bind ?_
  simp only [Console.syncTone, hsound, hsounding]
  cases hon : c.machine.cpu.sound != 0 <;> cases hwas : c.sounding
  · exact leaves_pure () c.bare
  · exact (leaves_log .soundOff c.bare).bind (callTone_sounding (c.note [.soundOff]) .stop)
  · exact (leaves_log _ c.bare).bind
      (callTone_sounding (c.note [.soundOn c.machine.cpu.sound]) .beep)
  · exact leaves_pure () c.bare

/-! ## Subroutines -/

variable {a : UInt16} {cpu : Cpu} {f : Fault}

theorem push_leaves (hpush : c.machine.cpu.push a = .ok cpu) :
    Leaves (push a) c.bare (.ok ()) { c with machine := { c.machine with cpu := cpu } }.bare := by
  unfold Cpu.push CallStack.push? at hpush
  by_cases hroom : c.machine.cpu.stack.depth.val < 16
  · rw [dif_pos hroom] at hpush
    cases hpush
    have hsp : c.bare.machine.sp ≠ 16 := Nat.ne_of_lt hroom
    have hput : put? c.bare.machine.stack c.bare.machine.sp a =
        some (c.machine.cpu.stack.slots.set c.machine.cpu.stack.depth.val a).toArray :=
      put?_toArray _ hroom a
    have hadd : add? c.bare.machine.sp 1 = some (c.machine.cpu.stack.depth.val + 1) :=
      if_pos (Nat.lt_of_lt_of_le (Nat.succ_lt_succ hroom) (by decide))
    refine (leaves_look (f := some) rfl).bind ?_
    rw [if_neg hsp]
    refine (leaves_change (m := { c.machine.bare with
      stack := (c.machine.cpu.stack.slots.set c.machine.cpu.stack.depth.val a).toArray }) ?_).bind
      (leaves_change ?_)
    · exact Option.bind_eq_some_iff.mpr ⟨_, hput, rfl⟩
    · exact Option.bind_eq_some_iff.mpr ⟨_, hadd, rfl⟩
  · rw [dif_neg hroom] at hpush
    cases hpush

/-- A call that is refused has changed nothing. -/
theorem push_refused (hpush : c.machine.cpu.push a = .error f) :
    Leaves (push a) c.bare (.error f) c.bare := by
  unfold Cpu.push CallStack.push? at hpush
  by_cases hroom : c.machine.cpu.stack.depth.val < 16
  · rw [dif_pos hroom] at hpush
    cases hpush
  · rw [dif_neg hroom] at hpush
    cases hpush
    have hsp : c.bare.machine.sp = 16 := by
      have hdepth := c.machine.cpu.stack.depth.isLt
      simp only [Console.bare, Machine.bare]
      omega
    refine (leaves_look (f := some) rfl).bind ?_
    rw [if_pos hsp]
    exact leaves_throw _ _

theorem pop_leaves (hpop : c.machine.cpu.pop = .ok (a, cpu)) :
    Leaves pop c.bare (.ok a) { c with machine := { c.machine with cpu := cpu } }.bare := by
  unfold Cpu.pop CallStack.pop? at hpop
  by_cases hopen : 0 < c.machine.cpu.stack.depth.val
  · rw [dif_pos hopen] at hpop
    cases hpop
    have hdepth := c.machine.cpu.stack.depth.isLt
    have hsp : c.bare.machine.sp ≠ 0 := Nat.ne_of_gt hopen
    have hsub : sub? c.bare.machine.sp 1 = some (c.machine.cpu.stack.depth.val - 1) :=
      if_pos hopen
    have hget : c.bare.machine.stack[c.machine.cpu.stack.depth.val - 1]? =
        some c.machine.cpu.stack.slots[c.machine.cpu.stack.depth.val - 1] :=
      getElem?_toArray _ (by omega)
    refine (leaves_look (f := some) rfl).bind ?_
    rw [if_neg hsp]
    refine (leaves_change (m := { c.machine.bare with
      sp := c.machine.cpu.stack.depth.val - 1 }) ?_).bind (leaves_look hget)
    exact Option.bind_eq_some_iff.mpr ⟨_, hsub, rfl⟩
  · rw [dif_neg hopen] at hpop
    cases hpop

/-- A return that is refused has changed nothing. -/
theorem pop_refused (hpop : c.machine.cpu.pop = .error f) :
    Leaves pop c.bare (.error f) c.bare := by
  unfold Cpu.pop CallStack.pop? at hpop
  by_cases hopen : 0 < c.machine.cpu.stack.depth.val
  · rw [dif_pos hopen] at hpop
    cases hpop
  · rw [dif_neg hopen] at hpop
    cases hpop
    have hsp : c.bare.machine.sp = 0 := by
      simp only [Console.bare, Machine.bare]
      omega
    refine (leaves_look (f := some) rfl).bind ?_
    rw [if_pos hsp]
    exact leaves_throw _ _

/-! ## Instructions -/

/-- An instruction that changes nothing but the machine. -/
theorem change_leaves {i : Instruction} {f : Bare → Option Bare} {m : Machine w h}
    (hi : c.machine.execute i = .ok (m, .nothing)) (hnotes : Machine.executionNotes i = [])
    (hf : f c.machine.bare = some m.bare) :
    Leaves (change f) c.bare (c.carryOut i).1 (c.carryOut i).2.bare := by
  rw [Console.carryOut, hi, hnotes]
  exact leaves_change hf

/-- Every instruction comes to an end on plain arrays and words, and it leaves what it leaves if the
machine is done before the devices are called. -/
theorem execute_leaves (hsize : w * h < Bitmap.sizeBound) (i : Instruction) :
    Leaves (execute i.bare) c.bare (c.carryOut i).1 (c.carryOut i).2.bare := by
  cases i <;> simp only [Instruction.bare, execute]
  -- instructions that call a device once the machine is done
  case clear =>
    have hdark : Leaves (change fun m => some m.darken) c.bare (.ok ())
        { c with machine := { c.machine with picture := .blank w h } }.bare :=
      leaves_change (congrArg some (darken_bare c.machine))
    exact hdark.bind (present_leaves _)
  case draw x y n =>
    have hdrawn : Leaves (change fun m => m.draw? x.byte y.byte n.byte) c.bare (.ok ())
        { c with machine := c.machine.drawSprite x y n }.bare :=
      leaves_change (draw?_bare c.machine hsize x y n)
    exact hdrawn.bind (present_leaves _)
  case setSound x =>
    have hset : Leaves (change fun m => (m.get? x.byte).map fun a => { m with sound := a })
        c.bare (.ok ()) { c with
          machine := c.machine.withCpu fun c => { c with sound := c.get x } }.bare :=
      leaves_change (Option.map_eq_some_iff.mpr ⟨_, get?_bare c.machine x, rfl⟩)
    exact hset.bind (syncTone_leaves _)
  -- instructions that may be refused, before they have changed anything
  case ret =>
    rw [Console.carryOut, Machine.execute]
    rcases hpop : c.machine.cpu.pop with f | ⟨a, cpu⟩
    · exact (pop_refused c hpop).bind_error
    · exact (pop_leaves c hpop).bind (leaves_change rfl)
  case call nnn =>
    have hpc : Leaves (look fun m => some m.pc) c.bare (.ok c.machine.cpu.pc) c.bare :=
      leaves_look rfl
    rw [Console.carryOut, Machine.execute]
    rcases hpush : c.machine.cpu.push c.machine.cpu.pc with f | cpu
    · exact hpc.bind (push_refused c hpush).bind_error
    · exact hpc.bind ((push_leaves c hpush).bind (leaves_change rfl))
  -- the others change nothing but the machine
  case awaitKey x =>
    rw [Nibble.ofByte_byte]
    have harmed : Leaves (change fun m => some { m with slot := none })
        (c.note [.awaiting x]).bare (.ok ()) { c.note [.awaiting x] with
          machine := { c.machine with pad := c.machine.pad.arm } }.bare :=
      leaves_change rfl
    exact (leaves_log (.awaiting x) c.bare).bind (harmed.bind (leaves_change rfl))
  case jump nnn => exact change_leaves c rfl rfl rfl
  case loadIndex nnn => exact change_leaves c rfl rfl rfl
  case loadByte x kk => exact change_leaves c rfl rfl (set?_bare c.machine x kk)
  case readDelay x => exact change_leaves c rfl rfl (set?_bare c.machine x _)
  case random x kk =>
    exact change_leaves c rfl rfl
      (set?_bare { c.machine with random := c.machine.random.next.2 } x _)
  case load x y => exact change_leaves c rfl rfl (combine?_bare c.machine x y _)
  case or x y => exact change_leaves c rfl rfl (combine?_bare c.machine x y _)
  case and x y => exact change_leaves c rfl rfl (combine?_bare c.machine x y _)
  case xor x y => exact change_leaves c rfl rfl (combine?_bare c.machine x y _)
  case add x y => exact change_leaves c rfl rfl (combineFlag?_bare c.machine x y _ _)
  case sub x y => exact change_leaves c rfl rfl (combineFlag?_bare c.machine x y _ _)
  case subFrom x y => exact change_leaves c rfl rfl (combineFlag?_bare c.machine x y _ _)
  case shiftRight x => exact change_leaves c rfl rfl (combineFlag?_bare c.machine x x _ _)
  case shiftLeft x => exact change_leaves c rfl rfl (combineFlag?_bare c.machine x x _ _)
  case skipEq x y => exact change_leaves c rfl rfl (compare?_bare c.machine x y _)
  case skipNe x y => exact change_leaves c rfl rfl (compare?_bare c.machine x y _)
  case restore x => exact change_leaves c rfl rfl (restore_bare c.machine x)
  case addByte x kk =>
    refine change_leaves c rfl rfl ?_
    simp only [get?_bare, set?_bare, Option.bind_eq_bind, Option.bind_some]
    rfl
  case skipEqByte x kk =>
    refine change_leaves c rfl rfl ?_
    simp only [get?_bare, Option.map_some, skipIf_bare]
  case skipNeByte x kk =>
    refine change_leaves c rfl rfl ?_
    simp only [get?_bare, Option.map_some, skipIf_bare]
  case skipHeld x =>
    refine change_leaves c rfl rfl ?_
    simp only [get?_bare, isHeld?_bare, skipIf_bare, Option.bind_eq_bind, Option.bind_some]
  case skipNotHeld x =>
    refine change_leaves c rfl rfl ?_
    simp only [get?_bare, isHeld?_bare, skipIf_bare, Option.bind_eq_bind, Option.bind_some]
  case setDelay x =>
    refine change_leaves c rfl rfl ?_
    simp only [get?_bare, Option.map_some]
    rfl
  case jumpOffset nnn =>
    have hzero : c.machine.bare.get? 0 = some (c.machine.cpu.get 0) := get?_bare c.machine 0
    refine change_leaves c rfl rfl ?_
    simp only [hzero, Option.bind_eq_bind, Option.bind_some]
    rfl
  case addIndex x =>
    refine change_leaves c rfl rfl ?_
    simp only [get?_bare, Option.bind_eq_bind, Option.bind_some]
    rfl
  case glyph x =>
    refine change_leaves c rfl rfl ?_
    simp only [get?_bare, glyphAddress?_eq, Option.bind_eq_bind, Option.bind_some]
    rfl
  case decimal x =>
    refine change_leaves c rfl rfl ?_
    simp only [get?_bare, writeAll?_index, Option.bind_eq_bind, Option.bind_some]
  case store x =>
    refine change_leaves c rfl rfl ?_
    simp only [registersUpTo?_bare, writeAll?_index, Option.bind_eq_bind, Option.bind_some]

/-! ## Steps -/

theorem count_leaves (hcount : c.executed + 1 < bound) :
    Leaves count c.bare (.ok ()) { c with executed := c.executed + 1 }.bare := by
  have hadd : Leaves (add? c.executed 1 : Work Nat) c.bare (.ok (c.executed + 1)) c.bare := by
    rw [add?, if_pos hcount]
    rfl
  exact (leaves_get c.bare).bind (hadd.bind (leaves_set _ _))

theorem fetch_leaves (hsize : w * h < Bitmap.sizeBound) (hcount : c.step.2.executed < bound)
    (hmode : c.machine.mode = .running) :
    Leaves fetch c.bare c.step.1 c.step.2.bare := by
  have hpc : Leaves (look fun m => some m.pc) c.bare (.ok c.machine.cpu.pc) c.bare :=
    leaves_look rfl
  have hword : Leaves (look fun m => m.word? c.machine.cpu.pc) c.bare
      (.ok (c.machine.ram.word c.machine.cpu.pc)) c.bare :=
    leaves_look (word?_bare c.machine _)
  have hmoved : Leaves (goTo (Machine.following c.machine.cpu.pc)) c.bare (.ok ())
      (c.fetched []).bare := leaves_change rfl
  refine hpc.bind (hword.bind (hmoved.bind ?_))
  rw [BareInstruction.decode_eq_map]
  cases hi : Instruction.decode (c.machine.ram.word c.machine.cpu.pc) c.machine.cpu.pc with
  | error f =>
      rw [Console.step_of_decode_error hmode hi]
      exact (leaves_ofExcept _ _).bind_error
  | ok i =>
      refine (leaves_ofExcept _ _).bind ?_
      rw [Instruction.instruction_bare]
      refine (leaves_log _ _).bind ?_
      have hstep := Console.step_of_decode hmode hi
      have hexecuted := execute_leaves (c.fetched [.fetched c.machine.cpu.pc
        (c.machine.ram.word c.machine.cpu.pc) i]) hsize i
      rcases hout : (c.fetched [.fetched c.machine.cpu.pc
        (c.machine.ram.word c.machine.cpu.pc) i]).carryOut i with ⟨f | u, d⟩
      · rw [hout] at hexecuted hstep
        rw [hstep]
        exact hexecuted.bind_error
      · rw [hout] at hexecuted hstep
        rw [hstep] at hcount ⊢
        exact hexecuted.bind ((count_leaves d hcount).bind (leaves_pure _ _))

/-- A key ends the wait for a register. -/
theorem resumed_leaves (key : PadKey) (x : Reg) :
    Leaves (do
        log (.resumed key x)
        change fun m => m.set? x.byte key.byte
        change fun m => some { m with awaiting := none }
        return Outcome.resumed key) c.bare (.ok (.resumed key))
      ({ c with
        machine := { c.machine with
          cpu := c.machine.cpu.set x key.byte
          mode := .running } }.note [.resumed key x]).bare := by
  have hset : Leaves (change fun m => m.set? x.byte key.byte) (c.note [.resumed key x]).bare
      (.ok ()) { c.note [.resumed key x] with
        machine := c.machine.withCpu (·.set x key.byte) }.bare :=
    leaves_change (set?_bare c.machine x key.byte)
  have hrunning : Leaves (change fun m => some { m with awaiting := none })
      { c.note [.resumed key x] with machine := c.machine.withCpu (·.set x key.byte) }.bare
      (.ok ()) ({ c with machine := { c.machine with
        cpu := c.machine.cpu.set x key.byte, mode := .running } }.note [.resumed key x]).bare :=
    leaves_change rfl
  exact (leaves_log _ c.bare).bind (hset.bind (hrunning.bind (leaves_pure _ _)))

theorem resume_leaves {x : Reg} (hmode : c.machine.mode = .awaiting x) :
    Leaves (resume x.byte) c.bare c.step.1 c.step.2.bare := by
  have hslot : Leaves (look fun m => some m.slot) c.bare
      (.ok (c.machine.pad.slot.map Nibble.byte)) c.bare := leaves_look rfl
  have hempty : Leaves (change fun m => some { m with slot := none }) c.bare (.ok ())
      { c with machine := { c.machine with pad := c.machine.pad.take.2 } }.bare :=
    leaves_change rfl
  refine hslot.bind (hempty.bind ?_)
  cases hkey : c.machine.pad.slot with
  | none =>
      have hstep : c.step = (.ok .waiting,
          { c with machine := { c.machine with pad := c.machine.pad.take.2 } }) := by
        simp only [Console.step, Machine.step, hmode, Machine.resume, HexPad.take, hkey]
        rfl
      rw [hstep]
      exact leaves_pure _ _
  | some key =>
      have hstep : c.step = (.ok (.resumed key), { c with machine := { c.machine with
          pad := c.machine.pad.take.2, cpu := c.machine.cpu.set x key.byte,
          mode := .running } }.note [.resumed key x]) := by
        simp only [Console.step, Machine.step, hmode, Machine.resume, HexPad.take, hkey]
        rfl
      rw [hstep, Option.map_some]
      simp only [Nibble.ofByte_byte]
      exact resumed_leaves
        { c with machine := { c.machine with pad := c.machine.pad.take.2 } } key x

theorem step_leaves (hsize : w * h < Bitmap.sizeBound) (hcount : c.step.2.executed < bound) :
    Leaves step c.bare c.step.1 c.step.2.bare := by
  have hawaiting : Leaves (look fun m => some m.awaiting) c.bare (.ok c.machine.mode.register?)
      c.bare := leaves_look rfl
  refine hawaiting.bind ?_
  cases hmode : c.machine.mode with
  | running => exact fetch_leaves c hsize hcount hmode
  | awaiting x => exact resume_leaves c hmode

end Work

end Chip8Vm
