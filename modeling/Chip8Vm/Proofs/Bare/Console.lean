import Chip8Vm.Proofs.Bare.Step
import Chip8Vm.Proofs.Console.Operation

/-!
# Chip8Vm.Proofs.Bare.Console

Operations on plain arrays and words, one after the other.

Every operation of a console is work in place on a `BareConsole`, with every access and every sum
checked, also the count of instructions, which is a 64-bit word.  No check ever fails on a new one,
whatever is done with it and whatever its devices do (`course_safe`): all its operations
come to an answer or a fault, and all that it holds stays within bounds.
-/

namespace Chip8Vm

open Bare.Checked

/-! ## Operations -/

namespace Work

/-- Load a program; the number of its bytes. -/
def load (s : Source) : Work Nat := do
  let (r, machine) ← look fun m => m.load? s
  change fun _ => some machine
  let size ← ofExcept r
  log (.loaded size Ram.programStart)
  return size

def tick : Work Unit := do
  change fun m => some m.tick
  syncTone

/-- Silence the tone and give the screen back. -/
def shutdown : Work Unit := do
  let c ← get
  if c.sounding then
    callTone .stop
    modify fun c => { c with sounding := false }
  callScreen .stop

def setWrap (wrap : OriginWrap) : Work Unit := change fun m => some { m with wrap := wrap }

def reseed (seed : UInt64) : Work Unit :=
  change fun m => some { m with random := m.random.reseed seed }

/-- Take in a key event; there may be no such key. -/
def accept (e : KeyEvent) : Work Unit := do
  change fun m => m.accept? e
  (HexPad.notes e).forM log

def operate : Operation → Work Answer
  | .load source => do
    let size ← load source
    return .loaded size
  | .step => do
    let outcome ← step
    return .stepped outcome
  | .tick => do
    tick
    return .done
  | .present => do
    present
    return .done
  | .shutdown => do
    shutdown
    return .done
  | .configure wrap seed => do
    setWrap wrap
    seed.forM reseed
    return .done
  | .setWrap wrap => do
    setWrap wrap
    return .done
  | .reseed seed => do
    reseed seed
    return .done
  | .accept e => do
    accept e
    return .done

end Work

namespace BareConsole

/-- A machine of zeros that is about to fetch from where programs belong. -/
def zero (w h : Nat) (cells : Array UInt8) (random : Random.Stream) (wrap : OriginWrap) : Bare where
  bytes := Array.replicate 4096 0
  v := Array.replicate 16 0
  i := 0
  pc := Ram.programStart
  sp := 0
  stack := Array.replicate 16 0
  delay := 0
  sound := 0
  width := w
  height := h
  cells := cells
  held := Array.replicate 16 false
  slot := none
  random := random
  wrap := wrap
  awaiting := none

def new? (w h : Nat) (random : Random.Stream) (wrap : OriginWrap) (hazards : Console.Hazards) :
    Option BareConsole := do
  let pixels ← mul? w h
  let cells ← zeros? pixels
  let machine ← (zero w h cells random wrap).writeAll? Ram.glyphStart Ram.glyphs
  some {
    machine := machine
    screen := { fails := hazards.screen, raises := hazards.raises }
    tone := { fails := hazards.tone }
    journal := #[]
    sounding := false
    executed := 0 }

/-- An operation from its start to its end. -/
def operate? (c : BareConsole) (op : Operation) : Option (Response × BareConsole) :=
  (Work.operate op).run.run c

/-- Carry out operations one after the other, also after one that fails. -/
def course? (c : BareConsole) : List Operation → Option (List (Response × BareConsole))
  | [] => some []
  | op :: ops => do
    let out ← c.operate? op
    let rest ← out.2.course? ops
    some (out :: rest)

end BareConsole

/-! ## What a bare machine holds -/

/-- All that a bare machine holds is within bounds. -/
structure Bare.WellFormed (w h : Nat) (m : Bare) : Prop where
  pc : m.pc.toNat < 4096
  i : m.i.toNat < 4096
  sp : m.sp ≤ 16
  frames : m.stack.size = 16
  stack : ∀ a ∈ m.stack, a.toNat < 4096
  registers : m.v.size = 16
  bytes : m.bytes.size = 4096
  awaiting : ∀ x, m.awaiting = some x → x.toNat < 16
  width : m.width = w
  height : m.height = h
  pixels : m.cells.size = w * h
  cells : ∀ b ∈ m.cells, b = 0 ∨ b = 1

variable {w h : Nat}

theorem Bare.wellFormed_bare {m : Machine w h} (hm : m.cpu.Bounded) : m.bare.WellFormed w h where
  pc := hm.pc
  i := hm.i
  sp := Nat.le_of_lt_succ m.cpu.stack.depth.isLt
  frames := m.cpu.stack.slots.size_toArray
  stack a ha := by
    obtain ⟨k, hk, rfl⟩ := Array.mem_iff_getElem.mp ha
    exact hm.stack k (by rwa [← m.cpu.stack.slots.size_toArray])
  registers := m.cpu.v.size_toArray
  bytes := m.ram.cells.size_toArray
  awaiting x hx := by
    simp only [Machine.bare, Mode.register?] at hx
    cases hmode : m.mode with
    | running =>
        rw [hmode] at hx
        cases hx
    | awaiting y =>
        rw [hmode] at hx
        cases hx
        rw [Nibble.toNat_byte]
        exact y.isLt
  width := rfl
  height := rfl
  pixels := Bare.size_bytes m.picture
  cells b hb := by
    obtain ⟨lit, -, rfl⟩ := Array.mem_map.mp hb
    cases lit with
    | false => exact .inl rfl
    | true => exact .inr rfl

/-! ## Operations keep the bounds -/

theorem Machine.bounded_operate {m : Machine w h} (hm : m.cpu.Bounded) (op : Operation) :
    (m.operate op).cpu.Bounded := by
  cases op with
  | step => exact Machine.bounded_step hm
  | tick => exact hm.tick
  | load source => exact hm
  | present => exact hm
  | shutdown => exact hm
  | configure wrap seed => exact hm
  | setWrap wrap => exact hm
  | reseed seed => exact hm
  | accept e => exact hm

theorem Console.bounded_course {c : Console w h} (hc : c.machine.cpu.Bounded)
    (ops : List Operation) :
    ∀ entry ∈ c.course ops, entry.2.machine.cpu.Bounded := by
  induction ops generalizing c with
  | nil => exact fun _ hentry => nomatch hentry
  | cons op ops ih =>
      have hhere : (c.operate op).2.machine.cpu.Bounded := by
        rw [Console.machine_operate]
        exact Machine.bounded_operate hc op
      intro entry hentry
      obtain rfl | hlater := List.mem_cons.mp hentry
      · exact hhere
      · exact ih hhere entry hlater

/-! ## The same on plain arrays and words -/

namespace Work

variable (c : Console w h)

theorem load?_bare (m : Machine w h) (source : Source) :
    m.bare.load? source =
      some ((m.ram.load source).1,
        ({ m with ram := (m.ram.load source).2 } : Machine w h).bare) := by
  have hload : m.ram.loadAt? Ram.programStart source = some (m.ram.load source) :=
    if_pos (.inr (by decide))
  rw [Bare.load?, Bare.loadAt?_bare, hload]
  rfl

theorem load_leaves (source : Source) :
    Leaves (load source) c.bare (c.load source).1 (c.load source).2.bare := by
  have hread : Leaves (look fun m => m.load? source) c.bare
      (.ok ((c.machine.ram.load source).1,
        ({ c.machine with ram := (c.machine.ram.load source).2 } : Machine w h).bare)) c.bare :=
    leaves_look (load?_bare c.machine source)
  have hwritten : Leaves (change fun _ => some
        ({ c.machine with ram := (c.machine.ram.load source).2 } : Machine w h).bare)
      c.bare (.ok ())
      { c with machine := { c.machine with ram := (c.machine.ram.load source).2 } }.bare :=
    leaves_change rfl
  refine hread.bind (hwritten.bind ?_)
  unfold Console.load
  rcases c.machine.ram.load source with ⟨f | size, ram⟩
  · exact (leaves_ofExcept (.error f) _).bind_error
  · exact (leaves_ofExcept (.ok size) _).bind ((leaves_log _ _).bind (leaves_pure size _))

theorem tick_leaves : Leaves tick c.bare c.tickTimers.1 c.tickTimers.2.bare := by
  have hticked : Leaves (change fun m => some m.tick) c.bare (.ok ())
      { c with machine := c.machine.tick }.bare := leaves_change rfl
  exact hticked.bind (syncTone_leaves _)

theorem shutdown_leaves : Leaves shutdown c.bare c.shutdown.1 c.shutdown.2.bare := by
  have hsounding : c.bare.sounding = c.sounding := rfl
  refine (leaves_get c.bare).bind ?_
  rw [hsounding]
  unfold Console.shutdown
  cases c.sounding with
  | false => exact callScreen_leaves c rfl
  | true =>
      simp only [if_true, Console.callTone]
      rcases hcall : c.tone.call .stop with ⟨f | u, tone⟩
      · exact (callTone_leaves c hcall).bind_error
      · have hsilent : Leaves (modify fun c => { c with sounding := false })
            { c with tone := tone }.bare (.ok ())
            { c with tone := tone, sounding := false }.bare := rfl
        exact (callTone_leaves c hcall).bind (hsilent.bind (callScreen_leaves
          { c with tone := tone, sounding := false } rfl))

theorem setWrap_leaves (wrap : OriginWrap) :
    Leaves (setWrap wrap) c.bare (.ok ()) (c.setWrap wrap).bare := leaves_change rfl

theorem reseed_leaves (seed : UInt64) :
    Leaves (reseed seed) c.bare (.ok ()) (c.reseed seed).bare := leaves_change rfl

theorem accept_leaves (e : KeyEvent) :
    Leaves (accept e) c.bare (.ok ()) (c.accept e).bare := by
  have haccepted : Leaves (change fun m => m.accept? e) c.bare (.ok ())
      { c with machine := c.machine.accept e }.bare :=
    leaves_change (Bare.accept?_bare c.machine e)
  refine haccepted.bind ?_
  unfold Console.accept HexPad.notes
  split
  · exact leaves_pure () _
  · exact (leaves_log _ _).bind (leaves_pure () _)

/-- Every operation comes to an end on plain arrays and words, and it is the console's, as long
as the instructions can be counted. -/
theorem operate_leaves (hsize : w * h < Bitmap.sizeBound) (op : Operation)
    (hcount : (c.operate op).2.executed < bound) :
    Leaves (operate op) c.bare (c.operate op).1 (c.operate op).2.bare := by
  cases op with
  | load source => exact (load_leaves c source).answer
  | step => exact (step_leaves c hsize hcount).answer
  | tick => exact (tick_leaves c).answer
  | present => exact (present_leaves c).answer
  | shutdown => exact (shutdown_leaves c).answer
  | setWrap wrap => exact (setWrap_leaves c wrap).answer
  | reseed seed => exact (reseed_leaves c seed).answer
  | accept e => exact (accept_leaves c e).answer
  | configure wrap seed =>
      refine (setWrap_leaves c wrap).bind ?_
      cases seed with
      | none => exact (leaves_pure () _).answer
      | some seed => exact (reseed_leaves (c.setWrap wrap) seed).answer

end Work

namespace BareConsole

/-- A course of operations on plain arrays and words comes to its end, and goes as the
console's. -/
theorem course?_bare (hsize : w * h < Bitmap.sizeBound) (c : Console w h) (ops : List Operation)
    (hcount : ∀ entry ∈ c.course ops, entry.2.executed < bound) :
    c.bare.course? ops = some ((c.course ops).map fun entry => (entry.1, entry.2.bare)) := by
  induction ops generalizing c with
  | nil => rfl
  | cons op ops ih =>
      have hhere : c.bare.operate? op = some ((c.operate op).1, (c.operate op).2.bare) :=
        Work.operate_leaves c hsize op (hcount _ List.mem_cons_self)
      have hlater : ∀ entry ∈ (c.operate op).2.course ops, entry.2.executed < bound :=
        fun entry hentry => hcount entry (List.mem_cons_of_mem _ hentry)
      simp only [course?, hhere, ih _ hlater, Option.bind_eq_bind, Option.bind_some]
      rfl

/-- A new console can be made, and it is the new console on plain arrays and words. -/
theorem new?_eq (hsize : w * h < Bitmap.sizeBound) (random : Random.Stream) (wrap : OriginWrap)
    (hazards : Console.Hazards) :
    new? w h random wrap hazards = some (Console.plugged w h random wrap hazards).bare := by
  have hbound : Bitmap.sizeBound ≤ bound := by decide
  have hmul : mul? w h = some (w * h) := if_pos (Nat.lt_of_lt_of_le hsize hbound)
  have hzeros : zeros? (w * h) = some (Array.replicate (w * h) 0) := if_pos hsize
  have hzero : zero w h (Array.replicate (w * h) 0) random wrap =
      ({ Machine.initial w h random with ram := .blank, wrap := wrap } : Machine w h).bare := by
    rw [← Bare.bytes_blank]
    rfl
  simp only [new?, hmul, hzeros, hzero, Bare.writeAll?_bare, Option.bind_eq_bind,
    Option.bind_some]
  rfl

/-- **Nothing ever crashes.** On plain arrays and words, with every access, sum and division
checked, a new console can be made, and whatever is done with it, in any order, going on
after faults and on devices that fail by any schedule, every operation comes to an answer or
a fault: the ones of a `Console`.  Before and after every operation all that the machine
holds is within bounds.  The picture has to fit in memory, and the instructions carried out
have to be few enough to be counted. -/
theorem course_safe (w h : Nat) (random : Random.Stream) (wrap : OriginWrap)
    (hazards : Console.Hazards) (ops : List Operation) (hsize : w * h < Bitmap.sizeBound)
    (hcount : ∀ entry ∈ (Console.plugged w h random wrap hazards).course ops,
      entry.2.executed < Nat.pow 2 64) :
    ∃ start course,
      new? w h random wrap hazards = some start ∧
      start.course? ops = some course ∧
      start.machine.WellFormed w h ∧
      (∀ entry ∈ course, entry.2.machine.WellFormed w h) ∧
      course = ((Console.plugged w h random wrap hazards).course ops).map
        fun entry => (entry.1, entry.2.bare) := by
  refine ⟨_, _, new?_eq hsize random wrap hazards, course?_bare hsize _ ops hcount,
    Bare.wellFormed_bare Cpu.bounded_initial, fun entry hentry => ?_, rfl⟩
  obtain ⟨⟨response, c⟩, hc, rfl⟩ := List.mem_map.mp hentry
  exact Bare.wellFormed_bare (Console.bounded_course Cpu.bounded_initial ops (response, c) hc)

/-- Jump to itself twice, on an eight by four picture. -/
theorem course_safe_looping :
    ∃ start course,
      new? 8 4 (.chacha 0) .inherited {} = some start ∧
      start.course? [.load { bytes := [0x12, 0x00] }, .step, .tick, .step] = some course ∧
      course.length = 4 := by
  have hcount : ∀ entry ∈ (Console.plugged 8 4 (.chacha 0) .inherited {}).course
      [.load { bytes := [0x12, 0x00] }, .step, .tick, .step],
      entry.2.executed < Nat.pow 2 64 := by
    decide +kernel
  obtain ⟨start, course, hnew, hcourse, -, -, hsame⟩ :=
    course_safe 8 4 (.chacha 0) .inherited {} [.load { bytes := [0x12, 0x00] }, .step, .tick, .step]
      (by decide) hcount
  exact ⟨start, course, hnew, hcourse, by rw [hsame, List.length_map]; rfl⟩

end BareConsole

end Chip8Vm
