import Chip8Vm.Console
import Chip8Vm.Proofs.Bare.Machine
import Chip8Vm.Proofs.Bare.Opcode

/-!
# Chip8Vm.Proofs.Bare.Work

What a console does, move by move.

A `BareConsole` is a bare machine with its devices.  `Work` on one is done in place: it changes the
console move by move, and it may end early with a fault, which leaves the console as the moves so
far have made it.  Nothing puts a half done instruction right, and nothing keeps the devices until
the machine is complete; where a device is called among the moves of an instruction is part of
its definition.

* `Work.look`, `Work.change`, `Work.callScreen`, `Work.callTone` — the moves;
* `Work.execute`, `Work.step` — an instruction and a step as sequences of moves;
* `Work.Leaves` — where work leads, and how sequences of moves are followed.
-/

namespace Chip8Vm

/-- A bare machine, its devices, and what is kept about them. -/
structure BareConsole where
  machine : Bare
  screen : Screen
  tone : Tone
  journal : Journal
  sounding : Bool
  executed : Nat

/-- Work in place on a console, which may end early with a fault.  It has no answer where the
program would have crashed. -/
abbrev Work (α : Type) := ExceptT Fault (StateT BareConsole Option) α

namespace Work

open Bare.Checked

variable {α β : Type}

/-! ## Moves -/

/-- Look something up in the machine. -/
def look (f : Bare → Option α) : Work α := do
  let c ← get
  f c.machine

/-- Change the machine. -/
def change (f : Bare → Option Bare) : Work Unit := do
  let c ← get
  let machine ← f c.machine
  set { c with machine := machine }

def log (n : Note) : Work Unit := modify fun c => { c with journal := c.journal.push n }

def callScreen (call : ScreenCall) : Work Unit := do
  let c ← get
  let (r, screen) := c.screen.call call
  set { c with screen := screen }
  ofExcept r

def callTone (call : ToneCall) : Work Unit := do
  let c ← get
  let (r, tone) := c.tone.call call
  set { c with tone := tone }
  ofExcept r

/-! ## Devices -/

/-- Clear the screen, light every lit pixel in its turn, and draw. -/
def present : Work Unit := do
  callScreen .clear
  let lit ← look Bare.lit?
  lit.forM fun p => callScreen (.pixel p.1 p.2)
  callScreen .draw

/-- Start or stop the tone if the sound timer says so and it is not so yet. -/
def syncTone : Work Unit := do
  let c ← get
  let ticks := c.machine.sound
  if (ticks != 0) != c.sounding then
    log (if ticks != 0 then .soundOn ticks else .soundOff)
    callTone (if ticks != 0 then .beep else .stop)
    modify fun c => { c with sounding := ticks != 0 }

/-! ## Subroutines -/

def push (a : UInt16) : Work Unit := do
  let m ← look some
  if m.sp = 16 then
    throw (.stackOverflow (m.pc - 2))
  else
    change fun m => do
      let stack ← put? m.stack m.sp a
      some { m with stack := stack }
    change fun m => do
      let sp ← add? m.sp 1
      some { m with sp := sp }

def pop : Work UInt16 := do
  let m ← look some
  if m.sp = 0 then
    throw (.stackUnderflow (m.pc - 2))
  else
    change fun m => do
      let sp ← sub? m.sp 1
      some { m with sp := sp }
    look fun m => m.stack[m.sp]?

def goTo (a : UInt16) : Work Unit := change fun m => some { m with pc := a }

/-! ## Instructions -/

/-- Carry out an instruction; the program counter is already past it. -/
def execute : BareInstruction → Work Unit
  | .clear => do
    change fun m => some m.darken
    present
  | .ret => do
    let a ← pop
    goTo a
  | .jump nnn => goTo nnn
  | .call nnn => do
    let pc ← look fun m => some m.pc
    push pc
    goTo nnn
  | .skipEqByte x kk => change fun m => (m.get? x).map fun a => m.skipIf (a == kk)
  | .skipNeByte x kk => change fun m => (m.get? x).map fun a => m.skipIf (a != kk)
  | .skipEq x y => change fun m => m.compare? x y (· == ·)
  | .skipNe x y => change fun m => m.compare? x y (· != ·)
  | .loadByte x kk => change fun m => m.set? x kk
  | .addByte x kk => change fun m => do
    let a ← m.get? x
    m.set? x (a + kk)
  | .load x y => change fun m => m.combine? x y fun _ b => b
  | .or x y => change fun m => m.combine? x y (· ||| ·)
  | .and x y => change fun m => m.combine? x y (· &&& ·)
  | .xor x y => change fun m => m.combine? x y (· ^^^ ·)
  | .add x y => change fun m => m.combineFlag? x y (· + ·) fun a b => a.toNat + b.toNat > 255
  | .sub x y => change fun m => m.combineFlag? x y (· - ·) fun a b => a > b
  | .subFrom x y => change fun m => m.combineFlag? x y (fun a b => b - a) fun a b => b > a
  | .shiftRight x =>
    change fun m => m.combineFlag? x x (fun a _ => a >>> 1) fun a _ => a.toNat.testBit 0
  | .shiftLeft x =>
    change fun m => m.combineFlag? x x (fun a _ => a <<< 1) fun a _ => a.toNat.testBit 7
  | .loadIndex nnn => change fun m => some { m with i := nnn }
  | .jumpOffset nnn => change fun m => do
    let a ← m.get? 0
    some { m with pc := Machine.wrapAddress (nnn + a.toUInt16) }
  | .random x kk => change fun m =>
    let (byte, random) := m.random.next
    { m with random := random }.set? x (byte &&& kk)
  | .draw x y n => do
    change fun m => m.draw? x y n
    present
  | .skipHeld x => change fun m => do
    let a ← m.get? x
    let held ← m.isHeld? a
    some (m.skipIf held)
  | .skipNotHeld x => change fun m => do
    let a ← m.get? x
    let held ← m.isHeld? a
    some (m.skipIf !held)
  | .readDelay x => change fun m => m.set? x m.delay
  | .awaitKey x => do
    log (.awaiting (.ofByte x))
    change fun m => some { m with slot := none }
    change fun m => some { m with awaiting := some x }
  | .setDelay x => change fun m => (m.get? x).map fun a => { m with delay := a }
  | .setSound x => do
    change fun m => (m.get? x).map fun a => { m with sound := a }
    syncTone
  | .addIndex x => change fun m => do
    let a ← m.get? x
    some { m with i := Machine.wrapAddress (m.i + a.toUInt16) }
  | .glyph x => change fun m => do
    let a ← m.get? x
    let i ← Bare.glyphAddress? a
    some { m with i := i }
  | .decimal x => change fun m => do
    let a ← m.get? x
    m.writeAll? m.i (Machine.decimalDigits a)
  | .store x => change fun m => do
    let bytes ← m.registersUpTo? x
    m.writeAll? m.i bytes
  | .restore x => change fun m => (List.range (x.toNat + 1)).foldlM Bare.restoreOne? m

/-! ## Steps -/

/-- Count an instruction that was carried out. -/
def count : Work Unit := do
  let c ← get
  let executed ← add? c.executed 1
  set { c with executed := executed }

/-- Fetch the word at the program counter, move on, and carry out what it spells. -/
def fetch : Work Outcome := do
  let addr ← look fun m => some m.pc
  let word ← look fun m => m.word? addr
  goTo (Machine.following addr)
  let i ← ofExcept (BareInstruction.decode word addr)
  log (.fetched addr word i.instruction)
  execute i
  count
  return .executed i.instruction

/-- Look for the key press that is waited for. -/
def resume (x : UInt8) : Work Outcome := do
  let slot ← look fun m => some m.slot
  change fun m => some { m with slot := none }
  match slot with
  | none => return .waiting
  | some key =>
    log (.resumed (.ofByte key) (.ofByte x))
    change fun m => m.set? x key
    change fun m => some { m with awaiting := none }
    return .resumed (.ofByte key)

def step : Work Outcome := do
  let awaiting ← look fun m => some m.awaiting
  match awaiting with
  | some x => resume x
  | none => fetch

/-! ## Following the moves -/

/-- From `c` on, the work comes to `r` and leaves `d`. -/
def Leaves (x : Work α) (c : BareConsole) (r : Except Fault α) (d : BareConsole) : Prop :=
  x.run.run c = some (r, d)

variable {x : Work α} {f : α → Work β} {c d e : BareConsole} {a : α} {fault : Fault}

theorem leaves_pure (a : α) (c : BareConsole) : Leaves (pure a) c (.ok a) c := rfl

theorem leaves_throw (fault : Fault) (c : BareConsole) :
    Leaves (throw fault : Work α) c (.error fault) c := rfl

/-- Work goes on from where the work before it has left the console. -/
theorem Leaves.bind {r : Except Fault β} (hx : Leaves x c (.ok a) d) (hf : Leaves (f a) d r e) :
    Leaves (x >>= f) c r e := by
  unfold Leaves at *
  rw [ExceptT.run_bind, StateT.run_bind, hx]
  exact hf

/-- Work that has ended with a fault does not go on. -/
theorem Leaves.bind_error (hx : Leaves x c (.error fault) d) :
    Leaves (x >>= f) c (.error fault) d := by
  unfold Leaves at *
  rw [ExceptT.run_bind, StateT.run_bind, hx]
  rfl

/-- Work whose outcome is only put in another form. -/
theorem Leaves.answer {r : Except Fault α} {g : α → β} (hx : Leaves x c r d) :
    Leaves (do let a ← x; return g a) c (r.map g) d := by
  cases r with
  | error fault => exact hx.bind_error
  | ok a => exact hx.bind (leaves_pure (g a) d)

theorem leaves_get (c : BareConsole) : Leaves get c (.ok c) c := rfl

theorem leaves_set (c d : BareConsole) : Leaves (set d) c (.ok ()) d := rfl

theorem leaves_log (n : Note) (c : BareConsole) :
    Leaves (log n) c (.ok ()) { c with journal := c.journal.push n } := rfl

theorem leaves_ofExcept (r : Except Fault α) (c : BareConsole) : Leaves (ofExcept r) c r c := by
  cases r <;> rfl

theorem leaves_look {f : Bare → Option α} (hf : f c.machine = some a) :
    Leaves (look f) c (.ok a) c := by
  have hlift : Leaves (f c.machine : Work α) c (.ok a) c := by
    rw [hf]
    rfl
  exact (leaves_get c).bind hlift

theorem leaves_change {f : Bare → Option Bare} {m : Bare} (hf : f c.machine = some m) :
    Leaves (change f) c (.ok ()) { c with machine := m } := by
  have hlift : Leaves (f c.machine : Work Bare) c (.ok m) c := by
    rw [hf]
    rfl
  exact (leaves_get c).bind (hlift.bind (leaves_set c _))

end Work

end Chip8Vm
