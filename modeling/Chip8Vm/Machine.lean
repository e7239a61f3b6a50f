import Chip8Vm.Bitmap.Sprite
import Chip8Vm.Cpu
import Chip8Vm.Opcode.Encoding
import Chip8Vm.HexPad
import Chip8Vm.Ram.Glyphs
import Chip8Vm.Random.Stream

/-!
# Chip8Vm.Machine

The machine and what its instructions do.

A `Machine` is everything that programs can read or change; it has no devices.
An instruction changes the machine and may ask for an `Effect`, which is
something to be done with a device afterwards.  The machine is complete before
any device is touched, so a device that fails cannot leave it half changed.

Registers are read before they are written and the flag is written last, so
it wins where an instruction names VF as its destination.
-/

namespace Chip8Vm

/-- Does the machine carry out instructions, or wait for a key? -/
inductive Mode where
  | running
  /-- The next key press goes into the register. -/
  | awaiting (x : Reg)
  deriving DecidableEq, Repr

/-- The machine with a picture of `w` times `h`. -/
structure Machine (w h : Nat) where
  ram : Ram
  cpu : Cpu
  picture : Bitmap w h
  pad : HexPad
  random : Random.Stream
  wrap : OriginWrap
  mode : Mode

/-- What an instruction wants from the devices. -/
inductive Effect where
  | nothing
  | present
  /-- Bring the tone in line with the sound timer. -/
  | tone
  deriving DecidableEq, Repr

/-- What one step of the machine did. -/
inductive Outcome where
  | executed (i : Instruction)
  /-- The machine waits for a key and none was pressed. -/
  | waiting
  /-- The key that was waited for came. -/
  | resumed (key : PadKey)
  deriving DecidableEq, Repr

/-- A machine after a step, with what is to be noted and, unless the program is
at fault, what the step did and what it wants from the devices. -/
structure Stepped (w h : Nat) where
  machine : Machine w h
  notes : List Note
  result : Except Fault (Outcome × Effect)

namespace Machine

variable {w h : Nat}

def initial (w h : Nat) (random : Random.Stream) : Machine w h where
  ram := .initial
  cpu := .initial Ram.programStart
  picture := .blank w h
  pad := .initial
  random := random
  wrap := .inherited
  mode := .running

/-! ## Parts of instructions -/

/-- The low twelve bits of an address. -/
def wrapAddress (a : UInt16) : UInt16 := a &&& 0x0fff

def following (a : UInt16) : UInt16 := wrapAddress (a + 2)

def ofAddr (a : Addr) : UInt16 := UInt16.ofNat a.val

def withCpu (m : Machine w h) (f : Cpu → Cpu) : Machine w h := { m with cpu := f m.cpu }

/-- Pass over the next word if the condition holds. -/
def skipIf (m : Machine w h) (condition : Bool) : Machine w h :=
  if condition then m.withCpu fun c => { c with pc := following c.pc } else m

def decimalDigits (b : UInt8) : List UInt8 := [b / 100, (b / 10) % 10, b % 10]

def registersUpTo (c : Cpu) (x : Reg) : List UInt8 := c.v.toList.take (x.val + 1)

/-- The registers with other values from V0 on. -/
def setRegisters (c : Cpu) (bytes : List UInt8) : Cpu :=
  bytes.zipIdx.foldl (fun c (b, n) => if hn : n < 16 then c.set ⟨n, hn⟩ b else c) c

/-- Draw `n` rows from I at (Vx, Vy), collision into VF. -/
def drawSprite (m : Machine w h) (x y : Reg) (n : Nibble) : Machine w h :=
  let sprite := m.ram.readMany m.cpu.i n.val
  let (collision, picture) :=
    m.picture.blit m.wrap (m.cpu.get x).toNat (m.cpu.get y).toNat sprite
  { m with picture := picture, cpu := m.cpu.setFlag collision }

/-! ## Instructions -/

/-- Carry out an instruction; the program counter is already past it. -/
def execute (m : Machine w h) : Instruction → Except Fault (Machine w h × Effect)
  | .clear => .ok ({ m with picture := .blank w h }, .present)
  | .ret => do
    let (a, cpu) ← m.cpu.pop
    .ok ({ m with cpu := { cpu with pc := a } }, .nothing)
  | .jump nnn => .ok (m.withCpu fun c => { c with pc := ofAddr nnn }, .nothing)
  | .call nnn => do
    let cpu ← m.cpu.push m.cpu.pc
    .ok ({ m with cpu := { cpu with pc := ofAddr nnn } }, .nothing)
  | .skipEqByte x kk => .ok (m.skipIf (m.cpu.get x == kk), .nothing)
  | .skipNeByte x kk => .ok (m.skipIf (m.cpu.get x != kk), .nothing)
  | .skipEq x y => .ok (m.skipIf (m.cpu.get x == m.cpu.get y), .nothing)
  | .skipNe x y => .ok (m.skipIf (m.cpu.get x != m.cpu.get y), .nothing)
  | .loadByte x kk => .ok (m.withCpu (·.set x kk), .nothing)
  | .addByte x kk => .ok (m.withCpu fun c => c.set x (c.get x + kk), .nothing)
  | .load x y => .ok (m.withCpu fun c => c.set x (c.get y), .nothing)
  | .or x y => .ok (m.withCpu fun c => c.set x (c.get x ||| c.get y), .nothing)
  | .and x y => .ok (m.withCpu fun c => c.set x (c.get x &&& c.get y), .nothing)
  | .xor x y => .ok (m.withCpu fun c => c.set x (c.get x ^^^ c.get y), .nothing)
  | .add x y =>
    let carry : Bool := (m.cpu.get x).toNat + (m.cpu.get y).toNat > 255
    .ok (m.withCpu fun c => (c.set x (c.get x + c.get y)).setFlag carry, .nothing)
  | .sub x y =>
    let greater : Bool := m.cpu.get x > m.cpu.get y
    .ok (m.withCpu fun c => (c.set x (c.get x - c.get y)).setFlag greater, .nothing)
  | .subFrom x y =>
    let greater : Bool := m.cpu.get y > m.cpu.get x
    .ok (m.withCpu fun c => (c.set x (c.get y - c.get x)).setFlag greater, .nothing)
  | .shiftRight x =>
    let out : Bool := (m.cpu.get x).toNat.testBit 0
    .ok (m.withCpu fun c => (c.set x (c.get x >>> 1)).setFlag out, .nothing)
  | .shiftLeft x =>
    let out : Bool := (m.cpu.get x).toNat.testBit 7
    .ok (m.withCpu fun c => (c.set x (c.get x <<< 1)).setFlag out, .nothing)
  | .loadIndex nnn => .ok (m.withCpu fun c => { c with i := ofAddr nnn }, .nothing)
  | .jumpOffset nnn =>
    .ok (m.withCpu fun c => { c with pc := wrapAddress (ofAddr nnn + (c.get 0).toUInt16) },
      .nothing)
  | .random x kk =>
    let (byte, random) := m.random.next
    .ok ({ m with random := random, cpu := m.cpu.set x (byte &&& kk) }, .nothing)
  | .draw x y n => .ok (m.drawSprite x y n, .present)
  | .skipHeld x => .ok (m.skipIf (m.pad.isHeld (m.cpu.get x)), .nothing)
  | .skipNotHeld x => .ok (m.skipIf (!m.pad.isHeld (m.cpu.get x)), .nothing)
  | .readDelay x => .ok (m.withCpu fun c => c.set x c.delay, .nothing)
  | .awaitKey x => .ok ({ m with pad := m.pad.arm, mode := .awaiting x }, .nothing)
  | .setDelay x => .ok (m.withCpu fun c => { c with delay := c.get x }, .nothing)
  | .setSound x => .ok (m.withCpu fun c => { c with sound := c.get x }, .tone)
  | .addIndex x =>
    .ok (m.withCpu fun c => { c with i := wrapAddress (c.i + (c.get x).toUInt16) }, .nothing)
  | .glyph x => .ok (m.withCpu fun c => { c with i := Ram.glyphAddress (c.get x) }, .nothing)
  | .decimal x =>
    .ok ({ m with ram := m.ram.writeAll m.cpu.i (decimalDigits (m.cpu.get x)) }, .nothing)
  | .store x =>
    .ok ({ m with ram := m.ram.writeAll m.cpu.i (registersUpTo m.cpu x) }, .nothing)
  | .restore x =>
    .ok (m.withCpu fun c => setRegisters c (m.ram.readMany c.i (x.val + 1)), .nothing)

/-- What carrying out an instruction is worth noting, besides the instruction
itself. -/
def executionNotes : Instruction → List Note
  | .awaitKey x => [.awaiting x]
  | _ => []

/-! ## Steps -/

/-- Fetch the word at the program counter, move on, and carry out the
instruction that the word spells. -/
def fetch (m : Machine w h) : Stepped w h :=
  let addr := m.cpu.pc
  let word := m.ram.word addr
  let moved := m.withCpu fun c => { c with pc := following addr }
  match Instruction.decode word addr with
  | .error f => ⟨moved, [], .error f⟩
  | .ok i =>
    let notes := .fetched addr word i :: executionNotes i
    match moved.execute i with
    | .error f => ⟨moved, notes, .error f⟩
    | .ok (m', effect) => ⟨m', notes, .ok (.executed i, effect)⟩

/-- Look for the key press that is waited for. -/
def resume (m : Machine w h) (x : Reg) : Stepped w h :=
  match m.pad.take with
  | (some k, pad) =>
    ⟨{ m with pad := pad, cpu := m.cpu.set x (UInt8.ofNat k.val), mode := .running },
      [.resumed k x], .ok (.resumed k, .nothing)⟩
  | (none, pad) => ⟨{ m with pad := pad }, [], .ok (.waiting, .nothing)⟩

def step (m : Machine w h) : Stepped w h :=
  match m.mode with
  | .awaiting x => m.resume x
  | .running => m.fetch

def tick (m : Machine w h) : Machine w h := m.withCpu Cpu.tick

def accept (m : Machine w h) (e : KeyEvent) : Machine w h := { m with pad := m.pad.accept e }

end Machine

end Chip8Vm
