import Chip8Vm.Machine

/-!
# Chip8Vm.Proofs.Bare.Machine

The machine on plain arrays and words.

A `Bare` machine has none of the bounds that a `Machine` has in its types: registers,
stack, memory, picture and keys are arrays of any size, and what points into them is a
plain number.  Whatever could go past the end of an array or past the end of a word is
checked where it is done, and an operation has no answer when a check fails: the program
would have crashed there.

* `Bare.Checked` — sums, products, remainders, shifts and places that may not exist;
* `Bare.writeAll?`, `Bare.set?`, `Bare.blit?` — memory, registers and the picture with them;
* `Bare.combine?`, `Bare.draw?` — parts of instructions.
-/

namespace Chip8Vm

/-- A machine on plain arrays and words. -/
structure Bare where
  bytes : Array UInt8
  v : Array UInt8
  i : UInt16
  pc : UInt16
  sp : Nat
  stack : Array UInt16
  delay : UInt8
  sound : UInt8
  width : Nat
  height : Nat
  /-- A byte for every pixel, one for a lit one and zero for a dark one. -/
  cells : Array UInt8
  held : Array Bool
  slot : Option UInt8
  random : Random.Stream
  wrap : OriginWrap
  /-- The register that waits for a key. -/
  awaiting : Option UInt8

namespace Bare

/-! ## Checked arithmetic -/

namespace Checked

/-- One more than the greatest number of a machine word. -/
def bound : Nat := Nat.pow 2 64

/-- A sum that must be a machine word. -/
def add? (a b : Nat) : Option Nat := if a + b < bound then some (a + b) else none

/-- A product that must be a machine word. -/
def mul? (a b : Nat) : Option Nat := if a * b < bound then some (a * b) else none

/-- A difference that must not be negative. -/
def sub? (a b : Nat) : Option Nat := if b ≤ a then some (a - b) else none

/-- A quotient whose divisor must not be zero. -/
def div? (a b : Nat) : Option Nat := if 0 < b then some (a / b) else none

/-- A remainder whose divisor must not be zero. -/
def rem? (a b : Nat) : Option Nat := if 0 < b then some (a % b) else none

/-- A sum that must be a 16-bit word. -/
def add16? (a b : UInt16) : Option UInt16 :=
  if a.toNat + b.toNat < 65536 then some (a + b) else none

/-- A product that must be a 16-bit word. -/
def mul16? (a b : UInt16) : Option UInt16 :=
  if a.toNat * b.toNat < 65536 then some (a * b) else none

/-- The lowest bit of a byte moved right, which must be by less than its width. -/
def bit? (b : UInt8) (places : Nat) : Option Bool :=
  if places < 8 then some (b.toNat.testBit places) else none

/-- Another value at a place that the array must have. -/
def put? {α : Type} (a : Array α) (k : Nat) (x : α) : Option (Array α) :=
  if hk : k < a.size then some (a.set k x) else none

/-- So many zeros, if there is memory for them. -/
def zeros? (n : Nat) : Option (Array UInt8) :=
  if n < Bitmap.sizeBound then some (Array.replicate n 0) else none

end Checked

open Checked

/-! ## Memory -/

def read? (m : Bare) (a : UInt16) : Option UInt8 := m.bytes[(a &&& 0x0fff).toNat]?

def write? (m : Bare) (a : UInt16) (b : UInt8) : Option Bare := do
  let bytes ← put? m.bytes (a &&& 0x0fff).toNat b
  some { m with bytes := bytes }

/-- Bytes one after the other from an address on. -/
def writeAll? (m : Bare) (a : UInt16) : List UInt8 → Option Bare
  | [] => some m
  | b :: bs => do
    let m ← m.write? a b
    m.writeAll? (a + 1) bs

/-- The `n` bytes from an address on. -/
def readMany? (m : Bare) (a : UInt16) : (n : Nat) → Option (List UInt8)
  | 0 => some []
  | n + 1 => do
    let b ← m.read? a
    let bs ← m.readMany? (a + 1) n
    some (b :: bs)

def word? (m : Bare) (a : UInt16) : Option UInt16 := do
  let high ← m.read? a
  let low ← m.read? (a + 1)
  some (UInt16.ofNat (high.toNat * 256 + low.toNat))

def glyphAddress? (digit : UInt8) : Option UInt16 := do
  let offset ← mul16? 5 (digit &&& 0x0f).toUInt16
  add16? Ram.glyphStart offset

/-- Load a program at `base`; the room above it must be a number. -/
def loadAt? (m : Bare) (base : UInt16) (s : Source) : Option (Except Fault Nat × Bare) :=
  match s.failure with
  | some text => some (.error (.io text), m)
  | none => do
    let limit ← sub? 4096 base.toNat
    if s.bytes.length > limit then
      some (.error (.programTooLarge s.bytes.length limit), m)
    else
      let m ← m.writeAll? base s.bytes
      some (.ok s.bytes.length, m)

def load? (m : Bare) (s : Source) : Option (Except Fault Nat × Bare) :=
  m.loadAt? Ram.programStart s

/-! ## Registers -/

/-- The value of a register; only the low nibble of its number counts. -/
def get? (m : Bare) (x : UInt8) : Option UInt8 := m.v[(x &&& 0x0f).toNat]?

def set? (m : Bare) (x : UInt8) (b : UInt8) : Option Bare := do
  let v ← put? m.v (x &&& 0x0f).toNat b
  some { m with v := v }

def setFlag? (m : Bare) (b : Bool) : Option Bare := do
  let v ← put? m.v 15 (if b then 1 else 0)
  some { m with v := v }

/-- The values of the registers up to one, which there must be. -/
def registersUpTo? (m : Bare) (x : UInt8) : Option (List UInt8) :=
  if x.toNat < m.v.size then some (m.v.toList.take (x.toNat + 1)) else none

/-- Put the byte that many places behind the index into the register of that number. -/
def restoreOne? (m : Bare) (n : Nat) : Option Bare := do
  let b ← m.read? (m.i + UInt16.ofNat n)
  m.set? (UInt8.ofNat n) b

/-! ## Keys -/

def isHeld? (m : Bare) (key : UInt8) : Option Bool := m.held[(key &&& 0x0f).toNat]?

/-- Take in a key event; there may be no such key. -/
def accept? (m : Bare) (e : KeyEvent) : Option Bare :=
  if e.key.toNat < m.held.size then do
    let held ← put? m.held e.key.toNat e.pressed
    some { m with held := held, slot := if e.pressed then some e.key else m.slot }
  else
    some m

/-! ## The picture -/

/-- The origin of a sprite brought onto the picture. -/
def origin? (wrap : OriginWrap) (origin dimension : Nat) : Option Nat :=
  match wrap with
  | .inherited => rem? origin (max (dimension - 1) 1)
  | .modulo => rem? origin (max dimension 1)

/-- Flip a pixel, and was one lit before? -/
def flip? (width : Nat) (s : Bool × Array UInt8) (x y : Nat) : Option (Bool × Array UInt8) := do
  let row ← mul? y width
  let k ← add? row x
  let cell ← s.2[k]?
  let cells ← put? s.2 k (cell ^^^ 1)
  some (s.1 || cell == 1, cells)

def blitColumn? (width ox y : Nat) (bits : UInt8) (s : Bool × Array UInt8) (column : Nat) :
    Option (Bool × Array UInt8) := do
  let x ← add? ox column
  if width ≤ x then
    some s
  else
    let places ← sub? 7 column
    let set ← bit? bits places
    if set then flip? width s x y else some s

def blitRow? (width height ox oy : Nat) (s : Bool × Array UInt8) (entry : UInt8 × Nat) :
    Option (Bool × Array UInt8) := do
  let y ← add? oy entry.2
  if height ≤ y then
    some s
  else
    (List.range 8).foldlM (blitColumn? width ox y entry.1) s

def blit? (m : Bare) (x y : Nat) (sprite : List UInt8) : Option (Bool × Bare) := do
  let ox ← origin? m.wrap x m.width
  let oy ← origin? m.wrap y m.height
  let s ← ((sprite.take 15).zipIdx).foldlM (blitRow? m.width m.height ox oy) (false, m.cells)
  some (s.1, { m with cells := s.2 })

/-- The coordinates of the lit pixels. -/
def lit? (m : Bare) : Option (List (Nat × Nat)) :=
  ((List.range m.cells.size).filter fun k => m.cells[k]? == some 1).mapM fun k => do
    let x ← rem? k m.width
    let y ← div? k m.width
    some (x, y)

/-! ## Instructions -/

/-- Pass over the next word if the condition holds. -/
def skipIf (m : Bare) (condition : Bool) : Bare :=
  if condition then { m with pc := Machine.following m.pc } else m

/-- Combine the values of two registers and put the result into the first. -/
def combine? (m : Bare) (x y : UInt8) (f : UInt8 → UInt8 → UInt8) : Option Bare := do
  let a ← m.get? x
  let b ← m.get? y
  m.set? x (f a b)

/-- The same with a flag, which is written last. -/
def combineFlag? (m : Bare) (x y : UInt8) (f : UInt8 → UInt8 → UInt8)
    (flag : UInt8 → UInt8 → Bool) : Option Bare := do
  let a ← m.get? x
  let b ← m.get? y
  let m ← m.set? x (f a b)
  m.setFlag? (flag a b)

/-- Pass over the next word if a condition holds of the values of two registers. -/
def compare? (m : Bare) (x y : UInt8) (condition : UInt8 → UInt8 → Bool) : Option Bare := do
  let a ← m.get? x
  let b ← m.get? y
  some (m.skipIf (condition a b))

/-- Blank the picture. -/
def darken (m : Bare) : Bare := { m with cells := m.cells.map fun _ => 0 }

/-- Draw the sprite at the index. -/
def draw? (m : Bare) (x y n : UInt8) : Option Bare := do
  let sprite ← m.readMany? m.i n.toNat
  let left ← m.get? x
  let top ← m.get? y
  let (collision, m) ← m.blit? left.toNat top.toNat sprite
  m.setFlag? collision

def tick (m : Bare) : Bare :=
  { m with delay := Cpu.countDown m.delay, sound := Cpu.countDown m.sound }

end Bare

end Chip8Vm
