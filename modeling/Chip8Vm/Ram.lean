import Chip8Vm.Fault
import Chip8Vm.Opcode.Basic

/-!
# Chip8Vm.Ram

The 4 KiB of memory.

Addresses are 16-bit and only their low twelve bits count, so address
arithmetic wraps instead of failing: `read_write` gives the byte read after a
byte was written, for every pair of addresses.  A program is read from a
`Source` in one piece and goes into memory whole or not at all.
-/

namespace Chip8Vm

/-- Where a program comes from: the bytes that can be read, and what goes wrong
after them, if anything does. -/
structure Source where
  bytes : List UInt8
  failure : Option String := none

structure Ram where
  cells : Vector UInt8 4096
  deriving DecidableEq

namespace Ram

/-- Where programs are loaded. -/
def programStart : UInt16 := 0x200

def blank : Ram := ⟨Vector.replicate 4096 0⟩

/-! ## Bytes and words -/

/-- The cell that an address means. -/
def cell (a : UInt16) : Addr := Addr.ofNat a.toNat

def read (r : Ram) (a : UInt16) : UInt8 := r.cells[(cell a).val]

def write (r : Ram) (a : UInt16) (b : UInt8) : Ram :=
  { cells := r.cells.set (cell a).val b }

def word (r : Ram) (a : UInt16) : UInt16 :=
  UInt16.ofNat ((r.read a).toNat * 256 + (r.read (a + 1)).toNat)

/-- Memory with bytes written one after the other from an address on. -/
def writeAll (r : Ram) (a : UInt16) : List UInt8 → Ram
  | [] => r
  | b :: bs => (r.write a b).writeAll (a + 1) bs

/-- The `n` bytes from an address on. -/
def readMany (r : Ram) (a : UInt16) : (n : Nat) → List UInt8
  | 0 => []
  | n + 1 => r.read a :: r.readMany (a + 1) n

/-- A byte that was written is read at every address that means its cell, and
all other bytes are as they were. -/
theorem read_write (r : Ram) (a q : UInt16) (b : UInt8) :
    (r.write a b).read q = if cell a = cell q then b else r.read q := by
  simp [read, write, Vector.getElem_set, Fin.ext_iff]

@[simp] theorem length_readMany (r : Ram) (a : UInt16) (n : Nat) :
    (r.readMany a n).length = n := by
  induction n generalizing a with
  | zero => rfl
  | succ n ih => simp [readMany, ih]

/-! ## Programs -/

/-- Load a program at `base` if it has at most `limit` bytes; the number of its
bytes. -/
def loadWithin (r : Ram) (base : UInt16) (limit : Nat) (s : Source) : Except Fault Nat × Ram :=
  match s.failure with
  | some text => (.error (.io text), r)
  | none =>
    if s.bytes.length > limit then
      (.error (.programTooLarge s.bytes.length limit), r)
    else
      (.ok s.bytes.length, r.writeAll base s.bytes)

/-- Load a program where programs belong; it may fill memory to the top. -/
def load (r : Ram) (s : Source) : Except Fault Nat × Ram :=
  r.loadWithin programStart (4096 - programStart.toNat) s

/-- Load a program at `base`; it may fill memory to the top.  There is no answer
when there is something to load and `base` lies beyond the top. -/
def loadAt? (r : Ram) (base : UInt16) (s : Source) : Option (Except Fault Nat × Ram) :=
  if s.failure.isSome ∨ base.toNat ≤ 4096 then
    some (r.loadWithin base (4096 - base.toNat) s)
  else
    none

end Ram

end Chip8Vm
