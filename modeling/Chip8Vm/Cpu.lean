import Chip8Vm.Cpu.CallStack
import Chip8Vm.Fault

/-!
# Chip8Vm.Cpu

The registers V0 to VF, the index I, the program counter, the call stack and the
two timers.

A failing push or pop names the instruction before the program counter, which
has already moved on when an instruction is carried out.
-/

namespace Chip8Vm

/-- Everything the machine holds besides its memory. -/
structure Cpu where
  v : Vector UInt8 16
  i : UInt16
  pc : UInt16
  stack : CallStack
  delay : UInt8
  sound : UInt8
  deriving DecidableEq

namespace Cpu

/-- All zero, and about to fetch from `start`. -/
def initial (start : UInt16) : Cpu where
  v := Vector.replicate 16 0
  i := 0
  pc := start
  stack := .empty
  delay := 0
  sound := 0

/-! ## Registers -/

def get (c : Cpu) (x : Reg) : UInt8 := c.v[x.val]

def set (c : Cpu) (x : Reg) (b : UInt8) : Cpu := { c with v := c.v.set x.val b }

/-- The flag in VF: one or zero. -/
def setFlag (c : Cpu) (b : Bool) : Cpu := c.set Reg.flag (if b then 1 else 0)

/-- What is read after a register was set. -/
theorem get_set (c : Cpu) (x y : Reg) (b : UInt8) :
    (c.set x b).get y = if x = y then b else c.get y := by
  simp [get, set, Vector.getElem_set, Fin.ext_iff]

/-! ## Subroutines -/

def push (c : Cpu) (a : UInt16) : Except Fault Cpu :=
  match c.stack.push? a with
  | some s => .ok { c with stack := s }
  | none => .error (.stackOverflow (c.pc - 2))

def pop (c : Cpu) : Except Fault (UInt16 × Cpu) :=
  match c.stack.pop? with
  | some (a, s) => .ok (a, { c with stack := s })
  | none => .error (.stackUnderflow (c.pc - 2))

/-! ## Timers -/

/-- One less, but not below zero. -/
def countDown (t : UInt8) : UInt8 := if t = 0 then 0 else t - 1

def tick (c : Cpu) : Cpu :=
  { c with delay := countDown c.delay, sound := countDown c.sound }

/-- Does the next tick run the sound timer out? -/
def soundRunsOut (c : Cpu) : Bool := c.sound != 0 && countDown c.sound == 0

theorem toNat_countDown (t : UInt8) : (countDown t).toNat = t.toNat - 1 := by
  unfold countDown
  split
  · simp_all
  · next h =>
    have := mt UInt8.toNat_inj.mp h
    have := t.toNat_lt
    simp only [UInt8.toNat_sub, UInt8.reduceToNat] at *
    omega

end Cpu

end Chip8Vm
