import Chip8Vm.Nibble

/-!
# Chip8Vm.Opcode.Basic

The instruction set of the CHIP-8 machine.

Operands carry their bounds in their types: a register is one of sixteen, an
address one of 4096, a row count one of sixteen, an immediate is a byte.  An
`Instruction` that exists is therefore one the machine can carry out.
-/

namespace Chip8Vm

/-- The number of one of the registers V0 to VF. -/
abbrev Reg := Nibble

/-- The register that doubles as carry, borrow and collision flag. -/
def Reg.flag : Reg := 15

/-- The CHIP-8 instruction set; the pattern of each instruction's word stands
beside it, with `x` and `y` for registers, `kk` for a byte, `n` for a nibble
and `nnn` for an address. -/
inductive Instruction where
  /-- Word `00E0`: blank the picture. -/
  | clear
  /-- Word `00EE`: return from the innermost subroutine. -/
  | ret
  /-- Word `1nnn`: go on at `nnn`. -/
  | jump (nnn : Addr)
  /-- Word `2nnn`: call the subroutine at `nnn`. -/
  | call (nnn : Addr)
  /-- Word `3xkk`: skip if Vx is `kk`. -/
  | skipEqByte (x : Reg) (kk : UInt8)
  /-- Word `4xkk`: skip if Vx is not `kk`. -/
  | skipNeByte (x : Reg) (kk : UInt8)
  /-- Word `5xy0`: skip if Vx is Vy. -/
  | skipEq (x y : Reg)
  /-- Word `6xkk`: put `kk` into Vx. -/
  | loadByte (x : Reg) (kk : UInt8)
  /-- Word `7xkk`: add `kk` to Vx without a carry. -/
  | addByte (x : Reg) (kk : UInt8)
  /-- Word `8xy0`: put Vy into Vx. -/
  | load (x y : Reg)
  /-- Word `8xy1`: Vx or Vy into Vx. -/
  | or (x y : Reg)
  /-- Word `8xy2`: Vx and Vy into Vx. -/
  | and (x y : Reg)
  /-- Word `8xy3`: Vx exclusive-or Vy into Vx. -/
  | xor (x y : Reg)
  /-- Word `8xy4`: Vx plus Vy into Vx, carry into VF. -/
  | add (x y : Reg)
  /-- Word `8xy5`: Vx less Vy into Vx, "Vx was greater" into VF. -/
  | sub (x y : Reg)
  /-- Word `8xy6`: Vx moves right by one bit, the bit moved out goes into VF. -/
  | shiftRight (x : Reg)
  /-- Word `8xy7`: Vy less Vx into Vx, "Vy was greater" into VF. -/
  | subFrom (x y : Reg)
  /-- Word `8xyE`: Vx moves left by one bit, the bit moved out goes into VF. -/
  | shiftLeft (x : Reg)
  /-- Word `9xy0`: skip if Vx is not Vy. -/
  | skipNe (x y : Reg)
  /-- Word `Annn`: put `nnn` into I. -/
  | loadIndex (nnn : Addr)
  /-- Word `Bnnn`: go on at `nnn` plus V0. -/
  | jumpOffset (nnn : Addr)
  /-- Word `Cxkk`: a random byte masked by `kk` into Vx. -/
  | random (x : Reg) (kk : UInt8)
  /-- Word `Dxyn`: draw `n` rows from I at (Vx, Vy), collision into VF. -/
  | draw (x y : Reg) (n : Nibble)
  /-- Word `Ex9E`: skip if the key Vx is held. -/
  | skipHeld (x : Reg)
  /-- Word `ExA1`: skip if the key Vx is not held. -/
  | skipNotHeld (x : Reg)
  /-- Word `Fx07`: the delay timer into Vx. -/
  | readDelay (x : Reg)
  /-- Word `Fx0A`: wait for a key press and put the key into Vx. -/
  | awaitKey (x : Reg)
  /-- Word `Fx15`: Vx into the delay timer. -/
  | setDelay (x : Reg)
  /-- Word `Fx18`: Vx into the sound timer. -/
  | setSound (x : Reg)
  /-- Word `Fx1E`: add Vx to I. -/
  | addIndex (x : Reg)
  /-- Word `Fx29`: the address of the glyph of Vx into I. -/
  | glyph (x : Reg)
  /-- Word `Fx33`: the three decimal digits of Vx into memory from I. -/
  | decimal (x : Reg)
  /-- Word `Fx55`: V0 to Vx into memory from I. -/
  | store (x : Reg)
  /-- Word `Fx65`: V0 to Vx from memory at I. -/
  | restore (x : Reg)
  deriving DecidableEq, Repr

end Chip8Vm
