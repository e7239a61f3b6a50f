import Chip8Vm.Opcode.Basic
import Chip8Vm.Text.Digits

/-!
# Chip8Vm.Opcode.Assembly

Instructions as assembly text: a mnemonic and a list of operands.

`Assembly` keeps the two apart, so that an instruction is told by its mnemonic
and operands and the operands by their spelling.  Registers are `V` and one
upper-case digit, bytes have two lower-case digits and addresses three, a row
count is decimal, and `I`, `DT`, `ST`, `K`, `F`, `B` and `[I]` stand for
themselves.
-/

namespace Chip8Vm

inductive Mnemonic where
  | cls | ret | jp | call | se | sne | ld | add | or | and | xor | sub | subn | shr | shl
  | rnd | drw | skp | sknp
  deriving DecidableEq, Repr

def Mnemonic.text : Mnemonic → String
  | cls => "CLS"
  | ret => "RET"
  | jp => "JP"
  | call => "CALL"
  | se => "SE"
  | sne => "SNE"
  | ld => "LD"
  | add => "ADD"
  | or => "OR"
  | and => "AND"
  | xor => "XOR"
  | sub => "SUB"
  | subn => "SUBN"
  | shr => "SHR"
  | shl => "SHL"
  | rnd => "RND"
  | drw => "DRW"
  | skp => "SKP"
  | sknp => "SKNP"

/-- An operand in assembly. -/
inductive Operand where
  | reg (x : Reg)
  | byte (kk : UInt8)
  | addr (nnn : Addr)
  | rows (n : Nibble)
  | index
  | atIndex
  | delay
  | sound
  | key
  | font
  | decimal
  deriving DecidableEq, Repr

def Operand.text : Operand → String
  | reg x => String.ofList ['V', Text.upperHexDigit x]
  | byte kk => Text.hexWord 2 kk.toNat
  | addr nnn => Text.hexWord 3 nnn.val
  | rows n => toString n.val
  | index => "I"
  | atIndex => "[I]"
  | delay => "DT"
  | sound => "ST"
  | key => "K"
  | font => "F"
  | decimal => "B"

/-- A line of assembly: a mnemonic and its operands. -/
structure Assembly where
  mnemonic : Mnemonic
  operands : List Operand := []
  deriving DecidableEq, Repr

/-- A line of assembly as text: the mnemonic, a space, and the operands with
commas between them. -/
def Assembly.text (a : Assembly) : String :=
  match a.operands with
  | [] => a.mnemonic.text
  | operands => a.mnemonic.text ++ " " ++ ", ".intercalate (operands.map Operand.text)

namespace Instruction

open Operand in
/-- The line of assembly of an instruction. -/
def assembly : Instruction → Assembly
  | clear => ⟨.cls, []⟩
  | ret => ⟨.ret, []⟩
  | jump nnn => ⟨.jp, [addr nnn]⟩
  | call nnn => ⟨.call, [addr nnn]⟩
  | skipEqByte x kk => ⟨.se, [reg x, byte kk]⟩
  | skipNeByte x kk => ⟨.sne, [reg x, byte kk]⟩
  | skipEq x y => ⟨.se, [reg x, reg y]⟩
  | loadByte x kk => ⟨.ld, [reg x, byte kk]⟩
  | addByte x kk => ⟨.add, [reg x, byte kk]⟩
  | load x y => ⟨.ld, [reg x, reg y]⟩
  | or x y => ⟨.or, [reg x, reg y]⟩
  | and x y => ⟨.and, [reg x, reg y]⟩
  | xor x y => ⟨.xor, [reg x, reg y]⟩
  | add x y => ⟨.add, [reg x, reg y]⟩
  | sub x y => ⟨.sub, [reg x, reg y]⟩
  | shiftRight x => ⟨.shr, [reg x]⟩
  | subFrom x y => ⟨.subn, [reg x, reg y]⟩
  | shiftLeft x => ⟨.shl, [reg x]⟩
  | skipNe x y => ⟨.sne, [reg x, reg y]⟩
  | loadIndex nnn => ⟨.ld, [index, addr nnn]⟩
  | jumpOffset nnn => ⟨.jp, [reg 0, addr nnn]⟩
  | random x kk => ⟨.rnd, [reg x, byte kk]⟩
  | draw x y n => ⟨.drw, [reg x, reg y, rows n]⟩
  | skipHeld x => ⟨.skp, [reg x]⟩
  | skipNotHeld x => ⟨.sknp, [reg x]⟩
  | readDelay x => ⟨.ld, [reg x, delay]⟩
  | awaitKey x => ⟨.ld, [reg x, key]⟩
  | setDelay x => ⟨.ld, [delay, reg x]⟩
  | setSound x => ⟨.ld, [sound, reg x]⟩
  | addIndex x => ⟨.add, [index, reg x]⟩
  | glyph x => ⟨.ld, [font, reg x]⟩
  | decimal x => ⟨.ld, [Operand.decimal, reg x]⟩
  | store x => ⟨.ld, [atIndex, reg x]⟩
  | restore x => ⟨.ld, [reg x, atIndex]⟩

def text (i : Instruction) : String := i.assembly.text

/-- The line of assembly tells the instruction. -/
theorem assembly_inj {i j : Instruction} (h : i.assembly = j.assembly) : i = j := by
  cases i <;> cases j <;> simp_all [assembly]

end Instruction

end Chip8Vm
