import Chip8Vm.Fault
import Chip8Vm.Opcode.Basic

/-!
# Chip8Vm.Opcode.Encoding

Instructions as 16-bit words.

A word is four nibbles: the group, then `x`, `y` and `n`.  The last two make
the byte `kk`, the last three the address `nnn`.  `Instruction.ofFields?`
reads an instruction off the nibbles and `Instruction.fields` writes its
canonical word; the only thing a word can say that its instruction does not is
the `y` of the two shifts.
-/

namespace Chip8Vm

/-! ## The fields of a word -/

/-- The four nibbles of a word, most significant first. -/
structure Fields where
  group : Nibble
  x : Nibble
  y : Nibble
  n : Nibble
  deriving DecidableEq, Repr

namespace Fields

def ofWord (w : UInt16) : Fields where
  group := Nibble.ofNat (w.toNat / 4096)
  x := Nibble.ofNat (w.toNat / 256)
  y := Nibble.ofNat (w.toNat / 16)
  n := Nibble.ofNat w.toNat

/-- The word with these nibbles. -/
def toWord (f : Fields) : UInt16 :=
  UInt16.ofNat (f.group.val * 4096 + f.x.val * 256 + f.y.val * 16 + f.n.val)

def kk (f : Fields) : UInt8 := UInt8.ofNat (f.y.val * 16 + f.n.val)

def nnn (f : Fields) : Addr := Addr.ofNat (f.x.val * 256 + f.y.val * 16 + f.n.val)

/-- The fields of a group whose low twelve bits are an address. -/
def ofAddr (group : Nibble) (nnn : Addr) : Fields where
  group := group
  x := Nibble.ofNat (nnn.val / 256)
  y := Nibble.ofNat (nnn.val / 16)
  n := Nibble.ofNat nnn.val

/-- The fields of a group with a register and a byte. -/
def ofByte (group x : Nibble) (kk : UInt8) : Fields where
  group := group
  x := x
  y := Nibble.ofNat (kk.toNat / 16)
  n := Nibble.ofNat kk.toNat

@[simp] theorem toWord_ofWord (w : UInt16) : (ofWord w).toWord = w := by
  apply UInt16.toNat_inj.mp
  have := w.toNat_lt
  simp only [toWord, ofWord, Nibble.ofNat, Fin.ofNat, UInt16.toNat_ofNat']
  omega

@[simp] theorem ofWord_toWord (f : Fields) : ofWord f.toWord = f := by
  obtain ⟨⟨g, hg⟩, ⟨x, hx⟩, ⟨y, hy⟩, ⟨n, hn⟩⟩ := f
  simp only [toWord, ofWord, Nibble.ofNat, Fin.ofNat, UInt16.toNat_ofNat', mk.injEq, Fin.mk.injEq]
  omega

@[simp] theorem kk_ofByte (group x : Nibble) (b : UInt8) : (ofByte group x b).kk = b := by
  apply UInt8.toNat_inj.mp
  have := b.toNat_lt
  simp only [kk, ofByte, Nibble.ofNat, Fin.ofNat, UInt8.toNat_ofNat']
  omega

@[simp] theorem nnn_ofAddr (group : Nibble) (a : Addr) : (ofAddr group a).nnn = a := by
  obtain ⟨a, ha⟩ := a
  simp only [nnn, ofAddr, Nibble.ofNat, Addr.ofNat, Fin.ofNat, Fin.mk.injEq]
  omega

@[simp] theorem group_ofByte (group x : Nibble) (b : UInt8) : (ofByte group x b).group = group :=
  rfl

@[simp] theorem x_ofByte (group x : Nibble) (b : UInt8) : (ofByte group x b).x = x := rfl

@[simp] theorem group_ofAddr (group : Nibble) (a : Addr) : (ofAddr group a).group = group := rfl

theorem ofByte_kk (f : Fields) : ofByte f.group f.x f.kk = f := by
  obtain ⟨⟨g, hg⟩, ⟨x, hx⟩, ⟨y, hy⟩, ⟨n, hn⟩⟩ := f
  simp only [kk, ofByte, Nibble.ofNat, Fin.ofNat, UInt8.toNat_ofNat', mk.injEq, Fin.mk.injEq,
    true_and]
  omega

theorem ofAddr_nnn (f : Fields) : ofAddr f.group f.nnn = f := by
  obtain ⟨⟨g, hg⟩, ⟨x, hx⟩, ⟨y, hy⟩, ⟨n, hn⟩⟩ := f
  simp only [nnn, ofAddr, Nibble.ofNat, Addr.ofNat, Fin.ofNat, mk.injEq, Fin.mk.injEq, true_and]
  omega

end Fields

namespace Instruction

/-! ## Reading -/

/-- The instruction that the nibbles of a word spell, if there is one. -/
def ofFields? (f : Fields) : Option Instruction :=
  match f.group with
  | 0 => if f.nnn = 0x0e0 then some clear else if f.nnn = 0x0ee then some ret else none
  | 1 => some (jump f.nnn)
  | 2 => some (call f.nnn)
  | 3 => some (skipEqByte f.x f.kk)
  | 4 => some (skipNeByte f.x f.kk)
  | 5 => if f.n = 0 then some (skipEq f.x f.y) else none
  | 6 => some (loadByte f.x f.kk)
  | 7 => some (addByte f.x f.kk)
  | 8 => match f.n with
    | 0x0 => some (load f.x f.y)
    | 0x1 => some (or f.x f.y)
    | 0x2 => some (and f.x f.y)
    | 0x3 => some (xor f.x f.y)
    | 0x4 => some (add f.x f.y)
    | 0x5 => some (sub f.x f.y)
    | 0x6 => some (shiftRight f.x)
    | 0x7 => some (subFrom f.x f.y)
    | 0xe => some (shiftLeft f.x)
    | _ => none
  | 9 => if f.n = 0 then some (skipNe f.x f.y) else none
  | 10 => some (loadIndex f.nnn)
  | 11 => some (jumpOffset f.nnn)
  | 12 => some (random f.x f.kk)
  | 13 => some (draw f.x f.y f.n)
  | 14 => if f.kk = 0x9e then some (skipHeld f.x)
    else if f.kk = 0xa1 then some (skipNotHeld f.x)
    else none
  | _ => if f.kk = 0x07 then some (readDelay f.x)
    else if f.kk = 0x0a then some (awaitKey f.x)
    else if f.kk = 0x15 then some (setDelay f.x)
    else if f.kk = 0x18 then some (setSound f.x)
    else if f.kk = 0x1e then some (addIndex f.x)
    else if f.kk = 0x29 then some (glyph f.x)
    else if f.kk = 0x33 then some (decimal f.x)
    else if f.kk = 0x55 then some (store f.x)
    else if f.kk = 0x65 then some (restore f.x)
    else none

/-- The instruction that a word spells, if there is one. -/
def ofWord? (w : UInt16) : Option Instruction := ofFields? (Fields.ofWord w)

/-- The instruction that a word spells, or the fault of the word at an address. -/
def decode (w addr : UInt16) : Except Fault Instruction :=
  match ofWord? w with
  | some i => .ok i
  | none => .error (.unknownOpcode w addr)

/-! ## Writing -/

/-- The nibbles of an instruction's canonical word: its documented pattern,
with zero for a nibble that does not matter. -/
def fields : Instruction → Fields
  | clear => .ofAddr 0 0x0e0
  | ret => .ofAddr 0 0x0ee
  | jump nnn => .ofAddr 1 nnn
  | call nnn => .ofAddr 2 nnn
  | skipEqByte x kk => .ofByte 3 x kk
  | skipNeByte x kk => .ofByte 4 x kk
  | skipEq x y => ⟨5, x, y, 0⟩
  | loadByte x kk => .ofByte 6 x kk
  | addByte x kk => .ofByte 7 x kk
  | load x y => ⟨8, x, y, 0x0⟩
  | or x y => ⟨8, x, y, 0x1⟩
  | and x y => ⟨8, x, y, 0x2⟩
  | xor x y => ⟨8, x, y, 0x3⟩
  | add x y => ⟨8, x, y, 0x4⟩
  | sub x y => ⟨8, x, y, 0x5⟩
  | shiftRight x => ⟨8, x, 0, 0x6⟩
  | subFrom x y => ⟨8, x, y, 0x7⟩
  | shiftLeft x => ⟨8, x, 0, 0xe⟩
  | skipNe x y => ⟨9, x, y, 0⟩
  | loadIndex nnn => .ofAddr 10 nnn
  | jumpOffset nnn => .ofAddr 11 nnn
  | random x kk => .ofByte 12 x kk
  | draw x y n => ⟨13, x, y, n⟩
  | skipHeld x => .ofByte 14 x 0x9e
  | skipNotHeld x => .ofByte 14 x 0xa1
  | readDelay x => .ofByte 15 x 0x07
  | awaitKey x => .ofByte 15 x 0x0a
  | setDelay x => .ofByte 15 x 0x15
  | setSound x => .ofByte 15 x 0x18
  | addIndex x => .ofByte 15 x 0x1e
  | glyph x => .ofByte 15 x 0x29
  | decimal x => .ofByte 15 x 0x33
  | store x => .ofByte 15 x 0x55
  | restore x => .ofByte 15 x 0x65

def word (i : Instruction) : UInt16 := i.fields.toWord

/-! ## Reading what was written -/

/-- The nibbles of an instruction spell it. -/
@[simp] theorem ofFields?_fields (i : Instruction) : ofFields? i.fields = some i := by
  cases i <;> simp [fields, ofFields?]

/-- The canonical word of an instruction spells it. -/
@[simp] theorem ofWord?_word (i : Instruction) : ofWord? i.word = some i := by
  simp [ofWord?, word]

end Instruction

end Chip8Vm
