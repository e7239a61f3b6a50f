import Mathlib.Tactic.IntervalCases
import Chip8Vm.Opcode.Encoding

/-!
# Chip8Vm.Proofs.Bare.Opcode

Instructions with plain operands.

The operands of a `BareInstruction` are bytes and words of any value.  It is read off a word by
shifts and masks, and nothing but the masks keeps an operand within its bounds; this is decoding all
the same, with the bounds forgotten (`decode_eq_map`).

* `BareInstruction.decode` — the instruction that a word spells, arm by arm;
* `Instruction.bare` — an instruction without the bounds of its operands;
* `BareInstruction.instruction` — an instruction with its operands cut down to their bounds.
-/

namespace Chip8Vm

/-! ## Operands -/

/-- A nibble as a byte. -/
def Nibble.byte (k : Nibble) : UInt8 := UInt8.ofNat k.val

/-- An address as a word. -/
def Addr.word (a : Addr) : UInt16 := UInt16.ofNat a.val

/-- The low nibble of a byte. -/
def Nibble.ofByte (b : UInt8) : Nibble := Nibble.ofNat b.toNat

/-- The low twelve bits of a word. -/
def Addr.ofWord (w : UInt16) : Addr := Addr.ofNat w.toNat

theorem Nibble.ofNat_val (k : Nibble) : Nibble.ofNat k.val = k := Fin.ofNat_val_eq_self k

@[simp] theorem Nibble.toNat_byte (k : Nibble) : k.byte.toNat = k.val := by
  have hk := k.isLt
  rw [byte, UInt8.toNat_ofNat']
  omega

@[simp] theorem Addr.toNat_word (a : Addr) : a.word.toNat = a.val := by
  have ha := a.isLt
  rw [word, UInt16.toNat_ofNat']
  omega

@[simp] theorem Nibble.ofByte_byte (k : Nibble) : ofByte k.byte = k := by
  rw [ofByte, toNat_byte, ofNat_val]

@[simp] theorem Addr.ofWord_word (a : Addr) : ofWord a.word = a := by
  rw [ofWord, toNat_word]
  exact Fin.ofNat_val_eq_self a

theorem Nibble.byte_ofByte {b : UInt8} (hb : b.toNat < 16) : (ofByte b).byte = b := by
  apply UInt8.toNat_inj.mp
  rw [toNat_byte, ofByte, ofNat, Fin.val_ofNat, Nat.mod_eq_of_lt hb]

theorem Addr.word_ofWord {w : UInt16} (hw : w.toNat < 4096) : (ofWord w).word = w := by
  apply UInt16.toNat_inj.mp
  rw [toNat_word, ofWord, ofNat, Fin.val_ofNat, Nat.mod_eq_of_lt hw]

theorem Addr.word_inj {a b : Addr} : a.word = b.word ↔ a = b := by
  rw [← UInt16.toNat_inj, toNat_word, toNat_word, Fin.ext_iff]

/-- The instruction set with plain operands. -/
inductive BareInstruction where
  | clear
  | ret
  | jump (nnn : UInt16)
  | call (nnn : UInt16)
  | skipEqByte (x kk : UInt8)
  | skipNeByte (x kk : UInt8)
  | skipEq (x y : UInt8)
  | loadByte (x kk : UInt8)
  | addByte (x kk : UInt8)
  | load (x y : UInt8)
  | or (x y : UInt8)
  | and (x y : UInt8)
  | xor (x y : UInt8)
  | add (x y : UInt8)
  | sub (x y : UInt8)
  | shiftRight (x : UInt8)
  | subFrom (x y : UInt8)
  | shiftLeft (x : UInt8)
  | skipNe (x y : UInt8)
  | loadIndex (nnn : UInt16)
  | jumpOffset (nnn : UInt16)
  | random (x kk : UInt8)
  | draw (x y n : UInt8)
  | skipHeld (x : UInt8)
  | skipNotHeld (x : UInt8)
  | readDelay (x : UInt8)
  | awaitKey (x : UInt8)
  | setDelay (x : UInt8)
  | setSound (x : UInt8)
  | addIndex (x : UInt8)
  | glyph (x : UInt8)
  | decimal (x : UInt8)
  | store (x : UInt8)
  | restore (x : UInt8)
  deriving DecidableEq, Repr

/-! ## Reading -/

/-- What the arms of the decoder look at. -/
structure BareFields where
  group : UInt8
  x : UInt8
  y : UInt8
  n : UInt8
  kk : UInt8
  nnn : UInt16

def BareFields.ofWord (w : UInt16) : BareFields where
  group := (w >>> 12).toUInt8
  x := ((w >>> 8) &&& 0x0f).toUInt8
  y := ((w >>> 4) &&& 0x0f).toUInt8
  n := (w &&& 0x0f).toUInt8
  kk := (w &&& 0xff).toUInt8
  nnn := w &&& 0x0fff

namespace BareInstruction

/-- The instructions of group 0. -/
def system? : UInt16 → Option BareInstruction
  | 0x0e0 => some clear
  | 0x0ee => some ret
  | _ => none

/-- The instructions of group E. -/
def keys? (x : UInt8) : UInt8 → Option BareInstruction
  | 0x9e => some (skipHeld x)
  | 0xa1 => some (skipNotHeld x)
  | _ => none

/-- The instructions of group F. -/
def others? (x : UInt8) : UInt8 → Option BareInstruction
  | 0x07 => some (readDelay x)
  | 0x0a => some (awaitKey x)
  | 0x15 => some (setDelay x)
  | 0x18 => some (setSound x)
  | 0x1e => some (addIndex x)
  | 0x29 => some (glyph x)
  | 0x33 => some (decimal x)
  | 0x55 => some (store x)
  | 0x65 => some (restore x)
  | _ => none

def ofFields? (f : BareFields) : Option BareInstruction :=
  match f.group, f.n with
  | 0x0, _ => system? f.nnn
  | 0x1, _ => some (jump f.nnn)
  | 0x2, _ => some (call f.nnn)
  | 0x3, _ => some (skipEqByte f.x f.kk)
  | 0x4, _ => some (skipNeByte f.x f.kk)
  | 0x5, 0x0 => some (skipEq f.x f.y)
  | 0x6, _ => some (loadByte f.x f.kk)
  | 0x7, _ => some (addByte f.x f.kk)
  | 0x8, 0x0 => some (load f.x f.y)
  | 0x8, 0x1 => some (or f.x f.y)
  | 0x8, 0x2 => some (and f.x f.y)
  | 0x8, 0x3 => some (xor f.x f.y)
  | 0x8, 0x4 => some (add f.x f.y)
  | 0x8, 0x5 => some (sub f.x f.y)
  | 0x8, 0x6 => some (shiftRight f.x)
  | 0x8, 0x7 => some (subFrom f.x f.y)
  | 0x8, 0xe => some (shiftLeft f.x)
  | 0x9, 0x0 => some (skipNe f.x f.y)
  | 0xa, _ => some (loadIndex f.nnn)
  | 0xb, _ => some (jumpOffset f.nnn)
  | 0xc, _ => some (random f.x f.kk)
  | 0xd, _ => some (draw f.x f.y f.n)
  | 0xe, _ => keys? f.x f.kk
  | 0xf, _ => others? f.x f.kk
  | _, _ => none

/-- The instruction that a word spells, or the fault of the word at an address. -/
def decode (w addr : UInt16) : Except Fault BareInstruction :=
  match ofFields? (.ofWord w) with
  | some i => .ok i
  | none => .error (.unknownOpcode w addr)

end BareInstruction

/-! ## Between the two -/

/-- An instruction without the bounds of its operands. -/
def Instruction.bare : Instruction → BareInstruction
  | clear => .clear
  | ret => .ret
  | jump nnn => .jump nnn.word
  | call nnn => .call nnn.word
  | skipEqByte x kk => .skipEqByte x.byte kk
  | skipNeByte x kk => .skipNeByte x.byte kk
  | skipEq x y => .skipEq x.byte y.byte
  | loadByte x kk => .loadByte x.byte kk
  | addByte x kk => .addByte x.byte kk
  | load x y => .load x.byte y.byte
  | or x y => .or x.byte y.byte
  | and x y => .and x.byte y.byte
  | xor x y => .xor x.byte y.byte
  | add x y => .add x.byte y.byte
  | sub x y => .sub x.byte y.byte
  | shiftRight x => .shiftRight x.byte
  | subFrom x y => .subFrom x.byte y.byte
  | shiftLeft x => .shiftLeft x.byte
  | skipNe x y => .skipNe x.byte y.byte
  | loadIndex nnn => .loadIndex nnn.word
  | jumpOffset nnn => .jumpOffset nnn.word
  | random x kk => .random x.byte kk
  | draw x y n => .draw x.byte y.byte n.byte
  | skipHeld x => .skipHeld x.byte
  | skipNotHeld x => .skipNotHeld x.byte
  | readDelay x => .readDelay x.byte
  | awaitKey x => .awaitKey x.byte
  | setDelay x => .setDelay x.byte
  | setSound x => .setSound x.byte
  | addIndex x => .addIndex x.byte
  | glyph x => .glyph x.byte
  | decimal x => .decimal x.byte
  | store x => .store x.byte
  | restore x => .restore x.byte

/-- The instruction with its operands cut down to their bounds. -/
def BareInstruction.instruction : BareInstruction → Instruction
  | clear => .clear
  | ret => .ret
  | jump nnn => .jump (.ofWord nnn)
  | call nnn => .call (.ofWord nnn)
  | skipEqByte x kk => .skipEqByte (.ofByte x) kk
  | skipNeByte x kk => .skipNeByte (.ofByte x) kk
  | skipEq x y => .skipEq (.ofByte x) (.ofByte y)
  | loadByte x kk => .loadByte (.ofByte x) kk
  | addByte x kk => .addByte (.ofByte x) kk
  | load x y => .load (.ofByte x) (.ofByte y)
  | or x y => .or (.ofByte x) (.ofByte y)
  | and x y => .and (.ofByte x) (.ofByte y)
  | xor x y => .xor (.ofByte x) (.ofByte y)
  | add x y => .add (.ofByte x) (.ofByte y)
  | sub x y => .sub (.ofByte x) (.ofByte y)
  | shiftRight x => .shiftRight (.ofByte x)
  | subFrom x y => .subFrom (.ofByte x) (.ofByte y)
  | shiftLeft x => .shiftLeft (.ofByte x)
  | skipNe x y => .skipNe (.ofByte x) (.ofByte y)
  | loadIndex nnn => .loadIndex (.ofWord nnn)
  | jumpOffset nnn => .jumpOffset (.ofWord nnn)
  | random x kk => .random (.ofByte x) kk
  | draw x y n => .draw (.ofByte x) (.ofByte y) (.ofByte n)
  | skipHeld x => .skipHeld (.ofByte x)
  | skipNotHeld x => .skipNotHeld (.ofByte x)
  | readDelay x => .readDelay (.ofByte x)
  | awaitKey x => .awaitKey (.ofByte x)
  | setDelay x => .setDelay (.ofByte x)
  | setSound x => .setSound (.ofByte x)
  | addIndex x => .addIndex (.ofByte x)
  | glyph x => .glyph (.ofByte x)
  | decimal x => .decimal (.ofByte x)
  | store x => .store (.ofByte x)
  | restore x => .restore (.ofByte x)

@[simp] theorem Instruction.instruction_bare (i : Instruction) : i.bare.instruction = i := by
  cases i <;> simp [bare, BareInstruction.instruction]

/-! ## The same instructions -/

/-- The fields without their bounds. -/
def Fields.bare (f : Fields) : BareFields where
  group := f.group.byte
  x := f.x.byte
  y := f.y.byte
  n := f.n.byte
  kk := f.kk
  nnn := f.nnn.word

theorem toUInt8_and_nibble (v : UInt16) : (v &&& 0x0f).toUInt8 = (Nibble.ofNat v.toNat).byte := by
  apply UInt8.toNat_inj.mp
  have hmask : (v &&& 0x0f).toNat = v.toNat % 16 := by
    rw [UInt16.toNat_and]
    exact Nat.and_two_pow_sub_one_eq_mod v.toNat 4
  rw [UInt16.toNat_toUInt8, hmask, Nibble.toNat_byte, Nibble.ofNat, Fin.val_ofNat]
  omega

theorem BareFields.ofWord_eq (w : UInt16) : ofWord w = (Fields.ofWord w).bare := by
  have hw := w.toNat_lt
  have hshift8 : (w >>> 8).toNat = w.toNat / 256 := by
    rw [UInt16.toNat_shiftRight]
    exact Nat.shiftRight_eq_div_pow w.toNat 8
  have hshift4 : (w >>> 4).toNat = w.toNat / 16 := by
    rw [UInt16.toNat_shiftRight]
    exact Nat.shiftRight_eq_div_pow w.toNat 4
  have hgroup : (w >>> 12).toUInt8 = (Nibble.ofNat (w.toNat / 4096)).byte := by
    apply UInt8.toNat_inj.mp
    have hshift : (w >>> 12).toNat = w.toNat / 4096 := by
      rw [UInt16.toNat_shiftRight]
      exact Nat.shiftRight_eq_div_pow w.toNat 12
    rw [UInt16.toNat_toUInt8, hshift, Nibble.toNat_byte, Nibble.ofNat, Fin.val_ofNat]
    omega
  have hkk : (w &&& 0xff).toUInt8 = (Fields.ofWord w).kk := by
    apply UInt8.toNat_inj.mp
    have hmask : (w &&& 0xff).toNat = w.toNat % 256 := by
      rw [UInt16.toNat_and]
      exact Nat.and_two_pow_sub_one_eq_mod w.toNat 8
    rw [UInt16.toNat_toUInt8, hmask, Fields.kk, UInt8.toNat_ofNat']
    simp only [Fields.ofWord, Nibble.ofNat, Fin.val_ofNat]
    omega
  have hnnn : w &&& 0x0fff = (Fields.ofWord w).nnn.word := by
    apply UInt16.toNat_inj.mp
    have hmask : (w &&& 0x0fff).toNat = w.toNat % 4096 := by
      rw [UInt16.toNat_and]
      exact Nat.and_two_pow_sub_one_eq_mod w.toNat 12
    rw [hmask, Addr.toNat_word, Fields.nnn, Addr.ofNat, Fin.val_ofNat]
    simp only [Fields.ofWord, Nibble.ofNat, Fin.val_ofNat]
    omega
  simp only [ofWord, Fields.bare, toUInt8_and_nibble, hshift8, hshift4, hgroup, hkk, hnnn]
  rfl

namespace BareInstruction

theorem system?_word (nnn : Addr) :
    system? nnn.word =
      (if nnn = 0x0e0 then some Instruction.clear
        else if nnn = 0x0ee then some .ret else none).map Instruction.bare := by
  have hword : ∀ a : Addr, nnn.word = a.word ↔ nnn = a := fun a => Addr.word_inj
  have hclear := hword 0x0e0
  have hret := hword 0x0ee
  unfold system?
  split
  · next h => simp [hclear.mp h, Instruction.bare]
  · next h =>
    simp [hret.mp h, Instruction.bare]
  · next h h' =>
    simp [mt hclear.mpr h, mt hret.mpr h']

theorem keys?_byte (x : Reg) (kk : UInt8) :
    keys? x.byte kk =
      (if kk = 0x9e then some (Instruction.skipHeld x)
        else if kk = 0xa1 then some (.skipNotHeld x) else none).map Instruction.bare := by
  unfold keys?
  split <;> simp_all [Instruction.bare]

theorem others?_byte (x : Reg) (kk : UInt8) :
    others? x.byte kk =
      (if kk = 0x07 then some (Instruction.readDelay x)
        else if kk = 0x0a then some (.awaitKey x)
        else if kk = 0x15 then some (.setDelay x)
        else if kk = 0x18 then some (.setSound x)
        else if kk = 0x1e then some (.addIndex x)
        else if kk = 0x29 then some (.glyph x)
        else if kk = 0x33 then some (.decimal x)
        else if kk = 0x55 then some (.store x)
        else if kk = 0x65 then some (.restore x)
        else none).map Instruction.bare := by
  unfold others?
  split <;> simp_all [Instruction.bare]

theorem ofFields?_bare (f : Fields) :
    ofFields? f.bare = (Instruction.ofFields? f).map Instruction.bare := by
  have hsystem := system?_word f.nnn
  have hkeys := keys?_byte f.x f.kk
  have hothers := others?_byte f.x f.kk
  obtain ⟨⟨g, hg⟩, x, y, ⟨n, hn⟩⟩ := f
  interval_cases g
  case «0» => exact hsystem
  case «5» => interval_cases n <;> rfl
  case «8» => interval_cases n <;> rfl
  case «9» => interval_cases n <;> rfl
  case «14» => exact hkeys
  case «15» => exact hothers
  all_goals rfl

/-- Decoding with plain operands is decoding. -/
theorem decode_eq_map (w addr : UInt16) :
    decode w addr = (Instruction.decode w addr).map Instruction.bare := by
  rw [decode, BareFields.ofWord_eq, ofFields?_bare, Instruction.decode, Instruction.ofWord?]
  cases Instruction.ofFields? (Fields.ofWord w) <;> rfl

end BareInstruction

end Chip8Vm
