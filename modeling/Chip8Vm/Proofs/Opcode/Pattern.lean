import Mathlib.Tactic.MkIffOfInductiveProp
import Chip8Vm.Proofs.Bare.Opcode

/-!
# Chip8Vm.Proofs.Opcode.Pattern

The instruction set by its patterns.

The pattern of an instruction has four signs: hexadecimal digits, which its words must have, and
letters, in whose places its operands stand.

* `Instruction.pattern` — the pattern that is written beside each instruction;
* `Pattern.Fits` — the words of a pattern, whatever stands in the places of its letters;
* `Pattern.fill` — the one word of a pattern with these operands;
* `decode_exact` — the words that are instructions are those that fit a pattern, and reading
  and writing them are inverse to each other.
-/

namespace Chip8Vm

/-! ## Patterns -/

/-- A sign in the pattern of a word. -/
inductive Sign where
  /-- A digit that the word must have. -/
  | digit (d : Nibble)
  /-- The number of a register. -/
  | x
  | y
  /-- A row count. -/
  | n
  /-- A digit of a byte. -/
  | k
  /-- A digit of an address. -/
  | a
  deriving DecidableEq

/-- The operands of an instruction as numbers, within their bounds or not.  An operand that the
instruction has not, or that means nothing to it, is zero. -/
structure Operands where
  x : Nat := 0
  y : Nat := 0
  n : Nat := 0
  kk : Nat := 0
  nnn : Nat := 0

structure Operands.InRange (o : Operands) : Prop where
  x : o.x < 16
  y : o.y < 16
  n : o.n < 16
  kk : o.kk < 256
  nnn : o.nnn < 4096

/-- The four signs of a pattern, as they are written. -/
structure Pattern where
  first : Sign
  second : Sign
  third : Sign
  fourth : Sign

/-- May a word have this digit where its pattern has this sign? -/
def Sign.Admits : Sign → Nibble → Prop
  | .digit d, e => e = d
  | _, _ => True

/-- The digit in place of a sign; `place` is what a one is worth there. -/
def Sign.fill (o : Operands) (place : Nat) : Sign → Nibble
  | .digit d => d
  | .x => Nibble.ofNat o.x
  | .y => Nibble.ofNat o.y
  | .n => Nibble.ofNat o.n
  | .k => Nibble.ofNat (o.kk / place)
  | .a => Nibble.ofNat (o.nnn / place)

namespace Pattern

/-- Has the word with these nibbles the digits of the pattern in their places? -/
structure Fits (p : Pattern) (f : Fields) : Prop where
  first : p.first.Admits f.group
  second : p.second.Admits f.x
  third : p.third.Admits f.y
  fourth : p.fourth.Admits f.n

/-- The pattern with operands in the places of its letters. -/
def fill (p : Pattern) (o : Operands) : Fields where
  group := p.first.fill o 4096
  x := p.second.fill o 256
  y := p.third.fill o 16
  n := p.fourth.fill o 1

end Pattern

/-- What a group asks of the other nibbles of a word; the groups that are not named ask for
nothing. -/
@[mk_iff]
structure Fields.Listed (f : Fields) : Prop where
  zero : f.group = 0x0 → f.nnn = 0x0e0 ∨ f.nnn = 0x0ee
  compare : f.group = 0x5 ∨ f.group = 0x9 → f.n = 0
  combine : f.group = 0x8 → f.n ≤ 7 ∨ f.n = 0xe
  keys : f.group = 0xe → f.kk ∈ [0x9e, 0xa1]
  others : f.group = 0xf → f.kk ∈ [0x07, 0x0a, 0x15, 0x18, 0x1e, 0x29, 0x33, 0x55, 0x65]

/-- The operands of a plain instruction, whatever they are. -/
def BareInstruction.operands : BareInstruction → Operands
  | clear | ret => {}
  | jump nnn | call nnn | loadIndex nnn | jumpOffset nnn => { nnn := nnn.toNat }
  | skipEqByte x kk | skipNeByte x kk | loadByte x kk | addByte x kk | random x kk =>
    { x := x.toNat, kk := kk.toNat }
  | skipEq x y | load x y | or x y | and x y | xor x y | add x y | sub x y | subFrom x y
  | skipNe x y => { x := x.toNat, y := y.toNat }
  | draw x y n => { x := x.toNat, y := y.toNat, n := n.toNat }
  | shiftRight x | shiftLeft x | skipHeld x | skipNotHeld x | readDelay x | awaitKey x
  | setDelay x | setSound x | addIndex x | glyph x | decimal x | store x | restore x =>
    { x := x.toNat }

namespace Instruction

def operands (i : Instruction) : Operands := i.bare.operands

open Sign in
/-- The pattern that is written beside the instruction. -/
def pattern : Instruction → Pattern
  | clear => ⟨digit 0, digit 0, digit 0xe, digit 0⟩
  | ret => ⟨digit 0, digit 0, digit 0xe, digit 0xe⟩
  | jump _ => ⟨digit 1, a, a, a⟩
  | call _ => ⟨digit 2, a, a, a⟩
  | skipEqByte _ _ => ⟨digit 3, x, k, k⟩
  | skipNeByte _ _ => ⟨digit 4, x, k, k⟩
  | skipEq _ _ => ⟨digit 5, x, y, digit 0⟩
  | loadByte _ _ => ⟨digit 6, x, k, k⟩
  | addByte _ _ => ⟨digit 7, x, k, k⟩
  | load _ _ => ⟨digit 8, x, y, digit 0⟩
  | or _ _ => ⟨digit 8, x, y, digit 1⟩
  | and _ _ => ⟨digit 8, x, y, digit 2⟩
  | xor _ _ => ⟨digit 8, x, y, digit 3⟩
  | add _ _ => ⟨digit 8, x, y, digit 4⟩
  | sub _ _ => ⟨digit 8, x, y, digit 5⟩
  | shiftRight _ => ⟨digit 8, x, y, digit 6⟩
  | subFrom _ _ => ⟨digit 8, x, y, digit 7⟩
  | shiftLeft _ => ⟨digit 8, x, y, digit 0xe⟩
  | skipNe _ _ => ⟨digit 9, x, y, digit 0⟩
  | loadIndex _ => ⟨digit 0xa, a, a, a⟩
  | jumpOffset _ => ⟨digit 0xb, a, a, a⟩
  | random _ _ => ⟨digit 0xc, x, k, k⟩
  | draw _ _ _ => ⟨digit 0xd, x, y, n⟩
  | skipHeld _ => ⟨digit 0xe, x, digit 9, digit 0xe⟩
  | skipNotHeld _ => ⟨digit 0xe, x, digit 0xa, digit 1⟩
  | readDelay _ => ⟨digit 0xf, x, digit 0, digit 7⟩
  | awaitKey _ => ⟨digit 0xf, x, digit 0, digit 0xa⟩
  | setDelay _ => ⟨digit 0xf, x, digit 1, digit 5⟩
  | setSound _ => ⟨digit 0xf, x, digit 1, digit 8⟩
  | addIndex _ => ⟨digit 0xf, x, digit 1, digit 0xe⟩
  | glyph _ => ⟨digit 0xf, x, digit 2, digit 9⟩
  | decimal _ => ⟨digit 0xf, x, digit 3, digit 3⟩
  | store _ => ⟨digit 0xf, x, digit 5, digit 5⟩
  | restore _ => ⟨digit 0xf, x, digit 6, digit 5⟩

/-- Does the `y` of its pattern mean nothing to the instruction? -/
def ignoresY : Instruction → Bool
  | shiftRight _ | shiftLeft _ => true
  | _ => false

variable {i : Instruction} {f : Fields}

/-! ## Writing -/

/-- The operands of an instruction are within their bounds. -/
theorem inRange_operands (i : Instruction) : i.operands.InRange := by
  cases i <;> constructor <;> simp [operands, bare, BareInstruction.operands] <;>
    exact UInt8.toNat_lt _

/-- A plain instruction whose operands are within their bounds is not changed by cutting them
down. -/
theorem bare_instruction {b : BareInstruction} (hb : b.operands.InRange) :
    b.instruction.bare = b := by
  obtain ⟨hx, hy, hn, -, hnnn⟩ := hb
  cases b <;> simp only [BareInstruction.operands] at hx hy hn hnnn <;>
    simp only [BareInstruction.instruction, bare, Nibble.byte_ofByte, Addr.word_ofWord, hx, hy, hn,
      hnnn]

/-- The canonical word of an instruction is its pattern with its operands. -/
theorem fields_eq_fill (i : Instruction) : i.fields = i.pattern.fill i.operands := by
  cases i <;> simp only [fields, pattern, operands, bare, BareInstruction.operands, Pattern.fill,
    Sign.fill, Fields.ofAddr, Fields.ofByte, Nat.div_one, Nibble.toNat_byte, Addr.toNat_word,
    Nibble.ofNat_val] <;> rfl

/-- The nibbles of an instruction, but for a `y` that means nothing to it. -/
def withY (i : Instruction) (y : Nibble) : Fields :=
  { i.fields with y := if i.ignoresY then y else i.fields.y }

theorem fits_withY (i : Instruction) (y : Nibble) : i.pattern.Fits (i.withY y) := by
  cases i <;> constructor <;>
    simp [pattern, withY, ignoresY, fields, Sign.Admits, Fields.ofAddr, Fields.ofByte,
      Nibble.ofNat] <;>
    decide

/-! ## Reading -/

/-- Nibbles that spell an instruction are its own, but for a `y` that means nothing to it. -/
theorem eq_withY (hi : ofFields? f = some i) : f = i.withY f.y := by
  have haddr := f.ofAddr_nnn
  have hbyte := f.ofByte_kk
  obtain ⟨g, x, y, n⟩ := f
  revert hi
  fun_cases ofFields? ⟨g, x, y, n⟩ <;> intro hi <;> cases hi <;> simp_all [withY, fields, ignoresY]
  -- reading leaves the last group to the end, where it is known only not to be another
  all_goals
    have hg : g = 15 := by grind
    rw [hg] at hbyte
    rw [hbyte]
    exact ⟨hg, rfl, rfl⟩

theorem isSome_of_fits (hf : i.pattern.Fits f) : (ofFields? f).isSome := by
  obtain ⟨g, x, y, n⟩ := f
  obtain ⟨hg, hx, hy, hn⟩ := hf
  cases i <;> cases hg <;> cases hx <;> cases hy <;> cases hn <;> rfl

theorem isSome_iff_fits : (ofFields? f).isSome ↔ ∃ i : Instruction, i.pattern.Fits f := by
  constructor
  · intro hf
    obtain ⟨i, hi⟩ := Option.isSome_iff_exists.mp hf
    refine ⟨i, ?_⟩
    rw [eq_withY hi]
    exact i.fits_withY f.y
  · rintro ⟨i, hf⟩
    exact isSome_of_fits hf

theorem isSome_iff_listed : (ofFields? f).isSome ↔ f.Listed := by
  have hlisted := Fields.listed_iff f
  fun_cases ofFields? f <;> grind

/-! ## Words -/

variable {w addr : UInt16}

theorem decode_eq_ok_iff : decode w addr = .ok i ↔ ofFields? (.ofWord w) = some i := by
  unfold decode ofWord?
  cases ofFields? (.ofWord w) with
  | none => simp
  | some j => simp

theorem exists_decode_iff : (∃ i, decode w addr = .ok i) ↔ (ofFields? (.ofWord w)).isSome := by
  rw [Option.isSome_iff_exists]
  exact exists_congr fun i => decode_eq_ok_iff

theorem eq_of_decode_eq_error {fault : Fault} (hf : decode w addr = .error fault) :
    fault = .unknownOpcode w addr := by
  unfold decode at hf
  cases hw : ofWord? w with
  | none => simpa [hw] using hf.symm
  | some j => simp [hw] at hf

theorem word_eq_fill (i : Instruction) : i.word = (i.pattern.fill i.operands).toWord := by
  rw [word, fields_eq_fill]

theorem decode_word (i : Instruction) (addr : UInt16) : decode i.word addr = .ok i := by
  rw [decode_eq_ok_iff, word, Fields.ofWord_toWord, ofFields?_fields]

/-- **Decoding is exact.** A word is an instruction if it fits a pattern, which is to say that
its low digits are listed for its group; every other word is a fault that names the word and
the address.  The canonical word of what is decoded is the word itself, but for the `y` of a shift.
The canonical word of an instruction is its pattern with its operands in the places of the letters,
and it is decoded to that instruction.  Decoding to a plain instruction comes to the same.  Its
operands could be any bytes and words, but those of what is decoded are in their ranges; and every
plain instruction with operands in these ranges is decoded from its pattern with its operands. -/
theorem decode_exact (w addr : UInt16) :
    ((∃ i, decode w addr = .ok i) ↔ ∃ i : Instruction, i.pattern.Fits (.ofWord w)) ∧
    ((∃ i : Instruction, i.pattern.Fits (.ofWord w)) ↔ (Fields.ofWord w).Listed) ∧
    (∀ fault, decode w addr = .error fault → fault = .unknownOpcode w addr) ∧
    (∀ i, decode w addr = .ok i → i.pattern.Fits (.ofWord w) ∧
      Fields.ofWord w = { Fields.ofWord i.word with
        y := if i.ignoresY then (Fields.ofWord w).y else (Fields.ofWord i.word).y }) ∧
    (∀ i : Instruction,
      i.word = (i.pattern.fill i.operands).toWord ∧ decode i.word addr = .ok i) ∧
    BareInstruction.decode w addr = (decode w addr).map bare ∧
    (∀ b, BareInstruction.decode w addr = .ok b → b.operands.InRange) ∧
    (∀ b : BareInstruction, b.operands.InRange →
      BareInstruction.decode (b.instruction.pattern.fill b.operands).toWord addr = .ok b) := by
  refine ⟨exists_decode_iff.trans isSome_iff_fits, isSome_iff_fits.symm.trans isSome_iff_listed,
    fun fault => eq_of_decode_eq_error, fun i hi => ⟨?_, ?_⟩, fun i => ⟨word_eq_fill i, ?_⟩,
    BareInstruction.decode_eq_map w addr, fun b hb => ?_, fun b hb => ?_⟩
  · rw [eq_withY (decode_eq_ok_iff.mp hi)]
    exact i.fits_withY _
  · rw [word, Fields.ofWord_toWord]
    exact eq_withY (decode_eq_ok_iff.mp hi)
  · exact decode_word i addr
  · rw [BareInstruction.decode_eq_map] at hb
    cases hi : decode w addr with
    | error f => rw [hi] at hb; cases hb
    | ok i =>
        rw [hi] at hb
        cases hb
        exact i.inRange_operands
  · have hword : b.operands = b.instruction.operands := by rw [operands, bare_instruction hb]
    rw [hword, ← word_eq_fill, BareInstruction.decode_eq_map, decode_word, Except.map,
      bare_instruction hb]

/-- The word `81a6` is a shift that ignores a digit of it, and `81a8` is nothing. -/
theorem decode_exact_shift :
    decode 0x81a6 0x200 = .ok (.shiftRight 1) ∧ (shiftRight 1).word = 0x8106 ∧
    BareInstruction.decode 0x81a6 0x200 = .ok (.shiftRight 1) ∧
    Fields.ofWord 0x81a6 = { Fields.ofWord 0x8106 with y := 0xa } ∧
    ¬ (Fields.ofWord 0x81a8).Listed ∧
    decode 0x81a8 0x200 = .error (.unknownOpcode 0x81a8 0x200) := by
  have hshift : decode 0x81a6 0x200 = .ok (.shiftRight 1) := rfl
  have hword : (shiftRight 1).word = 0x8106 := rfl
  have hdigits := ((decode_exact 0x81a6 0x200).2.2.2.1 _ hshift).2
  rw [hword] at hdigits
  have hnothing : decode 0x81a8 0x200 = .error (.unknownOpcode 0x81a8 0x200) := rfl
  have hunlisted : ¬ (Fields.ofWord 0x81a8).Listed := by
    obtain ⟨hfits, hlisted, -⟩ := decode_exact 0x81a8 0x200
    rw [← hlisted, ← hfits, hnothing]
    rintro ⟨i, hi⟩
    cases hi
  have hplain := (decode_exact 0x81a6 0x200).2.2.2.2.2.1
  rw [hshift] at hplain
  exact ⟨hshift, hword, hplain, hdigits, hunlisted, hnothing⟩

end Instruction

end Chip8Vm
