import Mathlib.Data.List.Nodup
import Chip8Vm.Opcode.Assembly
import Chip8Vm.Proofs.Opcode.Pattern

/-!
# Chip8Vm.Proofs.Opcode.Disassembly

A line of assembly tells the instruction.

Whoever reads a line finds the mnemonic before the first space and the operands between the
commas, because neither sign stands inside of a mnemonic or an operand.

* `Operand.text_inj` — an operand of four characters is a byte, one of five an address, and the
  others are a few texts that all differ;
* `intercalate_inj`, `Assembly.text_inj` — the parts of a line are told by its separators;
* `Instruction.text_inj` — and the line of an instruction by its parts;
* `Instruction.text_eq_iff_alike` — so equal lines stand for equal words, but for a digit of a
  shift that means nothing.
-/

namespace Chip8Vm

/-! ## Hexadecimal -/

namespace Text

theorem hexWord_inj {width a b : Nat} (ha : a < Nat.pow 16 width) (hb : b < Nat.pow 16 width)
    (h : hexWord width a = hexWord width b) : a = b := by
  rw [← String.toList_inj] at h
  exact fixedHex_inj ha hb (by simpa [hexWord] using h)

theorem notMem_fixedHex {c : Char} (hc : ∀ d, hexDigit d ≠ c) (width n : Nat) :
    c ∉ fixedHex width n := by
  induction width generalizing n with
  | zero => simp [fixedHex]
  | succ width ih => simp [fixedHex, ih, Ne.symm (hc _)]

end Text

/-! ## Mnemonics -/

namespace Mnemonic

def all : List Mnemonic :=
  [cls, ret, jp, call, se, sne, ld, add, or, and, xor, sub, subn, shr, shl, rnd, drw, skp, sknp]

theorem mem_all (m : Mnemonic) : m ∈ all := by
  cases m <;> decide

theorem text_inj {m m' : Mnemonic} (h : m.text = m'.text) : m = m' := by
  have hnodup : (all.map text).Nodup := by decide +kernel
  exact List.inj_on_of_nodup_map hnodup (mem_all m) (mem_all m') h

theorem space_notMem (m : Mnemonic) : ' ' ∉ m.text.toList := by
  have hall : ∀ m ∈ all, ' ' ∉ m.text.toList := by decide +kernel
  exact hall m (mem_all m)

end Mnemonic

/-! ## Operands -/

namespace Operand

/-- The operands of at most three characters. -/
def short : List Operand :=
  (List.finRange 16).map reg ++ (List.finRange 16).map rows ++
    [index, atIndex, delay, sound, key, font, decimal]

/-- An operand is short, or it is a byte or an address. -/
theorem mem_short_or (o : Operand) :
    o ∈ short ∨ (∃ kk, o = byte kk) ∨ ∃ nnn, o = addr nnn := by
  cases o <;> simp [short]

theorem length_short : ∀ o ∈ short, o.text.length ≤ 3 := by
  decide +kernel

@[simp] theorem length_byte (kk : UInt8) : (byte kk).text.length = 4 := by
  have hprefix : "0x".length = 2 := by decide
  simp [text, Text.hexWord, hprefix]

@[simp] theorem length_addr (nnn : Addr) : (addr nnn).text.length = 5 := by
  have hprefix : "0x".length = 2 := by decide
  simp [text, Text.hexWord, hprefix]

theorem short_inj {a b : Operand} (ha : a ∈ short) (hb : b ∈ short) (h : a.text = b.text) :
    a = b := by
  have hnodup : (short.map text).Nodup := by decide +kernel
  exact List.inj_on_of_nodup_map hnodup ha hb h

theorem text_inj {a b : Operand} (h : a.text = b.text) : a = b := by
  have hlength := congrArg String.length h
  obtain ha | ⟨kk, rfl⟩ | ⟨nnn, rfl⟩ := a.mem_short_or <;>
    obtain hb | ⟨kk', rfl⟩ | ⟨nnn', rfl⟩ := b.mem_short_or
  case inl.inl => exact short_inj ha hb h
  case inr.inl.inr.inl =>
    have hkk := Text.hexWord_inj kk.toNat_lt kk'.toNat_lt h
    rw [UInt8.toNat_inj.mp hkk]
  case inr.inr.inr.inr => rw [Fin.ext (Text.hexWord_inj nnn.isLt nnn'.isLt h)]
  -- operands of different kinds differ in length: at most three, four, and five
  all_goals
    exfalso
    grind [length_short, length_byte, length_addr]

theorem comma_notMem (o : Operand) : ',' ∉ o.text.toList := by
  have hshort : ∀ o ∈ short, ',' ∉ o.text.toList := by decide +kernel
  have hdigit : ∀ d : Nibble, Text.hexDigit d ≠ ',' := by decide
  obtain ho | ⟨kk, rfl⟩ | ⟨nnn, rfl⟩ := o.mem_short_or
  · exact hshort o ho
  · simp [text, Text.hexWord, Text.notMem_fixedHex hdigit]
  · simp [text, Text.hexWord, Text.notMem_fixedHex hdigit]

end Operand

/-! ## Lines -/

/-- What stands on both sides of the first occurrence of a sign. -/
theorem append_cons_inj {c : Char} {as bs s t : List Char} (has : c ∉ as) (hbs : c ∉ bs)
    (h : as ++ c :: s = bs ++ c :: t) : as = bs ∧ s = t := by
  induction as generalizing bs with
  | nil =>
    cases bs with
    | nil => simpa using h
    | cons b bs => exact absurd (List.cons.inj h).1 (by grind)
  | cons a as ih =>
    cases bs with
    | nil => exact absurd (List.cons.inj h).1 (by grind)
    | cons b bs =>
      obtain ⟨rfl, hrest⟩ := List.cons.inj h
      obtain ⟨rfl, rfl⟩ := ih (by grind) (by grind) hrest
      exact ⟨rfl, rfl⟩

/-- Texts without commas are told from the line with commas between them. -/
theorem intercalate_inj {as bs : List (List Char)} (has : ∀ a ∈ as, ',' ∉ a)
    (hbs : ∀ b ∈ bs, ',' ∉ b) (hane : as ≠ []) (hbne : bs ≠ [])
    (h : [',', ' '].intercalate as = [',', ' '].intercalate bs) : as = bs := by
  induction as generalizing bs with
  | nil => exact absurd rfl hane
  | cons a as ih =>
    cases bs with
    | nil => exact absurd rfl hbne
    | cons b bs =>
      obtain ⟨ha, hrest⟩ := List.forall_mem_cons.mp has
      obtain ⟨hb, hrest'⟩ := List.forall_mem_cons.mp hbs
      -- one text alone has no comma, and two or more have one behind the first
      cases as with
      | nil =>
        cases bs with
        | nil => simpa using h
        | cons b' bs =>
          rw [List.intercalate_singleton, List.intercalate_cons_cons] at h
          exact absurd (h ▸ ha) (by simp)
      | cons a' as =>
        cases bs with
        | nil =>
          rw [List.intercalate_singleton, List.intercalate_cons_cons] at h
          exact absurd (h ▸ hb) (by simp)
        | cons b' bs =>
          simp only [List.intercalate_cons_cons, List.append_assoc, List.cons_append,
            List.nil_append] at h
          obtain ⟨rfl, htail⟩ := append_cons_inj ha hb h
          rw [ih hrest hrest' (by simp) (by simp) (List.cons.inj htail).2]

namespace Assembly

theorem toList_text_nil (m : Mnemonic) : (Assembly.mk m []).text.toList = m.text.toList := by
  rw [text]

theorem toList_text {a : Assembly} (ha : a.operands ≠ []) :
    a.text.toList = a.mnemonic.text.toList ++ ' ' ::
      [',', ' '].intercalate (a.operands.map (·.text.toList)) := by
  obtain ⟨m, operands⟩ := a
  cases operands with
  | nil => exact absurd rfl ha
  | cons o operands => simp [text, String.toList_intercalate, Function.comp_def]

/-- Without operands there is no space. -/
theorem space_mem_text_iff {a : Assembly} : ' ' ∈ a.text.toList ↔ a.operands ≠ [] := by
  obtain ⟨m, operands⟩ := a
  cases operands with
  | nil => simp [toList_text_nil, m.space_notMem]
  | cons o operands =>
    rw [toList_text (by simp)]
    simp

theorem operands_inj {os os' : List Operand} (hos : os ≠ []) (hos' : os' ≠ [])
    (h : [',', ' '].intercalate (os.map (·.text.toList)) =
      [',', ' '].intercalate (os'.map (·.text.toList))) : os = os' := by
  have hcomma : ∀ os : List Operand, ∀ chars ∈ os.map (·.text.toList), ',' ∉ chars := by
    intro os chars hchars
    obtain ⟨o, -, rfl⟩ := List.mem_map.mp hchars
    exact o.comma_notMem
  have hmap := intercalate_inj (hcomma os) (hcomma os') (by simp [hos]) (by simp [hos']) h
  exact (List.map_inj_right fun o o' ho => Operand.text_inj (String.toList_inj.mp ho)).mp hmap

/-- A line tells its mnemonic and its operands. -/
theorem text_inj {a b : Assembly} (h : a.text = b.text) : a = b := by
  have hspace : a.operands ≠ [] ↔ b.operands ≠ [] := by
    rw [← space_mem_text_iff, ← space_mem_text_iff, h]
  have hchars := congrArg String.toList h
  by_cases ha : a.operands = []
  · have hb : b.operands = [] := by grind
    obtain ⟨m, operands⟩ := a
    obtain ⟨m', operands'⟩ := b
    obtain rfl : operands = [] := ha
    obtain rfl : operands' = [] := hb
    rw [toList_text_nil, toList_text_nil] at hchars
    rw [Mnemonic.text_inj (String.toList_inj.mp hchars)]
  · have hb : b.operands ≠ [] := hspace.mp ha
    rw [toList_text ha, toList_text hb] at hchars
    obtain ⟨hm, hos⟩ := append_cons_inj a.mnemonic.space_notMem b.mnemonic.space_notMem hchars
    have hmnemonic := Mnemonic.text_inj (String.toList_inj.mp hm)
    have hoperands := operands_inj ha hb hos
    obtain ⟨m, operands⟩ := a
    obtain ⟨m', operands'⟩ := b
    exact congr (congrArg Assembly.mk hmnemonic) hoperands

end Assembly

/-! ## Instructions and their words -/

/-- Words that say the same: all digits agree, but for the one of a shift that means nothing. -/
inductive Alike : UInt16 → UInt16 → Prop where
  | same (w : UInt16) : Alike w w
  | shift (x y y' n : Nibble) (hn : n = 0x6 ∨ n = 0xe) :
    Alike (Fields.mk 0x8 x y n).toWord (Fields.mk 0x8 x y' n).toWord

namespace Instruction

variable {i j : Instruction} {w w' addr addr' : UInt16}

/-- The text tells the instruction. -/
theorem text_inj (h : i.text = j.text) : i = j :=
  assembly_inj (Assembly.text_inj h)

theorem word_eq_withY (hi : decode w addr = .ok i) : w = (i.withY (Fields.ofWord w).y).toWord := by
  rw [← eq_withY (decode_eq_ok_iff.mp hi), Fields.toWord_ofWord]

theorem alike_of_decode (hi : decode w addr = .ok i) (hi' : decode w' addr' = .ok i) :
    Alike w w' := by
  rw [word_eq_withY hi, word_eq_withY hi']
  cases i with
  | shiftRight x => exact .shift x _ _ 0x6 (.inl rfl)
  | shiftLeft x => exact .shift x _ _ 0xe (.inr rfl)
  | _ => exact .same _

theorem ofFields?_shift {x y y' n : Nibble} (hn : n = 0x6 ∨ n = 0xe) :
    ofFields? ⟨0x8, x, y, n⟩ = ofFields? ⟨0x8, x, y', n⟩ := by
  obtain rfl | rfl := hn <;> rfl

/-- Among words that are instructions, those that say the same have the same text. -/
theorem text_eq_iff_alike (hi : decode w addr = .ok i) (hj : decode w' addr' = .ok j) :
    i.text = j.text ↔ Alike w w' := by
  constructor
  · intro htext
    rw [← text_inj htext] at hj
    exact alike_of_decode hi hj
  · intro halike
    rw [decode_eq_ok_iff] at hi hj
    cases halike with
    | same => rw [Option.some_inj.mp (hi.symm.trans hj)]
    | shift x y y' n hn =>
      rw [Fields.ofWord_toWord] at hi hj
      rw [ofFields?_shift hn, hj] at hi
      rw [Option.some_inj.mp hi]

end Instruction

end Chip8Vm
