import Chip8Vm.Proofs.Bare.Simulation
import Chip8Vm.Proofs.HexPad.History

/-!
# Chip8Vm.Proofs.Ram.Calls

Whatever is asked of memory.

Every address means a cell, so no access to memory goes wrong.  A base, from which programs are
loaded, is not cut down to a cell where the room above it is computed, so beyond the top of memory
that room is less than nothing, and there is no answer to a program that could be read.

* `call?_eq_none_iff` — the one call that is not answered;
* `answers?_bare` — the same on plain arrays and words, where everything is checked;
* `answered_unless_past_top` — which sequences of calls are answered, and which programs are
  refused.
-/

namespace Chip8Vm

/-- Memory, and the address that programs are loaded at. -/
structure ProgramMemory where
  ram : Ram
  base : UInt16

namespace ProgramMemory

def initial : ProgramMemory where
  ram := .initial
  base := Ram.programStart

/-- What can be asked of memory. -/
inductive Call where
  | read (a : UInt16)
  | word (a : UInt16)
  | write (a : UInt16) (b : UInt8)
  | writeAll (a : UInt16) (bytes : List UInt8)
  | glyph (digit : UInt8)
  /-- Programs are loaded at another address from now on. -/
  | rebase (base : UInt16)
  | load (s : Source)

inductive Answer where
  | byte (b : UInt8)
  | word (v : UInt16)
  | address (a : UInt16)
  | done
  | loaded (outcome : Except Fault Nat)

/-- The answer of memory, and memory after it; none if there is no answer at all. -/
def call? (m : ProgramMemory) : Call → Option (Answer × ProgramMemory)
  | .read a => some (.byte (m.ram.read a), m)
  | .word a => some (.word (m.ram.word a), m)
  | .write a b => some (.done, { m with ram := m.ram.write a b })
  | .writeAll a bytes => some (.done, { m with ram := m.ram.writeAll a bytes })
  | .glyph digit => some (.address (Ram.glyphAddress digit), m)
  | .rebase base => some (.done, { m with base := base })
  | .load s => (m.ram.loadAt? m.base s).map fun out =>
      (.loaded out.1, { m with ram := out.2 })

/-- The answers to some calls, one after the other. -/
def answers? (m : ProgramMemory) : List Call → Option (List Answer)
  | [] => some []
  | c :: calls => do
    let out ← m.call? c
    let rest ← out.2.answers? calls
    some (out.1 :: rest)

end ProgramMemory

/-! ## On plain arrays and words -/

namespace Bare

/-- The answer of a machine's memory, with programs loaded at `base`; the machine and the base
after it. -/
def call? (m : Bare) (base : UInt16) :
    ProgramMemory.Call → Option (ProgramMemory.Answer × Bare × UInt16)
  | .read a => do
    let b ← m.read? a
    some (.byte b, m, base)
  | .word a => do
    let v ← m.word? a
    some (.word v, m, base)
  | .write a b => do
    let m ← m.write? a b
    some (.done, m, base)
  | .writeAll a bytes => do
    let m ← m.writeAll? a bytes
    some (.done, m, base)
  | .glyph digit => do
    let a ← glyphAddress? digit
    some (.address a, m, base)
  | .rebase base => some (.done, m, base)
  | .load s => do
    let out ← m.loadAt? base s
    some (.loaded out.1, out.2, base)

/-- The answers to some calls, one after the other. -/
def answers? (m : Bare) (base : UInt16) :
    List ProgramMemory.Call → Option (List ProgramMemory.Answer)
  | [] => some []
  | c :: calls => do
    let out ← m.call? base c
    let rest ← out.2.1.answers? out.2.2 calls
    some (out.1 :: rest)

variable {w h : Nat}

theorem call?_bare (machine : Machine w h) (base : UInt16) (c : ProgramMemory.Call) :
    machine.bare.call? base c = (ProgramMemory.call? ⟨machine.ram, base⟩ c).map fun out =>
      (out.1, ({ machine with ram := out.2.ram } : Machine w h).bare, out.2.base) := by
  cases c with
  | read a => simp [call?, ProgramMemory.call?]
  | word a => simp [call?, ProgramMemory.call?]
  | write a b => simp [call?, ProgramMemory.call?]
  | writeAll a bytes => simp [call?, ProgramMemory.call?]
  | glyph digit => simp [call?, ProgramMemory.call?]
  | rebase base => rfl
  | load s =>
      rw [call?, loadAt?_bare, ProgramMemory.call?]
      cases machine.ram.loadAt? base s <;> rfl

/-- Nothing that is checked goes wrong unless there is no answer without checks either. -/
theorem answers?_bare (machine : Machine w h) (base : UInt16) (calls : List ProgramMemory.Call) :
    machine.bare.answers? base calls = ProgramMemory.answers? ⟨machine.ram, base⟩ calls := by
  induction calls generalizing machine base with
  | nil => rfl
  | cons c calls ih =>
      rw [answers?, ProgramMemory.answers?, call?_bare]
      cases ProgramMemory.call? ⟨machine.ram, base⟩ c with
      | none => rfl
      | some out =>
          have hrest := ih { machine with ram := out.2.ram } out.2.base
          simp only [Option.map_some, Option.bind_eq_bind, Option.bind_some, hrest]

end Bare

/-! ## Histories -/

namespace ProgramMemory

variable {m m' : ProgramMemory} {a : Answer} {c : Call} {s : Source}

/-- The base that a call sets. -/
def Call.base? : Call → Option UInt16
  | .rebase base => some base
  | _ => none

/-- The base after some calls: the last one that was set. -/
def baseAfter (m : ProgramMemory) (calls : List Call) : UInt16 :=
  (lastOf Call.base? calls).getD m.base

theorem base_of_call? (hc : m.call? c = some (a, m')) : m'.base = c.base?.getD m.base := by
  cases c with
  | load s =>
      obtain ⟨out, -, hout⟩ := Option.map_eq_some_iff.mp hc
      cases hout
      rfl
  | _ =>
      cases hc
      rfl

theorem baseAfter_cons (hc : m.call? c = some (a, m')) (calls : List Call) :
    m.baseAfter (c :: calls) = m'.baseAfter calls := by
  rw [baseAfter, baseAfter, base_of_call? hc, ← List.singleton_append, lastOf_append,
    lastOf_singleton, Option.getD_or]

theorem load_eq_none_iff :
    m.call? (.load s) = none ↔ s.failure = none ∧ 4096 < m.base.toNat := by
  rw [call?, Option.map_eq_none_iff, Ram.loadAt?]
  simp

/-- The only call without an answer is to load a program that can be read beyond the top of
memory. -/
theorem call?_eq_none_iff :
    m.call? c = none ↔ ∃ s, c = .load s ∧ s.failure = none ∧ 4096 < m.base.toNat := by
  cases c with
  | load s => simp [load_eq_none_iff]
  | _ => simp [call?]

theorem answers?_eq_none_iff {calls : List Call} :
    m.answers? calls = none ↔ ∃ before s later, calls = before ++ .load s :: later ∧
      s.failure = none ∧ 4096 < (m.baseAfter before).toNat := by
  induction calls generalizing m with
  | nil => simp [answers?]
  | cons c calls ih =>
      cases hc : m.call? c with
      | none =>
          obtain ⟨s, rfl, hs⟩ := call?_eq_none_iff.mp hc
          have hnone : m.answers? (.load s :: calls) = none := by
            rw [answers?, hc]
            rfl
          exact iff_of_true hnone ⟨[], s, calls, rfl, hs⟩
      | some out =>
          obtain ⟨a, m'⟩ := out
          have hrest : m.answers? (c :: calls) = none ↔ m'.answers? calls = none := by
            cases hlater : m'.answers? calls <;> simp [answers?, hc, hlater]
          rw [hrest, ih]
          -- the first call sets the base for the others, so it joins the calls before the load
          constructor
          · rintro ⟨before, s, later, rfl, hs⟩
            exact ⟨c :: before, s, later, rfl, by rwa [baseAfter_cons hc]⟩
          · rintro ⟨before, s, later, hsplit, hs⟩
            cases before with
            | nil =>
                obtain ⟨rfl, -⟩ := List.cons.inj hsplit
                rw [load_eq_none_iff.mpr hs] at hc
                cases hc
            | cons first before =>
                obtain ⟨rfl, rfl⟩ := List.cons.inj hsplit
                exact ⟨before, s, later, rfl, by rwa [← baseAfter_cons hc]⟩

/-- A program that can be read and does not fit is refused, as long as its base is not beyond the
top of memory. -/
theorem load_eq_refused_iff (hs : s.failure = none)
    (hlarge : 4096 < m.base.toNat + s.bytes.length) :
    m.call? (.load s) = some
        (.loaded (.error (.programTooLarge s.bytes.length (4096 - m.base.toNat))), m) ↔
      m.base.toNat ≤ 4096 := by
  by_cases hbase : m.base.toNat ≤ 4096
  · have hroom : s.bytes.length > 4096 - m.base.toNat := by omega
    refine iff_of_true ?_ hbase
    rw [call?, Ram.loadAt?, if_pos (.inr hbase), Ram.loadWithin, hs]
    simp only [if_pos hroom, Option.map_some]
  · rw [load_eq_none_iff.mpr ⟨hs, Nat.lt_of_not_le hbase⟩]
    exact iff_of_false (Option.some_ne_none _).symm hbase

/-- **Every call is answered but for one.** Take any memory, any base and any sequence of calls.
There are answers to all of them unless somewhere in it a program is loaded that can be read, and
the base that was set last is beyond the top of memory.  A program that can be read and goes past
the top is refused with its size and the room there is, and changes nothing, exactly if its base
is not beyond the top.  On plain arrays and words, where every access, sum, product and difference
is checked, the answers are the same, and none is missing that is not missing here. -/
theorem answered_unless_past_top (m : ProgramMemory) (calls : List Call) :
    (m.answers? calls = none ↔ ∃ before s later, calls = before ++ .load s :: later ∧
      s.failure = none ∧ 4096 < (m.baseAfter before).toNat) ∧
    (∀ s, s.failure = none → 4096 < m.base.toNat + s.bytes.length →
      (m.call? (.load s) = some
          (.loaded (.error (.programTooLarge s.bytes.length (4096 - m.base.toNat))), m) ↔
        m.base.toNat ≤ 4096)) ∧
    ∀ {w h : Nat} (machine : Machine w h), machine.ram = m.ram →
      machine.bare.answers? m.base calls = m.answers? calls := by
  refine ⟨answers?_eq_none_iff, fun s => load_eq_refused_iff, fun machine hram => ?_⟩
  rw [Bare.answers?_bare, hram]

/-- Memory with room for a program of one byte. -/
def narrow : ProgramMemory := { initial with base := 0xfff }

/-- Two bytes do not fit there.  Then one byte at the top is refused too, and one beyond it is not
answered. -/
theorem answered_unless_past_top_narrow :
    narrow.call? (.load { bytes := [1, 2] }) =
        some (.loaded (.error (.programTooLarge 2 1)), narrow) ∧
      narrow.answers? [.load { bytes := [1, 2] }, .rebase 0x1000, .load { bytes := [3] }] ≠ none ∧
      narrow.answers? [.rebase 0x1001, .load { bytes := [3] }, .read 0] = none := by
  have hanswered : narrow.answers? [.load { bytes := [1, 2] }, .rebase 0x1000,
      .load { bytes := [3] }] = some [.loaded (.error (.programTooLarge 2 1)), .done,
        .loaded (.error (.programTooLarge 1 0))] := rfl
  refine ⟨?_, by rw [hanswered]; exact Option.some_ne_none _, ?_⟩
  · exact ((answered_unless_past_top narrow []).2.1 { bytes := [1, 2] } rfl (by decide)).mpr
      (by decide)
  · exact (answered_unless_past_top narrow _).1.mpr
      ⟨[.rebase 0x1001], { bytes := [3] }, [.read 0], rfl, rfl, by decide⟩

/-- A program of one byte does not fit beyond the top of memory, and there is no answer to it. -/
theorem load_past_top_unanswered :
    4096 < (0x1001 : UInt16).toNat + [0].length ∧
      initial.answers? [.rebase 0x1001] = some [.done] ∧
      initial.answers? [.rebase 0x1001, .load { bytes := [0] }] = none ∧
      initial.answers? [.rebase 0x1000, .load { bytes := [0] }] =
        some [.done, .loaded (.error (.programTooLarge 1 0))] :=
  ⟨by decide, rfl, rfl, rfl⟩

end ProgramMemory

end Chip8Vm
