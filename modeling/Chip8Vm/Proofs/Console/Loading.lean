import Chip8Vm.Proofs.Console.Operation
import Chip8Vm.Proofs.Ram.Written

/-!
# Chip8Vm.Proofs.Console.Loading

Programs are loaded whole or not at all.

Reading comes first, then the size, and only then is anything written; so a program that cannot
be read to its end, and one that does not fit, leave memory as it was.  A program that fits
never goes around the top of memory, though writing would (`getElem?_writeAll`).  `Ram.Loads`
says what loading comes to, `Ram.loads_loadWithin` that it does, and `load_all_or_nothing` that
the rest of the console knows nothing of it.
-/

namespace Chip8Vm

namespace Ram

/-- What comes of loading a program at `base` into a memory: the answer, and the memory after
it. -/
structure Loads (r : Ram) (base : UInt16) (s : Source) (answer : Except Fault Nat) (r' : Ram) :
    Prop where
  /-- A source that fails is a fault with its text, however much was read before. -/
  unreadable_iff : ∀ text, answer = .error (.io text) ↔ s.failure = some text
  /-- A program is refused if it goes past the top of memory. -/
  tooLarge_iff : ∀ size limit, answer = .error (.programTooLarge size limit) ↔
    s.failure = none ∧ s.bytes.length > 4096 - base.toNat ∧
      size = s.bytes.length ∧ limit = 4096 - base.toNat
  loaded_iff : ∀ n, answer = .ok n ↔
    s.failure = none ∧ s.bytes.length ≤ 4096 - base.toNat ∧ n = s.bytes.length
  /-- After a fault memory is as it was. -/
  nothing : ∀ f, answer = .error f → r' = r
  /-- Every byte of the program is in its cell. -/
  all : ∀ n, answer = .ok n →
    ∀ (j : Nat) (hj : j < s.bytes.length), r'.cells[base.toNat + j]? = some s.bytes[j]
  /-- The cells before the program and behind it are as they were. -/
  others : ∀ n, answer = .ok n →
    ∀ k, k < base.toNat ∨ base.toNat + s.bytes.length ≤ k → r'.cells[k]? = r.cells[k]?

theorem loads_loadWithin (r : Ram) {base : UInt16} (hbase : base.toNat ≤ 4096) (s : Source) :
    r.Loads base s (r.loadWithin base (4096 - base.toNat) s).1
      (r.loadWithin base (4096 - base.toNat) s).2 := by
  unfold loadWithin
  cases hfailure : s.failure with
  | some text =>
      exact {
        unreadable_iff := by simp [hfailure]
        tooLarge_iff := by simp [hfailure]
        loaded_iff := by simp [hfailure]
        nothing := fun _ _ => rfl
        all := nofun
        others := nofun }
  | none =>
      by_cases hlarge : s.bytes.length > 4096 - base.toNat
      · simp only [if_pos hlarge]
        exact {
          unreadable_iff := by simp [hfailure]
          tooLarge_iff := by simp [hfailure, hlarge, eq_comm]
          loaded_iff := by simp [hfailure, hlarge]
          nothing := fun _ _ => rfl
          all := nofun
          others := nofun }
      · have hfits : base.toNat + s.bytes.length ≤ 4096 := by omega
        simp only [if_neg hlarge]
        exact {
          unreadable_iff := by simp [hfailure]
          tooLarge_iff := by simp [hfailure, hlarge]
          loaded_iff := by simp [hfailure, Nat.le_of_not_lt hlarge, eq_comm]
          nothing := nofun
          all := fun _ _ j hj => by
            rw [getElem?_writeAll r hfits, if_pos (by omega), Nat.add_sub_cancel_left,
              List.getElem?_eq_getElem hj]
          others := fun _ _ k hk => by
            rw [getElem?_writeAll r hfits, if_neg (by omega)] }

end Ram

namespace Console

variable {w h : Nat}

/-- Loading changes the memory of a console and its journal, and nothing else. -/
theorem load_eq (c : Console w h) (s : Source) :
    ∃ notes, c.load s =
      ((c.machine.ram.load s).1,
        { c with machine := { c.machine with ram := (c.machine.ram.load s).2 } }.note notes) := by
  unfold load
  obtain ⟨_ | n, ram⟩ := c.machine.ram.load s
  · exact ⟨[], rfl⟩
  · exact ⟨[.loaded n Ram.programStart], rfl⟩

/-- **Programs are loaded whole or not at all.** From every address up to the top of memory on,
loading has an answer.  It is a fault of the reader exactly if the source fails, and the fault
of a program that is too large exactly if the source does not fail and has more bytes than
there are cells from that address on; then memory is as it was.  Otherwise it is the number of
bytes, which are in these cells one after the other, and all other cells are as they were.  A
console loads at the start of programs, and whatever comes of it, the registers, the picture,
the pad and all else but memory and the journal are as before. -/
theorem load_all_or_nothing (r : Ram) {base : UInt16} (hbase : base.toNat ≤ 4096) (s : Source)
    (c : Console w h) :
    (∃ answer r', r.loadAt? base s = some (answer, r') ∧ r.Loads base s answer r') ∧
    c.machine.ram.Loads Ram.programStart s (c.load s).1 (c.load s).2.machine.ram ∧
    ∃ ram journal, (c.load s).2 =
      { c with machine := { c.machine with ram := ram }, journal := journal } := by
  refine ⟨?_, ?_, ?_⟩
  · exact ⟨_, _, if_pos (.inr hbase), r.loads_loadWithin hbase s⟩
  · obtain ⟨notes, hload⟩ := c.load_eq s
    rw [hload]
    exact c.machine.ram.loads_loadWithin (by decide) s
  · obtain ⟨notes, hload⟩ := c.load_eq s
    rw [hload]
    exact ⟨_, _, rfl⟩

/-- Two bytes fill memory to the top, and do not go on at its bottom. -/
theorem load_all_or_nothing_top :
    (0xffe : UInt16).toNat ≤ 4096 ∧
    ∃ r', Ram.initial.loadAt? 0xffe { bytes := [0xaa, 0xbb] } = some (.ok 2, r') ∧
      r'.cells[0xffe]? = some 0xaa ∧ r'.cells[0xfff]? = some 0xbb ∧ r'.cells[0]? = some 0 := by
  have hbase : (0xffe : UInt16).toNat ≤ 4096 := by decide
  obtain ⟨⟨answer, r', hload, hloads⟩, -⟩ :=
    load_all_or_nothing Ram.initial hbase { bytes := [0xaa, 0xbb] } (initial 8 4 0)
  obtain rfl : answer = .ok 2 := (hloads.loaded_iff 2).mpr ⟨rfl, by decide, rfl⟩
  refine ⟨hbase, r', hload, ?_, ?_, ?_⟩
  · exact hloads.all 2 rfl 0 (by decide)
  · exact hloads.all 2 rfl 1 (by decide)
  · rw [hloads.others 2 rfl 0 (by decide)]
    decide +kernel

end Console

end Chip8Vm
