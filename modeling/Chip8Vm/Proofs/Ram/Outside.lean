import Chip8Vm.Ram.Glyphs

/-!
# Chip8Vm.Proofs.Ram.Outside

Memory outside of what is written.

`Ram.Covers` says which addresses mean one of some cells that follow each other, also around
the top of memory.  Writing leaves every other byte as it was (`read_writeAll`), and loading a
program leaves all that lies below it (`read_load`).
-/

namespace Chip8Vm.Ram

variable {a q : UInt16} {n : Nat}

/-- Does `q` mean one of the `n` cells from `a` on? -/
def Covers (a : UInt16) (n : Nat) (q : UInt16) : Prop :=
  ∃ j < n, (a.toNat + j) % 4096 = q.toNat % 4096

instance decidableCovers (a : UInt16) (n : Nat) (q : UInt16) : Decidable (Covers a n q) :=
  inferInstanceAs (Decidable (∃ j < n, (a.toNat + j) % 4096 = q.toNat % 4096))

theorem cell_eq_iff : cell a = cell q ↔ a.toNat % 4096 = q.toNat % 4096 := by
  rw [Fin.ext_iff]
  rfl

/-- No cells mean nothing. -/
@[simp] theorem not_covers_zero : ¬Covers a 0 q := by
  rintro ⟨j, hj, -⟩
  exact Nat.not_lt_zero j hj

/-- Memory is addressed by twelve bits, so it does not matter that addresses have sixteen. -/
theorem toNat_add_one_add (a : UInt16) (j : Nat) :
    ((a + 1).toNat + j) % 4096 = (a.toNat + (j + 1)) % 4096 := by
  simp only [UInt16.toNat_add, UInt16.reduceToNat]
  omega

theorem covers_succ : Covers a (n + 1) q ↔ cell a = cell q ∨ Covers (a + 1) n q := by
  simp only [Covers, Nat.exists_lt_succ_left, Nat.add_zero, cell_eq_iff, toNat_add_one_add]

/-- What is written leaves the bytes outside of its cells as they were. -/
theorem read_writeAll (r : Ram) {bytes : List UInt8} (hq : ¬Covers a bytes.length q) :
    (r.writeAll a bytes).read q = r.read q := by
  induction bytes generalizing r a with
  | nil => rfl
  | cons b bytes ih =>
      rw [List.length_cons, covers_succ, not_or] at hq
      rw [writeAll, ih _ hq.2, read_write, if_neg hq.1]

/-- Loading a program, also one that cannot be loaded, leaves everything below it alone. -/
theorem read_load (r : Ram) (s : Source) (hq : q.toNat % 4096 < programStart.toNat) :
    (r.load s).2.read q = r.read q := by
  unfold load loadWithin
  split
  · rfl
  · split
    · rfl
    · next hfits =>
        refine read_writeAll r ?_
        rintro ⟨j, hj, hmeans⟩
        simp only [programStart, UInt16.reduceToNat] at hfits hmeans hq
        omega

theorem add_one_add_ofNat (a : UInt16) (j : Nat) :
    a + 1 + UInt16.ofNat j = a + UInt16.ofNat (j + 1) := by
  rw [UInt16.ofNat_add, UInt16.add_assoc, UInt16.add_comm 1]
  rfl

/-- Memories with the same bytes in some cells give the same when these are read together. -/
theorem readMany_congr {r s : Ram}
    (hsame : ∀ j < n, r.read (a + UInt16.ofNat j) = s.read (a + UInt16.ofNat j)) :
    r.readMany a n = s.readMany a n := by
  induction n generalizing a with
  | zero => rfl
  | succ n ih =>
      have hfirst : r.read a = s.read a := by simpa using hsame 0 (Nat.zero_lt_succ n)
      have hrest : r.readMany (a + 1) n = s.readMany (a + 1) n := ih fun j hj => by
        rw [add_one_add_ofNat]
        exact hsame (j + 1) (Nat.succ_lt_succ hj)
      rw [readMany, readMany, hfirst, hrest]

end Chip8Vm.Ram
