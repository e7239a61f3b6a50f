import Chip8Vm.Proofs.Ram.Outside

/-!
# Chip8Vm.Proofs.Ram.Written

Memory inside of what is written.

Bytes that are written are read back where they were put, unless a later one of them goes
around memory into the same cell (`read_writeAll_of_last`); of up to 4096 bytes none does
(`read_writeAll_getElem`).  So bytes come back as they were written (`readMany_writeAll`), and
writing what is there already changes nothing (`writeAll_readMany`).  Bytes that end below the
top of memory go into the cells of their numbers and into no others (`getElem?_writeAll`).
A word is read big-endian from two cells that follow each other (`toNat_word_eq`).
-/

namespace Chip8Vm.Ram

variable {a q : UInt16} {bytes : List UInt8} {j k n : Nat}

/-! ## Bytes that are written -/

/-- Of the bytes that are written into a cell the last one stays. -/
theorem read_writeAll_of_last (r : Ram) (hj : j < bytes.length)
    (hmeans : (a.toNat + j) % 4096 = q.toNat % 4096)
    (hlast : ∀ k, j < k → k < bytes.length → (a.toNat + k) % 4096 ≠ q.toNat % 4096) :
    (r.writeAll a bytes).read q = bytes[j] := by
  induction bytes generalizing r a j with
  | nil => exact absurd hj (Nat.not_lt_zero j)
  | cons b bytes ih =>
      cases j with
      | zero =>
          have hrest : ¬Covers (a + 1) bytes.length q := by
            rintro ⟨k, hk, hcovers⟩
            rw [toNat_add_one_add] at hcovers
            exact hlast (k + 1) (Nat.zero_lt_succ k) (Nat.succ_lt_succ hk) hcovers
          rw [writeAll, read_writeAll _ hrest, read_write, if_pos (cell_eq_iff.mpr hmeans)]
          rfl
      | succ j =>
          refine ih (r.write a b) (Nat.lt_of_succ_lt_succ hj) ?_ fun k hjk hk => ?_
          · rwa [toNat_add_one_add]
          · rw [toNat_add_one_add]
            exact hlast (k + 1) (Nat.succ_lt_succ hjk) (Nat.succ_lt_succ hk)

/-- Up to 4096 bytes go into as many cells. -/
theorem read_writeAll_getElem (r : Ram) (hlength : bytes.length ≤ 4096) (hj : j < bytes.length)
    (hmeans : (a.toNat + j) % 4096 = q.toNat % 4096) :
    (r.writeAll a bytes).read q = bytes[j] :=
  read_writeAll_of_last r hj hmeans fun k hjk hk => by omega

/-! ## Reading and writing together -/

theorem getElem_readMany (r : Ram) (a : UInt16) (hj : j < (r.readMany a n).length) :
    (r.readMany a n)[j] = r.read (a + UInt16.ofNat j) := by
  induction n generalizing a j with
  | zero => exact absurd hj (Nat.not_lt_zero j)
  | succ n ih =>
      cases j with
      | zero => exact congrArg r.read (UInt16.add_zero a).symm
      | succ j =>
          rw [length_readMany] at hj
          have hrest : j < (r.readMany (a + 1) n).length := by
            rw [length_readMany]
            exact Nat.lt_of_succ_lt_succ hj
          rw [← add_one_add_ofNat]
          exact ih (a + 1) hrest

theorem toNat_add_ofNat (a : UInt16) (j : Nat) :
    (a + UInt16.ofNat j).toNat % 4096 = (a.toNat + j) % 4096 := by
  rw [UInt16.toNat_add, UInt16.toNat_ofNat']
  omega

/-- Bytes that were written are read as they were. -/
theorem readMany_writeAll (r : Ram) (a : UInt16) (hlength : bytes.length ≤ 4096) :
    (r.writeAll a bytes).readMany a bytes.length = bytes := by
  apply List.ext_getElem
  · rw [length_readMany]
  · intro j _ hj
    rw [getElem_readMany]
    exact read_writeAll_getElem r hlength hj (toNat_add_ofNat a j).symm

theorem write_read (r : Ram) (a : UInt16) : r.write a (r.read a) = r := by
  rw [write, read, Vector.set_getElem_self]

/-- Writing what was read changes nothing. -/
theorem writeAll_readMany (r : Ram) (a : UInt16) (n : Nat) :
    r.writeAll a (r.readMany a n) = r := by
  induction n generalizing a with
  | zero => rfl
  | succ n ih => rw [readMany, writeAll, write_read, ih]

/-! ## Cells by their numbers -/

theorem getElem?_cell (r : Ram) (q : UInt16) : r.cells[q.toNat % 4096]? = some (r.read q) :=
  Vector.getElem?_eq_getElem (Nat.mod_lt _ (by decide))

/-- A cell is read at the address of its number. -/
theorem getElem?_cells (r : Ram) (hk : k < 4096) :
    r.cells[k]? = some (r.read (UInt16.ofNat k)) := by
  have hcell : (UInt16.ofNat k).toNat % 4096 = k := by
    rw [UInt16.toNat_ofNat']
    omega
  rw [← getElem?_cell, hcell]

/-- Up to 4096 bytes go into cells that follow each other around memory. -/
theorem getElem?_writeAll_around (r : Ram) (a : UInt16) (hlength : bytes.length ≤ 4096)
    (hj : j < bytes.length) :
    (r.writeAll a bytes).cells[(a.toNat + j) % 4096]? = some bytes[j] := by
  have hcell : (a.toNat + j) % 4096 < 4096 := Nat.mod_lt _ (by decide)
  have haddress : (UInt16.ofNat ((a.toNat + j) % 4096)).toNat = (a.toNat + j) % 4096 := by
    rw [UInt16.toNat_ofNat']
    omega
  rw [getElem?_cells _ hcell, read_writeAll_getElem r hlength hj (by omega)]

/-- Bytes that end below the top of memory go into the cells from their address on, and leave
the others. -/
theorem getElem?_writeAll (r : Ram) (hfits : a.toNat + bytes.length ≤ 4096) (k : Nat) :
    (r.writeAll a bytes).cells[k]? =
      if a.toNat ≤ k ∧ k < a.toNat + bytes.length then bytes[k - a.toNat]? else r.cells[k]? := by
  by_cases hk : k < 4096
  · have haddress : (UInt16.ofNat k).toNat = k := by
      rw [UInt16.toNat_ofNat']
      omega
    rw [getElem?_cells _ hk, getElem?_cells _ hk]
    split
    · next hinside =>
        have hj : k - a.toNat < bytes.length := by omega
        rw [List.getElem?_eq_getElem hj]
        exact congrArg some (read_writeAll_getElem r (by omega) hj (by omega))
    · next houtside =>
        refine congrArg some (read_writeAll r ?_)
        rintro ⟨j, hj, hmeans⟩
        omega
  · rw [if_neg (by omega), Vector.getElem?_eq_none (by omega), Vector.getElem?_eq_none (by omega)]

/-! ## Words -/

/-- A word takes all of both bytes. -/
theorem toNat_word_eq (r : Ram) (q : UInt16) :
    (r.word q).toNat = 256 * (r.read q).toNat + (r.read (q + 1)).toNat := by
  have hhigh := (r.read q).toNat_lt
  have hlow := (r.read (q + 1)).toNat_lt
  rw [word, UInt16.toNat_ofNat']
  omega

end Chip8Vm.Ram
