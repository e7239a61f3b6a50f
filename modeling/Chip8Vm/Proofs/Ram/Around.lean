import Mathlib.Data.Finset.Max
import Chip8Vm.Proofs.Ram.Written

/-!
# Chip8Vm.Proofs.Ram.Around

Writing around memory, as often as the bytes last.

Each byte goes to the address of its own number (`writeAll_eq_foldl`).  Numbers are cut down to
sixteen bits, and sums to sixteen and then to twelve, but all that this comes to is one remainder:
byte `j` from `a` on goes into the cell `(a + j) % 4096`.  So a cell holds the last of the bytes
that go into it, and what it held before if none does (`last_byte_stays`).
-/

namespace Chip8Vm.Ram

variable {a q : UInt16} {bytes : List UInt8} {j : Nat}

/-! ## Byte by byte -/

theorem writeAll_eq_foldl_zipIdx (r : Ram) (a : UInt16) (bytes : List UInt8) (k : Nat) :
    r.writeAll (a + UInt16.ofNat k) bytes =
      (bytes.zipIdx k).foldl (fun r entry => r.write (a + UInt16.ofNat entry.2) entry.1) r := by
  induction bytes generalizing r k with
  | nil => rfl
  | cons b bytes ih =>
      have hnext : a + UInt16.ofNat k + 1 = a + UInt16.ofNat (k + 1) := by
        rw [UInt16.ofNat_add, UInt16.add_assoc]
        rfl
      rw [writeAll, hnext, ih, List.zipIdx_cons, List.foldl_cons]

/-- The bytes are written one after the other, each at the address of its number. -/
theorem writeAll_eq_foldl (r : Ram) (a : UInt16) (bytes : List UInt8) :
    r.writeAll a bytes =
      bytes.zipIdx.foldl (fun r entry => r.write (a + UInt16.ofNat entry.2) entry.1) r := by
  have hfirst : a + UInt16.ofNat 0 = a := UInt16.add_zero a
  rw [← writeAll_eq_foldl_zipIdx, hfirst]

/-! ## The last one -/

/-- The numbers of those of `n` bytes from `a` on that go into the cell of `q`. -/
def numbersInto (a : UInt16) (n : Nat) (q : UInt16) : Finset Nat :=
  (Finset.range n).filter fun j => (a.toNat + j) % 4096 = q.toNat % 4096

theorem mem_numbersInto {n : Nat} :
    j ∈ numbersInto a n q ↔ j < n ∧ (a.toNat + j) % 4096 = q.toNat % 4096 := by
  simp [numbersInto]

/-- One of the bytes is the last that goes into the cell, or none does. -/
theorem exists_isGreatest_or_not_covers (a : UInt16) (n : Nat) (q : UInt16) :
    (∃ j, IsGreatest {j | j < n ∧ (a.toNat + j) % 4096 = q.toNat % 4096} j) ∨ ¬Covers a n q := by
  obtain hnone | hsome := (numbersInto a n q).eq_empty_or_nonempty
  · refine .inr fun ⟨j, hj, hmeans⟩ => ?_
    have hmem : j ∈ numbersInto a n q := mem_numbersInto.mpr ⟨hj, hmeans⟩
    rw [hnone] at hmem
    exact Finset.notMem_empty j hmem
  · have hgreatest := Finset.isGreatest_max' _ hsome
    exact .inl ⟨_, mem_numbersInto.mp hgreatest.1, fun k hk => hgreatest.2 (mem_numbersInto.mpr hk)⟩

theorem getElem?_of_isGreatest (r : Ram)
    (hj : IsGreatest {j | j < bytes.length ∧ (a.toNat + j) % 4096 = q.toNat % 4096} j) :
    bytes[j]? = some ((r.writeAll a bytes).read q) := by
  obtain ⟨⟨hlt, hmeans⟩, hlast⟩ := hj
  have hread : (r.writeAll a bytes).read q = bytes[j] :=
    read_writeAll_of_last r hlt hmeans fun k hjk hk hmeans' =>
      Nat.not_le.mpr hjk (hlast ⟨hk, hmeans'⟩)
  rw [hread, List.getElem?_eq_getElem hlt]

/-! ## The next one -/

/-- The byte after another is in the next cell around memory. -/
theorem read_add_one (r : Ram) {p : UInt16} (hp : p.toNat % 4096 = (q.toNat + 1) % 4096) :
    r.read (q + 1) = r.read p := by
  have hcell : (q + 1).toNat % 4096 = p.toNat % 4096 := by
    rw [hp]
    exact toNat_add_one_add q 0
  apply Option.some_inj.mp
  rw [← getElem?_cell, ← getElem?_cell, hcell]

/-! ## The law of writing -/

/-- **The last byte stays.** Write any bytes, however many, from any address of any memory on: one
after the other, each at the address of its number.  Then look at any address.  Of the bytes that
went into its cell the one with the greatest number is there, and if none did, what was in the
cell before.  The word there is made of this byte and, below it, of the one in the cell that
follows around memory, at whichever address that is looked at. -/
theorem last_byte_stays (r : Ram) (a : UInt16) (bytes : List UInt8) :
    r.writeAll a bytes =
      bytes.zipIdx.foldl (fun r entry => r.write (a + UInt16.ofNat entry.2) entry.1) r ∧
    ∀ q : UInt16,
      ((∃ j, IsGreatest {j | j < bytes.length ∧ (a.toNat + j) % 4096 = q.toNat % 4096} j ∧
          bytes[j]? = some ((r.writeAll a bytes).read q)) ∨
        (∀ j < bytes.length, (a.toNat + j) % 4096 ≠ q.toNat % 4096) ∧
          r.cells[q.toNat % 4096]? = some ((r.writeAll a bytes).read q)) ∧
      ((r.writeAll a bytes).word q).toNat =
        256 * ((r.writeAll a bytes).read q).toNat + ((r.writeAll a bytes).read (q + 1)).toNat ∧
      ∀ p : UInt16, p.toNat % 4096 = (q.toNat + 1) % 4096 →
        (r.writeAll a bytes).read (q + 1) = (r.writeAll a bytes).read p := by
  refine ⟨writeAll_eq_foldl r a bytes, fun q => ⟨?_, toNat_word_eq _ q, fun p => read_add_one _⟩⟩
  obtain ⟨j, hj⟩ | hnone := exists_isGreatest_or_not_covers a bytes.length q
  · exact .inl ⟨j, hj, getElem?_of_isGreatest r hj⟩
  · refine .inr ⟨fun j hj hmeans => hnone ⟨j, hj, hmeans⟩, ?_⟩
    rw [read_writeAll r hnone, getElem?_cell]

/-- More bytes than there are cells: the last two go where the first two went. -/
def overlong : List UInt8 := List.replicate 4096 0xaa ++ [0xbb, 0xcc]

/-- They are written from an address past the top on, and the word in the last cell goes on in the
first one. -/
theorem last_byte_stays_overlong :
    (initial.writeAll 0x1ffe overlong).read 0xfff = 0xcc ∧
      (initial.writeAll 0x1ffe overlong).read 0 = 0xaa ∧
      ((initial.writeAll 0x1ffe overlong).word 0xfff).toNat = 0xccaa := by
  have hlength : overlong.length = 4098 := by
    rw [overlong, List.length_append, List.length_replicate]
    rfl
  have hthird : overlong[2]? = some 0xaa := by
    rw [overlong, List.getElem?_append_left (by rw [List.length_replicate]; decide),
      List.getElem?_replicate, if_pos (by decide)]
  have hend : overlong[4097]? = some 0xcc := by
    rw [overlong, List.getElem?_append_right (by rw [List.length_replicate]; decide),
      List.length_replicate]
    rfl
  obtain ⟨-, hlaw⟩ := last_byte_stays initial 0x1ffe overlong
  rw [hlength] at hlaw
  have hlast : (initial.writeAll 0x1ffe overlong).read 0xfff = 0xcc := by
    obtain ⟨j, ⟨⟨hj, hmeans⟩, hgreatest⟩, hread⟩ | ⟨hnone, -⟩ := (hlaw 0xfff).1
    · have hle : 4097 ≤ j := hgreatest ⟨by decide, by decide⟩
      obtain rfl : j = 4097 := by omega
      exact Option.some_inj.mp (hread.symm.trans hend)
    · exact absurd (by decide) (hnone 4097 (by decide))
  have hfirst : (initial.writeAll 0x1ffe overlong).read 0 = 0xaa := by
    obtain ⟨j, ⟨⟨hj, hmeans⟩, -⟩, hread⟩ | ⟨hnone, -⟩ := (hlaw 0).1
    · simp only [UInt16.reduceToNat] at hmeans
      obtain rfl : j = 2 := by omega
      exact Option.some_inj.mp (hread.symm.trans hthird)
    · exact absurd (by decide) (hnone 2 (by decide))
  refine ⟨hlast, hfirst, ?_⟩
  rw [(hlaw 0xfff).2.1, (hlaw 0xfff).2.2 0 (by decide), hlast, hfirst]
  decide

end Chip8Vm.Ram
