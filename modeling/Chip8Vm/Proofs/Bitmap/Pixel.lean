import Mathlib.Data.List.Nodup
import Chip8Vm.Bitmap.Sprite

/-!
# Chip8Vm.Proofs.Bitmap.Pixel

Pixels by their coordinates and by their numbers.

A coordinate on the picture has a number of its own below `w * h` (`index_lt`,
`index_inj`), and the numbers taken apart are the coordinates row by row
(`coordinates_eq`); pictures with the same pixels are the same (`ext_isLit`).  A frame
that `Shows` a picture holds its lit pixels, each once and row by row, and `lit` is such
a frame (`shows_lit`).  A sprite touches no pixel twice (`nodup_pixels`), so whether it
collides can be found out while it is drawn (`foldl_flipping`).
-/

namespace Chip8Vm

namespace Bitmap

variable {w h : Nat}

theorem index_lt {x y : Nat} (hx : x < w) (hy : y < h) : index w x y < w * h := by
  calc
    y * w + x < y * w + w := Nat.add_lt_add_left hx _
    _ = (y + 1) * w := (Nat.succ_mul y w).symm
    _ ≤ h * w := Nat.mul_le_mul_right w hy
    _ = w * h := Nat.mul_comm h w

theorem index_mod {x y : Nat} (hx : x < w) : index w x y % w = x := by
  rw [index, Nat.mul_comm, Nat.mul_add_mod, Nat.mod_eq_of_lt hx]

theorem index_div {x y : Nat} (hx : x < w) : index w x y / w = y := by
  have hpos : 0 < w := Nat.lt_of_le_of_lt (Nat.zero_le x) hx
  rw [index, Nat.mul_comm, Nat.mul_add_div hpos, Nat.div_eq_of_lt hx, Nat.add_zero]

/-- Two pixels of one number are the same pixel. -/
theorem index_inj {p q : Nat × Nat} (hp : p.1 < w) (hq : q.1 < w)
    (h : index w p.1 p.2 = index w q.1 q.2) : p = q := by
  have hx : p.1 = q.1 := by rw [← index_mod hp (y := p.2), h, index_mod hq]
  have hy : p.2 = q.2 := by rw [← index_div hp (y := p.2), h, index_div hq]
  exact Prod.ext hx hy

/-- Every number is that of its remainder and its quotient. -/
theorem index_mod_div (w k : Nat) : index w (k % w) (k / w) = k := by
  rw [index, Nat.mul_comm]
  exact Nat.div_add_mod k w

/-- The numbers below `w * h` taken apart are the coordinates. -/
theorem coordinates_eq (hw : 0 < w) (h : Nat) :
    coordinates w h = (List.range (w * h)).map fun k => (k % w, k / w) := by
  rw [coordinates, if_neg (Nat.ne_of_gt hw)]
  induction h with
  | zero => rfl
  | succ h ih =>
      rw [List.range_succ, List.flatMap_append, ih, Nat.mul_succ, List.range_add, List.map_append,
        List.flatMap_singleton, List.map_map]
      congr 1
      refine List.map_congr_left fun x hx => ?_
      have hx : x < w := List.mem_range.mp hx
      simp only [Function.comp_apply, Nat.mul_add_mod, Nat.mul_add_div hw, Nat.mod_eq_of_lt hx,
        Nat.div_eq_of_lt hx, Nat.add_zero]

/-! ## Lit pixels -/

/-- The order of pixels row by row, and from left to right in a row. -/
def RowMajor (p q : Nat × Nat) : Prop := p.2 < q.2 ∨ p.2 = q.2 ∧ p.1 < q.1

/-- A frame that holds the lit pixels of a picture and no others, in their strict order and so
each of them once. -/
structure Shows (frame : List (Nat × Nat)) (b : Bitmap w h) : Prop where
  mem_iff : ∀ p : Nat × Nat, p ∈ frame ↔ (p.1 < w ∧ p.2 < h) ∧ b.isLit p = true
  ordered : frame.Pairwise RowMajor

theorem mem_coordinates {p : Nat × Nat} : p ∈ coordinates w h ↔ p.1 < w ∧ p.2 < h := by
  unfold coordinates
  split
  · next hw =>
      subst hw
      simp
  · simp only [List.mem_flatMap, List.mem_map, List.mem_range]
    constructor
    · rintro ⟨y, hy, x, hx, rfl⟩
      exact ⟨hx, hy⟩
    · rintro ⟨hx, hy⟩
      exact ⟨p.2, hy, p.1, hx, rfl⟩

theorem pairwise_coordinates (w h : Nat) : (coordinates w h).Pairwise RowMajor := by
  unfold coordinates
  split
  · exact .nil
  · rw [List.pairwise_flatMap]
    constructor
    · intro y _
      rw [List.pairwise_map]
      exact List.pairwise_lt_range.imp fun hx => .inr ⟨rfl, hx⟩
    · refine List.pairwise_lt_range.imp fun hrow p hp q hq => ?_
      obtain ⟨x, -, rfl⟩ := List.mem_map.mp hp
      obtain ⟨x', -, rfl⟩ := List.mem_map.mp hq
      exact .inl hrow

theorem shows_lit (b : Bitmap w h) : Shows b.lit b where
  mem_iff p := by rw [lit, List.mem_filter, mem_coordinates]
  ordered := (pairwise_coordinates w h).filter _

theorem isLit_blank (w h : Nat) (p : Nat × Nat) : (blank w h).isLit p = false := by
  simp only [isLit, get?, blank, Vector.getElem?_replicate]
  split <;> rfl

theorem lit_blank (w h : Nat) : (blank w h).lit = [] := by
  rw [lit, List.filter_eq_nil_iff]
  intro p _
  simp [isLit_blank]

theorem isLit_eq (b : Bitmap w h) {p : Nat × Nat} (hp : index w p.1 p.2 < w * h) :
    b.isLit p = b.cells[index w p.1 p.2] := by
  rw [isLit, get?, Vector.getElem?_eq_getElem hp, Option.getD_some]

/-- Two pictures with the same lit pixels are the same picture. -/
theorem ext_isLit {b b' : Bitmap w h}
    (hsame : ∀ p : Nat × Nat, p.1 < w ∧ p.2 < h → b.isLit p = b'.isLit p) : b = b' := by
  suffices hcells : b.cells = b'.cells by
    cases b
    cases b'
    exact congrArg mk hcells
  apply Vector.ext
  intro k hk
  have hw : 0 < w := Nat.pos_of_lt_mul_right hk
  have hnumber := index_mod_div w k
  have hpixel : k % w < w ∧ k / w < h := ⟨Nat.mod_lt k hw, Nat.div_lt_of_lt_mul hk⟩
  have hlit := hsame (k % w, k / w) hpixel
  rw [isLit_eq b (index_lt hpixel.1 hpixel.2), isLit_eq b' (index_lt hpixel.1 hpixel.2)] at hlit
  simpa only [hnumber] using hlit

/-! ## Flipping -/

/-- A flipped pixel changes and no other does. -/
theorem isLit_flip (b : Bitmap w h) {p q : Nat × Nat} (hp : p.1 < w ∧ p.2 < h)
    (hq : q.1 < w ∧ q.2 < h) : (b.flip p).isLit q = if p = q then !b.isLit q else b.isLit q := by
  have hpi := index_lt hp.1 hp.2
  have hqi := index_lt hq.1 hq.2
  rw [isLit_eq _ hqi, isLit_eq _ hqi]
  simp only [flip, dif_pos hpi, Vector.getElem_set]
  by_cases hpq : p = q
  · subst hpq
    rw [if_pos rfl, if_pos rfl]
  · have hne : index w p.1 p.2 ≠ index w q.1 q.2 := fun h => hpq (index_inj hp.1 hq.1 h)
    rw [if_neg hne, if_neg hpq]

/-- Flip a pixel and keep in mind whether it was lit. -/
def flipping (s : Bool × Bitmap w h) (p : Nat × Nat) : Bool × Bitmap w h :=
  (s.1 || s.2.isLit p, s.2.flip p)

/-- Where no pixel is flipped twice, a pixel that is flipped off was lit at the start. -/
theorem foldl_flipping (touched : List (Nat × Nat)) (hnodup : touched.Nodup)
    (hinside : ∀ p ∈ touched, p.1 < w ∧ p.2 < h) (s : Bool × Bitmap w h) :
    touched.foldl flipping s = (s.1 || touched.any s.2.isLit, touched.foldl flip s.2) := by
  induction touched generalizing s with
  | nil => simp
  | cons p rest ih =>
      obtain ⟨hp, hrest⟩ := List.nodup_cons.mp hnodup
      have hinside' : ∀ q ∈ rest, q.1 < w ∧ q.2 < h := fun q hq =>
        hinside q (List.mem_cons_of_mem p hq)
      have hlater : rest.any (s.2.flip p).isLit = rest.any s.2.isLit := by
        rw [Bool.eq_iff_iff, List.any_eq_true, List.any_eq_true]
        refine exists_congr fun q => and_congr_right fun hq => ?_
        have hpq : p ≠ q := fun h => hp (h ▸ hq)
        rw [isLit_flip s.2 (hinside p List.mem_cons_self) (hinside' q hq), if_neg hpq]
      rw [List.foldl_cons, ih hrest hinside', List.foldl_cons, List.any_cons]
      simp only [flipping, hlater, Bool.or_assoc]

end Bitmap

namespace Sprite

/-- The offsets of a row's set bits. -/
def rowOffsets (entry : UInt8 × Nat) : List (Nat × Nat) :=
  ((List.range 8).filter (bit entry.1)).map fun c => (c, entry.2)

theorem offsets_eq (sprite : List UInt8) :
    offsets sprite = ((sprite.take maxRows).zipIdx).flatMap rowOffsets :=
  rfl

theorem nodup_offsets (sprite : List UInt8) : (offsets sprite).Nodup := by
  rw [offsets_eq, List.nodup_flatMap]
  constructor
  · intro entry _
    refine List.Nodup.map (fun c d hcd => ?_) (List.nodup_range.filter _)
    exact congrArg Prod.fst hcd
  · -- rows have different numbers
    have hrows : ((sprite.take maxRows).zipIdx.map Prod.snd).Nodup := by
      rw [List.zipIdx_map_snd]
      exact List.nodup_range'
    refine (List.pairwise_map.mp hrows).imp fun {a b} hab => ?_
    refine List.disjoint_left.mpr fun p hpa hpb => ?_
    obtain ⟨c, -, rfl⟩ := List.mem_map.mp hpa
    obtain ⟨d, -, hd⟩ := List.mem_map.mp hpb
    exact hab (congrArg Prod.snd hd).symm

/-- A sprite touches no pixel twice. -/
theorem nodup_pixels (w h ox oy : Nat) (sprite : List UInt8) :
    (pixels w h ox oy sprite).Nodup := by
  refine List.Nodup.filter _ (List.Nodup.map (fun o p hop => ?_) (nodup_offsets sprite))
  simp only [Prod.mk.injEq, Nat.add_left_cancel_iff] at hop
  exact Prod.ext hop.1 hop.2

/-- A sprite touches only pixels of the picture. -/
theorem lt_of_mem_pixels {w h ox oy : Nat} {sprite : List UInt8} {p : Nat × Nat}
    (hp : p ∈ pixels w h ox oy sprite) : p.1 < w ∧ p.2 < h := by
  have hinside := (List.mem_filter.mp hp).2
  rwa [Bool.and_eq_true, decide_eq_true_eq, decide_eq_true_eq] at hinside

end Sprite

end Chip8Vm
