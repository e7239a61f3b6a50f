import Mathlib.Data.List.GetD
import Chip8Vm.Proofs.Bare.Picture

/-!
# Chip8Vm.Proofs.Bitmap.Blit

What drawing a sprite leaves, pixel by pixel.

A sprite whose corner lies on the picture covers the pixels under its set bits
(`Sprite.Covers`), and these are the pixels that drawing touches (`mem_pixels_iff`).  Each is
touched once, so exactly these are flipped (`isLit_blit`), and drawing collides if one of them
was lit before (`blit_collides_iff`).  No pixel is looked for outside of the picture and no
number overflows on the way, wherever the origin is (`blit_flips_covered`).
-/

namespace Chip8Vm

/-! ## What a sprite covers -/

/-- After how many origins along a dimension the first one comes again. -/
def OriginWrap.period (wrap : OriginWrap) (dimension : Nat) : Nat :=
  match wrap with
  | inherited => max 1 (dimension - 1)
  | modulo => max 1 dimension

theorem OriginWrap.apply_eq (wrap : OriginWrap) (origin dimension : Nat) :
    wrap.apply origin dimension = origin % wrap.period dimension := by
  cases wrap with
  | inherited => rw [apply, period, Nat.max_comm]
  | modulo => rw [apply, period, Nat.max_comm]

namespace Sprite

variable {sprite : List UInt8} {w h ox oy : Nat} {p : Nat × Nat}

/-- Does a sprite with its top left corner at (`ox`, `oy`) have a set bit on a pixel?  Only its
first rows count, and the highest bit of a row is its left end. -/
def Covers (sprite : List UInt8) (ox oy : Nat) (p : Nat × Nat) : Prop :=
  ∃ r, r < min 15 sprite.length ∧ ∃ c, c < 8 ∧
    p = (ox + c, oy + r) ∧ (sprite.getD r 0).toNat.testBit (7 - c) = true

instance decidableCovers (sprite : List UInt8) (ox oy : Nat) (p : Nat × Nat) :
    Decidable (Covers sprite ox oy p) :=
  inferInstanceAs (Decidable (∃ r, r < min 15 sprite.length ∧ ∃ c, c < 8 ∧
    p = (ox + c, oy + r) ∧ (sprite.getD r 0).toNat.testBit (7 - c) = true))

theorem mem_rows_iff {row : UInt8} {r : Nat} :
    (row, r) ∈ (sprite.take maxRows).zipIdx ↔
      r < min 15 sprite.length ∧ sprite.getD r 0 = row := by
  rw [List.mem_zipIdx_iff_getElem?, List.getElem?_take, Nat.lt_min]
  have hrows : maxRows = 15 := rfl
  rw [hrows]
  by_cases hr : r < 15
  · rw [if_pos hr, List.getElem?_eq_some_iff]
    constructor
    · rintro ⟨hlength, hrow⟩
      exact ⟨⟨hr, hlength⟩, (List.getD_eq_getElem _ _ hlength).trans hrow⟩
    · rintro ⟨⟨-, hlength⟩, hrow⟩
      exact ⟨hlength, (List.getD_eq_getElem _ _ hlength).symm.trans hrow⟩
  · simp [hr]

theorem mem_offsets_iff {c r : Nat} :
    (c, r) ∈ offsets sprite ↔
      r < min 15 sprite.length ∧ c < 8 ∧ (sprite.getD r 0).toNat.testBit (7 - c) = true := by
  rw [offsets_eq, List.mem_flatMap]
  constructor
  · rintro ⟨⟨row, r'⟩, hrow, hmem⟩
    obtain ⟨c', hc', heq⟩ := List.mem_map.mp hmem
    cases heq
    obtain ⟨hcolumn, hbit⟩ := List.mem_filter.mp hc'
    obtain ⟨hr, rfl⟩ := mem_rows_iff.mp hrow
    exact ⟨hr, List.mem_range.mp hcolumn, hbit⟩
  · rintro ⟨hr, hc, hbit⟩
    refine ⟨(sprite.getD r 0, r), mem_rows_iff.mpr ⟨hr, rfl⟩, ?_⟩
    exact List.mem_map.mpr ⟨c, List.mem_filter.mpr ⟨List.mem_range.mpr hc, hbit⟩, rfl⟩

/-- The pixels that are touched are those of the picture that the sprite covers. -/
theorem mem_pixels_iff :
    p ∈ pixels w h ox oy sprite ↔ (p.1 < w ∧ p.2 < h) ∧ Covers sprite ox oy p := by
  rw [pixels, List.mem_filter, Bool.and_eq_true, decide_eq_true_eq, decide_eq_true_eq, and_comm]
  refine and_congr_right fun _ => ?_
  constructor
  · intro hp
    obtain ⟨⟨c, r⟩, hoffset, rfl⟩ := List.mem_map.mp hp
    obtain ⟨hr, hc, hbit⟩ := mem_offsets_iff.mp hoffset
    exact ⟨r, hr, c, hc, rfl, hbit⟩
  · rintro ⟨r, hr, c, hc, rfl, hbit⟩
    exact List.mem_map.mpr ⟨(c, r), mem_offsets_iff.mpr ⟨hr, hc, hbit⟩, rfl⟩

end Sprite

namespace Bitmap

variable {w h : Nat}

/-- Where no pixel is flipped twice, those that are flipped change and no others do. -/
theorem isLit_foldl_flip {touched : List (Nat × Nat)} (hnodup : touched.Nodup)
    (hinside : ∀ p ∈ touched, p.1 < w ∧ p.2 < h) (b : Bitmap w h) {q : Nat × Nat}
    (hq : q.1 < w ∧ q.2 < h) :
    (touched.foldl flip b).isLit q = (b.isLit q ^^ decide (q ∈ touched)) := by
  induction touched generalizing b with
  | nil => simp
  | cons p rest ih =>
      obtain ⟨hp, hrest⟩ := List.nodup_cons.mp hnodup
      have hinside' : ∀ q ∈ rest, q.1 < w ∧ q.2 < h := fun q hq =>
        hinside q (List.mem_cons_of_mem p hq)
      rw [List.foldl_cons, ih hrest hinside', isLit_flip b (hinside p List.mem_cons_self) hq]
      by_cases hpq : p = q
      · subst hpq
        simp [hp]
      · have hmem : q ∈ p :: rest ↔ q ∈ rest := by simp [Ne.symm hpq]
        simp only [if_neg hpq, hmem]

/-- A pixel of the picture is lit or dark. -/
theorem get?_eq_isLit (b : Bitmap w h) {p : Nat × Nat} (hp : p.1 < w ∧ p.2 < h) :
    b.get? p.1 p.2 = some (b.isLit p) := by
  rw [isLit_eq b (index_lt hp.1 hp.2)]
  exact Vector.getElem?_eq_getElem (index_lt hp.1 hp.2)

variable (b : Bitmap w h) (wrap : OriginWrap) (x y : Nat) (sprite : List UInt8)

/-- Drawing flips the pixels that the sprite covers, and no others. -/
theorem isLit_blit {p : Nat × Nat} (hp : p.1 < w ∧ p.2 < h) :
    (b.blit wrap x y sprite).2.isLit p =
      (b.isLit p ^^
        decide (Sprite.Covers sprite (x % wrap.period w) (y % wrap.period h) p)) := by
  have htouched := isLit_foldl_flip
    (Sprite.nodup_pixels w h (wrap.apply x w) (wrap.apply y h) sprite)
    (fun p hp => Sprite.lt_of_mem_pixels hp) b hp
  simp only [blit]
  rw [htouched]
  simp only [Sprite.mem_pixels_iff, hp, true_and, OriginWrap.apply_eq, and_self]

/-- Drawing collides if a pixel that the sprite covers was lit. -/
theorem blit_collides_iff :
    (b.blit wrap x y sprite).1 = true ↔
      ∃ p : Nat × Nat, (p.1 < w ∧ p.2 < h) ∧
        Sprite.Covers sprite (x % wrap.period w) (y % wrap.period h) p ∧ b.isLit p = true := by
  simp only [blit, List.any_eq_true, Sprite.mem_pixels_iff, OriginWrap.apply_eq, and_assoc]

/-- One more than the greatest origin from which sprites are drawn here. -/
def originBound : Nat := 0x4000000000000000

/-- **Drawing flips what is covered.** Draw a sprite of any length on a picture of any size; its
origin is brought onto the picture once.  Drawing always has an answer, and it has the same one
on plain arrays, where every number and every place is checked, if there is memory for the
picture at all.  Each pixel of the picture changes if the sprite covers it and stays if not, and
there is a collision if the sprite covers a pixel that was lit before. -/
theorem blit_flips_covered {x y : Nat} (hx : x < originBound) (hy : y < originBound) :
    ∃ collision b', b.blit? wrap x y sprite = some (collision, b') ∧
      (isSize w h = true → ∀ m : Machine w h, m.picture = b → m.wrap = wrap →
        m.bare.blit? x y sprite =
          some (collision, ({ m with picture := b' } : Machine w h).bare)) ∧
      (∀ p : Nat × Nat, p.1 < w → p.2 < h → b'.get? p.1 p.2 = (b.get? p.1 p.2).map
        (· ^^ decide (Sprite.Covers sprite (x % wrap.period w) (y % wrap.period h) p))) ∧
      (collision = true ↔ ∃ p : Nat × Nat, p.1 < w ∧ p.2 < h ∧
        Sprite.Covers sprite (x % wrap.period w) (y % wrap.period h) p ∧
        b.get? p.1 p.2 = some true) := by
  refine ⟨(b.blit wrap x y sprite).1, (b.blit wrap x y sprite).2, ?_, ?_, ?_, ?_⟩
  · have hrows : (sprite.take Sprite.maxRows).length ≤ 15 := List.length_take_le _ _
    have hy' : wrap.apply y h ≤ y := Bare.apply_le wrap y h
    exact if_pos (by simp only [Sprite.rowBound, originBound] at *; omega)
  · rintro hsize m rfl rfl
    have hbound : originBound + 16 ≤ Bare.Checked.bound := by decide
    exact Bare.blit?_bare_of_le (of_decide_eq_true hsize) m (by omega) (by omega) sprite
  · intro p hpx hpy
    rw [get?_eq_isLit _ ⟨hpx, hpy⟩, get?_eq_isLit _ ⟨hpx, hpy⟩,
      isLit_blit b wrap x y sprite ⟨hpx, hpy⟩]
    rfl
  · rw [blit_collides_iff]
    refine exists_congr fun p => ?_
    rw [and_assoc]
    refine and_congr_right fun hpx => and_congr_right fun hpy => ?_
    rw [get?_eq_isLit _ ⟨hpx, hpy⟩, Option.some_inj]

/-- On a picture of one column every origin comes down to that column, and of two rows only the
first is an origin; the sprite has more rows than count. -/
theorem blit_flips_covered_narrow :
    0x3fffffffffffffff < originBound ∧ 5 < originBound ∧
    ∃ b' : Bitmap 1 2,
      (blank 1 2).blit? .inherited 0x3fffffffffffffff 5 (List.replicate 17 0x80) =
        some (false, b') ∧
      b'.get? 0 0 = some true ∧ b'.get? 0 1 = some true := by
  have hx : 0x3fffffffffffffff < originBound := by decide
  have hy : 5 < originBound := by decide
  obtain ⟨collision, b', hblit, -, hpixels, hcollision⟩ :=
    blit_flips_covered (blank 1 2) .inherited (List.replicate 17 0x80) hx hy
  have htop := hpixels (0, 0) (by decide) (by decide)
  have hbottom := hpixels (0, 1) (by decide) (by decide)
  have hnone : collision = false := by
    rw [← Bool.not_eq_true, hcollision]
    rintro ⟨p, -, -, -, hlit⟩
    simp only [get?, blank, Vector.getElem?_replicate] at hlit
    split at hlit <;> simp at hlit
  rw [hnone] at hblit
  exact ⟨hx, hy, b', hblit, htop.trans (by decide), hbottom.trans (by decide)⟩

end Bitmap

end Chip8Vm
