import Chip8Vm.Proofs.Bare.Simulation

/-!
# Chip8Vm.Proofs.Bare.Picture

Drawing and showing pictures on plain arrays.

A pixel's number is computed and looked up without a guard; it exists because the
coordinates were compared with the picture's size before.  A bare machine draws the
columns of a row and the rows of a sprite in turn, and thereby the pixels of the sprite
one after the other (`blit?_bare`); the pixels it shows are the lit ones in their order
(`lit?_bare`).
-/

namespace Chip8Vm.Bare

open Checked

variable {w h : Nat}

/-- A picture with a mark for a collision, on plain arrays. -/
def mark (s : Bool × Bitmap w h) : Bool × Array UInt8 := (s.1, s.2.bytes)

/-! ## One pixel -/

theorem getElem?_bytes (b : Bitmap w h) {k : Nat} (hk : k < w * h) :
    b.bytes[k]? = some (Bitmap.cell b.cells[k]) := by
  rw [Bitmap.bytes, Array.getElem?_map, getElem?_toArray b.cells hk, Option.map_some]

theorem put?_bytes (b : Bitmap w h) {k : Nat} (hk : k < w * h) (lit : Bool) :
    put? b.bytes k (Bitmap.cell lit) = some (Bitmap.bytes ⟨b.cells.set k lit⟩) := by
  have hsize : k < b.bytes.size := by
    rw [Bitmap.bytes, Array.size_map, Vector.size_toArray]
    exact hk
  rw [put?, dif_pos hsize]
  simp only [Bitmap.bytes, Vector.toArray_set, Array.map_set]

theorem cell_xor (lit : Bool) : Bitmap.cell lit ^^^ 1 = Bitmap.cell !lit := by
  cases lit <;> rfl

theorem cell_beq (lit : Bool) : (Bitmap.cell lit == 1) = lit := by
  cases lit <;> rfl

/-- A pixel on the picture can be flipped. -/
theorem flip?_mark (hsize : w * h < Bitmap.sizeBound) (s : Bool × Bitmap w h) {x y : Nat}
    (hx : x < w) (hy : y < h) :
    flip? w (mark s) x y = some (mark (Bitmap.flipping s (x, y))) := by
  have hindex : y * w + x < w * h := Bitmap.index_lt hx hy
  have hbound : Bitmap.sizeBound ≤ bound := by decide
  have hmul : mul? y w = some (y * w) := if_pos (by omega)
  have hadd : add? (y * w) x = some (y * w + x) := if_pos (by omega)
  have hlit : s.2.isLit (x, y) = s.2.cells[y * w + x] :=
    Bitmap.isLit_eq (p := (x, y)) s.2 hindex
  have hflip : s.2.flip (x, y) = ⟨s.2.cells.set (y * w + x) (!s.2.cells[y * w + x])⟩ :=
    dif_pos hindex
  simp only [flip?, hmul, hadd, mark, getElem?_bytes s.2 hindex, cell_xor, cell_beq,
    put?_bytes s.2 hindex, Option.bind_eq_bind, Option.bind_some, Bitmap.flipping, hlit, hflip]

/-! ## Sprites -/

/-- The pixels of a picture under the set bits of a row, in some of its columns. -/
def rowPixels (w h ox oy : Nat) (entry : UInt8 × Nat) (columns : List Nat) : List (Nat × Nat) :=
  ((columns.filter (Sprite.bit entry.1)).map fun c => (ox + c, oy + entry.2)).filter
    fun p => p.1 < w && p.2 < h

/-- A column of a row that is on the picture is drawn or passed over. -/
theorem blitColumn?_mark (hsize : w * h < Bitmap.sizeBound) (s : Bool × Bitmap w h)
    {ox oy column : Nat} {entry : UInt8 × Nat} (hox : ox + 8 ≤ bound) (hcolumn : column < 8)
    (hy : oy + entry.2 < h) :
    blitColumn? w ox (oy + entry.2) entry.1 (mark s) column =
      some (mark ((rowPixels w h ox oy entry [column]).foldl Bitmap.flipping s)) := by
  have hadd : add? ox column = some (ox + column) := if_pos (by omega)
  have hsub : sub? 7 column = some (7 - column) := if_pos (by omega)
  have hbit : bit? entry.1 (7 - column) = some (Sprite.bit entry.1 column) := if_pos (by omega)
  simp only [blitColumn?, hadd, hsub, hbit, Option.bind_eq_bind, Option.bind_some]
  by_cases hx : w ≤ ox + column
  · have hnone : rowPixels w h ox oy entry [column] = [] := by
      cases hset : Sprite.bit entry.1 column <;> simp [rowPixels, hset, Nat.not_lt.mpr hx]
    rw [if_pos hx, hnone]
    rfl
  · rw [if_neg hx]
    cases hset : Sprite.bit entry.1 column with
    | false =>
        have hnone : rowPixels w h ox oy entry [column] = [] := by simp [rowPixels, hset]
        rw [hnone]
        rfl
    | true =>
        have hone : rowPixels w h ox oy entry [column] = [(ox + column, oy + entry.2)] := by
          simp [rowPixels, hset, hy, Nat.lt_of_not_le hx]
        rw [hone]
        exact flip?_mark hsize s (Nat.lt_of_not_le hx) hy

theorem foldlM_blitColumn? (hsize : w * h < Bitmap.sizeBound) (s : Bool × Bitmap w h)
    {ox oy : Nat} {entry : UInt8 × Nat} (hox : ox + 8 ≤ bound) (hy : oy + entry.2 < h)
    (columns : List Nat) (hcolumns : ∀ c ∈ columns, c < 8) :
    columns.foldlM (blitColumn? w ox (oy + entry.2) entry.1) (mark s) =
      some (mark ((rowPixels w h ox oy entry columns).foldl Bitmap.flipping s)) := by
  induction columns generalizing s with
  | nil => rfl
  | cons c cs ih =>
      have hsplit : rowPixels w h ox oy entry (c :: cs) =
          rowPixels w h ox oy entry [c] ++ rowPixels w h ox oy entry cs := by
        rw [← List.singleton_append, rowPixels, List.filter_append, List.map_append,
          List.filter_append]
        rfl
      rw [List.foldlM_cons, blitColumn?_mark hsize s hox (hcolumns c List.mem_cons_self) hy,
        hsplit, List.foldl_append]
      exact ih _ fun d hd => hcolumns d (List.mem_cons_of_mem c hd)

/-- A row is drawn or passed over. -/
theorem blitRow?_mark (hsize : w * h < Bitmap.sizeBound) (s : Bool × Bitmap w h) {ox oy : Nat}
    {entry : UInt8 × Nat} (hox : ox + 8 ≤ bound) (hoy : oy + 16 ≤ bound) (hrow : entry.2 < 16) :
    blitRow? w h ox oy (mark s) entry =
      some (mark ((rowPixels w h ox oy entry (List.range 8)).foldl Bitmap.flipping s)) := by
  have hadd : add? oy entry.2 = some (oy + entry.2) := if_pos (by omega)
  simp only [blitRow?, hadd, Option.bind_eq_bind, Option.bind_some]
  by_cases hy : h ≤ oy + entry.2
  · have hnone : rowPixels w h ox oy entry (List.range 8) = [] := by
      rw [rowPixels, List.filter_eq_nil_iff]
      intro p hp
      obtain ⟨c, -, rfl⟩ := List.mem_map.mp hp
      simp [Nat.not_lt.mpr hy]
    rw [if_pos hy, hnone]
    rfl
  · rw [if_neg hy]
    exact foldlM_blitColumn? hsize s hox (Nat.lt_of_not_le hy) _ fun c hc => List.mem_range.mp hc

theorem foldlM_blitRow? (hsize : w * h < Bitmap.sizeBound) (s : Bool × Bitmap w h) {ox oy : Nat}
    (hox : ox + 8 ≤ bound) (hoy : oy + 16 ≤ bound) (rows : List (UInt8 × Nat))
    (hrows : ∀ e ∈ rows, e.2 < 16) :
    rows.foldlM (blitRow? w h ox oy) (mark s) =
      some (mark ((rows.flatMap fun e => rowPixels w h ox oy e (List.range 8)).foldl
        Bitmap.flipping s)) := by
  induction rows generalizing s with
  | nil => rfl
  | cons e es ih =>
      rw [List.foldlM_cons, blitRow?_mark hsize s hox hoy (hrows e List.mem_cons_self),
        List.flatMap_cons, List.foldl_append]
      exact ih _ fun d hd => hrows d (List.mem_cons_of_mem e hd)

/-- The pixels of a sprite, row by row. -/
theorem pixels_eq (w h ox oy : Nat) (sprite : List UInt8) :
    Sprite.pixels w h ox oy sprite =
      ((sprite.take 15).zipIdx).flatMap fun e => rowPixels w h ox oy e (List.range 8) := by
  rw [Sprite.pixels, Sprite.offsets_eq, List.map_flatMap, List.filter_flatMap]
  simp only [Sprite.rowOffsets, List.map_map]
  rfl

/-- The origin of a sprite always has a remainder. -/
theorem origin?_eq (wrap : OriginWrap) (origin dimension : Nat) :
    origin? wrap origin dimension = some (wrap.apply origin dimension) := by
  cases wrap with
  | inherited => exact if_pos (by omega)
  | modulo => exact if_pos (by omega)

theorem apply_le (wrap : OriginWrap) (origin dimension : Nat) :
    wrap.apply origin dimension ≤ origin := by
  cases wrap with
  | inherited => exact Nat.mod_le _ _
  | modulo => exact Nat.mod_le _ _

/-- A sprite can be drawn at every origin from which its rows and columns have numbers. -/
theorem blit?_bare_of_le (hsize : w * h < Bitmap.sizeBound) (m : Machine w h) {x y : Nat}
    (hx : x + 8 ≤ bound) (hy : y + 16 ≤ bound) (sprite : List UInt8) :
    m.bare.blit? x y sprite =
      some ((m.picture.blit m.wrap x y sprite).1,
        ({ m with picture := (m.picture.blit m.wrap x y sprite).2 } : Machine w h).bare) := by
  have hox : m.wrap.apply x w + 8 ≤ bound :=
    Nat.le_trans (Nat.add_le_add_right (apply_le _ _ _) 8) hx
  have hoy : m.wrap.apply y h + 16 ≤ bound :=
    Nat.le_trans (Nat.add_le_add_right (apply_le _ _ _) 16) hy
  have hrows : ∀ e ∈ (sprite.take 15).zipIdx, e.2 < 16 := by
    intro e he
    have hlt := (List.mem_zipIdx' he).1
    rw [List.length_take] at hlt
    omega
  have hfold := foldlM_blitRow? hsize (false, m.picture) hox hoy _ hrows
  rw [← pixels_eq, Bitmap.foldl_flipping _ (Sprite.nodup_pixels _ _ _ _ _)
    fun p hp => Sprite.lt_of_mem_pixels hp] at hfold
  simp only [blit?, Machine.bare, origin?_eq, Option.bind_eq_bind, Option.bind_some]
  simp only [mark] at hfold
  rw [hfold]
  rfl

/-- A sprite can be drawn at every origin that registers hold. -/
theorem blit?_bare (hsize : w * h < Bitmap.sizeBound) (m : Machine w h) (x y : UInt8)
    (sprite : List UInt8) :
    m.bare.blit? x.toNat y.toNat sprite =
      some ((m.picture.blit m.wrap x.toNat y.toNat sprite).1,
        ({ m with picture := (m.picture.blit m.wrap x.toNat y.toNat sprite).2 } :
          Machine w h).bare) := by
  have hbound : 272 ≤ bound := by decide
  have hx := x.toNat_lt
  have hy := y.toNat_lt
  exact blit?_bare_of_le hsize m (by omega) (by omega) sprite

/-! ## Showing -/

/-- The pixels that are shown are the lit ones, and each has a coordinate. -/
theorem lit?_bare (m : Machine w h) : m.bare.lit? = some m.picture.lit := by
  have hcells : m.bare.cells.size = w * h := by
    simp only [Machine.bare, Bitmap.bytes, Array.size_map, Vector.size_toArray]
  rw [lit?, hcells]
  by_cases hw : 0 < w
  · have hplace : ∀ k, (do
        let x ← rem? k m.bare.width
        let y ← div? k m.bare.width
        some (x, y)) = some (k % w, k / w) := by
      intro k
      have hrem : rem? k m.bare.width = some (k % w) := if_pos hw
      have hdiv : div? k m.bare.width = some (k / w) := if_pos hw
      rw [hrem, hdiv]
      rfl
    have hlit : (List.range (w * h)).filter (fun k => m.bare.cells[k]? == some 1) =
        (List.range (w * h)).filter fun k => m.picture.isLit (k % w, k / w) := by
      refine List.filter_congr fun k hk => ?_
      have hk : k < w * h := List.mem_range.mp hk
      have hindex : Bitmap.index w (k % w) (k / w) < w * h := by rwa [Bitmap.index_mod_div]
      rw [Bitmap.isLit_eq m.picture hindex]
      simp only [Machine.bare, getElem?_bytes m.picture hk, Bitmap.index_mod_div]
      cases m.picture.cells[k] <;> rfl
    simp only [hplace, hlit]
    rw [Bitmap.lit, Bitmap.coordinates_eq hw, List.filter_map]
    exact List.mapM_pure
  · have hw : w = 0 := Nat.eq_zero_of_not_pos hw
    subst hw
    simp [Bitmap.lit, Bitmap.coordinates]

end Chip8Vm.Bare
