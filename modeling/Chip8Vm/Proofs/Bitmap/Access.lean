import Chip8Vm.Proofs.Bitmap.Blit

/-!
# Chip8Vm.Proofs.Bitmap.Access

Single pixels, wherever they are looked for.

A pixel is looked for by its number alone.  So a coordinate to the right of its row is not refused
while there are later rows: it runs on into them (`Bitmap.place`, `RunsOn`), and only what is past
the last pixel is refused.

* `pixel?_bytes`, `setPixel?_bytes` — the same on plain arrays, where every number is checked;
* `get?_eq_isLit_place`, `isLit_set?` — what is at a coordinate, and what setting it leaves;
* `isLit_after` — a pixel stays as it is while nothing touches it;
* `access_by_place` — the law of single pixels, on all pictures and for all coordinates.
-/

namespace Chip8Vm

/-! ## Places -/

namespace Bitmap

/-- Where a coordinate lies when rows that are too long run on into the next ones. -/
def place (w x y : Nat) : Nat × Nat := (x % w, y + x / w)

/-- To the right of its row, but on the picture nevertheless. -/
def RunsOn (w h x y : Nat) : Prop := w ≤ x ∧ index w x y < w * h

instance decidableRunsOn (w h x y : Nat) : Decidable (RunsOn w h x y) :=
  inferInstanceAs (Decidable (w ≤ x ∧ index w x y < w * h))

variable {w h x y : Nat}

theorem place_of_lt (hx : x < w) : place w x y = (x, y) := by
  simp [place, Nat.mod_eq_of_lt hx, Nat.div_eq_of_lt hx]

/-- A coordinate has the number of its place. -/
theorem index_place (w x y : Nat) : index w (place w x y).1 (place w x y).2 = index w x y := by
  calc
    (y + x / w) * w + x % w = y * w + (w * (x / w) + x % w) := by
      rw [Nat.add_mul, Nat.mul_comm (x / w), Nat.add_assoc]
    _ = y * w + x := by rw [Nat.div_add_mod]

theorem place_lt (hindex : index w x y < w * h) : (place w x y).1 < w ∧ (place w x y).2 < h := by
  have hw : 0 < w := Nat.pos_of_lt_mul_right hindex
  have hy : (place w x y).2 * w < w * h := by
    rw [← index_place] at hindex
    exact Nat.lt_of_le_of_lt (Nat.le_add_right _ _) hindex
  exact ⟨Nat.mod_lt x hw, Nat.lt_of_mul_lt_mul_left (Nat.mul_comm _ w ▸ hy)⟩

/-- What has no number on the picture lies outside of it, and what lies outside has none unless
it runs on. -/
theorem le_index_iff : w * h ≤ index w x y ↔ (w ≤ x ∨ h ≤ y) ∧ ¬ RunsOn w h x y := by
  have hinside : x < w → y < h → index w x y < w * h := index_lt
  have hbelow : h ≤ y → w * h ≤ index w x y := fun hy =>
    Nat.le_trans (Nat.mul_comm h w ▸ Nat.mul_le_mul_right w hy) (Nat.le_add_right _ _)
  grind [RunsOn]

end Bitmap

/-! ## On plain arrays -/

namespace Bare

open Checked

/-- The number of a pixel, if all numbers on the way to it are machine words. -/
def index? (width x y : Nat) : Option Nat := do add? (← mul? y width) x

/-- The byte of a pixel. -/
def pixel? (width : Nat) (cells : Array UInt8) (x y : Nat) : Option UInt8 := do
  cells[← index? width x y]?

/-- Another byte for a pixel: one in place of any that is not zero. -/
def setPixel? (width : Nat) (cells : Array UInt8) (x y : Nat) (value : UInt8) :
    Option (Array UInt8) := do
  put? cells (← index? width x y) (if value ≠ 0 then 1 else 0)

variable {w h x y : Nat}

theorem index?_of_lt (hsize : Bitmap.isSize w h = true) (hindex : Bitmap.index w x y < w * h) :
    index? w x y = some (Bitmap.index w x y) := by
  have hbound : w * h < bound := Nat.lt_trans (of_decide_eq_true hsize) (by decide)
  have hmul : mul? y w = some (y * w) := if_pos (by grind [Bitmap.index])
  have hadd : add? (y * w) x = some (y * w + x) := if_pos (by grind [Bitmap.index])
  simp only [index?, hmul, Option.bind_eq_bind, Option.bind_some, hadd, Bitmap.index]

theorem eq_of_index? {k : Nat} (hk : index? w x y = some k) : k = Bitmap.index w x y := by
  simp only [index?, Option.bind_eq_bind, Option.bind_eq_some_iff, mul?, add?,
    Option.ite_none_right_eq_some, Option.some_inj] at hk
  obtain ⟨_, ⟨-, rfl⟩, -, rfl⟩ := hk
  rfl

/-- No number that overflows would have been the one of a pixel. -/
theorem pixel?_bytes (hsize : Bitmap.isSize w h = true) (b : Bitmap w h) :
    pixel? w b.bytes x y = (b.get? x y).map Bitmap.cell := by
  by_cases hindex : Bitmap.index w x y < w * h
  · simp [pixel?, index?_of_lt hsize hindex, getElem?_bytes b hindex, Bitmap.get?, hindex]
  · have hnone : b.get? x y = none := by simp [Bitmap.get?, Nat.not_lt.mp hindex]
    rw [hnone, pixel?]
    cases hk : index? w x y with
    | none => simp
    | some k =>
        rw [eq_of_index? hk]
        simp [Bitmap.bytes, Nat.not_lt.mp hindex]

theorem setPixel?_bytes (hsize : Bitmap.isSize w h = true) (b : Bitmap w h) (value : UInt8) :
    setPixel? w b.bytes x y value = (b.set? x y (value != 0)).map Bitmap.bytes := by
  have hvalue : (if value ≠ 0 then 1 else 0) = Bitmap.cell (value != 0) := by
    cases hv : value != 0 <;> simp_all [Bitmap.cell]
  rw [setPixel?, hvalue]
  by_cases hindex : Bitmap.index w x y < w * h
  · simp [index?_of_lt hsize hindex, put?_bytes b hindex, Bitmap.set?, hindex]
  · have hnone : b.set? x y (value != 0) = none := by simp [Bitmap.set?, hindex]
    rw [hnone]
    cases hk : index? w x y with
    | none => simp
    | some k =>
        rw [eq_of_index? hk]
        simp [put?, Bitmap.bytes, hindex]

end Bare

/-! ## Calls -/

namespace Bitmap

/-- What can be asked of a picture. -/
inductive Call where
  | get (x y : Nat)
  | set (x y : Nat) (value : UInt8)
  | blit (wrap : OriginWrap) (x y : Nat) (sprite : List UInt8)
  | clear
  deriving DecidableEq

inductive Answer where
  | pixel (value : UInt8)
  | done
  | collided (collision : Bool)
  deriving DecidableEq

variable {w h x y : Nat} {p : Nat × Nat}

/-- The answer of a picture, and the picture after it; none if the call is refused. -/
def call? (b : Bitmap w h) : Call → Option (Answer × Bitmap w h)
  | .get x y => (b.get? x y).map fun lit => (.pixel (cell lit), b)
  | .set x y value => (b.set? x y (value != 0)).map fun b' => (.done, b')
  | .blit wrap x y sprite => (b.blit? wrap x y sprite).map fun (hit, b') => (.collided hit, b')
  | .clear => some (.done, blank w h)

def answer? (b : Bitmap w h) (c : Call) : Option Answer := (b.call? c).map Prod.fst

/-- The picture after a call; one that is refused changes nothing. -/
def next (b : Bitmap w h) (c : Call) : Bitmap w h := ((b.call? c).map Prod.snd).getD b

theorem next_of_answered {b b' : Bitmap w h} {c : Call} {a : Answer}
    (hc : b.call? c = some (a, b')) : b.next c = b' := by
  rw [next, hc]
  rfl

theorem next_of_refused {b : Bitmap w h} {c : Call} (hc : b.call? c = none) : b.next c = b := by
  rw [next, hc]
  rfl

/-- The picture after some calls, also after one that is refused. -/
def after (b : Bitmap w h) (calls : List Call) : Bitmap w h := calls.foldl next b

/-- May a call change the pixel? -/
def Call.Touches (w h : Nat) (p : Nat × Nat) : Call → Prop
  | .get _ _ => False
  | .set x y _ => place w x y = p
  | .blit wrap x y sprite => Sprite.Covers sprite (x % wrap.period w) (y % wrap.period h) p
  | .clear => True

/-! ### One call -/

theorem get?_eq_isLit_place (b : Bitmap w h) (hindex : index w x y < w * h) :
    b.get? x y = some (b.isLit (place w x y)) := by
  have hnumber := index_place w x y
  rw [isLit, get?, get?, hnumber, Vector.getElem?_eq_getElem hindex, Option.getD_some]

theorem get?_eq_none_iff {b : Bitmap w h} : b.get? x y = none ↔ w * h ≤ index w x y := by
  simp [get?]

theorem set?_eq_none_iff {b : Bitmap w h} {lit : Bool} :
    b.set? x y lit = none ↔ w * h ≤ index w x y := by
  simp [set?]

/-- Setting changes the place of a coordinate and no other pixel. -/
theorem isLit_set? {b b' : Bitmap w h} {lit : Bool} (hb' : b.set? x y lit = some b')
    (hp : p.1 < w ∧ p.2 < h) : b'.isLit p = if place w x y = p then lit else b.isLit p := by
  have hindex : index w x y < w * h := by
    by_contra hindex
    rw [set?_eq_none_iff.mpr (Nat.not_lt.mp hindex)] at hb'
    cases hb'
  have hpi := index_lt hp.1 hp.2
  have hplace := place_lt hindex
  rw [set?, dif_pos hindex, Option.some_inj] at hb'
  subst hb'
  rw [isLit_eq _ hpi, isLit_eq _ hpi]
  simp only [Vector.getElem_set]
  by_cases hsame : place w x y = p
  · rw [if_pos hsame, if_pos (by rw [← hsame, index_place])]
  · -- the numbers of two pixels differ, but not those of any two coordinates
    have hne : index w x y ≠ index w p.1 p.2 := fun hnumber =>
      hsame (index_inj hplace.1 hp.1 ((index_place w x y).trans hnumber))
    rw [if_neg hsame, if_neg hne]

/-- A pixel that a call does not touch stays as it is. -/
theorem isLit_next (b : Bitmap w h) (c : Call) (hp : p.1 < w ∧ p.2 < h)
    (hc : ¬ c.Touches w h p) : (b.next c).isLit p = b.isLit p := by
  cases hcall : b.call? c with
  | none => rw [next_of_refused hcall]
  | some answered =>
      obtain ⟨a, b'⟩ := answered
      rw [next_of_answered hcall]
      cases c with
      | get x y =>
          obtain ⟨lit, -, hsame⟩ := Option.map_eq_some_iff.mp hcall
          rw [(Prod.mk.inj hsame).2]
      | set x y value =>
          obtain ⟨b', hset, hsame⟩ := Option.map_eq_some_iff.mp hcall
          obtain rfl := (Prod.mk.inj hsame).2
          have hplace : place w x y ≠ p := hc
          rw [isLit_set? hset hp, if_neg hplace]
      | blit wrap x y sprite =>
          obtain ⟨⟨hit, b'⟩, hblit, hsame⟩ := Option.map_eq_some_iff.mp hcall
          obtain rfl := (Prod.mk.inj hsame).2
          have huncovered : ¬ Sprite.Covers sprite (x % wrap.period w) (y % wrap.period h) p := hc
          have hdrawn := b.isLit_blit wrap x y sprite hp
          rw [decide_eq_false huncovered, Bool.xor_false] at hdrawn
          rw [blit?] at hblit
          split at hblit
          · rwa [Option.some_inj.mp hblit] at hdrawn
          · cases hblit
      | clear => exact absurd trivial hc

/-! ### Histories -/

/-- A pixel stays as it is while no call touches it. -/
theorem isLit_after (b : Bitmap w h) {calls : List Call} (hp : p.1 < w ∧ p.2 < h)
    (hcalls : ∀ c ∈ calls, ¬ c.Touches w h p) : (b.after calls).isLit p = b.isLit p := by
  induction calls generalizing b with
  | nil => rfl
  | cons c calls ih =>
      obtain ⟨hc, hrest⟩ := List.forall_mem_cons.mp hcalls
      calc
        ((b.next c).after calls).isLit p = (b.next c).isLit p := ih _ hrest
        _ = b.isLit p := isLit_next b c hp hc

/-! ### The law of single pixels -/

variable {b : Bitmap w h} {value : UInt8}

theorem get_refused_iff : b.call? (.get x y) = none ↔ (w ≤ x ∨ h ≤ y) ∧ ¬ RunsOn w h x y := by
  rw [call?, Option.map_eq_none_iff, get?_eq_none_iff, le_index_iff]

theorem set_refused_iff :
    b.call? (.set x y value) = none ↔ (w ≤ x ∨ h ≤ y) ∧ ¬ RunsOn w h x y := by
  rw [call?, Option.map_eq_none_iff, set?_eq_none_iff, le_index_iff]

/-- What is got at a coordinate is the pixel at its place. -/
theorem answer?_get (hindex : index w x y < w * h) :
    b.answer? (.get x y) = some (.pixel (cell (b.isLit (place w x y)))) := by
  rw [answer?, call?, get?_eq_isLit_place b hindex]
  rfl

theorem index_lt_of_set (hset : b.call? (.set x y value) ≠ none) : index w x y < w * h := by
  rw [Ne, set_refused_iff, ← le_index_iff] at hset
  exact Nat.not_le.mp hset

/-- What a set leaves at every pixel. -/
theorem isLit_next_set (hset : b.call? (.set x y value) ≠ none) (hp : p.1 < w ∧ p.2 < h) :
    (b.next (.set x y value)).isLit p =
      if place w x y = p then value != 0 else b.isLit p := by
  have hindex := index_lt_of_set hset
  have hb' : b.set? x y (value != 0) = some ⟨b.cells.set (index w x y) (value != 0)⟩ :=
    dif_pos hindex
  have hcall : b.call? (.set x y value) =
      some (.done, ⟨b.cells.set (index w x y) (value != 0)⟩) := by rw [call?, hb', Option.map_some]
  rw [next_of_answered hcall]
  exact isLit_set? hb' hp

/-- **Single pixels go by their places.** Take any picture, whatever was done to it, any coordinate
and any value.  The coordinate is refused, for getting and for setting alike, if it lies outside of
the picture and does not run on into a later row; a refused set changes nothing.  A set that is not
refused is for the place of the coordinate: whatever is done next that does not touch this pixel,
one is got there after any value but zero, and zero after zero; and no other pixel of the picture
changes.  A coordinate in its row is its own place.  Plain arrays give the same answers when every
number on the way is checked. -/
theorem access_by_place (b : Bitmap w h) (x y : Nat) (value : UInt8) :
    ((b.call? (.get x y) = none ↔ (w ≤ x ∨ h ≤ y) ∧ ¬ RunsOn w h x y) ∧
      (b.call? (.set x y value) = none ↔ (w ≤ x ∨ h ≤ y) ∧ ¬ RunsOn w h x y)) ∧
    (b.call? (.set x y value) = none → b.next (.set x y value) = b) ∧
    (b.call? (.set x y value) ≠ none →
      (∀ later, (∀ c ∈ later, ¬ c.Touches w h (place w x y)) →
        ((b.next (.set x y value)).after later).answer? (.get x y) =
          some (.pixel (if value = 0 then 0 else 1))) ∧
      ∀ p : Nat × Nat, p.1 < w → p.2 < h → p ≠ place w x y →
        (b.next (.set x y value)).answer? (.get p.1 p.2) = b.answer? (.get p.1 p.2)) ∧
    (x < w → place w x y = (x, y)) ∧
    (isSize w h = true →
      Bare.pixel? w b.bytes x y = (b.get? x y).map cell ∧
      Bare.setPixel? w b.bytes x y value = (b.set? x y (value != 0)).map bytes) := by
  refine ⟨⟨get_refused_iff, set_refused_iff⟩, next_of_refused, fun hset => ⟨?_, ?_⟩, place_of_lt,
    fun hsize => ⟨Bare.pixel?_bytes hsize b, Bare.setPixel?_bytes hsize b value⟩⟩
  · intro later hlater
    have hindex := index_lt_of_set hset
    rw [answer?_get hindex, isLit_after _ (place_lt hindex) hlater,
      isLit_next_set hset (place_lt hindex), if_pos rfl]
    by_cases hvalue : value = 0 <;> simp [hvalue, cell]
  · intro p hpx hpy hp
    have hpi := index_lt hpx hpy
    have hlit := isLit_next_set hset ⟨hpx, hpy⟩
    rw [if_neg (Ne.symm hp)] at hlit
    rw [answer?_get hpi, answer?_get hpi, place_of_lt hpx, hlit]

/-- A picture of two rows after a sprite in the corner; the set was refused. -/
def cornered : Bitmap 4 2 := (blank 4 2).after [.blit .modulo 5 0 [0xc0], .set 4 1 1]

/-- On it, the coordinate to the right of the first row is the first pixel of the second, and the
one to the right of the second row is refused. -/
theorem access_by_place_cornered :
    isSize 4 2 = true ∧ RunsOn 4 2 4 0 ∧ cornered.call? (.set 4 0 7) ≠ none ∧
    ((cornered.next (.set 4 0 7)).after [.set 3 1 0, .get 0 0]).answer? (.get 4 0) =
      some (.pixel 1) ∧
    (cornered.next (.set 4 0 7)).answer? (.get 1 0) = cornered.answer? (.get 1 0) ∧
    cornered.call? (.set 4 1 7) = none ∧ cornered.next (.set 4 1 7) = cornered ∧
    place 4 3 1 = (3, 1) ∧
    Bare.setPixel? 4 cornered.bytes 4 0 7 = (cornered.set? 4 0 true).map bytes := by
  have hsize : isSize 4 2 = true := by decide
  have hrefused : cornered.call? (.set 4 1 7) = none := by decide
  have hset : cornered.call? (.set 4 0 7) ≠ none := by decide
  have huntouched : ∀ c ∈ [Call.set 3 1 0, .get 0 0], ¬ c.Touches 4 2 (place 4 4 0) := by
    simp [Call.Touches, place]
  obtain ⟨-, -, hanswered, -, hplain⟩ := access_by_place cornered 4 0 7
  obtain ⟨hpixel, hothers⟩ := hanswered hset
  have hsecond := hothers (1, 0) (by decide) (by decide) (by decide)
  exact ⟨hsize, by decide, hset, hpixel _ huntouched, hsecond, hrefused,
    (access_by_place cornered 4 1 7).2.1 hrefused,
    (access_by_place cornered 3 1 7).2.2.2.1 (by decide), (hplain hsize).2⟩

/-- The coordinate lies outside of the picture, and yet it can be set and lights the pixel at
the left end of the next row. -/
theorem set_runs_on :
    (4 ≤ 4 ∨ 2 ≤ 0) ∧ (blank 4 2).call? (.get 4 0) ≠ none ∧ (blank 4 2).call? (.set 4 0 1) ≠ none ∧
    (blank 4 2).answer? (.get 0 1) = some (.pixel 0) ∧
    ((blank 4 2).next (.set 4 0 1)).answer? (.get 0 1) = some (.pixel 1) := by
  decide

end Bitmap

end Chip8Vm
