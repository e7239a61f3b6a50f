import Chip8Vm.Proofs.Bitmap.Blit

/-!
# Chip8Vm.Proofs.Bitmap.Order

The order in which sprites are drawn does not matter.

A picture is its lit pixels (`ext_isLit`), and drawing flips those that are covered, whatever
they were.  So two drawings can change places (`draw_comm`), and one that is done twice undoes
itself (`draw_draw`); both carry over from neighbours to whole lists (`drawAll_perm`,
`drawAll_twice`).  Of two equal drawings in a row one finds a lit pixel if there is anything
to flip (`collides_twice_iff`).
-/

namespace Chip8Vm

theorem OriginWrap.apply_le_dimension (wrap : OriginWrap) (origin dimension : Nat) :
    wrap.apply origin dimension ≤ dimension := by
  have hpositive : 0 < wrap.period dimension := by
    cases wrap <;> exact Nat.le_max_left 1 _
  have hbelow : wrap.apply origin dimension < wrap.period dimension := by
    rw [apply_eq]
    exact Nat.mod_lt _ hpositive
  cases wrap <;> simp only [period] at hbelow <;> omega

/-- A sprite to be drawn: where, and how its origin is brought onto the picture. -/
structure Drawing where
  wrap : OriginWrap
  x : Nat
  y : Nat
  sprite : List UInt8

namespace Drawing

variable {w h : Nat} {d : Drawing}

/-- Is a set bit of the sprite over the pixel, on a picture of `w` times `h`? -/
def Covers (d : Drawing) (w h : Nat) (p : Nat × Nat) : Prop :=
  Sprite.Covers d.sprite (d.x % d.wrap.period w) (d.y % d.wrap.period h) p

instance decidableCovers (d : Drawing) (w h : Nat) (p : Nat × Nat) : Decidable (d.Covers w h p) :=
  inferInstanceAs (Decidable
    (Sprite.Covers d.sprite (d.x % d.wrap.period w) (d.y % d.wrap.period h) p))

/-- Do all rows of the sprite that count have numbers, on a picture of `h` rows? -/
def Numbered (d : Drawing) (h : Nat) : Prop :=
  d.wrap.apply d.y h + (d.sprite.take Sprite.maxRows).length ≤ Sprite.rowBound

instance decidableNumbered (d : Drawing) (h : Nat) : Decidable (d.Numbered h) :=
  inferInstanceAs (Decidable
    (d.wrap.apply d.y h + (d.sprite.take Sprite.maxRows).length ≤ Sprite.rowBound))

theorem numbered_of_le (hrows : h + 15 ≤ Sprite.rowBound) : d.Numbered h := by
  have horigin := d.wrap.apply_le_dimension d.y h
  have hlength : (d.sprite.take Sprite.maxRows).length ≤ 15 := List.length_take_le _ _
  unfold Numbered
  omega

/-- A picture with columns that fits in memory has fewer rows than there are numbers. -/
theorem numbered_of_isSize (hsize : Bitmap.isSize w h = true) (hw : 0 < w) : d.Numbered h := by
  have hpixels : w * h < Bitmap.sizeBound := of_decide_eq_true hsize
  have hrows : h ≤ w * h := Nat.le_mul_of_pos_left h hw
  apply numbered_of_le
  simp only [Bitmap.sizeBound, Sprite.rowBound] at *
  omega

end Drawing

namespace Bitmap

variable {w h : Nat}

/-! ## Two drawings -/

/-- The picture after a drawing. -/
def draw (b : Bitmap w h) (d : Drawing) : Bitmap w h := (b.blit d.wrap d.x d.y d.sprite).2

/-- Does the drawing make a lit pixel dark? -/
def collides (b : Bitmap w h) (d : Drawing) : Bool := (b.blit d.wrap d.x d.y d.sprite).1

theorem isLit_draw (b : Bitmap w h) (d : Drawing) {p : Nat × Nat} (hp : p.1 < w ∧ p.2 < h) :
    (b.draw d).isLit p = (b.isLit p ^^ decide (d.Covers w h p)) :=
  isLit_blit b d.wrap d.x d.y d.sprite hp

theorem collides_iff (b : Bitmap w h) (d : Drawing) :
    b.collides d = true ↔
      ∃ p : Nat × Nat, (p.1 < w ∧ p.2 < h) ∧ d.Covers w h p ∧ b.isLit p = true :=
  blit_collides_iff b d.wrap d.x d.y d.sprite

theorem draw_comm (b : Bitmap w h) (d e : Drawing) : (b.draw d).draw e = (b.draw e).draw d := by
  apply ext_isLit
  intro p hp
  rw [isLit_draw _ e hp, isLit_draw _ d hp, isLit_draw _ d hp, isLit_draw _ e hp,
    Bool.xor_right_comm]

/-- A drawing that is done twice undoes itself. -/
theorem draw_draw (b : Bitmap w h) (d : Drawing) : (b.draw d).draw d = b := by
  apply ext_isLit
  intro p hp
  rw [isLit_draw _ d hp, isLit_draw _ d hp, Bool.xor_assoc, Bool.xor_self, Bool.xor_false]

/-- What is dark for the first of two equal drawings is lit for the second. -/
theorem collides_twice_iff (b : Bitmap w h) (d : Drawing) :
    (b.collides d || (b.draw d).collides d) = true ↔
      ∃ p : Nat × Nat, (p.1 < w ∧ p.2 < h) ∧ d.Covers w h p := by
  rw [Bool.or_eq_true, collides_iff, collides_iff]
  constructor
  · rintro (⟨p, hp, hcovers, -⟩ | ⟨p, hp, hcovers, -⟩)
    · exact ⟨p, hp, hcovers⟩
    · exact ⟨p, hp, hcovers⟩
  · rintro ⟨p, hp, hcovers⟩
    cases hlit : b.isLit p with
    | true => exact .inl ⟨p, hp, hcovers, hlit⟩
    | false =>
        refine .inr ⟨p, hp, hcovers, ?_⟩
        rw [isLit_draw b d hp, hlit, decide_eq_true hcovers]
        rfl

/-! ## Lists of drawings -/

/-- The picture after some drawings, one after the other. -/
def drawAll (b : Bitmap w h) (ds : List Drawing) : Bitmap w h := ds.foldl draw b

theorem drawAll_perm {ds es : List Drawing} (hperm : es.Perm ds) (b : Bitmap w h) :
    b.drawAll es = b.drawAll ds :=
  hperm.foldl_eq' (fun d _ e _ b => b.draw_comm d e) b

theorem perm_twice (d : Drawing) (before between after : List Drawing) :
    (before ++ d :: between ++ d :: after).Perm (d :: d :: (before ++ between ++ after)) := by
  refine List.perm_middle.trans (.cons d ?_)
  rw [List.append_assoc, List.append_assoc, List.cons_append]
  exact List.perm_middle

/-- A drawing that is done twice makes no difference, whatever is drawn in between. -/
theorem drawAll_twice (b : Bitmap w h) (d : Drawing) (before between after : List Drawing) :
    b.drawAll (before ++ d :: between ++ d :: after) = b.drawAll (before ++ between ++ after) := by
  rw [drawAll_perm (perm_twice d before between after), drawAll, List.foldl_cons, List.foldl_cons,
    draw_draw]
  rfl

/-! ## Drawings that have no answer -/

/-- A drawing with its collision, unless a row of the sprite has no number. -/
def draw? (b : Bitmap w h) (d : Drawing) : Option (Bool × Bitmap w h) :=
  b.blit? d.wrap d.x d.y d.sprite

/-- Drawings one after the other, as far as each has an answer. -/
def drawAll? (b : Bitmap w h) (ds : List Drawing) : Option (Bitmap w h) :=
  ds.foldlM (fun b d => (b.draw? d).map Prod.snd) b

theorem draw?_eq (b : Bitmap w h) (d : Drawing) :
    b.draw? d = if d.Numbered h then some (b.collides d, b.draw d) else none := rfl

theorem isSome_draw?_iff {b : Bitmap w h} {d : Drawing} :
    (b.draw? d).isSome = true ↔ d.Numbered h := by
  rw [draw?_eq]
  split <;> simp [*]

/-- Drawings have an answer together if each of them has. -/
theorem drawAll?_eq (b : Bitmap w h) (ds : List Drawing) :
    b.drawAll? ds = if ∀ d ∈ ds, d.Numbered h then some (b.drawAll ds) else none := by
  induction ds generalizing b with
  | nil => rfl
  | cons d ds ih =>
      rw [drawAll?, List.foldlM_cons, draw?_eq]
      simp only [List.forall_mem_cons]
      by_cases hd : d.Numbered h
      · simp only [hd, true_and]
        exact ih (b.draw d)
      · simp only [hd, false_and, if_false]
        rfl

/-- **The order of drawings does not matter.** Draw any sprites one after the other, each from
an origin of its own and by a rule of its own.  In any order they leave the same picture, or in
none is there an answer.  A drawing that has an answer and is put in twice, anywhere, makes no
difference; done twice in a row it finds a lit pixel at least once exactly if a set bit of the
rows that count is over a pixel of the picture.  Every drawing has an answer on a picture that
fits in memory and has columns, and on one without them unless its rows run out of numbers. -/
theorem drawn_in_any_order (b : Bitmap w h) (ds : List Drawing) :
    (∀ es, es.Perm ds → b.drawAll? es = b.drawAll? ds) ∧
    (∀ d before between after, ds = before ++ between ++ after → (b.draw? d).isSome = true →
      b.drawAll? (before ++ d :: between ++ d :: after) = b.drawAll? ds) ∧
    (∀ d, (b.draw? d).isSome = true → ∃ first second b',
      b.draw? d = some (first, b') ∧ b'.draw? d = some (second, b) ∧
      ((first || second) = true ↔
        ∃ p : Nat × Nat, (p.1 < w ∧ p.2 < h) ∧ d.Covers w h p)) ∧
    (isSize w h = true → 0 < w ∨ h + 15 ≤ Sprite.rowBound →
      (∀ d, (b.draw? d).isSome = true) ∧ ∃ b', b.drawAll? ds = some b') := by
  refine ⟨fun es hperm => ?_, ?_, fun d hd => ?_, fun hsize hrows => ?_⟩
  · simp only [drawAll?_eq, drawAll_perm hperm b, hperm.mem_iff]
  · rintro d before between after rfl hd
    have hmem : (∀ e ∈ before ++ d :: between ++ d :: after, e.Numbered h) ↔
        ∀ e ∈ before ++ between ++ after, e.Numbered h := by
      simp only [(perm_twice d before between after).mem_iff, List.forall_mem_cons,
        isSome_draw?_iff.mp hd, true_and]
    simp only [drawAll?_eq, hmem, drawAll_twice]
  · have hnumbered := isSome_draw?_iff.mp hd
    refine ⟨b.collides d, (b.draw d).collides d, b.draw d, ?_, ?_, b.collides_twice_iff d⟩
    · rw [draw?_eq, if_pos hnumbered]
    · rw [draw?_eq, if_pos hnumbered, draw_draw]
  · have hnumbered : ∀ d : Drawing, d.Numbered h := fun d =>
      hrows.elim (Drawing.numbered_of_isSize hsize) Drawing.numbered_of_le
    refine ⟨fun d => isSome_draw?_iff.mpr (hnumbered d), b.drawAll ds, ?_⟩
    rw [drawAll?_eq, if_pos fun d _ => hnumbered d]

/-- A bar across the last row, which is brought to the first row by one rule and stays by the
other; both are cut off on the right. -/
def bar (wrap : OriginWrap) : Drawing := ⟨wrap, 2, 3, [0xff]⟩

/-- Bars by both rules, in two orders and with a third drawing around one of them. -/
theorem drawn_in_any_order_bars :
    let d : Drawing := ⟨.modulo, 0, 2, [0x81, 0x81]⟩
    let bars := [bar .inherited, bar .modulo]
    bars.reverse.Perm bars ∧ ((blank 8 4).draw? d).isSome = true ∧ isSize 8 4 = true ∧
    (blank 8 4).drawAll? bars.reverse = (blank 8 4).drawAll? bars ∧
    (blank 8 4).drawAll? [d, bar .inherited, d, bar .modulo] = (blank 8 4).drawAll? bars ∧
    (∃ b', (blank 8 4).drawAll? bars = some b') ∧
    ∃ first second b', (blank 8 4).draw? d = some (first, b') ∧
      b'.draw? d = some (second, blank 8 4) ∧ (first || second) = true := by
  intro d bars
  have hperm : bars.reverse.Perm bars := List.reverse_perm bars
  have hd : ((blank 8 4).draw? d).isSome = true := by decide
  have hsize : isSize 8 4 = true := by decide
  obtain ⟨horder, htwice, hcollides, hanswers⟩ := drawn_in_any_order (blank 8 4) bars
  obtain ⟨first, second, b', hfirst, hsecond, hlit⟩ := hcollides d hd
  have hcovers : d.Covers 8 4 (7, 3) := by decide
  exact ⟨hperm, hd, hsize, horder _ hperm, htwice d [] [bar .inherited] [bar .modulo] rfl hd,
    (hanswers hsize (.inl (by decide))).2, first, second, b', hfirst, hsecond,
    hlit.mpr ⟨(7, 3), by decide, hcovers⟩⟩

end Bitmap

end Chip8Vm
