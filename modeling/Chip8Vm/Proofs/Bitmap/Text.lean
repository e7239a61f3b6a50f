import Mathlib.Data.List.DropRight
import Mathlib.Data.List.Flatten
import Chip8Vm.Proofs.Bitmap.Pixel

/-!
# Chip8Vm.Proofs.Bitmap.Text

Pictures read back from their texts.

`IsText` says what is a text of a picture of some size, and `readText` reads the pixels off it;
neither knows how a text is written.

* `isText_text`, `readText_text` — what is written is such a text, and is read as the cells;
* `IsText.ext` — no other text is read as the same cells.
-/

namespace Chip8Vm.Bitmap

variable {w h : Nat}

/-! ## Reading -/

/-- The lines of a text in which every line is ended by a newline. -/
def lines (text : String) : List (List Char) := (text.toList.splitOn '\n').dropLast

/-- A line as pixels: spaces are added up to the width, and `o` is lit. -/
def readLine (w : Nat) (line : List Char) : List Bool := (line.rightpad w ' ').map (· == 'o')

/-- The pixels of a text, line by line. -/
def readText (w : Nat) (text : String) : List Bool := (lines text).flatMap (readLine w)

/-- A line for a row of `w` pixels. -/
structure IsLine (w : Nat) (line : List Char) : Prop where
  short : line.length ≤ w
  trimmed : line.getLast? ≠ some ' '
  marks : ∀ c ∈ line, c = 'o' ∨ c = ' '

/-- A text for `h` rows of `w` pixels: a line for every row, each ended by a newline. -/
structure IsText (w h : Nat) (text : String) : Prop where
  ended : text.toList = (lines text).flatMap (· ++ ['\n'])
  count : (lines text).length = h
  isLine : ∀ line ∈ lines text, IsLine w line

/-! ## Lines -/

/-- What is trimmed and padded again is the line that it was. -/
theorem rightpad_trimEnd (line : List Char) :
    (trimEnd line).rightpad line.length ' ' = line := by
  have hsplit : trimEnd line ++ line.rtakeWhile (· == ' ') = line :=
    List.rdropWhile_append_rtakeWhile
  have hspaces : line.rtakeWhile (· == ' ') =
      List.replicate (line.length - (trimEnd line).length) ' ' := by
    refine List.eq_replicate_iff.mpr ⟨?_, fun c hc => by simpa using List.mem_rtakeWhile_imp hc⟩
    have hlength := congrArg List.length hsplit
    rw [List.length_append] at hlength
    omega
  rw [List.rightpad, ← hspaces, hsplit]

theorem getLast?_trimEnd (line : List Char) : (trimEnd line).getLast? ≠ some ' ' := by
  intro hlast
  obtain ⟨front, hfront⟩ := List.getLast?_eq_some_iff.mp hlast
  have hne : trimEnd line ≠ [] := by simp [hfront]
  have hspace : (trimEnd line).getLast hne = ' ' := by simp [hfront]
  exact List.rdropWhile_last_not (· == ' ') line hne (beq_iff_eq.mpr hspace)

/-- Spaces at the end of a line without any are all that is trimmed. -/
theorem trimEnd_append_spaces {line : List Char} (hline : line.getLast? ≠ some ' ') (n : Nat) :
    trimEnd (line ++ List.replicate n ' ') = line := by
  induction n with
  | zero =>
      rw [List.replicate_zero, List.append_nil]
      refine List.rdropWhile_eq_self_iff.mpr fun hne hspace => hline ?_
      rw [List.getLast?_eq_some_getLast hne, beq_iff_eq.mp hspace]
  | succ n ih =>
      have htrim : trimEnd ((line ++ List.replicate n ' ') ++ [' ']) =
          trimEnd (line ++ List.replicate n ' ') := List.rdropWhile_concat_pos _ _ _ rfl
      rw [List.replicate_succ', ← List.append_assoc, htrim, ih]

/-- The character of a pixel. -/
def mark (lit : Bool) : Char := if lit then 'o' else ' '

theorem isLine_trimEnd_marks {row : List Bool} (hrow : row.length ≤ w) :
    IsLine w (trimEnd (row.map mark)) where
  short := by
    have hle := (List.rdropWhile_prefix (· == ' ') (row.map mark)).length_le
    rw [List.length_map] at hle
    exact Nat.le_trans hle hrow
  trimmed := getLast?_trimEnd _
  marks c hc := by
    obtain ⟨lit, -, rfl⟩ := List.mem_map.mp ((List.rdropWhile_prefix (· == ' ') _).mem hc)
    cases lit <;> simp [mark]

theorem readLine_trimEnd_marks (row : List Bool) :
    readLine row.length (trimEnd (row.map mark)) = row := by
  have hpad := rightpad_trimEnd (row.map mark)
  rw [List.length_map] at hpad
  have hmark : ∀ lit, (mark lit == 'o') = lit := by decide
  simp only [readLine, hpad, List.map_map, Function.comp_def, hmark, List.map_id']

/-- A line is the trimmed marks of the pixels that it is read as. -/
theorem IsLine.eq_trimEnd {line : List Char} (hline : IsLine w line) :
    line = trimEnd ((readLine w line).map mark) := by
  have hmarks : (readLine w line).map mark = line ++ List.replicate (w - line.length) ' ' := by
    have hmark : ∀ c ∈ line, mark (c == 'o') = c := fun c hc => by
      obtain rfl | rfl := hline.marks c hc <;> rfl
    rw [readLine, List.rightpad, List.map_map, List.map_append, List.map_replicate]
    congr 1
    exact (List.map_congr_left hmark).trans (List.map_id' line)
  rw [hmarks, trimEnd_append_spaces hline.trimmed]

theorem IsLine.length_readLine {line : List Char} (hline : IsLine w line) :
    (readLine w line).length = w := by
  rw [readLine, List.length_map, List.length_rightpad, Nat.max_eq_left hline.short]

/-! ## Texts -/

/-- The lines of a text are those that it was put together from, if no newline was among
their characters. -/
theorem lines_ofList {rows : List (List Char)} (hrows : ∀ row ∈ rows, '\n' ∉ row) :
    lines (String.ofList (rows.flatMap (· ++ ['\n']))) = rows := by
  have hsplit : (rows.flatMap (· ++ ['\n'])).splitOn '\n' = rows ++ [[]] := by
    induction rows with
    | nil => rfl
    | cons row rows ih =>
        have hrow := hrows row List.mem_cons_self
        have hrest := ih fun row' hrow' => hrows row' (List.mem_cons_of_mem _ hrow')
        rw [List.flatMap_cons, List.append_assoc, List.singleton_append, List.splitOn,
          List.splitOnP_append_cons _ _ (by simp)]
        rw [List.splitOn] at hrest
        rw [hrest, ← List.splitOn, List.splitOn_eq_singleton hrow]
        rfl
  rw [lines, String.toList_ofList, hsplit, List.dropLast_concat]

/-- Texts of one size that are read as the same pixels are the same. -/
theorem IsText.ext {text text' : String} (htext : IsText w h text) (htext' : IsText w h text')
    (hread : readText w text = readText w text') : text = text' := by
  have hlines : (lines text).map (readLine w) = (lines text').map (readLine w) := by
    have hlengths : ∀ t, IsText w h t →
        ((lines t).map (readLine w)).map List.length = List.replicate h w := fun t ht => by
      refine List.eq_replicate_iff.mpr ⟨by simp [ht.count], fun n hn => ?_⟩
      simp only [List.mem_map, exists_exists_and_eq_and] at hn
      obtain ⟨line, hline, rfl⟩ := hn
      exact (ht.isLine line hline).length_readLine
    refine List.eq_iff_flatten_eq.mpr ⟨?_, (hlengths _ htext).trans (hlengths _ htext').symm⟩
    rwa [← List.flatMap_def, ← List.flatMap_def]
  have hback : ∀ t, IsText w h t →
      lines t = ((lines t).map (readLine w)).map fun row => trimEnd (row.map mark) := fun t ht => by
    rw [List.map_map]
    exact (List.map_id' _).symm.trans
      (List.map_congr_left fun line hline => (ht.isLine line hline).eq_trimEnd)
  rw [← String.toList_inj, htext.ended, htext'.ended, hback _ htext, hlines, ← hback _ htext']

/-! ## Pictures -/

/-- The pixels of a row. -/
def row (b : Bitmap w h) (y : Nat) : List Bool := (List.range w).map fun x => b.isLit (x, y)

theorem rowText_eq (b : Bitmap w h) (y : Nat) : b.rowText y = trimEnd ((b.row y).map mark) := by
  simp only [rowText, row, List.map_map, Function.comp_def, mark]

/-- The rows one after the other are the cells. -/
theorem flatMap_row (hw : 0 < w) (b : Bitmap w h) :
    (List.range h).flatMap b.row = b.cells.toList := by
  have hlit : ∀ k (hk : k < w * h), b.isLit (k % w, k / w) = b.cells[k] := fun k hk => by
    have hindex : index w (k % w) (k / w) = k := index_mod_div w k
    rw [isLit_eq b (by rwa [hindex])]
    simp only [hindex]
  have hrows : (List.range h).flatMap b.row = (coordinates w h).map b.isLit := by
    rw [coordinates, if_neg (Nat.ne_of_gt hw), List.map_flatMap]
    simp only [List.map_map]
    rfl
  rw [hrows, coordinates_eq hw, List.map_map]
  refine List.ext_getElem (by simp) fun k hk hk' => ?_
  simpa using hlit k (by simpa using hk)

variable (b : Bitmap w h)

/-- The lines of what is written are the texts of the rows. -/
theorem lines_text (hw : 0 < w) : lines b.text = (List.range h).map b.rowText := by
  have hnewline : ∀ line ∈ (List.range h).map b.rowText, '\n' ∉ line := fun line hline hmem => by
    obtain ⟨y, -, rfl⟩ := List.mem_map.mp hline
    rw [rowText_eq] at hmem
    obtain hmark | hmark := (isLine_trimEnd_marks (Nat.le_refl _)).marks _ hmem <;> cases hmark
  rw [text, if_neg (Nat.ne_of_gt hw), ← lines_ofList hnewline, List.flatMap_map]

theorem isText_text (hw : 0 < w) : IsText w h b.text where
  ended := by
    rw [lines_text b hw, text, if_neg (Nat.ne_of_gt hw), String.toList_ofList, List.flatMap_map]
  count := by rw [lines_text b hw, List.length_map, List.length_range]
  isLine line hline := by
    rw [lines_text b hw] at hline
    obtain ⟨y, -, rfl⟩ := List.mem_map.mp hline
    rw [rowText_eq]
    exact isLine_trimEnd_marks (by simp [row])

theorem readText_text (hw : 0 < w) : readText w b.text = b.cells.toList := by
  have hrow : ∀ y, readLine w (b.rowText y) = b.row y := fun y => by
    have hlength : (b.row y).length = w := by simp [row]
    have hread := readLine_trimEnd_marks (b.row y)
    rwa [hlength, ← rowText_eq] at hread
  rw [readText, lines_text b hw, List.flatMap_map, ← flatMap_row hw]
  simp only [hrow]

/-- **A text tells its picture.** The text of a picture with columns has a line for every row,
each ended by a newline and at most as long as the row, of no other characters than `o` and the
space, and with no space at its end.  Filled up with spaces again and read as pixels, the lines
are the cells of the picture.  There is no other text of which all this is so; hence pictures of
one size have the same text exactly if they are the same. -/
theorem text_tells_picture (hw : 1 ≤ w) :
    IsText w h b.text ∧ readText w b.text = b.cells.toList ∧
      (∀ text, IsText w h text → readText w text = b.cells.toList → text = b.text) ∧
      ∀ b' : Bitmap w h, b.text = b'.text ↔ b = b' := by
  have hread := readText_text b hw
  refine ⟨isText_text b hw, hread, fun text htext hcells => ?_, fun b' => ⟨fun htext => ?_, ?_⟩⟩
  · exact htext.ext (isText_text b hw) (hcells.trans hread.symm)
  · rw [htext, readText_text b' hw, Vector.toList_inj] at hread
    cases b
    cases b'
    rw [mk.injEq]
    exact hread.symm
  · rintro rfl
    rfl

/-- A dark row, a lit one, and rows lit at either end. -/
def ragged : Bitmap 3 4 :=
  ⟨#v[false, false, false, true, true, true, false, false, true, true, false, false]⟩

/-- The text of four rows has four lines, the first of them empty, and is read as twelve cells. -/
theorem text_tells_picture_ragged :
    1 ≤ 3 ∧ ragged.text = "\nooo\n  o\no\n" ∧
      readText 3 "\nooo\n  o\no\n" = ragged.cells.toList := by
  have htext : ragged.text = "\nooo\n  o\no\n" := by decide
  have hread := (text_tells_picture ragged (by decide)).2.1
  rw [htext] at hread
  exact ⟨by decide, htext, hread⟩

end Chip8Vm.Bitmap
