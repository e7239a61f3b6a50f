import Chip8Vm.Proofs.Console.KeyWait
import Chip8Vm.Proofs.Ram.Written

/-!
# Chip8Vm.Proofs.Console.Glyphs

How long the built-in glyphs last.

Nothing guards the memory below the programs: a program can write over the glyphs, and then
other pictures are drawn (`glyphs_overwritten`).  Loading a program never does so, and no
operation but a step that writes does; so every byte of the glyphs is as it was in the
beginning until a step writes it (`read_after`).

* `Console.Spares` — no step of a history writes a byte;
* `picture_of_draw` — what drawing a glyph leaves;
* `glyphs_last` — the main theorem, about every history of a new console.
-/

namespace Chip8Vm

namespace Ram

/-- The address of a byte of the glyphs. -/
def glyphByte (n : Nat) : UInt16 := glyphStart + UInt16.ofNat n

/-- The rows of the glyph of a digit. -/
def glyph (digit : Nibble) : List UInt8 := (glyphs.drop (glyphRows * digit.val)).take glyphRows

/-- The glyphs lie below the programs. -/
theorem glyphByte_below : ∀ n < glyphs.length, (glyphByte n).toNat % 4096 < programStart.toNat := by
  decide +kernel

theorem readMany_initial : initial.readMany glyphStart glyphs.length = glyphs :=
  readMany_writeAll blank glyphStart (by decide)

theorem read_initial (n : Nat) (hn : n < glyphs.length) :
    initial.read (glyphByte n) = glyphs[n] := by
  have hlength : n < (initial.readMany glyphStart glyphs.length).length := by
    rwa [length_readMany]
  have hread := getElem_readMany initial glyphStart hlength
  simp only [readMany_initial] at hread
  exact hread.symm

theorem glyphByte_add (k n : Nat) : glyphByte k + UInt16.ofNat n = glyphByte (k + n) := by
  rw [glyphByte, glyphByte, UInt16.ofNat_add, UInt16.add_assoc]

/-- Every glyph ends within the table. -/
theorem glyph_le_length (digit : Nibble) :
    glyphRows * digit.val + glyphRows ≤ glyphs.length := by
  have hdigit := digit.isLt
  rw [length_glyphs]
  simp only [glyphRows]
  omega

theorem readMany_initial_glyph (digit : Nibble) :
    initial.readMany (glyphByte (glyphRows * digit.val)) glyphRows = glyph digit := by
  have hlast := glyph_le_length digit
  apply List.ext_getElem
  · rw [length_readMany, glyph, List.length_take, List.length_drop]
    omega
  · intro row hrow _
    rw [length_readMany] at hrow
    rw [getElem_readMany, glyphByte_add, read_initial _ (by omega)]
    simp only [glyph, List.getElem_take, List.getElem_drop]

end Ram

namespace Console

variable {w h : Nat} {c d : Console w h} {q : UInt16} {ops : List Operation}

/-! ## Bytes that no step writes -/

/-- No step of a history writes the byte at `q`. -/
def Spares (c : Console w h) (ops : List Operation) (q : UInt16) : Prop :=
  ∀ before later, ops = before ++ .step :: later → ¬(c.after before).machine.Writes q

theorem Spares.tail {op : Operation} (hops : c.Spares (op :: ops) q) :
    (c.operate op).2.Spares ops q := fun before later hsplit =>
  hops (op :: before) later (congrArg (List.cons op) hsplit)

/-- Below the programs, only a step that writes a byte changes it. -/
theorem read_operate (hq : q.toNat % 4096 < Ram.programStart.toNat) {op : Operation}
    (hop : op = .step → ¬c.machine.Writes q) :
    (c.operate op).2.machine.ram.read q = c.machine.ram.read q := by
  rw [machine_operate]
  cases op with
  | load source => exact Ram.read_load _ source hq
  | step => exact Machine.ram_step (hop rfl)
  | _ => rfl

theorem read_after (hq : q.toNat % 4096 < Ram.programStart.toNat) (hops : c.Spares ops q) :
    (c.after ops).machine.ram.read q = c.machine.ram.read q := by
  induction ops generalizing c with
  | nil => rfl
  | cons op ops ih =>
      have hfirst : op = .step → ¬c.machine.Writes q := fun hop => hops [] ops (by rw [hop]; rfl)
      rw [after, ih hops.tail, read_operate hq hfirst]

/-- A byte of the glyphs that no step has written is the built-in one. -/
theorem read_glyphByte (random : Random.Stream) (wrap : OriginWrap) (hazards : Hazards) {n : Nat}
    (hn : n < Ram.glyphs.length)
    (hops : (plugged w h random wrap hazards).Spares ops (Ram.glyphByte n)) :
    ((plugged w h random wrap hazards).after ops).machine.ram.read (Ram.glyphByte n) =
      Ram.initial.read (Ram.glyphByte n) :=
  read_after (Ram.glyphByte_below n hn) hops

/-- So are several of them that follow each other. -/
theorem readMany_glyphByte (random : Random.Stream) (wrap : OriginWrap) (hazards : Hazards)
    {k n : Nat}
    (hn : k + n ≤ Ram.glyphs.length)
    (hops : ∀ j < n, (plugged w h random wrap hazards).Spares ops (Ram.glyphByte (k + j))) :
    ((plugged w h random wrap hazards).after ops).machine.ram.readMany (Ram.glyphByte k) n =
      Ram.initial.readMany (Ram.glyphByte k) n := by
  refine Ram.readMany_congr fun j hj => ?_
  rw [Ram.glyphByte_add]
  exact read_glyphByte random wrap hazards (by omega) (hops j hj)

/-! ## Drawing a glyph -/

/-- The picture and the flag that are left when these rows are drawn at (Vy, Vz). -/
structure Draws (c : Console w h) (y z : Reg) (rows : List UInt8) (d : Console w h) : Prop where
  picture : d.machine.picture = (c.machine.picture.blit c.machine.wrap
    (c.machine.cpu.get y).toNat (c.machine.cpu.get z).toNat rows).2
  collision : d.machine.cpu.get Reg.flag = if (c.machine.picture.blit c.machine.wrap
    (c.machine.cpu.get y).toNat (c.machine.cpu.get z).toNat rows).1 then 1 else 0

theorem machine_step_draw {y z : Reg} {n : Nibble} (hd : d.machine.upcoming? = some (.draw y z n)) :
    d.step.2.machine = d.machine.moved.drawSprite y z n :=
  machine_of_execute hd rfl

theorem machine_step_glyph {x : Reg} (hx : c.machine.upcoming? = some (.glyph x)) :
    c.step.2.machine = c.machine.moved.withCpu fun cpu =>
      { cpu with i := Ram.glyphAddress (c.machine.cpu.get x) } :=
  machine_of_execute hx rfl

/-- The rows that stand at the index are drawn, at the place that the registers name before the
flag is written. -/
theorem draws_step_draw {y z : Reg} {n : Nibble} (hd : d.machine.upcoming? = some (.draw y z n)) :
    Draws d y z (d.machine.ram.readMany d.machine.cpu.i n.val) d.step.2 := by
  have hdrawn := machine_step_draw hd
  constructor
  · rw [hdrawn]
    rfl
  · rw [hdrawn]
    exact (Cpu.get_set _ _ _ _).trans (if_pos rfl)

/-- The index is set to a glyph, ticks and key events go by, and five rows are drawn: those
that stand at the glyph's address. -/
theorem draws_of_glyph {x y z : Reg} (hx : c.machine.upcoming? = some (.glyph x))
    {idle : List Operation} (hidle : ∀ op ∈ idle, op.isPlay = true ∧ op ≠ .step)
    (hdraw : (c.step.2.after idle).machine.upcoming? = some (.draw y z 5)) :
    Draws c y z (c.machine.ram.readMany (Ram.glyphAddress (c.machine.cpu.get x)) 5)
      (c.step.2.after idle).step.2 := by
  obtain ⟨pad, delay, sound, hsame⟩ := machine_after_idle (c := c.step.2) hidle
  rw [machine_step_glyph hx] at hsame
  have hdraws := draws_step_draw hdraw
  constructor
  · rw [hdraws.picture, hsame]
    rfl
  · rw [hdraws.collision, hsame]
    rfl

/-! ## Glyphs in every history -/

/-- **The glyphs last until they are written over.** Whatever is done with a new console, in any
order and going on after faults, every byte of the built-in glyphs that no step has written is
as it was; with none of them written, the whole table is.  If no step has written a row of
the glyph that belongs to the low nibble of Vx, then setting the index to the glyph of Vx and
drawing five rows draws that glyph. -/
theorem glyphs_last (random : Random.Stream) (wrap : OriginWrap) (hazards : Hazards)
    (ops : List Operation) :
    let c : Console w h := (plugged w h random wrap hazards).after ops
    let spared (n : Nat) := (plugged w h random wrap hazards).Spares ops (Ram.glyphByte n)
    (∀ (n : Nat) (hn : n < Ram.glyphs.length), spared n →
      c.machine.ram.read (Ram.glyphByte n) = Ram.glyphs[n]) ∧
    ((∀ n < Ram.glyphs.length, spared n) →
      c.machine.ram.readMany Ram.glyphStart Ram.glyphs.length = Ram.glyphs) ∧
    ∀ (x y z : Reg) (idle : List Operation),
      let digit := Nibble.ofNat (c.machine.cpu.get x).toNat
      (∀ row < Ram.glyphRows, spared (Ram.glyphRows * digit.val + row)) →
      c.machine.upcoming? = some (.glyph x) →
      (∀ op ∈ idle, op.isPlay = true ∧ op ≠ .step) →
      (c.step.2.after idle).machine.upcoming? = some (.draw y z 5) →
      Draws c y z (Ram.glyph digit) (c.step.2.after idle).step.2 := by
  intro c spared
  refine ⟨fun n hn hspared => ?_, fun hspared => ?_, ?_⟩
  · rw [← Ram.read_initial n hn]
    exact read_glyphByte random wrap hazards hn hspared
  · have htable := readMany_glyphByte (k := 0) random wrap hazards (Nat.le_of_eq (Nat.zero_add _))
      fun n hn => (Nat.zero_add n).symm ▸ hspared n hn
    exact htable.trans Ram.readMany_initial
  · intro x y z idle digit hspared hx hidle hdraw
    have hrows := readMany_glyphByte random wrap hazards (Ram.glyph_le_length digit) hspared
    rw [Ram.readMany_initial_glyph] at hrows
    exact hrows ▸ draws_of_glyph hx hidle hdraw

/-- A new console whose program has put eleven into V3 and goes on with its glyph. -/
def aboutToDraw : List Operation :=
  [.load { bytes := [0x63, 0x0b, 0xf3, 0x29, 0xd0, 0x15] }, .step]

/-- The glyph of eleven is drawn, with a tick and a key event in between. -/
theorem glyphs_last_drawn :
    Draws ((plugged 8 5 (.chacha 0) .inherited {}).after aboutToDraw) 0 1 (Ram.glyph 0xb)
      ((((plugged 8 5 (.chacha 0) .inherited {}).after aboutToDraw).step.2.after
        [.tick, .accept ⟨0x4, true⟩]).step.2) := by
  have hspared : ∀ q, (plugged 8 5 (.chacha 0) .inherited {}).Spares aboutToDraw q := by
    rintro q before later hsplit ⟨i, hi, hcovers⟩
    obtain rfl : before = [.load { bytes := [0x63, 0x0b, 0xf3, 0x29, 0xd0, 0x15] }] := by
      rcases before with _ | ⟨op, _ | ⟨next, rest⟩⟩ <;> simp_all [aboutToDraw]
    have hload : ((plugged 8 5 (.chacha 0) .inherited {}).after
        [.load { bytes := [0x63, 0x0b, 0xf3, 0x29, 0xd0, 0x15] }]).machine.upcoming? =
          some (.loadByte 3 0xb) := by
      decide +kernel
    cases hi.symm.trans hload
    exact Ram.not_covers_zero hcovers
  have hidle : ∀ op ∈ [Operation.tick, .accept ⟨0x4, true⟩], op.isPlay = true ∧ op ≠ .step := by
    simp [Operation.isPlay]
  have hdigit : Nibble.ofNat
      (((plugged 8 5 (.chacha 0) .inherited {}).after aboutToDraw).machine.cpu.get 3).toNat =
        0xb := by
    decide +kernel
  have hdrawn := (glyphs_last (w := 8) (h := 5) (.chacha 0) .inherited {} aboutToDraw).2.2 3 0 1 _
    (fun _ _ => hspared _) (by decide +kernel) hidle (by decide +kernel)
  rwa [hdigit] at hdrawn

/-- A program that stores V0, which is zero, over the first row of the glyph of zero, and then
draws the glyph of V0. -/
def defacing : Source := { bytes := [0xa0, 0x50, 0xf0, 0x55, 0xf0, 0x29, 0xd0, 0x15] }

/-- The program is loaded and runs without a fault; then the table is another one, and what is
drawn is not the glyph of zero. -/
theorem glyphs_overwritten :
    let c : Console 8 5 :=
      (plugged 8 5 (.chacha 0) .inherited {}).after [.load defacing, .step, .step]
    ((plugged 8 5 (.chacha 0) .inherited {}).load defacing).1 = .ok 8 ∧
    c.machine.ram.readMany Ram.glyphStart Ram.glyphs.length ≠ Ram.glyphs ∧
    c.step.1 = .ok (.executed (.glyph 0)) ∧ c.step.2.step.1 = .ok (.executed (.draw 0 1 5)) ∧
    ¬Draws c 0 1 (Ram.glyph (Nibble.ofNat (c.machine.cpu.get 0).toNat)) c.step.2.step.2 := by
  refine ⟨by decide +kernel, by decide +kernel, by decide +kernel, by decide +kernel, ?_⟩
  intro hdraws
  have hpicture := hdraws.picture
  revert hpicture
  decide +kernel

end Console

end Chip8Vm
