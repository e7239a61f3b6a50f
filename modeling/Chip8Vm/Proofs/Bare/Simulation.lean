import Chip8Vm.Proofs.Bare.Machine
import Chip8Vm.Proofs.Bare.Opcode
import Chip8Vm.Proofs.Bitmap.Pixel
import Chip8Vm.Proofs.Machine.Bounded

/-!
# Chip8Vm.Proofs.Bare.Simulation

No check of a bare machine ever fails.

`Machine.bare` is a machine put on plain arrays and words.  Each part of a bare machine's
work, done on such a one, has an answer, and the answer is what the same part of a
`Machine`'s work leaves, put on arrays and words again.
-/

namespace Chip8Vm

variable {w h : Nat}

/-- A pixel as a byte. -/
def Bitmap.cell (lit : Bool) : UInt8 := if lit then 1 else 0

/-- A picture as a byte for every pixel. -/
def Bitmap.bytes (b : Bitmap w h) : Array UInt8 := b.cells.toArray.map Bitmap.cell

/-- The register that waits for a key. -/
def Mode.register? : Mode → Option UInt8
  | .running => none
  | .awaiting x => some x.byte

/-- The machine on plain arrays and words. -/
def Machine.bare (m : Machine w h) : Bare where
  bytes := m.ram.cells.toArray
  v := m.cpu.v.toArray
  i := m.cpu.i
  pc := m.cpu.pc
  sp := m.cpu.stack.depth.val
  stack := m.cpu.stack.slots.toArray
  delay := m.cpu.delay
  sound := m.cpu.sound
  width := w
  height := h
  cells := m.picture.bytes
  held := m.pad.held.toArray
  slot := m.pad.slot.map Nibble.byte
  random := m.random
  wrap := m.wrap
  awaiting := m.mode.register?

namespace Bare

open Checked

variable (m : Machine w h)

/-! ## Memory -/

/-- A place that the vector has can be written. -/
theorem put?_toArray {α : Type} {n : Nat} (v : Vector α n) {k : Nat} (hk : k < n) (x : α) :
    put? v.toArray k x = some (v.set k x).toArray := by
  have hsize : k < v.toArray.size := by rw [v.size_toArray]; exact hk
  rw [put?, dif_pos hsize, Vector.toArray_set]

theorem getElem?_toArray {α : Type} {n : Nat} (v : Vector α n) {k : Nat} (hk : k < n) :
    v.toArray[k]? = some v[k] := by
  rw [Vector.getElem?_toArray, Vector.getElem?_eq_getElem hk]

/-- Masking an address finds its cell. -/
theorem toNat_mask (a : UInt16) : (a &&& 0x0fff).toNat = (Ram.cell a).val := by
  rw [UInt16.toNat_and]
  exact Nat.and_two_pow_sub_one_eq_mod a.toNat 12

@[simp] theorem read?_bare (a : UInt16) : m.bare.read? a = some (m.ram.read a) := by
  have hcell := (Ram.cell a).isLt
  simp only [read?, toNat_mask, Machine.bare, Ram.read]
  exact getElem?_toArray _ hcell

@[simp] theorem write?_bare (a : UInt16) (b : UInt8) :
    m.bare.write? a b = some ({ m with ram := m.ram.write a b } : Machine w h).bare := by
  have hcell := (Ram.cell a).isLt
  simp only [write?, toNat_mask, Machine.bare, Ram.write]
  rw [put?_toArray _ hcell]
  rfl

@[simp] theorem writeAll?_bare (a : UInt16) (bytes : List UInt8) :
    m.bare.writeAll? a bytes =
      some ({ m with ram := m.ram.writeAll a bytes } : Machine w h).bare := by
  induction bytes generalizing m a with
  | nil => rfl
  | cons b bs ih =>
      simp only [writeAll?, write?_bare, Option.bind_eq_bind, Option.bind_some]
      exact ih _ _

@[simp] theorem readMany?_bare (a : UInt16) (n : Nat) :
    m.bare.readMany? a n = some (m.ram.readMany a n) := by
  induction n generalizing a with
  | zero => rfl
  | succ n ih =>
      simp only [readMany?, read?_bare, ih, Option.bind_eq_bind, Option.bind_some]
      rfl

@[simp] theorem word?_bare (a : UInt16) : m.bare.word? a = some (m.ram.word a) := by
  simp only [word?, read?_bare, Option.bind_eq_bind, Option.bind_some]
  rfl

/-- No glyph's address overflows. -/
@[simp] theorem glyphAddress?_eq (digit : UInt8) :
    glyphAddress? digit = some (Ram.glyphAddress digit) := by
  have hdigit := Nat.mod_lt digit.toNat (show 16 > 0 by decide)
  have hmask : (digit &&& 0x0f).toUInt16.toNat = digit.toNat % 16 := by
    rw [UInt8.toNat_toUInt16, UInt8.toNat_and]
    exact Nat.and_two_pow_sub_one_eq_mod digit.toNat 4
  have hoffset : (5 * (digit &&& 0x0f).toUInt16).toNat = 5 * (digit.toNat % 16) := by
    rw [UInt16.toNat_mul, hmask]
    exact Nat.mod_eq_of_lt (by simp only [UInt16.reduceToNat]; omega)
  have hsum : (Ram.glyphStart + 5 * (digit &&& 0x0f).toUInt16) = Ram.glyphAddress digit := by
    apply UInt16.toNat_inj.mp
    rw [Ram.toNat_glyphAddress, UInt16.toNat_add, hoffset]
    exact Nat.mod_eq_of_lt (by simp only [Ram.glyphStart, UInt16.reduceToNat]; omega)
  have hmul : (5 : UInt16).toNat * (digit &&& 0x0f).toUInt16.toNat < 65536 := by
    rw [hmask]
    simp only [UInt16.reduceToNat]
    omega
  have hadd : Ram.glyphStart.toNat + (5 * (digit &&& 0x0f).toUInt16).toNat < 65536 := by
    rw [hoffset]
    simp only [Ram.glyphStart, UInt16.reduceToNat]
    omega
  simp only [glyphAddress?, mul16?, add16?, if_pos hmul, if_pos hadd, Option.bind_eq_bind,
    Option.bind_some, hsum]

/-- The room above a base is a number unless the base is beyond the top of memory. -/
theorem loadAt?_bare (base : UInt16) (s : Source) :
    m.bare.loadAt? base s = (m.ram.loadAt? base s).map fun out =>
      (out.1, ({ m with ram := out.2 } : Machine w h).bare) := by
  unfold loadAt? Ram.loadAt? Ram.loadWithin
  cases s.failure with
  | some text => simp
  | none =>
      by_cases hbase : base.toNat ≤ 4096
      · have hlimit : sub? 4096 base.toNat = some (4096 - base.toNat) := if_pos hbase
        simp only [hlimit, hbase, Option.bind_eq_bind, Option.bind_some, or_true, if_true,
          Option.map_some]
        split
        · rfl
        · rw [writeAll?_bare]
          rfl
      · have hlimit : sub? 4096 base.toNat = none := if_neg hbase
        simp [hlimit, hbase]

/-! ## Registers -/

/-- Masking a register's number finds its place. -/
theorem toNat_register (x : Reg) : (x.byte &&& 0x0f).toNat = x.val := by
  have hmask : (x.byte &&& 0x0f).toNat = x.byte.toNat % 16 := by
    rw [UInt8.toNat_and]
    exact Nat.and_two_pow_sub_one_eq_mod x.byte.toNat 4
  rw [hmask, Nibble.toNat_byte, Nat.mod_eq_of_lt x.isLt]

@[simp] theorem get?_bare (x : Reg) : m.bare.get? x.byte = some (m.cpu.get x) := by
  simp only [get?, toNat_register, Machine.bare, Cpu.get]
  exact getElem?_toArray _ x.isLt

@[simp] theorem set?_bare (x : Reg) (b : UInt8) :
    m.bare.set? x.byte b = some (m.withCpu (·.set x b)).bare := by
  simp only [set?, toNat_register, Machine.bare, Machine.withCpu, Cpu.set]
  rw [put?_toArray _ x.isLt]
  rfl

@[simp] theorem setFlag?_bare (b : Bool) :
    m.bare.setFlag? b = some (m.withCpu (·.setFlag b)).bare :=
  set?_bare m Reg.flag _

@[simp] theorem registersUpTo?_bare (x : Reg) :
    m.bare.registersUpTo? x.byte = some (Machine.registersUpTo m.cpu x) := by
  have hsize : x.byte.toNat < m.bare.v.size := by
    rw [Nibble.toNat_byte, Machine.bare, Vector.size_toArray]
    exact x.isLt
  rw [registersUpTo?, if_pos hsize, Nibble.toNat_byte]
  rfl

theorem restoreOne?_bare (x : Reg) :
    m.bare.restoreOne? x.val =
      some (m.withCpu (·.set x (m.ram.read (m.cpu.i + UInt16.ofNat x.val)))).bare := by
  have hread := read?_bare m (m.cpu.i + UInt16.ofNat x.val)
  have hset := set?_bare m x (m.ram.read (m.cpu.i + UInt16.ofNat x.val))
  simp only [restoreOne?, Option.bind_eq_bind]
  rw [show m.bare.i = m.cpu.i from rfl, hread, Option.bind_some]
  exact hset

/-- Registers that are restored one after the other hold the bytes from the index on. -/
theorem foldlM_restoreOne? (n k : Nat) (hn : n + k ≤ 16) :
    (List.range' n k).foldlM restoreOne? m.bare =
      some (m.withCpu fun c =>
        ((m.ram.readMany (c.i + UInt16.ofNat n) k).zipIdx n).foldl
          (fun c (b, n) => if hn : n < 16 then c.set ⟨n, hn⟩ b else c) c).bare := by
  induction k generalizing m n with
  | zero => rfl
  | succ k ih =>
      have hlt : n < 16 := by omega
      have hnext : m.cpu.i + UInt16.ofNat (n + 1) = m.cpu.i + UInt16.ofNat n + 1 := by
        rw [UInt16.ofNat_add, UInt16.add_assoc]
        rfl
      rw [List.range'_succ, List.foldlM_cons, restoreOne?_bare m ⟨n, hlt⟩, Option.bind_eq_bind,
        Option.bind_some, ih _ (n + 1) (by omega)]
      simp only [Ram.readMany, List.zipIdx_cons, List.foldl_cons, dif_pos hlt, Machine.withCpu,
        Cpu.set, hnext]

/-! ## Keys -/

@[simp] theorem isHeld?_bare (key : UInt8) :
    m.bare.isHeld? key = some (m.pad.isHeld key) := by
  have hmask : (key &&& 0x0f).toNat = (Nibble.ofNat key.toNat).val := by
    rw [UInt8.toNat_and]
    exact Nat.and_two_pow_sub_one_eq_mod key.toNat 4
  simp only [isHeld?, hmask, Machine.bare]
  exact getElem?_toArray _ (Nibble.ofNat key.toNat).isLt

/-- A key event for a key that there is has a place, and another one changes nothing. -/
@[simp] theorem accept?_bare (e : KeyEvent) : m.bare.accept? e = some (m.accept e).bare := by
  have hsize : m.bare.held.size = 16 := m.pad.held.size_toArray
  by_cases hkey : e.key.toNat < 16
  · have hput : put? m.bare.held e.key.toNat e.pressed =
        some (m.pad.held.set e.key.toNat e.pressed).toArray := put?_toArray _ hkey _
    have hback : Nibble.byte ⟨e.key.toNat, hkey⟩ = e.key := UInt8.ofNat_toNat
    simp only [accept?, hsize, if_pos hkey, hput, Option.bind_eq_bind, Option.bind_some,
      Machine.accept, HexPad.accept, HexPad.keyOf?, dif_pos hkey]
    cases hpressed : e.pressed with
    | true =>
        simp only [if_true, HexPad.enter, HexPad.post, Machine.bare, Option.map_some, hback]
    | false =>
        simp only [Bool.false_eq_true, if_false, HexPad.enter, Machine.bare]
  · simp only [accept?, hsize, if_neg hkey, Machine.accept, HexPad.accept, HexPad.keyOf?,
      dif_neg hkey]

end Bare

end Chip8Vm
