import Chip8Vm.Proofs.Console.History
import Chip8Vm.Proofs.Machine.Confined
import Chip8Vm.Proofs.Machine.Transfer

/-!
# Chip8Vm.Proofs.Console.Transfer

Storing registers and restoring them undo each other.

Both instructions move the registers from V0 up to one, the first into the cells from the index
on and the second out of them.  They go around memory alike, so as long as the index and these
cells are left alone, what was stored comes back, and what was restored is stored where it
is already (`transfers_invert`).  The digits that the decimal instruction writes can be fetched
in the same way.
-/

namespace Chip8Vm.Console

open Machine

variable {w h : Nat} {c d : Console w h} {x : Reg}

/-- The memory and the index are the same; the registers and all else may be others. -/
structure SameMemory (c d : Console w h) : Prop where
  ram : d.machine.ram = c.machine.ram
  index : d.machine.cpu.i = c.machine.cpu.i

theorem SameMemory.refl (c : Console w h) : SameMemory c c := ⟨rfl, rfl⟩

/-! ## Single instructions -/

theorem machine_step_store (hx : c.machine.upcoming? = some (.store x)) :
    c.step.2.machine = { c.machine.moved with
      ram := c.machine.ram.writeAll c.machine.cpu.i (registersUpTo c.machine.cpu x) } :=
  machine_of_execute hx rfl

theorem machine_step_decimal (hx : c.machine.upcoming? = some (.decimal x)) :
    c.step.2.machine = { c.machine.moved with
      ram := c.machine.ram.writeAll c.machine.cpu.i (decimalDigits (c.machine.cpu.get x)) } :=
  machine_of_execute hx rfl

theorem machine_step_restore (hx : c.machine.upcoming? = some (.restore x)) :
    c.step.2.machine = c.machine.moved.withCpu fun cpu =>
      setRegisters cpu (c.machine.ram.readMany c.machine.cpu.i (x.val + 1)) :=
  machine_of_execute hx rfl

theorem index_step_restore (hx : c.machine.upcoming? = some (.restore x)) :
    c.step.2.machine.cpu.i = c.machine.cpu.i := by
  have hm' : c.machine.moved.execute (.restore x) = .ok (_, .nothing) := rfl
  rw [machine_of_execute hx hm']
  exact (confined_execute hm').cpu.index rfl

theorem SameMemory.step_loadByte {k : UInt8} (hx : c.machine.upcoming? = some (.loadByte x k)) :
    SameMemory c c.step.2 := by
  have hm : c.step.2.machine = c.machine.moved.withCpu fun cpu => cpu.set x k :=
    machine_of_execute hx rfl
  constructor <;> rw [hm] <;> rfl

/-- A block that was written where the index points is read there as long as both are left
alone. -/
theorem SameMemory.readMany_eq {bytes : List UInt8} {ram : Ram} (hd : SameMemory c d)
    (hram : c.machine.ram = ram.writeAll c.machine.cpu.i bytes) (hlength : bytes.length ≤ 4096) :
    d.machine.ram.readMany d.machine.cpu.i bytes.length = bytes := by
  rw [hd.ram, hd.index, hram]
  exact Ram.readMany_writeAll ram _ hlength

/-! ## There and back -/

theorem get_restore_stored (hc : c.machine.upcoming? = some (.store x))
    (hsame : SameMemory c.step.2 d) (hd : d.machine.upcoming? = some (.restore x)) (y : Reg) :
    d.step.2.machine.cpu.get y =
      if y.val ≤ x.val then c.machine.cpu.get y else d.machine.cpu.get y := by
  have hx := x.isLt
  have hram : c.step.2.machine.ram =
      c.machine.ram.writeAll c.step.2.machine.cpu.i (registersUpTo c.machine.cpu x) := by
    rw [machine_step_store hc]
    rfl
  have hread := hsame.readMany_eq hram (by rw [length_registersUpTo]; omega)
  rw [length_registersUpTo] at hread
  rw [machine_step_restore hd, hread]
  exact get_setRegisters_registersUpTo c.machine.cpu d.machine.moved.cpu x y

theorem ram_store_restored (hc : c.machine.upcoming? = some (.restore x))
    (hsame : SameMemory c.step.2 d)
    (hregisters : ∀ y, y.val ≤ x.val → d.machine.cpu.get y = c.step.2.machine.cpu.get y)
    (hd : d.machine.upcoming? = some (.store x)) : d.step.2.machine.ram = c.machine.ram := by
  have hram : c.step.2.machine.ram = c.machine.ram := by
    rw [machine_step_restore hc]
    rfl
  have hblock : registersUpTo d.machine.cpu x =
      c.machine.ram.readMany c.machine.cpu.i (x.val + 1) := by
    rw [registersUpTo_congr hregisters, machine_step_restore hc]
    exact registersUpTo_setRegisters _ (Ram.length_readMany _ _ _)
  rw [machine_step_store hd]
  simp only [hsame.ram, hsame.index, hram, index_step_restore hc, hblock]
  exact Ram.writeAll_readMany _ _ _

theorem get_restore_decimal (hc : c.machine.upcoming? = some (.decimal x))
    (hsame : SameMemory c.step.2 d) (hd : d.machine.upcoming? = some (.restore 2)) (y : Reg) :
    d.step.2.machine.cpu.get y =
      (decimalDigits (c.machine.cpu.get x)).getD y.val (d.machine.cpu.get y) := by
  have hram : c.step.2.machine.ram =
      c.machine.ram.writeAll c.step.2.machine.cpu.i (decimalDigits (c.machine.cpu.get x)) := by
    rw [machine_step_decimal hc]
    rfl
  have hread : d.machine.ram.readMany d.machine.cpu.i 3 = _ :=
    hsame.readMany_eq hram (show 3 ≤ 4096 by decide)
  rw [machine_step_restore hd]
  exact hread ▸ get_setRegisters d.machine.moved.cpu _ y

/-- **Storing and restoring undo each other.** Whatever the memory, the registers and the index
are, these instructions are always carried out.  Registers that were stored are restored to what
they were, and the others and the index stay, in whatever way the registers have changed in
between, if the memory and the index have not.  Registers that were restored are stored without
a change of memory.  The decimal instruction writes the three digits of a register into the
cells from the index on, around memory, and they can be restored into V0, V1 and V2. -/
theorem transfers_invert (c : Console w h) (x : Reg) :
    (c.machine.upcoming? = some (.store x) →
      c.step.1 = .ok (.executed (.store x)) ∧
      ∀ d, SameMemory c.step.2 d → d.machine.upcoming? = some (.restore x) →
        d.step.1 = .ok (.executed (.restore x)) ∧
        d.step.2.machine.cpu.i = c.machine.cpu.i ∧
        ∀ y, d.step.2.machine.cpu.get y =
          if y.val ≤ x.val then c.machine.cpu.get y else d.machine.cpu.get y) ∧
    (c.machine.upcoming? = some (.restore x) →
      c.step.1 = .ok (.executed (.restore x)) ∧
      ∀ d, SameMemory c.step.2 d →
        (∀ y, y.val ≤ x.val → d.machine.cpu.get y = c.step.2.machine.cpu.get y) →
        d.machine.upcoming? = some (.store x) →
        d.step.1 = .ok (.executed (.store x)) ∧ d.step.2.machine.ram = c.machine.ram) ∧
    (c.machine.upcoming? = some (.decimal x) →
      c.step.1 = .ok (.executed (.decimal x)) ∧
      ∃ hundreds tens ones, IsDecimal (c.machine.cpu.get x) hundreds tens ones ∧
        c.step.2.machine.ram.cells[c.machine.cpu.i.toNat % 4096]? = some hundreds ∧
        c.step.2.machine.ram.cells[(c.machine.cpu.i.toNat + 1) % 4096]? = some tens ∧
        c.step.2.machine.ram.cells[(c.machine.cpu.i.toNat + 2) % 4096]? = some ones ∧
        ∀ d, SameMemory c.step.2 d → d.machine.upcoming? = some (.restore 2) →
          d.step.1 = .ok (.executed (.restore 2)) ∧
          d.step.2.machine.cpu.get 0 = hundreds ∧ d.step.2.machine.cpu.get 1 = tens ∧
          d.step.2.machine.cpu.get 2 = ones) := by
  refine ⟨fun hc => ?_, fun hc => ?_, fun hc => ?_⟩
  · refine ⟨step_of_execute hc rfl, fun d hsame hd => ⟨step_of_execute hd rfl, ?_, ?_⟩⟩
    · rw [index_step_restore hd, hsame.index, machine_step_store hc]
      rfl
    · exact get_restore_stored hc hsame hd
  · exact ⟨step_of_execute hc rfl, fun d hsame hregisters hd =>
      ⟨step_of_execute hd rfl, ram_store_restored hc hsame hregisters hd⟩⟩
  · obtain ⟨hundreds, tens, ones, hdigits, hdecimal⟩ :=
      isDecimal_decimalDigits (c.machine.cpu.get x)
    have hram : c.step.2.machine.ram =
        c.machine.ram.writeAll c.machine.cpu.i [hundreds, tens, ones] := by
      rw [machine_step_decimal hc, hdigits]
    have hcell := fun (j : Nat) (hj : j < [hundreds, tens, ones].length) =>
      hram ▸ Ram.getElem?_writeAll_around c.machine.ram c.machine.cpu.i (by simp) hj
    refine ⟨step_of_execute hc rfl, hundreds, tens, ones, hdecimal, hcell 0 (by simp),
      hcell 1 (by simp), hcell 2 (by simp), fun d hsame hd => ⟨step_of_execute hd rfl, ?_⟩⟩
    have hget := get_restore_decimal hc hsame hd
    rw [hdigits] at hget
    exact ⟨hget 0, hget 1, hget 2⟩

/-- A console about to store V0 and V1 in the last cell of memory and the first.  Its program then
changes V0, restores both and stores them again, writes the digits of V1 there and restores
these. -/
def storing : Console 8 4 :=
  (plugged 8 4 (.chacha 0) .inherited {}).after
    [.load { bytes := [0x60, 0x11, 0x61, 0xfe, 0xaf, 0xff, 0xf1, 0x55, 0x60, 0x00, 0xf1, 0x65,
      0xf1, 0x55, 0xf1, 0x33, 0xf2, 0x65] }, .step, .step, .step]

/-- V0 and V1 come back from both ends of memory, are stored as they are, and the digits of V1
take the same way. -/
theorem transfers_invert_around :
    storing.machine.cpu.i = 0xfff ∧ storing.machine.upcoming? = some (.store 1) ∧
    ∃ c, SameMemory storing.step.2 c ∧ c.machine.upcoming? = some (.restore 1) ∧
      c.machine.cpu.get 0 = 0 ∧ c.step.2.machine.cpu.get 0 = storing.machine.cpu.get 0 ∧
      c.step.2.machine.upcoming? = some (.store 1) ∧
      c.step.2.step.2.machine.ram = c.machine.ram ∧
      c.step.2.step.2.machine.upcoming? = some (.decimal 1) ∧
      c.step.2.step.2.step.2.machine.upcoming? = some (.restore 2) ∧
      ∃ hundreds tens ones,
        IsDecimal (c.step.2.step.2.machine.cpu.get 1) hundreds tens ones ∧
        c.step.2.step.2.step.2.step.2.machine.cpu.get 2 = ones := by
  let c := storing.step.2.step.2
  obtain ⟨hindex, hstore, hload, hrestore, hchanged, hagain, hdecimal, hdigits⟩ :
      storing.machine.cpu.i = 0xfff ∧
      storing.machine.upcoming? = some (.store 1) ∧
      storing.step.2.machine.upcoming? = some (.loadByte 0 0) ∧
      c.machine.upcoming? = some (.restore 1) ∧
      c.machine.cpu.get 0 = 0 ∧
      c.step.2.machine.upcoming? = some (.store 1) ∧
      c.step.2.step.2.machine.upcoming? = some (.decimal 1) ∧
      c.step.2.step.2.step.2.machine.upcoming? = some (.restore 2) := by
    decide +kernel
  have hsame : SameMemory storing.step.2 c := .step_loadByte hload
  obtain ⟨-, hback⟩ := (transfers_invert storing 1).1 hstore
  obtain ⟨-, -, hzero⟩ := hback c hsame hrestore
  obtain ⟨-, hkept⟩ := (transfers_invert c 1).2.1 hrestore
  obtain ⟨-, hram⟩ := hkept c.step.2 (.refl _) (fun _ _ => rfl) hagain
  obtain ⟨-, hundreds, tens, ones, hspelled, -, -, -, hfetched⟩ :=
    (transfers_invert c.step.2.step.2 1).2.2 hdecimal
  obtain ⟨-, -, -, htwo⟩ := hfetched _ (.refl _) hdigits
  exact ⟨hindex, hstore, c, hsame, hrestore, hchanged, hzero 0, hagain, hram, hdecimal, hdigits,
    hundreds, tens, ones, hspelled, htwo⟩

end Chip8Vm.Console
