import Chip8Vm.Proofs.Machine.Step

/-!
# Chip8Vm.Proofs.Machine.Arithmetic

What the arithmetic instructions compute, as numbers.

`Instruction.arithmetic?` is the table of these instructions over the values that the registers
have before; it names a result and a flag apart from each other and knows nothing of the order
in which they are written.  `Cpu.Computes` is what registers are afterwards, also where the
result and the flag want the same one of them: then the flag is there.  `computes_execute` says
that the instructions do what the table says, whichever registers they name.
-/

namespace Chip8Vm

/-- What an instruction comes to: the register that takes the result, the result as a number of
any size, and the flag of an instruction that has one. -/
structure Arithmetic where
  target : Reg
  result : Int
  flag : Option Bool

/-- The arithmetic instructions over registers with the values `v`. -/
def Instruction.arithmetic? (v : Reg → Nat) : Instruction → Option Arithmetic
  | .addByte x kk => some ⟨x, v x + kk.toNat, none⟩
  | .load x y => some ⟨x, v y, none⟩
  | .or x y => some ⟨x, (v x ||| v y : Nat), none⟩
  | .and x y => some ⟨x, (v x &&& v y : Nat), none⟩
  | .xor x y => some ⟨x, (v x ^^^ v y : Nat), none⟩
  | .add x y => some ⟨x, v x + v y, some (v x + v y > 255)⟩
  | .sub x y => some ⟨x, v x - v y, some (v x > v y)⟩
  | .subFrom x y => some ⟨x, v y - v x, some (v y > v x)⟩
  | .shiftRight x => some ⟨x, v x / 2, some (v x % 2 = 1)⟩
  | .shiftLeft x => some ⟨x, 2 * v x, some (v x / 128 % 2 = 1)⟩
  | _ => none

namespace Cpu

variable {a : Arithmetic} {x : Reg} {b : UInt8} {n : Int}

/-- The register values before and after an instruction that comes to `a`. -/
structure Computes (a : Arithmetic) (c d : Cpu) : Prop where
  flag : ∀ f, a.flag = some f → d.get Reg.flag = if f then 1 else 0
  /-- Only a flag can be in the result's place. -/
  result : a.flag = none ∨ a.target ≠ Reg.flag → ((d.get a.target).toNat : Int) = a.result % 256
  others : ∀ y, y ≠ a.target → a.flag = none ∨ y ≠ Reg.flag → d.get y = c.get y

/-- An instruction without a flag sets its register. -/
theorem computes_set (c : Cpu) (hb : (b.toNat : Int) = n % 256) :
    c.Computes ⟨x, n, none⟩ (c.set x b) where
  flag := nofun
  result _ := by rw [get_set, if_pos rfl, hb]
  others y hy _ := by rw [get_set, if_neg (Ne.symm hy)]

/-- An instruction with a flag sets its register and then the flag. -/
theorem computes_setFlag (c : Cpu) (f : Bool) (hb : (b.toNat : Int) = n % 256) :
    c.Computes ⟨x, n, some f⟩ ((c.set x b).setFlag f) where
  flag := by
    rintro _ ⟨⟩
    rw [setFlag, get_set, if_pos rfl]
  result hx := by
    have hx := hx.resolve_left nofun
    rw [setFlag, get_set, if_neg (Ne.symm hx), get_set, if_pos rfl, hb]
  others y hy hflag := by
    have hflag := hflag.resolve_left nofun
    rw [setFlag, get_set, if_neg (Ne.symm hflag), get_set, if_neg (Ne.symm hy)]

end Cpu

/-! ## Bytes as numbers -/

theorem toNat_emod (a : UInt8) : (a.toNat : Int) = a.toNat % 256 := by
  have ha := a.toNat_lt
  omega

theorem toNat_add_emod (a b : UInt8) : ((a + b).toNat : Int) = (a.toNat + b.toNat) % 256 := by
  rw [UInt8.toNat_add]
  omega

theorem toNat_sub_emod (a b : UInt8) : ((a - b).toNat : Int) = (a.toNat - b.toNat) % 256 := by
  have hb := b.toNat_lt
  rw [UInt8.toNat_sub]
  omega

theorem toNat_half_emod (a : UInt8) : ((a >>> 1).toNat : Int) = (a.toNat / 2 : Int) % 256 := by
  have hhalf : (a >>> 1).toNat = a.toNat / 2 := UInt8.toNat_shiftRight a 1
  have ha := a.toNat_lt
  omega

theorem toNat_double_emod (a : UInt8) : ((a <<< 1).toNat : Int) = (2 * a.toNat : Int) % 256 := by
  have hdouble : (a <<< 1).toNat = a.toNat * 2 % 256 := by
    rw [UInt8.toNat_shiftLeft, Nat.shiftLeft_eq]
    rfl
  omega

/-! ## Instructions -/

namespace Machine

variable {w h : Nat} {i : Instruction} {a : Arithmetic}

/-- An arithmetic instruction is never at fault, changes registers only and computes what the
table says of the values before. -/
theorem computes_execute (m : Machine w h)
    (ha : i.arithmetic? (fun y => (m.cpu.get y).toNat) = some a) :
    ∃ d, m.execute i = .ok ({ m with cpu := d }, .nothing) ∧ m.cpu.Computes a d := by
  cases i with
  | addByte x kk => cases ha; exact ⟨_, rfl, m.cpu.computes_set (toNat_add_emod _ kk)⟩
  | load x y => cases ha; exact ⟨_, rfl, m.cpu.computes_set (toNat_emod _)⟩
  | or x y =>
      cases ha
      exact ⟨_, rfl, m.cpu.computes_set (UInt8.toNat_or _ _ ▸ toNat_emod _)⟩
  | and x y =>
      cases ha
      exact ⟨_, rfl, m.cpu.computes_set (UInt8.toNat_and _ _ ▸ toNat_emod _)⟩
  | xor x y =>
      cases ha
      exact ⟨_, rfl, m.cpu.computes_set (UInt8.toNat_xor _ _ ▸ toNat_emod _)⟩
  | add x y => cases ha; exact ⟨_, rfl, m.cpu.computes_setFlag _ (toNat_add_emod _ _)⟩
  | sub x y => cases ha; exact ⟨_, rfl, m.cpu.computes_setFlag _ (toNat_sub_emod _ _)⟩
  | subFrom x y => cases ha; exact ⟨_, rfl, m.cpu.computes_setFlag _ (toNat_sub_emod _ _)⟩
  | shiftRight x =>
      cases ha
      rw [← Nat.testBit_zero]
      exact ⟨_, rfl, m.cpu.computes_setFlag _ (toNat_half_emod _)⟩
  | shiftLeft x =>
      cases ha
      have hbit : (m.cpu.get x).toNat.testBit 7 = decide ((m.cpu.get x).toNat / 128 % 2 = 1) :=
        Nat.testBit_eq_decide_div_mod_eq (i := 7)
      rw [← hbit]
      exact ⟨_, rfl, m.cpu.computes_setFlag _ (toNat_double_emod _)⟩
  | _ => cases ha

end Machine

end Chip8Vm
