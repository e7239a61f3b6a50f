/-!
# Chip8Vm.Nibble

Numbers of four bits and of twelve.

Registers, keys and hexadecimal digits are nibbles; the cells of memory have
addresses of twelve bits.
-/

namespace Chip8Vm

/-- A number of four bits. -/
abbrev Nibble := Fin 16

/-- An address in the 4 KiB of memory. -/
abbrev Addr := Fin 4096

/-- There are nibbles, so that numerals stand for them. -/
instance nibble_neZero : @NeZero Nat Zero.ofOfNat0 16 := ⟨Nat.succ_ne_zero 15⟩

/-- There are addresses, so that numerals stand for them. -/
instance addr_neZero : @NeZero Nat Zero.ofOfNat0 4096 := ⟨Nat.succ_ne_zero 4095⟩

def Nibble.ofNat (n : Nat) : Nibble := Fin.ofNat 16 n

def Addr.ofNat (n : Nat) : Addr := Fin.ofNat 4096 n

end Chip8Vm
