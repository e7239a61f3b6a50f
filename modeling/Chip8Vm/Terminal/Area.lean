import Chip8Vm.Number.Root

/-!
# Chip8Vm.Terminal.Area

The area that a display works with.

An area has at most 65535 cells, so that a number of sixteen bits finds every cell.
A larger size is shrunk to about so many cells in the same proportions; the shrunk
sides are computed in binary floating point and lose their fractions.
-/

namespace Chip8Vm.Terminal

structure Area where
  cols : Nat
  rows : Nat
  deriving DecidableEq, Repr

namespace Area

def limit : Nat := 65535

/-- The shrunk sides: with the proportion `p` of the columns to the rows there are the
root of `limit / p` rows, and `p` times as many columns. -/
def shrunk (cols rows : Nat) : Area :=
  let (pn, pd) := (Number.Binary.nearest cols rows).toQuotient
  let (sn, sd) := (Number.Binary.nearest (limit * pd) pn).toQuotient
  let tall := Number.Binary.root sn sd
  let (tn, td) := tall.toQuotient
  ⟨(Number.Binary.nearest (tn * pn) (td * pd)).floor, tall.floor⟩

def ofSize (cols rows : Nat) : Area :=
  if cols * rows ≤ limit then ⟨cols, rows⟩ else shrunk cols rows

end Area

end Chip8Vm.Terminal
