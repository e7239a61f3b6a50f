import Chip8Vm.Opcode.Basic

/-!
# Chip8Vm.Cpu.CallStack

The return addresses of the open subroutines, at most sixteen of them.

The slots above the depth keep what was last written there.  They are part of
the value, but no operation reads them: `toList` is what a call stack means,
and `toList_push` and `toList_of_pop` say what the operations do to it.
-/

namespace Chip8Vm

/-- Sixteen slots and how many of them are in use. -/
structure CallStack where
  slots : Vector UInt16 16
  depth : Fin 17
  deriving DecidableEq

namespace CallStack

def empty : CallStack := ⟨Vector.replicate 16 0, 0⟩

/-- The open subroutines' return addresses, outermost first. -/
def toList (s : CallStack) : List UInt16 := s.slots.toList.take s.depth.val

def push? (s : CallStack) (a : UInt16) : Option CallStack :=
  if h : s.depth.val < 16 then
    some ⟨s.slots.set s.depth.val a, ⟨s.depth.val + 1, by omega⟩⟩
  else
    none

def pop? (s : CallStack) : Option (UInt16 × CallStack) :=
  if h : 0 < s.depth.val then
    some (s.slots[s.depth.val - 1], { s with depth := ⟨s.depth.val - 1, by omega⟩ })
  else
    none

@[simp] theorem length_toList (s : CallStack) : s.toList.length = s.depth.val := by
  have := s.depth.isLt
  simp [toList]; omega

theorem toList_push {s t : CallStack} {a : UInt16} (h : s.push? a = some t) :
    t.toList = s.toList ++ [a] := by
  obtain ⟨slots, ⟨d, hd⟩⟩ := s
  simp only [push?] at h
  split at h
  · next hlt =>
    simp only [Option.some.injEq] at h
    subst h
    apply List.ext_getElem
    · simp [toList]; omega
    · intro i h₁ h₂
      simp only [toList, Vector.toList_set, List.getElem_take, List.getElem_set,
        List.getElem_append, List.length_take, Vector.length_toList]
      simp [toList] at h₁
      split <;> split <;> simp_all <;> omega
  · simp at h

theorem toList_of_pop {s t : CallStack} {a : UInt16} (h : s.pop? = some (a, t)) :
    s.toList = t.toList ++ [a] := by
  obtain ⟨slots, ⟨d, hd⟩⟩ := s
  simp only [pop?] at h
  split at h
  · next hlt =>
    simp only [Option.some.injEq, Prod.mk.injEq] at h
    obtain ⟨rfl, rfl⟩ := h
    obtain ⟨d, rfl⟩ : ∃ e, d = e + 1 := ⟨d - 1, by omega⟩
    have : d < slots.toList.length := by simp; omega
    simp [toList, List.take_add_one, List.getElem?_eq_getElem this]
  · simp at h

end CallStack

end Chip8Vm
