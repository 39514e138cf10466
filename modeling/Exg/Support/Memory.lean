import Mathlib.Data.List.GetD
import Mathlib.Tactic.Common

/-!
# Byte memory

A memory maps addresses to bytes.  Reading a region that was written last gives what was
written; writing elsewhere changes nothing in it.
-/

namespace Support

abbrev Memory := Nat → UInt8

namespace Memory

def read (memory : Memory) (address length : Nat) : List UInt8 :=
  (List.range length).map fun index => memory (address + index)

def write (memory : Memory) (address : Nat) (bytes : List UInt8) : Memory := fun position =>
  if address ≤ position then bytes.getD (position - address) (memory position)
  else memory position

variable {memory : Memory} {address : Nat} {bytes : List UInt8}

@[simp]
theorem length_read (memory : Memory) (address length : Nat) :
    (memory.read address length).length = length := by
  rw [read, List.length_map, List.length_range]

theorem write_outside {position : Nat}
    (outside : position < address ∨ address + bytes.length ≤ position) :
    memory.write address bytes position = memory position := by
  rw [write]
  split
  · rw [List.getD_eq_default]
    omega
  · rfl

theorem read_write (memory : Memory) (address : Nat) (bytes : List UInt8) :
    (memory.write address bytes).read address bytes.length = bytes := by
  apply List.ext_getElem
  · rw [length_read]
  · intro index bound bound'
    simp only [read, List.getElem_map, List.getElem_range]
    rw [write, if_pos (Nat.le_add_right _ _), Nat.add_sub_cancel_left,
      List.getD_eq_getElem _ _ bound']

/-- Two memories that agree on a region are read alike there. -/
theorem read_congr {other : Memory} {length : Nat}
    (same : ∀ index < length, memory (address + index) = other (address + index)) :
    memory.read address length = other.read address length := by
  apply List.map_congr_left
  intro index member
  exact same index (List.mem_range.1 member)

/-- A region apart from a written one is unchanged. -/
theorem read_write_apart {start length : Nat}
    (apart : start + length ≤ address ∨ address + bytes.length ≤ start) :
    (memory.write address bytes).read start length = memory.read start length := by
  apply read_congr
  intro index bound
  apply write_outside
  omega

/-- A shorter read of a region is a prefix of the longer one. -/
theorem read_take {length shorter : Nat} (less : shorter ≤ length) :
    memory.read address shorter = (memory.read address length).take shorter := by
  rw [read, read, ← List.map_take, List.take_range, Nat.min_eq_left less]

end Memory
end Support
