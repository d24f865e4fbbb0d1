/-
**A flat memory.**

A memory has a byte at every address. What a write does to a region is told by where it lies: in the region it
replaces a piece of it (`read_write_inside`), apart from it nothing (`read_write_apart`).
-/

import Mathlib.Tactic

set_option linter.unusedSectionVars false

namespace Library

/-- A byte at every address. -/
def FlatMemory := Nat → UInt8

namespace FlatMemory

variable {address size offset : Nat} {bytes : List UInt8}

/-- The bytes of a region. -/
def read (memory : FlatMemory) (address size : Nat) : List UInt8 :=
  (List.range size).map fun index => memory (address + index)

/-- The memory with some bytes at an address. -/
def write (memory : FlatMemory) (address : Nat) (bytes : List UInt8) : FlatMemory := fun place =>
  if address ≤ place then (bytes[place - address]?).getD (memory place) else memory place

/-- A list with a piece of it replaced. -/
def splice (bytes : List UInt8) (offset : Nat) (piece : List UInt8) : List UInt8 :=
  bytes.take offset ++ piece ++ bytes.drop (offset + piece.length)

@[simp] theorem length_read (memory : FlatMemory) (address size : Nat) :
    (memory.read address size).length = size := by
  simp [read]

theorem getElem?_read (memory : FlatMemory) (address size index : Nat) :
    (memory.read address size)[index]? = if index < size then some (memory (address + index)) else none := by
  unfold read
  by_cases inside : index < size <;> simp [inside]

/-- A region in a region. -/
theorem read_inside (memory : FlatMemory) {address size offset piece : Nat} (inside : offset + piece ≤ size) :
    memory.read (address + offset) piece = ((memory.read address size).drop offset).take piece := by
  apply List.ext_getElem?
  intro index
  rw [getElem?_read, List.getElem?_take]
  by_cases below : index < piece
  · rw [if_pos below, if_pos below, List.getElem?_drop, getElem?_read, if_pos (by omega), Nat.add_assoc]
  · rw [if_neg below, if_neg below]

/-- **A write apart from a region** leaves it as it is. -/
theorem read_write_apart (memory : FlatMemory) {other : Nat}
    (apart : address + size ≤ other ∨ other + bytes.length ≤ address) :
    (memory.write other bytes).read address size = memory.read address size := by
  unfold read
  refine List.map_congr_left fun index among => ?_
  have within : index < size := List.mem_range.mp among
  unfold write
  by_cases above : other ≤ address + index
  · rw [if_pos above, List.getElem?_eq_none (by omega)]
    rfl
  · rw [if_neg above]

/-- **A write in a region** replaces a piece of it. -/
theorem read_write_inside (memory : FlatMemory) (inside : offset + bytes.length ≤ size) (address : Nat) :
    (memory.write (address + offset) bytes).read address size =
      splice (memory.read address size) offset bytes := by
  apply List.ext_getElem?
  intro index
  have before_length : ((memory.read address size).take offset).length = offset := by
    rw [List.length_take, length_read]
    omega
  rw [getElem?_read, splice, List.append_assoc]
  rcases Nat.lt_or_ge index offset with before | from_offset
  · rw [List.getElem?_append_left (before_length.symm ▸ before : index < _), List.getElem?_take, if_pos before, getElem?_read]
    unfold write
    rw [if_neg (show ¬ address + offset ≤ address + index by omega)]
  · rw [List.getElem?_append_right (by omega), before_length]
    rcases Nat.lt_or_ge index (offset + bytes.length) with within | behind
    · rw [List.getElem?_append_left (by omega), if_pos (by omega)]
      unfold write
      rw [if_pos (by omega), show address + index - (address + offset) = index - offset by omega,
        List.getElem?_eq_getElem (by omega)]
      rfl
    · rw [List.getElem?_append_right (by omega), List.getElem?_drop, getElem?_read,
        show offset + bytes.length + (index - offset - bytes.length) = index by omega]
      unfold write
      rw [if_pos (show address + offset ≤ address + index by omega), List.getElem?_eq_none (by omega)]
      rfl

/-- A piece that is the whole. -/
theorem splice_whole {bytes piece : List UInt8} (whole : piece.length = bytes.length) :
    splice bytes 0 piece = piece := by
  rw [splice, List.take_zero, List.nil_append, List.drop_eq_nil_of_le (by omega), List.append_nil]

/-- A region that is written whole. -/
theorem read_write_same (memory : FlatMemory) (address : Nat) (bytes : List UInt8) :
    (memory.write address bytes).read address bytes.length = bytes := by
  have inside : 0 + bytes.length ≤ bytes.length := by omega
  have whole := memory.read_write_inside inside address
  rwa [Nat.add_zero, splice_whole (length_read _ _ _).symm] at whole

end FlatMemory

end Library
