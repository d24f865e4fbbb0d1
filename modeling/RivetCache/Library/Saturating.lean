/-
**Saturating and wrapping 64-bit arithmetic on natural numbers.**

An unsigned 64-bit counter is read as the natural number it holds. `satAdd` and `satSub` are the
saturating operations, `fetchAdd` and `fetchSub` the wrapping ones of an atomic counter; below the
bound they are the exact ones (`satAdd_of_le`, `satSub_add_cancel`, `fetchAdd_of_lt`,
`fetchSub_of_le`), which is what an accounting proof needs.
-/

import Mathlib.Tactic

namespace Library

/-- The largest unsigned 64-bit value. -/
def u64Max : Nat := 2 ^ 64 - 1

/-- Saturating addition. -/
def satAdd (left right : Nat) : Nat := min (left + right) u64Max

/-- Saturating multiplication. -/
def satMul (left right : Nat) : Nat := min (left * right) u64Max

/-- Saturating subtraction: natural subtraction stops at zero. -/
def satSub (left right : Nat) : Nat := left - right

theorem satAdd_of_le {left right : Nat} (room : left + right ≤ u64Max) :
    satAdd left right = left + right :=
  Nat.min_eq_left room

theorem satAdd_le_max (left right : Nat) : satAdd left right ≤ u64Max :=
  Nat.min_le_right _ _

theorem satSub_add_cancel (left right : Nat) : satSub (left + right) right = left :=
  Nat.add_sub_cancel _ _

/-- A positive amount saturates to a positive sum. -/
theorem satAdd_pos {left right : Nat} (positive : 0 < right) : 0 < satAdd left right := by
  have bound : 0 < u64Max := by decide
  unfold satAdd
  omega

/-- Below the bound a saturating increment moves strictly. -/
theorem lt_satAdd_one {left : Nat} (room : left < u64Max) : left < satAdd left 1 := by
  unfold satAdd
  omega

/-! ### Wrapping -/

/-- What an atomic counter holds after `fetch_add`. -/
def fetchAdd (value amount : Nat) : Nat := (value + amount) % 2 ^ 64

/-- What an atomic counter holds after `fetch_sub`. -/
def fetchSub (value amount : Nat) : Nat :=
  if amount ≤ value then value - amount else value + 2 ^ 64 - amount

theorem fetchAdd_of_lt {value amount : Nat} (room : value + amount < 2 ^ 64) :
    fetchAdd value amount = value + amount :=
  Nat.mod_eq_of_lt room

/-- Taking away what is there does not wrap. -/
theorem fetchSub_of_le {value amount : Nat} (enough : amount ≤ value) :
    fetchSub value amount = value - amount :=
  if_pos enough

end Library
