/-
**Common substrings of two sequences.**

`Agree left right first second length`: the `length` items of `left` from `first` on are those of `right`
from `second` on. `commonEnd left right i j` is the length of the longest common run that ends before
position `i` of the one and position `j` of the other; it is computed along a diagonal, one item at a time,
which is what a dynamic program fills its rows with.

* `agree_commonEnd`, `le_commonEnd`: it is a common run, and the longest that ends there;
* `Longest`: a common run of the greatest length, and among these the one that ends first.
-/

import Mathlib.Tactic

namespace Library

variable {A : Type}

/-- The `length` items of `left` from `first` on are those of `right` from `second` on. -/
structure Agree (left right : List A) (first second length : Nat) : Prop where
  inLeft : first + length ≤ left.length
  inRight : second + length ≤ right.length
  same : (left.drop first).take length = (right.drop second).take length

/-- Agreement, item by item. -/
theorem agree_iff {left right : List A} {first second length : Nat} :
    Agree left right first second length ↔
      first + length ≤ left.length ∧ second + length ≤ right.length ∧
        ∀ offset, offset < length → left[first + offset]? = right[second + offset]? := by
  constructor
  · rintro ⟨inLeft, inRight, same⟩
    refine ⟨inLeft, inRight, fun offset inside => ?_⟩
    have item := congrArg (fun run => run[offset]?) same
    simpa only [List.getElem?_take, inside, if_true, List.getElem?_drop] using item
  · rintro ⟨inLeft, inRight, items⟩
    refine ⟨inLeft, inRight, List.ext_getElem? fun offset => ?_⟩
    simp only [List.getElem?_take, List.getElem?_drop]
    split
    · exact items offset ‹_›
    · rfl

/-- A part of a common run is one. -/
theorem Agree.part {left right : List A} {first second length : Nat}
    (agree : Agree left right first second length) (skip kept : Nat)
    (inside : skip + kept ≤ length) :
    Agree left right (first + skip) (second + skip) kept := by
  obtain ⟨inLeft, inRight, items⟩ := agree_iff.mp agree
  refine agree_iff.mpr ⟨by omega, by omega, fun offset below => ?_⟩
  rw [Nat.add_assoc, Nat.add_assoc]
  exact items (skip + offset) (by omega)

/-- An item of both sequences is a common run. -/
theorem agree_shared {left right : List A} {item : A} (inLeft : item ∈ left)
    (inRight : item ∈ right) : ∃ first second, Agree left right first second 1 := by
  obtain ⟨first, below, here⟩ := List.getElem_of_mem inLeft
  obtain ⟨second, inside, there⟩ := List.getElem_of_mem inRight
  refine ⟨first, second, agree_iff.mpr ⟨below, inside, fun offset least => ?_⟩⟩
  obtain rfl : offset = 0 := Nat.lt_one_iff.mp least
  rw [Nat.add_zero, Nat.add_zero, List.getElem?_eq_getElem below, List.getElem?_eq_getElem inside,
    here, there]

/-- The first item of a common run which is not empty is in both sequences. -/
theorem Agree.shared {left right : List A} {first second length : Nat}
    (agree : Agree left right first second length) (positive : 0 < length) :
    ∃ item ∈ left, item ∈ right := by
  obtain ⟨inLeft, inRight, items⟩ := agree_iff.mp agree
  have same := items 0 positive
  rw [Nat.add_zero, Nat.add_zero] at same
  have below : first < left.length := by omega
  refine ⟨left[first], List.getElem_mem below, List.mem_of_getElem? (i := second) ?_⟩
  rw [← same, List.getElem?_eq_getElem below]

variable [DecidableEq A]

/-- The length of the longest common run that ends before position `i` and before position `j`. -/
def commonEnd (left right : List A) : Nat → Nat → Nat
  | i + 1, j + 1 =>
      if i < left.length ∧ j < right.length ∧ left[i]? = right[j]? then
        commonEnd left right i j + 1
      else 0
  | _, _ => 0

@[simp] theorem commonEnd_zero_left (left right : List A) (j : Nat) :
    commonEnd left right 0 j = 0 := by
  unfold commonEnd
  rfl

@[simp] theorem commonEnd_zero_right (left right : List A) (i : Nat) :
    commonEnd left right i 0 = 0 := by
  cases i <;> rfl

theorem commonEnd_succ (left right : List A) (i j : Nat) :
    commonEnd left right (i + 1) (j + 1) =
      if i < left.length ∧ j < right.length ∧ left[i]? = right[j]? then
        commonEnd left right i j + 1
      else 0 := rfl

/-- Equal items extend the run that ends before them. -/
theorem commonEnd_same {left right : List A} {i j : Nat} {item : A} (here : left[i]? = some item)
    (there : right[j]? = some item) :
    commonEnd left right (i + 1) (j + 1) = commonEnd left right i j + 1 := by
  obtain ⟨inLeft, _⟩ := List.getElem?_eq_some_iff.mp here
  obtain ⟨inRight, _⟩ := List.getElem?_eq_some_iff.mp there
  rw [commonEnd_succ, if_pos ⟨inLeft, inRight, here.trans there.symm⟩]

/-- Different items end every run. -/
theorem commonEnd_different {left right : List A} {i j : Nat} {item other : A}
    (here : left[i]? = some item) (there : right[j]? = some other) (different : item ≠ other) :
    commonEnd left right (i + 1) (j + 1) = 0 := by
  rw [commonEnd_succ, if_neg]
  rintro ⟨_, _, same⟩
  rw [here, there] at same
  exact different (Option.some.inj same)

theorem commonEnd_le (left right : List A) (i j : Nat) :
    commonEnd left right i j ≤ i ∧ commonEnd left right i j ≤ j := by
  induction i generalizing j with
  | zero => simp
  | succ i ih =>
      cases j with
      | zero => simp
      | succ j =>
          have below := ih j
          rw [commonEnd_succ]
          split <;> omega

/-- **It is a common run**: the one that ends at the two positions. -/
theorem agree_commonEnd (left right : List A) {i j : Nat} (inLeft : i ≤ left.length)
    (inRight : j ≤ right.length) :
    Agree left right (i - commonEnd left right i j) (j - commonEnd left right i j)
      (commonEnd left right i j) := by
  induction i generalizing j with
  | zero => exact agree_iff.mpr ⟨by simp, by simpa using inRight, by simp⟩
  | succ i ih =>
      cases j with
      | zero => exact agree_iff.mpr ⟨by simpa using inLeft, by simp, by simp⟩
      | succ j =>
          rw [commonEnd_succ]
          split
          case isFalse => exact agree_iff.mpr ⟨inLeft, inRight, by simp⟩
          case isTrue matched =>
            obtain ⟨_, _, same⟩ := matched
            obtain ⟨below_i, below_j⟩ := commonEnd_le left right i j
            obtain ⟨_, _, items⟩ := agree_iff.mp (ih (by omega) (by omega) :
              Agree left right (i - commonEnd left right i j)
                (j - commonEnd left right i j) (commonEnd left right i j))
            refine agree_iff.mpr ⟨by omega, by omega, fun offset inside => ?_⟩
            rw [Nat.add_sub_add_right, Nat.add_sub_add_right]
            by_cases last : offset = commonEnd left right i j
            · rw [last, Nat.sub_add_cancel below_i, Nat.sub_add_cancel below_j]
              exact same
            · exact items offset (by omega)

/-- **No longer one ends there.** -/
theorem le_commonEnd {left right : List A} {first second length : Nat}
    (agree : Agree left right first second length) :
    length ≤ commonEnd left right (first + length) (second + length) := by
  induction length with
  | zero => exact Nat.zero_le _
  | succ length ih =>
      obtain ⟨inLeft, inRight, items⟩ := agree_iff.mp agree
      have shorter := ih (agree.part 0 length (by omega))
      rw [← Nat.add_assoc, ← Nat.add_assoc, commonEnd_succ,
        if_pos ⟨by omega, by omega, items length (by omega)⟩]
      omega

/-! ### The longest one -/

/-- A common run of the greatest length which is not zero; of several, the one that ends first in `left`,
and of these the one that ends first in `right`. -/
structure Longest (left right : List A) (first second length : Nat) : Prop where
  positive : 0 < length
  agree : Agree left right first second length
  longest : ∀ first' second' length', Agree left right first' second' length' → length' ≤ length
  earliest : ∀ first' second', Agree left right first' second' length →
    first < first' ∨ (first = first' ∧ second ≤ second')

omit [DecidableEq A] in
/-- There is one such run at most. -/
theorem Longest.unique {left right : List A} {first second length first' second' length' : Nat}
    (one : Longest left right first second length)
    (other : Longest left right first' second' length') :
    first = first' ∧ second = second' ∧ length = length' := by
  have same : length = length' :=
    Nat.le_antisymm (other.longest _ _ _ one.agree) (one.longest _ _ _ other.agree)
  subst same
  have forth := one.earliest _ _ other.agree
  have back := other.earliest _ _ one.agree
  omega

end Library
