/-
**The longest common substring.**

The table of the search holds in row `i`, column `j` the length of the longest common run that ends before
position `i` of the query and position `j` of the source (`Library.commonEnd`), cut off at the largest
`usize`. The search goes through the table row by row and keeps the first cell of the greatest value.

* `scanSource_holds`: one row, from the row before it;
* `scanQuery_champion`: the whole table;
* `longestCommonSubstring_agrees`, `longestCommonSubstring_longest`: what is found is a common run, and where
  no length saturates it is the longest one, and of these the first.
-/

import RivetCache.Reuse.Model
import RivetCache.Library.Substring

set_option linter.unusedSectionVars false

namespace RivetCache

open Library

variable {query source : List UInt32}

/-! ### Rows -/

/-- The value of a cell. -/
def cell (query source : List UInt32) (i j : Nat) : Nat := min (commonEnd query source i j) u64Max

@[simp] theorem cell_zero_right (i : Nat) : cell query source i 0 = 0 := by simp [cell]

/-- A row, filled up to a column. -/
structure RowHolds (query source : List UInt32) (i filled : Nat) (row : List Nat) : Prop where
  width : row.length = source.length + 1
  done : ∀ j, j ≤ filled → row.getD j 0 = cell query source i j
  rest : ∀ j, filled < j → row.getD j 0 = 0

theorem RowHolds.fresh (i : Nat) :
    RowHolds query source i 0 (List.replicate (source.length + 1) 0) where
  width := List.length_replicate
  done j first := by
    rw [Nat.le_zero.mp first, cell_zero_right]
    simp
  rest j _ := by
    rw [List.getD_eq_getElem?_getD, List.getElem?_replicate]
    split <;> rfl

/-- The row above the first one. -/
theorem RowHolds.zero :
    RowHolds query source 0 source.length (List.replicate (source.length + 1) 0) where
  width := List.length_replicate
  done j _ := by
    rw [List.getD_eq_getElem?_getD, List.getElem?_replicate]
    simp only [cell, commonEnd_zero_left, Nat.zero_min]
    split <;> rfl
  rest j _ := by
    rw [List.getD_eq_getElem?_getD, List.getElem?_replicate]
    split <;> rfl

variable {i j : Nat} {row previous : List Nat} {queryToken sourceToken : UInt32}

/-- Equal tokens: one more than the cell before on the diagonal. -/
theorem cell_same (here : query[i]? = some queryToken) (there : source[j]? = some queryToken) :
    cell query source (i + 1) (j + 1) = satAdd (cell query source i j) 1 := by
  unfold cell satAdd
  rw [commonEnd_same here there]
  omega

theorem cell_different (here : query[i]? = some queryToken) (there : source[j]? = some sourceToken)
    (different : queryToken ≠ sourceToken) : cell query source (i + 1) (j + 1) = 0 := by
  unfold cell
  rw [commonEnd_different here there different, Nat.zero_min]

theorem RowHolds.set (holds : RowHolds query source (i + 1) j row) (inside : j < source.length) :
    RowHolds query source (i + 1) (j + 1)
      (row.set (j + 1) (cell query source (i + 1) (j + 1))) where
  width := by rw [List.length_set, holds.width]
  done other below := by
    rw [List.getD_eq_getElem?_getD, List.getElem?_set]
    split
    case isTrue same =>
      rw [if_pos (by rw [holds.width]; omega), same]
      rfl
    case isFalse apart =>
      rw [← List.getD_eq_getElem?_getD]
      exact holds.done other (by omega)
  rest other beyond := by
    rw [List.getD_eq_getElem?_getD, List.getElem?_set_ne (by omega), ← List.getD_eq_getElem?_getD]
    exact holds.rest other (by omega)

theorem RowHolds.skip (holds : RowHolds query source (i + 1) j row)
    (zero : cell query source (i + 1) (j + 1) = 0) : RowHolds query source (i + 1) (j + 1) row where
  width := holds.width
  done other below := by
    by_cases last : other = j + 1
    · rw [last, zero, holds.rest (j + 1) (by omega)]
    · exact holds.done other (by omega)
  rest other beyond := holds.rest other (by omega)

/-! ### The best cell so far -/

/-- The cells of the table up to one of them, row by row. -/
def Upto (source : List UInt32) (i j i' j' : Nat) : Prop :=
  (i' < i ∧ j' ≤ source.length) ∨ (i' = i ∧ j' ≤ j)

/-- **The best cell so far**: the first of those with the greatest value. -/
structure Champion (query source : List UInt32) (i j : Nat) (best : RawMatch) : Prop where
  value : cell query source (best.queryStart + best.len) (best.sourceStart + best.len) = best.len
  inQuery : best.queryStart + best.len ≤ query.length
  inSource : best.sourceStart + best.len ≤ source.length
  greatest : ∀ i' j', Upto source i j i' j' → cell query source i' j' ≤ best.len
  first : 0 < best.len → ∀ i' j', Upto source i j i' j' → cell query source i' j' = best.len →
    best.queryStart + best.len < i' ∨
      (best.queryStart + best.len = i' ∧ best.sourceStart + best.len ≤ j')
  reached : Upto source i j (best.queryStart + best.len) (best.sourceStart + best.len)

theorem Champion.zero : Champion query source 0 source.length ⟨0, 0, 0⟩ where
  value := by simp
  inQuery := Nat.zero_le _
  inSource := Nat.zero_le _
  greatest i' j' upto := by
    rcases upto with ⟨below, _⟩ | ⟨rfl, _⟩
    · omega
    · simp [cell]
  first positive := absurd positive (Nat.lt_irrefl 0)
  reached := Or.inr ⟨rfl, Nat.zero_le _⟩

variable {best : RawMatch}

/-- The next row begins with a zero. -/
theorem Champion.newRow (champion : Champion query source i source.length best) :
    Champion query source (i + 1) 0 best where
  value := champion.value
  inQuery := champion.inQuery
  inSource := champion.inSource
  greatest i' j' upto := by
    rcases upto with ⟨below, wide⟩ | ⟨rfl, edge⟩
    · exact champion.greatest i' j' (by unfold Upto; omega)
    · rw [Nat.le_zero.mp edge, cell_zero_right]
      exact Nat.zero_le _
  first positive i' j' upto same := by
    rcases upto with ⟨below, wide⟩ | ⟨rfl, edge⟩
    · exact champion.first positive i' j' (by unfold Upto; omega) same
    · rw [Nat.le_zero.mp edge, cell_zero_right] at same
      omega
  reached := by
    have before := champion.reached
    unfold Upto at before ⊢
    omega

theorem cell_le (i j : Nat) : cell query source i j ≤ i ∧ cell query source i j ≤ j := by
  have below := commonEnd_le query source i j
  unfold cell
  omega

/-- **The next cell**: it is kept when it is greater than the best one. -/
theorem Champion.next (champion : Champion query source (i + 1) j best)
    (inQuery : i + 1 ≤ query.length) (inSource : j + 1 ≤ source.length) {len : Nat}
    (value : cell query source (i + 1) (j + 1) = len) :
    Champion query source (i + 1) (j + 1)
      (if len > best.len then ⟨i + 1 - len, j + 1 - len, len⟩ else best) := by
  have low : cell query source (i + 1) (j + 1) ≤ i + 1 ∧ cell query source (i + 1) (j + 1) ≤ j + 1 :=
    cell_le (i + 1) (j + 1)
  rw [value] at low
  have order : ∀ i' j', Upto source (i + 1) (j + 1) i' j' →
      Upto source (i + 1) j i' j' ∨ (i' = i + 1 ∧ j' = j + 1) := by
    intro i' j' upto
    unfold Upto at upto ⊢
    omega
  split
  case isTrue greater =>
    have at_cell : i + 1 - len + len = i + 1 ∧ j + 1 - len + len = j + 1 := by omega
    refine ⟨?_, ?_, ?_, ?_, ?_, ?_⟩
    · show cell query source (i + 1 - len + len) (j + 1 - len + len) = len
      rw [at_cell.1, at_cell.2, value]
    · show i + 1 - len + len ≤ query.length
      omega
    · show j + 1 - len + len ≤ source.length
      omega
    · intro i' j' upto
      show cell query source i' j' ≤ len
      rcases order i' j' upto with before | ⟨rfl, rfl⟩
      · have least := champion.greatest i' j' before
        omega
      · exact value.le
    · intro _ i' j' upto same
      show i + 1 - len + len < i' ∨ (i + 1 - len + len = i' ∧ j + 1 - len + len ≤ j')
      rcases order i' j' upto with before | ⟨rfl, rfl⟩
      · have least := champion.greatest i' j' before
        have equal : cell query source i' j' = len := same
        omega
      · omega
    · show Upto source (i + 1) (j + 1) (i + 1 - len + len) (j + 1 - len + len)
      unfold Upto
      omega
  case isFalse small =>
    refine ⟨champion.value, champion.inQuery, champion.inSource, ?_, ?_, ?_⟩
    · intro i' j' upto
      rcases order i' j' upto with before | ⟨rfl, rfl⟩
      · exact champion.greatest i' j' before
      · omega
    · intro positive i' j' upto same
      rcases order i' j' upto with before | ⟨rfl, rfl⟩
      · exact champion.first positive i' j' before same
      · -- an equal cell further on: the best one comes before it
        have reached := champion.reached
        unfold Upto at reached
        omega
    · have reached := champion.reached
      unfold Upto at reached ⊢
      omega

/-! ### The loops -/

/-- **One row.** The induction is on what is left of the source; `front` is what was passed. -/
theorem scanSource_holds (here : query[i]? = some queryToken)
    (above : RowHolds query source i source.length previous) (rest front : List UInt32)
    (whole : source = front ++ rest) {current : List Nat}
    (holds : RowHolds query source (i + 1) front.length current)
    (champion : Champion query source (i + 1) front.length best) :
    RowHolds query source (i + 1) source.length
        (scanSource previous i queryToken rest front.length current best).1 ∧
      Champion query source (i + 1) source.length
        (scanSource previous i queryToken rest front.length current best).2 := by
  have inQuery : i + 1 ≤ query.length := (List.getElem?_eq_some_iff.mp here).1
  induction rest generalizing front current best with
  | nil =>
      have all : front.length = source.length := by rw [whole, List.append_nil]
      rw [← all]
      exact ⟨holds, champion⟩
  | cons sourceToken rest ih =>
      have there : source[front.length]? = some sourceToken := by
        rw [whole, List.getElem?_append_right (Nat.le_refl _), Nat.sub_self]
        rfl
      have inside : front.length < source.length := (List.getElem?_eq_some_iff.mp there).1
      have longer : (front ++ [sourceToken]).length = front.length + 1 := by simp
      have split : source = (front ++ [sourceToken]) ++ rest := by rw [whole]; simp
      have continues := fun row best => @ih best (front ++ [sourceToken]) split row
      simp only [longer] at continues
      unfold scanSource
      split
      case isTrue same =>
        rw [← same] at there
        have value : cell query source (i + 1) (front.length + 1) =
            satAdd (previous.getD front.length 0) 1 := by
          rw [above.done front.length (by omega), cell_same here there]
        have filled := holds.set inside
        rw [value] at filled
        exact continues _ _ filled (champion.next inQuery inside value)
      case isFalse different =>
        have value := cell_different here there different
        have kept := champion.next inQuery inside value
        rw [if_neg (Nat.not_lt_zero _)] at kept
        exact continues _ _ (holds.skip value) kept

/-- **The whole table.** The induction is on what is left of the query. -/
theorem scanQuery_champion (rest front : List UInt32) (whole : query = front ++ rest)
    (above : RowHolds query source front.length source.length previous)
    (champion : Champion query source front.length source.length best) :
    Champion query source query.length source.length
      (scanQuery source rest front.length previous best) := by
  induction rest generalizing front previous best with
  | nil =>
      have all : front.length = query.length := by rw [whole, List.append_nil]
      rw [← all]
      exact champion
  | cons queryToken rest ih =>
      have here : query[front.length]? = some queryToken := by
        rw [whole, List.getElem?_append_right (Nat.le_refl _), Nat.sub_self]
        rfl
      have longer : (front ++ [queryToken]).length = front.length + 1 := by simp
      have split : query = (front ++ [queryToken]) ++ rest := by rw [whole]; simp
      have row := scanSource_holds here above source [] rfl (RowHolds.fresh _) champion.newRow
      have continues := fun next best => @ih next best (front ++ [queryToken]) split
      simp only [longer] at continues
      exact continues _ _ row.1 row.2

/-! ### What is found -/

theorem scanned : Champion query source query.length source.length
    (scanQuery source query 0 (List.replicate (source.length + 1) 0) ⟨0, 0, 0⟩) :=
  scanQuery_champion query [] rfl RowHolds.zero Champion.zero

theorem longestCommonSubstring_champion {raw : RawMatch}
    (found : longestCommonSubstring query source = some raw) :
    0 < raw.len ∧ Champion query source query.length source.length raw := by
  unfold longestCommonSubstring at found
  split at found
  case isTrue => cases found
  case isFalse =>
    dsimp only at found
    split at found
    case isTrue positive =>
      cases found
      exact ⟨positive, scanned⟩
    case isFalse => cases found

/-- **What is found is a common run**, of any two sequences. -/
theorem longestCommonSubstring_agrees {raw : RawMatch}
    (found : longestCommonSubstring query source = some raw) :
    0 < raw.len ∧ Agree query source raw.queryStart raw.sourceStart raw.len := by
  obtain ⟨positive, champion⟩ := longestCommonSubstring_champion found
  refine ⟨positive, ?_⟩
  have ends := agree_commonEnd query source champion.inQuery champion.inSource
  have value := champion.value
  have least : raw.len ≤
      commonEnd query source (raw.queryStart + raw.len) (raw.sourceStart + raw.len) := by
    unfold cell at value
    omega
  obtain ⟨below_query, below_source⟩ :=
    commonEnd_le query source (raw.queryStart + raw.len) (raw.sourceStart + raw.len)
  -- the tail of that length of the run which ends there
  have tail := ends.part (commonEnd query source (raw.queryStart + raw.len)
    (raw.sourceStart + raw.len) - raw.len) raw.len (by omega)
  convert tail using 1 <;> omega

/-- A cell no row of which is longer than a `usize` counts is exact. -/
theorem cell_exact (short : source.length ≤ u64Max) {i j : Nat} (inside : j ≤ source.length) :
    cell query source i j = commonEnd query source i j := by
  have below := (commonEnd_le query source i j).2
  unfold cell
  omega

/-- **What is found is the longest common run**, and of several the first. -/
theorem longestCommonSubstring_longest (short : source.length ≤ u64Max) {raw : RawMatch}
    (found : longestCommonSubstring query source = some raw) :
    Longest query source raw.queryStart raw.sourceStart raw.len := by
  obtain ⟨positive, champion⟩ := longestCommonSubstring_champion found
  have reach : ∀ {first second length : Nat}, Agree query source first second length →
      Upto source query.length source.length (first + length) (second + length) ∧
        length ≤ cell query source (first + length) (second + length) := by
    intro first second length agree
    rw [cell_exact short agree.inRight]
    refine ⟨?_, le_commonEnd agree⟩
    have inLeft := agree.inLeft
    have inRight := agree.inRight
    unfold Upto
    omega
  refine ⟨positive, (longestCommonSubstring_agrees found).2, ?_, ?_⟩
  · intro first second length agree
    obtain ⟨upto, least⟩ := reach agree
    exact least.trans (champion.greatest _ _ upto)
  · intro first second agree
    obtain ⟨upto, least⟩ := reach agree
    have same : cell query source (first + raw.len) (second + raw.len) = raw.len :=
      Nat.le_antisymm (champion.greatest _ _ upto) least
    have order := champion.first positive _ _ upto same
    omega

/-- Nothing is found only where no token is common. -/
theorem longestCommonSubstring_none (short : source.length ≤ u64Max)
    (found : longestCommonSubstring query source = none) {first second length : Nat}
    (agree : Agree query source first second length) : length = 0 := by
  unfold longestCommonSubstring at found
  split at found
  case isTrue empty =>
    have inLeft := agree.inLeft
    have inRight := agree.inRight
    rw [Bool.or_eq_true, List.isEmpty_iff, List.isEmpty_iff] at empty
    rcases empty with rfl | rfl
    · rw [List.length_nil] at inLeft
      omega
    · rw [List.length_nil] at inRight
      omega
  case isFalse =>
    dsimp only at found
    split at found
    case isTrue => cases found
    case isFalse zero =>
      have inLeft := agree.inLeft
      have inRight := agree.inRight
      have greatest := scanned.greatest (first + length) (second + length)
        (by unfold Upto; omega : Upto source query.length source.length _ _)
      rw [cell_exact short agree.inRight, Nat.eq_zero_of_not_pos zero] at greatest
      have least := le_commonEnd agree
      omega

/-- **The longest common substring**: of two sequences without a common token nothing is found; of any
others the longest common run, of several the one that ends first in the query, of these the one that ends
first in the source. -/
theorem longestCommonSubstring_spec (query source : Tokens) :
    (longestCommonSubstring query.val source.val = none ↔
      ∀ token ∈ query.val, token ∉ source.val) ∧
    ∀ raw, longestCommonSubstring query.val source.val = some raw ↔
      Longest query.val source.val raw.queryStart raw.sourceStart raw.len := by
  have short : source.val.length ≤ u64Max := Nat.le_pred_of_lt source.property
  refine ⟨⟨?_, ?_⟩, fun raw => ⟨longestCommonSubstring_longest short, ?_⟩⟩
  · intro nothing token inQuery inSource
    obtain ⟨first, second, agree⟩ := agree_shared inQuery inSource
    have zero := longestCommonSubstring_none short nothing agree
    omega
  · intro apart
    by_contra something
    obtain ⟨raw, found⟩ := Option.ne_none_iff_exists'.mp something
    obtain ⟨positive, agree⟩ := longestCommonSubstring_agrees found
    obtain ⟨token, inQuery, inSource⟩ := agree.shared positive
    exact apart token inQuery inSource
  · intro longest
    by_cases nothing : longestCommonSubstring query.val source.val = none
    · -- the longest run is not empty
      have zero := longestCommonSubstring_none short nothing longest.agree
      have positive := longest.positive
      omega
    · obtain ⟨other, found⟩ := Option.ne_none_iff_exists'.mp nothing
      obtain ⟨first, second, length⟩ := longest.unique (longestCommonSubstring_longest short found)
      have same : other = raw := by
        cases raw
        cases other
        rw [RawMatch.mk.injEq]
        exact ⟨first.symm, second.symm, length.symm⟩
      rw [found, same]

end RivetCache
