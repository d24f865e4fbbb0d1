/-
**Half-open intervals of natural numbers.**

An interval is a pair of a start and an end. `Apart` intervals do not overlap.

* `pairwise_split`: of disjoint intervals, one may be cut into disjoint parts;
* `chained_of_sorted`: disjoint intervals that are not empty, in the order of their starts, follow one
  another;
* `total_length_le`: intervals that follow one another are no longer together than what they lie in;
* `coalesced`: intervals in the order of their starts, joined where they touch, are `Separated` and cover
  what they covered;
* `tiles_cut`: increasing points cut an interval into intervals that `Tiles` it.
-/

import Mathlib.Tactic

namespace Library

/-- Two intervals that do not overlap. -/
def Apart (left right : Nat × Nat) : Prop := left.2 ≤ right.1 ∨ right.2 ≤ left.1

theorem Apart.symm {left right : Nat × Nat} (apart : Apart left right) : Apart right left :=
  Or.symm apart

/-- A part of an interval does not overlap what the interval does not. -/
theorem Apart.part {whole part other : Nat × Nat} (apart : Apart whole other)
    (low : whole.1 ≤ part.1) (high : part.2 ≤ whole.2) : Apart part other := by
  rcases apart with before | after
  · exact Or.inl (high.trans before)
  · exact Or.inr (after.trans low)

/-- **Cutting one of several disjoint intervals** into disjoint parts. -/
theorem pairwise_split {whole : Nat × Nat} {parts others : List (Nat × Nat)}
    (disjoint : (whole :: others).Pairwise Apart) (cut : parts.Pairwise Apart)
    (inside : ∀ part ∈ parts, whole.1 ≤ part.1 ∧ part.2 ≤ whole.2) :
    (parts ++ others).Pairwise Apart := by
  obtain ⟨away, rest⟩ := List.pairwise_cons.mp disjoint
  refine List.pairwise_append.mpr ⟨cut, rest, fun part mem other there => ?_⟩
  exact (away other there).part (inside part mem).1 (inside part mem).2

/-- Disjointness does not depend on the order. -/
theorem pairwise_apart_perm {left right : List (Nat × Nat)} (same : left.Perm right) :
    left.Pairwise Apart ↔ right.Pairwise Apart :=
  same.pairwise_iff Apart.symm

/-- **In the order of their starts, disjoint intervals follow one another.** -/
theorem chained_of_sorted {intervals : List (Nat × Nat)} (disjoint : intervals.Pairwise Apart)
    (sorted : intervals.Pairwise fun left right => left.1 ≤ right.1)
    (filled : ∀ interval ∈ intervals, interval.1 < interval.2) :
    intervals.Pairwise fun left right => left.2 ≤ right.1 := by
  refine (disjoint.and sorted).imp_of_mem ?_
  rintro left right _ there ⟨before | after, order⟩
  · exact before
  · have right_filled := filled right there
    omega

/-- **Intervals that follow one another** are no longer together than what they lie in. -/
theorem total_length_le {intervals : List (Nat × Nat)}
    (chained : intervals.Pairwise fun left right => left.2 ≤ right.1) {low high : Nat}
    (order : low ≤ high)
    (inside : ∀ interval ∈ intervals,
      low ≤ interval.1 ∧ interval.1 ≤ interval.2 ∧ interval.2 ≤ high) :
    (intervals.map fun interval => interval.2 - interval.1).sum ≤ high - low := by
  induction intervals generalizing low with
  | nil => exact Nat.zero_le _
  | cons first rest ih =>
      obtain ⟨later, tail⟩ := List.pairwise_cons.mp chained
      have here := inside first List.mem_cons_self
      have least := ih tail here.2.2 fun interval mem =>
        ⟨later interval mem, (inside interval (List.mem_cons_of_mem _ mem)).2⟩
      rw [List.map_cons, List.sum_cons]
      omega

/-! ### Joining what touches -/

/-- A point of one of the intervals. -/
def Covered (intervals : List (Nat × Nat)) (point : Nat) : Prop :=
  ∃ interval ∈ intervals, interval.1 ≤ point ∧ point < interval.2

/-- Intervals that are not empty, in order, with a gap after each. -/
structure Separated (intervals : List (Nat × Nat)) : Prop where
  filled : ∀ interval ∈ intervals, interval.1 < interval.2
  gaps : intervals.Pairwise fun left right => left.2 < right.1

/-- Adds an interval at the end, and joins it to the last one where they touch. -/
def coalesce (merged : List (Nat × Nat)) (next : Nat × Nat) : List (Nat × Nat) :=
  match merged.getLast? with
  | none => merged ++ [next]
  | some last =>
      if next.1 ≤ last.2 then merged.dropLast ++ [(last.1, max last.2 next.2)] else merged ++ [next]

theorem covered_nil (point : Nat) : ¬Covered [] point := fun ⟨_, mem, _⟩ => by cases mem

theorem covered_append {first second : List (Nat × Nat)} {point : Nat} :
    Covered (first ++ second) point ↔ Covered first point ∨ Covered second point := by
  unfold Covered
  simp only [List.mem_append, or_and_right, exists_or]

theorem covered_singleton {interval : Nat × Nat} {point : Nat} :
    Covered [interval] point ↔ interval.1 ≤ point ∧ point < interval.2 := by
  unfold Covered
  simp only [List.mem_singleton, exists_eq_left]

/-- **The end of an interval** is at most a bound on the points covered. -/
theorem finish_le_of_covered {intervals : List (Nat × Nat)} {interval : Nat × Nat} {limit : Nat}
    (separated : Separated intervals) (mem : interval ∈ intervals)
    (below : ∀ point, Covered intervals point → point < limit) : interval.2 ≤ limit := by
  have filled := separated.filled interval mem
  have last := below (interval.2 - 1) ⟨interval, mem, by omega, by omega⟩
  omega

theorem coalesce_nil (next : Nat × Nat) : coalesce [] next = [next] := rfl

theorem coalesce_concat (front : List (Nat × Nat)) (last next : Nat × Nat) :
    coalesce (front ++ [last]) next =
      if next.1 ≤ last.2 then front ++ [(last.1, max last.2 next.2)] else front ++ [last] ++ [next] := by
  unfold coalesce
  rw [List.getLast?_concat, List.dropLast_concat]

section

variable {merged : List (Nat × Nat)} {next : Nat × Nat}

/-- **Joining covers** what was covered, and the new interval. -/
theorem covered_coalesce (later : ∀ interval ∈ merged, interval.1 ≤ next.1)
    {point : Nat} :
    Covered (coalesce merged next) point ↔ Covered merged point ∨ next.1 ≤ point ∧ point < next.2 := by
  rcases List.eq_nil_or_concat merged with rfl | ⟨front, last, rfl⟩
  · rw [coalesce_nil, covered_singleton]
    exact ⟨Or.inr, fun covered => covered.resolve_left (covered_nil point)⟩
  · rw [List.concat_eq_append] at later ⊢
    have order := later last (by simp)
    rw [coalesce_concat]
    split
    case isFalse => rw [covered_append, covered_singleton]
    case isTrue touches =>
      simp only [covered_append, covered_singleton]
      have joined : last.1 ≤ point ∧ point < max last.2 next.2 ↔
          (last.1 ≤ point ∧ point < last.2) ∨ next.1 ≤ point ∧ point < next.2 := by
        rw [lt_max_iff]
        omega
      rw [joined, or_assoc]

/-- **Joining keeps the gaps.** -/
theorem Separated.coalesce (separated : Separated merged) (filled : next.1 < next.2)
    (later : ∀ interval ∈ merged, interval.1 ≤ next.1) : Separated (coalesce merged next) := by
  rcases List.eq_nil_or_concat merged with rfl | ⟨front, last, rfl⟩
  · rw [coalesce_nil]
    refine ⟨fun interval mem => ?_, List.pairwise_singleton _ _⟩
    rw [List.mem_singleton.mp mem]
    exact filled
  · rw [List.concat_eq_append] at later separated ⊢
    obtain ⟨before, _, gap⟩ := List.pairwise_append.mp separated.gaps
    have last_filled := separated.filled last (by simp)
    rw [coalesce_concat]
    split
    case isTrue =>
      refine ⟨fun interval mem => ?_, List.pairwise_append.mpr ⟨before, List.pairwise_singleton _ _, ?_⟩⟩
      · rcases List.mem_append.mp mem with old | new
        · exact separated.filled interval (List.mem_append_left _ old)
        · rw [List.mem_singleton.mp new]
          exact lt_max_of_lt_left last_filled
      · intro left old right new
        rw [List.mem_singleton.mp new]
        exact gap left old last List.mem_cons_self
    case isFalse away =>
      refine ⟨fun interval mem => ?_, List.pairwise_append.mpr
        ⟨separated.gaps, List.pairwise_singleton _ _, ?_⟩⟩
      · rcases List.mem_append.mp mem with old | new
        · exact separated.filled interval old
        · rw [List.mem_singleton.mp new]
          exact filled
      · intro left old right new
        rw [List.mem_singleton.mp new]
        rcases List.mem_append.mp old with earlier | same
        · have first := gap left earlier last List.mem_cons_self
          omega
        · rw [List.mem_singleton.mp same]
          omega

/-- What is joined starts no later than the new interval. -/
theorem coalesce_starts (later : ∀ interval ∈ merged, interval.1 ≤ next.1) :
    ∀ interval ∈ coalesce merged next, interval.1 ≤ next.1 := by
  rcases List.eq_nil_or_concat merged with rfl | ⟨front, last, rfl⟩
  · intro interval mem
    rw [coalesce_nil, List.mem_singleton] at mem
    rw [mem]
  · rw [List.concat_eq_append] at later ⊢
    have order := later last (by simp)
    rw [coalesce_concat]
    intro interval mem
    split at mem
    case isTrue =>
      rcases List.mem_append.mp mem with old | new
      · exact later interval (List.mem_append_left _ old)
      · rw [List.mem_singleton.mp new]
        exact order
    case isFalse =>
      rcases List.mem_append.mp mem with old | new
      · exact later interval old
      · rw [List.mem_singleton.mp new]

/-- Joining intervals goes no further than they do. -/
theorem coalesce_below {limit : Nat} (below : ∀ interval ∈ merged, interval.2 ≤ limit)
    (here : next.2 ≤ limit) :
    ∀ interval ∈ coalesce merged next, interval.2 ≤ limit := by
  intro interval mem
  rcases List.eq_nil_or_concat merged with rfl | ⟨front, last, rfl⟩
  · rw [coalesce_nil, List.mem_singleton] at mem
    rwa [mem]
  · rw [List.concat_eq_append] at below mem
    rw [coalesce_concat] at mem
    split at mem
    case isTrue =>
      rcases List.mem_append.mp mem with old | new
      · exact below interval (List.mem_append_left _ old)
      · rw [List.mem_singleton.mp new]
        exact max_le (below last (by simp)) here
    case isFalse =>
      rcases List.mem_append.mp mem with old | new
      · exact below interval old
      · rwa [List.mem_singleton.mp new]

end

/-- **Intervals in the order of their starts**, joined where they touch. The induction is on what is left
of them; `merged` is what was joined. -/
theorem foldl_coalesced {intervals merged : List (Nat × Nat)} (separated : Separated merged)
    (filled : ∀ interval ∈ intervals, interval.1 < interval.2)
    (sorted : intervals.Pairwise fun left right => left.1 ≤ right.1)
    (later : ∀ before ∈ merged, ∀ interval ∈ intervals, before.1 ≤ interval.1) :
    Separated (intervals.foldl coalesce merged) ∧
      ∀ point, Covered (intervals.foldl coalesce merged) point ↔
        Covered merged point ∨ Covered intervals point := by
  induction intervals generalizing merged with
  | nil => exact ⟨separated, fun point => (or_iff_left (covered_nil point)).symm⟩
  | cons next rest ih =>
      have here := fun before mem => later before mem next List.mem_cons_self
      have next_filled := filled next List.mem_cons_self
      obtain ⟨order, sorted_rest⟩ := List.pairwise_cons.mp sorted
      obtain ⟨kept, same⟩ := ih (separated.coalesce next_filled here)
        (fun interval mem => filled interval (List.mem_cons_of_mem _ mem)) sorted_rest
        fun before mem interval there => (coalesce_starts here before mem).trans (order interval there)
      refine ⟨kept, fun point => (same point).trans ?_⟩
      rw [covered_coalesce here, or_assoc, ← covered_singleton, ← covered_append]
      rfl

/-- **The intervals joined** are separated, and cover what they covered. -/
theorem coalesced {intervals : List (Nat × Nat)}
    (filled : ∀ interval ∈ intervals, interval.1 < interval.2)
    (sorted : intervals.Pairwise fun left right => left.1 ≤ right.1) :
    Separated (intervals.foldl coalesce []) ∧
      ∀ point, Covered (intervals.foldl coalesce []) point ↔ Covered intervals point := by
  have empty : Separated [] := ⟨(fun _ mem => by cases mem), List.Pairwise.nil⟩
  obtain ⟨separated, same⟩ := foldl_coalesced empty filled sorted fun _ mem => by cases mem
  exact ⟨separated, fun point => (same point).trans (or_iff_right (covered_nil point))⟩

/-! ### Tilings -/

/-- **Intervals that tile** what lies between two points: each begins where the one before it ends, and
none is empty. -/
def Tiles : Nat → List (Nat × Nat) → Nat → Prop
  | low, [], high => low = high
  | low, interval :: rest, high => interval.1 = low ∧ low < interval.2 ∧ Tiles interval.2 rest high

/-- **Cutting at increasing points.** -/
theorem tiles_cut {points : Nat → Nat} {low count : Nat}
    (increasing : ∀ index, low ≤ index → index < low + count → points index < points (index + 1)) :
    Tiles (points low) ((List.range' low count).map fun index => (points index, points (index + 1)))
      (points (low + count)) := by
  induction count generalizing low with
  | zero => rfl
  | succ count ih =>
      rw [List.range'_succ, List.map_cons]
      refine ⟨rfl, increasing low (Nat.le_refl low) (by omega), ?_⟩
      have later := @ih (low + 1) fun index above below => increasing index (by omega) (by omega)
      rwa [Nat.add_right_comm] at later

end Library
