/-
**The ranges of a plan that are recomputed.**

`boundary_ranges` lists the tokens at either end of every span, and `merge_ranges` sorts the list and joins
what overlaps or touches. It is `coalesce` over the intervals of the ranges, as no end saturates; so nothing
is dropped or added (`planQualityReuse_boundary`).

* `boundaryPieces_covered`: the two ends of a span, which may overlap;
* `mergeRanges_interval`: `merge_ranges` refines `coalesce`.
-/

import RivetCache.Reuse.Quality

set_option linter.unusedSectionVars false

namespace RivetCache

open Library

/-- The positions of a range. -/
def TokenRange.interval (range : TokenRange) : Nat × Nat := (range.start, range.start + range.len)

/-- A position of a span, closer than `halo` to its first or its last token. -/
def ReuseSpan.AtBoundary (span : ReuseSpan) (halo position : Nat) : Prop :=
  span.queryStart ≤ position ∧ position < span.queryStart + span.matchedTokens ∧
    (position - span.queryStart < halo ∨
      span.queryStart + span.matchedTokens - 1 - position < halo)

/-! ### Merging ranges -/

section

variable {merged ranges : List TokenRange} {range : TokenRange}

/-- **One round of `merge_ranges`** joins intervals, where their ends are in range. -/
theorem mergeRange_interval (short : ∀ other ∈ merged, other.interval.2 ≤ u64Max)
    (here : range.interval.2 ≤ u64Max) :
    (mergeRange merged range).map TokenRange.interval =
      coalesce (merged.map TokenRange.interval) range.interval := by
  rcases List.eq_nil_or_concat merged with rfl | ⟨front, last, rfl⟩
  · rfl
  · rw [List.concat_eq_append] at short ⊢
    have last_finish : last.finish = last.interval.2 := satAdd_of_le (short last (by simp))
    have range_finish : range.finish = range.interval.2 := satAdd_of_le here
    rw [List.map_append, List.map_singleton, coalesce_concat]
    unfold mergeRange
    rw [List.getLast?_concat, List.dropLast_concat]
    dsimp only
    rw [last_finish, range_finish]
    by_cases touches : range.start ≤ last.interval.2
    · rw [if_pos touches, if_pos (show range.interval.1 ≤ last.interval.2 from touches),
        List.map_append, List.map_singleton]
      have start_le : last.start ≤ max last.interval.2 range.interval.2 :=
        (Nat.le_add_right _ _).trans (le_max_left _ _)
      have joined : TokenRange.interval ⟨last.start, max last.interval.2 range.interval.2 - last.start⟩ =
          (last.interval.1, max last.interval.2 range.interval.2) := by
        show (last.start, last.start + _) = (last.start, _)
        rw [Nat.add_sub_cancel' start_le]
      rw [joined]
    · rw [if_neg touches, if_neg (show ¬range.interval.1 ≤ last.interval.2 from touches),
        List.map_append, List.map_append]
      rfl

/-- The loop of `merge_ranges`. The induction is on what is left of the ranges. -/
theorem foldl_mergeRange_interval (short : ∀ other ∈ merged, other.interval.2 ≤ u64Max)
    (later : ∀ other ∈ ranges, other.interval.2 ≤ u64Max) :
    (ranges.foldl mergeRange merged).map TokenRange.interval =
      (ranges.map TokenRange.interval).foldl coalesce (merged.map TokenRange.interval) := by
  induction ranges generalizing merged with
  | nil => rfl
  | cons range rest ih =>
      have here := later range List.mem_cons_self
      have one := mergeRange_interval short here
      rw [List.foldl_cons, List.map_cons, List.foldl_cons, ← one]
      refine ih (fun other mem => ?_) fun other mem => later other (List.mem_cons_of_mem _ mem)
      refine coalesce_below (fun interval there => ?_) here other.interval
        (one ▸ List.mem_map_of_mem mem)
      obtain ⟨old, inside, rfl⟩ := List.mem_map.mp there
      exact short old inside

end

instance : Std.Total fun left right : TokenRange => left.start ≤ right.start :=
  ⟨fun left right => le_total left.start right.start⟩

instance : IsTrans TokenRange fun left right => left.start ≤ right.start :=
  ⟨fun _ _ _ => le_trans⟩

/-- **`merge_ranges`** on ranges that are not empty: separated, and with the same positions. -/
theorem mergeRanges_covered {ranges : List TokenRange}
    (filled : ∀ range ∈ ranges, 0 < range.len)
    (short : ∀ range ∈ ranges, range.interval.2 ≤ u64Max) :
    Separated ((mergeRanges ranges).map TokenRange.interval) ∧
      ∀ position, Covered ((mergeRanges ranges).map TokenRange.interval) position ↔
        Covered (ranges.map TokenRange.interval) position := by
  have all_kept : (ranges.filter fun range => decide (range.len > 0)) = ranges :=
    List.filter_eq_self.mpr fun range mem => decide_eq_true (filled range mem)
  have perm := List.perm_insertionSort (fun left right : TokenRange => left.start ≤ right.start) ranges
  have sorted := List.pairwise_insertionSort
    (fun left right : TokenRange => left.start ≤ right.start) ranges
  unfold mergeRanges
  rw [all_kept, foldl_mergeRange_interval (fun _ mem => by cases mem)
    fun range mem => short range (perm.mem_iff.mp mem)]
  have sorted_filled : ∀ interval ∈ (ranges.insertionSort
      fun left right => left.start ≤ right.start).map TokenRange.interval, interval.1 < interval.2 := by
    intro interval mem
    obtain ⟨range, there, rfl⟩ := List.mem_map.mp mem
    exact Nat.lt_add_of_pos_right (filled range (perm.mem_iff.mp there))
  obtain ⟨separated, same⟩ := coalesced sorted_filled (List.pairwise_map.mpr sorted)
  refine ⟨separated, fun position => (same position).trans ?_⟩
  unfold Covered
  exact exists_congr fun interval => and_congr_left fun _ => (perm.map _).mem_iff

/-! ### The ends of a span -/

/-- The two ranges of a span that lies in the query. -/
def ReuseSpan.boundaryPieces (span : ReuseSpan) (halo : Nat) : List TokenRange :=
  [⟨span.queryStart, min halo span.matchedTokens⟩,
    ⟨span.queryStart + span.matchedTokens - min halo span.matchedTokens, min halo span.matchedTokens⟩]

section

variable {spans : List ReuseSpan} {span : ReuseSpan} {queryLen halo : Nat}

/-- **The two ends of a span** are its positions at the boundary, whether they overlap or not. -/
theorem boundaryPieces_covered {position : Nat} :
    Covered ((span.boundaryPieces halo).map TokenRange.interval) position ↔
      span.AtBoundary halo position := by
  unfold ReuseSpan.boundaryPieces ReuseSpan.AtBoundary TokenRange.interval Covered
  simp only [List.map_cons, List.map_nil, List.mem_cons, List.not_mem_nil, or_false,
    exists_eq_or_imp, exists_eq_left]
  omega

/-- Nothing saturates where the spans lie in the query, so `boundary_ranges` merges the two ranges of each. -/
theorem boundaryRanges_pieces (positive : 0 < halo) (short : queryLen < 2 ^ 64)
    (filled : ∀ span ∈ spans, 0 < span.matchedTokens)
    (inside : ∀ span ∈ spans, span.queryStart + span.matchedTokens ≤ queryLen) :
    boundaryRanges spans queryLen halo =
      mergeRanges (spans.flatMap fun span => span.boundaryPieces halo) := by
  unfold boundaryRanges
  rw [if_neg (by omega)]
  congr 1
  refine List.flatMap_congr fun span mem => ?_
  have some_tokens := filled span mem
  have room := inside span mem
  have finish_eq : min (satAdd span.queryStart span.matchedTokens) queryLen =
      span.queryStart + span.matchedTokens := by
    rw [satAdd_of_le (by unfold u64Max; omega)]
    exact min_eq_left room
  have left_eq : min (min halo span.matchedTokens) (queryLen - span.queryStart) =
      min halo span.matchedTokens := by omega
  have right_eq : min (min halo span.matchedTokens) (span.queryStart + span.matchedTokens) =
      min halo span.matchedTokens := by omega
  dsimp only
  rw [finish_eq, left_eq, right_eq, if_pos (by omega), if_pos (by omega)]
  rfl

/-- **`boundary_ranges`**: separated ranges, and the positions at the boundary of a span. -/
theorem boundaryRanges_covered (positive : 0 < halo) (short : queryLen < 2 ^ 64)
    (filled : ∀ span ∈ spans, 0 < span.matchedTokens)
    (inside : ∀ span ∈ spans, span.queryStart + span.matchedTokens ≤ queryLen) :
    Separated ((boundaryRanges spans queryLen halo).map TokenRange.interval) ∧
      ∀ position, Covered ((boundaryRanges spans queryLen halo).map TokenRange.interval) position ↔
        ∃ span ∈ spans, span.AtBoundary halo position := by
  have piece : ∀ range ∈ spans.flatMap fun span => span.boundaryPieces halo,
      0 < range.len ∧ range.interval.2 ≤ u64Max := by
    intro range mem
    obtain ⟨span, there, part⟩ := List.mem_flatMap.mp mem
    have some_tokens := filled span there
    have room := inside span there
    unfold ReuseSpan.boundaryPieces at part
    unfold TokenRange.interval u64Max
    rcases List.mem_pair.mp part with rfl | rfl
    · dsimp only
      omega
    · dsimp only
      omega
  rw [boundaryRanges_pieces positive short filled inside]
  obtain ⟨separated, same⟩ := mergeRanges_covered (fun range mem => (piece range mem).1)
    fun range mem => (piece range mem).2
  refine ⟨separated, fun position => (same position).trans ?_⟩
  rw [List.map_flatMap]
  simp only [← boundaryPieces_covered]
  unfold Covered
  simp only [List.mem_flatMap]
  constructor
  · rintro ⟨interval, ⟨span, there, part⟩, here⟩
    exact ⟨span, there, interval, part, here⟩
  · rintro ⟨span, there, interval, part, here⟩
    exact ⟨interval, ⟨span, there, part⟩, here⟩

end

/-! ### Plans -/

section

variable {records : SegmentIndex} {modelFingerprint : String} {query : Tokens}
  {policy : QualityReusePolicy}

/-- A loop that has ended makes no more rounds where it may. -/
theorem planLoop_longer {fuel more : Nat} {ranges : List (Nat × Nat)} {spans : List ReuseSpan}
    {ended : Except IoError (List ReuseSpan)} (allowed : fuel ≤ more)
    (run : planLoop records modelFingerprint query policy fuel ranges spans = some ended) :
    planLoop records modelFingerprint query policy more ranges spans = some ended := by
  induction fuel generalizing more ranges spans with
  | zero => cases run
  | succ fuel ih =>
      obtain ⟨more, rfl⟩ : ∃ less, more = less + 1 := ⟨more - 1, by omega⟩
      unfold planLoop at run ⊢
      split at run
      case isTrue stop => rwa [if_pos stop]
      case isFalse going =>
        rw [if_neg going]
        split at run
        case h_1 => cases run
        case h_2 => exact run
        case h_3 => exact run
        case h_4 choice chosen =>
          split at run
          case h_1 => cases run
          case h_2 => exact ih (by omega) run

/-- **A plan that is returned is consistent**, however many rounds were allowed. -/
theorem planQualityReuse_returned {fuel : Nat} {plan : QualityReusePlan}
    (planned : planQualityReuse fuel records modelFingerprint query policy = some (.ok (some plan))) :
    0 < policy.minMatchTokens ∧ plan.Consistent records modelFingerprint query policy ∧
      plan.recomputeRanges =
        boundaryRanges plan.spans query.val.length policy.boundaryRecomputeTokens := by
  unfold planQualityReuse at planned
  cases valid : policy.validate with
  | error error =>
      rw [valid] at planned
      cases planned
  | ok checked =>
      rw [valid] at planned
      dsimp only at planned
      unfold QualityReusePolicy.validate at valid
      split at valid
      case isTrue => cases valid
      case isFalse limits =>
        cases valid
        have positive : 0 < policy.minMatchTokens := by omega
        split at planned
        case isTrue => cases planned
        case isFalse =>
          split at planned
          case h_1 => cases planned
          case h_2 => cases planned
          case h_3 found ended =>
            have finished : finishPlan query policy found = some plan :=
              Except.ok.inj (Option.some.inj planned)
            have longer := planLoop_longer (Nat.le_add_right fuel (policy.maxSegments + 1)) ended
            obtain ⟨same, again, few, rest, uncovered⟩ := planLoop_some positive
              (Uncovered.start records modelFingerprint query policy.minMatchTokens) (Nat.zero_le _)
              (show policy.maxSegments < 0 + (fuel + (policy.maxSegments + 1)) by omega)
            obtain rfl : found = same := Except.ok.inj (Option.some.inj (longer.symm.trans again))
            refine ⟨positive, finishPlan_consistent positive uncovered few finished, ?_⟩
            unfold finishPlan at finished
            split at finished
            case isTrue => cases finished
            case isFalse =>
              dsimp only at finished
              split at finished
              case isTrue => cases finished
              case isFalse =>
                cases finished
                rfl

/-- **What is recomputed**: ranges that are not empty, in order, with a token between any two of them, that
lie in the query; a position is in one of them if and only if it is close to an end of a reused span. -/
theorem planQualityReuse_boundary {fuel : Nat} {plan : QualityReusePlan}
    (planned : planQualityReuse fuel records modelFingerprint query policy = some (.ok (some plan))) :
    (∀ range ∈ plan.recomputeRanges, 0 < range.len ∧ range.start + range.len ≤ query.val.length) ∧
      plan.recomputeRanges.Pairwise (fun left right => left.start + left.len < right.start) ∧
      (∀ position, (∃ range ∈ plan.recomputeRanges,
          range.start ≤ position ∧ position < range.start + range.len) ↔
        ∃ span ∈ plan.spans, span.AtBoundary policy.boundaryRecomputeTokens position) ∧
      (policy.boundaryRecomputeTokens = 0 → plan.recomputeRanges = []) := by
  obtain ⟨positive, consistent, ranges_eq⟩ := planQualityReuse_returned planned
  have filled : ∀ span ∈ plan.spans, 0 < span.matchedTokens := fun span mem =>
    positive.trans_le (consistent.long span mem)
  by_cases none_asked : policy.boundaryRecomputeTokens = 0
  · have empty : plan.recomputeRanges = [] := by
      rw [ranges_eq, none_asked]
      rfl
    rw [empty, none_asked]
    refine ⟨fun _ mem => (by cases mem), List.Pairwise.nil, fun position => ?_, fun _ => rfl⟩
    constructor
    · rintro ⟨_, mem, _⟩
      cases mem
    · rintro ⟨_, _, _, _, left | right⟩
      · exact absurd left (Nat.not_lt_zero _)
      · exact absurd right (Nat.not_lt_zero _)
  · obtain ⟨separated, same⟩ := boundaryRanges_covered (Nat.pos_of_ne_zero none_asked) query.property
      filled consistent.inside
    rw [← ranges_eq] at separated same
    have covered : ∀ position, Covered (plan.recomputeRanges.map TokenRange.interval) position ↔
        ∃ range ∈ plan.recomputeRanges,
          range.start ≤ position ∧ position < range.start + range.len := by
      intro position
      unfold Covered
      simp only [List.mem_map, exists_exists_and_eq_and]
      rfl
    refine ⟨fun range mem => ⟨?_, ?_⟩, List.pairwise_map.mp separated.gaps,
      fun position => (covered position).symm.trans (same position),
      fun zero => absurd zero none_asked⟩
    · have some_tokens := separated.filled range.interval (List.mem_map_of_mem mem)
      exact Nat.lt_add_right_iff_pos.mp some_tokens
    · refine finish_le_of_covered separated (List.mem_map_of_mem mem) fun position here => ?_
      obtain ⟨span, there, _, below, _⟩ := (same position).mp here
      exact below.trans_le (consistent.inside span there)

end

/-- The plan of two spans of three tokens, with a halo of one. -/
theorem planQualityReuse_boundary_two_spans :
    planQualityReuse 5 [sixTokens] "m" apart ⟨3, 1, 4, 500⟩ = some (.ok (some apartPlan)) ∧
      ∀ position, (∃ range ∈ apartPlan.recomputeRanges,
          range.start ≤ position ∧ position < range.start + range.len) ↔
        ∃ span ∈ apartPlan.spans, span.AtBoundary 1 position := by
  have planned : planQualityReuse 5 [sixTokens] "m" apart ⟨3, 1, 4, 500⟩ =
      some (.ok (some apartPlan)) := by decide +kernel
  exact ⟨planned, (planQualityReuse_boundary planned).2.2.1⟩

end RivetCache
