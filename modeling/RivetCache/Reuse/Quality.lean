/-
**`quality.rs`: plans of several spans.**

`plan_quality_reuse` covers a query with spans of stored tokens: it keeps a list of the ranges that are not
covered yet, takes the best segment of any of them, and puts what is left of that range on either side of
the segment back into the list.

* `Uncovered`: the invariant of the loop. The ranges and the spans are disjoint parts of the query;
* `planLoop_some`: every round adds a span, so the loop ends after `max_segments` of them;
* `planQualityReuse_consistent`: what a plan promises.
-/

import RivetCache.Reuse.Segment
import RivetCache.Library.Interval

set_option linter.unusedSectionVars false

namespace RivetCache

open Library

/-- `TokenRange`. -/
structure TokenRange where
  start : Nat
  len : Nat
  deriving DecidableEq

/-- `TokenRange::end`. -/
def TokenRange.finish (range : TokenRange) : Nat := satAdd range.start range.len

/-- `QualityReusePolicy`. -/
structure QualityReusePolicy where
  minMatchTokens : Nat
  boundaryRecomputeTokens : Nat
  maxSegments : Nat
  minCoveragePerMille : UInt16
  deriving DecidableEq

/-- `QualityReusePolicy::validate`. -/
def QualityReusePolicy.validate (policy : QualityReusePolicy) : Except IoError QualityReusePolicy :=
  if policy.minMatchTokens = 0 ∨ policy.maxSegments = 0 ∨ policy.maxSegments > 1024 ∨
      policy.minCoveragePerMille.toNat > 1000 then
    .error ⟨.invalidInput, "quality reuse policy has invalid match/segment/coverage limits"⟩
  else .ok policy

/-- `QualityReusePlan`. -/
structure QualityReusePlan where
  spans : List ReuseSpan
  recomputeRanges : List TokenRange
  queryTokens : Nat
  reusedTokens : Nat
  coveragePerMille : UInt16
  deriving DecidableEq

/-! ### Vectors and slices -/

/-- `&tokens[start..finish]`; `none` is a panic. -/
def Tokens.slice? (tokens : Tokens) (start finish : Nat) : Option Tokens :=
  if start ≤ finish ∧ finish ≤ tokens.val.length then
    some ⟨(tokens.val.drop start).take (finish - start), by
      have size := tokens.property
      rw [List.length_take, List.length_drop]
      omega⟩
  else none

/-- `Vec::swap_remove`: the item, and the list with the last item in its place; `none` is a panic. -/
def swapRemove? {A : Type} (items : List A) (index : Nat) : Option (A × List A) :=
  match items[index]?, items.getLast? with
  | some item, some last => some (item, (items.set index last).dropLast)
  | _, _ => none

/-! ### The plan -/

/-- `best_choice`: the number of a range, its start, and the span found in it. -/
structure Choice where
  rangeIndex : Nat
  rangeStart : Nat
  span : ReuseSpan

section

variable (records : SegmentIndex) (modelFingerprint : String) (queryTokens : Tokens)
  (policy : QualityReusePolicy)

/-- `plan_quality_reuse`, the loop over the ranges. -/
def chooseRange : List (Nat × Nat) → Nat → Option Choice → Option (Except IoError (Option Choice))
  | [], _, best => some (.ok best)
  | (start, finish) :: rest, rangeIndex, best =>
      if finish - start < policy.minMatchTokens then chooseRange rest (rangeIndex + 1) best
      else
        match queryTokens.slice? start finish with
        | none => none
        | some part =>
            match records.bestSegment modelFingerprint part policy.minMatchTokens with
            | .error error => some (.error error)
            | .ok none => chooseRange rest (rangeIndex + 1) best
            | .ok (some found) =>
                let span := { found with queryStart := satAdd found.queryStart start }
                chooseRange rest (rangeIndex + 1)
                  (if span.replaces (best.map Choice.span) then some ⟨rangeIndex, start, span⟩
                    else best)

/-- What is left of a range beside a span. -/
def leftBeside (rangeStart rangeEnd : Nat) (span : ReuseSpan) : List (Nat × Nat) :=
  let spanEnd := satAdd span.queryStart span.matchedTokens
  (if span.queryStart > rangeStart then [(rangeStart, span.queryStart)] else []) ++
    (if spanEnd < rangeEnd then [(spanEnd, rangeEnd)] else [])

/-- `plan_quality_reuse`, the loop. It makes `fuel` rounds at most; `none` is a loop that has not ended, or
a panic. -/
def planLoop : Nat → List (Nat × Nat) → List ReuseSpan → Option (Except IoError (List ReuseSpan))
  | 0, _, _ => none
  | fuel + 1, ranges, spans =>
      if ranges.isEmpty || decide (policy.maxSegments ≤ spans.length) then some (.ok spans)
      else
        match chooseRange records modelFingerprint queryTokens policy ranges 0 none with
        | none => none
        | some (.error error) => some (.error error)
        | some (.ok none) => some (.ok spans)
        | some (.ok (some choice)) =>
            match swapRemove? ranges choice.rangeIndex with
            | none => none
            | some ((_, rangeEnd), left) =>
                planLoop fuel (left ++ leftBeside choice.rangeStart rangeEnd choice.span)
                  (spans ++ [choice.span])

end

/-- `merge_ranges`, the body of the loop. -/
def mergeRange (merged : List TokenRange) (range : TokenRange) : List TokenRange :=
  match merged.getLast? with
  | none => merged ++ [range]
  | some last =>
      if range.start ≤ last.finish then
        merged.dropLast ++ [⟨last.start, max last.finish range.finish - last.start⟩]
      else merged ++ [range]

/-- `merge_ranges`. -/
def mergeRanges (ranges : List TokenRange) : List TokenRange :=
  ((ranges.filter fun range => decide (range.len > 0)).insertionSort
    fun left right => left.start ≤ right.start).foldl mergeRange []

/-- `boundary_ranges`. -/
def boundaryRanges (spans : List ReuseSpan) (queryLen halo : Nat) : List TokenRange :=
  if halo = 0 then []
  else
    mergeRanges (spans.flatMap fun span =>
      let finish := min (satAdd span.queryStart span.matchedTokens) queryLen
      let leftLen := min (min halo span.matchedTokens) (queryLen - span.queryStart)
      let rightLen := min (min halo span.matchedTokens) finish
      (if leftLen > 0 then [⟨span.queryStart, leftLen⟩] else []) ++
        (if rightLen > 0 then [⟨finish - rightLen, rightLen⟩] else []))

/-- The order of the spans of a plan. -/
def startsEarlier (left right : ReuseSpan) : Prop := left.queryStart ≤ right.queryStart

instance : DecidableRel startsEarlier := fun left right =>
  inferInstanceAs (Decidable (left.queryStart ≤ right.queryStart))

instance : Std.Total startsEarlier := ⟨fun left right => le_total left.queryStart right.queryStart⟩

instance : IsTrans ReuseSpan startsEarlier := ⟨fun _ _ _ => le_trans⟩

/-- `plan_quality_reuse`, after the loop. -/
def finishPlan (queryTokens : Tokens) (policy : QualityReusePolicy) (found : List ReuseSpan) :
    Option QualityReusePlan :=
  if found.isEmpty then none
  else
    let spans := found.insertionSort startsEarlier
    let reusedTokens := spans.foldl (fun total span => satAdd total span.matchedTokens) 0
    let coverage := UInt16.ofNat (min (satMul reusedTokens 1000 / queryTokens.val.length) 1000)
    if coverage < policy.minCoveragePerMille then none
    else
      some
        { spans
          recomputeRanges :=
            boundaryRanges spans queryTokens.val.length policy.boundaryRecomputeTokens
          queryTokens := queryTokens.val.length
          reusedTokens
          coveragePerMille := coverage }

/-- `plan_quality_reuse`. -/
def planQualityReuse (fuel : Nat) (records : SegmentIndex) (modelFingerprint : String)
    (queryTokens : Tokens) (policy : QualityReusePolicy) :
    Option (Except IoError (Option QualityReusePlan)) :=
  match policy.validate with
  | .error error => some (.error error)
  | .ok policy =>
      if queryTokens.val.isEmpty then some (.ok none)
      else
        match planLoop records modelFingerprint queryTokens policy fuel
            [(0, queryTokens.val.length)] [] with
        | none => none
        | some (.error error) => some (.error error)
        | some (.ok spans) => some (.ok (finishPlan queryTokens policy spans))

/-! ### Slices and removals -/

section

variable {start finish : Nat}

/-- A range inside the tokens has a slice. -/
theorem Tokens.slice?_of_le (tokens : Tokens) (order : start ≤ finish) (inside : finish ≤ tokens.val.length) :
    ∃ part, tokens.slice? start finish = some part ∧
      part.val = (tokens.val.drop start).take (finish - start) := by
  unfold Tokens.slice?
  rw [if_pos ⟨order, inside⟩]
  exact ⟨_, rfl, rfl⟩

/-- **A common run of a slice** is one of the whole, further on. -/
theorem agree_slice {tokens : Tokens} {source : List UInt32} {first second length : Nat}
    (inside : finish ≤ tokens.val.length)
    (agree : Agree ((tokens.val.drop start).take (finish - start)) source first second length) :
    Agree tokens.val source (first + start) second length ∧ first + start + length ≤ finish ∨
      length = 0 := by
  obtain ⟨inLeft, inRight, items⟩ := agree_iff.mp agree
  rw [List.length_take, List.length_drop] at inLeft
  by_cases empty : length = 0
  · exact Or.inr empty
  · refine Or.inl ⟨agree_iff.mpr ⟨by omega, inRight, fun offset below => ?_⟩, by omega⟩
    rw [← items offset below, List.getElem?_take, if_pos (by omega), List.getElem?_drop]
    congr 1
    omega

end

variable {A : Type} {items left : List A} {item : A} {index : Nat}

theorem swapRemove?_isSome (inside : index < items.length) :
    ∃ left, swapRemove? items index = some (items[index], left) := by
  unfold swapRemove?
  have filled : items ≠ [] := List.ne_nil_of_length_pos (by omega)
  rw [List.getElem?_eq_getElem inside, List.getLast?_eq_getLast_of_ne_nil filled]
  exact ⟨_, rfl⟩

/-- **What is removed and what is left** are the items. -/
theorem swapRemove?_perm (removed : swapRemove? items index = some (item, left)) :
    items.Perm (item :: left) := by
  unfold swapRemove? at removed
  split at removed
  case h_2 => cases removed
  case h_1 _ here last_here =>
    cases removed
    obtain ⟨inside, rfl⟩ := List.getElem?_eq_some_iff.mp here
    have cut : items = items.take index ++ items[index] :: items.drop (index + 1) := by
      rw [List.getElem_cons_drop, List.take_append_drop]
    have length : (items.take index).length = index := List.length_take_of_le (by omega)
    generalize items.take index = front at cut length
    generalize items[index] = item at cut
    generalize items.drop (index + 1) = back at cut
    subst cut length
    rw [List.set_append_right _ _ (Nat.le_refl _), Nat.sub_self, List.set_cons_zero]
    rcases List.eq_nil_or_concat back with rfl | ⟨middle, final, rfl⟩
    · rw [List.dropLast_concat]
      exact List.perm_append_singleton item front
    · -- the last item moves into the gap
      rw [List.concat_eq_append] at last_here ⊢
      have split : front ++ item :: (middle ++ [final]) = (front ++ item :: middle) ++ [final] := by
        simp
      rw [split, List.getLast?_concat] at last_here
      have same := Option.some.inj last_here
      subst same
      have shape : front ++ final :: (middle ++ [final]) = (front ++ final :: middle) ++ [final] := by
        simp
      rw [shape, List.dropLast_concat]
      refine List.perm_middle.trans (List.Perm.cons item ?_)
      exact List.Perm.append_left front (List.perm_append_singleton final middle)

/-! ### The loop over the ranges -/

section

variable {records : SegmentIndex} {modelFingerprint : String} {query : Tokens}
  {policy : QualityReusePolicy}

/-- A span of a plan: sound for a record of the model, and long enough. -/
def ReuseSpan.Fits (records : SegmentIndex) (modelFingerprint : String) (query : Tokens)
    (minMatchTokens : Nat) (span : ReuseSpan) : Prop :=
  minMatchTokens ≤ span.matchedTokens ∧
    ∃ record ∈ records, record.modelFingerprint = modelFingerprint ∧ span.Sound query record

/-- The part of the query a span covers. -/
def ReuseSpan.covered (span : ReuseSpan) : Nat × Nat :=
  (span.queryStart, span.queryStart + span.matchedTokens)

theorem ReuseSpan.Fits.inside {minMatchTokens : Nat} {span : ReuseSpan}
    (fits : span.Fits records modelFingerprint query minMatchTokens) :
    span.queryStart + span.matchedTokens ≤ query.val.length := by
  obtain ⟨_, record, _, _, sound⟩ := fits
  exact sound.agree.inLeft

/-- **The span chosen**: it lies in the range it was found in. -/
structure Choice.Holds (records : SegmentIndex) (modelFingerprint : String) (query : Tokens)
    (minMatchTokens : Nat) (ranges : List (Nat × Nat)) (choice : Choice) : Prop where
  fits : choice.span.Fits records modelFingerprint query minMatchTokens
  low : choice.rangeStart ≤ choice.span.queryStart
  range : ∃ rangeEnd, ranges[choice.rangeIndex]? = some (choice.rangeStart, rangeEnd) ∧
    choice.span.queryStart + choice.span.matchedTokens ≤ rangeEnd

/-- A span found in a slice, moved to its place in the query. -/
theorem found_in_slice {start finish : Nat} {part : Tokens} {found : ReuseSpan} {minMatchTokens : Nat}
    (positive : 0 < minMatchTokens) (inside : finish ≤ query.val.length)
    (slice : part.val = (query.val.drop start).take (finish - start))
    (answered : records.bestSegment modelFingerprint part minMatchTokens = .ok (some found)) :
    ReuseSpan.Fits records modelFingerprint query minMatchTokens
        { found with queryStart := satAdd found.queryStart start } ∧
      start ≤ satAdd found.queryStart start ∧
      satAdd found.queryStart start + found.matchedTokens ≤ finish := by
  obtain ⟨record, mem, same, sound, long⟩ := SegmentIndex.bestSegment_sound answered
  have agree := sound.agree
  rw [slice] at agree
  have size := query.property
  rcases agree_slice inside agree with ⟨whole, below⟩ | empty
  · have exact_start : satAdd found.queryStart start = found.queryStart + start :=
      satAdd_of_le (by unfold u64Max; omega)
    rw [exact_start]
    exact ⟨⟨long, record, mem, same, whole, sound.keys, sound.tiles⟩, Nat.le_add_left _ _, below⟩
  · omega

/-- **What the loop over the ranges chooses.** The induction is on what is left of the ranges; `front` is
what was passed. -/
theorem chooseRange_holds (positive : 0 < policy.minMatchTokens) (rest front : List (Nat × Nat))
    (bounds : ∀ range ∈ rest, range.1 ≤ range.2 ∧ range.2 ≤ query.val.length) {best : Option Choice}
    (held : ∀ choice, best = some choice →
      choice.Holds records modelFingerprint query policy.minMatchTokens (front ++ rest)) :
    ∃ chosen, chooseRange records modelFingerprint query policy rest front.length best =
        some (.ok chosen) ∧
      ∀ choice, chosen = some choice →
        choice.Holds records modelFingerprint query policy.minMatchTokens (front ++ rest) := by
  induction rest generalizing front best with
  | nil => exact ⟨best, rfl, held⟩
  | cons range rest ih =>
      obtain ⟨start, finish⟩ := range
      have longer : (front ++ [(start, finish)]).length = front.length + 1 := by simp
      have later := fun other mem => bounds other (List.mem_cons_of_mem _ mem)
      have continues := fun best => @ih (front ++ [(start, finish)]) later best
      simp only [longer, List.append_assoc, List.singleton_append] at continues
      obtain ⟨order, inside⟩ := bounds (start, finish) List.mem_cons_self
      unfold chooseRange
      split
      case isTrue => exact continues best held
      case isFalse =>
        obtain ⟨part, sliced, slice⟩ := query.slice?_of_le order inside
        rw [sliced]
        dsimp only
        cases answered : records.bestSegment modelFingerprint part policy.minMatchTokens with
        | error error =>
            unfold SegmentIndex.bestSegment at answered
            rw [if_neg (by omega)] at answered
            split at answered <;> cases answered
        | ok found =>
            cases found with
            | none => exact continues best held
            | some found =>
                obtain ⟨fits, low, high⟩ := found_in_slice positive inside slice answered
                refine continues _ fun choice chosen => ?_
                split at chosen
                case isTrue =>
                  cases chosen
                  refine ⟨fits, low, finish, ?_, high⟩
                  rw [List.getElem?_append_right (Nat.le_refl _), Nat.sub_self]
                  rfl
                case isFalse => exact held choice chosen

/-! ### The loop -/

/-- **The invariant of the loop**: the ranges that are left and the spans found are disjoint parts of the
query. -/
structure Uncovered (records : SegmentIndex) (modelFingerprint : String) (query : Tokens)
    (minMatchTokens : Nat) (ranges : List (Nat × Nat)) (spans : List ReuseSpan) : Prop where
  bounds : ∀ range ∈ ranges, range.1 ≤ range.2 ∧ range.2 ≤ query.val.length
  fits : ∀ span ∈ spans, span.Fits records modelFingerprint query minMatchTokens
  disjoint : (ranges ++ spans.map ReuseSpan.covered).Pairwise Apart

theorem Uncovered.start (records : SegmentIndex) (modelFingerprint : String) (query : Tokens)
    (minMatchTokens : Nat) :
    Uncovered records modelFingerprint query minMatchTokens [(0, query.val.length)] [] where
  bounds range mem := by
    rw [List.mem_singleton.mp mem]
    exact ⟨Nat.zero_le _, Nat.le_refl _⟩
  fits span mem := by cases mem
  disjoint := List.pairwise_singleton _ _

/-- The parts beside a span. -/
theorem leftBeside_parts {rangeStart rangeEnd : Nat} {span : ReuseSpan}
    (short : span.queryStart + span.matchedTokens ≤ u64Max)
    (low : rangeStart ≤ span.queryStart) (high : span.queryStart + span.matchedTokens ≤ rangeEnd) :
    (leftBeside rangeStart rangeEnd span ++ [span.covered]).Pairwise Apart ∧
      ∀ part ∈ leftBeside rangeStart rangeEnd span ++ [span.covered],
        rangeStart ≤ part.1 ∧ part.1 ≤ part.2 ∧ part.2 ≤ rangeEnd := by
  unfold leftBeside ReuseSpan.covered
  rw [satAdd_of_le short]
  dsimp only
  constructor
  · split <;> split <;> simp [Apart]
  · split <;> split <;> simp <;> omega

/-- **One round** keeps the invariant: the range is cut into the span and what is left beside it. -/
theorem Uncovered.round {minMatchTokens : Nat} {ranges left : List (Nat × Nat)}
    {spans : List ReuseSpan}
    (uncovered : Uncovered records modelFingerprint query minMatchTokens ranges spans)
    {choice : Choice} (holds : choice.Holds records modelFingerprint query minMatchTokens ranges)
    {item : Nat × Nat} (removed : swapRemove? ranges choice.rangeIndex = some (item, left)) :
    Uncovered records modelFingerprint query minMatchTokens
      (left ++ leftBeside choice.rangeStart item.2 choice.span) (spans ++ [choice.span]) := by
  obtain ⟨rangeEnd, here, high⟩ := holds.range
  have item_eq : item = (choice.rangeStart, rangeEnd) := by
    unfold swapRemove? at removed
    rw [here] at removed
    split at removed
    case h_2 => cases removed
    case h_1 _ same _ =>
      cases removed
      exact (Option.some.inj same).symm
  subst item_eq
  have perm := swapRemove?_perm removed
  have room := holds.fits.inside
  have size := query.property
  obtain ⟨cut, parts⟩ := leftBeside_parts (by unfold u64Max; omega) holds.low high
  have range_bounds := uncovered.bounds (choice.rangeStart, rangeEnd) (perm.mem_iff.mpr List.mem_cons_self)
  refine ⟨?_, ?_, ?_⟩
  · intro range mem
    rcases List.mem_append.mp mem with kept | new
    · exact uncovered.bounds range (perm.mem_iff.mpr (List.mem_cons_of_mem _ kept))
    · have part := parts range (List.mem_append_left _ new)
      exact ⟨part.2.1, part.2.2.trans range_bounds.2⟩
  · intro span mem
    rcases List.mem_append.mp mem with kept | new
    · exact uncovered.fits span kept
    · rw [List.mem_singleton.mp new]
      exact holds.fits
  · have whole : ((choice.rangeStart, rangeEnd) :: (left ++ spans.map ReuseSpan.covered)).Pairwise
        Apart := (pairwise_apart_perm (perm.append_right _)).mp uncovered.disjoint
    have divided := pairwise_split whole cut fun part mem =>
      ⟨(parts part mem).1, (parts part mem).2.2⟩
    refine (pairwise_apart_perm ?_).mp divided
    rw [List.map_append, List.map_singleton]
    refine List.perm_append_comm.trans ?_
    rw [List.append_assoc, List.append_assoc]
    exact List.Perm.append_left left (List.perm_append_comm_assoc _ _ _)

/-- **The loop ends**: every round adds a span, and there are `max_segments` of them at most. The
induction is on the rounds allowed, which are more than the spans that may still be added. -/
theorem planLoop_some (positive : 0 < policy.minMatchTokens) {fuel : Nat}
    {ranges : List (Nat × Nat)} {spans : List ReuseSpan}
    (uncovered : Uncovered records modelFingerprint query policy.minMatchTokens ranges spans)
    (few : spans.length ≤ policy.maxSegments)
    (enough : policy.maxSegments < spans.length + fuel) :
    ∃ found, planLoop records modelFingerprint query policy fuel ranges spans = some (.ok found) ∧
      found.length ≤ policy.maxSegments ∧
      ∃ rest, Uncovered records modelFingerprint query policy.minMatchTokens rest found := by
  induction fuel generalizing ranges spans with
  | zero => omega
  | succ fuel ih =>
      unfold planLoop
      split
      case isTrue => exact ⟨spans, rfl, few, ranges, uncovered⟩
      case isFalse more =>
        rw [Bool.or_eq_true, not_or, decide_eq_true_eq] at more
        obtain ⟨chosen, answered, holds⟩ := chooseRange_holds positive ranges [] uncovered.bounds
          (fun choice (none_yet : (none : Option Choice) = some choice) => by cases none_yet)
        rw [List.length_nil] at answered
        rw [answered]
        cases chosen with
        | none => exact ⟨spans, rfl, few, ranges, uncovered⟩
        | some choice =>
            have chosen_holds := holds choice rfl
            rw [List.nil_append] at chosen_holds
            obtain ⟨rangeEnd, here, _⟩ := chosen_holds.range
            obtain ⟨left, removed⟩ := swapRemove?_isSome (List.getElem?_eq_some_iff.mp here).1
            have next := uncovered.round chosen_holds removed
            dsimp only
            rw [removed]
            refine ih next ?_ ?_
            · rw [List.length_append, List.length_singleton]
              omega
            · rw [List.length_append, List.length_singleton]
              omega

/-! ### The plan -/

/-- **What a plan promises.** -/
structure QualityReusePlan.Consistent (records : SegmentIndex) (modelFingerprint : String)
    (query : Tokens) (policy : QualityReusePolicy) (plan : QualityReusePlan) : Prop where
  sorted : plan.spans.Pairwise fun left right => left.queryStart ≤ right.queryStart
  disjoint : plan.spans.Pairwise fun left right =>
    left.queryStart + left.matchedTokens ≤ right.queryStart
  inside : ∀ span ∈ plan.spans, span.queryStart + span.matchedTokens ≤ query.val.length
  matching : ∀ span ∈ plan.spans, ∃ record ∈ records, record.modelFingerprint = modelFingerprint ∧
    span.Sound query record
  long : ∀ span ∈ plan.spans, policy.minMatchTokens ≤ span.matchedTokens
  few : plan.spans.length ≤ policy.maxSegments
  tokens : plan.queryTokens = query.val.length
  reused : plan.reusedTokens = (plan.spans.map ReuseSpan.matchedTokens).sum
  most : plan.reusedTokens ≤ query.val.length
  coverage : 1000 * query.val.length < 2 ^ 64 →
    plan.coveragePerMille.toNat = 1000 * plan.reusedTokens / query.val.length
  enough : policy.minCoveragePerMille ≤ plan.coveragePerMille

/-- A sum that saturates nowhere. -/
theorem fold_satAdd (spans : List ReuseSpan) (total : Nat)
    (short : total + (spans.map ReuseSpan.matchedTokens).sum ≤ u64Max) :
    spans.foldl (fun total span => satAdd total span.matchedTokens) total =
      total + (spans.map ReuseSpan.matchedTokens).sum := by
  induction spans generalizing total with
  | nil => rfl
  | cons span rest ih =>
      rw [List.map_cons, List.sum_cons] at short ⊢
      rw [List.foldl_cons, satAdd_of_le (by omega), ih _ (by omega), Nat.add_assoc]

/-- **Spans found by the loop make a consistent plan.** -/
theorem finishPlan_consistent (positive : 0 < policy.minMatchTokens) {rest : List (Nat × Nat)}
    {found : List ReuseSpan} {plan : QualityReusePlan}
    (uncovered : Uncovered records modelFingerprint query policy.minMatchTokens rest found)
    (few : found.length ≤ policy.maxSegments)
    (finished : finishPlan query policy found = some plan) :
    plan.Consistent records modelFingerprint query policy := by
  have perm := List.perm_insertionSort startsEarlier found
  have fits : ∀ span ∈ found.insertionSort startsEarlier,
      span.Fits records modelFingerprint query policy.minMatchTokens := fun span mem =>
    uncovered.fits span (perm.mem_iff.mp mem)
  have sorted : (found.insertionSort startsEarlier).Pairwise fun left right =>
      left.queryStart ≤ right.queryStart :=
    List.pairwise_insertionSort startsEarlier found
  have chained : ((found.insertionSort startsEarlier).map ReuseSpan.covered).Pairwise
      fun left right => left.2 ≤ right.1 := by
    refine chained_of_sorted ?_ (List.pairwise_map.mpr sorted) ?_
    · exact (pairwise_apart_perm (perm.map _)).mpr (List.pairwise_append.mp uncovered.disjoint).2.1
    · intro interval mem
      obtain ⟨span, inside, rfl⟩ := List.mem_map.mp mem
      have long := (fits span inside).1
      show span.queryStart < span.queryStart + span.matchedTokens
      omega
  have total : ((found.insertionSort startsEarlier).map ReuseSpan.matchedTokens).sum ≤
      query.val.length := by
    have least := total_length_le chained (Nat.zero_le query.val.length) ?_
    · rw [List.map_map] at least
      have lengths : ((fun interval : Nat × Nat => interval.2 - interval.1) ∘ ReuseSpan.covered) =
          ReuseSpan.matchedTokens := funext fun span => Nat.add_sub_cancel_left _ _
      rwa [lengths, Nat.sub_zero] at least
    · intro interval mem
      obtain ⟨span, inside, rfl⟩ := List.mem_map.mp mem
      exact ⟨Nat.zero_le _, Nat.le_add_right _ _, (fits span inside).inside⟩
  have size := query.property
  have reused := fold_satAdd (found.insertionSort startsEarlier) 0 (by unfold u64Max; omega)
  rw [Nat.zero_add] at reused
  unfold finishPlan at finished
  dsimp only at finished
  rw [reused] at finished
  split at finished
  case isTrue => cases finished
  case isFalse =>
    split at finished
    case isTrue => cases finished
    case isFalse covered =>
      cases finished
      refine ⟨sorted, List.pairwise_map.mp chained, fun span mem => (fits span mem).inside,
        fun span mem => (fits span mem).2, fun span mem => (fits span mem).1,
        perm.length_eq.trans_le few, rfl, rfl, total, ?_, UInt16.not_lt.mp covered⟩
      intro short
      generalize ((found.insertionSort startsEarlier).map ReuseSpan.matchedTokens).sum = reused
        at total
      have whole : satMul reused 1000 = 1000 * reused := by
        unfold satMul u64Max
        omega
      have most : 1000 * reused / query.val.length ≤ 1000 := by
        refine Nat.div_le_of_le_mul ?_
        rw [Nat.mul_comm]
        exact Nat.mul_le_mul_right 1000 total
      show (UInt16.ofNat (min (satMul reused 1000 / query.val.length) 1000)).toNat =
        1000 * reused / query.val.length
      rw [whole, Nat.min_eq_left most, UInt16.toNat_ofNat', Nat.mod_eq_of_lt (by omega)]

/-- **A plan is consistent**, and there is an answer after `max_segments` rounds: for every index, model,
query that is not empty and valid policy. -/
theorem planQualityReuse_consistent (records : SegmentIndex) (modelFingerprint : String)
    (query : Tokens) (policy : QualityReusePolicy) (filled : query.val ≠ [])
    (valid : policy.validate = .ok policy) {fuel : Nat} (enough : policy.maxSegments < fuel) :
    ∃ answer, planQualityReuse fuel records modelFingerprint query policy = some (.ok answer) ∧
      ∀ plan, answer = some plan → plan.Consistent records modelFingerprint query policy := by
  have positive : 0 < policy.minMatchTokens := by
    unfold QualityReusePolicy.validate at valid
    split at valid
    case isTrue => cases valid
    case isFalse limits => omega
  obtain ⟨found, ended, few, rest, uncovered⟩ := planLoop_some positive
    (Uncovered.start records modelFingerprint query policy.minMatchTokens) (Nat.zero_le _)
    (show policy.maxSegments < ([] : List ReuseSpan).length + fuel by rwa [List.length_nil, Nat.zero_add])
  refine ⟨finishPlan query policy found, ?_, fun plan finished =>
    finishPlan_consistent positive uncovered few finished⟩
  unfold planQualityReuse
  rw [valid]
  dsimp only
  rw [if_neg (by rwa [List.isEmpty_iff]), ended]

end

/-- A query that holds both blocks of `sixTokens`, apart. -/
def apart : Tokens := ⟨[9, 1, 2, 3, 9, 4, 5, 6], by decide⟩

/-- Two spans, and the tokens at their ends. -/
def apartPlan : QualityReusePlan where
  spans := [⟨1, 0, 3, [tripleKey 0]⟩, ⟨5, 3, 3, [tripleKey 3]⟩]
  recomputeRanges := [⟨1, 1⟩, ⟨3, 1⟩, ⟨5, 1⟩, ⟨7, 1⟩]
  queryTokens := 8
  reusedTokens := 6
  coveragePerMille := 750

theorem planQualityReuse_two_spans :
    planQualityReuse 5 [sixTokens] "m" apart ⟨3, 1, 4, 500⟩ = some (.ok (some apartPlan)) ∧
      apartPlan.Consistent [sixTokens] "m" apart ⟨3, 1, 4, 500⟩ := by
  have planned : planQualityReuse 5 [sixTokens] "m" apart ⟨3, 1, 4, 500⟩ =
      some (.ok (some apartPlan)) := by decide +kernel
  obtain ⟨answer, same, consistent⟩ := planQualityReuse_consistent [sixTokens] "m" apart
    ⟨3, 1, 4, 500⟩ (by decide) (by decide) (by decide : 4 < 5)
  rw [planned] at same
  cases same
  exact ⟨planned, consistent apartPlan rfl⟩

end RivetCache
