/-
**`quality.rs`: applying a plan.**

`apply_quality_reuse` gets every block of a plan before it calls the adapter, but tests the target of a span
only after the spans before it are restored. The runtime is left alone by a call that does not apply the plan,
unless a target `StopsLate` (`applyQualityReuse_untouched`).

* `SpanHits`: the gets of all spans, with their blocks;
* `applyQualityReuse_cases`: the query does not match, a get misses or fails, or the spans are restored in
  order, as `checkedCalls` does.
-/

import RivetCache.Adapters.Relocated

set_option linter.unusedSectionVars false

namespace RivetCache

open Library

variable {τ : Nat → Type} {ρ : Type}

namespace KvEngine

/-- `apply_quality_reuse`, the loop that gets the blocks of the spans. -/
def gatherSpans (engine : KvEngine τ) : List ReuseSpan → KvProgram (Option (List (Nat × List KvBlock)))
  | [] => pure (some [])
  | span :: rest => do
      match ← engine.gather span.sourceKeys with
      | none => pure none
      | some blocks => do
          match ← engine.gatherSpans rest with
          | none => pure none
          | some loaded => pure (some ((span.queryStart, blocks) :: loaded))

end KvEngine

/-- `apply_quality_reuse`, the target of a span as a position of the runtime. -/
def targetInRange (loaded : Nat × List KvBlock) : Except IoError (List KvBlock × UInt32) :=
  if loaded.1 > 2 ^ 32 - 1 then
    .error ⟨.invalidInput, "quality reuse target exceeds runtime position range"⟩
  else .ok (loaded.2, UInt32.ofNat loaded.1)

/-- `apply_quality_reuse`. -/
def applyQualityReuse (engine : KvEngine τ) (adapter : QualityAwareRuntimeKvAdapter ρ)
    (queryTokens : Tokens) (plan : QualityReusePlan) (s : KvState τ × ρ) :
    Except IoError Bool × (KvState τ × ρ) :=
  if queryTokens.val.length ≠ plan.queryTokens ∨ plan.spans.isEmpty then
    (.error ⟨.invalidInput, "quality reuse plan does not match the supplied query"⟩, s)
  else
    match engine.run (engine.gatherSpans plan.spans) s.1 with
    | (.error error, left) => (.error error, left, s.2)
    | (.ok none, left) => (.ok false, left, s.2)
    | (.ok (some loaded), left) =>
        match checkedCalls targetInRange (fun restore => adapter.restoreRelocated restore.1 restore.2)
            loaded s.2 with
        | (.error error, runtime) => (.error error, left, runtime)
        | (.ok (), runtime) =>
            if plan.recomputeRanges.isEmpty then (.ok true, left, runtime)
            else
              match adapter.recomputeRanges queryTokens plan.recomputeRanges runtime with
              | (.error error, runtime) => (.error error, left, runtime)
              | (.ok (), runtime) => (.ok true, left, runtime)

/-! ### The gets of the spans -/

namespace KvEngine

/-- The gets of the spans, all with a block. -/
inductive SpanHits (engine : KvEngine τ) :
    List ReuseSpan → List (Nat × List KvBlock) → KvState τ → KvState τ → Prop
  | nil (s : KvState τ) : SpanHits engine [] [] s s
  | cons {span : ReuseSpan} {rest : List ReuseSpan} {blocks : List KvBlock}
      {loaded : List (Nat × List KvBlock)} {s middle after : KvState τ}
      (hits : engine.Hits span.sourceKeys blocks s middle)
      (others : SpanHits engine rest loaded middle after) :
      SpanHits engine (span :: rest) ((span.queryStart, blocks) :: loaded) s after

variable {engine : KvEngine τ}

/-- **The loop of a span** gathers the blocks exactly where every get hits. -/
theorem gather_hits {keys : List KvBlockKey} {blocks : List KvBlock} {s after : KvState τ} :
    engine.run (engine.gather keys) s = (.ok (some blocks), after) ↔ engine.Hits keys blocks s after := by
  refine ⟨fun gathered => ?_, Hits.gather⟩
  rcases engine.gather_cases keys s with ⟨found, left, hits⟩ |
    ⟨_, _, _, _, _, left, answer, _, _, stops, stopped⟩
  · have same := hits.gather
    rw [gathered] at same
    cases same
    exact hits
  · rw [gathered] at stopped
    cases stopped
    cases stops

/-- **The loop over the spans** loads the blocks exactly where every get hits. -/
theorem gatherSpans_hits {spans : List ReuseSpan} {loaded : List (Nat × List KvBlock)}
    {s after : KvState τ} :
    engine.run (engine.gatherSpans spans) s = (.ok (some loaded), after) ↔
      engine.SpanHits spans loaded s after := by
  induction spans generalizing loaded s with
  | nil =>
      constructor
      · intro gathered
        cases gathered
        exact .nil _
      · intro hits
        cases hits
        rfl
  | cons span rest ih =>
      constructor
      · intro gathered
        unfold gatherSpans run at gathered
        obtain ⟨found, middle, first, next⟩ := Program.run_bind_ok.mp gathered
        cases found with
        | none => cases next
        | some blocks =>
            obtain ⟨others, last, second, ended⟩ := Program.run_bind_ok.mp next
            cases others with
            | none => cases ended
            | some others =>
                cases ended
                exact .cons (gather_hits.mp first) (ih.mp second)
      · rintro (_ | ⟨hits, others⟩)
        have first := gather_hits.mpr hits
        have second := ih.mpr others
        unfold run at first second
        unfold gatherSpans run
        rw [Program.run_bind, first, andThen_ok, Program.run_bind, second, andThen_ok]
        rfl

end KvEngine

/-! ### A runtime that records its calls -/

/-- A call that changes the state of a runtime. -/
inductive RuntimeCall where
  | restored (blocks : List KvBlock)
  | relocated (restore : List KvBlock × UInt32)
  | recomputed (tokens : Tokens) (ranges : List TokenRange)

namespace QualityAwareRuntimeKvAdapter

/-- A call of the adapter. -/
def perform (adapter : QualityAwareRuntimeKvAdapter ρ) :
    RuntimeCall → ρ → Except IoError Unit × ρ
  | .restored blocks => adapter.restore blocks
  | .relocated restore => adapter.restoreRelocated restore.1 restore.2
  | .recomputed tokens ranges => adapter.recomputeRanges tokens ranges

/-- The adapter, with a record of the calls that change the runtime. -/
def recording (adapter : QualityAwareRuntimeKvAdapter ρ) :
    QualityAwareRuntimeKvAdapter (ρ × List (RuntimeCall × Except IoError Unit)) where
  runtimeName := adapter.runtimeName
  capture request s := ((adapter.capture request s.1).1, (adapter.capture request s.1).2, s.2)
  restore blocks := recorded adapter.perform (.restored blocks)
  restoreRelocated blocks target := recorded adapter.perform (.relocated (blocks, target))
  recomputeRanges tokens ranges := recorded adapter.perform (.recomputed tokens ranges)

end QualityAwareRuntimeKvAdapter

/-- **The runtime is left alone**: where the plan is not applied, or an error is raised that the adapter has
not reported, no call of the adapter was made. -/
def Untouched (result : Except IoError Bool) (calls : List (RuntimeCall × Except IoError Unit)) : Prop :=
  (result = .ok false ∨ ∃ error, result = .error error ∧ ∀ made ∈ calls, made.2 = .ok ()) → calls = []

/-- A plan that is applied. -/
theorem untouched_applied (calls : List (RuntimeCall × Except IoError Unit)) :
    Untouched (.ok true) calls := by
  rintro (applied | ⟨_, failed, _⟩)
  · cases applied
  · cases failed

/-- An error that the adapter has reported. -/
theorem untouched_reported {error reported : IoError} {call : RuntimeCall}
    {calls : List (RuntimeCall × Except IoError Unit)} (made : (call, .error reported) ∈ calls) :
    Untouched (.error error) calls := by
  rintro (applied | ⟨_, _, accepted⟩)
  · cases applied
  · cases accepted _ made

/-- **A plan that stops late**: the query matches it and all its blocks are there; the first spans are in the
range of positions, and the adapter restores them; and the span after them is not. -/
structure StopsLate (engine : KvEngine τ) (adapter : QualityAwareRuntimeKvAdapter ρ)
    (queryTokens : Tokens) (plan : QualityReusePlan) (s : KvState τ) (runtime : ρ) : Prop where
  matching : queryTokens.val.length = plan.queryTokens
  late : ∃ loaded left, engine.SpanHits plan.spans loaded s left ∧
    ∃ front stopping rest after, loaded = front ++ stopping :: rest ∧ front ≠ [] ∧
      (∀ restored ∈ front, restored.1 ≤ 2 ^ 32 - 1) ∧ 2 ^ 32 - 1 < stopping.1 ∧
      Accepts (fun restore => adapter.restoreRelocated restore.1 restore.2)
        (front.map fun restored => (restored.2, UInt32.ofNat restored.1)) runtime after

section

variable {engine : KvEngine τ} {adapter : QualityAwareRuntimeKvAdapter ρ} {queryTokens : Tokens}
  {plan : QualityReusePlan} {s : KvState τ} {runtime : ρ} {loaded : List (Nat × List KvBlock)}

/-- The calls of the loop that restores the spans. -/
def relocateSpan (item : Nat × List KvBlock) : Except IoError RuntimeCall :=
  (targetInRange item).map RuntimeCall.relocated

theorem relocateSpan_fails {item : Nat × List KvBlock} :
    (∃ error, relocateSpan item = .error error) ↔ 2 ^ 32 - 1 < item.1 := by
  unfold relocateSpan targetInRange
  split
  case isTrue outside => exact iff_of_true ⟨_, rfl⟩ outside
  case isFalse inside => exact iff_of_false (by rintro ⟨_, failed⟩; cases failed) inside

theorem relocateSpan_passes {items : List (Nat × List KvBlock)} {calls : List RuntimeCall} :
    items.map relocateSpan = calls.map .ok ↔
      (∀ item ∈ items, item.1 ≤ 2 ^ 32 - 1) ∧
        calls = items.map fun item => .relocated (item.2, UInt32.ofNat item.1) := by
  induction items generalizing calls with
  | nil => simp [eq_comm]
  | cons item rest ih =>
      rw [List.map_cons, List.forall_mem_cons, List.map_cons]
      have here : relocateSpan item = if item.1 > 2 ^ 32 - 1
          then .error ⟨.invalidInput, "quality reuse target exceeds runtime position range"⟩
          else .ok (.relocated (item.2, UInt32.ofNat item.1)) := by
        unfold relocateSpan targetInRange
        split <;> rfl
      cases calls with
      | nil => exact iff_of_false (fun same => by cases same) fun same => by cases same.2
      | cons call calls =>
          rw [List.map_cons, List.cons.injEq, ih, here, List.cons.injEq]
          split
          case isTrue outside =>
            refine iff_of_false (fun same => by cases same.1) fun same => ?_
            exact absurd same.1.1 (by omega)
          case isFalse inside =>
            rw [Except.ok.injEq]
            constructor
            · rintro ⟨rfl, others, rest_same⟩
              exact ⟨⟨by omega, others⟩, rfl, rest_same⟩
            · rintro ⟨⟨_, others⟩, rfl, rest_same⟩
              exact ⟨rfl, others, rest_same⟩

/-- **A check fails too late** where a target does. -/
theorem failsLate_iff :
    FailsLate relocateSpan adapter.perform loaded runtime ↔
      ∃ front stopping rest after, loaded = front ++ stopping :: rest ∧ front ≠ [] ∧
        (∀ restored ∈ front, restored.1 ≤ 2 ^ 32 - 1) ∧ 2 ^ 32 - 1 < stopping.1 ∧
        Accepts (fun restore => adapter.restoreRelocated restore.1 restore.2)
          (front.map fun restored => (restored.2, UInt32.ofNat restored.1)) runtime after := by
  have as_calls : ∀ (front : List (Nat × List KvBlock)) (after : ρ),
      Accepts (fun restore => adapter.restoreRelocated restore.1 restore.2)
          (front.map fun restored => (restored.2, UInt32.ofNat restored.1)) runtime after ↔
        Accepts adapter.perform
          (front.map fun restored => .relocated (restored.2, UInt32.ofNat restored.1)) runtime after := by
    intro front after
    refine (accepts_map adapter.perform RuntimeCall.relocated).trans ?_
    rw [List.map_map]
    rfl
  constructor
  · rintro ⟨front, stopping, rest, calls, after, error, split, filled, checked, accepts, fails⟩
    obtain ⟨inside, rfl⟩ := relocateSpan_passes.mp checked
    exact ⟨front, stopping, rest, after, split, filled, inside, relocateSpan_fails.mp ⟨error, fails⟩,
      (as_calls front after).mpr accepts⟩
  · rintro ⟨front, stopping, rest, after, split, filled, inside, outside, accepts⟩
    obtain ⟨error, fails⟩ := relocateSpan_fails.mpr outside
    exact ⟨front, stopping, rest, _, after, error, split, filled, relocateSpan_passes.mpr ⟨inside, rfl⟩,
      (as_calls front after).mp accepts, fails⟩

/-- The spans that are restored, on a runtime that records its calls. -/
theorem restoring_recorded :
    checkedCalls targetInRange
        (fun restore => adapter.recording.restoreRelocated restore.1 restore.2) loaded (runtime, []) =
      checkedCalls relocateSpan (recorded adapter.perform) loaded (runtime, []) :=
  checkedCalls_map targetInRange RuntimeCall.relocated (recorded adapter.perform) loaded (runtime, [])

/-- No plan stops late whose blocks are not all there. -/
theorem not_stopsLate (missing : ∀ loaded left,
    engine.run (engine.gatherSpans plan.spans) s ≠ (.ok (some loaded), left)) :
    ¬StopsLate engine adapter queryTokens plan s runtime :=
  fun ⟨_, loaded, left, hits, _⟩ => missing loaded left (KvEngine.gatherSpans_hits.mpr hits)

/-- A plan whose blocks are there stops late where the loop over the spans does. -/
theorem stopsLate_iff {left : KvState τ} (matching : queryTokens.val.length = plan.queryTokens)
    (gathered : engine.run (engine.gatherSpans plan.spans) s = (.ok (some loaded), left)) :
    StopsLate engine adapter queryTokens plan s runtime ↔
      FailsLate relocateSpan adapter.perform loaded runtime := by
  rw [failsLate_iff]
  constructor
  · rintro ⟨_, found, other, hits, late⟩
    have again := KvEngine.gatherSpans_hits.mpr hits
    rw [gathered] at again
    cases again
    exact late
  · exact fun late => ⟨matching, loaded, left, KvEngine.gatherSpans_hits.mp gathered, late⟩

/-- **`apply_quality_reuse` leaves the runtime alone**, for every engine, query, adapter and plan, exactly
where the plan does not stop late. -/
theorem applyQualityReuse_untouched (engine : KvEngine τ) (adapter : QualityAwareRuntimeKvAdapter ρ)
    (queryTokens : Tokens) (plan : QualityReusePlan) (s : KvState τ) (runtime : ρ) :
    Untouched (applyQualityReuse engine adapter.recording queryTokens plan (s, runtime, [])).1
        (applyQualityReuse engine adapter.recording queryTokens plan (s, runtime, [])).2.2.2 ↔
      ¬StopsLate engine adapter queryTokens plan s runtime := by
  have nothing_called : ∀ result, Untouched result [] := fun _ _ => rfl
  unfold applyQualityReuse
  split
  case isTrue refused =>
    refine iff_of_true (nothing_called _) ?_
    rintro ⟨matching, loaded, left, hits, front, stopping, rest, _, split, _⟩
    have empty : plan.spans = [] := List.isEmpty_iff.mp (refused.resolve_left (not_not.mpr matching))
    rw [empty] at hits
    cases hits
    exact List.append_ne_nil_of_right_ne_nil front (List.cons_ne_nil stopping rest) split.symm
  case isFalse accepted =>
    have matching : queryTokens.val.length = plan.queryTokens :=
      not_not.mp fun other => accepted (Or.inl other)
    rcases gathered : engine.run (engine.gatherSpans plan.spans) s with ⟨error | _ | loaded, left⟩
    case error =>
      exact iff_of_true (nothing_called _) (not_stopsLate fun _ _ all => by rw [gathered] at all; cases all)
    case ok.none =>
      exact iff_of_true (nothing_called _) (not_stopsLate fun _ _ all => by rw [gathered] at all; cases all)
    case ok.some =>
      dsimp only
      rw [stopsLate_iff matching gathered, ← clean_iff, restoring_recorded]
      rcases checkedCalls relocateSpan (recorded adapter.perform) loaded (runtime, []) with
        ⟨error | _, after, calls⟩
      case error =>
        -- the loop has ended the call
        constructor
        · exact fun untouched raised same reported => untouched (Or.inr ⟨error, rfl, reported⟩)
        · rintro clean (applied | ⟨raised, same, reported⟩)
          · cases applied
          · exact clean error rfl reported
      case ok =>
        -- all spans are restored, and only the adapter can still report an error
        refine iff_of_true ?_ fun _ (failed : Except.ok () = _) => by cases failed
        dsimp only
        split
        case isTrue => exact untouched_applied calls
        case isFalse =>
          rcases answered : adapter.perform (.recomputed queryTokens plan.recomputeRanges) after with
            ⟨error | _, last⟩
          case error =>
            have reported : adapter.recording.recomputeRanges queryTokens plan.recomputeRanges
                (after, calls) = (.error error, last, calls ++ [(_, .error error)]) :=
              recorded_eq answered calls
            rw [reported]
            exact untouched_reported (List.mem_append_right _ List.mem_cons_self)
          case ok =>
            have done : adapter.recording.recomputeRanges queryTokens plan.recomputeRanges
                (after, calls) = (.ok (), last, calls ++ [(_, .ok ())]) :=
              recorded_eq answered calls
            rw [done]
            exact untouched_applied _

end

/-! ### A run on fixed inputs -/

/-- Two memory tiers that hold a block of two tokens. -/
def oneStored : KvState (Pair MemoryTier MemoryTier) :=
  (twoMemoryTiers.run (twoMemoryTiers.put (pairBlock 0 0) none false)
    (KvState.pair MemoryTier.empty MemoryTier.empty)).2

/-- The stored block, at the start of the query and after the last position of a runtime. -/
def farPlan : QualityReusePlan where
  spans := [⟨0, 0, 2, [(pairBlock 0 0).key]⟩, ⟨4294967296, 0, 2, [(pairBlock 0 0).key]⟩]
  recomputeRanges := []
  queryTokens := 2
  reusedTokens := 4
  coveragePerMille := 1000

/-- A query of two tokens. -/
def twoTokens : Tokens := ⟨[1, 2], by simp⟩

/-- The adapter of vLLM, over a runtime that takes every write. -/
def acceptingAdapter : QualityAwareRuntimeKvAdapter Unit :=
  (VllmAdapter.mk "vllm-host-callback" acceptingApi).runtime zeroDigest

/-- **The first span is restored**, and then the second one is refused. -/
theorem applyQualityReuse_late :
    ¬Untouched
        (applyQualityReuse twoMemoryTiers acceptingAdapter.recording twoTokens farPlan
          (oneStored, (), [])).1
        (applyQualityReuse twoMemoryTiers acceptingAdapter.recording twoTokens farPlan
          (oneStored, (), [])).2.2.2 := by
  intro untouched
  have result : (applyQualityReuse twoMemoryTiers acceptingAdapter.recording twoTokens farPlan
      (oneStored, (), [])).1 =
      .error ⟨.invalidInput, "quality reuse target exceeds runtime position range"⟩ := rfl
  have calls : (applyQualityReuse twoMemoryTiers acceptingAdapter.recording twoTokens farPlan
      (oneStored, (), [])).2.2.2 = [(.relocated ([pairBlock 0 0], 0), .ok ())] := rfl
  rw [result, calls] at untouched
  have none_made := untouched (Or.inr ⟨_, rfl, fun made mem => by rw [List.mem_singleton.mp mem]⟩)
  cases none_made

end RivetCache
