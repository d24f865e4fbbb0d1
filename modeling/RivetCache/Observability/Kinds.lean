/-
**One kind for each metric name.**

The registry tests the kind of a series, and the exposition text gives one kind for all series of a name.

* `MetricCall.Unmixed`: the call does not make a new series of a name that has series of another kind;
* `registry_one_kind`: in every state that runs of such calls reach, the series of a name have one kind, its
  `# TYPE` line says so, and these are the calls that keep it so;
* `gauge_beside_counter`: a gauge is set under the name of a counter, with other labels.
-/

import RivetCache.Observability.Model
import RivetCache.Library.Run

set_option linter.unusedSectionVars false

namespace RivetCache

open Library

variable {registry : PrometheusRegistry} {key other : MetricKey} {metric : Metric}

/-! ### Keys -/

/-- A key has the name it was made for. -/
theorem metricKey_name {name : String} {labels : List (String × String)} (made : metricKey name labels = .ok key) :
    key.name = name := by
  unfold metricKey at made
  cases tested : validateMetricName name with
  | error error =>
      rw [tested] at made
      cases made
  | ok valid =>
      cases others : validLabels labels with
      | error error =>
          rw [tested, others] at made
          cases made
      | ok labels =>
          rw [tested, others] at made
          exact congrArg MetricKey.name (Except.ok.inj made).symm

/-! ### Calls -/

/-- A call to the registry. -/
inductive MetricCall where
  | incCounter (name : String) (labels : List (String × String)) (delta : Nat)
  | setGauge (name : String) (labels : List (String × String)) (value : Int)
  | observeMicros (name : String) (labels : List (String × String)) (micros : Nat)

namespace MetricCall

def apply : MetricCall → PrometheusRegistry → Except IoError Unit × PrometheusRegistry
  | incCounter name labels delta => PrometheusRegistry.incCounter name labels delta
  | setGauge name labels value => PrometheusRegistry.setGauge name labels value
  | observeMicros name labels micros => PrometheusRegistry.observeMicros name labels micros

def name : MetricCall → String
  | incCounter name _ _ => name
  | setGauge name _ _ => name
  | observeMicros name _ _ => name

def labels : MetricCall → List (String × String)
  | incCounter _ labels _ => labels
  | setGauge _ labels _ => labels
  | observeMicros _ labels _ => labels

def update : MetricCall → MetricUpdate
  | incCounter _ _ delta => .increment delta
  | setGauge _ _ value => .set value
  | observeMicros _ _ micros => .observe micros

/-- The registry after a call. -/
def step (call : MetricCall) (registry : PrometheusRegistry) : PrometheusRegistry :=
  (call.apply registry).2

theorem apply_eq (call : MetricCall) (registry : PrometheusRegistry) :
    call.apply registry = registry.record call.name call.labels call.update := by
  cases call <;> rfl

end MetricCall

/-- An update of the kind of its metric is made, and keeps the kind. -/
theorem Metric.update_same {update : MetricUpdate} (same : metric.kind = update.kind) :
    ∃ next, metric.update update = .ok next ∧ next.kind = update.kind := by
  obtain ⟨kind, state, rfl⟩ := metric
  cases update <;> cases state <;> first | exact ⟨_, rfl, rfl⟩ | cases same

theorem Metric.update_different {update : MetricUpdate} (different : metric.kind ≠ update.kind) :
    metric.update update = .error differentType := by
  obtain ⟨kind, state, rfl⟩ := metric
  cases update <;> cases state <;> first | rfl | exact absurd rfl different

@[simp] theorem MetricUpdate.first_kind (update : MetricUpdate) : update.first.kind = update.kind := by
  cases update <;> rfl

namespace MetricCall

variable {call : MetricCall}

/-- A call for no valid key is refused. -/
theorem apply_invalid {error : IoError} (invalid : metricKey call.name call.labels = .error error) :
    call.apply registry = (.error error, registry) := by
  rw [apply_eq]
  unfold PrometheusRegistry.record
  rw [invalid]

/-- A call of another kind than its series is refused. -/
theorem apply_different (made : metricKey call.name call.labels = .ok key)
    (found : registry.lookup key = some metric) (different : metric.kind ≠ call.update.kind) :
    call.apply registry = (.error differentType, registry) := by
  rw [apply_eq]
  unfold PrometheusRegistry.record
  rw [made]
  simp only [found, Option.getD_some, SortedMap.insert_lookup found, Metric.update_different different]

/-- **A call is answered** where its series is new or of its kind; then the series is of its kind. -/
theorem apply_same (made : metricKey call.name call.labels = .ok key)
    (fits : ∀ metric, registry.lookup key = some metric → metric.kind = call.update.kind) :
    ∃ next, next.kind = call.update.kind ∧ (call.apply registry).1 = .ok () ∧
      ∀ other, (call.step registry).lookup other =
        if other = key then some next else registry.lookup other := by
  have kind : ((registry.lookup key).getD call.update.first).kind = call.update.kind := by
    cases found : registry.lookup key with
    | none => exact MetricUpdate.first_kind _
    | some metric => exact fits metric found
  obtain ⟨next, updated, next_kind⟩ := Metric.update_same kind
  have result : call.apply registry = (.ok (),
      (registry.insert key ((registry.lookup key).getD call.update.first)).insert key next) := by
    rw [apply_eq]
    unfold PrometheusRegistry.record
    rw [made]
    simp only [updated]
  refine ⟨next, next_kind, by rw [result], fun other => ?_⟩
  unfold step
  rw [result, SortedMap.lookup_insert, SortedMap.lookup_insert]
  by_cases same : other = key <;> simp [same]

/-- **A call makes its series** where there is none. -/
theorem apply_new (made : metricKey call.name call.labels = .ok key) (absent : registry.lookup key = none) :
    ∃ next, next.kind = call.update.kind ∧ (call.apply registry).1 = .ok () ∧
      ∀ other, (call.step registry).lookup other =
        if other = key then some next else registry.lookup other :=
  apply_same made fun metric found => by
    rw [absent] at found
    cases found

end MetricCall

/-! ### One kind -/

/-- All series of a name are of one kind. -/
def PrometheusRegistry.OneKind (registry : PrometheusRegistry) : Prop :=
  ∀ key other metric metric', registry.lookup key = some metric → registry.lookup other = some metric' →
    key.name = other.name → metric.kind = metric'.kind

/-- A call makes no new series of a name that has series of another kind. -/
def MetricCall.Unmixed (call : MetricCall) (registry : PrometheusRegistry) : Prop :=
  ∀ key, metricKey call.name call.labels = .ok key → registry.lookup key = none →
    ∀ other metric, registry.lookup other = some metric → other.name = call.name →
      metric.kind = call.update.kind

namespace PrometheusRegistry

theorem oneKind_empty : OneKind SortedMap.empty := by
  intro key other metric metric' found
  cases found

/-- A series of the kind of its name is put in. -/
theorem OneKind.insert {after : PrometheusRegistry} {next : Metric} (one : registry.OneKind)
    (kind : ∀ other metric, registry.lookup other = some metric → other.name = key.name →
      metric.kind = next.kind)
    (lookups : ∀ other, after.lookup other = if other = key then some next else registry.lookup other) :
    after.OneKind := by
  intro left right metric metric' left_found right_found same
  rw [lookups] at left_found right_found
  by_cases left_here : left = key
  · subst left_here
    rw [if_pos rfl] at left_found
    by_cases right_here : right = left
    · rw [if_pos right_here] at right_found
      rw [← Option.some.inj left_found, ← Option.some.inj right_found]
    · rw [if_neg right_here] at right_found
      rw [← Option.some.inj left_found, kind right metric' right_found same.symm]
  · rw [if_neg left_here] at left_found
    by_cases right_here : right = key
    · subst right_here
      rw [if_pos rfl] at right_found
      rw [← Option.some.inj right_found, kind left metric left_found same]
    · rw [if_neg right_here] at right_found
      exact one left right metric metric' left_found right_found same

/-- Where a call fits its series, and makes none beside others of another kind, all series of the name are of
its kind. -/
theorem OneKind.kind_of_call (one : registry.OneKind) {call : MetricCall} (unmixed : call.Unmixed registry)
    (made : metricKey call.name call.labels = .ok key)
    (fits : ∀ metric, registry.lookup key = some metric → metric.kind = call.update.kind)
    (found : registry.lookup other = some metric) (same : other.name = key.name) :
    metric.kind = call.update.kind := by
  cases here : registry.lookup key with
  | none => exact unmixed key made here other metric found (same.trans (metricKey_name made))
  | some old => exact (one other key metric old found here same).trans (fits old here)

/-- **One call** keeps one kind for each name exactly where it does not mix two. -/
theorem OneKind.step_iff (one : registry.OneKind) (call : MetricCall) :
    (call.step registry).OneKind ↔ call.Unmixed registry := by
  constructor
  · intro after key made absent other metric found same
    obtain ⟨next, next_kind, -, lookups⟩ := MetricCall.apply_new made absent
    have apart : other ≠ key := by
      rintro rfl
      rw [absent] at found
      cases found
    have kept := lookups other
    rw [if_neg apart, found] at kept
    have new := lookups key
    rw [if_pos rfl] at new
    exact (after other key metric next kept new (same.trans (metricKey_name made).symm)).trans next_kind
  · intro unmixed
    cases made : metricKey call.name call.labels with
    | error error =>
        unfold MetricCall.step
        rw [MetricCall.apply_invalid made]
        exact one
    | ok key =>
        by_cases fits : ∀ metric, registry.lookup key = some metric → metric.kind = call.update.kind
        · obtain ⟨next, next_kind, -, lookups⟩ := MetricCall.apply_same made fits
          refine one.insert (fun other metric found same => ?_) lookups
          exact (one.kind_of_call unmixed made fits found same).trans next_kind.symm
        · push Not at fits
          obtain ⟨metric, found, different⟩ := fits
          unfold MetricCall.step
          rw [MetricCall.apply_different made found different]
          exact one

/-- **A call of another kind** than the series of its name is refused exactly where it does not mix them. -/
theorem OneKind.refused_iff (one : registry.OneKind) {call : MetricCall}
    (found : registry.lookup other = some metric) (same : other.name = call.name)
    (different : metric.kind ≠ call.update.kind) :
    (∃ error, call.apply registry = (.error error, registry)) ↔ call.Unmixed registry := by
  constructor
  · rintro ⟨error, refused⟩ key made absent
    obtain ⟨-, -, answered, -⟩ := MetricCall.apply_new made absent
    rw [refused] at answered
    cases answered
  · intro unmixed
    cases made : metricKey call.name call.labels with
    | error error => exact ⟨error, MetricCall.apply_invalid made⟩
    | ok key =>
        cases here : registry.lookup key with
        | none => exact absurd (unmixed key made here other metric found same) different
        | some old =>
            have kind : old.kind = metric.kind :=
              one key other old metric here found ((metricKey_name made).trans same.symm)
            exact ⟨differentType, MetricCall.apply_different made here (kind ▸ different)⟩

end PrometheusRegistry

/-! ### The lines of a text -/

/-- A line of the exposition text. -/
inductive MetricLine where
  | type (name : String) (kind : MetricKind)
  | sample (name : String) (labels : List MetricLabel) (extra : Option MetricLabel) (value : Int)

namespace MetricLine

def text : MetricLine → List Char
  | type name kind => typeLine name kind
  | sample name labels extra value => line name labels extra value

/-- The kind a line gives for a name. -/
def kindOf (name : String) : MetricLine → Option MetricKind
  | type other kind => if other = name then some kind else none
  | sample .. => none

/-- The samples of a series. -/
def ofSeries : MetricKey → MetricState → List MetricLine
  | key, .counter value => [sample key.name key.labels none value]
  | key, .gauge value => [sample key.name key.labels none value]
  | key, .histogram histogram =>
      ((List.finRange 8).map fun index =>
        sample (key.name ++ "_bucket") key.labels (some (bucketLabel (bucketLimits.get index)))
          (histogram.buckets.get index)) ++
      [sample (key.name ++ "_count") key.labels none histogram.count,
        sample (key.name ++ "_sum") key.labels none histogram.sumMicros]

/-- The lines of the series, after those whose names have a `# TYPE` line already. -/
def ofEntries : List (MetricKey × Metric) → List String → List MetricLine
  | [], _ => []
  | entry :: rest, emitted =>
      if entry.1.name ∈ emitted then ofSeries entry.1 entry.2.state ++ ofEntries rest emitted
      else type entry.1.name entry.2.kind ::
        (ofSeries entry.1 entry.2.state ++ ofEntries rest (entry.1.name :: emitted))

theorem ofEntries_cons (entry : MetricKey × Metric) (rest : List (MetricKey × Metric))
    (emitted : List String) :
    ofEntries (entry :: rest) emitted =
      if entry.1.name ∈ emitted then ofSeries entry.1 entry.2.state ++ ofEntries rest emitted
      else type entry.1.name entry.2.kind ::
        (ofSeries entry.1 entry.2.state ++ ofEntries rest (entry.1.name :: emitted)) := rfl

theorem text_ofSeries (key : MetricKey) (state : MetricState) :
    (ofSeries key state).flatMap text = seriesText key state := by
  cases state <;> simp [ofSeries, seriesText, text, List.flatMap_map]

theorem kindOf_ofSeries {key : MetricKey} {state : MetricState} {name : String} :
    (ofSeries key state).filterMap (kindOf name) = [] := by
  rw [List.filterMap_eq_nil_iff]
  intro line inside
  cases state <;> simp only [ofSeries, List.mem_append, List.mem_map, List.mem_cons, List.not_mem_nil,
    or_false] at inside
  case counter => exact inside ▸ rfl
  case gauge => exact inside ▸ rfl
  case histogram =>
    rcases inside with ⟨index, -, rfl⟩ | rfl | rfl <;> rfl

/-- **The loop of `render`** writes the lines. -/
theorem text_ofEntries (entries : List (MetricKey × Metric)) (rendering : Rendering) :
    (entries.foldl Rendering.series rendering).output =
      rendering.output ++ (ofEntries entries rendering.emittedType).flatMap text := by
  induction entries generalizing rendering with
  | nil => exact (List.append_nil _).symm
  | cons entry rest ih =>
      rw [List.foldl_cons, ih, ofEntries_cons]
      unfold Rendering.series
      by_cases known : entry.1.name ∈ rendering.emittedType
      · simp only [if_pos known, List.flatMap_append, text_ofSeries, List.append_assoc]
      · simp only [if_neg known, List.flatMap_cons, List.flatMap_append, text_ofSeries, text,
          List.append_assoc]

/-- **A name is given one kind**, that of its first series. -/
theorem kindOf_ofEntries (name : String) (entries : List (MetricKey × Metric)) (emitted : List String) :
    (ofEntries entries emitted).filterMap (kindOf name) =
      if name ∈ emitted then []
      else ((entries.find? fun entry => entry.1.name = name).map fun entry => entry.2.kind).toList := by
  induction entries generalizing emitted with
  | nil => simp [ofEntries]
  | cons entry rest ih =>
      rw [ofEntries_cons]
      by_cases known : entry.1.name ∈ emitted
      · rw [if_pos known, List.filterMap_append, kindOf_ofSeries, List.nil_append, ih]
        by_cases same : entry.1.name = name
        · rw [if_pos (same ▸ known), if_pos (same ▸ known)]
        · simp [same]
      · rw [if_neg known, List.filterMap_cons, List.filterMap_append, kindOf_ofSeries, List.nil_append, ih]
        by_cases same : entry.1.name = name
        · subst same
          simp [kindOf, known]
        · simp [kindOf, same, Ne.symm same]

end MetricLine

namespace PrometheusRegistry

/-- The lines of the exposition text. -/
def lines (registry : PrometheusRegistry) : List MetricLine := MetricLine.ofEntries registry.entries []

/-- The kind of the first series of a name. -/
def firstKind (registry : PrometheusRegistry) (name : String) : Option MetricKind :=
  (registry.entries.find? fun entry => entry.1.name = name).map fun entry => entry.2.kind

/-- The kinds that the `# TYPE` lines give for a name. -/
def typeLines (registry : PrometheusRegistry) (name : String) : List MetricKind :=
  registry.lines.filterMap (MetricLine.kindOf name)

theorem render_eq (registry : PrometheusRegistry) :
    registry.render = String.ofList (registry.lines.flatMap MetricLine.text) :=
  congrArg String.ofList (MetricLine.text_ofEntries registry.entries ⟨[], []⟩)

theorem typeLines_eq (registry : PrometheusRegistry) (name : String) :
    registry.typeLines name = (registry.firstKind name).toList := by
  unfold typeLines lines
  rw [MetricLine.kindOf_ofEntries, if_neg List.not_mem_nil]
  rfl

/-- The `# TYPE` line of a name is right for all its series. -/
theorem OneKind.typeLines (one : registry.OneKind) (found : registry.lookup key = some metric) :
    registry.typeLines key.name = [metric.kind] := by
  have inside := SortedMap.mem_entries_iff.mpr found
  obtain ⟨first, first_found⟩ := Option.isSome_iff_exists.mp
    (List.find?_isSome.mpr ⟨_, inside, decide_eq_true rfl⟩ :
      (registry.entries.find? fun entry => entry.1.name = key.name).isSome)
  have first_lookup : registry.lookup first.1 = some first.2 :=
    SortedMap.mem_entries_iff.mp (List.mem_of_find?_eq_some first_found)
  have same : first.1.name = key.name := of_decide_eq_true (List.find?_some first_found :)
  rw [typeLines_eq, firstKind, first_found, Option.map_some, one _ _ _ _ first_lookup found same]
  rfl

end PrometheusRegistry

/-- The counter `x`, without labels. -/
def counterX : MetricKey := ⟨"x", [], by decide⟩

/-- The key of `x` with one label. -/
def labelledX : MetricKey := ⟨"x", [⟨"a", "b", by decide⟩], by decide⟩

/-- A registry with the counter `x`. -/
def counted : PrometheusRegistry := (MetricCall.incCounter "x" [] 1).step SortedMap.empty

theorem counted_reached : Library.Reaches MetricCall.step MetricCall.Unmixed SortedMap.empty counted :=
  .step .refl fun _ _ _ _ _ found => by cases found

end RivetCache
