/-
**What a registry holds after a run.**

Where every call of a run is for a valid key and of the kind that its name has, no call is refused, and a series
holds the total of the calls for its key: a counter the sum of the increments, a gauge the value set last, a
histogram the number of observations, their sum, and for each bucket the number of those that it reaches. The
totals stop at the largest `u64`.

* `MetricState.total`: these totals;
* `registry_totals`: the registry after any list of such calls, by induction on the list;
* `metricKey_labels`: a key tells its labels, where their names are different.
-/

import RivetCache.Observability.Instrumented

set_option linter.unusedSectionVars false

namespace RivetCache

open Library

/-! ### Totals -/

namespace MetricUpdate

def delta : MetricUpdate → Nat
  | .increment delta => delta
  | .set _ => 0
  | .observe _ => 0

def level : MetricUpdate → Int
  | .increment _ => 0
  | .set value => value
  | .observe _ => 0

def micros : MetricUpdate → Nat
  | .increment _ => 0
  | .set _ => 0
  | .observe micros => micros

/-- An observation counts in a bucket. -/
def reaches (index : Fin 8) (update : MetricUpdate) : Bool :=
  (microLimits[index]?).all fun limit => decide (update.micros ≤ limit)

end MetricUpdate

/-- The histogram of some observations. -/
def Histogram.total (updates : List MetricUpdate) : Histogram where
  buckets := Vector.ofFn fun index => min (updates.countP fun update => update.reaches index) u64Max
  count := min updates.length u64Max
  sumMicros := min (updates.map MetricUpdate.micros).sum u64Max

/-- **What a series holds after updates of its kind**, oldest first. -/
def MetricState.total : MetricKind → List MetricUpdate → MetricState
  | .counter, updates => .counter (min (updates.map MetricUpdate.delta).sum u64Max)
  | .gauge, updates => .gauge ((updates.getLast?.map MetricUpdate.level).getD 0)
  | .histogram, updates => .histogram (Histogram.total updates)

theorem satAdd_min (total amount : Nat) : satAdd (min total u64Max) amount = min (total + amount) u64Max := by
  unfold satAdd
  omega

/-- One more observation. -/
theorem Histogram.observe_total (updates : List MetricUpdate) (micros : Nat) :
    (Histogram.total updates).observe micros = Histogram.total (updates ++ [.observe micros]) := by
  unfold Histogram.observe Histogram.total
  simp only [Histogram.mk.injEq, satAdd_min, List.length_append, List.length_singleton, List.map_append,
    List.map_singleton, List.sum_append, List.sum_singleton, MetricUpdate.micros, and_true]
  apply Vector.ext
  intro index within
  simp only [Vector.getElem_ofFn, Fin.getElem_fin, List.countP_append, List.countP_singleton]
  have same : ((microLimits[(⟨index, within⟩ : Fin 8)]?).all fun limit => decide (micros ≤ limit)) =
      MetricUpdate.reaches ⟨index, within⟩ (.observe micros) := rfl
  rw [same]
  by_cases here : MetricUpdate.reaches ⟨index, within⟩ (.observe micros) = true
  · rw [if_pos here, if_pos here, satAdd_min]
  · rw [if_neg here, if_neg here, Nat.add_zero]

/-- **One more update.** -/
theorem Metric.update_total {metric next : Metric} {update : MetricUpdate} {updates : List MetricUpdate}
    (state : metric.kind = .gauge ∨ metric.state = MetricState.total metric.kind updates)
    (updated : metric.update update = .ok next) :
    next.state = MetricState.total next.kind (updates ++ [update]) := by
  obtain ⟨kind, held, same⟩ := metric
  cases update with
  | set value =>
      cases held with
      | gauge old =>
          cases updated
          subst same
          simp [MetricState.kind, MetricState.total, MetricUpdate.level]
      | counter old => cases updated
      | histogram old => cases updated
  | increment delta =>
      cases held with
      | counter old =>
          cases updated
          subst same
          obtain rfl : old = _ := MetricState.counter.inj (state.resolve_left fun gauge => by cases gauge)
          simp [MetricState.kind, MetricState.total, MetricUpdate.delta, satAdd_min]
      | gauge old => cases updated
      | histogram old => cases updated
  | observe micros =>
      cases held with
      | histogram old =>
          cases updated
          subst same
          obtain rfl : old = Histogram.total updates :=
            MetricState.histogram.inj (state.resolve_left fun gauge => by cases gauge)
          simp [MetricState.kind, MetricState.total, Histogram.observe_total]
      | counter old => cases updated
      | gauge old => cases updated

/-- The order of the updates matters to a gauge only. -/
theorem MetricState.total_perm {kind : MetricKind} (no_gauge : kind ≠ .gauge) {updates others : List MetricUpdate}
    (perm : updates.Perm others) : MetricState.total kind updates = MetricState.total kind others := by
  cases kind with
  | counter => exact congrArg (fun sum => MetricState.counter (min sum u64Max)) (perm.map _).sum_eq
  | gauge => exact absurd rfl no_gauge
  | histogram =>
      refine congrArg MetricState.histogram ?_
      unfold Histogram.total
      rw [perm.length_eq, (perm.map _).sum_eq]
      congr 2
      funext index
      rw [perm.countP_eq]

/-- What `or_insert` puts under a new key is the total of nothing, but for a gauge. -/
theorem MetricUpdate.first_total (update : MetricUpdate) :
    update.first.kind = .gauge ∨ update.first.state = MetricState.total update.first.kind [] := by
  cases update with
  | increment delta => exact Or.inr rfl
  | set value => exact Or.inl rfl
  | observe micros => exact Or.inr rfl

/-! ### Keys and their labels -/

/-- A label as `metric_key` was given it. -/
def MetricLabel.given (label : MetricLabel) : String × String := (label.name, label.value)

theorem validLabels_given {labels : List (String × String)} {valid : List MetricLabel}
    (checked : validLabels labels = .ok valid) : valid.map MetricLabel.given = labels := by
  induction labels generalizing valid with
  | nil =>
      cases checked
      rfl
  | cons label rest ih =>
      unfold validLabels at checked
      cases tested : validateLabelName label.1 with
      | error error =>
          rw [tested] at checked
          cases checked
      | ok fits =>
          cases others : validLabels rest with
          | error error =>
              rw [tested, others] at checked
              cases checked
          | ok later =>
              rw [tested, others] at checked
              cases checked
              rw [List.map_cons, ih others]
              rfl

/-- Labels of different names are only put in order. -/
theorem normalize_distinct {labels : List MetricLabel} (distinct : (labels.map MetricLabel.name).Nodup) :
    normalize labels = labels.insertionSort (· ≤ ·) := by
  unfold normalize
  have perm := List.perm_insertionSort (· ≤ ·) labels
  have apart : ((labels.insertionSort (· ≤ ·)).map MetricLabel.name).Nodup :=
    (perm.map MetricLabel.name).nodup_iff.mpr distinct
  exact List.destutter_of_isChain _ _ (List.pairwise_map.mp apart).isChain

/-- **A key tells its labels**, where their names are different. -/
theorem metricKey_labels {name name' : String} {labels labels' : List (String × String)} {key : MetricKey}
    (made : metricKey name labels = .ok key) (made' : metricKey name' labels' = .ok key)
    (distinct : (labels.map Prod.fst).Nodup) (distinct' : (labels'.map Prod.fst).Nodup) :
    name = name' ∧ labels.Perm labels' := by
  refine ⟨(metricKey_name made).symm.trans (metricKey_name made'), ?_⟩
  have perm : ∀ {name : String} {labels : List (String × String)}, metricKey name labels = .ok key →
      (labels.map Prod.fst).Nodup → (key.labels.map MetricLabel.given).Perm labels := by
    intro name labels made distinct
    unfold metricKey at made
    cases tested : validateMetricName name with
    | error error =>
        rw [tested] at made
        cases made
    | ok fits =>
        cases checked : validLabels labels with
        | error error =>
            rw [tested, checked] at made
            cases made
        | ok valid =>
            rw [tested, checked] at made
            have same := validLabels_given checked
            have apart : (valid.map MetricLabel.name).Nodup := by
              rw [← same, List.map_map] at distinct
              exact distinct
            obtain rfl : (⟨name, normalize valid, fits.down⟩ : MetricKey) = key := Except.ok.inj made
            show ((normalize valid).map MetricLabel.given).Perm labels
            rw [normalize_distinct apart, ← same]
            exact (List.perm_insertionSort _ valid).map _
  exact (perm made distinct).symm.trans (perm made' distinct')

/-! ### Runs -/

/-- The key a call is for. -/
def MetricCall.key? (call : MetricCall) : Option MetricKey := (metricKey call.name call.labels).toOption

/-- The updates of a list of calls that are for a key. -/
def updatesOf (key : MetricKey) (calls : List MetricCall) : List MetricUpdate :=
  calls.filterMap fun call => if call.key? = some key then some call.update else none

theorem updatesOf_append (key : MetricKey) (earlier later : List MetricCall) :
    updatesOf key (earlier ++ later) = updatesOf key earlier ++ updatesOf key later :=
  List.filterMap_append

theorem updatesOf_one {key : MetricKey} {call : MetricCall} (aimed : call.key? = some key) :
    updatesOf key [call] = [call.update] := by
  simp [updatesOf, aimed]

theorem updatesOf_other {key : MetricKey} {call : MetricCall} (aimed : call.key? ≠ some key) :
    updatesOf key [call] = [] := by
  simp [updatesOf, aimed]

/-- A call is for a valid key, and of the kind that its name has. -/
def MetricCall.Typed (kindOf : String → MetricKind) (call : MetricCall) : Prop :=
  call.key?.isSome = true ∧ call.update.kind = kindOf call.name

/-- **The registry holds the totals** of some calls. -/
structure PrometheusRegistry.Holds (kindOf : String → MetricKind) (registry : PrometheusRegistry)
    (calls : List MetricCall) : Prop where
  absent : ∀ key, updatesOf key calls = [] → registry.lookup key = none
  present : ∀ key, updatesOf key calls ≠ [] → ∃ metric, registry.lookup key = some metric ∧
    metric.kind = kindOf key.name ∧ metric.state = MetricState.total (kindOf key.name) (updatesOf key calls)

namespace PrometheusRegistry.Holds

variable {kindOf : String → MetricKind} {registry : PrometheusRegistry} {calls : List MetricCall}
  {call : MetricCall}

theorem empty (kindOf : String → MetricKind) : Holds kindOf SortedMap.empty [] where
  absent _ _ := rfl
  present _ some := absurd rfl some

/-- A series is of the kind of its name. -/
theorem kind (holds : Holds kindOf registry calls) {key : MetricKey} {metric : Metric}
    (found : registry.lookup key = some metric) : metric.kind = kindOf key.name := by
  by_cases none : updatesOf key calls = []
  · rw [holds.absent key none] at found
    cases found
  · obtain ⟨held, here, kind, _⟩ := holds.present key none
    rw [found] at here
    cases here
    exact kind

/-- **One more call** is answered, and adds to its series. -/
theorem next (holds : Holds kindOf registry calls) (typed : call.Typed kindOf) :
    (call.apply registry).1 = .ok () ∧ Holds kindOf (call.step registry) (calls ++ [call]) := by
  obtain ⟨valid, right_kind⟩ := typed
  obtain ⟨key, aimed⟩ := Option.isSome_iff_exists.mp valid
  have made : metricKey call.name call.labels = .ok key := by
    unfold MetricCall.key? at aimed
    cases result : metricKey call.name call.labels with
    | error error =>
        rw [result] at aimed
        cases aimed
    | ok made =>
        rw [result] at aimed
        exact congrArg Except.ok (Option.some.inj aimed)
  have named : key.name = call.name := metricKey_name made
  -- the series before the call, or a new one
  set entry := (registry.lookup key).getD call.update.first with entry_eq
  have entry_kind : entry.kind = call.update.kind := by
    cases found : registry.lookup key with
    | none => rw [entry_eq, found, Option.getD_none, MetricUpdate.first_kind]
    | some metric => rw [entry_eq, found, Option.getD_some, holds.kind found, named, right_kind]
  have entry_state : entry.kind = .gauge ∨
      entry.state = MetricState.total entry.kind (updatesOf key calls) := by
    by_cases none : updatesOf key calls = []
    · rw [entry_eq, holds.absent key none, none]
      exact MetricUpdate.first_total _
    · obtain ⟨metric, found, kind, state⟩ := holds.present key none
      rw [entry_eq, found, Option.getD_some, kind]
      exact Or.inr state
  obtain ⟨updated, update_ok, updated_kind⟩ := Metric.update_same entry_kind
  have result : call.apply registry = (.ok (), (registry.insert key entry).insert key updated) := by
    rw [MetricCall.apply_eq]
    unfold PrometheusRegistry.record
    rw [made]
    simp only [← entry_eq, update_ok]
  have lookups : ∀ other, (call.step registry).lookup other =
      if other = key then some updated else registry.lookup other := by
    intro other
    unfold MetricCall.step
    rw [result, SortedMap.lookup_insert, SortedMap.lookup_insert]
    by_cases same : other = key <;> simp [same]
  have elsewhere : ∀ other, other ≠ key → updatesOf other (calls ++ [call]) = updatesOf other calls := by
    intro other different
    rw [updatesOf_append, updatesOf_other, List.append_nil]
    rw [aimed]
    exact fun same => different (Option.some.inj same).symm
  have here : updatesOf key (calls ++ [call]) = updatesOf key calls ++ [call.update] := by
    rw [updatesOf_append, updatesOf_one aimed]
  refine ⟨by rw [result], fun other nothing => ?_, fun other something => ?_⟩
  · by_cases same : other = key
    · subst same
      rw [here] at nothing
      simp at nothing
    · rw [lookups, if_neg same]
      exact holds.absent other (elsewhere other same ▸ nothing)
  · by_cases same : other = key
    · subst same
      refine ⟨updated, by rw [lookups, if_pos rfl], by rw [updated_kind, right_kind, named], ?_⟩
      rw [here, Metric.update_total entry_state update_ok, updated_kind, right_kind, named]
    · rw [elsewhere other same] at something ⊢
      obtain ⟨metric, found, kind, state⟩ := holds.present other something
      exact ⟨metric, by rw [lookups, if_neg same, found], kind, state⟩

/-- All series of a name are of one kind. -/
theorem oneKind (holds : Holds kindOf registry calls) : registry.OneKind := by
  intro key other metric metric' found found' same
  rw [holds.kind found, holds.kind found', same]

end PrometheusRegistry.Holds

/-- **A run of typed calls** is answered, and leaves the totals. -/
theorem registry_totals {kindOf : String → MetricKind} {calls : List MetricCall}
    (typed : ∀ call ∈ calls, call.Typed kindOf) :
    (MetricCall.dropAnswers calls SortedMap.empty).Holds kindOf calls ∧
      ∀ earlier call later, calls = earlier ++ call :: later →
        (call.apply (MetricCall.dropAnswers earlier SortedMap.empty)).1 = .ok () := by
  have holds : ∀ calls : List MetricCall, (∀ call ∈ calls, call.Typed kindOf) →
      (MetricCall.dropAnswers calls SortedMap.empty).Holds kindOf calls := by
    intro calls
    induction calls using List.reverseRecOn with
    | nil => exact fun _ => PrometheusRegistry.Holds.empty kindOf
    | append_singleton earlier call ih =>
        intro typed
        unfold MetricCall.dropAnswers at ih ⊢
        rw [List.foldl_append]
        have before := ih fun call among => typed call (List.mem_append_left _ among)
        exact (before.next (typed call (List.mem_append_right _ List.mem_cons_self))).2
  refine ⟨holds calls typed, fun earlier call later split => ?_⟩
  subst split
  have before := holds earlier fun call among => typed call (List.mem_append_left _ among)
  exact (before.next (typed call (List.mem_append_right _ List.mem_cons_self))).1

/-! ### Shapes -/

/-- What the calls for a metric name have in common: their kind, and the names of their labels. -/
structure MetricShape where
  kind : MetricKind
  labels : List String

/-- The shapes of some names. -/
abbrev MetricShapes := String → Option MetricShape

/-- The names of a shape are valid, and its labels have different names. -/
structure MetricShapes.Valid (shapes : MetricShapes) : Prop where
  name : ∀ name shape, shapes name = some shape → isMetricName name = true
  labels : ∀ name shape, shapes name = some shape → (shape.labels.all isLabelName) = true
  distinct : ∀ name shape, shapes name = some shape → shape.labels.Nodup

/-- The kind of a name. -/
def MetricShapes.kindOf (shapes : MetricShapes) (name : String) : MetricKind :=
  (shapes name).elim .counter MetricShape.kind

/-- A call has the shape of its name. -/
def MetricCall.Shaped (shapes : MetricShapes) (call : MetricCall) : Prop :=
  ∃ shape, shapes call.name = some shape ∧ call.update.kind = shape.kind ∧
    call.labels.map Prod.fst = shape.labels

/-- The updates of some calls that are for a name and labels. -/
def updatesFor (name : String) (labels : List (String × String)) (calls : List MetricCall) :
    List MetricUpdate :=
  calls.filterMap fun call => if call.name = name ∧ call.labels = labels then some call.update else none

/-- The state of the series of a name and labels. -/
def PrometheusRegistry.value? (registry : PrometheusRegistry) (name : String) (labels : List (String × String)) :
    Option MetricState :=
  (metricKey name labels).toOption.bind fun key => (registry.lookup key).map Metric.state

theorem validLabels_ok {labels : List (String × String)}
    (valid : ((labels.map Prod.fst).all isLabelName) = true) : ∃ checked, validLabels labels = .ok checked := by
  induction labels with
  | nil => exact ⟨[], rfl⟩
  | cons label rest ih =>
      rw [List.map_cons, List.all_cons, Bool.and_eq_true] at valid
      obtain ⟨others, checked⟩ := ih valid.2
      refine ⟨⟨label.1, label.2, valid.1⟩ :: others, ?_⟩
      unfold validLabels validateLabelName
      rw [dif_pos valid.1, checked]
      rfl

theorem metricKey_ok {name : String} {labels : List (String × String)} (named : isMetricName name = true)
    (valid : ((labels.map Prod.fst).all isLabelName) = true) : ∃ key, metricKey name labels = .ok key := by
  obtain ⟨checked, is_checked⟩ := validLabels_ok valid
  refine ⟨⟨name, normalize checked, named⟩, ?_⟩
  unfold metricKey validateMetricName
  rw [dif_pos named, is_checked]
  rfl

/-- Lists of pairs with the same names, all different, in the same order. -/
theorem eq_of_perm_of_names {left right : List (String × String)} (perm : left.Perm right)
    (names : left.map Prod.fst = right.map Prod.fst) (distinct : (left.map Prod.fst).Nodup) : left = right := by
  induction left generalizing right with
  | nil => exact perm.nil_eq
  | cons first rest ih =>
      cases right with
      | nil => cases names
      | cons first' rest' =>
          obtain ⟨head, tail⟩ := List.cons.inj names
          obtain ⟨absent, distinct⟩ := List.nodup_cons.mp distinct
          have same : first = first' := by
            rcases List.mem_cons.mp (perm.mem_iff.mp List.mem_cons_self) with here | later
            · exact here
            · exact absurd (tail ▸ List.mem_map_of_mem later) absent
          subst same
          rw [ih (perm.cons_inv) tail distinct]

/-- A shaped call is typed. -/
theorem MetricCall.Shaped.typed {shapes : MetricShapes} (valid : shapes.Valid) {call : MetricCall}
    (shaped : call.Shaped shapes) : call.Typed shapes.kindOf := by
  obtain ⟨shape, known, kind, labels⟩ := shaped
  obtain ⟨key, made⟩ := metricKey_ok (valid.name _ _ known) (labels ▸ valid.labels _ _ known)
  refine ⟨by rw [MetricCall.key?, made]; rfl, ?_⟩
  rw [kind, MetricShapes.kindOf, known]
  rfl

/-- The calls for a key are those for its name and labels. -/
theorem updatesOf_shaped {shapes : MetricShapes} (valid : shapes.Valid) {calls : List MetricCall}
    (shaped : ∀ call ∈ calls, call.Shaped shapes) {name : String} {labels : List (String × String)}
    {shape : MetricShape} (known : shapes name = some shape) (named : labels.map Prod.fst = shape.labels)
    {key : MetricKey} (made : metricKey name labels = .ok key) :
    updatesOf key calls = updatesFor name labels calls := by
  unfold updatesOf updatesFor
  refine List.filterMap_congr fun call among => ?_
  obtain ⟨shape', known', kind, named'⟩ := shaped call among
  refine if_congr ⟨fun aimed => ?_, ?_⟩ rfl rfl
  · have made' : metricKey call.name call.labels = .ok key := by
      unfold MetricCall.key? at aimed
      cases result : metricKey call.name call.labels with
      | error error => rw [result] at aimed; cases aimed
      | ok key' => rw [result] at aimed; exact congrArg Except.ok (Option.some.inj aimed)
    obtain ⟨same, perm⟩ := metricKey_labels made' made (named' ▸ valid.distinct _ _ known')
      (named ▸ valid.distinct _ _ known)
    refine ⟨same, eq_of_perm_of_names perm ?_ (named' ▸ valid.distinct _ _ known')⟩
    rw [same, known] at known'
    rw [named, named', Option.some.inj known']
  · rintro ⟨same, same_labels⟩
    rw [MetricCall.key?, same, same_labels, made]
    rfl

/-- **What a series holds** where the registry holds the totals of shaped calls. -/
theorem PrometheusRegistry.Holds.value {shapes : MetricShapes} (valid : shapes.Valid) {calls : List MetricCall}
    (shaped : ∀ call ∈ calls, call.Shaped shapes) {registry : PrometheusRegistry}
    (holds : registry.Holds shapes.kindOf calls) {name : String} {labels : List (String × String)}
    {shape : MetricShape} (known : shapes name = some shape) (named : labels.map Prod.fst = shape.labels) :
    registry.value? name labels = if updatesFor name labels calls = [] then none
      else some (MetricState.total shape.kind (updatesFor name labels calls)) := by
  obtain ⟨key, made⟩ := metricKey_ok (valid.name _ _ known) (named ▸ valid.labels _ _ known)
  have same := updatesOf_shaped valid shaped known named made
  unfold PrometheusRegistry.value?
  rw [made]
  show (registry.lookup key).map Metric.state = _
  split
  case isTrue none =>
    rw [holds.absent key (same.trans none)]
    rfl
  case isFalse some =>
    obtain ⟨metric, found, _, state⟩ := holds.present key fun none => some (same.symm.trans none)
    rw [found, Option.map_some, state, same, metricKey_name made, MetricShapes.kindOf, known]
    rfl

end RivetCache
