/-
**`observability.rs`: the Prometheus registry.**

A registry maps the metric keys, a name and its labels, to their metrics, in the order of the keys. A metric
is stored with its kind, and a key is made by `metricKey` only, so that its names are valid.

* `incCounter`, `setGauge`, `observeMicros`: one `record`, each with its own update;
* `render`: the exposition text, one `# TYPE` line for each name.
-/

import RivetCache.Base
import RivetCache.Library.SortedMap
import Mathlib.Data.Prod.Lex
import Mathlib.Data.List.Sort
import Mathlib.Data.List.Destutter
import Mathlib.Data.String.Basic

set_option linter.unusedSectionVars false

namespace RivetCache

open Library

/-! ### Metrics -/

/-- `MetricKind`. -/
inductive MetricKind where
  | counter
  | gauge
  | histogram
  deriving DecidableEq

/-- `Histogram`. -/
structure Histogram where
  buckets : Vector Nat 8
  count : Nat
  sumMicros : Nat
  deriving DecidableEq

/-- `Histogram::default`. -/
def Histogram.zero : Histogram := ⟨Vector.replicate 8 0, 0, 0⟩

/-- `MetricState`. -/
inductive MetricState where
  | counter (value : Nat)
  | gauge (value : Int)
  | histogram (histogram : Histogram)
  deriving DecidableEq

def MetricState.kind : MetricState → MetricKind
  | .counter _ => .counter
  | .gauge _ => .gauge
  | .histogram _ => .histogram

/-- What the registry holds under a key: the state, and the kind it was made with. -/
structure Metric where
  kind : MetricKind
  state : MetricState
  same : state.kind = kind
  deriving DecidableEq

/-! ### Keys -/

/-- The test of `validate_metric_name`. -/
def isMetricName (name : String) : Bool :=
  !name.isEmpty && name.toList.all fun c => c.isAlphanum || c == '_' || c == ':'

/-- The test of `validate_label_name`. -/
def isLabelName (name : String) : Bool :=
  !name.isEmpty && name.toList.all fun c => c.isAlphanum || c == '_'

/-- `validate_metric_name`. -/
def validateMetricName (name : String) : Except IoError (PLift (isMetricName name = true)) :=
  if valid : isMetricName name = true then .ok ⟨valid⟩
  else .error ⟨.invalidInput, "invalid Prometheus metric name"⟩

/-- `validate_label_name`. -/
def validateLabelName (name : String) : Except IoError (PLift (isLabelName name = true)) :=
  if valid : isLabelName name = true then .ok ⟨valid⟩
  else .error ⟨.invalidInput, "invalid Prometheus label name"⟩

/-- A label: its name and its value. -/
structure MetricLabel where
  name : String
  value : String
  valid : isLabelName name = true
  deriving DecidableEq

/-- `MetricKey`. -/
@[ext] structure MetricKey where
  name : String
  labels : List MetricLabel
  valid : isMetricName name = true
  deriving DecidableEq

/-- A label as the pair it is. -/
def MetricLabel.pair (label : MetricLabel) : String ×ₗ String := toLex (label.name, label.value)

theorem MetricLabel.pair_injective : Function.Injective MetricLabel.pair := by
  intro left right same
  obtain ⟨name, value⟩ := Prod.ext_iff.mp (toLex.injective same)
  cases left
  cases right
  exact MetricLabel.mk.injEq .. ▸ ⟨name, value⟩

/-- The order of the labels: by their names, then by their values. -/
instance : LinearOrder MetricLabel := LinearOrder.lift' MetricLabel.pair MetricLabel.pair_injective

/-- A key as the pair it is. -/
def MetricKey.pair (key : MetricKey) : String ×ₗ List MetricLabel := toLex (key.name, key.labels)

theorem MetricKey.pair_injective : Function.Injective MetricKey.pair := by
  intro left right same
  obtain ⟨name, labels⟩ := Prod.ext_iff.mp (toLex.injective same)
  exact MetricKey.ext name labels

/-- The order of the keys: by their names, then by their labels. -/
instance : LinearOrder MetricKey := LinearOrder.lift' MetricKey.pair MetricKey.pair_injective

/-- `metric_key`, the loop over the labels. -/
def validLabels : List (String × String) → Except IoError (List MetricLabel)
  | [] => .ok []
  | label :: rest => do
      let valid ← validateLabelName label.1
      let others ← validLabels rest
      return ⟨label.1, label.2, valid.down⟩ :: others

/-- The labels of a key: in their order, of the labels of one name the first. -/
def normalize (labels : List MetricLabel) : List MetricLabel :=
  (labels.insertionSort (· ≤ ·)).destutter fun left right => left.name ≠ right.name

/-- `metric_key`. -/
def metricKey (name : String) (labels : List (String × String)) : Except IoError MetricKey := do
  let valid ← validateMetricName name
  let labels ← validLabels labels
  return ⟨name, normalize labels, valid.down⟩

/-! ### Calls -/

/-- `LIMITS` of `observe_micros`. -/
def microLimits : List Nat := [10, 100, 1000, 10000, 100000, 1000000, 10000000]

/-- `observe_micros`, on the histogram: one more in every bucket that reaches so far, and in the last one. -/
def Histogram.observe (histogram : Histogram) (micros : Nat) : Histogram where
  count := satAdd histogram.count 1
  sumMicros := satAdd histogram.sumMicros micros
  buckets := Vector.ofFn fun index =>
    if (microLimits[index]?).all fun limit => decide (micros ≤ limit) then
      satAdd histogram.buckets[index] 1
    else histogram.buckets[index]

/-- What a call does to its metric. -/
inductive MetricUpdate where
  | increment (delta : Nat)
  | set (value : Int)
  | observe (micros : Nat)
  deriving DecidableEq

/-- The kind a call is of. -/
def MetricUpdate.kind : MetricUpdate → MetricKind
  | .increment _ => .counter
  | .set _ => .gauge
  | .observe _ => .histogram

/-- What `or_insert` puts under a new key. -/
def MetricUpdate.first : MetricUpdate → Metric
  | .increment _ => ⟨.counter, .counter 0, rfl⟩
  | .set value => ⟨.gauge, .gauge value, rfl⟩
  | .observe _ => ⟨.histogram, .histogram .zero, rfl⟩

def differentType : IoError := ⟨.invalidInput, "metric already exists with a different type"⟩

/-- The match on the state of the entry. -/
def Metric.update : MetricUpdate → Metric → Except IoError Metric
  | .increment delta, ⟨kind, .counter value, same⟩ => .ok ⟨kind, .counter (satAdd value delta), same⟩
  | .set value, ⟨kind, .gauge _, same⟩ => .ok ⟨kind, .gauge value, same⟩
  | .observe micros, ⟨kind, .histogram histogram, same⟩ =>
      .ok ⟨kind, .histogram (histogram.observe micros), same⟩
  | _, _ => .error differentType

/-- `PrometheusRegistry`. -/
abbrev PrometheusRegistry := SortedMap MetricKey Metric

namespace PrometheusRegistry

/-- What `inc_counter`, `set_gauge` and `observe_micros` have in common. -/
def record (name : String) (labels : List (String × String)) (update : MetricUpdate)
    (registry : PrometheusRegistry) : Except IoError Unit × PrometheusRegistry :=
  match metricKey name labels with
  | .error error => (.error error, registry)
  | .ok key =>
      let entry := (registry.lookup key).getD update.first
      let registry := registry.insert key entry
      match entry.update update with
      | .error error => (.error error, registry)
      | .ok entry => (.ok (), registry.insert key entry)

/-- `inc_counter`. -/
def incCounter (name : String) (labels : List (String × String)) (delta : Nat) :
    PrometheusRegistry → Except IoError Unit × PrometheusRegistry :=
  record name labels (.increment delta)

/-- `set_gauge`. -/
def setGauge (name : String) (labels : List (String × String)) (value : Int) :
    PrometheusRegistry → Except IoError Unit × PrometheusRegistry :=
  record name labels (.set value)

/-- `observe_micros`. -/
def observeMicros (name : String) (labels : List (String × String)) (micros : Nat) :
    PrometheusRegistry → Except IoError Unit × PrometheusRegistry :=
  record name labels (.observe micros)

end PrometheusRegistry

/-! ### The exposition text -/

/-- `escape_label`. -/
def escapeLabel (value : String) : List Char :=
  replaceChar '"' ['\\', '"'] (replaceChar '\n' ['\\', 'n'] (replaceChar '\\' ['\\', '\\'] value.toList))

/-- `line`, one label. -/
def labelText (label : MetricLabel) : List Char :=
  label.name.toList ++ ('=' :: '"' :: escapeLabel label.value ++ ['"'])

/-- `line`, the labels between their braces. -/
def labelsText : List MetricLabel → List Char
  | [] => []
  | first :: rest => '{' :: labelText first ++ (rest.flatMap fun label => ',' :: labelText label) ++ ['}']

/-- `line`: what it appends to the output. -/
def line (name : String) (labels : List MetricLabel) (extra : Option MetricLabel) (value : Int) : List Char :=
  name.toList ++ labelsText (labels ++ extra.toList) ++ (' ' :: (toString value).toList ++ ['\n'])

/-- The names of the kinds. -/
def MetricKind.name : MetricKind → String
  | .counter => "counter"
  | .gauge => "gauge"
  | .histogram => "histogram"

/-- `render`, the `# TYPE` line. -/
def typeLine (name : String) (kind : MetricKind) : List Char :=
  "# TYPE ".toList ++ name.toList ++ (' ' :: kind.name.toList ++ ['\n'])

/-- `LIMITS` of `render`, and what stands for the last bucket. -/
def bucketLimits : Vector String 8 :=
  #v["10", "100", "1000", "10000", "100000", "1000000", "10000000", "+Inf"]

/-- The label of a bucket. -/
def bucketLabel (limit : String) : MetricLabel := ⟨"le", limit, by decide⟩

/-- `render`, the lines of a series. -/
def seriesText (key : MetricKey) : MetricState → List Char
  | .counter value => line key.name key.labels none value
  | .gauge value => line key.name key.labels none value
  | .histogram histogram =>
      ((List.finRange 8).flatMap fun index =>
        line (key.name ++ "_bucket") key.labels (some (bucketLabel (bucketLimits.get index)))
          (histogram.buckets.get index)) ++
      line (key.name ++ "_count") key.labels none histogram.count ++
      line (key.name ++ "_sum") key.labels none histogram.sumMicros

/-- `render`, what its loop changes: the output, and the names in `emitted_type`. -/
structure Rendering where
  output : List Char
  emittedType : List String

/-- `render`, the body of its loop. -/
def Rendering.series (rendering : Rendering) (entry : MetricKey × Metric) : Rendering :=
  let rendering :=
    if entry.1.name ∈ rendering.emittedType then rendering
    else ⟨rendering.output ++ typeLine entry.1.name entry.2.kind, entry.1.name :: rendering.emittedType⟩
  { rendering with output := rendering.output ++ seriesText entry.1 entry.2.state }

/-- `render`. -/
def PrometheusRegistry.render (registry : PrometheusRegistry) : String :=
  String.ofList (registry.entries.foldl Rendering.series ⟨[], []⟩).output

end RivetCache
