/-
**What the exposition text determines.**

* `line_inj`: a sample line determines the name, the labels with their values, and the number;
* `MetricLine.prefixCode`: so does a line among others;
* `render_unambiguous`: of counters and gauges, the text determines the series, the numbers, and the kind of
  the first series of each name, but not the kinds of the others;
* `same_text`: two registries with one text.
-/

import RivetCache.Observability.Kinds
import RivetCache.Library.PrefixCode
import RivetCache.Library.Digits

set_option linter.unusedSectionVars false

namespace RivetCache

open Library

variable {rest after : List Char}

/-! ### Label values -/

/-- What is written for a character of a label value. -/
def escapedChar (char : Char) : List Char :=
  if char = '\\' then ['\\', '\\']
  else if char = '\n' then ['\\', 'n']
  else if char = '"' then ['\\', '"']
  else [char]

/-- The replacements, one after another, are one of each character. -/
theorem escapeLabel_eq (value : String) : escapeLabel value = value.toList.flatMap escapedChar := by
  unfold escapeLabel replaceChar
  rw [List.flatMap_assoc, List.flatMap_assoc]
  congr 1
  funext char
  unfold escapedChar
  by_cases backslash : char = '\\'
  · subst backslash
    rfl
  · by_cases feed : char = '\n'
    · subst feed
      rfl
    · simp [backslash, feed]

theorem prefixCode_escapedChar : PrefixCode (fun _ => True) escapedChar where
  nonempty char _ := by
    unfold escapedChar
    split_ifs <;> simp
  decodes char other rest after _ _ same := by
    unfold escapedChar at same
    split_ifs at same <;> grind

/-- What is written for a character is no closing quote. -/
theorem escapedChar_ne_quote (char : Char) (rest after : List Char) :
    escapedChar char ++ rest ≠ '"' :: after := by
  unfold escapedChar
  split_ifs <;> simp_all

/-- **A label value** is read up to its closing quote. -/
theorem escapeLabel_inj {value other : String}
    (same : escapeLabel value ++ '"' :: rest = escapeLabel other ++ '"' :: after) :
    value = other ∧ rest = after := by
  rw [escapeLabel_eq, escapeLabel_eq] at same
  obtain ⟨chars, ends⟩ := prefixCode_escapedChar.flatMap_stop_inj
    (fun char rest after _ => escapedChar_ne_quote char rest after) (fun _ _ => trivial)
    (fun _ _ => trivial) same
  exact ⟨String.toList_inj.mp chars, ends⟩

/-! ### Names and numbers -/

/-- The characters of a metric name. -/
def isNameChar (char : Char) : Bool := char.isAlphanum || char == '_' || char == ':'

theorem isMetricName_chars {name : String} (valid : isMetricName name = true) :
    ∀ char ∈ name.toList, isNameChar char = true :=
  List.all_eq_true.mp (Bool.and_eq_true_iff.mp valid).2

theorem isMetricName_ne_nil {name : String} (valid : isMetricName name = true) : name.toList ≠ [] := by
  intro empty
  rw [String.toList_eq_nil_iff.mp empty] at valid
  exact absurd valid (by decide)

/-- A label name has the characters of a metric name. -/
theorem isLabelName_chars {name : String} (valid : isLabelName name = true) :
    ∀ char ∈ name.toList, isNameChar char = true := by
  intro char inside
  have test := List.all_eq_true.mp (Bool.and_eq_true_iff.mp valid).2 char inside
  exact Bool.or_eq_true_iff.mpr (Or.inl test)

/-- **A name** is read up to a character that no name has. -/
theorem name_inj {name other : String} {stop stop' : Char}
    (chars : ∀ char ∈ name.toList, isNameChar char = true)
    (other_chars : ∀ char ∈ other.toList, isNameChar char = true)
    (stops : isNameChar stop = false) (stops' : isNameChar stop' = false)
    (same : name.toList ++ stop :: rest = other.toList ++ stop' :: after) :
    name = other ∧ stop = stop' ∧ rest = after := by
  obtain ⟨names, ends⟩ := append_span_inj chars other_chars (by simp [stops]) (by simp [stops']) same
  exact ⟨String.toList_inj.mp names, ends⟩

theorem toString_inj {value other : Int} (same : toString value = toString other) : value = other := by
  have half : ∃ half : Nat, -(half : Int) ≤ value ∧ value < half ∧ -(half : Int) ≤ other ∧ other < half :=
    ⟨value.natAbs + other.natAbs + 1, by omega⟩
  obtain ⟨half, low, high, other_low, other_high⟩ := half
  have read := parseSigned_repr low high
  rw [same, parseSigned_repr other_low other_high] at read
  exact (Option.some.inj read).symm

/-- **A number** is read up to the end of its line. -/
theorem number_inj {value other : Int}
    (same : (toString value).toList ++ '\n' :: rest = (toString other).toList ++ '\n' :: after) :
    value = other ∧ rest = after := by
  have chars : ∀ (value : Int), ∀ char ∈ (toString value).toList, char ≠ '\n' := by
    rintro value char inside rfl
    exact absurd (repr_ascii inside).1 (by decide)
  obtain ⟨digits, -, ends⟩ := append_span_inj (chars value) (chars other) (not_not_intro rfl)
    (not_not_intro rfl) same
  exact ⟨toString_inj (String.toList_inj.mp digits), ends⟩

/-! ### Labels -/

theorem prefixCode_labelText : PrefixCode (fun _ => True) labelText where
  nonempty label _ := by simp [labelText]
  decodes label other rest after _ _ same := by
    unfold labelText at same
    simp only [List.append_assoc, List.cons_append, List.nil_append] at same
    obtain ⟨names, -, same⟩ := name_inj (isLabelName_chars label.valid) (isLabelName_chars other.valid)
      (by decide) (by decide) same
    obtain ⟨values, ends⟩ := escapeLabel_inj (List.cons.inj same).2
    exact ⟨MetricLabel.pair_injective (Prod.ext names values), ends⟩

/-- A label with the comma before it. -/
theorem prefixCode_commaLabel : PrefixCode (fun _ => True) fun label => ',' :: labelText label where
  nonempty _ _ := List.cons_ne_nil _ _
  decodes label other rest after _ _ same :=
    prefixCode_labelText.decodes label other rest after trivial trivial (List.cons.inj same).2

/-- **The labels** are read up to the blank after them. -/
theorem labelsText_inj {labels others : List MetricLabel}
    (same : labelsText labels ++ ' ' :: rest = labelsText others ++ ' ' :: after) :
    labels = others ∧ rest = after := by
  cases labels with
  | nil =>
      cases others with
      | nil => exact ⟨rfl, (List.cons.inj same).2⟩
      | cons other others => exact absurd (List.cons.inj same).1 (by decide)
  | cons label labels =>
      cases others with
      | nil => exact absurd (List.cons.inj same).1 (by decide)
      | cons other others =>
          unfold labelsText at same
          simp only [List.append_assoc, List.cons_append, List.nil_append] at same
          obtain ⟨rfl, later⟩ := prefixCode_labelText.decodes _ _ _ _ trivial trivial (List.cons.inj same).2
          obtain ⟨rfl, ends⟩ := prefixCode_commaLabel.flatMap_stop_inj
            (fun _ _ _ _ same => absurd (List.cons.inj same).1 (by decide)) (fun _ _ => trivial)
            (fun _ _ => trivial) later
          exact ⟨rfl, (List.cons.inj ends).2⟩

/-! ### Lines -/

/-- The text after the name of a sample. -/
theorem labelsText_first (labels : List MetricLabel) (rest : List Char) :
    ∃ stop more, labelsText labels ++ ' ' :: rest = stop :: more ∧ isNameChar stop = false := by
  cases labels with
  | nil => exact ⟨' ', rest, rfl, by decide⟩
  | cons label labels => exact ⟨'{', _, rfl, by decide⟩

/-- **A sample line** determines the name, the labels and the number. -/
theorem line_inj {name other : String} {labels others : List MetricLabel} {value value' : Int}
    (valid : isMetricName name = true) (other_valid : isMetricName other = true)
    (same : line name labels none value ++ rest = line other others none value' ++ after) :
    name = other ∧ labels = others ∧ value = value' ∧ rest = after := by
  unfold line at same
  simp only [Option.toList_none, List.append_nil, List.append_assoc, List.cons_append, List.nil_append] at same
  obtain ⟨stop, more, first, stops⟩ := labelsText_first labels ((toString value).toList ++ '\n' :: rest)
  obtain ⟨stop', more', first', stops'⟩ := labelsText_first others ((toString value').toList ++ '\n' :: after)
  rw [first, first'] at same
  obtain ⟨names, stop_same, more_same⟩ := name_inj (isMetricName_chars valid)
    (isMetricName_chars other_valid) stops stops' same
  rw [stop_same, more_same, ← first'] at first
  obtain ⟨labels_same, same⟩ := labelsText_inj first
  obtain ⟨values, ends⟩ := number_inj same
  exact ⟨names, labels_same, values, ends⟩

theorem MetricKind.isMetricName_name (kind : MetricKind) : isMetricName kind.name = true := by
  cases kind <;> decide

theorem MetricKind.name_injective : Function.Injective MetricKind.name := by
  intro kind other same
  cases kind <;> cases other <;> first | rfl | exact absurd same (by decide)

/-- **A `# TYPE` line** determines the name and the kind. -/
theorem typeLine_inj {name other : String} {kind kind' : MetricKind} (valid : isMetricName name = true)
    (other_valid : isMetricName other = true) (same : typeLine name kind ++ rest = typeLine other kind' ++ after) :
    name = other ∧ kind = kind' ∧ rest = after := by
  unfold typeLine at same
  simp only [List.append_assoc, List.cons_append, List.nil_append] at same
  obtain ⟨names, -, same⟩ := name_inj (isMetricName_chars valid) (isMetricName_chars other_valid)
    (by decide) (by decide) (List.append_cancel_left same)
  obtain ⟨kinds, -, ends⟩ := name_inj (isMetricName_chars kind.isMetricName_name)
    (isMetricName_chars kind'.isMetricName_name) (by decide) (by decide) same
  exact ⟨names, MetricKind.name_injective kinds, ends⟩

theorem typeLine_ne_line {name other : String} {kind : MetricKind} {labels : List MetricLabel}
    {extra : Option MetricLabel} {value : Int} (valid : isMetricName other = true) :
    typeLine name kind ++ rest ≠ line other labels extra value ++ after := by
  intro same
  cases chars : other.toList with
  | nil => exact isMetricName_ne_nil valid chars
  | cons first more =>
      have named : isNameChar first = true := isMetricName_chars valid first (chars ▸ List.mem_cons_self)
      unfold line at same
      rw [chars] at same
      rw [← (List.cons.inj same).1] at named
      exact absurd named (by decide)

namespace MetricLine

/-- A line of a counter or a gauge, or a `# TYPE` line. -/
def Plain : MetricLine → Prop
  | type name _ => isMetricName name = true
  | sample name _ extra _ => isMetricName name = true ∧ extra = none

/-- **A line** is read off the beginning of a text. -/
theorem prefixCode : PrefixCode Plain text where
  nonempty metricLine _ := by
    cases metricLine with
    | type name kind => exact List.cons_ne_nil _ _
    | sample name labels extra value => simp [text, line]
  decodes left right rest after left_plain right_plain same := by
    cases left with
    | type name kind =>
        cases right with
        | type other kind' =>
            obtain ⟨rfl, rfl, ends⟩ := typeLine_inj left_plain right_plain same
            exact ⟨rfl, ends⟩
        | sample other labels extra value => exact absurd same (typeLine_ne_line right_plain.1)
    | sample name labels extra value =>
        cases right with
        | type other kind => exact absurd same.symm (typeLine_ne_line left_plain.1)
        | sample other others extra' value' =>
            obtain ⟨valid, rfl⟩ := left_plain
            obtain ⟨other_valid, rfl⟩ := right_plain
            obtain ⟨rfl, rfl, rfl, ends⟩ := line_inj valid other_valid same
            exact ⟨rfl, ends⟩

end MetricLine

/-! ### Counters and gauges -/

/-- The number of a counter or a gauge. -/
def MetricState.number : MetricState → Option Int
  | .counter value => some value
  | .gauge value => some value
  | .histogram _ => none

theorem Metric.number_of_plain {metric : Metric} (plain : metric.kind ≠ .histogram) :
    ∃ value, metric.state.number = some value := by
  obtain ⟨kind, state, rfl⟩ := metric
  cases state with
  | counter value => exact ⟨value, rfl⟩
  | gauge value => exact ⟨value, rfl⟩
  | histogram histogram => exact absurd rfl plain

/-- A counter or a gauge is its kind and its number. -/
theorem Metric.eq_of_number {left right : Metric} (plain : left.kind ≠ .histogram)
    (kinds : left.kind = right.kind) (numbers : left.state.number = right.state.number) : left = right := by
  obtain ⟨kind, state, rfl⟩ := left
  obtain ⟨kind, other, rfl⟩ := right
  have states : state = other := by
    cases state <;> cases other <;> cases kinds
    case counter.counter value value' => simpa [MetricState.number] using numbers
    case gauge.gauge value value' => simpa [MetricState.number] using numbers
    case histogram.histogram => exact absurd rfl plain
  subst states
  rfl

namespace MetricLine

/-- The sample of a line. -/
def sampled : MetricLine → Option (String × List MetricLabel × Option Int)
  | type _ _ => none
  | sample name labels _ value => some (name, labels, some value)

/-- A counter or a gauge has one line. -/
theorem ofSeries_of_number {key : MetricKey} {state : MetricState} {value : Int}
    (number : state.number = some value) : ofSeries key state = [sample key.name key.labels none value] := by
  cases state with
  | counter count =>
      cases number
      rfl
  | gauge current =>
      cases number
      rfl
  | histogram histogram => cases number

variable {entries others : List (MetricKey × Metric)}

theorem plain_ofEntries (plain : ∀ entry ∈ entries, entry.2.kind ≠ .histogram) (emitted : List String) :
    ∀ line ∈ ofEntries entries emitted, line.Plain := by
  induction entries generalizing emitted with
  | nil => simp [ofEntries]
  | cons entry rest ih =>
      obtain ⟨value, number⟩ := Metric.number_of_plain (plain entry List.mem_cons_self)
      have later := ih fun entry inside => plain entry (List.mem_cons_of_mem _ inside)
      have series : (sample entry.1.name entry.1.labels none value).Plain := ⟨entry.1.valid, rfl⟩
      rw [ofEntries_cons, ofSeries_of_number number]
      by_cases known : entry.1.name ∈ emitted
      · rw [if_pos known]
        exact List.forall_mem_cons.mpr ⟨series, later emitted⟩
      · rw [if_neg known]
        exact List.forall_mem_cons.mpr ⟨entry.1.valid, List.forall_mem_cons.mpr ⟨series, later _⟩⟩

/-- The samples of the lines are the series with their numbers. -/
theorem sampled_ofEntries (plain : ∀ entry ∈ entries, entry.2.kind ≠ .histogram) (emitted : List String) :
    (ofEntries entries emitted).filterMap sampled =
      entries.map fun entry => (entry.1.name, entry.1.labels, entry.2.state.number) := by
  induction entries generalizing emitted with
  | nil => rfl
  | cons entry rest ih =>
      obtain ⟨value, number⟩ := Metric.number_of_plain (plain entry List.mem_cons_self)
      have later := ih fun entry inside => plain entry (List.mem_cons_of_mem _ inside)
      rw [ofEntries_cons, ofSeries_of_number number, List.map_cons, number]
      by_cases known : entry.1.name ∈ emitted
      · rw [if_pos known]
        simp only [List.singleton_append, List.filterMap_cons, sampled, later]
      · rw [if_neg known]
        simp only [List.singleton_append, List.filterMap_cons, sampled, later]

/-- **The lines** are made of the numbers, and of the kind of the first series of each name. -/
theorem ofEntries_congr (plain : ∀ entry ∈ entries, entry.2.kind ≠ .histogram) (emitted : List String)
    (numbers : (entries.map fun entry => (entry.1, entry.2.state.number)) =
      others.map fun entry => (entry.1, entry.2.state.number))
    (first : ∀ name, name ∉ emitted →
      ((entries.find? fun entry => entry.1.name = name).map fun entry => entry.2.kind) =
        (others.find? fun entry => entry.1.name = name).map fun entry => entry.2.kind) :
    ofEntries entries emitted = ofEntries others emitted := by
  induction entries generalizing others emitted with
  | nil => rw [List.map_eq_nil_iff.mp numbers.symm]
  | cons entry rest ih =>
      cases others with
      | nil => cases numbers
      | cons other others =>
          obtain ⟨value, number⟩ := Metric.number_of_plain (plain entry List.mem_cons_self)
          obtain ⟨here, later⟩ := List.cons.inj numbers
          obtain ⟨key, same⟩ := Prod.mk.inj here
          rw [ofEntries_cons, ofEntries_cons, ← key, ofSeries_of_number number,
            ofSeries_of_number (same ▸ number)]
          have later_plain : ∀ entry ∈ rest, entry.2.kind ≠ .histogram :=
            fun entry inside => plain entry (List.mem_cons_of_mem _ inside)
          by_cases known : entry.1.name ∈ emitted
          · rw [if_pos known, if_pos known, ih later_plain emitted later]
            intro name unknown
            have apart : entry.1.name ≠ name := fun same => unknown (same ▸ known)
            simpa [← key, apart] using first name unknown
          · have kinds : entry.2.kind = other.2.kind := by
              simpa [← key] using first entry.1.name known
            rw [if_neg known, if_neg known, kinds, ih later_plain (entry.1.name :: emitted) later]
            intro name unknown
            obtain ⟨apart, unknown⟩ := not_or.mp (mt List.mem_cons.mpr unknown)
            simpa [← key, Ne.symm apart] using first name unknown

end MetricLine

namespace PrometheusRegistry

variable {registry other : PrometheusRegistry}

/-- All series are counters and gauges. -/
def Plain (registry : PrometheusRegistry) : Prop :=
  ∀ key metric, registry.lookup key = some metric → metric.kind ≠ .histogram

/-- The numbers of the series. -/
def numbers (registry : PrometheusRegistry) : SortedMap MetricKey (Option Int) :=
  registry.mapValues fun metric => metric.state.number

/-- The kinds of the series. -/
def kinds (registry : PrometheusRegistry) : SortedMap MetricKey MetricKind :=
  registry.mapValues Metric.kind

/-- Two registries differ in the kind of some series, but not in the numbers, nor in the kind of the first
series of any name. -/
structure KindsApart (registry other : PrometheusRegistry) : Prop where
  numbers : registry.numbers = other.numbers
  first : ∀ name, registry.firstKind name = other.firstKind name
  kinds : registry.kinds ≠ other.kinds

theorem Plain.entries (plain : registry.Plain) : ∀ entry ∈ registry.entries, entry.2.kind ≠ .histogram :=
  fun entry inside => plain entry.1 entry.2 (SortedMap.mem_entries_iff.mp inside)

/-- **The text** is that of the numbers, and of the kind of the first series of each name. -/
theorem Plain.render_eq_iff (plain : registry.Plain) (other_plain : other.Plain) :
    registry.render = other.render ↔
      registry.numbers = other.numbers ∧ ∀ name, registry.firstKind name = other.firstKind name := by
  constructor
  · intro same
    rw [PrometheusRegistry.render_eq, PrometheusRegistry.render_eq] at same
    have lines : registry.lines = other.lines := MetricLine.prefixCode.flatMap_inj
      (MetricLine.plain_ofEntries plain.entries []) (MetricLine.plain_ofEntries other_plain.entries [])
      (String.ofList_inj.mp same)
    refine ⟨SortedMap.ext ?_, fun name => ?_⟩
    · have samples := congrArg (List.filterMap MetricLine.sampled) lines
      unfold PrometheusRegistry.lines at samples
      rw [MetricLine.sampled_ofEntries plain.entries, MetricLine.sampled_ofEntries other_plain.entries] at samples
      -- a key is its name and its labels
      have split : Function.Injective fun entry : MetricKey × Option Int =>
          (entry.1.name, entry.1.labels, entry.2) := by
        rintro ⟨key, number⟩ ⟨key', number'⟩ same
        obtain ⟨name, labels, number⟩ := by simpa using same
        exact Prod.ext (MetricKey.ext name labels) number
      apply List.map_injective_iff.mpr split
      simp only [numbers, SortedMap.mapValues, List.map_map]
      exact samples
    · have types : registry.typeLines name = other.typeLines name := by
        unfold PrometheusRegistry.typeLines
        rw [lines]
      rw [typeLines_eq, typeLines_eq] at types
      simpa using congrArg List.head? types
  · rintro ⟨numbers, first⟩
    have lines : registry.lines = other.lines := MetricLine.ofEntries_congr plain.entries []
      (congrArg SortedMap.entries numbers) fun name _ => first name
    rw [PrometheusRegistry.render_eq, PrometheusRegistry.render_eq, lines]

/-- Counters and gauges are their numbers and their kinds. -/
theorem Plain.eq_of_numbers (plain : registry.Plain) (numbers : registry.numbers = other.numbers)
    (kinds : registry.kinds = other.kinds) : registry = other := by
  refine SortedMap.ext_lookup fun key => ?_
  have number := congrArg (fun map => SortedMap.lookup map key) numbers
  have kind := congrArg (fun map => SortedMap.lookup map key) kinds
  simp only [PrometheusRegistry.numbers, PrometheusRegistry.kinds, SortedMap.lookup_mapValues] at number kind
  cases found : registry.lookup key with
  | none =>
      rw [found] at number
      exact (Option.map_eq_none_iff.mp number.symm).symm
  | some metric =>
      rw [found] at number kind
      obtain ⟨metric', found', kind'⟩ := Option.map_eq_some_iff.mp kind.symm
      rw [found'] at number
      rw [found', Metric.eq_of_number (plain key metric found) kind'.symm (Option.some.inj number)]

/-- Where each name has one kind, the first series has it. -/
theorem OneKind.not_kindsApart (one : registry.OneKind) (other_one : other.OneKind) :
    ¬ registry.KindsApart other := by
  intro apart
  apply apart.kinds
  refine SortedMap.ext_lookup fun key => ?_
  have number := congrArg (fun map => SortedMap.lookup map key) apart.numbers
  simp only [numbers, kinds, SortedMap.lookup_mapValues] at number ⊢
  cases found : registry.lookup key with
  | none =>
      rw [found] at number
      rw [Option.map_eq_none_iff.mp number.symm]
  | some metric =>
      rw [found] at number
      obtain ⟨metric', found', -⟩ := Option.map_eq_some_iff.mp number.symm
      have types := one.typeLines found
      rw [typeLines_eq, apart.first, ← typeLines_eq, other_one.typeLines found'] at types
      rw [found', Option.map_some, Option.map_some, (List.singleton_inj.mp types)]

end PrometheusRegistry

/-! ### The order of the labels -/

/-- A pair as a label, if its name is valid. -/
def labelOf (pair : String × String) : Option MetricLabel :=
  if valid : isLabelName pair.1 = true then some ⟨pair.1, pair.2, valid⟩ else none

/-- The loop over the labels refuses them all, or takes them all. -/
theorem validLabels_eq (labels : List (String × String)) :
    validLabels labels =
      if labels.all fun label => isLabelName label.1 then .ok (labels.filterMap labelOf)
      else .error ⟨.invalidInput, "invalid Prometheus label name"⟩ := by
  induction labels with
  | nil => rfl
  | cons label rest ih =>
      unfold validLabels validateLabelName
      rw [ih, List.filterMap_cons]
      by_cases test : isLabelName label.1 = true
      · have all : ((label :: rest).all fun label => isLabelName label.1) =
            rest.all fun label => isLabelName label.1 := by
          rw [List.all_cons, test, Bool.true_and]
        rw [dif_pos test, all]
        simp only [labelOf, dif_pos test]
        split <;> rfl
      · have none : ((label :: rest).all fun label => isLabelName label.1) = false := by
          rw [List.all_cons, Bool.eq_false_iff.mpr test, Bool.false_and]
        rw [dif_neg test, none]
        rfl

theorem normalize_perm {labels others : List MetricLabel} (perm : labels.Perm others) :
    normalize labels = normalize others := by
  have sorted : labels.insertionSort (· ≤ ·) = others.insertionSort (· ≤ ·) := by
    refine List.Perm.eq_of_pairwise (fun _ _ _ _ below above => le_antisymm below above)
      (List.pairwise_insertionSort _ _) (List.pairwise_insertionSort _ _) ?_
    exact (List.perm_insertionSort _ _).trans (perm.trans (List.perm_insertionSort _ _).symm)
  unfold normalize
  rw [sorted]

/-- **Labels in another order** make the same key. -/
theorem metricKey_perm (name : String) {labels others : List (String × String)} (perm : labels.Perm others) :
    metricKey name labels = metricKey name others := by
  unfold metricKey
  rw [validLabels_eq, validLabels_eq, perm.all_eq]
  split
  · simp only [bind, Except.bind, normalize_perm (perm.filterMap labelOf)]
  · rfl

theorem PrometheusRegistry.record_perm (name : String) {labels others : List (String × String)}
    (perm : labels.Perm others) (update : MetricUpdate) (registry : PrometheusRegistry) :
    registry.record name labels update = registry.record name others update := by
  unfold PrometheusRegistry.record
  rw [metricKey_perm name perm]

/-! ### The text of a registry -/

/-- **What the text determines.** A line of counters and gauges determines its name, its labels and its number;
the text determines the registry exactly where two registries do not differ in the kind of a later series of a
name only, so in particular where each name has one kind; and labels in another order are the same series. -/
theorem render_unambiguous {registry other : PrometheusRegistry} (plain : registry.Plain)
    (other_plain : other.Plain) :
    registry.render = String.ofList (registry.lines.flatMap MetricLine.text) ∧
    (∀ line ∈ registry.lines, ∀ line' ∈ other.lines, line.text = line'.text → line = line') ∧
    ((registry.render = other.render → registry = other) ↔ ¬ registry.KindsApart other) ∧
    (registry.OneKind → other.OneKind → registry.render = other.render → registry = other) ∧
    ∀ name (labels labels' : List (String × String)), labels.Perm labels' →
      (∀ delta, PrometheusRegistry.incCounter name labels delta registry =
        PrometheusRegistry.incCounter name labels' delta registry) ∧
      ∀ value, PrometheusRegistry.setGauge name labels value registry =
        PrometheusRegistry.setGauge name labels' value registry := by
  have determined : (registry.render = other.render → registry = other) ↔ ¬ registry.KindsApart other := by
    constructor
    · intro claim apart
      have same := (plain.render_eq_iff other_plain).mpr ⟨apart.numbers, apart.first⟩
      exact apart.kinds (congrArg PrometheusRegistry.kinds (claim same))
    · intro notApart same
      obtain ⟨numbers, first⟩ := (plain.render_eq_iff other_plain).mp same
      exact plain.eq_of_numbers numbers (not_not.mp fun kinds => notApart ⟨numbers, first, kinds⟩)
  refine ⟨registry.render_eq, fun line inside line' inside' same => ?_, determined,
    fun one other_one => determined.mpr (one.not_kindsApart other_one), fun name labels labels' perm => ?_⟩
  · exact (MetricLine.prefixCode.decodes line line' [] []
      (MetricLine.plain_ofEntries plain.entries [] line inside)
      (MetricLine.plain_ofEntries other_plain.entries [] line' inside')
      (congrArg (fun text => text ++ []) same)).1
  · exact ⟨fun delta => PrometheusRegistry.record_perm name perm (.increment delta) registry,
      fun value => PrometheusRegistry.record_perm name perm (.set value) registry⟩

theorem PrometheusRegistry.plain_of_entries {registry : PrometheusRegistry}
    (plain : (registry.entries.all fun entry => decide (entry.2.kind ≠ .histogram)) = true) :
    registry.Plain := fun _ _ found =>
  of_decide_eq_true (List.all_eq_true.mp plain _ (SortedMap.mem_entries_iff.mpr found))

/-- A second counter of the name changes the text. -/
theorem render_unambiguous_counted :
    counted.render ≠ ((MetricCall.incCounter "x" [("a", "b")] 2).step counted).render := by
  intro same
  have plain : counted.Plain := PrometheusRegistry.plain_of_entries (by decide)
  have next_plain : ((MetricCall.incCounter "x" [("a", "b")] 2).step counted).Plain :=
    PrometheusRegistry.plain_of_entries (by decide)
  have apart : ¬ counted.KindsApart ((MetricCall.incCounter "x" [("a", "b")] 2).step counted) := by
    intro apart
    have numbers := congrArg (fun map => SortedMap.lookup map labelledX) apart.numbers
    exact absurd numbers (by decide)
  have equal := (render_unambiguous plain next_plain).2.2.1.mpr apart same
  exact absurd (congrArg (fun map => SortedMap.lookup map labelledX) equal) (by decide)

/-- **Two registries with one text**: beside the counter, a second counter or a gauge. -/
theorem same_text :
    ¬ ∀ registry other : PrometheusRegistry,
      Library.Reaches MetricCall.step (fun _ _ => True) SortedMap.empty registry →
      Library.Reaches MetricCall.step (fun _ _ => True) SortedMap.empty other →
      registry.Plain → other.Plain → registry.render = other.render → registry = other := by
  intro claim
  have equal := claim ((MetricCall.incCounter "x" [("a", "b")] 2).step counted)
    ((MetricCall.setGauge "x" [("a", "b")] 2).step counted)
    (.step (.step .refl trivial) trivial) (.step (.step .refl trivial) trivial)
    (PrometheusRegistry.plain_of_entries (by decide)) (PrometheusRegistry.plain_of_entries (by decide))
    (by decide)
  exact absurd (congrArg (fun map => SortedMap.lookup map labelledX) equal) (by decide)

end RivetCache
