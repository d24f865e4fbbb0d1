/-
**The metrics of the crate.**

Three parts of the crate write to one registry, from any threads: the instrumented tiers, the subscriber of the
event bus, and the controller, which stops a refresh at the first error. Each of them is a job with its own calls
to the registry, and the calls of all jobs interleave in any way.

* `crateShapes`: the ten names, each with its kind and its labels;
* `crate_metrics`: in every interleaving no call is refused and no refresh fails, each series holds the total of
  the calls so far, and where all jobs are done, the counters and histograms are those of the jobs;
* `instrumented_exact`: an instrumented tier answers over any run what the tier inside does, and its counters are
  those of the answers.
-/

import RivetCache.Control.Response
import RivetCache.Events.Model
import RivetCache.Observability.Exact
import RivetCache.Tiers.Lossy

set_option linter.unusedSectionVars false

namespace RivetCache

open Library

/-! ### Jobs -/

/-- `PrometheusEventSubscriber::on_event`, its calls to the registry. -/
def onEventCalls (event : Events.KvEvent) : List MetricCall :=
  let labels := [("operation", event.kind.asStr), ("status", event.status.asStr)]
  [.incCounter "rivet_event_total" labels 1] ++
    (if event.bytes > 0 then [.incCounter "rivet_event_bytes_total" labels event.bytes] else []) ++
    (if event.durationMicros > 0 then
      [.observeMicros "rivet_event_duration_micros" labels event.durationMicros] else [])

/-- `i64::MAX`. -/
def i64Max : Nat := 2 ^ 63 - 1

/-- `refresh_metrics`, the gauges of a tenant. -/
def tenantCalls (tenant : TenantSnapshot) : List MetricCall :=
  [.setGauge "rivet_tenant_used_bytes" [("tenant", tenant.tenant)] (min tenant.usage.usedBytes i64Max : Nat),
    .setGauge "rivet_tenant_inflight" [("tenant", tenant.tenant)] (min tenant.usage.inflight i64Max : Nat)]

/-- `refresh_metrics`, its calls to the registry. -/
def refreshCalls (tenants : List TenantSnapshot) (nodes : List FleetNode) : List MetricCall :=
  [.setGauge "rivet_controller_tenants" [] tenants.length] ++ tenants.flatMap tenantCalls ++
    [.setGauge "rivet_controller_nodes" [] nodes.length]

/-- What a call of `InstrumentedKvTier` came to. -/
inductive TierReport where
  | get (answer : Except IoError (Option KvTierEntry))
  | put (entry : KvTierEntry) (answer : Except IoError Unit)
  | remove (answer : Except IoError Unit)
  | clear (answer : Except IoError Unit)
  | health (answer : Except IoError Unit)

namespace TierReport

open InstrumentedKvTier

def operation : TierReport → String
  | get _ => "get"
  | put _ _ => "put"
  | remove _ => "remove"
  | clear _ => "clear"
  | health _ => "health"

def status : TierReport → String
  | get answer => statusOf answer
  | put _ answer => statusOf answer
  | remove answer => statusOf answer
  | clear answer => statusOf answer
  | health answer => statusOf answer

/-- The calls about the bytes. -/
def bytesCalls (name : String) : TierReport → List MetricCall
  | get answer => readCalls name answer
  | put entry answer => writeCalls name entry answer
  | _ => []

/-- Its calls to the registry. -/
def calls (name : String) (micros : Nat) (report : TierReport) : List MetricCall :=
  report.bytesCalls name ++ finishCalls name report.operation report.status micros

/-- The bytes that went in a direction. -/
def bytes (direction : String) : TierReport → Option Nat
  | get (.ok (some entry)) => if direction = "read" then some entry.block.bytes.bytes.length else none
  | put entry (.ok ()) => if direction = "write" then some entry.block.bytes.bytes.length else none
  | _ => none

end TierReport

/-- A job that writes to the registry, with what it has read before. -/
inductive MetricsJob where
  | tier (name : String) (report : TierReport) (micros : Nat)
  | event (published : Events.KvEvent)
  | refresh (tenants : List TenantSnapshot) (nodes : List FleetNode)

namespace MetricsJob

def calls : MetricsJob → List MetricCall
  | tier name report micros => report.calls name micros
  | event published => onEventCalls published
  | refresh tenants nodes => refreshCalls tenants nodes

/-- `refresh_metrics` passes an error on; the others drop it. -/
def stops : MetricsJob → Bool
  | refresh _ _ => true
  | _ => false

end MetricsJob

/-! ### Threads -/

/-- A job, the calls it still has to make, and its result so far. -/
structure MetricsThread where
  job : MetricsJob
  left : List MetricCall
  result : Except IoError Unit

/-- A thread after the answer to a call. -/
def MetricsThread.answered (thread : MetricsThread) (left : List MetricCall) (answer : Except IoError Unit) :
    MetricsThread :=
  match answer with
  | .ok () => { thread with left }
  | .error error => if thread.job.stops then ⟨thread.job, [], .error error⟩ else { thread with left }

/-- The registry, the threads, and the calls so far with their answers. -/
structure MetricsSystem where
  registry : PrometheusRegistry
  threads : List MetricsThread
  log : List (MetricCall × Except IoError Unit)

/-- A job begins, or a thread makes its next call. -/
inductive MetricsLabel where
  | begin (job : MetricsJob)
  | resume (thread : Nat)

namespace MetricsSystem

def new : MetricsSystem := ⟨SortedMap.empty, [], []⟩

/-- The next call of a thread. -/
def call (system : MetricsSystem) (number : Nat) (thread : MetricsThread) : MetricsSystem :=
  match thread.left with
  | [] => system
  | call :: left =>
      let applied := call.apply system.registry
      ⟨applied.2, system.threads.set number (thread.answered left applied.1),
        system.log ++ [(call, applied.1)]⟩

/-- **One step.** -/
def advance : MetricsLabel → MetricsSystem → MetricsSystem
  | .begin job, system => { system with threads := system.threads ++ [⟨job, job.calls, .ok ()⟩] }
  | .resume number, system => (system.threads[number]?).elim system (system.call number)

def run (labels : List MetricsLabel) : MetricsSystem :=
  labels.foldl (fun system label => advance label system) new

/-- The calls so far. -/
def made (system : MetricsSystem) : List MetricCall := system.log.map Prod.fst

/-- The jobs begun. -/
def jobs (system : MetricsSystem) : List MetricsJob := system.threads.map MetricsThread.job

/-- No thread has a call to make. -/
def Idle (system : MetricsSystem) : Prop := ∀ thread ∈ system.threads, thread.left = []

end MetricsSystem

/-! ### The shapes -/

/-- The names of the crate. -/
def crateMetrics : List (String × MetricShape) :=
  [("rivet_kv_tier_requests_total", ⟨.counter, ["tier", "operation", "status"]⟩),
    ("rivet_kv_tier_operation_micros", ⟨.histogram, ["tier", "operation"]⟩),
    ("rivet_kv_tier_bytes_total", ⟨.counter, ["tier", "direction"]⟩),
    ("rivet_event_total", ⟨.counter, ["operation", "status"]⟩),
    ("rivet_event_bytes_total", ⟨.counter, ["operation", "status"]⟩),
    ("rivet_event_duration_micros", ⟨.histogram, ["operation", "status"]⟩),
    ("rivet_controller_tenants", ⟨.gauge, []⟩),
    ("rivet_tenant_used_bytes", ⟨.gauge, ["tenant"]⟩),
    ("rivet_tenant_inflight", ⟨.gauge, ["tenant"]⟩),
    ("rivet_controller_nodes", ⟨.gauge, []⟩)]

/-- **The shapes of the crate's names.** -/
def crateShapes : MetricShapes := fun name => crateMetrics.lookup name

theorem crateShapes_valid : crateShapes.Valid := by
  have all : (crateMetrics.all fun entry => isMetricName entry.1 && entry.2.labels.all isLabelName &&
      decide entry.2.labels.Nodup) = true := by decide
  have each : ∀ name shape, crateShapes name = some shape → isMetricName name = true ∧
      (shape.labels.all isLabelName) = true ∧ shape.labels.Nodup := by
    intro name shape known
    obtain ⟨before, after, split, _⟩ := List.lookup_eq_some_iff.mp known
    have inside : (name, shape) ∈ crateMetrics := by rw [split]; simp
    have tested := List.all_eq_true.mp all _ inside
    simp only [Bool.and_eq_true, decide_eq_true_eq] at tested
    exact ⟨tested.1.1, tested.1.2, tested.2⟩
  exact ⟨fun name shape known => (each name shape known).1, fun name shape known => (each name shape known).2.1,
    fun name shape known => (each name shape known).2.2⟩

/-- **Every call of a job has the shape of its name.** -/
theorem MetricsJob.shaped (job : MetricsJob) : ∀ call ∈ job.calls, call.Shaped crateShapes := by
  have event_shaped : ∀ event call, call ∈ onEventCalls event → call.Shaped crateShapes := by
    intro event call among
    unfold onEventCalls at among
    simp only [List.mem_append, List.mem_singleton] at among
    rcases among with (rfl | among) | among
    · exact ⟨_, rfl, rfl, rfl⟩
    · split at among
      · rw [List.mem_singleton.mp among]
        exact ⟨_, rfl, rfl, rfl⟩
      · cases among
    · split at among
      · rw [List.mem_singleton.mp among]
        exact ⟨_, rfl, rfl, rfl⟩
      · cases among
  have tier_shaped : ∀ name micros (report : TierReport) call, call ∈ report.calls name micros →
      call.Shaped crateShapes := by
    intro name micros report call among
    rcases List.mem_append.mp among with bytes | finished
    · have one : ∃ direction amount, call = InstrumentedKvTier.bytesCall name direction amount := by
        rcases report with (_ | _ | entry) | ⟨entry, _ | _⟩ | _ | _ | _ <;>
          simp only [TierReport.bytesCalls, InstrumentedKvTier.readCalls, InstrumentedKvTier.writeCalls,
            List.mem_singleton, List.not_mem_nil] at bytes
        · exact ⟨_, _, bytes⟩
        · exact ⟨_, _, bytes⟩
      obtain ⟨direction, amount, rfl⟩ := one
      exact ⟨_, rfl, rfl, rfl⟩
    · unfold InstrumentedKvTier.finishCalls at finished
      simp only [List.mem_cons, List.not_mem_nil, or_false] at finished
      rcases finished with rfl | rfl
      · exact ⟨_, rfl, rfl, rfl⟩
      · exact ⟨_, rfl, rfl, rfl⟩
  cases job with
  | tier name report micros => exact tier_shaped name micros report
  | event published => exact event_shaped published
  | refresh tenants nodes =>
      intro call among
      unfold MetricsJob.calls refreshCalls at among
      simp only [List.mem_append, List.mem_singleton, List.mem_flatMap] at among
      rcases among with (rfl | ⟨tenant, _, among⟩) | rfl
      · exact ⟨_, rfl, rfl, rfl⟩
      · unfold tenantCalls at among
        simp only [List.mem_cons, List.not_mem_nil, or_false] at among
        rcases among with rfl | rfl
        · exact ⟨_, rfl, rfl, rfl⟩
        · exact ⟨_, rfl, rfl, rfl⟩
      · exact ⟨_, rfl, rfl, rfl⟩

/-! ### Runs -/

namespace MetricsSystem

/-- **The invariant**: the calls made are answered and held, and with those to come they are the calls of the
jobs. -/
structure Counting (system : MetricsSystem) : Prop where
  holds : system.registry.Holds crateShapes.kindOf system.made
  answered : ∀ entry ∈ system.log, entry.2 = .ok ()
  results : ∀ thread ∈ system.threads, thread.result = .ok ()
  balance : (system.made ++ system.threads.flatMap MetricsThread.left).Perm
    (system.jobs.flatMap MetricsJob.calls)

variable {system : MetricsSystem}

theorem counting_new : Counting new where
  holds := PrometheusRegistry.Holds.empty _
  answered entry among := by cases among
  results thread among := by cases among
  balance := List.Perm.refl []

/-- What is made is of the crate. -/
theorem Counting.shaped (counting : Counting system) :
    ∀ call ∈ system.made ++ system.threads.flatMap MetricsThread.left, call.Shaped crateShapes := by
  intro call among
  obtain ⟨job, _, inside⟩ := List.mem_flatMap.mp (counting.balance.mem_iff.mp among)
  exact job.shaped call inside

theorem counting_begin (counting : Counting system) (job : MetricsJob) :
    Counting (advance (.begin job) system) where
  holds := counting.holds
  answered := counting.answered
  results thread among := by
    have among : thread ∈ system.threads ++ [⟨job, job.calls, .ok ()⟩] := among
    rcases List.mem_append.mp among with earlier | new
    · exact counting.results thread earlier
    · rw [List.mem_singleton.mp new]
  balance := by
    set begun : MetricsThread := ⟨job, job.calls, .ok ()⟩ with begun_eq
    show (system.made ++ (system.threads ++ [begun]).flatMap MetricsThread.left).Perm
      (((system.threads ++ [begun]).map MetricsThread.job).flatMap MetricsJob.calls)
    simp only [List.flatMap_append, List.map_append, List.flatMap_singleton, List.map_singleton,
      ← List.append_assoc]
    exact counting.balance.append_right job.calls

/-- **One call of a thread** is answered. -/
theorem counting_call (counting : Counting system) {number : Nat} {thread : MetricsThread}
    (stands : system.threads[number]? = some thread) : Counting (system.call number thread) := by
  unfold call
  cases pending : thread.left with
  | nil => exact counting
  | cons call left =>
      obtain ⟨within, here⟩ := List.getElem?_eq_some_iff.mp stands
      have inside : thread ∈ system.threads := List.mem_of_getElem? stands
      have shaped : call.Shaped crateShapes := counting.shaped call (List.mem_append_right _
        (List.mem_flatMap.mpr ⟨thread, inside, by rw [pending]; exact List.mem_cons_self⟩))
      obtain ⟨ok, next⟩ := counting.holds.next (shaped.typed crateShapes_valid)
      have moved : thread.answered left (call.apply system.registry).1 = { thread with left } := by
        rw [ok]
        rfl
      set waiting : MetricsThread := { thread with left } with waiting_eq
      obtain ⟨before, after, split, _, set_eq⟩ : ∃ before after,
          system.threads = before ++ system.threads[number] :: after ∧ before.length = number ∧
            system.threads.set number waiting = before ++ waiting :: after := List.exists_of_set within
      rw [here] at split
      show Counting ⟨call.step system.registry,
        system.threads.set number (thread.answered left (call.apply system.registry).1),
        system.log ++ [(call, (call.apply system.registry).1)]⟩
      rw [moved, set_eq, ok]
      refine ⟨?_, fun entry among => ?_, fun other among => ?_, ?_⟩
      · show PrometheusRegistry.Holds _ _ ((system.log ++ [(call, Except.ok ())]).map Prod.fst)
        rw [List.map_append]
        exact next
      · rcases List.mem_append.mp among with earlier | new
        · exact counting.answered entry earlier
        · rw [List.mem_singleton.mp new]
      · have results := counting.results
        rw [split] at results
        rcases List.mem_append.mp among with first | rest
        · exact results other (List.mem_append_left _ first)
        · rcases List.mem_cons.mp rest with rfl | last
          · exact results thread (by simp)
          · exact results other (List.mem_append_right _ (List.mem_cons_of_mem _ last))
      · have balance := counting.balance
        unfold made jobs at balance ⊢
        rw [split] at balance
        simp only [List.map_append, List.map_cons, List.flatMap_append, List.flatMap_cons, List.map_nil,
          pending] at balance ⊢
        refine List.Perm.trans ?_ balance
        simp only [List.append_assoc, List.cons_append, List.nil_append]
        refine List.Perm.append_left _ ?_
        exact (List.perm_middle).symm

theorem counting_advance (counting : Counting system) (label : MetricsLabel) :
    Counting (advance label system) := by
  cases label with
  | begin job => exact counting_begin counting job
  | resume number =>
      show Counting ((system.threads[number]?).elim system (system.call number))
      cases stands : system.threads[number]? with
      | none => exact counting
      | some thread => exact counting_call counting stands

theorem counting_run (labels : List MetricsLabel) : Counting (run labels) := by
  have reached : Reaches advance (fun _ _ => True) new (run labels) :=
    Reaches.foldl (fun _ _ => trivial) labels new
  exact reached.invariant Counting counting_new fun label _ counting _ => counting_advance counting label

end MetricsSystem

/-! ### What the jobs amount to -/

/-- A counter after some amounts; without any there is none. -/
def counterSeries (amounts : List Nat) : Option MetricState :=
  if amounts = [] then none else some (.counter (min amounts.sum u64Max))

/-- A histogram after some durations. -/
def histogramSeries (durations : List Nat) : Option MetricState :=
  if durations = [] then none else some (.histogram (Histogram.total (durations.map .observe)))

/-- A series after some updates. -/
def series (kind : MetricKind) (updates : List MetricUpdate) : Option MetricState :=
  if updates = [] then none else some (MetricState.total kind updates)

theorem series_increments (amounts : List Nat) :
    series .counter (amounts.map .increment) = counterSeries amounts := by
  have deltas : (amounts.map MetricUpdate.increment).map MetricUpdate.delta = amounts := by
    rw [List.map_map]
    exact List.map_id amounts
  refine if_congr List.map_eq_nil_iff rfl ?_
  rw [MetricState.total, deltas]

theorem series_observations (durations : List Nat) :
    series .histogram (durations.map .observe) = histogramSeries durations :=
  if_congr List.map_eq_nil_iff rfl rfl

namespace MetricsJob

/-- One for a call of a tier that came to that. -/
def requests (name operation status : String) : MetricsJob → List Nat
  | tier name' report _ =>
      if name' = name ∧ report.operation = operation ∧ report.status = status then [1] else []
  | _ => []

def durations (name operation : String) : MetricsJob → List Nat
  | tier name' report micros => if name' = name ∧ report.operation = operation then [micros] else []
  | _ => []

def bytes (name direction : String) : MetricsJob → List Nat
  | tier name' report _ => if name' = name then (report.bytes direction).toList else []
  | _ => []

/-- One for an event of that kind and status. -/
def events (kind : Events.KvEventKind) (status : Events.KvEventStatus) : MetricsJob → List Nat
  | event published => if published.kind = kind ∧ published.status = status then [1] else []
  | _ => []

def eventBytes (kind : Events.KvEventKind) (status : Events.KvEventStatus) : MetricsJob → List Nat
  | event published =>
      if published.bytes > 0 ∧ published.kind = kind ∧ published.status = status then [published.bytes] else []
  | _ => []

def eventDurations (kind : Events.KvEventKind) (status : Events.KvEventStatus) : MetricsJob → List Nat
  | event published =>
      if published.durationMicros > 0 ∧ published.kind = kind ∧ published.status = status then
        [published.durationMicros]
      else []
  | _ => []

end MetricsJob

theorem kindText_injective : Function.Injective Events.KvEventKind.asStr := by
  let kinds : List Events.KvEventKind :=
    [.lookup, .store, .retrieve, .move, .prefetch, .invalidate, .pin, .unpin, .clear, .health, .controller]
  have found : ∀ kind : Events.KvEventKind,
      (kinds.find? fun other => other.asStr == kind.asStr) = some kind := by
    intro kind
    cases kind <;> rfl
  intro left right same
  have here := found left
  rw [same, found right] at here
  exact (Option.some.inj here).symm

theorem statusText_injective : Function.Injective Events.KvEventStatus.asStr := by
  let statuses : List Events.KvEventStatus := [.started, .completed, .miss, .error]
  have found : ∀ status : Events.KvEventStatus,
      (statuses.find? fun other => other.asStr == status.asStr) = some status := by
    intro status
    cases status <;> rfl
  intro left right same
  have here := found left
  rw [same, found right] at here
  exact (Option.some.inj here).symm

/-! ### Jobs, by name -/

section

variable (job : MetricsJob)

theorem updatesFor_append (name : String) (labels : List (String × String)) (earlier later : List MetricCall) :
    updatesFor name labels (earlier ++ later) = updatesFor name labels earlier ++ updatesFor name labels later :=
  List.filterMap_append

theorem updatesFor_nil (name : String) (labels : List (String × String)) : updatesFor name labels [] = [] := rfl

theorem updatesFor_cons (name : String) (labels : List (String × String)) (call : MetricCall)
    (rest : List MetricCall) : updatesFor name labels (call :: rest) =
      (if call.name = name ∧ call.labels = labels then [call.update] else []) ++ updatesFor name labels rest := by
  unfold updatesFor
  rw [List.filterMap_cons]
  split <;> split <;> simp_all

/-- A call that is made in one case only. -/
theorem updatesFor_when (name : String) (labels : List (String × String)) (made : Prop) [Decidable made]
    (call : MetricCall) : updatesFor name labels (if made then [call] else []) =
      if made ∧ call.name = name ∧ call.labels = labels then [call.update] else [] := by
  by_cases here : made
  · rw [if_pos here, updatesFor_cons, updatesFor_nil, List.append_nil]
    exact if_congr (by simp [here]) rfl rfl
  · rw [if_neg here, if_neg fun all => here all.1]
    rfl

/-- Calls of other names. -/
theorem updatesFor_other {name : String} {names : List String} {calls : List MetricCall}
    (inside : ∀ call ∈ calls, call.name ∈ names) (other : name ∉ names) (labels : List (String × String)) :
    updatesFor name labels calls = [] := by
  refine List.filterMap_eq_nil_iff.mpr fun call among => if_neg ?_
  rintro ⟨rfl, _⟩
  exact other (inside call among)

theorem refreshCalls_names (tenants : List TenantSnapshot) (nodes : List FleetNode) :
    ∀ call ∈ refreshCalls tenants nodes, call.name ∈ ["rivet_controller_tenants", "rivet_tenant_used_bytes",
      "rivet_tenant_inflight", "rivet_controller_nodes"] := by
  intro call among
  unfold refreshCalls tenantCalls at among
  simp only [List.mem_append, List.mem_flatMap, List.mem_cons, List.not_mem_nil, or_false] at among
  rcases among with (rfl | ⟨tenant, _, rfl | rfl⟩) | rfl <;> simp [MetricCall.name]

theorem onEventCalls_names (event : Events.KvEvent) : ∀ call ∈ onEventCalls event,
    call.name ∈ ["rivet_event_total", "rivet_event_bytes_total", "rivet_event_duration_micros"] := by
  intro call among
  unfold onEventCalls at among
  simp only [List.mem_append, List.mem_singleton, List.mem_ite_nil_right] at among
  rcases among with (rfl | ⟨_, rfl⟩) | ⟨_, rfl⟩ <;> simp [MetricCall.name]

theorem bytesCalls_names (name : String) (report : TierReport) : ∀ call ∈ report.bytesCalls name,
    call.name ∈ ["rivet_kv_tier_bytes_total"] := by
  intro call among
  rcases report with (_ | _ | entry) | ⟨entry, _ | _⟩ | _ | _ | _ <;>
    simp only [TierReport.bytesCalls, InstrumentedKvTier.readCalls, InstrumentedKvTier.writeCalls,
      List.mem_singleton, List.not_mem_nil] at among
  · exact List.mem_singleton.mpr (among ▸ rfl)
  · exact List.mem_singleton.mpr (among ▸ rfl)

theorem finishCalls_names (name operation status : String) (micros : Nat) :
    ∀ call ∈ InstrumentedKvTier.finishCalls name operation status micros,
      call.name ∈ ["rivet_kv_tier_requests_total", "rivet_kv_tier_operation_micros"] := by
  intro call among
  unfold InstrumentedKvTier.finishCalls at among
  simp only [List.mem_cons, List.not_mem_nil, or_false] at among
  rcases among with rfl | rfl <;> simp [MetricCall.name]

theorem calls_names (name : String) (report : TierReport) (micros : Nat) : ∀ call ∈ report.calls name micros,
    call.name ∈ ["rivet_kv_tier_bytes_total", "rivet_kv_tier_requests_total", "rivet_kv_tier_operation_micros"] := by
  intro call among
  rcases List.mem_append.mp among with bytes | finished
  · exact List.mem_append_left _ (bytesCalls_names name report call bytes)
  · exact List.mem_append_right ["rivet_kv_tier_bytes_total"] (finishCalls_names name _ _ micros call finished)

theorem updatesFor_requests (name operation status : String) :
    updatesFor "rivet_kv_tier_requests_total"
        [("tier", name), ("operation", operation), ("status", status)] job.calls =
      (job.requests name operation status).map .increment := by
  cases job with
  | tier name' report micros =>
      rw [MetricsJob.calls, TierReport.calls, updatesFor_append,
        updatesFor_other (bytesCalls_names name' report) (by decide)]
      simp [updatesFor_cons, updatesFor_nil, InstrumentedKvTier.finishCalls, MetricCall.name, MetricCall.labels,
        MetricCall.update, MetricsJob.requests]
      split <;> rfl
  | event published => exact updatesFor_other (onEventCalls_names published) (by decide) _
  | refresh tenants nodes => exact updatesFor_other (refreshCalls_names tenants nodes) (by decide) _

theorem updatesFor_durations (name operation : String) :
    updatesFor "rivet_kv_tier_operation_micros" [("tier", name), ("operation", operation)] job.calls =
      (job.durations name operation).map .observe := by
  cases job with
  | tier name' report micros =>
      rw [MetricsJob.calls, TierReport.calls, updatesFor_append,
        updatesFor_other (bytesCalls_names name' report) (by decide)]
      simp [updatesFor_cons, updatesFor_nil, InstrumentedKvTier.finishCalls, MetricCall.name, MetricCall.labels,
        MetricCall.update, MetricsJob.durations]
      split <;> rfl
  | event published => exact updatesFor_other (onEventCalls_names published) (by decide) _
  | refresh tenants nodes => exact updatesFor_other (refreshCalls_names tenants nodes) (by decide) _

/-- The calls about the bytes, by direction. -/
theorem TierReport.bytesCalls_eq (name : String) (report : TierReport) :
    report.bytesCalls name =
      (report.bytes "read").toList.map (InstrumentedKvTier.bytesCall name "read") ++
        (report.bytes "write").toList.map (InstrumentedKvTier.bytesCall name "write") := by
  rcases report with (_ | _ | entry) | ⟨entry, _ | _⟩ | _ | _ | _ <;> rfl

theorem updatesFor_bytes (name : String) {direction : String} (known : direction = "read" ∨ direction = "write") :
    updatesFor "rivet_kv_tier_bytes_total" [("tier", name), ("direction", direction)] job.calls =
      (job.bytes name direction).map .increment := by
  cases job with
  | tier name' report micros =>
      rw [MetricsJob.calls, TierReport.calls, updatesFor_append,
        updatesFor_other (finishCalls_names name' _ _ micros) (by decide), List.append_nil, TierReport.bytesCalls_eq]
      rcases known with rfl | rfl <;> cases read : report.bytes "read" <;>
        cases written : report.bytes "write" <;> by_cases same : name' = name <;>
        simp [updatesFor_cons, updatesFor_nil, InstrumentedKvTier.bytesCall, same, read, written, MetricCall.name,
          MetricCall.labels, MetricCall.update, MetricsJob.bytes]
  | event published => exact updatesFor_other (onEventCalls_names published) (by decide) _
  | refresh tenants nodes => exact updatesFor_other (refreshCalls_names tenants nodes) (by decide) _

/-- The labels of an event tell its kind and its status. -/
theorem labels_event (event : Events.KvEvent) (kind : Events.KvEventKind) (status : Events.KvEventStatus) :
    ([("operation", event.kind.asStr), ("status", event.status.asStr)] =
        [("operation", kind.asStr), ("status", status.asStr)]) ↔ event.kind = kind ∧ event.status = status := by
  simp [kindText_injective.eq_iff, statusText_injective.eq_iff]

theorem updatesFor_events (kind : Events.KvEventKind) (status : Events.KvEventStatus) :
    updatesFor "rivet_event_total" [("operation", kind.asStr), ("status", status.asStr)] job.calls =
      (job.events kind status).map .increment := by
  cases job with
  | tier name report micros => exact updatesFor_other (calls_names name report micros) (by decide) _
  | event published =>
      rw [MetricsJob.calls, onEventCalls]
      simp only [updatesFor_cons, updatesFor_append, updatesFor_nil, updatesFor_when, MetricCall.name,
        MetricCall.labels, MetricCall.update, labels_event, MetricsJob.events, true_and, and_false, String.reduceEq,
        false_and, if_false, List.append_nil]
      split <;> rfl
  | refresh tenants nodes => exact updatesFor_other (refreshCalls_names tenants nodes) (by decide) _

theorem updatesFor_eventBytes (kind : Events.KvEventKind) (status : Events.KvEventStatus) :
    updatesFor "rivet_event_bytes_total" [("operation", kind.asStr), ("status", status.asStr)] job.calls =
      (job.eventBytes kind status).map .increment := by
  cases job with
  | tier name report micros => exact updatesFor_other (calls_names name report micros) (by decide) _
  | event published =>
      rw [MetricsJob.calls, onEventCalls]
      simp only [updatesFor_cons, updatesFor_append, updatesFor_nil, updatesFor_when, MetricCall.name,
        MetricCall.labels, MetricCall.update, labels_event, MetricsJob.eventBytes, true_and, and_false,
        String.reduceEq, false_and, if_false, List.append_nil, List.nil_append]
      split <;> rfl
  | refresh tenants nodes => exact updatesFor_other (refreshCalls_names tenants nodes) (by decide) _

theorem updatesFor_eventDurations (kind : Events.KvEventKind) (status : Events.KvEventStatus) :
    updatesFor "rivet_event_duration_micros" [("operation", kind.asStr), ("status", status.asStr)] job.calls =
      (job.eventDurations kind status).map .observe := by
  cases job with
  | tier name report micros => exact updatesFor_other (calls_names name report micros) (by decide) _
  | event published =>
      rw [MetricsJob.calls, onEventCalls]
      simp only [updatesFor_cons, updatesFor_append, updatesFor_nil, updatesFor_when, MetricCall.name,
        MetricCall.labels, MetricCall.update, labels_event, MetricsJob.eventDurations, true_and, and_false,
        String.reduceEq, false_and, if_false, List.append_nil, List.nil_append]
      split <;> rfl
  | refresh tenants nodes => exact updatesFor_other (refreshCalls_names tenants nodes) (by decide) _

end

/-! ### Totals -/

/-- **The counters and histograms of some jobs**, by name and labels. -/
structure JobTotals (registry : PrometheusRegistry) (jobs : List MetricsJob) : Prop where
  requests : ∀ name operation status,
    registry.value? "rivet_kv_tier_requests_total"
        [("tier", name), ("operation", operation), ("status", status)] =
      counterSeries (jobs.flatMap (MetricsJob.requests name operation status))
  durations : ∀ name operation,
    registry.value? "rivet_kv_tier_operation_micros" [("tier", name), ("operation", operation)] =
      histogramSeries (jobs.flatMap (MetricsJob.durations name operation))
  bytes : ∀ name direction, direction = "read" ∨ direction = "write" →
    registry.value? "rivet_kv_tier_bytes_total" [("tier", name), ("direction", direction)] =
      counterSeries (jobs.flatMap (MetricsJob.bytes name direction))
  events : ∀ kind status,
    registry.value? "rivet_event_total"
        [("operation", Events.KvEventKind.asStr kind), ("status", Events.KvEventStatus.asStr status)] =
      counterSeries (jobs.flatMap (MetricsJob.events kind status))
  eventBytes : ∀ kind status,
    registry.value? "rivet_event_bytes_total"
        [("operation", Events.KvEventKind.asStr kind), ("status", Events.KvEventStatus.asStr status)] =
      counterSeries (jobs.flatMap (MetricsJob.eventBytes kind status))
  eventDurations : ∀ kind status,
    registry.value? "rivet_event_duration_micros"
        [("operation", Events.KvEventKind.asStr kind), ("status", Events.KvEventStatus.asStr status)] =
      histogramSeries (jobs.flatMap (MetricsJob.eventDurations kind status))

section

variable {registry : PrometheusRegistry} {made : List MetricCall} {jobs : List MetricsJob} {name : String}
  {labels : List (String × String)}

theorem MetricsJob.shaped_all (jobs : List MetricsJob) :
    ∀ call ∈ jobs.flatMap MetricsJob.calls, call.Shaped crateShapes := by
  intro call among
  obtain ⟨job, _, inside⟩ := List.mem_flatMap.mp among
  exact job.shaped call inside

/-- **A series holds what the jobs amount to**, in whatever order their calls were made. -/
theorem value_jobs (holds : registry.Holds crateShapes.kindOf made)
    (balance : made.Perm (jobs.flatMap MetricsJob.calls)) {shape : MetricShape}
    (known : crateShapes name = some shape) (named : labels.map Prod.fst = shape.labels)
    (no_gauge : shape.kind ≠ .gauge) :
    registry.value? name labels =
      series shape.kind (jobs.flatMap fun job => updatesFor name labels job.calls) := by
  have perm : (updatesFor name labels made).Perm
      (jobs.flatMap fun job => updatesFor name labels job.calls) := by
    have mapped : (updatesFor name labels made).Perm
        (updatesFor name labels (jobs.flatMap MetricsJob.calls)) := balance.filterMap _
    rwa [updatesFor, updatesFor, List.filterMap_flatMap] at mapped
  rw [holds.value crateShapes_valid
    (fun call among => MetricsJob.shaped_all jobs call (balance.mem_iff.mp among)) known named]
  refine if_congr ⟨fun none => ?_, fun none => ?_⟩ rfl (congrArg some (MetricState.total_perm no_gauge perm))
  · exact (none ▸ perm).nil_eq.symm
  · exact (none ▸ perm).eq_nil

/-- A counter, by the amounts of each job. -/
theorem value_counter (holds : registry.Holds crateShapes.kindOf made)
    (balance : made.Perm (jobs.flatMap MetricsJob.calls)) {names : List String}
    {amounts : MetricsJob → List Nat} (known : crateShapes name = some ⟨.counter, names⟩)
    (named : labels.map Prod.fst = names)
    (each : ∀ job : MetricsJob, updatesFor name labels job.calls = (amounts job).map .increment) :
    registry.value? name labels = counterSeries (jobs.flatMap amounts) := by
  have value := value_jobs holds balance known named (by simp)
  rw [value, ← series_increments, List.map_flatMap]
  simp only [each]

/-- A histogram, by the durations of each job. -/
theorem value_histogram (holds : registry.Holds crateShapes.kindOf made)
    (balance : made.Perm (jobs.flatMap MetricsJob.calls)) {names : List String}
    {durations : MetricsJob → List Nat} (known : crateShapes name = some ⟨.histogram, names⟩)
    (named : labels.map Prod.fst = names)
    (each : ∀ job : MetricsJob, updatesFor name labels job.calls = (durations job).map .observe) :
    registry.value? name labels = histogramSeries (jobs.flatMap durations) := by
  have value := value_jobs holds balance known named (by simp)
  rw [value, ← series_observations, List.map_flatMap]
  simp only [each]

theorem jobTotals (holds : registry.Holds crateShapes.kindOf made)
    (balance : made.Perm (jobs.flatMap MetricsJob.calls)) : JobTotals registry jobs where
  requests name operation status :=
    value_counter holds balance rfl rfl fun job => updatesFor_requests job name operation status
  durations name operation :=
    value_histogram holds balance rfl rfl fun job => updatesFor_durations job name operation
  bytes name _ known := value_counter holds balance rfl rfl fun job => updatesFor_bytes job name known
  events kind status := value_counter holds balance rfl rfl fun job => updatesFor_events job kind status
  eventBytes kind status := value_counter holds balance rfl rfl fun job => updatesFor_eventBytes job kind status
  eventDurations kind status :=
    value_histogram holds balance rfl rfl fun job => updatesFor_eventDurations job kind status

end

/-! ### Every interleaving -/

/-- **What holds of a system** that jobs write to. -/
structure MetricsSystem.Sound (system : MetricsSystem) : Prop where
  answered : ∀ entry ∈ system.log, entry.2 = .ok ()
  results : ∀ thread ∈ system.threads, thread.result = .ok ()
  oneKind : system.registry.OneKind
  /-- A series holds what the calls so far amount to. -/
  series : ∀ name labels shape, crateShapes name = some shape → labels.map Prod.fst = shape.labels →
    system.registry.value? name labels = RivetCache.series shape.kind (updatesFor name labels system.made)
  totals : system.Idle → JobTotals system.registry system.jobs

/-- **Every interleaving of the crate's jobs**: no call is refused and no refresh fails, all series of a name are
of one kind, a series holds what the calls so far amount to, and once all jobs are done, what the jobs do. -/
theorem crate_metrics (labels : List MetricsLabel) : (MetricsSystem.run labels).Sound := by
  have counting := MetricsSystem.counting_run labels
  refine ⟨counting.answered, counting.results, counting.holds.oneKind, fun name labels shape => ?_, fun idle => ?_⟩
  · exact counting.holds.value crateShapes_valid fun call among =>
      counting.shaped call (List.mem_append_left _ among)
  · have nothing_left : (MetricsSystem.run labels).threads.flatMap MetricsThread.left = [] :=
      List.flatMap_eq_nil_iff.mpr idle
    have balance := counting.balance
    rw [nothing_left, List.append_nil] at balance
    exact jobTotals counting.holds balance

/-! ### One tier -/

/-- A call of a tier, with what it came to. -/
def TierCall.report {τ : Type} (tier : KvTier τ) : TierCall → τ → TierReport × τ
  | .get key, state => (.get (tier.get key state).1, (tier.get key state).2)
  | .put entry, state => (.put entry (tier.put entry state).1, (tier.put entry state).2)
  | .remove key, state => (.remove (tier.remove key state).1, (tier.remove key state).2)
  | .clear, state => (.clear (tier.clear state).1, (tier.clear state).2)
  | .health, state => (.health (tier.health state).1, (tier.health state).2)

variable {τ : Type}

/-- The jobs of some reports, the first of them of reading `calls` of the clock. -/
def InstrumentedKvTier.jobsOf (tier : InstrumentedKvTier τ) (calls : Nat) (reports : List TierReport) :
    List MetricsJob :=
  (reports.zipIdx calls).map fun report => .tier tier.name report.1 (min (tier.elapsed report.2) u64Max)

/-- **One call of an instrumented tier**: the call of the tier inside, and its job. -/
theorem InstrumentedKvTier.report_eq (tier : InstrumentedKvTier τ) (call : TierCall) (state : InstrumentedState τ) :
    call.report tier.kvTier state =
      ((call.report tier.inner state.inner).1,
        { inner := (call.report tier.inner state.inner).2
          metrics := MetricCall.dropAnswers
            ((call.report tier.inner state.inner).1.calls tier.name (min (tier.elapsed state.calls) u64Max))
            state.metrics
          calls := state.calls + 1 }) := by
  cases call <;> rfl

theorem MetricCall.dropAnswers_append (earlier later : List MetricCall) (registry : PrometheusRegistry) :
    dropAnswers (earlier ++ later) registry = dropAnswers later (dropAnswers earlier registry) :=
  List.foldl_append

/-- **A run of an instrumented tier** is a run of the tier inside, and the calls of its jobs. -/
theorem InstrumentedKvTier.run_eq (tier : InstrumentedKvTier τ) (calls : List TierCall)
    (state : InstrumentedState τ) :
    answers (TierCall.report tier.kvTier) calls state =
      ((answers (TierCall.report tier.inner) calls state.inner).1,
        { inner := (answers (TierCall.report tier.inner) calls state.inner).2
          metrics := MetricCall.dropAnswers
            ((tier.jobsOf state.calls (answers (TierCall.report tier.inner) calls state.inner).1).flatMap
              MetricsJob.calls) state.metrics
          calls := state.calls + calls.length }) := by
  induction calls generalizing state with
  | nil => rfl
  | cons call rest ih =>
      simp only [answers, ih, tier.report_eq call state]
      unfold InstrumentedKvTier.jobsOf
      rw [List.zipIdx_cons, List.map_cons, List.flatMap_cons, MetricCall.dropAnswers_append, List.length_cons,
        Nat.add_assoc, Nat.add_comm 1]
      rfl

/-- **A tier that is instrumented answers as before, and is counted exactly**: over any calls, its answers and the
state of the tier inside are those of the tier alone, and the registry holds their totals. -/
theorem instrumented_exact (tier : InstrumentedKvTier τ) (calls : List TierCall) (inner : τ) :
    (answers (TierCall.report tier.kvTier) calls ⟨inner, SortedMap.empty, 0⟩).1 =
        (answers (TierCall.report tier.inner) calls inner).1 ∧
      (answers (TierCall.report tier.kvTier) calls ⟨inner, SortedMap.empty, 0⟩).2.inner =
        (answers (TierCall.report tier.inner) calls inner).2 ∧
      JobTotals (answers (TierCall.report tier.kvTier) calls ⟨inner, SortedMap.empty, 0⟩).2.metrics
        (tier.jobsOf 0 (answers (TierCall.report tier.inner) calls inner).1) := by
  rw [tier.run_eq]
  refine ⟨rfl, rfl, ?_⟩
  have typed := MetricsJob.shaped_all (tier.jobsOf 0 (answers (TierCall.report tier.inner) calls inner).1)
  have totals := registry_totals fun call among => (typed call among).typed crateShapes_valid
  exact jobTotals totals.1 (List.Perm.refl _)

end RivetCache
