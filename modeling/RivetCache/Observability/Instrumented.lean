/-
**`InstrumentedKvTier`: a tier that counts its calls.**

A call of the wrapper is the call of the tier inside, and then two or three calls to the registry, whose answers
are dropped. The time a call took is read from the clock; reading number `i` is `elapsed i`.
-/

import RivetCache.Kv.Model
import RivetCache.Observability.Kinds

set_option linter.unusedSectionVars false

namespace RivetCache

open Library

variable {τ : Type}

/-- Calls to the registry whose answers are dropped, one after another. -/
def MetricCall.dropAnswers (calls : List MetricCall) (registry : PrometheusRegistry) : PrometheusRegistry :=
  calls.foldl (fun registry call => call.step registry) registry

/-- `InstrumentedKvTier`, `inner` and `metrics`. -/
structure InstrumentedState (τ : Type) where
  inner : τ
  metrics : PrometheusRegistry
  calls : Nat

/-- The fields of `InstrumentedKvTier` that its calls do not change. -/
structure InstrumentedKvTier (τ : Type) where
  name : String
  inner : KvTier τ
  elapsed : Nat → Nat

namespace InstrumentedKvTier

/-- `InstrumentedKvTier::new`. -/
def new (name : String) (inner : KvTier τ) (elapsed : Nat → Nat) :
    Except IoError (InstrumentedKvTier τ) :=
  if isBlank name then .error ⟨.invalidInput, "tier name must not be empty"⟩
  else .ok ⟨name, inner, elapsed⟩

/-- `finish`, the status. -/
def statusOf {α : Type} : Except IoError α → String
  | .ok _ => "ok"
  | .error _ => "error"

/-- `finish`, its calls to the registry. -/
def finishCalls (name operation status : String) (micros : Nat) : List MetricCall :=
  [.incCounter "rivet_kv_tier_requests_total"
      [("tier", name), ("operation", operation), ("status", status)] 1,
    .observeMicros "rivet_kv_tier_operation_micros" [("tier", name), ("operation", operation)] micros]

/-- `get` and `put`, the bytes that went through. -/
def bytesCall (name direction : String) (bytes : Nat) : MetricCall :=
  .incCounter "rivet_kv_tier_bytes_total" [("tier", name), ("direction", direction)] bytes

/-- `get`, what is counted of its answer. -/
def readCalls (name : String) : Except IoError (Option KvTierEntry) → List MetricCall
  | .ok (some entry) => [bytesCall name "read" entry.block.bytes.bytes.length]
  | _ => []

/-- `put`, what is counted of its answer. -/
def writeCalls (name : String) (entry : KvTierEntry) : Except IoError Unit → List MetricCall
  | .ok () => [bytesCall name "write" entry.block.bytes.bytes.length]
  | .error _ => []

variable (tier : InstrumentedKvTier τ)

/-- `finish`, after the calls `before` to the registry: the result is passed on. -/
def finish {α : Type} (operation : String) (before : List MetricCall) (state : InstrumentedState τ)
    (called : Except IoError α × τ) : Except IoError α × InstrumentedState τ :=
  (called.1,
    { inner := called.2
      metrics := MetricCall.dropAnswers
        (before ++ finishCalls tier.name operation (statusOf called.1) (min (tier.elapsed state.calls) u64Max))
        state.metrics
      calls := state.calls + 1 })

/-- `impl KvTier for InstrumentedKvTier`. -/
def kvTier : KvTier (InstrumentedState τ) where
  name := tier.name
  get key state :=
    let called := tier.inner.get key state.inner
    tier.finish "get" (readCalls tier.name called.1) state called
  put entry state :=
    let called := tier.inner.put entry state.inner
    tier.finish "put" (writeCalls tier.name entry called.1) state called
  remove key state := tier.finish "remove" [] state (tier.inner.remove key state.inner)
  clear state := tier.finish "clear" [] state (tier.inner.clear state.inner)
  health state := tier.finish "health" [] state (tier.inner.health state.inner)

end InstrumentedKvTier

end RivetCache
