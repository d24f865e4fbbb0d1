/-
**A context cache as a tier.**

`ContextCacheTier` keeps each entry as an envelope in a `ContextCache`, without a TTL: the expiry is in the
envelope. Its `put` succeeds whether or not the cache retains the envelope.

* `TierKind`: the tiers considered, map-like ones and context caches;
* `TierKind.Retains`: where an accepted entry is retained, `put_get_iff`: exactly where a `get` right after
  the `put` answers it.
-/

import RivetCache.Cache.Retention
import RivetCache.Kv.Envelope
import RivetCache.Kv.Tier

set_option linter.unusedSectionVars false

namespace RivetCache

open Library

variable {σ : Type}

/-! ### The tier -/

/-- The cache of a `ContextCacheTier`, and how many calls the tier has made of it. -/
structure CacheTierState (σ : Type) where
  cache : CacheState σ
  calls : Nat

/-- `get` of a `ContextCacheTier`, the answer of the cache decoded. -/
def decodeAnswer (key : KvBlockKey) :
    Except IoError (Option (List UInt8)) → Except IoError (Option KvTierEntry)
  | .error error => .error error
  | .ok none => .ok none
  | .ok (some encoded) =>
      match decodeTierEntry key encoded with
      | .error error => .error error
      | .ok entry => .ok (some entry)

/-- `impl KvTier for ContextCacheTier`. `cacheKey` is `KvBlockKey::cache_key`, a SHA-256 digest in
hexadecimal; call number `i` of the cache meets `ambient i`. -/
def contextCacheTier (name : String) (cache : ContextCache σ) (cacheKey : KvBlockKey → String)
    (ambient : Nat → Ambient) : KvTier (CacheTierState σ) where
  name := name
  get key state :=
    (decodeAnswer key (cache.get (ambient state.calls) (cacheKey key) state.cache).1,
      ⟨(cache.get (ambient state.calls) (cacheKey key) state.cache).2, state.calls + 1⟩)
  put entry state :=
    match encodeTierEntry entry with
    | .error error => (.error error, state)
    | .ok encoded =>
        ((cache.put (ambient state.calls) (cacheKey entry.block.key) encoded (some Duration.zero)
            entry.pinned state.cache).1,
          ⟨(cache.put (ambient state.calls) (cacheKey entry.block.key) encoded (some Duration.zero)
            entry.pinned state.cache).2, state.calls + 1⟩)
  remove key state :=
    ((cache.invalidate (ambient state.calls) (cacheKey key) state.cache).1,
      ⟨(cache.invalidate (ambient state.calls) (cacheKey key) state.cache).2, state.calls + 1⟩)
  clear state :=
    ((cache.clear (ambient state.calls) state.cache).1,
      ⟨(cache.clear (ambient state.calls) state.cache).2, state.calls + 1⟩)
  health := KvTier.healthy

/-- An answer that decodes to an entry is its envelope. -/
theorem decodeAnswer_some {key : KvBlockKey} {entry : KvTierEntry}
    {answer : Except IoError (Option (List UInt8))} :
    decodeAnswer key answer = .ok (some entry) ↔
      entry.block.key = key ∧ entry.block.bytes.bytes ≠ [] ∧ answer = .ok (some (envelope entry)) := by
  constructor
  · intro decoded
    unfold decodeAnswer at decoded
    split at decoded
    case h_1 _ => cases decoded
    case h_2 => cases decoded
    case h_3 encoded =>
      split at decoded
      case h_1 _ _ => cases decoded
      case h_2 _ same done =>
        cases decoded
        obtain ⟨own, encodes⟩ := encode_decode done
        obtain ⟨nonempty, rfl⟩ := encodeTierEntry_ok.mp encodes
        exact ⟨own, nonempty, rfl⟩
  · rintro ⟨rfl, nonempty, rfl⟩
    unfold decodeAnswer
    simp only [decode_encode (encodeTierEntry_ok.mpr ⟨nonempty, rfl⟩)]

/-! ### Kinds of tiers -/

/-- A map-like tier whose reads do not fail, or a context cache over a store that is a map and does not
fail. -/
inductive TierKind : {τ : Type} → KvTier τ → Type 1
  | mapLike {τ : Type} (tier : KvTier τ) (contents : τ → KvBlockKey → Option KvTierEntry)
      (laws : MapTier tier contents)
      (reads : ∀ state key, ∃ answer, (tier.get key state).1 = .ok answer) : TierKind tier
  | contextCache {σ : Type} (name : String) (cache : ContextCache σ)
      (cacheKey : KvBlockKey → String) (ambient : Nat → Ambient)
      (contents : σ → String → Option StoredEntry) (domain : String → Prop)
      (backed : cache.Backed contents domain) (faultless : ∀ call, (ambient call).Faultless) :
      TierKind (contextCacheTier name cache cacheKey ambient)

namespace TierKind

/-- A state that the tier reaches from its construction. The cache may have other users. -/
def Reachable {τ : Type} {tier : KvTier τ} : TierKind tier → τ → Prop
  | mapLike _ _ _ _, _ => True
  | contextCache _ cache _ _ _ _ _ _, state => ∃ first stored start, Ambient.Faultless first ∧
      cache.fromBuilder first stored = (.ok (), start) ∧
      Reaches cache.step (fun call _ => call.ambient.Faultless) start state.cache

/-- **Where a tier retains an entry it accepts**: a map-like tier always, a context cache where it retains
the envelope. -/
def Retains {τ : Type} {tier : KvTier τ} : TierKind tier → KvTierEntry → τ → Prop
  | mapLike _ _ _ _, _, _ => True
  | contextCache _ cache cacheKey ambient contents _ _ _, entry, state =>
      cache.Retains contents (ambient state.calls) (ambient (state.calls + 1)).now
        (cacheKey entry.block.key) (envelope entry) entry.pinned state.cache

variable {τ : Type} {tier : KvTier τ}

/-- An entry read has the key asked for. -/
theorem keyed (kind : TierKind tier) {state : τ} {key : KvBlockKey} {entry : KvTierEntry}
    (read : (tier.get key state).1 = .ok (some entry)) : entry.block.key = key := by
  cases kind with
  | mapLike _ contents laws _ => exact laws.keyed _ _ _ (laws.got _ _ _ read).symm
  | contextCache name cache cacheKey ambient contents domain backed faultless =>
      exact (decodeAnswer_some.mp read).1

/-- A read leaves a reachable state. -/
theorem reachable_get (kind : TierKind tier) {state : τ} (reachable : kind.Reachable state)
    (key : KvBlockKey) : kind.Reachable (tier.get key state).2 := by
  cases kind with
  | mapLike _ _ _ _ => trivial
  | contextCache name cache cacheKey ambient contents domain backed faultless =>
      obtain ⟨first, stored, start, works, built, reached⟩ := reachable
      refine ⟨first, stored, start, works, built, ?_⟩
      have allowed : (Call.get (ambient state.calls) (cacheKey key)).ambient.Faultless :=
        faultless state.calls
      exact reached.step allowed

/-- **A `get` right after an accepted `put` answers the entry exactly where the tier retains it.** -/
theorem put_get_iff (kind : TierKind tier) {state : τ} (reachable : kind.Reachable state)
    {entry : KvTierEntry} (accepted : (tier.put entry state).1 = .ok ()) :
    (tier.get entry.block.key (tier.put entry state).2).1 = .ok (some entry) ↔
      kind.Retains entry state := by
  cases kind with
  | mapLike _ contents laws reads =>
      refine iff_of_true ?_ trivial
      obtain ⟨answer, read⟩ := reads (tier.put entry state).2 entry.block.key
      rw [read, laws.got _ _ _ read, laws.put state entry accepted, Function.update_self]
  | contextCache name cache cacheKey ambient contents domain backed faultless =>
      obtain ⟨first, stored, start, works, built, reached⟩ := reachable
      have coherent : cache.AllCoherent contents state.cache :=
        reached.invariant (cache.AllCoherent contents)
          (ContextCache.fromBuilder_slot backed works.quiet built).1.coherent fun call t held calls =>
            ContextCache.step_coherent backed calls.quiet held
      cases outcome : encodeTierEntry entry with
      | error error =>
          unfold contextCacheTier at accepted
          simp only [outcome] at accepted
          cases accepted
      | ok encoded =>
          obtain ⟨nonempty, rfl⟩ := encodeTierEntry_ok.mp outcome
          unfold contextCacheTier at accepted ⊢
          simp only [outcome] at accepted ⊢
          rw [decodeAnswer_some]
          have filled : envelope entry ≠ [] := by
            intro empty
            have length := envelope_length entry
            rw [empty] at length
            simp at length
          have iff := ContextCache.put_get_iff backed (faultless state.calls)
            (faultless (state.calls + 1)) coherent (ContextCache.accepts_of_put accepted) filled
            entry.pinned
          exact ⟨fun served => iff.mp served.2.2, fun retained => ⟨rfl, nonempty, iff.mpr retained⟩⟩

end TierKind

end RivetCache
