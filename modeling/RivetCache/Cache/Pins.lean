/-
**Pinned entries.**

The pin of a key is kept twice, in its memory record and in its index record, and an index record is
never rewritten. So a `put` that pins a key protects the value where it reaches memory, or where it is
the one the persistent tier holds; where the key is already listed with another entry, `put` succeeds
and the older one, with the older pin, stays.

* `Protects`: the condition, on the state before the `put`;
* `pinned_stays`: under it the value is served after any calls on other keys, whatever is evicted;
* `pinned_evicted`: without it the value may be evicted like any other.
-/

import RivetCache.Cache.Coherence

set_option linter.unusedSectionVars false

namespace RivetCache

open Library

variable {σ : Type}

namespace ContextCache

/-- **Where pinning works.** The value fits memory; or it fits the persistent tier, the memory record
of the key, if any, has expired by the reading at which the value is wanted, and the index lists
nothing live of the key or the store holds this very entry already. -/
def Protects (cache : ContextCache σ) (contents : σ → String → Option StoredEntry)
    (now later : Nat) (key : String) (value : List UInt8) (s : CacheState σ) : Prop :=
  cache.fitsMemory value = true ∨
    cache.persistsValue value = true ∧
      (∀ record, s.memory.lookup key = some record → isExpired record.expiresAt later = true) ∧
      ((∀ record, s.disk.lookup key = some record → isExpired record.expiresAt now = true) ∨
        contents s.store key = some ⟨value, 0, true⟩)

variable {cache : ContextCache σ} {contents : σ → String → Option StoredEntry}
  {domain : String → Prop} {amb : Ambient} {s after : CacheState σ} {key : String}

/-- The `put` puts the entry where evictions leave it alone. -/
theorem put_keeps (backed : cache.Backed contents domain) (faultless : amb.Faultless)
    (coherent : cache.AllCoherent contents s) (accepted : cache.keyStrategy.Accepts key)
    {value : List UInt8} (nonempty : value ≠ []) {ttl : Option Duration}
    (unexpiring : (ttl.getD cache.defaultTtl).isZero = true) {later : Nat}
    (protects : cache.Protects contents amb.now later key value s) :
    (cache.slot contents (cache.put amb key value ttl true s).2 key).Keeps
      ⟨value, 0, true⟩ later := by
  obtain ⟨result, next, done, touches, _⟩ :=
    put_slot backed faultless.quiet (coherent.indexed backed) accepted nonempty ttl true
  have entry : cache.putEntry amb value ttl true = ⟨value, 0, true⟩ := by
    unfold putEntry expiryAt
    rw [unexpiring]
    rfl
  have own := touches.own
  have succeeded := own.succeeded (faultless .write)
  subst succeeded
  rw [entry] at own
  rw [done]
  refine own.keeps rfl rfl (protects.imp id ?_)
  rintro ⟨admitted, cold, place⟩
  have persisting := persists_of_persistsValue admitted
  have agree := coherent key
  rw [persisting] at agree
  refine ⟨admitted, fun copy held => ?_, place.imp (fun unlisted => ⟨?_, agree.stored_none⟩) ?_⟩
  · obtain ⟨record, found, rfl⟩ := Option.map_eq_some_iff.mp
      (show (s.memory.lookup key).map MemoryRecord.entry = some copy from held)
    exact cold record found
  · intro label listed
    obtain ⟨record, found, rfl⟩ := slot_index_some listed
    exact unlisted record found
  · intro present
    have stored : (cache.slot contents s key).stored = some ⟨value, 0, true⟩ := by
      show cache.held contents s key = _
      unfold held
      cases injected : cache.store with
      | none =>
          unfold persists at persisting
          rw [injected] at persisting
          simp at persisting
      | some _ => exact present
    refine ⟨?_, stored⟩
    have listed : (cache.slot contents s key).index =
        (cache.slot contents s key).stored.map StoredEntry.label := agree
    rw [listed, stored]
    rfl

/-- **A pinned value stays.** From any state reached from construction, after a `put` that pins the
value without a TTL, where `Protects` held, and any calls on other keys, `get` answers the value:
whatever the capacities, the eviction policy and the readings of the clock. -/
theorem pinned_stays (cache : ContextCache σ) (backed : cache.Backed contents domain)
    {first : Ambient} (first_faultless : first.Faultless) {stored : σ} {start : CacheState σ}
    (built : cache.fromBuilder first stored = (.ok (), start))
    (reached : Reaches cache.step (fun call _ => call.ambient.Faultless) start s)
    (faultless : amb.Faultless) (accepted : cache.keyStrategy.Accepts key) {value : List UInt8}
    (nonempty : value ≠ []) {ttl : Option Duration}
    (unexpiring : (ttl.getD cache.defaultTtl).isZero = true) {last : Ambient}
    (last_faultless : last.Faultless)
    (protects : cache.Protects contents amb.now last.now key value s)
    (run : Reaches cache.step (fun call _ => call.ambient.Faultless ∧ ¬ Concerns key call)
      (cache.put amb key value ttl true s).2 after) :
    (cache.get last key after).1 = .ok (some value) := by
  have before : cache.AllCoherent contents s := by
    refine reached.invariant (cache.AllCoherent contents)
      (fromBuilder_slot backed first_faultless.quiet built).1.coherent fun call t held works => ?_
    exact step_coherent backed works.quiet held
  have pinning : (Call.put amb key value ttl true).ambient.Quiet := faultless.quiet
  have invariant : cache.AllCoherent contents after ∧
      (cache.slot contents after key).Keeps ⟨value, 0, true⟩ last.now := by
    refine run.invariant (fun t => cache.AllCoherent contents t ∧
      (cache.slot contents t key).Keeps ⟨value, 0, true⟩ last.now) ⟨?_, ?_⟩
      fun call t held permitted => ⟨step_coherent backed permitted.1.quiet held.1, ?_⟩
    · exact step_coherent backed pinning before
    · exact put_keeps backed faultless before accepted nonempty unexpiring protects
    · have effect := step_slot backed permitted.1.quiet (held.1.indexed backed) key
      generalize cache.slot contents (cache.step call t) key = next at effect ⊢
      cases effect with
      | elsewhere _ unconcerned fades => exact fades.keeps rfl held.2
      | idle nothing => exact held.2
      | put _ _ _ _ _ _ called _ _ _ => exact (permitted.2 (by rw [called]; rfl)).elim
      | get _ _ _ called _ _ => exact (permitted.2 (by rw [called]; rfl)).elim
      | emptied deleting =>
          rcases deleting with ⟨_, called⟩ | ⟨_, called⟩
          · exact (permitted.2 (by rw [called]; rfl)).elim
          · exact (permitted.2 (by rw [called]; trivial)).elim
  obtain ⟨result, next, done, touches, _⟩ :=
    get_slot backed last_faultless.quiet accepted after
  rw [done]
  exact touches.own.keeps last_faultless rfl invariant.2

/-- Without a memory tier: a fresh key is pinned, and a larger value is written over the capacity. -/
theorem pinned_stays_on_disk :
    let cache := ContextCache.volatile 0 3
    let start := (cache.fromBuilder (Ambient.plain 5) VolatileStore.new).2
    let pinned := (cache.put (Ambient.plain 6) (repeatedKey 'a') [1] none true start).2
    let after := cache.step (.put (Ambient.plain 7) (repeatedKey 'b') [2, 2, 2] none false) pinned
    (cache.get (Ambient.plain 8) (repeatedKey 'a') after).1 = .ok (some [1]) := by
  intro cache start pinned after
  have built : cache.fromBuilder (Ambient.plain 5) VolatileStore.new = (.ok (), start) := rfl
  have accepted : cache.keyStrategy.Accepts (repeatedKey 'a') := by decide
  have protects : cache.Protects VolatileStore.contents 6 8 (repeatedKey 'a') [1] start := by
    refine Or.inr ⟨by decide, fun record found => ?_, Or.inl fun record found => ?_⟩ <;> cases found
  refine cache.pinned_stays (volatile_backed 0 3) (Ambient.plain_faultless 5) built .refl
    (Ambient.plain_faultless 6) accepted (by decide) (by decide) (Ambient.plain_faultless 8)
    protects (Reaches.step .refl ⟨Ambient.plain_faultless 7, ?_⟩)
  show repeatedKey 'b' ≠ repeatedKey 'a'
  decide

/-- **A pin that is not kept**: without a memory tier, a key that is on the store unpinned is put
again, pinned. The `put` succeeds, the store keeps the unpinned entry, and the next write over the
capacity evicts it. -/
theorem pinned_evicted :
    let cache := ContextCache.volatile 0 3
    let start := (cache.fromBuilder (Ambient.plain 5) VolatileStore.new).2
    let s := cache.step (.put (Ambient.plain 5) (repeatedKey 'a') [1] none false) start
    let pinned := cache.put (Ambient.plain 6) (repeatedKey 'a') [1] none true s
    let after := cache.step (.put (Ambient.plain 7) (repeatedKey 'b') [2, 2, 2] none false) pinned.2
    cache.persistsValue [1] = true ∧ pinned.1 = .ok () ∧
      (cache.get (Ambient.plain 8) (repeatedKey 'a') after).1 = .ok none := by
  refine ⟨by decide, by decide, by decide⟩

end ContextCache

end RivetCache
