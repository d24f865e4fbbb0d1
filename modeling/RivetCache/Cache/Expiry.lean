/-
**Expiry across restarts.**

A copy of a value carries the expiry it was written with, in memory, in the index and on the store, and
several copies of one key may carry different ones. A `Life` is a cache, its state and the writes made
so far; a rebuild replaces the cache by one over the same store.

* `Provenance`: every copy is one that some write made, with the expiry of that write;
* `served_unexpired`: what `get` answers was written with an expiry that is `0` or yet to come, and a
  write with a non-zero TTL makes no copy that never expires.

The clock readings are arbitrary, also from one life to the next.
-/

import RivetCache.Cache.Coherence

set_option linter.unusedSectionVars false

namespace RivetCache

open Library

variable {σ : Type}

/-- A write that `put` accepted, with the TTL that applied to it. -/
structure Written where
  key : String
  value : List UInt8
  ttl : Duration
  pinned : Bool
  now : Nat

/-- The expiry of a write. -/
def Written.expiresAt (written : Written) : Nat := expiryAt written.now written.ttl

/-- The entry a write makes. -/
def Written.entry (written : Written) : StoredEntry :=
  ⟨written.value, written.expiresAt, written.pinned⟩

/-- A cache, its state, and the writes made so far over its store, newest first. -/
structure Life (σ : Type) where
  cache : ContextCache σ
  state : CacheState σ
  writes : List Written

/-- One event in the life of a store: a call, or a rebuild of the cache. -/
inductive LifeEvent (σ : Type) where
  | call (call : Call)
  | rebuild (next : ContextCache σ) (amb : Ambient)

namespace Life

/-- The write of a call, if it is a `put` that succeeds with a value. -/
def written (life : Life σ) : Call → List Written
  | .put amb key value ttl pinned =>
      match (life.cache.put amb key value ttl pinned life.state).1 with
      | .error _ => []
      | .ok () =>
          if value.isEmpty then []
          else [⟨key, value, ttl.getD life.cache.defaultTtl, pinned, amb.now⟩]
  | _ => []

def step (event : LifeEvent σ) (life : Life σ) : Life σ :=
  match event with
  | .call call =>
      { life with
        state := life.cache.step call life.state
        writes := life.written call ++ life.writes }
  | .rebuild next amb =>
      { life with cache := next, state := (next.fromBuilder amb life.state.store).2 }

/-- No store call fails, and a rebuild succeeds and is over the same store; capacities and default
TTL may change. -/
def Allowed (event : LifeEvent σ) (life : Life σ) : Prop :=
  match event with
  | .call call => call.ambient.Faultless
  | .rebuild next amb => amb.Faultless ∧ next.store = life.cache.store ∧
      next.keyStrategy = life.cache.keyStrategy ∧
      (next.fromBuilder amb life.state.store).1 = .ok ()

/-- A first cache, over a store that holds nothing. -/
def Begins (contents : σ → String → Option StoredEntry) (life : Life σ) : Prop :=
  life.writes = [] ∧ ∃ amb stored, amb.Faultless ∧ (∀ key, contents stored key = none) ∧
    life.cache.fromBuilder amb stored = (.ok (), life.state)

/-- **Provenance**: every copy is one that a write made. -/
structure Provenance (contents : σ → String → Option StoredEntry) (life : Life σ) : Prop where
  coherent : life.cache.AllCoherent contents life.state
  copies : ∀ key copy, (life.cache.slot contents life.state key).Holds copy →
    ∃ written ∈ life.writes, written.key = key ∧ written.entry = copy

variable {contents : σ → String → Option StoredEntry} {domain : String → Prop} {life : Life σ}

theorem provenance_begins (backed : life.cache.Backed contents domain)
    (begins : Begins contents life) : Provenance contents life := by
  obtain ⟨_, amb, stored, faultless, empty, built⟩ := begins
  obtain ⟨construction, _⟩ := ContextCache.fromBuilder_slot backed faultless.quiet built
  refine ⟨construction.coherent, fun key copy held => ?_⟩
  rcases held with held | held
  · rw [construction.cold] at held
    cases held
  · have there := construction.kept key copy held
    rw [empty] at there
    cases there

/-- A successful `put` of a value is recorded, with the entry it writes. -/
theorem written_put {amb : Ambient} {key : String} {value : List UInt8} {ttl : Option Duration}
    {pinned : Bool} (succeeded : (life.cache.put amb key value ttl pinned life.state).1 = .ok ())
    (nonempty : value ≠ []) :
    ∃ written ∈ life.written (.put amb key value ttl pinned),
      written.key = key ∧ written.entry = life.cache.putEntry amb value ttl pinned := by
  have filled : value.isEmpty = false := by
    cases value with
    | nil => exact (nonempty rfl).elim
    | cons _ _ => rfl
  unfold written
  simp only [succeeded, filled, Bool.false_eq_true, if_false]
  exact ⟨_, List.mem_singleton_self _, rfl, rfl⟩

/-- **One call**: no copy appears but of the value it writes. -/
theorem provenance_call (backed : life.cache.Backed contents domain) {call : Call}
    (faultless : call.ambient.Faultless) (provenance : Provenance contents life) :
    Provenance contents (life.step (.call call)) := by
  refine ⟨ContextCache.step_coherent backed faultless.quiet provenance.coherent,
    fun key copy held => ?_⟩
  have older : (life.cache.slot contents life.state key).Holds copy →
      ∃ written ∈ life.written call ++ life.writes, written.key = key ∧ written.entry = copy := by
    intro before
    obtain ⟨written, logged, same⟩ := provenance.copies key copy before
    exact ⟨written, List.mem_append_right _ logged, same⟩
  have indexed := provenance.coherent.indexed backed
  generalize effect : life.cache.slot contents (life.cache.step call life.state) key = after
  have slot_step := ContextCache.step_slot backed faultless.quiet indexed key
  have here : after.Holds copy := effect ▸ held
  rw [effect] at slot_step
  cases slot_step with
  | elsewhere _ unconcerned fades => exact older (fades.holds here)
  | idle nothing => exact older here
  | get amb result _ called accepted own => exact older (own.holds here)
  | emptied deleting => exact (Slot.not_holds_empty copy here).elim
  | put amb value ttl pinned result _ called accepted nonempty own =>
      subst called
      rcases own.holds here with before | same
      · exact older before
      · have quiet : amb.Quiet := Ambient.Faultless.quiet faultless
        obtain ⟨outcome, next, done, touches, _⟩ :=
          ContextCache.put_slot backed quiet indexed accepted nonempty ttl pinned
        have succeeded : outcome = .ok () := touches.own.succeeded (faultless .write)
        obtain ⟨written, logged, at_key, entry⟩ :=
          written_put (by rw [done, succeeded]) nonempty
        exact ⟨written, List.mem_append_left _ logged, at_key, entry.trans same.symm⟩

/-- **One rebuild**: the new cache holds no copy but what was on the store. -/
theorem provenance_rebuild {next : ContextCache σ} {amb : Ambient}
    (backed : next.Backed contents domain) (faultless : amb.Faultless)
    (same_store : next.store = life.cache.store)
    (succeeded : (next.fromBuilder amb life.state.store).1 = .ok ())
    (provenance : Provenance contents life) :
    Provenance contents (life.step (.rebuild next amb)) := by
  have built : next.fromBuilder amb life.state.store =
      (.ok (), (next.fromBuilder amb life.state.store).2) := by rw [← succeeded]
  obtain ⟨construction, _⟩ := ContextCache.fromBuilder_slot backed faultless.quiet built
  refine ⟨construction.coherent, fun key copy held => ?_⟩
  rcases held with held | held
  · have impossible := (construction.cold key).symm.trans held
    cases impossible
  · refine provenance.copies key copy (Or.inr ?_)
    have there := construction.kept key copy held
    show life.cache.held contents life.state key = some copy
    have injected : life.cache.store ≠ none := by
      intro none_injected
      have absent : next.held contents (next.fromBuilder amb life.state.store).2 key = none := by
        unfold ContextCache.held
        rw [same_store, none_injected]
      have present : next.held contents (next.fromBuilder amb life.state.store).2 key =
          some copy := held
      rw [absent] at present
      cases present
    obtain ⟨store, injected⟩ := Option.ne_none_iff_exists'.mp injected
    unfold ContextCache.held
    rw [injected]
    exact there

/-- A rebuilt cache is backed as the first one was. -/
theorem backed_rebuild {next : ContextCache σ} (same_store : next.store = life.cache.store)
    (same_keys : next.keyStrategy = life.cache.keyStrategy)
    (backed : life.cache.Backed contents domain) : next.Backed contents domain :=
  ⟨fun store injected => backed.mapLike store (same_store ▸ injected),
    fun key accepted => backed.accepts key (same_keys ▸ accepted)⟩

/-- **Provenance holds throughout.** -/
theorem provenance_reached {start : Life σ} (backed : start.cache.Backed contents domain)
    (begins : Begins contents start) (reached : Reaches Life.step Life.Allowed start life) :
    Provenance contents life ∧ life.cache.Backed contents domain := by
  refine reached.invariant (fun life => Provenance contents life ∧
    life.cache.Backed contents domain) ⟨provenance_begins backed begins, backed⟩
    fun event life held allowed => ?_
  cases event with
  | call call => exact ⟨provenance_call held.2 allowed held.1, held.2⟩
  | rebuild next amb =>
      obtain ⟨faultless, same_store, same_keys, succeeded⟩ := allowed
      have still := backed_rebuild same_store same_keys held.2
      exact ⟨provenance_rebuild still faultless same_store succeeded held.1, still⟩

/-- **No expired copy is ever served.** What `get` answers was written with an expiry that is `0` or
later than the reading of the clock; and a copy that never expires was written with a zero TTL. -/
theorem served_unexpired {start : Life σ} (backed : start.cache.Backed contents domain)
    (begins : Begins contents start) (reached : Reaches Life.step Life.Allowed start life) :
    (∀ (amb : Ambient) (key : String) (value : List UInt8), amb.Faultless →
      (life.cache.get amb key life.state).1 = .ok (some value) →
        ∃ written ∈ life.writes, written.key = key ∧ written.value = value ∧
          (written.expiresAt = 0 ∨ amb.now < written.expiresAt)) ∧
    ∀ key copy, (life.cache.slot contents life.state key).Holds copy →
      ∃ written ∈ life.writes, written.key = key ∧ written.entry = copy ∧
        (written.ttl.isZero = false → copy.expiresAt ≠ 0) := by
  obtain ⟨provenance, backed⟩ := provenance_reached backed begins reached
  refine ⟨fun amb key value faultless answered => ?_, fun key copy held => ?_⟩
  · by_cases accepted : life.cache.keyStrategy.Accepts key
    · obtain ⟨result, after, done, touches, _⟩ :=
        ContextCache.get_slot backed faultless.quiet accepted life.state
      rw [done] at answered
      have same : result = .ok (some value) := answered
      subst same
      obtain ⟨entry, value_eq, live, held⟩ := touches.own.answer
      have copy : (life.cache.slot contents life.state key).Holds entry :=
        held.imp id And.left
      obtain ⟨written, logged, at_key, made⟩ := provenance.copies key entry copy
      refine ⟨written, logged, at_key, ?_, ?_⟩
      · exact (congrArg StoredEntry.value made).trans value_eq
      · have expiry : written.expiresAt = entry.expiresAt := congrArg StoredEntry.expiresAt made
        rw [expiry]
        exact isExpired_false_iff.mp live
    · obtain ⟨error, done⟩ := ContextCache.get_idle amb life.state accepted
      rw [done] at answered
      cases answered
  · obtain ⟨written, logged, at_key, made⟩ := provenance.copies key copy held
    refine ⟨written, logged, at_key, made, fun positive => ?_⟩
    rw [← made]
    exact expiryAt_ne_zero positive

/-- A value written for three seconds, read after a restart with larger tiers. -/
theorem served_unexpired_after_rebuild :
    let cache := ContextCache.volatile 4 4
    let start : Life VolatileStore :=
      ⟨cache, (cache.fromBuilder (Ambient.plain 5) VolatileStore.new).2, []⟩
    let put := Call.put (Ambient.plain 7) (repeatedKey 'a') [1, 2] (some (Duration.fromSecs 3)) false
    let life := (start.step (.call put)).step
      (.rebuild (ContextCache.volatile 8 8) (Ambient.plain 8))
    (life.cache.get (Ambient.plain 9) (repeatedKey 'a') life.state).1 = .ok (some [1, 2]) ∧
      ∃ written ∈ life.writes, written.key = repeatedKey 'a' ∧ written.value = [1, 2] ∧
        (written.expiresAt = 0 ∨ 9 < written.expiresAt) := by
  intro cache start put life
  have answered : (life.cache.get (Ambient.plain 9) (repeatedKey 'a') life.state).1 =
      .ok (some [1, 2]) := by decide
  have begins : Begins VolatileStore.contents start :=
    ⟨rfl, Ambient.plain 5, VolatileStore.new, Ambient.plain_faultless 5, fun _ => rfl, rfl⟩
  have reached : Reaches Life.step Life.Allowed start life :=
    .step (.step .refl (Ambient.plain_faultless 7)) ⟨Ambient.plain_faultless 8, rfl, rfl, by decide⟩
  exact ⟨answered, (served_unexpired (ContextCache.volatile_backed 4 4) begins reached).1
    (Ambient.plain 9) (repeatedKey 'a') [1, 2] (Ambient.plain_faultless 9) answered⟩

end Life

end RivetCache
