/-
**Concurrent invalidation.**

`put` and `get` hold the lock throughout. `invalidate` and `clear` call the store first, without the
lock, and then take the lock to update the index: between the two steps other threads run. A `Shared`
cache is its state and, for each thread, the deletion it is in the middle of.

* `Undisturbed`: no `put` writes a new record of a key whose deletion is between its two steps;
* `keys_of_undisturbed`: in every run of such steps, whenever no call is in progress, the index lists
  what the store holds;
* `lost_record`: a `put` between the two steps of an `invalidate` leaves an entry on the store that
  the index does not list.
-/

import RivetCache.Cache.Coherence

set_option linter.unusedSectionVars false

namespace RivetCache

open Library

variable {σ : Type}

/-- A deletion between its store call and its index update. -/
inductive Pending where
  | invalidate (key : String)
  | clear
  deriving DecidableEq

/-- The pending deletion is about the key. -/
def Pending.Deletes (key : String) : Pending → Prop
  | .invalidate own => own = key
  | .clear => True

/-- A cache shared by threads. -/
structure Shared (σ : Type) where
  state : CacheState σ
  threads : Nat → Option Pending

/-- The atomic steps: the sections run under the lock, and the store calls made outside it. -/
inductive Section where
  | put (amb : Ambient) (key : String) (value : List UInt8) (ttl : Option Duration) (pinned : Bool)
  | get (amb : Ambient) (key : String)
  | removeStored (amb : Ambient) (key : String)
  | dropKey
  | clearStored (amb : Ambient)
  | dropAll

namespace ContextCache

/-- One atomic step of a thread. -/
def atomic (cache : ContextCache σ) (label : Nat × Section) (shared : Shared σ) : Shared σ :=
  match label with
  | (_, .put amb key value ttl pinned) =>
      { shared with state := (cache.put amb key value ttl pinned shared.state).2 }
  | (_, .get amb key) => { shared with state := (cache.get amb key shared.state).2 }
  | (thread, .removeStored amb key) =>
      match cache.keyStrategy.validate key with
      | .error _ => shared
      | .ok () =>
          match cache.removeStored amb key shared.state with
          | (.error _, s) => { shared with state := s }
          | (.ok (), s) => ⟨s, Function.update shared.threads thread (some (.invalidate key))⟩
  | (thread, .dropKey) =>
      match shared.threads thread with
      | some (.invalidate key) =>
          ⟨dropKey key shared.state, Function.update shared.threads thread none⟩
      | _ => shared
  | (thread, .clearStored amb) =>
      match cache.clearStored amb shared.state with
      | (.error _, s) => { shared with state := s }
      | (.ok (), s) => ⟨s, Function.update shared.threads thread (some .clear)⟩
  | (thread, .dropAll) =>
      match shared.threads thread with
      | some .clear => ⟨dropAll shared.state, Function.update shared.threads thread none⟩
      | _ => shared

/-- Which steps a thread may take: no store call fails, and a thread in the middle of a deletion ends
it first. -/
def Enabled (label : Nat × Section) (shared : Shared σ) : Prop :=
  match label with
  | (thread, .put amb _ _ _ _) => amb.Faultless ∧ shared.threads thread = none
  | (thread, .get amb _) => amb.Faultless ∧ shared.threads thread = none
  | (thread, .removeStored amb _) => amb.Faultless ∧ shared.threads thread = none
  | (thread, .dropKey) => ∃ key, shared.threads thread = some (.invalidate key)
  | (thread, .clearStored amb) => amb.Faultless ∧ shared.threads thread = none
  | (thread, .dropAll) => shared.threads thread = some .clear

/-- Some thread is in the middle of deleting the key. -/
def Deleting (shared : Shared σ) (key : String) : Prop :=
  ∃ thread pending, shared.threads thread = some pending ∧ pending.Deletes key

/-- No call is in progress. -/
def Quiescent (shared : Shared σ) : Prop := ∀ thread, shared.threads thread = none

/-- **The condition**: a `put` that would write a new record of a key finds no deletion of the key in
progress. -/
def Undisturbed (cache : ContextCache σ) (label : Nat × Section) (shared : Shared σ) : Prop :=
  match label with
  | (_, .put amb key value _ _) =>
      cache.persistsValue value = true →
      (∀ record, shared.state.disk.lookup key = some record →
        isExpired record.expiresAt amb.now = true) → ¬ Deleting shared key
  | _ => True

variable {cache : ContextCache σ} {contents : σ → String → Option StoredEntry}
  {domain : String → Prop} {shared : Shared σ}

/-! ### The invariant -/

/-- **The invariant**: a key in the middle of its deletion is not on the store; every other key is
indexed as it is stored. -/
structure Settled (cache : ContextCache σ) (contents : σ → String → Option StoredEntry)
    (domain : String → Prop) (shared : Shared σ) : Prop where
  indexed : Indexed domain shared.state
  gone : ∀ key, Deleting shared key → (cache.slot contents shared.state key).stored = none
  agree : ∀ key, ¬ Deleting shared key →
    (cache.slot contents shared.state key).Coherent cache.persists

/-- A step under the lock, by a thread that is in no deletion. -/
theorem settled_call (backed : cache.Backed contents domain) {call : Call}
    (faultless : call.ambient.Faultless) (settled : cache.Settled contents domain shared)
    (writes : ∀ amb key value ttl pinned, call = .put amb key value ttl pinned →
      cache.persistsValue value = true → Deleting shared key →
        ¬ (cache.slot contents shared.state key).Unlisted amb.now) :
    cache.Settled contents domain { shared with state := cache.step call shared.state } := by
  refine ⟨step_indexed backed faultless.quiet settled.indexed, fun key deleting => ?_,
    fun key idle => ?_⟩
  · have before := settled.gone key deleting
    have effect := step_slot backed faultless.quiet settled.indexed key
    generalize cache.slot contents (cache.step call shared.state) key = next at effect ⊢
    cases effect with
    | elsewhere _ unconcerned fades => exact fades.stored_none before
    | idle nothing => exact before
    | put amb value ttl pinned result _ called accepted nonempty own =>
        exact own.stored_none before fun admitted =>
          writes amb key value ttl pinned called admitted deleting
    | get amb result _ called accepted own => exact own.stored_none before
    | emptied deletion => rfl
  · have before := settled.agree key idle
    have effect := step_slot backed faultless.quiet settled.indexed key
    generalize cache.slot contents (cache.step call shared.state) key = next at effect ⊢
    cases effect with
    | elsewhere _ unconcerned fades => exact fades.coherent before
    | idle nothing => exact before
    | put amb value ttl pinned result _ called accepted nonempty own =>
        exact own.coherent persists_of_persistsValue before
    | get amb result _ called accepted own => exact own.coherent before
    | emptied deletion => exact Slot.coherent_empty _

/-- A thread enters a deletion. -/
theorem deleting_enter (state : CacheState σ) {thread : Nat} {pending : Pending} {key : String}
    (free : shared.threads thread = none) :
    Deleting ⟨state, Function.update shared.threads thread (some pending)⟩ key ↔
      Deleting shared key ∨ pending.Deletes key := by
  constructor
  · rintro ⟨other, found, there, about⟩
    have there : Function.update shared.threads thread (some pending) other = some found := there
    rw [Function.update_apply] at there
    split at there
    · cases there
      exact Or.inr about
    · exact Or.inl ⟨other, found, there, about⟩
  · rintro (⟨other, found, there, about⟩ | about)
    · refine ⟨other, found, ?_, about⟩
      have different : other ≠ thread := by
        rintro rfl
        rw [free] at there
        cases there
      exact (Function.update_of_ne different _ _).trans there
    · exact ⟨thread, pending, Function.update_self _ _ _, about⟩

/-- A thread leaves a deletion: the keys still being deleted were, and no other key was but its own. -/
theorem deleting_leave (state : CacheState σ) {thread : Nat} {pending : Pending} {key : String}
    (inside : shared.threads thread = some pending) :
    (Deleting ⟨state, Function.update shared.threads thread none⟩ key → Deleting shared key) ∧
      (Deleting shared key →
        Deleting ⟨state, Function.update shared.threads thread none⟩ key ∨ pending.Deletes key) := by
  refine ⟨?_, ?_⟩
  · rintro ⟨other, found, there, about⟩
    have there : Function.update shared.threads thread none other = some found := there
    rw [Function.update_apply] at there
    split at there
    · cases there
    · exact ⟨other, found, there, about⟩
  · rintro ⟨other, found, there, about⟩
    by_cases same : other = thread
    · rw [same, inside] at there
      cases there
      exact Or.inr about
    · exact Or.inl ⟨other, found, (Function.update_of_ne same _ _).trans there, about⟩

/-- A deletion's store call: the key, or every key, leaves the store. -/
theorem settled_enter {thread : Nat} {pending : Pending} {after : CacheState σ}
    (free : shared.threads thread = none) (settled : cache.Settled contents domain shared)
    (disk : after.disk = shared.state.disk)
    (deleted : ∀ key, pending.Deletes key → cache.slot contents after key =
      (cache.slot contents shared.state key).unstore)
    (kept : ∀ key, ¬ pending.Deletes key →
      cache.slot contents after key = cache.slot contents shared.state key) :
    cache.Settled contents domain
      ⟨after, Function.update shared.threads thread (some pending)⟩ := by
  refine ⟨fun key record found => settled.indexed key record (disk ▸ found), fun key deleting => ?_,
    fun key idle => ?_⟩
  · by_cases about : pending.Deletes key
    · show (cache.slot contents after key).stored = none
      rw [deleted key about]
      rfl
    · show (cache.slot contents after key).stored = none
      rw [kept key about]
      rcases (deleting_enter after free).mp deleting with before | own
      · exact settled.gone key before
      · exact (about own).elim
  · have outside := mt (deleting_enter after free).mpr idle
    rw [not_or] at outside
    show (cache.slot contents after key).Coherent cache.persists
    rw [kept key outside.2]
    exact settled.agree key outside.1

/-- A deletion's index update: the key, or every key, leaves memory and the index. -/
theorem settled_leave {thread : Nat} {pending : Pending} {after : CacheState σ}
    (inside : shared.threads thread = some pending)
    (settled : cache.Settled contents domain shared)
    (disk : ∀ key record, after.disk.lookup key = some record →
      shared.state.disk.lookup key = some record)
    (deleted : ∀ key, pending.Deletes key → cache.slot contents after key =
      (cache.slot contents shared.state key).forget.unlist)
    (kept : ∀ key, ¬ pending.Deletes key →
      cache.slot contents after key = cache.slot contents shared.state key) :
    cache.Settled contents domain ⟨after, Function.update shared.threads thread none⟩ := by
  refine ⟨fun key record found => settled.indexed key record (disk key record found),
    fun key deleting => ?_, fun key idle => ?_⟩
  · have before := settled.gone key ((deleting_leave after inside).1 deleting)
    show (cache.slot contents after key).stored = none
    by_cases about : pending.Deletes key
    · rw [deleted key about]
      exact before
    · rw [kept key about]
      exact before
  · show (cache.slot contents after key).Coherent cache.persists
    by_cases about : pending.Deletes key
    · have before := settled.gone key ⟨thread, pending, inside, about⟩
      rw [deleted key about]
      exact Slot.coherent_of_none rfl before
    · rw [kept key about]
      refine settled.agree key fun deleting => ?_
      rcases (deleting_leave after inside).2 deleting with still | own
      · exact idle still
      · exact about own

theorem dropKey_disk {s : CacheState σ} {key other : String} {record : StoreRecord}
    (found : (dropKey key s).disk.lookup other = some record) :
    s.disk.lookup other = some record := by
  unfold dropKey at found
  simp only [CacheState.record_disk] at found
  split at found
  · rw [forgetMemory_disk] at found
    exact found
  · rw [CacheState.forgetDisk_disk, lookup_erase_eq, forgetMemory_disk] at found
    split at found
    · cases found
    · exact found

/-- **Every undisturbed step keeps the invariant.** -/
theorem atomic_settled (backed : cache.Backed contents domain) {label : Nat × Section}
    (enabled : Enabled label shared) (undisturbed : cache.Undisturbed label shared)
    (settled : cache.Settled contents domain shared) :
    cache.Settled contents domain (cache.atomic label shared) := by
  obtain ⟨thread, section_⟩ := label
  cases section_ with
  | put amb key value ttl pinned =>
      have faultless : (Call.put amb key value ttl pinned).ambient.Faultless := enabled.1
      refine settled_call backed faultless settled ?_
      intro _ own value_ _ _ same admitted deleting unlisted
      cases same
      refine undisturbed admitted (fun record found => ?_) deleting
      refine unlisted record.label ?_
      show (shared.state.disk.lookup key).map StoreRecord.label = _
      rw [found]
      rfl
  | get amb key =>
      have faultless : (Call.get amb key).ambient.Faultless := enabled.1
      exact settled_call backed faultless settled fun _ _ _ _ _ impossible => by cases impossible
  | removeStored amb key =>
      unfold atomic
      simp only
      split
      case h_1 _ _ => exact settled
      case h_2 accepted =>
        rcases removeStored_slot amb backed (backed.accepts key accepted) shared.state with
          ⟨error, raised, _⟩ | ⟨after, done, slots, disk, _⟩
        · rw [enabled.1 .removeInvalidated] at raised
          cases raised
        · rw [done]
          refine settled_enter enabled.2 settled disk (fun other about => ?_) fun other about => ?_
          · have same : key = other := about
            rw [slots, if_pos same.symm]
          · rw [slots, if_neg fun same => about same.symm]
  | dropKey =>
      obtain ⟨key, inside⟩ := enabled
      unfold atomic
      simp only [inside]
      refine settled_leave inside settled (fun other record found => dropKey_disk found)
        (fun other about => ?_) fun other about => ?_
      · have same : key = other := about
        rw [dropKey_slot, if_pos same.symm]
      · rw [dropKey_slot, if_neg fun same => about same.symm]
  | clearStored amb =>
      unfold atomic
      simp only
      rcases clearStored_slot amb backed shared.state with
        ⟨error, raised, _⟩ | ⟨after, done, slots, disk⟩
      · rw [enabled.1 .clear] at raised
        cases raised
      · rw [done]
        exact settled_enter enabled.2 settled disk (fun other _ => slots other)
          fun other about => (about trivial).elim
  | dropAll =>
      have inside : shared.threads thread = some .clear := enabled
      unfold atomic
      simp only [inside]
      exact settled_leave inside settled (fun other record found => by cases found)
        (fun other _ => dropAll_slot shared.state other) fun other about => (about trivial).elim

/-- **Index and store list the same keys whenever no call is in progress**, in every run in which no
`put` writes a new record of a key in the middle of its deletion. -/
theorem keys_of_undisturbed (cache : ContextCache σ) (persisting : cache.persists = true)
    (backed : cache.Backed contents domain) {amb : Ambient} (faultless : amb.Faultless)
    {stored : σ} {start : CacheState σ} (built : cache.fromBuilder amb stored = (.ok (), start))
    (reached : Reaches cache.atomic
      (fun label shared => Enabled label shared ∧ cache.Undisturbed label shared)
      ⟨start, fun _ => none⟩ shared)
    (quiescent : Quiescent shared) (key : String) :
    shared.state.disk.lookup key = none ↔ contents shared.state.store key = none := by
  have construction := (fromBuilder_slot backed faultless.quiet built).1
  have none_deleting : ∀ other : Shared σ, Quiescent other → ∀ key, ¬ Deleting other key := by
    rintro other idle key ⟨thread, pending, there, _⟩
    rw [idle thread] at there
    cases there
  have initial : cache.Settled contents domain ⟨start, fun _ => none⟩ :=
    ⟨AllCoherent.indexed backed construction.coherent,
      fun key deleting => (none_deleting _ (fun _ => rfl) key deleting).elim,
      fun key _ => construction.coherent key⟩
  have settled := reached.invariant (cache.Settled contents domain) initial
    fun label other held permitted => atomic_settled backed permitted.1 permitted.2 held
  have coherent : cache.AllCoherent contents shared.state :=
    fun key => settled.agree key (none_deleting shared quiescent key)
  exact coherent.keys persisting key

/-- A write before an `invalidate` by another thread, and a write of another key between its steps. -/
theorem keys_of_undisturbed_other :
    let cache := ContextCache.volatile 4 4
    let start : Shared VolatileStore :=
      ⟨(cache.fromBuilder (Ambient.plain 5) VolatileStore.new).2, fun _ => none⟩
    let first := cache.atomic (0, .put (Ambient.plain 6) (repeatedKey 'a') [1] none false) start
    let second := cache.atomic (1, .removeStored (Ambient.plain 7) (repeatedKey 'a')) first
    let third := cache.atomic (0, .put (Ambient.plain 8) (repeatedKey 'b') [2] none false) second
    let last := cache.atomic (1, .dropKey) third
    last.state.disk.lookup (repeatedKey 'b') = none ↔
      VolatileStore.contents last.state.store (repeatedKey 'b') = none := by
  intro cache start first second third last
  have built : cache.fromBuilder (Ambient.plain 5) VolatileStore.new = (.ok (), start.state) := rfl
  have before : ¬ Deleting start (repeatedKey 'a') := by
    rintro ⟨_, _, there, _⟩
    cases there
  have threads : ∀ thread, second.threads thread =
      if thread = 1 then some (.invalidate (repeatedKey 'a')) else none := by
    intro thread
    exact Function.update_apply _ _ _ _
  have between : ¬ Deleting second (repeatedKey 'b') := by
    rintro ⟨thread, pending, there, about⟩
    rw [threads] at there
    split at there
    · cases there
      have same : repeatedKey 'a' = repeatedKey 'b' := about
      exact absurd same (by decide)
    · cases there
  have idle : Quiescent last := by
    intro thread
    by_cases own : thread = 1
    · subst own
      exact Function.update_self 1 (none : Option Pending) third.threads
    · refine (Function.update_of_ne own _ _).trans ?_
      exact (threads thread).trans (if_neg own)
  refine cache.keys_of_undisturbed rfl (volatile_backed 4 4) (Ambient.plain_faultless 5) built
    (Reaches.step (Reaches.step (Reaches.step (Reaches.step .refl ?_) ?_) ?_) ?_) idle
    (repeatedKey 'b')
  · exact ⟨⟨Ambient.plain_faultless 6, rfl⟩, fun _ _ => before⟩
  · exact ⟨⟨Ambient.plain_faultless 7, rfl⟩, trivial⟩
  · exact ⟨⟨Ambient.plain_faultless 8, (threads 0).trans rfl⟩, fun _ _ => between⟩
  · exact ⟨⟨repeatedKey 'a', (threads 1).trans rfl⟩, trivial⟩

/-- **A lost record**: one thread's `invalidate` has called the store, another thread puts the key, the
first thread updates the index. No call is in progress, and the store holds an entry that the index
does not list. -/
theorem lost_record :
    let cache := ContextCache.volatile 4 4
    let start : Shared VolatileStore :=
      ⟨(cache.fromBuilder (Ambient.plain 5) VolatileStore.new).2, fun _ => none⟩
    let first := cache.atomic (1, .removeStored (Ambient.plain 6) (repeatedKey 'a')) start
    let second := cache.atomic (0, .put (Ambient.plain 6) (repeatedKey 'a') [1] none false) first
    let last := cache.atomic (1, .dropKey) second
    Reaches cache.atomic Enabled start last ∧ Quiescent last ∧
      last.state.disk.lookup (repeatedKey 'a') = none ∧
      VolatileStore.contents last.state.store (repeatedKey 'a') = some ⟨[1], 0, false⟩ := by
  intro cache start first second last
  have threads : ∀ thread, second.threads thread =
      if thread = 1 then some (.invalidate (repeatedKey 'a')) else none := by
    intro thread
    exact Function.update_apply _ _ _ _
  refine ⟨Reaches.step (Reaches.step (Reaches.step .refl ?_) ?_) ?_, fun thread => ?_,
    by decide, by decide⟩
  · exact ⟨Ambient.plain_faultless 6, rfl⟩
  · exact ⟨Ambient.plain_faultless 6, (threads 0).trans rfl⟩
  · exact ⟨repeatedKey 'a', (threads 1).trans rfl⟩
  · by_cases own : thread = 1
    · subst own
      exact Function.update_self 1 (none : Option Pending) second.threads
    · refine (Function.update_of_ne own _ _).trans ?_
      exact (threads thread).trans (if_neg own)

/-- The two steps of an `invalidate` of which no other thread runs between are the whole call. -/
theorem invalidate_alone (amb : Ambient) (thread : Nat) {key : String}
    (accepted : cache.keyStrategy.Accepts key)
    (works : (cache.removeStored amb key shared.state).1 = .ok ()) :
    (cache.atomic (thread, .dropKey)
        (cache.atomic (thread, .removeStored amb key) shared)).state =
      (cache.invalidate amb key shared.state).2 := by
  have split : cache.removeStored amb key shared.state =
      (.ok (), (cache.removeStored amb key shared.state).2) := by rw [← works]
  unfold KeyStrategy.Accepts at accepted
  unfold invalidate atomic
  simp only [accepted]
  rw [split]
  simp only [andThen_ok, Function.update_self]

end ContextCache

end RivetCache
