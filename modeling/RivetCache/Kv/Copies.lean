/-
**What the engine writes, it has read.**

Promotion, movement, pinning and prefetching all read an entry from one tier and write it to another, in
separate calls. `KvFact` is what an operation can know: a clock reading, an entry read for a key, a removal
made. Every operation but `put` writes only what it has read (`informed_*`), up to a `view` of the entries
that the transport and the allocator preserve (`Preserves`). The same lemmas serve an operation run alone
(`Program.run_informed`) and one whose calls interleave with others (`Pool.informed`).
-/

import RivetCache.Kv.Tier

set_option linter.unusedSectionVars false

namespace RivetCache

open Library

/-- The calls of the engine's interface. -/
inductive KvCall where
  | put (block : KvBlock) (ttl : Option Duration) (pinned : Bool)
  | get (key : KvBlockKey)
  | moveBlock (key : KvBlockKey) (source destination : Nat) (removeSource : Bool)
  | setPinned (key : KvBlockKey) (pinned : Bool)
  | prefetch (keys : List KvBlockKey) (destination : Nat)
  | invalidate (key : KvBlockKey)

/-- What an operation can know. -/
inductive KvFact (V : Type) where
  | time (now : Nat)
  | seen (key : KvBlockKey) (view : V)
  | removed (tier : Nat) (key : KvBlockKey)

variable {τ : Nat → Type} {V : Type}

namespace KvEngine

/-- What an answer teaches. An entry that was read is known under the key asked for and under its own. -/
def learns (engine : KvEngine τ) (view : KvTierEntry → V) : (op : KvOp) → op.Answer → KvFact V → Prop
  | .now, now, fact => fact = .time now
  | .get index key, answer, fact => index < engine.count ∧ ∃ entry, answer = .ok (some entry) ∧
      (fact = .seen key (view entry) ∨ fact = .seen entry.block.key (view entry))
  | .remove index key, answer, fact => answer = .ok () ∧ fact = .removed index key
  | _, _, _ => False

/-- A put needs to have seen the entry it writes. -/
def needs (view : KvTierEntry → V) : KvOp → KvFact V → Prop
  | .put _ entry, fact => fact = .seen entry.block.key (view entry)
  | _, _ => False

/-- The transport and the allocator, where they succeed, copy. -/
structure Copies (engine : KvEngine τ) : Prop where
  transport : ∀ key bytes source destination transported,
    engine.transport.transfer key bytes source destination = .ok transported → transported = bytes
  allocator : ∀ bytes allocated, engine.allocator.copy bytes = .ok allocated → allocated = bytes

/-- A copy made through the transport and the allocator, and a change of the pin, keep the view. -/
structure Preserves (engine : KvEngine τ) (view : KvTierEntry → V) : Prop where
  copied : ∀ (entry : KvTierEntry) source destination transported allocated,
    engine.transport.transfer entry.block.key entry.block.bytes source destination =
      .ok transported → engine.allocator.copy transported = .ok allocated →
    view ⟨⟨entry.block.key, allocated⟩, entry.expiresAt, entry.pinned⟩ = view entry
  pinned : ∀ (entry : KvTierEntry) pinned, view { entry with pinned := pinned } = view entry

variable {engine : KvEngine τ} {view : KvTierEntry → V} {known : KvFact V → Prop}

theorem of_requireTier {index : Nat} {value : Unit} (checked : engine.requireTier index = .ok value) :
    index < engine.count := by
  unfold requireTier at checked
  split at checked
  · cases checked
  · omega

/-! ### Single calls -/

/-- No conclusion. -/
abbrev anything {α : Type} : α → (KvFact V → Prop) → Prop := fun _ _ => True

theorem informed_now : now.Informed (engine.learns view) (needs view)
    (fun value known => known (.time value)) known :=
  ⟨fun _ needed => needed.elim, fun _ => Or.inr rfl⟩

theorem informed_countStats (update : KvEngineStats → KvEngineStats) :
    (countStats update).Informed (engine.learns view) (needs view) anything known :=
  ⟨fun _ needed => needed.elim, fun _ => trivial⟩

theorem informed_tierGet {index : Nat} (inside : index < engine.count) (key : KvBlockKey) :
    (tierGet index key).Informed (engine.learns view) (needs view)
      (fun answer known => ∀ entry, answer = some entry →
        known (.seen key (view entry)) ∧ known (.seen entry.block.key (view entry))) known := by
  refine ⟨fun _ needed => needed.elim, fun answer => Program.informed_done ?_⟩
  rintro value rfl entry rfl
  exact ⟨Or.inr ⟨inside, entry, rfl, Or.inl rfl⟩, Or.inr ⟨inside, entry, rfl, Or.inr rfl⟩⟩

theorem informed_tierPut {index : Nat} {entry : KvTierEntry}
    (seen : known (.seen entry.block.key (view entry))) :
    (tierPut index entry).Informed (engine.learns view) (needs view) anything known := by
  refine ⟨?_, fun answer => Program.informed_done fun _ _ => trivial⟩
  rintro fact rfl
  exact seen

theorem informed_tierRemove (index : Nat) (key : KvBlockKey) :
    (tierRemove index key).Informed (engine.learns view) (needs view)
      (fun _ known => known (.removed index key)) known := by
  refine ⟨fun _ needed => needed.elim, fun answer => Program.informed_done ?_⟩
  rintro value rfl
  exact Or.inr ⟨rfl, rfl⟩

theorem informed_discardExpired (index : Nat) (key : KvBlockKey) :
    (discardExpired index key).Informed (engine.learns view) (needs view) anything known :=
  Program.informed_bind (informed_tierRemove index key) fun _ _ _ _ => informed_countStats _

/-! ### Transfers -/

section Transfers

variable (keeps : engine.Preserves view)

include keeps

theorem informed_copyEntry {entry : KvTierEntry} (source destination : Nat)
    (seen : known (.seen entry.block.key (view entry))) :
    (engine.copyEntry entry source destination).Informed (engine.learns view) (needs view) anything
      known := by
  unfold copyEntry
  refine Program.informed_done_bind fun transported transfer => ?_
  refine Program.informed_done_bind fun allocated copy => ?_
  refine Program.informed_bind (informed_tierPut ?_) fun _ _ _ _ => informed_countStats _
  rw [keeps.copied entry _ _ transported allocated transfer copy]
  exact seen

theorem informed_transferEntry {entry : KvTierEntry} (source destination : Nat)
    (seen : known (.seen entry.block.key (view entry))) :
    (engine.transferEntry entry source destination).Informed (engine.learns view) (needs view)
      anything known := by
  unfold transferEntry
  refine Program.informed_done_bind fun _ _ => Program.informed_done_bind fun _ _ => ?_
  split
  · exact informed_tierPut seen
  · exact informed_copyEntry keeps source destination seen

/-! ### Reading -/

theorem informed_promote {entry : KvTierEntry} (source : Nat) (tiers : List Nat)
    (seen : known (.seen entry.block.key (view entry))) :
    (engine.promote entry source tiers).Informed (engine.learns view) (needs view) anything known := by
  induction tiers generalizing known with
  | nil => trivial
  | cons destination rest ih =>
      unfold promote
      refine Program.informed_bind (informed_transferEntry keeps source destination seen)
        fun _ more grows _ => ?_
      exact Program.informed_bind (informed_countStats _) fun _ _ grows' _ =>
        ih (grows' _ (grows _ seen))

/-- **What `get` returns**: the bytes of an entry read for the key, not expired at a clock reading. -/
def Served (engine : KvEngine τ) (view : KvTierEntry → V) (key : KvBlockKey)
    (answer : Option KvBlock) (known : KvFact V → Prop) : Prop :=
  ∀ block, answer = some block → ∃ now entry bytes, known (.time now) ∧
    known (.seen key (view entry)) ∧ entry.expired now = false ∧
    engine.allocator.copy entry.block.bytes = .ok bytes ∧ block = ⟨entry.block.key, bytes⟩

theorem informed_serve {entry : KvTierEntry} {key : KvBlockKey} {now : Nat} (index : Nat)
    (time : known (.time now)) (asked : known (.seen key (view entry)))
    (seen : known (.seen entry.block.key (view entry))) (unexpired : entry.expired now = false) :
    (engine.serve entry index).Informed (engine.learns view) (needs view) (engine.Served view key)
      known := by
  have ending : ∀ known : KvFact V → Prop, known (.time now) → known (.seen key (view entry)) →
      Program.Informed (engine.learns view) (needs view) (engine.Served view key) known
        (do
          let bytes ← .done (engine.allocator.copy entry.block.bytes)
          pure (some ⟨entry.block.key, bytes⟩)) := by
    intro known time asked
    refine Program.informed_done_bind fun bytes copy => Program.informed_pure ?_
    rintro block ⟨⟩
    exact ⟨now, entry, bytes, time, asked, unexpired, copy, rfl⟩
  unfold serve
  refine Program.informed_bind (informed_countStats _) fun _ more grows _ => ?_
  split
  · refine Program.informed_bind (informed_promote keeps index _ (grows _ seen))
      fun _ more' grows' _ => ?_
    exact ending more' (grows' _ (grows _ time)) (grows' _ (grows _ asked))
  · exact ending more (grows _ time) (grows _ asked)

theorem informed_getFrom (key : KvBlockKey) {now : Nat} {tiers : List Nat}
    (inside : ∀ index ∈ tiers, index < engine.count) (time : known (.time now)) :
    (engine.getFrom key now tiers).Informed (engine.learns view) (needs view)
      (engine.Served view key) known := by
  induction tiers generalizing known with
  | nil =>
      unfold getFrom
      refine Program.informed_bind (informed_countStats _) fun _ _ _ _ => Program.informed_pure ?_
      rintro block ⟨⟩
  | cons index rest ih =>
      have others : ∀ other ∈ rest, other < engine.count := fun other member =>
        inside other (List.mem_cons_of_mem _ member)
      unfold getFrom
      refine Program.informed_bind (informed_tierGet (inside index List.mem_cons_self) key)
        fun answer more grows read => ?_
      cases answer with
      | none => exact ih others (grows _ time)
      | some entry =>
          obtain ⟨asked, seen⟩ := read entry rfl
          simp only
          split
          case isTrue _ =>
            exact Program.informed_bind (informed_discardExpired index key) fun _ _ grows' _ =>
              ih others (grows' _ (grows _ time))
          case isFalse unexpired =>
            exact informed_serve keeps index (grows _ time) asked seen
              (Bool.not_eq_true _ ▸ unexpired)

/-- **`get`** copies what it reads, and serves what it reads. -/
theorem informed_get (key : KvBlockKey) :
    (engine.get key).Informed (engine.learns view) (needs view) (engine.Served view key) known :=
  Program.informed_bind informed_now fun _ _ _ time =>
    informed_getFrom keeps key (fun _ member => List.mem_range.mp member) time

/-! ### Moving and pinning -/

theorem informed_moveEntry {key : KvBlockKey} {entry : KvTierEntry} (source destination : Nat)
    (removeSource : Bool) (seen : known (.seen entry.block.key (view entry))) :
    (engine.moveEntry key source destination removeSource entry).Informed (engine.learns view)
      (needs view) anything known := by
  unfold moveEntry
  refine Program.informed_bind informed_now fun now more grows _ => ?_
  split
  · exact Program.informed_bind (informed_discardExpired source key) fun _ _ _ _ => trivial
  · refine Program.informed_bind (informed_transferEntry keeps source destination (grows _ seen))
      fun _ _ _ _ => ?_
    split
    · exact Program.informed_bind (informed_tierRemove source key) fun _ _ _ _ => trivial
    · trivial

/-- **`move_block`** copies what it reads. -/
theorem informed_moveBlock (key : KvBlockKey) (source destination : Nat) (removeSource : Bool) :
    (engine.moveBlock key source destination removeSource).Informed (engine.learns view) (needs view)
      anything known := by
  unfold moveBlock
  refine Program.informed_done_bind fun _ checked => Program.informed_done_bind fun _ _ => ?_
  refine Program.informed_bind (informed_tierGet (of_requireTier checked) key)
    fun answer _ _ read => ?_
  cases answer with
  | none => trivial
  | some entry =>
      exact informed_moveEntry keeps source destination removeSource (read entry rfl).2

theorem informed_pinEach (key : KvBlockKey) (pinned : Bool) (now : Nat) (found : Bool)
    {tiers : List Nat} (inside : ∀ index ∈ tiers, index < engine.count) :
    (pinEach key pinned now found tiers).Informed (engine.learns view) (needs view) anything known := by
  induction tiers generalizing known found with
  | nil => trivial
  | cons index rest ih =>
      have others : ∀ other ∈ rest, other < engine.count := fun other member =>
        inside other (List.mem_cons_of_mem _ member)
      unfold pinEach
      refine Program.informed_bind (informed_tierGet (inside index List.mem_cons_self) key)
        fun answer more grows read => ?_
      cases answer with
      | none => exact ih found others
      | some entry =>
          simp only
          split
          · exact Program.informed_bind (informed_discardExpired index key) fun _ _ _ _ =>
              ih found others
          · refine Program.informed_bind (informed_tierPut ?_) fun _ _ _ _ => ih true others
            rw [keeps.pinned entry pinned]
            exact (read entry rfl).2

/-- **`set_pinned`** copies what it reads. -/
theorem informed_setPinned (key : KvBlockKey) (pinned : Bool) :
    (engine.setPinned key pinned).Informed (engine.learns view) (needs view) anything known :=
  Program.informed_bind informed_now fun now _ _ _ =>
    informed_pinEach keeps key pinned now false fun _ member => List.mem_range.mp member

/-! ### Prefetching -/

omit keeps in
theorem informed_findSource (key : KvBlockKey) (now destination : Nat) {tiers : List Nat}
    (inside : ∀ index ∈ tiers, index < engine.count) :
    (findSource key now destination tiers).Informed (engine.learns view) (needs view)
      (fun found known => ∀ source entry, found = some (source, entry) →
        known (.seen entry.block.key (view entry))) known := by
  induction tiers generalizing known with
  | nil =>
      refine Program.informed_pure ?_
      rintro source entry ⟨⟩
  | cons index rest ih =>
      have others : ∀ other ∈ rest, other < engine.count := fun other member =>
        inside other (List.mem_cons_of_mem _ member)
      unfold findSource
      split
      · exact ih others
      · refine Program.informed_bind (informed_tierGet (inside index List.mem_cons_self) key)
          fun answer more grows read => ?_
        cases answer with
        | none => exact ih others
        | some entry =>
            simp only
            split
            · exact Program.informed_bind (informed_discardExpired index key) fun _ _ _ _ =>
                ih others
            · refine Program.informed_pure ?_
              rintro source found ⟨⟩
              exact (read entry rfl).2

theorem informed_fetchKey (key : KvBlockKey) (now destination : Nat) :
    (engine.fetchKey key now destination).Informed (engine.learns view) (needs view) anything known := by
  unfold fetchKey
  refine Program.informed_bind (informed_findSource key now destination
    fun _ member => List.mem_range.mp member) fun found more grows read => ?_
  cases found with
  | none => trivial
  | some found =>
      exact Program.informed_bind
        (informed_transferEntry keeps found.1 destination (read found.1 found.2 rfl))
        fun _ _ _ _ => trivial

theorem informed_prefetchKey (key : KvBlockKey) {destination : Nat}
    (inside : destination < engine.count) :
    (engine.prefetchKey key destination).Informed (engine.learns view) (needs view) anything known := by
  unfold prefetchKey
  refine Program.informed_bind informed_now fun now _ _ _ => ?_
  refine Program.informed_bind (informed_tierGet inside key) fun answer _ _ _ => ?_
  cases answer with
  | none => exact informed_fetchKey keeps key now destination
  | some entry =>
      simp only
      split
      · exact Program.informed_bind (informed_discardExpired destination key) fun _ _ _ _ =>
          informed_fetchKey keeps key now destination
      · trivial

theorem informed_prefetchEach {destination : Nat} (inside : destination < engine.count)
    (keys : List KvBlockKey) (populated missed : Nat) :
    (engine.prefetchEach destination keys populated missed).Informed (engine.learns view)
      (needs view) anything known := by
  induction keys generalizing known populated missed with
  | nil => trivial
  | cons key rest ih =>
      unfold prefetchEach
      refine Program.informed_bind (informed_prefetchKey keeps key inside) fun fetched _ _ _ => ?_
      split
      · exact ih _ _
      · exact ih _ _

/-- **`prefetch_worker`** copies what it reads. -/
theorem informed_prefetchWorker (keys : List KvBlockKey) (destination : Nat) :
    (engine.prefetchWorker keys destination).Informed (engine.learns view) (needs view) anything
      known := by
  unfold prefetchWorker
  refine Program.informed_done_bind fun _ checked => ?_
  refine Program.informed_bind (informed_prefetchEach keeps (of_requireTier checked) keys 0 0)
    fun _ _ _ _ => ?_
  exact Program.informed_bind (informed_countStats _) fun _ _ _ _ => trivial

end Transfers

/-! ### Deleting -/

theorem informed_removeEach (key : KvBlockKey) (tiers : List Nat) :
    (removeEach key tiers).Informed (engine.learns view) (needs view)
      (fun _ known => ∀ index ∈ tiers, known (.removed index key)) known := by
  induction tiers generalizing known with
  | nil => exact Program.informed_pure (by simp)
  | cons index rest ih =>
      unfold removeEach
      refine Program.informed_bind (informed_tierRemove index key) fun _ more _ removed => ?_
      refine ih.retain.weaken ?_
      rintro _ last ⟨others, grows⟩ other member
      rcases List.mem_cons.mp member with rfl | member
      · exact grows _ removed
      · exact others other member

/-- **`invalidate`**, where it succeeds, has removed the key from every tier. -/
theorem informed_invalidate (key : KvBlockKey) :
    (engine.invalidate key).Informed (engine.learns view) (needs view)
      (fun _ known => ∀ index < engine.count, known (.removed index key)) known := by
  unfold invalidate
  refine Program.informed_bind (informed_removeEach key _) fun _ more _ removed => ?_
  refine ((informed_countStats _).retain).weaken ?_
  rintro _ last ⟨_, grows⟩ index inside
  exact grows _ (removed index (List.mem_range.mpr inside))

/-! ### Writing -/

theorem informed_rollBack (key : KvBlockKey) (tiers : List Nat) :
    (rollBack key tiers).Informed (engine.learns view) (needs view) anything known := by
  induction tiers generalizing known with
  | nil => trivial
  | cons index rest ih =>
      unfold rollBack
      exact Program.informed_bind (Program.informed_attempt (informed_tierRemove index key))
        fun _ _ _ _ => ih

theorem informed_putEntryTo (index : Nat) {entry : KvTierEntry}
    (seen : known (.seen entry.block.key (view entry))) :
    (engine.putEntryTo index entry).Informed (engine.learns view) (needs view) anything known := by
  unfold putEntryTo
  exact Program.informed_done_bind fun _ _ => informed_tierPut seen

theorem informed_putEach {entry : KvTierEntry} (tiers earlier : List Nat)
    (seen : known (.seen entry.block.key (view entry))) :
    (engine.putEach entry tiers earlier).Informed (engine.learns view) (needs view) anything known := by
  induction tiers generalizing known earlier with
  | nil => trivial
  | cons index rest ih =>
      unfold putEach
      refine Program.informed_bind (Program.informed_attempt (informed_putEntryTo index seen))
        fun outcome _ grows _ => ?_
      cases outcome with
      | error error =>
          exact Program.informed_bind (informed_rollBack _ earlier) fun _ _ _ _ => trivial
      | ok value => exact ih _ (grows _ seen)

/-- **`put`** writes the block it was given. -/
theorem informed_put {block : KvBlock} {pinned : Bool} (ttl : Option Duration)
    (given : ∀ expiresAt, known (.seen block.key (view ⟨block, expiresAt, pinned⟩))) :
    (engine.put block ttl pinned).Informed (engine.learns view) (needs view) anything known := by
  have expiry : (writeExpiry ttl).Informed (engine.learns view) (needs view) anything known := by
    unfold writeExpiry
    split
    · trivial
    · split
      · trivial
      · exact Program.informed_bind informed_now fun _ _ _ _ => trivial
  refine Program.informed_bind expiry fun expiresAt more grows _ => ?_
  have writing : (engine.putEntry ⟨block, expiresAt, pinned⟩).Informed (engine.learns view)
      (needs view) anything more := by
    unfold putEntry
    split
    · exact informed_putEntryTo 0 (grows _ (given expiresAt))
    · exact informed_putEach _ _ (grows _ (given expiresAt))
  exact Program.informed_bind writing fun _ _ _ _ => informed_countStats _

/-! ### The interface -/

/-- The program of a call. -/
def program (engine : KvEngine τ) : KvCall → KvProgram Unit
  | .put block ttl pinned => engine.put block ttl pinned
  | .get key => do
      let _ ← engine.get key
      pure ()
  | .moveBlock key source destination removeSource => do
      let _ ← engine.moveBlock key source destination removeSource
      pure ()
  | .setPinned key pinned => do
      let _ ← engine.setPinned key pinned
      pure ()
  | .prefetch keys destination => do
      let _ ← engine.prefetchWorker keys destination
      pure ()
  | .invalidate key => engine.invalidate key

/-- **Every call writes only the block it was given and what it has read.** -/
theorem informed_program (keeps : engine.Preserves view) (call : KvCall)
    (given : ∀ block ttl pinned expiresAt, call = .put block ttl pinned →
      known (.seen block.key (view ⟨block, expiresAt, pinned⟩))) :
    (engine.program call).Informed (engine.learns view) (needs view) anything known := by
  cases call with
  | put block ttl pinned =>
      exact informed_put ttl fun expiresAt => given block ttl pinned expiresAt rfl
  | get key => exact Program.informed_bind (informed_get keeps key) fun _ _ _ _ => trivial
  | moveBlock key source destination removeSource =>
      exact Program.informed_bind (informed_moveBlock keeps key source destination removeSource)
        fun _ _ _ _ => trivial
  | setPinned key pinned =>
      exact Program.informed_bind (informed_setPinned keeps key pinned) fun _ _ _ _ => trivial
  | prefetch keys destination =>
      exact Program.informed_bind (informed_prefetchWorker keeps keys destination)
        fun _ _ _ _ => trivial
  | invalidate key => exact (informed_invalidate key).weaken fun _ _ _ => trivial

end KvEngine

end RivetCache
