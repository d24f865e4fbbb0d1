/-
**`kv.rs`: tiers and the engine.**

A `KvEngine` reads and writes blocks in an ordered list of tiers. Its operations are programs over the
calls they make (`Library.Program`): readings of the clock, calls of tiers, updates of the statistics.
`KvEngine.handle` answers these calls from the engine's tiers, so that `Program.run` is an operation run
alone, and `Library.Pool` the operations of several threads, whose tier calls interleave.

The tiers are trait objects: tier `i` has a state type `τ i` of its own.
-/

import RivetCache.Base
import RivetCache.Library.Program

set_option linter.unusedSectionVars false

namespace RivetCache

open Library

/-! ### Blocks -/

/-- `KvBlockKey`. -/
structure KvBlockKey where
  modelFingerprint : String
  sequenceHash : Vector UInt8 32
  blockIndex : UInt32
  tokenStart : UInt32
  tokenCount : UInt32
  layerStart : UInt32
  layerCount : UInt32
  layoutVersion : UInt32
  deriving DecidableEq

/-- A `Vec<u8>`: its length is a `u64`. -/
structure Payload where
  bytes : List UInt8
  short : bytes.length < 2 ^ 64
  deriving DecidableEq

@[ext] theorem Payload.ext {left right : Payload} (same : left.bytes = right.bytes) :
    left = right := by
  cases left
  cases right
  cases same
  rfl

/-- `KvBlock`. -/
@[ext] structure KvBlock where
  key : KvBlockKey
  bytes : Payload
  deriving DecidableEq

/-- `KvBlock::new`. -/
def KvBlock.new (key : KvBlockKey) (bytes : Payload) : Except IoError KvBlock :=
  if bytes.bytes.isEmpty then .error ⟨.invalidInput, "KV block payload must not be empty"⟩
  else .ok ⟨key, bytes⟩

/-- `KvTierEntry`. -/
@[ext] structure KvTierEntry where
  block : KvBlock
  expiresAt : UInt64
  pinned : Bool
  deriving DecidableEq

/-- `is_expired` of an entry. -/
def KvTierEntry.expired (entry : KvTierEntry) (now : Nat) : Bool :=
  isExpired entry.expiresAt.toNat now

/-! ### The traits -/

/-- `KvTier`, over the state of an implementation. -/
structure KvTier (τ : Type) where
  name : String
  get : KvBlockKey → τ → Except IoError (Option KvTierEntry) × τ
  put : KvTierEntry → τ → Except IoError Unit × τ
  remove : KvBlockKey → τ → Except IoError Unit × τ
  clear : τ → Except IoError Unit × τ
  health : τ → Except IoError Unit × τ

/-- The default `KvTier::clear`. -/
def KvTier.unsupportedClear {τ : Type} (name : String) (state : τ) : Except IoError Unit × τ :=
  (.error ⟨.unsupported, s!"KV tier {name} does not implement clear"⟩, state)

/-- The default `KvTier::health`. -/
def KvTier.healthy {τ : Type} (state : τ) : Except IoError Unit × τ := (.ok (), state)

/-- `KvAllocator`. -/
structure KvAllocator where
  copy : Payload → Except IoError Payload

/-- `VecAllocator`. -/
def vecAllocator : KvAllocator where
  copy bytes := .ok bytes

/-- `KvTransport`: the key, the bytes, the names of the source and of the destination. -/
structure KvTransport where
  transfer : KvBlockKey → Payload → String → String → Except IoError Payload

/-- `CopyTransport`. -/
def copyTransport : KvTransport where
  transfer _ bytes _ _ := .ok bytes

/-- `KvWritePolicy`. -/
inductive KvWritePolicy where
  | primary
  | all
  deriving DecidableEq

/-- `KvTierHealth`. -/
structure KvTierHealth where
  name : String
  healthy : Bool
  error : Option String

/-- `KvEngineStats`. -/
structure KvEngineStats where
  hits : Nat := 0
  misses : Nat := 0
  writes : Nat := 0
  promotions : Nat := 0
  transfers : Nat := 0
  bytesTransferred : Nat := 0
  invalidations : Nat := 0
  expirations : Nat := 0
  prefetches : Nat := 0
  deriving DecidableEq

/-- `PrefetchReport`. -/
structure PrefetchReport where
  requested : Nat
  populated : Nat
  missed : Nat
  deriving DecidableEq

/-! ### The calls an operation makes -/

/-- The calls of an operation. -/
inductive KvOp where
  | now
  | get (tier : Nat) (key : KvBlockKey)
  | put (tier : Nat) (entry : KvTierEntry)
  | remove (tier : Nat) (key : KvBlockKey)
  | clear (tier : Nat)
  | health (tier : Nat)
  | count (update : KvEngineStats → KvEngineStats)
  | stats

/-- What a call answers. -/
def KvOp.Answer : KvOp → Type
  | .now => Nat
  | .get _ _ => Except IoError (Option KvTierEntry)
  | .put _ _ => Except IoError Unit
  | .remove _ _ => Except IoError Unit
  | .clear _ => Except IoError Unit
  | .health _ => Except IoError Unit
  | .count _ => Unit
  | .stats => KvEngineStats

/-- A program over the engine's calls. -/
abbrev KvProgram (α : Type) := Program KvOp KvOp.Answer IoError α

/-- `KvEngineInner`, without the statistics. Reading number `i` of the clock is `clock i`. -/
structure KvEngine (τ : Nat → Type) where
  count : Nat
  tier : (index : Nat) → KvTier (τ index)
  transport : KvTransport
  allocator : KvAllocator
  clock : Nat → Nat
  promoteOnRead : Bool
  writePolicy : KvWritePolicy

/-- The state of the tiers, the statistics, and how often the clock was read. -/
structure KvState (τ : Nat → Type) where
  tiers : (index : Nat) → τ index
  stats : KvEngineStats
  reads : Nat

variable {τ : Nat → Type}

/-- One tier's state is replaced. -/
def KvState.setTier (s : KvState τ) (index : Nat) (state : τ index) : KvState τ :=
  { s with tiers := Function.update s.tiers index state }

namespace KvEngine

/-- How the engine answers a call. -/
def handle (engine : KvEngine τ) : (op : KvOp) → KvState τ → op.Answer × KvState τ
  | .now, s => (engine.clock s.reads, { s with reads := s.reads + 1 })
  | .get index key, s =>
      (((engine.tier index).get key (s.tiers index)).1,
        s.setTier index ((engine.tier index).get key (s.tiers index)).2)
  | .put index entry, s =>
      (((engine.tier index).put entry (s.tiers index)).1,
        s.setTier index ((engine.tier index).put entry (s.tiers index)).2)
  | .remove index key, s =>
      (((engine.tier index).remove key (s.tiers index)).1,
        s.setTier index ((engine.tier index).remove key (s.tiers index)).2)
  | .clear index, s =>
      (((engine.tier index).clear (s.tiers index)).1,
        s.setTier index ((engine.tier index).clear (s.tiers index)).2)
  | .health index, s =>
      (((engine.tier index).health (s.tiers index)).1,
        s.setTier index ((engine.tier index).health (s.tiers index)).2)
  | .count update, s => ((), { s with stats := update s.stats })
  | .stats, s => (s.stats, s)

/-- An operation run alone. -/
def run {α : Type} (engine : KvEngine τ) (program : KvProgram α) (s : KvState τ) :
    Except IoError α × KvState τ :=
  program.run engine.handle s

/-! ### Steps of the operations -/

/-- A reading of the clock. -/
def now : KvProgram Nat := Program.ask KvOp.now

/-- `tier.get(key)?` -/
def tierGet (index : Nat) (key : KvBlockKey) : KvProgram (Option KvTierEntry) :=
  .call (.get index key) .done

/-- `tier.put(entry)?` -/
def tierPut (index : Nat) (entry : KvTierEntry) : KvProgram Unit :=
  .call (.put index entry) .done

/-- `tier.remove(key)?` -/
def tierRemove (index : Nat) (key : KvBlockKey) : KvProgram Unit :=
  .call (.remove index key) .done

/-- An update of the statistics. -/
def countStats (update : KvEngineStats → KvEngineStats) : KvProgram Unit :=
  .call (.count update) fun _ => .done (.ok ())

def countExpiration : KvProgram Unit :=
  countStats fun stats => { stats with expirations := satAdd stats.expirations 1 }

/-- An expired entry is removed where it was seen. -/
def discardExpired (index : Nat) (key : KvBlockKey) : KvProgram Unit := do
  tierRemove index key
  countExpiration

variable (engine : KvEngine τ)

/-- `require_tier`. -/
def requireTier (index : Nat) : Except IoError Unit :=
  if index ≥ engine.count then .error ⟨.invalidInput, s!"KV tier index {index} is out of range"⟩
  else .ok ()

/-- `put_entry_to`. -/
def putEntryTo (index : Nat) (entry : KvTierEntry) : KvProgram Unit := do
  .done (engine.requireTier index)
  tierPut index entry

/-- `transfer_entry`, the copy between two different tiers. -/
def copyEntry (entry : KvTierEntry) (source destination : Nat) : KvProgram Unit := do
  let transported ← .done (engine.transport.transfer entry.block.key entry.block.bytes
    (engine.tier source).name (engine.tier destination).name)
  let allocated ← .done (engine.allocator.copy transported)
  tierPut destination ⟨⟨entry.block.key, allocated⟩, entry.expiresAt, entry.pinned⟩
  countStats fun stats =>
    { stats with
      transfers := satAdd stats.transfers 1
      bytesTransferred := satAdd stats.bytesTransferred allocated.bytes.length }

/-- `transfer_entry`. -/
def transferEntry (entry : KvTierEntry) (source destination : Nat) : KvProgram Unit := do
  .done (engine.requireTier source)
  .done (engine.requireTier destination)
  if source = destination then tierPut destination entry
  else engine.copyEntry entry source destination

/-! ### Writing -/

/-- The expiry of a write: the clock is read for a non-zero TTL only. -/
def writeExpiry (ttl : Option Duration) : KvProgram UInt64 :=
  match ttl with
  | none => pure 0
  | some ttl =>
      if ttl.isZero then pure 0
      else do
        let now ← now
        pure (UInt64.ofNat (satAdd now (max ttl.asSecs 1)))

/-- The rollback of `put`: the tiers written so far, errors ignored. -/
def rollBack (key : KvBlockKey) : List Nat → KvProgram Unit
  | [] => pure ()
  | index :: rest => do
      let _ ← (tierRemove index key).attempt
      rollBack key rest

/-- The loop of `put` under `KvWritePolicy::All`; `written` lists the tiers written so far. -/
def putEach (entry : KvTierEntry) : List Nat → List Nat → KvProgram Unit
  | [], _ => pure ()
  | index :: rest, written => do
      match ← (engine.putEntryTo index entry).attempt with
      | .error error => do
          rollBack entry.block.key written
          Program.fail error
      | .ok () => putEach entry rest (written ++ [index])

/-- `put`, once the entry is made. -/
def putEntry (entry : KvTierEntry) : KvProgram Unit :=
  match engine.writePolicy with
  | .primary => engine.putEntryTo 0 entry
  | .all => engine.putEach entry (List.range engine.count) []

/-- `put`. -/
def put (block : KvBlock) (ttl : Option Duration) (pinned : Bool) : KvProgram Unit := do
  let expiresAt ← writeExpiry ttl
  engine.putEntry ⟨block, expiresAt, pinned⟩
  countStats fun stats => { stats with writes := satAdd stats.writes 1 }

/-- `put_to`. -/
def putTo (index : Nat) (block : KvBlock) (ttl : Option Duration) (pinned : Bool) :
    KvProgram Unit := do
  let expiresAt ← writeExpiry ttl
  engine.putEntryTo index ⟨block, expiresAt, pinned⟩
  countStats fun stats => { stats with writes := satAdd stats.writes 1 }

/-! ### Reading -/

/-- The promotion of `get`, tier by tier. -/
def promote (entry : KvTierEntry) (source : Nat) : List Nat → KvProgram Unit
  | [] => pure ()
  | destination :: rest => do
      engine.transferEntry entry source destination
      countStats fun stats => { stats with promotions := satAdd stats.promotions 1 }
      promote entry source rest

/-- `get`, a hit. -/
def serve (entry : KvTierEntry) (index : Nat) : KvProgram (Option KvBlock) := do
  countStats fun stats => { stats with hits := satAdd stats.hits 1 }
  if engine.promoteOnRead && decide (0 < index) then
    engine.promote entry index (List.range index).reverse
  let bytes ← .done (engine.allocator.copy entry.block.bytes)
  pure (some ⟨entry.block.key, bytes⟩)

/-- The loop of `get`. -/
def getFrom (key : KvBlockKey) (now : Nat) : List Nat → KvProgram (Option KvBlock)
  | [] => do
      countStats fun stats => { stats with misses := satAdd stats.misses 1 }
      pure none
  | index :: rest => do
      match ← tierGet index key with
      | none => getFrom key now rest
      | some entry =>
          if entry.expired now then do
            discardExpired index key
            getFrom key now rest
          else engine.serve entry index

/-- `get`. -/
def get (key : KvBlockKey) : KvProgram (Option KvBlock) := do
  let now ← now
  engine.getFrom key now (List.range engine.count)

/-- `move_block`, once the source has answered an entry. -/
def moveEntry (key : KvBlockKey) (source destination : Nat) (removeSource : Bool)
    (entry : KvTierEntry) : KvProgram Bool := do
  let now ← now
  if entry.expired now then do
    discardExpired source key
    pure false
  else do
    engine.transferEntry entry source destination
    if removeSource && decide (source ≠ destination) then tierRemove source key
    pure true

/-- `move_block`. -/
def moveBlock (key : KvBlockKey) (source destination : Nat) (removeSource : Bool) :
    KvProgram Bool := do
  .done (engine.requireTier source)
  .done (engine.requireTier destination)
  match ← tierGet source key with
  | none => pure false
  | some entry => engine.moveEntry key source destination removeSource entry

/-! ### Deleting and pinning -/

/-- The loop of `invalidate`. -/
def removeEach (key : KvBlockKey) : List Nat → KvProgram Unit
  | [] => pure ()
  | index :: rest => do
      tierRemove index key
      removeEach key rest

/-- `invalidate`. -/
def invalidate (key : KvBlockKey) : KvProgram Unit := do
  removeEach key (List.range engine.count)
  countStats fun stats => { stats with invalidations := satAdd stats.invalidations 1 }

/-- The loop of `set_pinned`. -/
def pinEach (key : KvBlockKey) (pinned : Bool) (now : Nat) : Bool → List Nat → KvProgram Bool
  | found, [] => pure found
  | found, index :: rest => do
      match ← tierGet index key with
      | none => pinEach key pinned now found rest
      | some entry =>
          if entry.expired now then do
            discardExpired index key
            pinEach key pinned now found rest
          else do
            tierPut index { entry with pinned := pinned }
            pinEach key pinned now true rest

/-- `set_pinned`. -/
def setPinned (key : KvBlockKey) (pinned : Bool) : KvProgram Bool := do
  let now ← now
  pinEach key pinned now false (List.range engine.count)

/-- The loop of `clear`: every tier is cleared, the first error is kept. -/
def clearEach : Option IoError → List Nat → KvProgram (Option IoError)
  | first, [] => pure first
  | first, index :: rest => do
      let answer : Except IoError Unit ← Program.ask (KvOp.clear index)
      match answer with
      | .ok () => clearEach first rest
      | .error error => clearEach (first.or (some error)) rest

/-- `clear`. -/
def clear : KvProgram Unit := do
  match ← clearEach none (List.range engine.count) with
  | some error => Program.fail error
  | none => pure ()

/-- `health`. -/
def health : List Nat → KvProgram (List KvTierHealth)
  | [] => pure []
  | index :: rest => do
      let answer : Except IoError Unit ← Program.ask (KvOp.health index)
      let others ← health rest
      match answer with
      | .ok () => pure (⟨(engine.tier index).name, true, none⟩ :: others)
      | .error error => pure (⟨(engine.tier index).name, false, some error.message⟩ :: others)

/-! ### Prefetching -/

/-- `prefetch_worker`, the search for a source. -/
def findSource (key : KvBlockKey) (now destination : Nat) :
    List Nat → KvProgram (Option (Nat × KvTierEntry))
  | [] => pure none
  | source :: rest =>
      if source = destination then findSource key now destination rest
      else do
        match ← tierGet source key with
        | none => findSource key now destination rest
        | some entry =>
            if entry.expired now then do
              discardExpired source key
              findSource key now destination rest
            else pure (some (source, entry))

/-- `prefetch_worker`, a key that the destination does not hold: is it populated? -/
def fetchKey (key : KvBlockKey) (now destination : Nat) : KvProgram Bool := do
  match ← findSource key now destination (List.range engine.count) with
  | none => pure false
  | some (source, entry) => do
      engine.transferEntry entry source destination
      pure true

/-- `prefetch_worker`, one key: is it populated? -/
def prefetchKey (key : KvBlockKey) (destination : Nat) : KvProgram Bool := do
  let now ← now
  match ← tierGet destination key with
  | none => engine.fetchKey key now destination
  | some entry =>
      if entry.expired now then do
        discardExpired destination key
        engine.fetchKey key now destination
      else pure true

/-- The loop of `prefetch_worker`, with the counts of populated and missed keys. -/
def prefetchEach (destination : Nat) : List KvBlockKey → Nat → Nat → KvProgram (Nat × Nat)
  | [], populated, missed => pure (populated, missed)
  | key :: rest, populated, missed => do
      if ← engine.prefetchKey key destination then
        prefetchEach destination rest (satAdd populated 1) missed
      else prefetchEach destination rest populated (satAdd missed 1)

/-- `prefetch_worker`. -/
def prefetchWorker (keys : List KvBlockKey) (destination : Nat) : KvProgram PrefetchReport := do
  .done (engine.requireTier destination)
  let (populated, missed) ← engine.prefetchEach destination keys 0 0
  countStats fun stats => { stats with prefetches := satAdd stats.prefetches keys.length }
  pure ⟨keys.length, populated, missed⟩

end KvEngine

end RivetCache
