/-
**`lib.rs`: the context cache.**

A `ContextCache` keeps values in memory and, through an injected `PersistentStore`, in a persistent
tier it indexes in memory. Each public operation is a function of the state under the `Inner` lock
(`CacheState`, which also holds the store's own state and the metrics recorded) and of what the call
meets outside it (`Ambient`): the clock reading, the order in which the hash maps are iterated, the
answers of the eviction policy, and the store calls that fail.

The functions are in the order of the source. `get` and `put` are cut where the source moves from one
tier to the next; `invalidate` and `clear` are cut where the source takes the lock, since their store
call is made outside it.
-/

import RivetCache.Store
import RivetCache.Library.Fallible

set_option linter.unusedSectionVars false

namespace RivetCache

open Library

/-! ### State -/

/-- `CacheStats`; the last four are filled in by `stats`. -/
structure CacheStats where
  memoryHits : Nat := 0
  diskHits : Nat := 0
  misses : Nat := 0
  writes : Nat := 0
  memoryEvictions : Nat := 0
  diskEvictions : Nat := 0
  expirations : Nat := 0
  corruptions : Nat := 0
  memoryEntries : Nat := 0
  diskEntries : Nat := 0
  memoryBytes : Nat := 0
  diskBytes : Nat := 0
  deriving DecidableEq, Repr

/-- `MemoryRecord`. -/
structure MemoryRecord where
  value : List UInt8
  expiresAt : Nat
  pinned : Bool
  lastAccess : Nat
  deriving DecidableEq, Repr

/-- `Inner`, with the state of the injected store and the recorded metrics, newest first. -/
structure CacheState (σ : Type) where
  memory : Table String MemoryRecord
  disk : Table String StoreRecord
  memoryBytes : Nat
  diskBytes : Nat
  tick : Nat
  stats : CacheStats
  store : σ
  events : List CacheEvent

/-- The configuration of a `ContextCache`. -/
structure ContextCache (σ : Type) where
  maxMemoryBytes : Nat
  maxDiskBytes : Nat
  defaultTtl : Duration
  store : Option (PersistentStore σ)
  keyStrategy : KeyStrategy

/-- The two eviction loops. -/
inductive CacheTier where
  | memory
  | disk
  deriving DecidableEq

/-- The places where an operation calls the store. -/
inductive StoreSite where
  | loadIndex
  | removeAtLoad (key : String)
  | read
  | removeCorrupt
  | removeMismatched
  | removeExpired
  | removeVictim (round : Nat)
  | write
  | removeInvalidated
  | clear
  deriving DecidableEq

/-- What one call meets outside the lock. The iteration order of a hash map is arbitrary and may
differ from round to round of an eviction loop; a policy may answer differently each time it is
asked; a store call may fail, and then leaves the store as it was. -/
structure Ambient where
  now : Nat
  order : CacheTier → Nat → List EvictionCandidate → List EvictionCandidate
  order_perm : ∀ tier round candidates, (order tier round candidates).Perm candidates
  policy : CacheTier → Nat → EvictionPolicy
  fault : StoreSite → Option IoError

/-- No store call fails. -/
def Ambient.Faultless (amb : Ambient) : Prop := ∀ site, amb.fault site = none

/-- Every eviction is `LruEviction`'s. -/
def Ambient.UsesLru (amb : Ambient) : Prop := ∀ tier round, amb.policy tier round = lruEviction

/-- Least-recently-used eviction, no failing store call, hash maps iterated as listed. -/
def Ambient.plain (now : Nat) : Ambient where
  now := now
  order _ _ candidates := candidates
  order_perm _ _ candidates := List.Perm.refl candidates
  policy _ _ := lruEviction
  fault _ := none

/-- As `plain`, with one failing store call. -/
def Ambient.failing (now : Nat) (site : StoreSite) (error : IoError) : Ambient :=
  { Ambient.plain now with fault := fun other => if other = site then some error else none }

variable {σ : Type}

namespace CacheState

/-- `Inner::default`, over a store. -/
def initial (store : σ) : CacheState σ where
  memory := ∅
  disk := ∅
  memoryBytes := 0
  diskBytes := 0
  tick := 0
  stats := {}
  store := store
  events := []

/-- `MetricsSink::record`. -/
@[simps] def record (event : CacheEvent) (s : CacheState σ) : CacheState σ :=
  { s with events := event :: s.events }

/-- An event that is recorded unless its count is zero. -/
@[simps] def recordCount (event : Nat → CacheEvent) (count : Nat) (s : CacheState σ) :
    CacheState σ :=
  { s with events := if count > 0 then event count :: s.events else s.events }

/-- An update of the statistics. -/
@[simps] def count (update : CacheStats → CacheStats) (s : CacheState σ) : CacheState σ :=
  { s with stats := update s.stats }

/-- `next_tick`. -/
@[simps] def nextTick (s : CacheState σ) : CacheState σ :=
  { s with tick := satAdd s.tick 1 }

/-- Remove a memory record and give its bytes back. -/
def forgetMemory (key : String) (s : CacheState σ) : CacheState σ :=
  match s.memory.lookup key with
  | none => s
  | some record =>
      { s with
        memory := s.memory.erase key
        memoryBytes := satSub s.memoryBytes record.value.length }

/-- Remove an index record and give `storedBytes` back. -/
@[simps] def forgetDisk (key : String) (storedBytes : Nat) (s : CacheState σ) : CacheState σ :=
  { s with disk := s.disk.erase key, diskBytes := satSub s.diskBytes storedBytes }

/-- Refresh the access tick of a memory record. -/
@[simps] def touchMemory (key : String) (record : MemoryRecord) (s : CacheState σ) :
    CacheState σ :=
  { s with memory := s.memory.insert key { record with lastAccess := s.tick } }

/-- Refresh the access tick of an index record. -/
@[simps] def touchDisk (key : String) (record : StoreRecord) (s : CacheState σ) : CacheState σ :=
  { s with disk := s.disk.insert key { record with lastAccess := s.tick } }

/-- Add an index record. -/
@[simps] def indexRecord (record : StoreRecord) (s : CacheState σ) : CacheState σ :=
  { s with
    disk := s.disk.insert record.key record
    diskBytes := satAdd s.diskBytes record.storedBytes }

/-- `insert_memory_locked`. -/
def insertMemoryLocked (key : String) (value : List UInt8) (expiresAt : Nat) (pinned : Bool)
    (s : CacheState σ) : CacheState σ :=
  let s := (s.forgetMemory key).nextTick
  { s with
    memory := s.memory.insert key ⟨value, expiresAt, pinned, s.tick⟩
    memoryBytes := satAdd s.memoryBytes value.length }

/-- The unpinned memory records, as candidates. -/
def memoryCandidates (s : CacheState σ) : List EvictionCandidate :=
  (s.memory.entries.filter fun entry => !entry.2.pinned).map fun entry =>
    ⟨entry.1, entry.2.lastAccess, entry.2.value.length⟩

/-- The unpinned index records, as candidates. -/
def diskCandidates (s : CacheState σ) : List EvictionCandidate :=
  (s.disk.entries.filter fun entry => !entry.2.pinned).map fun entry =>
    ⟨entry.1, entry.2.lastAccess, entry.2.storedBytes⟩

end CacheState

/-! ### Store calls and eviction -/

/-- Call the store, unless the call fails. -/
def callStore {α : Type} (amb : Ambient) (site : StoreSite) (call : σ → Except IoError α × σ)
    (s : CacheState σ) : Except IoError α × CacheState σ :=
  match amb.fault site with
  | some error => (.error error, s)
  | none => ((call s.store).1, { s with store := (call s.store).2 })

/-- The policy's choice among the candidates of a round. -/
def Ambient.selectVictim (amb : Ambient) (tier : CacheTier) (round : Nat)
    (candidates : List EvictionCandidate) : Option EvictionCandidate :=
  match (amb.policy tier round).chooseVictim (amb.order tier round candidates) with
  | none => none
  | some index => (amb.order tier round candidates)[index]?

/-- The loop of `evict_memory_locked` and `evict_disk_locked`: while the tier is over its capacity,
evict the policy's victim. The fuel is the number of records (`evictLoop_settled`). -/
def evictLoop {S : Type} (exceeds : S → Bool) (victim : Nat → S → Option EvictionCandidate)
    (evict : Nat → EvictionCandidate → S → Except IoError Unit × S) :
    Nat → Nat → S → Except IoError Nat × S
  | 0, _, s => (.ok 0, s)
  | fuel + 1, round, s =>
      if exceeds s then
        match victim round s with
        | none => (.ok 0, s)
        | some candidate =>
            andThen (evict round candidate s) fun _ s =>
              andThen (evictLoop exceeds victim evict fuel (round + 1) s) fun evicted s =>
                (.ok (satAdd evicted 1), s)
      else (.ok 0, s)

namespace ContextCache

/-- `remove_disk_record_locked`: the index first, the store second, the byte count last. -/
def removeDiskRecordLocked (cache : ContextCache σ) (amb : Ambient) (site : StoreSite)
    (key : String) (expired : Bool) (s : CacheState σ) : Except IoError Unit × CacheState σ :=
  match s.disk.lookup key with
  | none => (.ok (), s)
  | some record =>
      let dropped := { s with disk := s.disk.erase key }
      andThen
        (match cache.store with
          | none => (.ok (), dropped)
          | some store => callStore amb site (store.remove key) dropped)
        fun _ s =>
          (.ok (),
            { s with
              diskBytes := satSub s.diskBytes record.storedBytes
              stats.expirations :=
                if expired then satAdd s.stats.expirations 1 else s.stats.expirations })

/-- One round of `evict_memory_locked`. -/
def evictMemoryRecord (candidate : EvictionCandidate) (s : CacheState σ) :
    Except IoError Unit × CacheState σ :=
  (.ok (), (s.forgetMemory candidate.key).count fun stats =>
    { stats with memoryEvictions := satAdd stats.memoryEvictions 1 })

/-- `evict_memory_locked`. -/
def evictMemoryLocked (cache : ContextCache σ) (amb : Ambient) (s : CacheState σ) :
    Except IoError Nat × CacheState σ :=
  evictLoop (fun s => decide (cache.maxMemoryBytes < s.memoryBytes))
    (fun round s => amb.selectVictim .memory round s.memoryCandidates)
    (fun _ candidate s => evictMemoryRecord candidate s)
    s.memory.entries.length 0 s

/-- One round of `evict_disk_locked`. -/
def evictDiskRecord (cache : ContextCache σ) (amb : Ambient) (round : Nat)
    (candidate : EvictionCandidate) (s : CacheState σ) : Except IoError Unit × CacheState σ :=
  andThen (cache.removeDiskRecordLocked amb (.removeVictim round) candidate.key false s) fun _ s =>
    (.ok (), s.count fun stats => { stats with diskEvictions := satAdd stats.diskEvictions 1 })

/-- `evict_disk_locked`. -/
def evictDiskLocked (cache : ContextCache σ) (amb : Ambient) (s : CacheState σ) :
    Except IoError Nat × CacheState σ :=
  evictLoop (fun s => decide (cache.maxDiskBytes < s.diskBytes))
    (fun round s => amb.selectVictim .disk round s.diskCandidates)
    (cache.evictDiskRecord amb) s.disk.entries.length 0 s

/-! ### Construction -/

/-- The loop of `from_builder` over the snapshot: expired records leave the store, the others are
indexed. -/
def loadRecords (store : PersistentStore σ) (amb : Ambient) :
    List StoreRecord → CacheState σ → Except IoError Nat × CacheState σ
  | [], s => (.ok 0, s)
  | record :: rest, s =>
      if isExpired record.expiresAt amb.now then
        andThen (callStore amb (.removeAtLoad record.key) (store.remove record.key) s) fun _ s =>
          andThen (loadRecords store amb rest (s.count fun stats =>
              { stats with expirations := satAdd stats.expirations 1 })) fun expirations s =>
            (.ok (satAdd expirations 1), s)
      else
        loadRecords store amb rest
          ({ s with tick := max s.tick record.lastAccess }.indexRecord record)

/-- `from_builder`, over a store. -/
def fromBuilder (cache : ContextCache σ) (amb : Ambient) (store : σ) :
    Except IoError Unit × CacheState σ :=
  if cache.maxDiskBytes > 0 then
    match cache.store with
    | none => (.ok (), CacheState.initial store)
    | some injected =>
        andThen (callStore amb .loadIndex injected.loadIndex (CacheState.initial store))
          fun snapshot s =>
            andThen (loadRecords injected amb snapshot.entries (s.count fun stats =>
                { stats with corruptions := satAdd stats.corruptions snapshot.corruptions }))
              fun expirations s =>
                andThen (cache.evictDiskLocked amb s) fun evictions s =>
                  (.ok (), ((s.recordCount .corruption snapshot.corruptions).recordCount
                    .expiration expirations).recordCount .persistentEviction evictions)
  else (.ok (), CacheState.initial store)

/-! ### Reading -/

/-- A value short enough for the memory tier. -/
def fitsMemory (cache : ContextCache σ) (value : List UInt8) : Bool :=
  decide (0 < cache.maxMemoryBytes) && decide (value.length ≤ cache.maxMemoryBytes)

/-- A value short enough for the persistent tier. -/
def fitsDisk (cache : ContextCache σ) (value : List UInt8) : Bool :=
  decide (0 < cache.maxDiskBytes) && decide (value.length ≤ cache.maxDiskBytes)

/-- The insertion into memory with which `get` and `put` end, where the value fits. -/
def admitMemory (cache : ContextCache σ) (amb : Ambient) (key : String) (entry : StoredEntry)
    (s : CacheState σ) : Except IoError Nat × CacheState σ :=
  if cache.fitsMemory entry.value then
    cache.evictMemoryLocked amb
      (s.insertMemoryLocked key entry.value entry.expiresAt entry.pinned)
  else (.ok 0, s)

/-- A miss. -/
def countMiss (s : CacheState σ) : CacheState σ :=
  s.count fun stats => { stats with misses := satAdd stats.misses 1 }

/-- The two branches of `get` that discard an unreadable or mismatched entry: the store first, the
index second. -/
def discardCorrupt (amb : Ambient) (site : StoreSite) (store : PersistentStore σ) (key : String)
    (record : StoreRecord) (s : CacheState σ) :
    Except IoError (Option (List UInt8)) × CacheState σ :=
  andThen (callStore amb site (store.remove key) s) fun _ s =>
    (.ok none,
      ((countMiss ((s.forgetDisk key record.storedBytes).count fun stats =>
        { stats with corruptions := satAdd stats.corruptions 1 })).record
          (.corruption 1)).record .miss)

/-- `get`, a persistent hit: refresh the index record, promote the entry to memory. -/
def servePersistent (cache : ContextCache σ) (amb : Ambient) (key : String) (expirations : Nat)
    (record : StoreRecord) (entry : StoredEntry) (s : CacheState σ) :
    Except IoError (Option (List UInt8)) × CacheState σ :=
  let hit := (s.nextTick.touchDisk key record).count fun stats =>
    { stats with diskHits := satAdd stats.diskHits 1 }
  andThen (cache.admitMemory amb key entry hit) fun evictions s =>
    (.ok (some entry.value),
      ((s.recordCount .expiration expirations).recordCount .memoryEviction evictions).record
        .persistentHit)

/-- `get`, once memory has nothing to serve. `expirations` counts the memory record that expired. -/
def getPersistent (cache : ContextCache σ) (amb : Ambient) (key : String) (expirations : Nat)
    (s : CacheState σ) : Except IoError (Option (List UInt8)) × CacheState σ :=
  match s.disk.lookup key with
  | none => (.ok none, ((countMiss s).recordCount .expiration expirations).record .miss)
  | some record =>
      if isExpired record.expiresAt amb.now then
        andThen (cache.removeDiskRecordLocked amb .removeExpired key true s) fun _ s =>
          (.ok none, ((countMiss s).record (.expiration (satAdd expirations 1))).record .miss)
      else
        match cache.store with
        | none => (.ok none, (countMiss (s.forgetDisk key record.storedBytes)).record .miss)
        | some store =>
            match callStore amb .read (store.get key) s with
            | (.ok (some entry), s) =>
                if entry.expiresAt != record.expiresAt || entry.pinned != record.pinned then
                  discardCorrupt amb .removeMismatched store key record s
                else cache.servePersistent amb key expirations record entry s
            | (.ok none, s) =>
                (.ok none, (countMiss (s.forgetDisk key record.storedBytes)).record .miss)
            | (.error error, s) =>
                if isCorruptionError error then
                  discardCorrupt amb .removeCorrupt store key record s
                else (.error error, s)

/-- `get`. -/
def get (cache : ContextCache σ) (amb : Ambient) (key : String) (s : CacheState σ) :
    Except IoError (Option (List UInt8)) × CacheState σ :=
  match cache.keyStrategy.validate key with
  | .error error => (.error error, s)
  | .ok () =>
      match s.memory.lookup key with
      | none => cache.getPersistent amb key 0 s
      | some record =>
          if isExpired record.expiresAt amb.now then
            cache.getPersistent amb key 1 ((s.forgetMemory key).count fun stats =>
              { stats with expirations := satAdd stats.expirations 1 })
          else
            (.ok (some record.value),
              ((s.nextTick.touchMemory key record).count fun stats =>
                { stats with memoryHits := satAdd stats.memoryHits 1 }).record .memoryHit)

/-! ### Writing -/

/-- `put`, before the persistent write: an expired index record of the key is removed. -/
def dropExpired (cache : ContextCache σ) (amb : Ambient) (key : String) (s : CacheState σ) :
    Except IoError Nat × CacheState σ :=
  match s.disk.lookup key with
  | none => (.ok 0, s)
  | some existing =>
      if isExpired existing.expiresAt amb.now then
        andThen (cache.removeDiskRecordLocked amb .removeExpired key true s) fun _ s => (.ok 1, s)
      else (.ok 0, s)

/-- `put`, the persistent write of a key the index does not hold. -/
def writePersistent (cache : ContextCache σ) (amb : Ambient) (store : PersistentStore σ)
    (key : String) (entry : StoredEntry) (s : CacheState σ) :
    Except IoError Nat × CacheState σ :=
  andThen (callStore amb .write (store.putIfAbsent key entry) s) fun outcome s =>
    if outcome.inserted then
      cache.evictDiskLocked amb (s.nextTick.indexRecord
        ⟨key, outcome.storedBytes, entry.expiresAt, entry.pinned, s.nextTick.tick⟩)
    else (.ok 0, s)

/-- `put`, the persistent tier: the counts of expired and evicted records. -/
def putPersistent (cache : ContextCache σ) (amb : Ambient) (key : String) (entry : StoredEntry)
    (s : CacheState σ) : Except IoError (Nat × Nat) × CacheState σ :=
  if cache.fitsDisk entry.value then
    match cache.store with
    | none => (.ok (0, 0), s)
    | some store =>
        andThen (cache.dropExpired amb key s) fun expirations s =>
          match s.disk.lookup key with
          | some _ => (.ok (expirations, 0), s)
          | none =>
              andThen (cache.writePersistent amb store key entry s) fun evictions s =>
                (.ok (expirations, evictions), s)
  else (.ok (0, 0), s)

/-- The entry `put` writes. -/
def putEntry (cache : ContextCache σ) (amb : Ambient) (value : List UInt8)
    (ttl : Option Duration) (pinned : Bool) : StoredEntry :=
  ⟨value, expiryAt amb.now (ttl.getD cache.defaultTtl), pinned⟩

/-- `put`. -/
def put (cache : ContextCache σ) (amb : Ambient) (key : String) (value : List UInt8)
    (ttl : Option Duration) (pinned : Bool) (s : CacheState σ) :
    Except IoError Unit × CacheState σ :=
  match cache.keyStrategy.validate key with
  | .error error => (.error error, s)
  | .ok () =>
      if value.isEmpty then (.ok (), s)
      else
        let entry := cache.putEntry amb value ttl pinned
        andThen (cache.putPersistent amb key entry s) fun ⟨expirations, diskEvictions⟩ s =>
          andThen (cache.admitMemory amb key entry s) fun memoryEvictions s =>
            (.ok (), ((((s.count fun stats => { stats with writes := satAdd stats.writes 1 }
              ).recordCount .expiration expirations).recordCount .memoryEviction
                memoryEvictions).recordCount .persistentEviction diskEvictions).record .write)

/-- The arguments of one item of `put_many`. -/
structure PutRequest where
  key : String
  value : List UInt8
  ttl : Option Duration
  pinned : Bool

/-- `get_many`: each lookup reads the clock. -/
def getMany (cache : ContextCache σ) :
    List (Ambient × String) → CacheState σ →
      Except IoError (List (Option (List UInt8))) × CacheState σ
  | [], s => (.ok [], s)
  | (amb, key) :: rest, s =>
      andThen (cache.get amb key s) fun value s =>
        andThen (cache.getMany rest s) fun values s => (.ok (value :: values), s)

/-- The loop of a batch: every key validates before the first call. -/
def validateAll (cache : ContextCache σ) : List String → Except IoError Unit
  | [] => .ok ()
  | key :: rest =>
      match cache.keyStrategy.validate key with
      | .error error => .error error
      | .ok () => cache.validateAll rest

/-- The second loop of `put_many`. -/
def putEach (cache : ContextCache σ) :
    List (Ambient × PutRequest) → CacheState σ → Except IoError Unit × CacheState σ
  | [], s => (.ok (), s)
  | (amb, item) :: rest, s =>
      andThen (cache.put amb item.key item.value item.ttl item.pinned s) fun _ s =>
        cache.putEach rest s

/-- `put_many`. -/
def putMany (cache : ContextCache σ) (items : List (Ambient × PutRequest)) (s : CacheState σ) :
    Except IoError Unit × CacheState σ :=
  match cache.validateAll (items.map fun item => item.2.key) with
  | .error error => (.error error, s)
  | .ok () => cache.putEach items s

/-! ### Invalidation -/

/-- `invalidate`, the store call made outside the lock. -/
def removeStored (cache : ContextCache σ) (amb : Ambient) (key : String) (s : CacheState σ) :
    Except IoError Unit × CacheState σ :=
  match cache.store with
  | none => (.ok (), s)
  | some store => callStore amb .removeInvalidated (store.remove key) s

/-- `invalidate`, the index update made under the lock. -/
def dropKey (key : String) (s : CacheState σ) : CacheState σ :=
  let s := s.forgetMemory key
  (match s.disk.lookup key with
    | none => s
    | some record => s.forgetDisk key record.storedBytes).record (.invalidation 1)

/-- `invalidate`. -/
def invalidate (cache : ContextCache σ) (amb : Ambient) (key : String) (s : CacheState σ) :
    Except IoError Unit × CacheState σ :=
  match cache.keyStrategy.validate key with
  | .error error => (.error error, s)
  | .ok () => andThen (cache.removeStored amb key s) fun _ s => (.ok (), dropKey key s)

/-- `clear`, the store call made outside the lock. -/
def clearStored (cache : ContextCache σ) (amb : Ambient) (s : CacheState σ) :
    Except IoError Unit × CacheState σ :=
  match cache.store with
  | none => (.ok (), s)
  | some store => callStore amb .clear store.clear s

/-- `clear`, the index update made under the lock. -/
def dropAll (s : CacheState σ) : CacheState σ :=
  { s with memory := ∅, disk := ∅, memoryBytes := 0, diskBytes := 0 }.record .clear

/-- `clear`. -/
def clear (cache : ContextCache σ) (amb : Ambient) (s : CacheState σ) :
    Except IoError Unit × CacheState σ :=
  andThen (cache.clearStored amb s) fun _ s => (.ok (), dropAll s)

/-- `stats`. -/
def stats (s : CacheState σ) : CacheStats :=
  { s.stats with
    memoryEntries := s.memory.entries.length
    diskEntries := s.disk.entries.length
    memoryBytes := s.memoryBytes
    diskBytes := s.diskBytes }

end ContextCache

end RivetCache
