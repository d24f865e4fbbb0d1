/-
**The byte counters and the capacities.**

`memory_bytes` and `disk_bytes` are maintained by saturating increments. Below `2 ^ 64` they equal the
totals they stand for, after every operation; and with a policy that answers while it can, each tier
ends every operation within its capacity, or with nothing left to evict:

* `MemoryBounded`, `DiskBounded`: a tier's counter is its total, and is within capacity unless every
  record is pinned;
* `put_bounded`, `get_bounded`, `invalidate_bounded`, `clear_bounded`: one operation;
* `fromBuilder_bounded`: construction from a snapshot without duplicates;
* `capacity_bound`: every reachable state.

Nothing is assumed of the store but that its calls do not fail; what it answers is arbitrary.
-/

import RivetCache.Cache.Run

set_option linter.unusedSectionVars false

namespace RivetCache

open Library

variable {σ : Type}

/-! ### Totals -/

/-- The value bytes held in memory. -/
def memoryTotal (memory : Table String MemoryRecord) : Nat :=
  total (fun record => record.value.length) memory

/-- The stored bytes of the index. -/
def diskTotal (disk : Table String StoreRecord) : Nat :=
  total StoreRecord.storedBytes disk

/-- The byte counter of the index is exact. -/
def DiskCounted (s : CacheState σ) : Prop := s.diskBytes = diskTotal s.disk

/-- A store whose calls do not fail, whatever they answer. -/
structure NeverFails (store : PersistentStore σ) : Prop where
  loadIndex : ∀ stored, ∃ snapshot, (store.loadIndex stored).1 = .ok snapshot
  get : ∀ key stored, ∃ entry, (store.get key stored).1 = .ok entry
  putIfAbsent : ∀ key entry stored, ∃ outcome, (store.putIfAbsent key entry stored).1 = .ok outcome
  remove : ∀ key stored, (store.remove key stored).1 = .ok ()
  clear : ∀ stored, (store.clear stored).1 = .ok ()

namespace ContextCache

/-- The memory counter is the memory total, within capacity unless every record is pinned. -/
structure MemoryBounded (cache : ContextCache σ) (s : CacheState σ) : Prop where
  counted : s.memoryBytes = memoryTotal s.memory
  within : s.memoryBytes ≤ cache.maxMemoryBytes ∨
    ∀ key record, s.memory.lookup key = some record → record.pinned = true

/-- The persistent counter is the index total, within capacity unless every record is pinned. -/
structure DiskBounded (cache : ContextCache σ) (s : CacheState σ) : Prop where
  counted : s.diskBytes = diskTotal s.disk
  within : s.diskBytes ≤ cache.maxDiskBytes ∨
    ∀ key record, s.disk.lookup key = some record → record.pinned = true

variable {cache : ContextCache σ} {amb : Ambient}

theorem MemoryBounded.of_kept {s t : CacheState σ} (bounded : cache.MemoryBounded s)
    (kept : MemoryKept s t) : cache.MemoryBounded t := by
  refine ⟨?_, ?_⟩
  · rw [kept.memoryBytes, kept.memory]
    exact bounded.counted
  · rw [kept.memoryBytes, kept.memory]
    exact bounded.within

theorem DiskBounded.of_kept {s t : CacheState σ} (bounded : cache.DiskBounded s)
    (kept : IndexKept s t) : cache.DiskBounded t := by
  refine ⟨?_, ?_⟩
  · rw [kept.diskBytes, kept.disk]
    exact bounded.counted
  · rw [kept.diskBytes, kept.disk]
    exact bounded.within

/-! ### The memory tier -/

/-- Forgetting a key keeps the counter exact. -/
theorem forgetMemory_counted (key : String) {s : CacheState σ}
    (counted : s.memoryBytes = memoryTotal s.memory) :
    (s.forgetMemory key).memoryBytes = memoryTotal (s.forgetMemory key).memory := by
  unfold CacheState.forgetMemory
  split
  case h_1 _ => exact counted
  case h_2 record found =>
    show satSub s.memoryBytes record.value.length = memoryTotal (s.memory.erase key)
    have parts := total_erase (fun record : MemoryRecord => record.value.length) found
    rw [counted]
    unfold memoryTotal
    rw [← parts, satSub_add_cancel]

theorem forgetMemory_bytes_le (key : String) (s : CacheState σ) :
    (s.forgetMemory key).memoryBytes ≤ s.memoryBytes := by
  unfold CacheState.forgetMemory
  split
  case h_1 _ => exact le_rfl
  case h_2 record _ => exact Nat.sub_le _ _

theorem forgetMemory_bounded (key : String) {s : CacheState σ} (bounded : cache.MemoryBounded s) :
    cache.MemoryBounded (s.forgetMemory key) := by
  refine ⟨forgetMemory_counted key bounded.counted, ?_⟩
  rcases bounded.within with within | pinned
  · exact Or.inl ((forgetMemory_bytes_le key s).trans within)
  · refine Or.inr fun other record found => ?_
    rw [forgetMemory_memory, lookup_erase_eq] at found
    split at found
    · cases found
    · exact pinned other record found

theorem touchMemory_bounded {key : String} {record : MemoryRecord} {s : CacheState σ}
    (found : s.memory.lookup key = some record) (bounded : cache.MemoryBounded s) :
    cache.MemoryBounded (s.touchMemory key record) := by
  refine ⟨?_, ?_⟩
  · show s.memoryBytes = memoryTotal (s.memory.insert key { record with lastAccess := s.tick })
    unfold memoryTotal
    have moved := total_replace (fun record : MemoryRecord => record.value.length) found
      (show ({ record with lastAccess := s.tick } : MemoryRecord).value.length =
        record.value.length from rfl)
    rw [moved]
    exact bounded.counted
  · rcases bounded.within with within | pinned
    · exact Or.inl within
    · refine Or.inr fun other touched here => ?_
      rw [CacheState.touchMemory_memory, lookup_insert_eq] at here
      split at here
      · cases here
        exact pinned key record found
      · exact pinned other touched here

/-- A value of which the other keys' memory bytes leave room below `2 ^ 64`. -/
def MemoryRoom (key : String) (value : List UInt8) (s : CacheState σ) : Prop :=
  memoryTotal (s.memory.erase key) + value.length ≤ u64Max

theorem insertMemoryLocked_counted {key : String} {value : List UInt8} (expiresAt : Nat)
    (pinned : Bool) {s : CacheState σ} (counted : s.memoryBytes = memoryTotal s.memory)
    (room : MemoryRoom key value s) :
    (s.insertMemoryLocked key value expiresAt pinned).memoryBytes =
      memoryTotal (s.insertMemoryLocked key value expiresAt pinned).memory := by
  have erased := forgetMemory_counted key counted
  show satAdd (s.forgetMemory key).memoryBytes value.length =
    memoryTotal ((s.forgetMemory key).memory.insert key ⟨value, expiresAt, pinned, _⟩)
  rw [erased, forgetMemory_memory]
  have absent : (s.memory.erase key).lookup key = none := AList.lookup_erase key s.memory
  unfold MemoryRoom memoryTotal at room
  unfold memoryTotal
  rw [satAdd_of_le room, total_insert_absent _ absent, add_comm]

/-- **Eviction from memory** ends within capacity or with pinned records only. -/
theorem evictMemoryLocked_bounded (cache : ContextCache σ)
    (productive : ∀ round, (amb.policy .memory round).Productive)
    {s : CacheState σ} (counted : s.memoryBytes = memoryTotal s.memory) :
    ∃ evicted after, cache.evictMemoryLocked amb s = (.ok evicted, after) ∧
      cache.MemoryBounded after ∧ DiskKept s after := by
  obtain ⟨evicted, after, done, exact_count, kept, settled⟩ := evictMemoryLocked_ok
    cache amb (I := fun t => t.memoryBytes = memoryTotal t.memory)
    (fun candidate record t holds _ _ => forgetMemory_counted candidate.key holds) counted
  refine ⟨evicted, after, done, ⟨exact_count, ?_⟩, kept⟩
  rcases settled with within | ⟨round, nothing⟩
  · exact Or.inl within
  · exact Or.inr (memoryCandidates_eq_nil (selectVictim_productive (productive round) nothing))

theorem admitMemory_bounded (productive : ∀ round, (amb.policy .memory round).Productive)
    {key : String} {entry : StoredEntry} {s : CacheState σ} (bounded : cache.MemoryBounded s)
    (room : MemoryRoom key entry.value s) :
    ∃ evicted after, cache.admitMemory amb key entry s = (.ok evicted, after) ∧
      cache.MemoryBounded after ∧ DiskKept s after := by
  unfold admitMemory
  split
  case isFalse _ => exact ⟨0, s, rfl, bounded, DiskKept.refl s⟩
  case isTrue _ =>
    obtain ⟨evicted, after, done, settled, kept⟩ := evictMemoryLocked_bounded cache
      productive (insertMemoryLocked_counted entry.expiresAt entry.pinned bounded.counted room)
    exact ⟨evicted, after, done, settled, (insertMemoryLocked_diskKept _ _ _ _ s).trans kept⟩

/-! ### The persistent tier -/

theorem eraseIndex_counted {key : String} {record : StoreRecord} {s : CacheState σ}
    (found : s.disk.lookup key = some record) (counted : s.diskBytes = diskTotal s.disk) :
    satSub s.diskBytes record.storedBytes = diskTotal (s.disk.erase key) := by
  have parts := total_erase StoreRecord.storedBytes found
  rw [counted]
  unfold diskTotal
  rw [← parts, satSub_add_cancel]

theorem forgetDisk_bounded {key : String} {record : StoreRecord} {s : CacheState σ}
    (found : s.disk.lookup key = some record) (bounded : cache.DiskBounded s) :
    cache.DiskBounded (s.forgetDisk key record.storedBytes) := by
  refine ⟨eraseIndex_counted found bounded.counted, ?_⟩
  rcases bounded.within with within | pinned
  · exact Or.inl ((Nat.sub_le _ _).trans within)
  · refine Or.inr fun other kept here => ?_
    rw [CacheState.forgetDisk_disk, lookup_erase_eq] at here
    split at here
    · cases here
    · exact pinned other kept here

theorem Removed.counted {key : String} {record : StoreRecord} {s after : CacheState σ}
    (removed : cache.Removed key s after) (found : s.disk.lookup key = some record)
    (counted : s.diskBytes = diskTotal s.disk) : after.diskBytes = diskTotal after.disk := by
  rw [removed.diskBytes record found, removed.disk]
  exact eraseIndex_counted found counted

theorem Removed.bounded {key : String} {record : StoreRecord} {s after : CacheState σ}
    (removed : cache.Removed key s after) (found : s.disk.lookup key = some record)
    (bounded : cache.DiskBounded s) : cache.DiskBounded after := by
  have dropped := forgetDisk_bounded found bounded
  refine ⟨removed.counted found bounded.counted, ?_⟩
  rw [removed.diskBytes record found, removed.disk]
  exact dropped.within

theorem touchDisk_bounded {key : String} {record : StoreRecord} {s : CacheState σ}
    (found : s.disk.lookup key = some record) (bounded : cache.DiskBounded s) :
    cache.DiskBounded (s.touchDisk key record) := by
  refine ⟨?_, ?_⟩
  · show s.diskBytes = diskTotal (s.disk.insert key { record with lastAccess := s.tick })
    unfold diskTotal
    have moved := total_replace StoreRecord.storedBytes found
      (show ({ record with lastAccess := s.tick } : StoreRecord).storedBytes =
        record.storedBytes from rfl)
    rw [moved]
    exact bounded.counted
  · rcases bounded.within with within | pinned
    · exact Or.inl within
    · refine Or.inr fun other touched here => ?_
      rw [CacheState.touchDisk_disk, lookup_insert_eq] at here
      split at here
      · cases here
        exact pinned key record found
      · exact pinned other touched here

theorem indexRecord_counted (record : StoreRecord) {s : CacheState σ}
    (absent : s.disk.lookup record.key = none) (counted : s.diskBytes = diskTotal s.disk)
    (room : diskTotal s.disk + record.storedBytes ≤ u64Max) :
    (s.indexRecord record).diskBytes = diskTotal (s.indexRecord record).disk := by
  show satAdd s.diskBytes record.storedBytes = diskTotal (s.disk.insert record.key record)
  unfold diskTotal at counted room ⊢
  rw [counted, satAdd_of_le room, total_insert_absent _ absent, add_comm]

/-- **Eviction from the persistent tier** ends within capacity or with pinned records only. -/
theorem evictDiskLocked_bounded (cache : ContextCache σ) (faultless : amb.Faultless)
    (reliable : ∀ store, cache.store = some store → NeverFails store)
    (productive : ∀ round, (amb.policy .disk round).Productive) {s : CacheState σ}
    (counted : s.diskBytes = diskTotal s.disk) :
    ∃ evicted after, cache.evictDiskLocked amb s = (.ok evicted, after) ∧
      cache.DiskBounded after ∧ MemoryKept s after := by
  obtain ⟨evicted, after, done, exact_count, kept, settled⟩ := evictDiskLocked_ok
    cache amb (I := fun t => t.diskBytes = diskTotal t.disk)
    (fun round key _ t _ _ =>
      ⟨faultless _, fun store injected => (reliable store injected).remove key t.store⟩)
    (fun _ _ _ _ holds found _ removed => removed.counted found holds) counted
  refine ⟨evicted, after, done, ⟨exact_count, ?_⟩, kept⟩
  rcases settled with within | ⟨round, nothing⟩
  · exact Or.inl within
  · exact Or.inr (diskCandidates_eq_nil (selectVictim_productive (productive round) nothing))

/-! ### Reading -/

/-- Every call meets a policy that answers while it can. -/
def Productive (amb : Ambient) : Prop := ∀ tier round, (amb.policy tier round).Productive

/-- What one call needs: no failing store call, a productive policy. -/
structure Regular (cache : ContextCache σ) (amb : Ambient) : Prop where
  faultless : amb.Faultless
  productive : Productive amb
  reliable : ∀ store, cache.store = some store → NeverFails store

theorem Regular.removable (regular : cache.Regular amb) (site : StoreSite) (key : String)
    (s : CacheState σ) : cache.Removable amb site key s :=
  ⟨regular.faultless site, fun store injected =>
    (regular.reliable store injected).remove key s.store⟩

/-- Both tiers are bounded. -/
structure Bounded (cache : ContextCache σ) (s : CacheState σ) : Prop where
  memory : cache.MemoryBounded s
  disk : cache.DiskBounded s

theorem Bounded.of_kept {s t : CacheState σ} (bounded : cache.Bounded s) (memory : MemoryKept s t)
    (index : IndexKept s t) : cache.Bounded t :=
  ⟨bounded.memory.of_kept memory, bounded.disk.of_kept index⟩

theorem servePersistent_bounded (regular : cache.Regular amb) {key : String} {expirations : Nat}
    {record : StoreRecord} {entry : StoredEntry} {s : CacheState σ} (bounded : cache.Bounded s)
    (found : s.disk.lookup key = some record) (room : MemoryRoom key entry.value s) :
    cache.Bounded (cache.servePersistent amb key expirations record entry s).2 := by
  unfold servePersistent
  have touched : cache.Bounded ((s.nextTick.touchDisk key record).count fun stats =>
      { stats with diskHits := satAdd stats.diskHits 1 }) :=
    ⟨bounded.memory.of_kept ⟨rfl, rfl⟩,
      (touchDisk_bounded (s := s.nextTick) found (bounded.disk.of_kept ⟨rfl, rfl⟩)).of_kept
        ⟨rfl, rfl⟩⟩
  obtain ⟨evicted, after, done, settled, kept⟩ := admitMemory_bounded
    (regular.productive .memory) touched.memory room
  simp only [done, andThen_ok]
  exact ⟨settled.of_kept ⟨rfl, rfl⟩, touched.disk.of_kept ⟨kept.disk, kept.diskBytes⟩⟩

theorem discardCorrupt_bounded {site : StoreSite} {store : PersistentStore σ} {key : String}
    {record : StoreRecord} {s : CacheState σ} (bounded : cache.Bounded s)
    (found : s.disk.lookup key = some record) :
    cache.Bounded (discardCorrupt amb site store key record s).2 := by
  unfold discardCorrupt
  obtain ⟨stored, frame⟩ := callStore_state amb site (store.remove key) s
  refine andThen_preserves (frame ▸ bounded.of_kept ⟨rfl, rfl⟩ ⟨rfl, rfl⟩) fun _ t called held => ?_
  have same : t = { s with store := stored } := by rw [← frame, called]
  have dropped := forgetDisk_bounded (s := t) (by rw [same]; exact found) held.disk
  exact ⟨held.memory.of_kept ⟨rfl, rfl⟩, dropped.of_kept ⟨rfl, rfl⟩⟩

/-- The room a `get` needs: for the entry its read may promote. -/
def GetRoom (cache : ContextCache σ) (key : String) (s : CacheState σ) : Prop :=
  ∀ store, cache.store = some store → ∀ entry,
    (store.get key s.store).1 = .ok (some entry) → MemoryRoom key entry.value s

theorem getPersistent_bounded (regular : cache.Regular amb) {key : String} {expirations : Nat}
    {s : CacheState σ} (bounded : cache.Bounded s) (room : cache.GetRoom key s) :
    cache.Bounded (cache.getPersistent amb key expirations s).2 := by
  unfold getPersistent
  split
  case h_1 _ => exact bounded.of_kept ⟨rfl, rfl⟩ ⟨rfl, rfl⟩
  case h_2 record found =>
    split
    case isTrue _ =>
      obtain ⟨after, done, removed⟩ := removeDiskRecordLocked_ok true found
        (regular.removable .removeExpired key s)
      rw [done, andThen_ok]
      exact ⟨(bounded.memory.of_kept removed.memory).of_kept ⟨rfl, rfl⟩,
        (removed.bounded found bounded.disk).of_kept ⟨rfl, rfl⟩⟩
    case isFalse _ =>
      have dropped : ∀ stored, cache.Bounded
          ({ s with store := stored }.forgetDisk key record.storedBytes) := fun stored =>
        ⟨bounded.memory.of_kept ⟨rfl, rfl⟩,
          (forgetDisk_bounded found bounded.disk).of_kept ⟨rfl, rfl⟩⟩
      split
      case h_1 _ => exact (dropped s.store).of_kept ⟨rfl, rfl⟩ ⟨rfl, rfl⟩
      case h_2 store injected =>
        have read : callStore amb .read (store.get key) s =
            ((store.get key s.store).1, { s with store := (store.get key s.store).2 }) := by
          unfold callStore
          rw [regular.faultless]
        have here : cache.Bounded { s with store := (store.get key s.store).2 } :=
          bounded.of_kept ⟨rfl, rfl⟩ ⟨rfl, rfl⟩
        rw [read]
        obtain ⟨answer, ok⟩ := (regular.reliable store injected).get key s.store
        rw [ok]
        cases answer with
        | none => exact (dropped _).of_kept ⟨rfl, rfl⟩ ⟨rfl, rfl⟩
        | some entry =>
            simp only
            split
            case isTrue _ => exact discardCorrupt_bounded here found
            case isFalse _ =>
              exact servePersistent_bounded regular here found (room store injected entry ok)

/-- **`get`** keeps both tiers bounded. -/
theorem get_bounded (regular : cache.Regular amb) {key : String} {s : CacheState σ}
    (bounded : cache.Bounded s) (room : cache.GetRoom key s) :
    cache.Bounded (cache.get amb key s).2 := by
  unfold get
  split
  case h_1 _ _ => exact bounded
  case h_2 _ =>
    split
    case h_1 _ => exact getPersistent_bounded regular bounded room
    case h_2 record found =>
      split
      case isTrue _ =>
        have frame := forgetMemory_diskKept key s
        refine getPersistent_bounded regular ⟨(forgetMemory_bounded key bounded.memory).of_kept
          ⟨rfl, rfl⟩, bounded.disk.of_kept ⟨frame.disk, frame.diskBytes⟩⟩ ?_
        intro store injected entry read
        have same : memoryTotal ((s.forgetMemory key).memory.erase key) =
            memoryTotal (s.memory.erase key) := by
          rw [forgetMemory_memory, erase_of_lookup_none (AList.lookup_erase key s.memory)]
        have original := room store injected entry (frame.store ▸ read)
        unfold MemoryRoom at original ⊢
        rw [CacheState.count_memory, same]
        exact original
      case isFalse _ =>
        have touched := touchMemory_bounded (s := s.nextTick) found
          (bounded.memory.of_kept ⟨rfl, rfl⟩)
        exact ⟨touched.of_kept ⟨rfl, rfl⟩, bounded.disk.of_kept ⟨rfl, rfl⟩⟩

/-! ### Writing -/

/-- The bytes the store reports for an entry leave the index total below `2 ^ 64`. -/
def DiskRoom (cache : ContextCache σ) (key : String) (entry : StoredEntry) (s : CacheState σ) :
    Prop :=
  ∀ store, cache.store = some store → ∀ stored,
    stored = s.store ∨ stored = (store.remove key s.store).2 →
      ∀ bytes, (store.putIfAbsent key entry stored).1 = .ok ⟨true, bytes⟩ →
        diskTotal (s.disk.erase key) + bytes ≤ u64Max

/-- The room a `put` needs: for the value in memory, and for the bytes the store reports. -/
structure PutRoom (cache : ContextCache σ) (key : String) (entry : StoredEntry)
    (s : CacheState σ) : Prop where
  memory : MemoryRoom key entry.value s
  disk : cache.DiskRoom key entry s

theorem writePersistent_bounded (regular : cache.Regular amb) {store : PersistentStore σ}
    (injected : cache.store = some store) {key : String} {entry : StoredEntry} {s : CacheState σ}
    (bounded : cache.DiskBounded s) (absent : s.disk.lookup key = none)
    (room : ∀ bytes, (store.putIfAbsent key entry s.store).1 = .ok ⟨true, bytes⟩ →
      diskTotal s.disk + bytes ≤ u64Max) :
    ∃ evictions after, cache.writePersistent amb store key entry s = (.ok evictions, after) ∧
      cache.DiskBounded after ∧ MemoryKept s after := by
  obtain ⟨⟨inserted, bytes⟩, written⟩ :=
    (regular.reliable store injected).putIfAbsent key entry s.store
  unfold writePersistent callStore
  rw [regular.faultless]
  simp only [written, andThen_ok]
  cases inserted with
  | false => exact ⟨0, _, rfl, bounded.of_kept ⟨rfl, rfl⟩, ⟨rfl, rfl⟩⟩
  | true =>
      let arrived : CacheState σ := { s with store := (store.putIfAbsent key entry s.store).2 }
      have counted := indexRecord_counted (s := arrived.nextTick)
        ⟨key, bytes, entry.expiresAt, entry.pinned, arrived.nextTick.tick⟩
        absent bounded.counted (room bytes written)
      obtain ⟨evictions, after, done, settled, kept⟩ :=
        evictDiskLocked_bounded cache regular.faultless regular.reliable
          (regular.productive .disk) counted
      exact ⟨evictions, after, done, settled, ⟨kept.memory, kept.memoryBytes⟩⟩

theorem putPersistent_bounded (regular : cache.Regular amb) {key : String} {entry : StoredEntry}
    {s : CacheState σ} (bounded : cache.Bounded s) (room : cache.PutRoom key entry s) :
    ∃ counts after, cache.putPersistent amb key entry s = (.ok counts, after) ∧
      cache.DiskBounded after ∧ MemoryKept s after := by
  unfold putPersistent
  split
  case isFalse _ => exact ⟨(0, 0), s, rfl, bounded.disk, MemoryKept.refl s⟩
  case isTrue _ =>
    split
    case h_1 _ => exact ⟨(0, 0), s, rfl, bounded.disk, MemoryKept.refl s⟩
    case h_2 store injected =>
      obtain ⟨expirations, t, done, dropped⟩ :=
        dropExpired_ok fun record _ => regular.removable .removeExpired key s
      have fine : cache.DiskBounded t ∧ MemoryKept s t ∧
          (t.store = s.store ∨ t.store = (store.remove key s.store).2) ∧
          (t.disk.lookup key = none → t.disk = s.disk.erase key) := by
        rcases dropped with ⟨rfl, _⟩ | ⟨record, found, _, removed⟩
        · exact ⟨bounded.disk, MemoryKept.refl _, Or.inl rfl,
            fun absent => (erase_of_lookup_none absent).symm⟩
        · refine ⟨removed.bounded found bounded.disk, removed.memory, Or.inr ?_,
            fun _ => removed.disk⟩
          rw [removed.store]
          unfold storeAfterRemove
          rw [injected]
      obtain ⟨held, kept, stored, erased⟩ := fine
      simp only [done, andThen_ok]
      cases found : t.disk.lookup key with
      | some record => exact ⟨_, t, rfl, held, kept⟩
      | none =>
          obtain ⟨evictions, after, wrote, settled, unmoved⟩ :=
            writePersistent_bounded regular injected held found fun bytes written => by
              rw [erased found]
              exact room.disk store injected t.store stored bytes written
          simp only [wrote, andThen_ok]
          exact ⟨_, after, rfl, settled, kept.trans unmoved⟩

/-- **`put`** keeps both tiers bounded. -/
theorem put_bounded (regular : cache.Regular amb) {key : String} {value : List UInt8}
    {ttl : Option Duration} {pinned : Bool} {s : CacheState σ} (bounded : cache.Bounded s)
    (room : cache.PutRoom key (cache.putEntry amb value ttl pinned) s) :
    cache.Bounded (cache.put amb key value ttl pinned s).2 := by
  unfold put
  split
  case h_1 _ _ => exact bounded
  case h_2 _ =>
    split
    case isTrue _ => exact bounded
    case isFalse _ =>
      obtain ⟨⟨expirations, diskEvictions⟩, t, stored, disk, kept⟩ :=
        putPersistent_bounded regular bounded room
      have memory := bounded.memory.of_kept kept
      have moved : MemoryRoom key (cache.putEntry amb value ttl pinned).value t := by
        unfold MemoryRoom
        rw [kept.memory]
        exact room.memory
      obtain ⟨evictions, after, admitted, settled, unmoved⟩ :=
        admitMemory_bounded (regular.productive .memory) memory moved
      have reported := Reported.write after expirations evictions diskEvictions
      simp only [stored, admitted, andThen_ok]
      exact ⟨settled.of_kept reported.toMemoryKept,
        (disk.of_kept unmoved.toIndexKept).of_kept reported.toIndexKept⟩

/-! ### Invalidation -/

theorem dropKey_bounded {key : String} {s : CacheState σ} (bounded : cache.Bounded s) :
    cache.Bounded (dropKey key s) := by
  have memory := forgetMemory_bounded key bounded.memory
  have disk : cache.DiskBounded (s.forgetMemory key) :=
    bounded.disk.of_kept (forgetMemory_diskKept key s).toIndexKept
  unfold dropKey
  simp only
  split
  case h_1 _ => exact ⟨memory.of_kept ⟨rfl, rfl⟩, disk.of_kept ⟨rfl, rfl⟩⟩
  case h_2 record found =>
    exact ⟨memory.of_kept ⟨rfl, rfl⟩, (forgetDisk_bounded found disk).of_kept ⟨rfl, rfl⟩⟩

/-- **`invalidate`** keeps both tiers bounded. -/
theorem invalidate_bounded {key : String} {s : CacheState σ} (bounded : cache.Bounded s) :
    cache.Bounded (cache.invalidate amb key s).2 := by
  unfold invalidate
  split
  case h_1 _ _ => exact bounded
  case h_2 _ =>
    refine andThen_preserves ?_ fun _ t _ held => dropKey_bounded held
    unfold removeStored
    split
    case h_1 _ => exact bounded
    case h_2 store _ =>
      obtain ⟨stored, frame⟩ := callStore_state amb .removeInvalidated (store.remove key) s
      rw [frame]
      exact bounded.of_kept ⟨rfl, rfl⟩ ⟨rfl, rfl⟩

/-- Empty tiers are bounded. -/
theorem bounded_of_empty {s : CacheState σ} (memory : s.memory = ∅) (disk : s.disk = ∅)
    (memoryBytes : s.memoryBytes = 0) (diskBytes : s.diskBytes = 0) : cache.Bounded s := by
  refine ⟨⟨?_, Or.inl ?_⟩, ⟨?_, Or.inl ?_⟩⟩
  · rw [memoryBytes, memory]
    rfl
  · omega
  · rw [diskBytes, disk]
    rfl
  · omega

/-- **`clear`** keeps both tiers bounded. -/
theorem clear_bounded {s : CacheState σ} (bounded : cache.Bounded s) :
    cache.Bounded (cache.clear amb s).2 := by
  unfold clear
  refine andThen_preserves ?_ fun _ t _ _ => bounded_of_empty rfl rfl rfl rfl
  unfold clearStored
  split
  case h_1 _ => exact bounded
  case h_2 store _ =>
    obtain ⟨stored, frame⟩ := callStore_state amb .clear store.clear s
    rw [frame]
    exact bounded.of_kept ⟨rfl, rfl⟩ ⟨rfl, rfl⟩

/-! ### Construction -/

/-- **The loop over the snapshot** counts the records it indexes, also when it stops early. -/
theorem loadRecords_counted (amb : Ambient) (store : PersistentStore σ) :
    ∀ (records : List StoreRecord) (s : CacheState σ), (records.map StoreRecord.key).Nodup →
      (∀ record ∈ records, s.disk.lookup record.key = none) → DiskCounted s →
      diskTotal s.disk + (records.map StoreRecord.storedBytes).sum ≤ u64Max →
      DiskCounted (loadRecords store amb records s).2 ∧
        MemoryKept s (loadRecords store amb records s).2
  | [], s, _, _, counted, _ => ⟨counted, MemoryKept.refl s⟩
  | record :: rest, s, nodup, absent, counted, room => by
      simp only [List.map_cons, List.nodup_cons, List.sum_cons] at nodup room
      unfold loadRecords
      split
      case isTrue _ =>
        obtain ⟨stored, frame⟩ := callStore_state amb (.removeAtLoad record.key)
          (store.remove record.key) s
        refine andThen_preserves (P := fun t => DiskCounted t ∧ MemoryKept s t)
          (frame ▸ ⟨counted, ⟨rfl, rfl⟩⟩) fun _ t called held => ?_
        have same : t = { s with store := stored } := by rw [← frame, called]
        refine andThen_preserves (P := fun t => DiskCounted t ∧ MemoryKept s t) ?_
          fun _ u _ kept => kept
        obtain ⟨exact_count, kept⟩ := loadRecords_counted amb store rest
          (t.count fun stats => { stats with expirations := satAdd stats.expirations 1 })
          nodup.2 (fun other inside => by
            rw [CacheState.count_disk, same]
            exact absent other (List.mem_cons_of_mem _ inside)) held.1
          (by
            rw [CacheState.count_disk, same]
            show diskTotal s.disk + _ ≤ _
            omega)
        exact ⟨exact_count, held.2.trans ⟨kept.memory, kept.memoryBytes⟩⟩
      case isFalse _ =>
        let met : CacheState σ := { s with tick := max s.tick record.lastAccess }
        have here : met.disk.lookup record.key = none := absent record List.mem_cons_self
        have indexed := indexRecord_counted record here counted (by
          show diskTotal s.disk + _ ≤ _
          omega)
        have grown : diskTotal (met.indexRecord record).disk =
            record.storedBytes + diskTotal s.disk :=
          total_insert_absent StoreRecord.storedBytes here record
        obtain ⟨exact_count, kept⟩ := loadRecords_counted amb store rest (met.indexRecord record)
          nodup.2
          (fun other inside => by
            have different : other.key ≠ record.key := fun same =>
              nodup.1 (same ▸ List.mem_map_of_mem inside)
            rw [CacheState.indexRecord_disk, lookup_insert_eq, if_neg different]
            exact absent other (List.mem_cons_of_mem _ inside))
          indexed (by omega)
        exact ⟨exact_count, ⟨kept.memory, kept.memoryBytes⟩⟩

/-- Where no removal fails, the loop runs to its end. -/
theorem loadRecords_ok (faultless : amb.Faultless) {store : PersistentStore σ}
    (reliable : NeverFails store) :
    ∀ (records : List StoreRecord) (s : CacheState σ),
      ∃ expirations after, loadRecords store amb records s = (.ok expirations, after)
  | [], s => ⟨0, s, rfl⟩
  | record :: rest, s => by
      unfold loadRecords
      split
      case isTrue _ =>
        have called : callStore amb (.removeAtLoad record.key) (store.remove record.key) s =
            (.ok (), { s with store := (store.remove record.key s.store).2 }) := by
          unfold callStore
          rw [faultless]
          simp only [reliable.remove]
        rw [called, andThen_ok]
        obtain ⟨expirations, after, done⟩ := loadRecords_ok faultless reliable rest
          (({ s with store := (store.remove record.key s.store).2 } : CacheState σ).count
            fun stats => { stats with expirations := satAdd stats.expirations 1 })
        rw [done, andThen_ok]
        exact ⟨_, after, rfl⟩
      case isFalse _ => exact loadRecords_ok faultless reliable rest _

/-- What construction needs of the snapshot it loads: no duplicate key, and a total below `2 ^ 64`. -/
def SnapshotRoom (cache : ContextCache σ) (stored : σ) : Prop :=
  ∀ store, cache.store = some store → ∀ snapshot : StoreSnapshot,
    (store.loadIndex stored).1 = .ok snapshot →
      (snapshot.entries.map StoreRecord.key).Nodup ∧
        (snapshot.entries.map StoreRecord.storedBytes).sum ≤ u64Max

/-- **Construction** leaves both tiers bounded, whatever the snapshot lists. -/
theorem fromBuilder_bounded (regular : cache.Regular amb) {stored : σ}
    (snapshots : cache.SnapshotRoom stored) :
    ∃ s, cache.fromBuilder amb stored = (.ok (), s) ∧ cache.Bounded s := by
  have empty : cache.Bounded (CacheState.initial stored) := bounded_of_empty rfl rfl rfl rfl
  unfold fromBuilder
  split
  case isFalse _ => exact ⟨_, rfl, empty⟩
  case isTrue _ =>
    split
    case h_1 _ => exact ⟨_, rfl, empty⟩
    case h_2 store injected =>
      have reliable := regular.reliable store injected
      obtain ⟨snapshot, loaded⟩ := reliable.loadIndex stored
      obtain ⟨nodup, room⟩ := snapshots store injected snapshot loaded
      let opened : CacheState σ :=
        { CacheState.initial stored with store := (store.loadIndex stored).2 }
      have called : callStore amb .loadIndex store.loadIndex (CacheState.initial stored) =
          (.ok snapshot, opened) := by
        unfold callStore
        rw [regular.faultless]
        show ((store.loadIndex stored).1, _) = _
        rw [loaded]
        rfl
      let loading := opened.count fun stats =>
        { stats with corruptions := satAdd stats.corruptions snapshot.corruptions }
      obtain ⟨expirations, t, read⟩ :=
        loadRecords_ok regular.faultless reliable snapshot.entries loading
      obtain ⟨counted, kept⟩ := loadRecords_counted amb store snapshot.entries loading nodup
        (fun _ _ => rfl) rfl (by
          show 0 + _ ≤ _
          omega)
      rw [read] at counted kept
      obtain ⟨evictions, after, done, settled, unmoved⟩ := evictDiskLocked_bounded cache
        regular.faultless regular.reliable (regular.productive .disk) counted
      simp only [called, andThen_ok]
      show ∃ s, andThen (loadRecords store amb snapshot.entries loading) _ = _ ∧ _
      simp only [read, done, andThen_ok]
      exact ⟨_, rfl, (empty.memory.of_kept ⟨kept.memory, kept.memoryBytes⟩).of_kept
        ⟨unmoved.memory, unmoved.memoryBytes⟩, settled.of_kept ⟨rfl, rfl⟩⟩

/-! ### Runs -/

/-- The room one call needs. -/
def CallRoom (cache : ContextCache σ) : Call → CacheState σ → Prop
  | .put amb key value ttl pinned, s => cache.PutRoom key (cache.putEntry amb value ttl pinned) s
  | .get _ key, s => cache.GetRoom key s
  | .invalidate _ _, _ => True
  | .clear _, _ => True

/-- A call under least-recently-used eviction, with no failing store call and total sizes that stay
below `2 ^ 64`. -/
structure LruCall (cache : ContextCache σ) (call : Call) (s : CacheState σ) : Prop where
  faultless : call.ambient.Faultless
  lru : call.ambient.UsesLru
  room : cache.CallRoom call s

/-- One call keeps both tiers bounded. -/
theorem step_bounded {call : Call} (regular : cache.Regular call.ambient) {s : CacheState σ}
    (room : cache.CallRoom call s) (bounded : cache.Bounded s) :
    cache.Bounded (cache.step call s) := by
  cases call with
  | put amb key value ttl pinned => exact put_bounded regular bounded room
  | get amb key => exact get_bounded regular bounded room
  | invalidate amb key => exact invalidate_bounded bounded
  | clear amb => exact clear_bounded bounded

/-- **The capacity bound**: in every state reached from construction, each counter is the total it
stands for, and is within its capacity unless every record of its tier is pinned. -/
theorem capacity_bound (cache : ContextCache σ)
    (reliable : ∀ store, cache.store = some store → NeverFails store) {amb : Ambient}
    (faultless : amb.Faultless) (lru : amb.UsesLru) {stored : σ}
    (snapshots : cache.SnapshotRoom stored) {s : CacheState σ}
    (reached : Reaches cache.step cache.LruCall (cache.fromBuilder amb stored).2 s) :
    cache.Bounded s := by
  have start : cache.Bounded (cache.fromBuilder amb stored).2 := by
    obtain ⟨built, done, bounded⟩ :=
      fromBuilder_bounded ⟨faultless, lru.productive, reliable⟩ snapshots
    rw [done]
    exact bounded
  refine reached.invariant cache.Bounded start fun call t bounded permitted => ?_
  exact step_bounded ⟨permitted.faultless, permitted.lru.productive, reliable⟩ permitted.room bounded

end ContextCache

theorem volatileStore_neverFails : NeverFails volatileStore where
  loadIndex _ := ⟨_, rfl⟩
  get key stored := ⟨_, (volatileStore_mapLike.get stored key trivial).1⟩
  putIfAbsent key entry stored := by
    cases held : stored.contents key with
    | none =>
        obtain ⟨bytes, done⟩ := (volatileStore_mapLike.absent stored key entry trivial held).1
        exact ⟨_, done⟩
    | some old =>
        obtain ⟨bytes, done⟩ := (volatileStore_mapLike.present stored key entry old trivial held).1
        exact ⟨_, done⟩
  remove _ _ := rfl
  clear _ := rfl

theorem Ambient.plain_faultless (now : Nat) : (Ambient.plain now).Faultless := fun _ => rfl

theorem Ambient.plain_usesLru (now : Nat) : (Ambient.plain now).UsesLru := fun _ _ => rfl

/-- An empty volatile store lists nothing. -/
theorem volatile_snapshotRoom (maxMemoryBytes maxDiskBytes : Nat) :
    (ContextCache.volatile maxMemoryBytes maxDiskBytes).SnapshotRoom VolatileStore.new := by
  intro store injected snapshot loaded
  cases injected
  cases loaded
  exact ⟨List.nodup_nil, Nat.zero_le _⟩

/-- One value put into an empty cache with room for it in both tiers. -/
theorem capacity_bound_put :
    let cache := ContextCache.volatile 4 4
    let call := Call.put (Ambient.plain 7) (repeatedKey 'a') [1, 2] none false
    cache.Bounded (cache.step call (cache.fromBuilder (Ambient.plain 5) VolatileStore.new).2) := by
  intro cache call
  have reliable : ∀ store, cache.store = some store → NeverFails store := by
    intro store injected
    cases injected
    exact volatileStore_neverFails
  refine cache.capacity_bound reliable (Ambient.plain_faultless 5) (Ambient.plain_usesLru 5)
    (volatile_snapshotRoom 4 4)
    (Reaches.step .refl ⟨Ambient.plain_faultless 7, Ambient.plain_usesLru 7, ?_, ?_⟩)
  · show ContextCache.MemoryRoom _ _ _
    unfold ContextCache.MemoryRoom
    decide
  · intro store injected stored either bytes written
    cases injected
    rcases either with rfl | rfl
    all_goals
      cases written
      decide

end RivetCache
