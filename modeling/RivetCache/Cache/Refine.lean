/-
**The cache refines its slots.**

`ContextCache.slot` reads the slot of a key off a state. Over a map-like store, and unless a removal
made by `remove_disk_record_locked` fails, every operation does to its own key what `Cache/Slot.lean`
says and only evicts other keys; the other store calls may fail at will.

* `Quiet`: neither failing call is one of `remove_disk_record_locked`'s;
* `put_slot`, `get_slot`, `invalidate_slot`, `clear_slot`: the four operations, each also with what it
  does to the byte counter of the index;
* `fromBuilder_slot`: what construction leaves of a store.
-/

import RivetCache.Cache.Slot
import RivetCache.Cache.Accounting

set_option linter.unusedSectionVars false

namespace RivetCache

open Library

variable {σ : Type}

/-- No removal that `remove_disk_record_locked` makes fails. -/
structure Ambient.Quiet (amb : Ambient) : Prop where
  removeExpired : amb.fault .removeExpired = none
  removeVictim : ∀ round, amb.fault (.removeVictim round) = none

theorem Ambient.Faultless.quiet {amb : Ambient} (faultless : amb.Faultless) : amb.Quiet :=
  ⟨faultless _, fun _ => faultless _⟩

namespace ContextCache

/-! ### The slot of a key -/

/-- What the injected store holds for a key. -/
def held (cache : ContextCache σ) (contents : σ → String → Option StoredEntry)
    (s : CacheState σ) (key : String) : Option StoredEntry :=
  match cache.store with
  | none => none
  | some _ => contents s.store key

/-- What a state holds for a key. -/
def slot (cache : ContextCache σ) (contents : σ → String → Option StoredEntry)
    (s : CacheState σ) (key : String) : Slot where
  memory := (s.memory.lookup key).map MemoryRecord.entry
  index := (s.disk.lookup key).map StoreRecord.label
  stored := cache.held contents s key

/-- The persistent tier is enabled. -/
def persists (cache : ContextCache σ) : Bool :=
  decide (0 < cache.maxDiskBytes) && cache.store.isSome

/-- A value that the persistent tier admits. -/
def persistsValue (cache : ContextCache σ) (value : List UInt8) : Bool :=
  cache.fitsDisk value && cache.store.isSome

theorem persists_of_persistsValue {cache : ContextCache σ} {value : List UInt8}
    (admitted : cache.persistsValue value = true) : cache.persists = true := by
  unfold persistsValue fitsDisk at admitted
  unfold persists
  simp only [Bool.and_eq_true] at admitted ⊢
  exact ⟨admitted.1.1, admitted.2⟩

/-- The injected store is a map on the keys the cache gives it. -/
structure Backed (cache : ContextCache σ) (contents : σ → String → Option StoredEntry)
    (domain : String → Prop) : Prop where
  mapLike : ∀ store, cache.store = some store → MapLike store contents domain
  accepts : ∀ key, cache.keyStrategy.Accepts key → domain key

theorem volatile_backed (maxMemoryBytes maxDiskBytes : Nat) :
    (ContextCache.volatile maxMemoryBytes maxDiskBytes).Backed VolatileStore.contents
      fun _ => True := by
  refine ⟨fun store injected => ?_, fun _ _ => trivial⟩
  cases injected
  exact volatileStore_mapLike

/-- Every indexed key may be given to the store. -/
def Indexed (domain : String → Prop) (s : CacheState σ) : Prop :=
  ∀ key record, s.disk.lookup key = some record → domain key

variable {cache : ContextCache σ} {contents : σ → String → Option StoredEntry}
  {domain : String → Prop} {amb : Ambient} {s after : CacheState σ} {key : String}

theorem slot_eq (cache : ContextCache σ) (contents : σ → String → Option StoredEntry)
    {s t : CacheState σ} (memory : t.memory = s.memory) (disk : t.disk = s.disk)
    (store : contents t.store = contents s.store) (key : String) :
    cache.slot contents t key = cache.slot contents s key := by
  unfold slot held
  rw [memory, disk, store]

theorem slot_reported (reported : Reported s after) (key : String) :
    cache.slot contents after key = cache.slot contents s key :=
  slot_eq cache contents reported.memory reported.disk (congrArg contents reported.store) key

theorem diskCounted_reported (reported : Reported s after) (counted : DiskCounted s) :
    DiskCounted after := by
  unfold DiskCounted
  rw [reported.diskBytes, reported.disk]
  exact counted

theorem slot_index_some {label : Label} (listed : (cache.slot contents s key).index = some label) :
    ∃ record, s.disk.lookup key = some record ∧ record.label = label :=
  Option.map_eq_some_iff.mp listed

theorem slot_index_none (cache : ContextCache σ) (contents : σ → String → Option StoredEntry) :
    (cache.slot contents s key).index = none ↔ s.disk.lookup key = none :=
  Option.map_eq_none_iff

theorem slot_memory_none : (cache.slot contents s key).memory = none ↔
    s.memory.lookup key = none :=
  Option.map_eq_none_iff

/-- A key that a fading state still lists was listed. -/
theorem Indexed.of_fades (indexed : Indexed domain s)
    (fades : ∀ key, (cache.slot contents s key).Fades (cache.slot contents after key)) :
    Indexed domain after := by
  intro key record found
  have listed : (cache.slot contents after key).index = some record.label := by
    show (after.disk.lookup key).map StoreRecord.label = _
    rw [found]
    rfl
  obtain ⟨old, before, _⟩ := slot_index_some ((fades key).index_of listed)
  exact indexed key old before

/-! ### Elementary updates -/

theorem slot_forgetMemory (s : CacheState σ) (key other : String) :
    cache.slot contents (s.forgetMemory key) other =
      if other = key then (cache.slot contents s other).forget
      else cache.slot contents s other := by
  unfold slot held
  rw [forgetMemory_memory, forgetMemory_disk, forgetMemory_store, lookup_erase_eq]
  split <;> rfl

theorem slot_insertMemoryLocked (s : CacheState σ) (key : String) (entry : StoredEntry)
    (other : String) :
    cache.slot contents
        (s.insertMemoryLocked key entry.value entry.expiresAt entry.pinned) other =
      if other = key then (cache.slot contents s other).remember entry
      else cache.slot contents s other := by
  have persistent := insertMemoryLocked_diskKept key entry.value entry.expiresAt entry.pinned s
  unfold slot held
  rw [persistent.disk, persistent.store]
  show Slot.mk (((s.forgetMemory key).memory.insert key _).lookup other |>.map _) _ _ = _
  rw [lookup_insert_eq, forgetMemory_memory, lookup_erase_eq]
  split <;> rfl

theorem slot_touchMemory {record : MemoryRecord} (found : s.memory.lookup key = some record)
    (other : String) :
    cache.slot contents (s.touchMemory key record) other = cache.slot contents s other := by
  unfold slot held
  rw [CacheState.touchMemory_memory, CacheState.touchMemory_disk, CacheState.touchMemory_store,
    lookup_insert_eq]
  split
  case isTrue same =>
    rw [same, found]
    rfl
  case isFalse _ => rfl

theorem slot_touchDisk {record : StoreRecord} (found : s.disk.lookup key = some record)
    (other : String) :
    cache.slot contents (s.touchDisk key record) other = cache.slot contents s other := by
  unfold slot held
  rw [CacheState.touchDisk_memory, CacheState.touchDisk_disk, CacheState.touchDisk_store,
    lookup_insert_eq]
  split
  case isTrue same =>
    rw [same, found]
    rfl
  case isFalse _ => rfl

theorem slot_forgetDisk (s : CacheState σ) (key : String) (bytes : Nat) (other : String) :
    cache.slot contents (s.forgetDisk key bytes) other =
      if other = key then (cache.slot contents s other).unlist
      else cache.slot contents s other := by
  unfold slot held
  rw [CacheState.forgetDisk_memory, CacheState.forgetDisk_disk, CacheState.forgetDisk_store,
    lookup_erase_eq]
  split <;> rfl

theorem slot_update_store {stored : σ} {store : PersistentStore σ}
    (injected : cache.store = some store)
    (updated : contents stored = Function.update (contents s.store) key none) (other : String) :
    cache.slot contents { s with store := stored } other =
      if other = key then (cache.slot contents s other).unstore
      else cache.slot contents s other := by
  unfold slot held
  rw [injected]
  simp only [updated, Function.update_apply]
  split <;> rfl

/-- The removal of an index record drops the slot. -/
theorem Removed.slot (backed : cache.Backed contents domain) (removed : cache.Removed key s after)
    (inside : domain key) (other : String) :
    cache.slot contents after other =
      if other = key then (cache.slot contents s other).drop
      else cache.slot contents s other := by
  unfold ContextCache.slot held
  rw [removed.memory.memory, removed.disk, removed.store, lookup_erase_eq]
  unfold storeAfterRemove
  cases injected : cache.store with
  | none => split <;> rfl
  | some store =>
      have gone := ((backed.mapLike store injected).remove s.store key inside).2
      simp only [gone, Function.update_apply]
      split <;> rfl

theorem Backed.removable (backed : cache.Backed contents domain) {site : StoreSite}
    (works : amb.fault site = none) (inside : domain key) (s : CacheState σ) :
    cache.Removable amb site key s :=
  ⟨works, fun store injected => ((backed.mapLike store injected).remove s.store key inside).1⟩

theorem Removed.fades (backed : cache.Backed contents domain)
    (removed : cache.Removed key s after) (inside : domain key) {record : StoreRecord}
    (found : s.disk.lookup key = some record) (unpinned : record.pinned = false)
    (other : String) :
    (cache.slot contents s other).Fades (cache.slot contents after other) := by
  rw [removed.slot backed inside]
  split
  case isFalse _ => exact Slot.Fades.refl _
  case isTrue same =>
    refine ⟨Or.inl rfl, Or.inr ⟨rfl, rfl, record.label, ?_, unpinned⟩⟩
    show (s.disk.lookup other).map StoreRecord.label = _
    rw [same, found]
    rfl

/-! ### Eviction -/

/-- Every slot fades, and the byte counter of the index stays exact. -/
structure Fading (cache : ContextCache σ) (contents : σ → String → Option StoredEntry)
    (s after : CacheState σ) : Prop where
  slots : ∀ key, (cache.slot contents s key).Fades (cache.slot contents after key)
  counted : DiskCounted s → DiskCounted after

theorem Fading.refl (s : CacheState σ) : cache.Fading contents s s :=
  ⟨fun _ => Slot.Fades.refl _, id⟩

/-- **`evict_memory_locked`** only fades. -/
theorem evictMemoryLocked_fading (cache : ContextCache σ)
    (contents : σ → String → Option StoredEntry) (amb : Ambient) (s : CacheState σ) :
    ∃ evicted after, cache.evictMemoryLocked amb s = (.ok evicted, after) ∧
      cache.Fading contents s after := by
  obtain ⟨evicted, after, done, fades, frame, _⟩ := evictMemoryLocked_ok cache amb
    (I := fun t => ∀ other, (cache.slot contents s other).Fades (cache.slot contents t other))
    (fun candidate record t fades found unpinned other => by
      refine (fades other).trans ?_
      show (cache.slot contents t other).Fades
        (cache.slot contents (t.forgetMemory candidate.key) other)
      rw [slot_forgetMemory]
      split
      case isFalse _ => exact Slot.Fades.refl _
      case isTrue same =>
        refine ⟨Or.inr ⟨rfl, record.entry, ?_, unpinned⟩, Or.inl ⟨rfl, rfl⟩⟩
        show (t.memory.lookup other).map MemoryRecord.entry = _
        rw [same, found]
        rfl)
    (fun _ => Slot.Fades.refl _)
  refine ⟨evicted, after, done, fades, fun counted => ?_⟩
  unfold DiskCounted
  rw [frame.diskBytes, frame.disk]
  exact counted

/-- **`evict_disk_locked`** only fades, where its removals succeed. -/
theorem evictDiskLocked_fading (backed : cache.Backed contents domain) (quiet : amb.Quiet)
    (indexed : Indexed domain s) :
    ∃ evicted after, cache.evictDiskLocked amb s = (.ok evicted, after) ∧
      cache.Fading contents s after := by
  obtain ⟨evicted, after, done, fading, _, _⟩ := evictDiskLocked_ok cache amb
    (I := fun t => cache.Fading contents s t)
    (fun round key record t fading found =>
      backed.removable (quiet.removeVictim round)
        (indexed.of_fades fading.slots key record found) t)
    (fun key record t u fading found unpinned removed => by
      have inside := indexed.of_fades fading.slots key record found
      refine ⟨fun other => (fading.slots other).trans
        (removed.fades backed inside found unpinned other), fun counted => ?_⟩
      exact removed.counted found (fading.counted counted))
    (Fading.refl s)
  exact ⟨evicted, after, done, fading⟩

/-- The insertion into memory: the key's slot remembers the entry, then every slot fades. -/
theorem admitMemory_slot (cache : ContextCache σ)
    (contents : σ → String → Option StoredEntry) (amb : Ambient) (key : String)
    (entry : StoredEntry) (s : CacheState σ) :
    ∃ evicted after, cache.admitMemory amb key entry s = (.ok evicted, after) ∧
      ((cache.slot contents s key).promote (cache.fitsMemory entry.value) entry).Fades
        (cache.slot contents after key) ∧
      (∀ other, other ≠ key →
        (cache.slot contents s other).Fades (cache.slot contents after other)) ∧
      (DiskCounted s → DiskCounted after) := by
  unfold admitMemory
  split
  case isFalse small =>
    refine ⟨0, s, rfl, ?_, fun _ _ => Slot.Fades.refl _, id⟩
    rw [Bool.not_eq_true] at small
    rw [small]
    exact Slot.Fades.refl _
  case isTrue fits =>
    obtain ⟨evicted, after, done, fading⟩ := evictMemoryLocked_fading cache contents amb
      (s.insertMemoryLocked key entry.value entry.expiresAt entry.pinned)
    refine ⟨evicted, after, done, ?_, fun other different => ?_, fun counted => ?_⟩
    · have own := fading.slots key
      rw [slot_insertMemoryLocked, if_pos rfl] at own
      rw [fits]
      exact own
    · have others := fading.slots other
      rw [slot_insertMemoryLocked, if_neg different] at others
      exact others
    · have kept := insertMemoryLocked_diskKept key entry.value entry.expiresAt entry.pinned s
      refine fading.counted ?_
      unfold DiskCounted
      rw [kept.diskBytes, kept.disk]
      exact counted

/-! ### Writing -/

/-- What an operation on one key does: `own` to the slot of the key, eviction elsewhere. -/
structure Touches (cache : ContextCache σ) (contents : σ → String → Option StoredEntry)
    (key : String) (own : Slot → Slot → Prop) (s after : CacheState σ) : Prop where
  own : own (cache.slot contents s key) (cache.slot contents after key)
  others : ∀ other, other ≠ key →
    (cache.slot contents s other).Fades (cache.slot contents after other)

theorem dropExpired_slot (backed : cache.Backed contents domain) (quiet : amb.Quiet)
    (indexed : Indexed domain s) (key : String) :
    ∃ expirations after, cache.dropExpired amb key s = (.ok expirations, after) ∧
      cache.Touches contents key (fun slot next => next = slot.purge amb.now) s after ∧
      (DiskCounted s → DiskCounted after) ∧
      (after = s ∨ after.disk = s.disk.erase key ∧
        after.store = cache.storeAfterRemove key s.store) := by
  obtain ⟨expirations, after, done, effect⟩ := dropExpired_ok fun record found =>
    backed.removable quiet.removeExpired (indexed key record found) s
  refine ⟨expirations, after, done, ?_⟩
  rcases effect with ⟨rfl, live⟩ | ⟨record, found, past, removed⟩
  · refine ⟨⟨?_, fun _ _ => Slot.Fades.refl _⟩, id, Or.inl rfl⟩
    rcases Slot.purge_persistent amb.now (cache.slot contents after key) with
      ⟨index, stored, _⟩ | ⟨_, _, label, listed, past⟩
    · exact Slot.ext (Slot.purge_memory amb.now).symm index.symm stored.symm
    · obtain ⟨record, found, rfl⟩ := slot_index_some listed
      have unexpired := live record found
      rw [show record.label.expiresAt = record.expiresAt from rfl, unexpired] at past
      cases past
  · have inside := indexed key record found
    refine ⟨⟨?_, fun other different => ?_⟩, removed.counted found,
      Or.inr ⟨removed.disk, removed.store⟩⟩
    · have listed : (cache.slot contents s key).index = some record.label := by
        show (s.disk.lookup key).map StoreRecord.label = _
        rw [found]
        rfl
      rw [removed.slot backed inside, if_pos rfl]
      unfold Slot.purge
      simp only [listed]
      rw [if_pos (show isExpired record.label.expiresAt amb.now = true from past)]
    · rw [removed.slot backed inside, if_neg different]
      exact Slot.Fades.refl _

/-- A newly stored entry, and its index record. -/
theorem slot_indexRecord {store : PersistentStore σ} (injected : cache.store = some store)
    (entry : StoredEntry) (absent : s.disk.lookup key = none)
    (fresh : contents s.store key = none) {stored : σ}
    (updated : contents stored = Function.update (contents s.store) key (some entry))
    (bytes tick : Nat) (other : String) :
    cache.slot contents ({ s with store := stored }.nextTick.indexRecord
        ⟨key, bytes, entry.expiresAt, entry.pinned, tick⟩) other =
      if other = key then (cache.slot contents s other).write entry
      else cache.slot contents s other := by
  have index : ({ s with store := stored }.nextTick.indexRecord
      ⟨key, bytes, entry.expiresAt, entry.pinned, tick⟩).disk.lookup other =
        if other = key then some ⟨key, bytes, entry.expiresAt, entry.pinned, tick⟩
        else s.disk.lookup other := lookup_insert_eq _ _ _ _
  have disk : cache.held contents ({ s with store := stored }.nextTick.indexRecord
      ⟨key, bytes, entry.expiresAt, entry.pinned, tick⟩) other =
        if other = key then some entry else cache.held contents s other := by
    unfold held
    rw [injected]
    show contents stored other = _
    rw [updated, Function.update_apply]
  unfold slot
  rw [index, disk]
  by_cases same : other = key
  · subst same
    rw [if_pos rfl, if_pos rfl, if_pos rfl]
    unfold Slot.write
    rw [absent]
    have gone : cache.held contents s other = none := by
      unfold held
      rw [injected]
      exact fresh
    rw [gone]
    rfl
  · rw [if_neg same, if_neg same, if_neg same]
    rfl

/-- The persistent write of a key the index does not hold. -/
theorem writePersistent_slot (backed : cache.Backed contents domain) (quiet : amb.Quiet)
    (indexed : Indexed domain s) {store : PersistentStore σ} (injected : cache.store = some store)
    (inside : domain key) (entry : StoredEntry) (absent : s.disk.lookup key = none) :
    (∃ error, amb.fault .write = some error ∧
        cache.writePersistent amb store key entry s = (.error error, s)) ∨
      ∃ evictions after, cache.writePersistent amb store key entry s = (.ok evictions, after) ∧
        cache.Touches contents key (fun slot next => (slot.write entry).Fades next) s after ∧
        ((∀ bytes, (store.putIfAbsent key entry s.store).1 = .ok ⟨true, bytes⟩ →
            diskTotal s.disk + bytes ≤ u64Max) → DiskCounted s → DiskCounted after) := by
  have mapLike := backed.mapLike store injected
  have unlisted : (cache.slot contents s key).index = none := (slot_index_none cache contents).mpr absent
  have stored : (cache.slot contents s key).stored = contents s.store key := by
    show cache.held contents s key = _
    unfold held
    rw [injected]
  unfold writePersistent callStore
  cases raised : amb.fault .write with
  | some error => exact Or.inl ⟨error, rfl, rfl⟩
  | none =>
      refine Or.inr ?_
      cases old : contents s.store key with
      | some present =>
          obtain ⟨⟨bytes, refused⟩, same⟩ := mapLike.present s.store key entry present inside old
          simp only [refused, andThen_ok, Bool.false_eq_true, if_false]
          have unchanged := fun other => slot_eq cache contents
            (s := s) (t := { s with store := (store.putIfAbsent key entry s.store).2 })
            rfl rfl same other
          refine ⟨0, _, rfl, ⟨?_, fun other _ => Slot.Fades.of_eq (unchanged other)⟩, fun _ => id⟩
          refine Slot.Fades.of_eq ((unchanged key).trans ?_)
          unfold Slot.write
          rw [unlisted, stored, old]
      | none =>
          obtain ⟨⟨bytes, inserted⟩, updated⟩ := mapLike.absent s.store key entry inside old
          simp only [inserted, andThen_ok, if_true]
          let arrived : CacheState σ :=
            { s with store := (store.putIfAbsent key entry s.store).2 }
          let listed := arrived.nextTick.indexRecord
            ⟨key, bytes, entry.expiresAt, entry.pinned, arrived.nextTick.tick⟩
          have written : ∀ other, cache.slot contents listed other =
              if other = key then (cache.slot contents s other).write entry
              else cache.slot contents s other :=
            slot_indexRecord injected entry absent old updated bytes arrived.nextTick.tick
          have still : Indexed domain listed := by
            intro other record found
            have found : (arrived.nextTick.disk.insert key _).lookup other = some record := found
            rw [lookup_insert_eq] at found
            split at found
            case isTrue same => exact same ▸ inside
            case isFalse _ => exact indexed other record found
          obtain ⟨evictions, after, done, fading⟩ := evictDiskLocked_fading backed quiet still
          refine ⟨evictions, after, done, ⟨?_, fun other different => ?_⟩, fun room counted => ?_⟩
          · have own := fading.slots key
            rw [written key, if_pos rfl] at own
            exact own
          · have faded := fading.slots other
            rw [written other, if_neg different] at faded
            exact faded
          · exact fading.counted (indexRecord_counted (s := arrived.nextTick) _ absent counted
              (room bytes rfl))

/-- The persistent half of `put`. -/
theorem putPersistent_slot (backed : cache.Backed contents domain) (quiet : amb.Quiet)
    (indexed : Indexed domain s) (inside : domain key) (entry : StoredEntry) :
    (∃ error t, cache.persistsValue entry.value = true ∧ amb.fault .write = some error ∧
        cache.putPersistent amb key entry s = (.error error, t) ∧
        cache.Touches contents key (fun slot next => next = slot.purge amb.now) s t ∧
        (DiskCounted s → DiskCounted t)) ∨
      ∃ counts t, cache.putPersistent amb key entry s = (.ok counts, t) ∧
        cache.Touches contents key (fun slot next =>
          (slot.persist (cache.persistsValue entry.value) amb.now entry).Fades next) s t ∧
        (cache.DiskRoom key entry s → DiskCounted s → DiskCounted t) := by
  unfold putPersistent
  split
  case isFalse small =>
    have refused : cache.persistsValue entry.value = false := by
      unfold persistsValue
      rw [Bool.not_eq_true] at small
      rw [small]
      rfl
    rw [refused]
    exact Or.inr ⟨(0, 0), s, rfl, ⟨Slot.Fades.refl _, fun _ _ => Slot.Fades.refl _⟩, fun _ => id⟩
  case isTrue fits =>
    split
    case h_1 none_injected =>
      have refused : cache.persistsValue entry.value = false := by
        unfold persistsValue
        rw [none_injected, fits]
        rfl
      rw [refused]
      exact Or.inr ⟨(0, 0), s, rfl, ⟨Slot.Fades.refl _, fun _ _ => Slot.Fades.refl _⟩, fun _ => id⟩
    case h_2 store injected =>
      have admitted : cache.persistsValue entry.value = true := by
        unfold persistsValue
        rw [injected, fits]
        rfl
      obtain ⟨expirations, t, dropped, purged, counted, state⟩ :=
        dropExpired_slot backed quiet indexed key
      simp only [dropped, andThen_ok]
      have still : Indexed domain t := by
        intro other record found
        rcases state with rfl | ⟨disk, _⟩
        · exact indexed other record found
        · rw [disk, lookup_erase_eq] at found
          split at found
          · cases found
          · exact indexed other record found
      cases found : t.disk.lookup key with
      | some record =>
          refine Or.inr ⟨(expirations, 0), t, rfl, ⟨?_, purged.others⟩, fun _ => counted⟩
          refine Slot.Fades.of_eq ?_
          rw [purged.own, admitted]
          show _ = ((cache.slot contents s key).purge amb.now).write entry
          rw [← purged.own]
          have listed : (cache.slot contents t key).index = some record.label := by
            show (t.disk.lookup key).map StoreRecord.label = _
            rw [found]
            rfl
          unfold Slot.write
          rw [listed]
      | none =>
          rcases writePersistent_slot backed quiet still injected inside entry found with
            ⟨error, raised, failed⟩ | ⟨evictions, after, done, wrote, counts⟩
          · refine Or.inl ⟨error, t, admitted, raised, ?_, purged, counted⟩
            simp only [failed, andThen_error]
          · refine Or.inr ⟨(expirations, evictions), after, ?_, ⟨?_, fun other different => ?_⟩,
              fun room before => ?_⟩
            · simp only [done, andThen_ok]
            · have own := wrote.own
              rw [purged.own] at own
              rw [admitted]
              exact own
            · exact (purged.others other different).trans (wrote.others other different)
            · refine counts (fun bytes inserted => ?_) (counted before)
              rcases state with rfl | ⟨disk, stored⟩
              · have erased := erase_of_lookup_none found
                have enough := room store injected _ (Or.inl rfl) bytes inserted
                rwa [erased] at enough
              · rw [disk]
                refine room store injected t.store (Or.inr ?_) bytes inserted
                rw [stored]
                unfold storeAfterRemove
                rw [injected]

/-- **`put` refines `Slot.Put`.** -/
theorem put_slot (backed : cache.Backed contents domain) (quiet : amb.Quiet)
    (indexed : Indexed domain s) (accepted : cache.keyStrategy.Accepts key) {value : List UInt8}
    (nonempty : value ≠ []) (ttl : Option Duration) (pinned : Bool) :
    ∃ result after, cache.put amb key value ttl pinned s = (result, after) ∧
      cache.Touches contents key (fun slot next =>
        slot.Put (cache.persistsValue value) (cache.fitsMemory value) amb.now (amb.fault .write)
          (cache.putEntry amb value ttl pinned) result next) s after ∧
      (cache.DiskRoom key (cache.putEntry amb value ttl pinned) s →
        DiskCounted s → DiskCounted after) := by
  have inside := backed.accepts key accepted
  have filled : value.isEmpty = false := by
    cases value with
    | nil => exact (nonempty rfl).elim
    | cons _ _ => rfl
  unfold put
  unfold KeyStrategy.Accepts at accepted
  simp only [accepted, filled, Bool.false_eq_true, if_false]
  rcases putPersistent_slot backed quiet indexed inside (cache.putEntry amb value ttl pinned) with
    ⟨error, t, admitted, raised, failed, purged, counted⟩ | ⟨counts, t, done, wrote, counted⟩
  · refine ⟨.error error, t, ?_, ⟨?_, purged.others⟩, fun _ => counted⟩
    · simp only [failed, andThen_error]
    · rw [purged.own]
      exact Slot.Put.failed error raised admitted
  · obtain ⟨evictions, after, remembered, own, others, kept⟩ := admitMemory_slot cache contents amb
      key (cache.putEntry amb value ttl pinned) t
    obtain ⟨expirations, diskEvictions⟩ := counts
    have reported := Reported.write after expirations evictions diskEvictions
    simp only [done, remembered, andThen_ok]
    refine ⟨.ok (), _, rfl, ⟨?_, fun other different => ?_⟩, fun room before => ?_⟩
    · rw [slot_reported reported]
      exact Slot.Put.done _ _ wrote.own own
    · rw [slot_reported reported]
      exact (wrote.others other different).trans (others other different)
    · exact diskCounted_reported reported (kept (counted room before))

/-- A `put` of a rejected key or of an empty value changes nothing. -/
theorem put_idle {value : List UInt8} (idle : ¬ cache.keyStrategy.Accepts key ∨ value = [])
    (ttl : Option Duration) (pinned : Bool) : (cache.put amb key value ttl pinned s).2 = s := by
  unfold put
  split
  case h_1 _ _ => rfl
  case h_2 valid =>
    rcases idle with rejected | rfl
    · exact (rejected valid).elim
    · rfl

/-! ### Reading -/

/-- Dropping an index record by hand keeps the byte counter exact. -/
theorem forgetDisk_counted {record : StoreRecord} (found : s.disk.lookup key = some record)
    (counted : DiskCounted s) : DiskCounted (s.forgetDisk key record.storedBytes) :=
  eraseIndex_counted found counted

/-- The branches of `get` that discard an entry: the store call may fail, and then nothing is lost. -/
theorem discardCorrupt_slot (amb : Ambient) (backed : cache.Backed contents domain)
    {store : PersistentStore σ} (injected : cache.store = some store) (inside : domain key) (site : StoreSite)
    {record : StoreRecord} (found : s.disk.lookup key = some record) :
    (∃ error, amb.fault site = some error ∧
        discardCorrupt amb site store key record s = (.error error, s)) ∨
      ∃ after, discardCorrupt amb site store key record s = (.ok none, after) ∧
        cache.Touches contents key (fun slot next => next = slot.drop) s after ∧
        (DiskCounted s → DiskCounted after) := by
  obtain ⟨removed, gone⟩ := (backed.mapLike store injected).remove s.store key inside
  unfold discardCorrupt callStore
  cases raised : amb.fault site with
  | some error => exact Or.inl ⟨error, rfl, rfl⟩
  | none =>
      simp only [removed, andThen_ok]
      let emptied : CacheState σ := { s with store := (store.remove key s.store).2 }
      have slots : ∀ other, cache.slot contents (emptied.forgetDisk key record.storedBytes) other =
          if other = key then (cache.slot contents s other).drop
          else cache.slot contents s other := by
        intro other
        rw [slot_forgetDisk, slot_update_store injected gone]
        split <;> rfl
      refine Or.inr ⟨_, rfl, ⟨(slots key).trans (if_pos rfl), fun other different => ?_⟩,
        fun counted => forgetDisk_counted (s := emptied) found counted⟩
      exact Slot.Fades.of_eq ((slots other).trans (if_neg different))

/-- `get`, a persistent hit. -/
theorem servePersistent_slot (cache : ContextCache σ)
    (contents : σ → String → Option StoredEntry) (amb : Ambient) (expirations : Nat)
    {record : StoreRecord} (entry : StoredEntry) (found : s.disk.lookup key = some record) :
    ∃ after, cache.servePersistent amb key expirations record entry s =
        (.ok (some entry.value), after) ∧
      cache.Touches contents key (fun slot next =>
        (slot.promote (cache.fitsMemory entry.value) entry).Fades next) s after ∧
      (DiskCounted s → DiskCounted after) := by
  unfold servePersistent
  let hit := (s.nextTick.touchDisk key record).count fun stats =>
    { stats with diskHits := satAdd stats.diskHits 1 }
  have unchanged : ∀ other, cache.slot contents hit other = cache.slot contents s other :=
    fun other => slot_touchDisk (s := s.nextTick) found other
  obtain ⟨evictions, after, done, own, others, counted⟩ :=
    admitMemory_slot cache contents amb key entry hit
  rw [unchanged] at own
  simp only [done, andThen_ok, hit]
  refine ⟨_, rfl, ⟨own, fun other different => ?_⟩, fun before => counted ?_⟩
  · have faded := others other different
    rw [unchanged] at faded
    exact faded
  · show s.diskBytes = diskTotal (s.disk.insert key { record with lastAccess := s.nextTick.tick })
    have moved := total_replace StoreRecord.storedBytes found
      (show ({ record with lastAccess := s.nextTick.tick } : StoreRecord).storedBytes =
        record.storedBytes from rfl)
    unfold diskTotal
    rw [moved]
    exact before

/-- What a `get` of a key whose slot was `slot` does from a state on: an answer for that slot, eviction
elsewhere, an exact byte counter. -/
structure Answers (cache : ContextCache σ) (contents : σ → String → Option StoredEntry)
    (amb : Ambient) (key : String) (slot : Slot) (s : CacheState σ)
    (result : Except IoError (Option (List UInt8))) (after : CacheState σ) : Prop where
  own : slot.Got cache.fitsMemory amb.now amb.fault result (cache.slot contents after key)
  others : ∀ other, other ≠ key →
    (cache.slot contents s other).Fades (cache.slot contents after other)
  counted : DiskCounted s → DiskCounted after

/-- A `get` past memory: the expired memory copy is gone, and the index lists a live record. -/
structure Reading (cache : ContextCache σ) (contents : σ → String → Option StoredEntry)
    (amb : Ambient) (key : String) (slot : Slot) (record : StoreRecord) (s : CacheState σ) :
    Prop where
  cold : slot.Cold amb.now
  here : cache.slot contents s key = slot.expire amb.now
  found : s.disk.lookup key = some record
  live : isExpired record.label.expiresAt amb.now = false

namespace Reading

variable {slot : Slot} {record : StoreRecord}

theorem listed (reading : cache.Reading contents amb key slot record s) :
    slot.index = some record.label := by
  rw [← Slot.expire_index amb.now, ← reading.here]
  show (s.disk.lookup key).map StoreRecord.label = _
  rw [reading.found]
  rfl

theorem stored (reading : cache.Reading contents amb key slot record s) :
    slot.stored = cache.held contents s key := by
  rw [← Slot.expire_stored amb.now, ← reading.here]
  rfl

/-- A store call that leaves the map as it was does not disturb a read. -/
theorem called {stored : σ} (reading : cache.Reading contents amb key slot record s)
    (kept : contents stored = contents s.store) :
    cache.Reading contents amb key slot record { s with store := stored } :=
  ⟨reading.cold,
    (slot_eq cache contents (s := s) (t := { s with store := stored }) rfl rfl kept key).trans reading.here,
    reading.found, reading.live⟩

/-- `get`, an entry the index lists and the store does not hold. -/
theorem missing (reading : cache.Reading contents amb key slot record s)
    (gone : slot.stored = none) :
    cache.Answers contents amb key slot s (.ok none) (s.forgetDisk key record.storedBytes) := by
  refine ⟨?_, fun other different => ?_, forgetDisk_counted reading.found⟩
  · rw [slot_forgetDisk, if_pos rfl, reading.here]
    exact Slot.Got.missing reading.cold record.label reading.listed reading.live gone
  · rw [slot_forgetDisk, if_neg different]
    exact Slot.Fades.refl _

/-- `get`, an unreadable or mismatched entry. -/
theorem discarded (backed : cache.Backed contents domain) (inside : domain key)
    {store : PersistentStore σ} (injected : cache.store = some store) (site : StoreSite)
    (reading : cache.Reading contents amb key slot record s)
    (why : (∃ entry, slot.stored = some entry ∧ entry.label ≠ record.label) ∨
      ∃ error, amb.fault .read = some error) :
    ∃ result after, discardCorrupt amb site store key record s = (result, after) ∧
      cache.Answers contents amb key slot s result after := by
  rcases discardCorrupt_slot amb backed injected inside site reading.found with
    ⟨error, raised, failed⟩ | ⟨after, done, dropped, counted⟩
  · refine ⟨.error error, s, failed, ⟨?_, fun _ _ => Slot.Fades.refl _, id⟩⟩
    rw [reading.here]
    exact Slot.Got.failed reading.cold error site raised
  · refine ⟨.ok none, after, done, ⟨?_, dropped.others, counted⟩⟩
    rw [dropped.own, reading.here]
    exact Slot.Got.discarded reading.cold record.label reading.listed reading.live why

/-- `get`, a readable entry: its metadata is compared with the index record's. -/
theorem compared (backed : cache.Backed contents domain) (inside : domain key)
    {store : PersistentStore σ} (injected : cache.store = some store) (expirations : Nat)
    {entry : StoredEntry} (reading : cache.Reading contents amb key slot record s)
    (present : slot.stored = some entry) :
    ∃ result after,
      (if entry.expiresAt != record.expiresAt || entry.pinned != record.pinned then
          discardCorrupt amb .removeMismatched store key record s
        else cache.servePersistent amb key expirations record entry s) = (result, after) ∧
      cache.Answers contents amb key slot s result after := by
  split
  case isTrue mismatch =>
    refine reading.discarded backed inside injected _ (Or.inl ⟨entry, present, fun agree => ?_⟩)
    have expiry : entry.expiresAt = record.expiresAt := congrArg Label.expiresAt agree
    have pin : entry.pinned = record.pinned := congrArg Label.pinned agree
    simp [expiry, pin] at mismatch
  case isFalse agree =>
    have label : record.label = entry.label := by
      simp only [Bool.or_eq_true, bne_iff_ne, ne_eq, not_or, not_not] at agree
      unfold StoreRecord.label StoredEntry.label
      rw [agree.1, agree.2]
    obtain ⟨after, done, served, counted⟩ := servePersistent_slot cache contents amb
      expirations entry reading.found
    refine ⟨.ok (some entry.value), after, done, ⟨?_, served.others, counted⟩⟩
    have own := served.own
    have index := reading.listed
    have live := reading.live
    rw [reading.here] at own
    rw [label] at index live
    exact Slot.Got.persistent reading.cold entry index live present _ own

end Reading

/-- `get` past memory, from the state in which the expired memory copy is gone. -/
theorem getPersistent_slot (backed : cache.Backed contents domain) (quiet : amb.Quiet)
    (inside : domain key) (expirations : Nat) {slot : Slot} (cold : slot.Cold amb.now)
    (here : cache.slot contents s key = slot.expire amb.now) :
    ∃ result after, cache.getPersistent amb key expirations s = (result, after) ∧
      cache.Answers contents amb key slot s result after := by
  unfold getPersistent
  split
  case h_1 absent =>
    have unlisted : slot.index = none := by
      rw [← Slot.expire_index amb.now, ← here]
      exact (slot_index_none cache contents).mpr absent
    refine ⟨.ok none, _, rfl, ⟨?_, fun _ _ => Slot.Fades.refl _, id⟩⟩
    show slot.Got _ _ _ _ (cache.slot contents s key)
    rw [here]
    exact Slot.Got.absent cold unlisted
  case h_2 record found =>
    split
    case isTrue past =>
      obtain ⟨after, done, removed⟩ := removeDiskRecordLocked_ok true found
        (backed.removable quiet.removeExpired inside s)
      have listed : slot.index = some record.label := by
        rw [← Slot.expire_index amb.now, ← here]
        show (s.disk.lookup key).map StoreRecord.label = _
        rw [found]
        rfl
      rw [done, andThen_ok]
      refine ⟨.ok none, _, rfl, ⟨?_, fun other different => ?_, removed.counted found⟩⟩
      · show slot.Got _ _ _ _ (cache.slot contents after key)
        rw [removed.slot backed inside, if_pos rfl, here]
        exact Slot.Got.expired cold record.label listed past
      · show Slot.Fades _ (cache.slot contents after other)
        rw [removed.slot backed inside, if_neg different]
        exact Slot.Fades.refl _
    case isFalse unexpired =>
      rw [Bool.not_eq_true] at unexpired
      have reading : cache.Reading contents amb key slot record s := ⟨cold, here, found, unexpired⟩
      have stored := reading.stored
      unfold held at stored
      cases injected : cache.store with
      | none =>
          rw [injected] at stored
          have answers := reading.missing stored
          exact ⟨.ok none, _, rfl, ⟨answers.own, answers.others, answers.counted⟩⟩
      | some store =>
          rw [injected] at stored
          unfold callStore
          cases raised : amb.fault .read with
          | some error =>
              simp only
              split
              case isTrue _ =>
                exact reading.discarded backed inside injected _ (Or.inr ⟨error, raised⟩)
              case isFalse _ =>
                refine ⟨.error error, s, rfl, ⟨?_, fun _ _ => Slot.Fades.refl _, id⟩⟩
                rw [here]
                exact Slot.Got.failed cold error .read raised
          | none =>
              obtain ⟨answer, kept⟩ := (backed.mapLike store injected).get s.store key inside
              have unchanged := fun other => slot_eq cache contents (s := s)
                (t := { s with store := (store.get key s.store).2 }) rfl rfl kept other
              have elsewhere : ∀ result after,
                  cache.Answers contents amb key slot { s with store := (store.get key s.store).2 }
                    result after → cache.Answers contents amb key slot s result after :=
                fun result after answers => ⟨answers.own,
                  fun other different => unchanged other ▸ answers.others other different,
                  answers.counted⟩
              simp only [answer]
              cases entry_there : contents s.store key with
              | none =>
                  have answers := elsewhere _ _
                    ((reading.called kept).missing (stored.trans entry_there))
                  exact ⟨.ok none, _, rfl, ⟨answers.own, answers.others, answers.counted⟩⟩
              | some entry =>
                  obtain ⟨result, after, done, answers⟩ := (reading.called kept).compared
                    backed inside injected expirations (stored.trans entry_there)
                  exact ⟨result, after, done, elsewhere _ _ answers⟩

/-- **`get` refines `Slot.Got`.** -/
theorem get_slot (backed : cache.Backed contents domain) (quiet : amb.Quiet)
    (accepted : cache.keyStrategy.Accepts key) (s : CacheState σ) :
    ∃ result after, cache.get amb key s = (result, after) ∧
      cache.Touches contents key (fun slot next =>
        slot.Got cache.fitsMemory amb.now amb.fault result next) s after ∧
      (DiskCounted s → DiskCounted after) := by
  have inside := backed.accepts key accepted
  unfold get
  unfold KeyStrategy.Accepts at accepted
  simp only [accepted]
  cases found : s.memory.lookup key with
  | none =>
      have memory : (cache.slot contents s key).memory = none := slot_memory_none.mpr found
      have cold : (cache.slot contents s key).Cold amb.now := by
        intro entry held
        rw [memory] at held
        cases held
      have here : cache.slot contents s key = (cache.slot contents s key).expire amb.now := by
        unfold Slot.expire
        rw [memory]
      obtain ⟨result, after, done, answers⟩ :=
        getPersistent_slot backed quiet inside 0 cold here
      exact ⟨result, after, done, ⟨answers.own, answers.others⟩, answers.counted⟩
  | some record =>
      have memory : (cache.slot contents s key).memory = some record.entry := by
        show (s.memory.lookup key).map MemoryRecord.entry = _
        rw [found]
        rfl
      simp only
      split
      case isTrue past =>
        have cold : (cache.slot contents s key).Cold amb.now := by
          intro entry held
          rw [memory] at held
          cases held
          exact past
        let forgotten := (s.forgetMemory key).count fun stats =>
          { stats with expirations := satAdd stats.expirations 1 }
        have here : cache.slot contents forgotten key =
            (cache.slot contents s key).expire amb.now := by
          show cache.slot contents (s.forgetMemory key) key = _
          rw [slot_forgetMemory, if_pos rfl]
          unfold Slot.expire
          simp only [memory]
          rw [if_pos (show isExpired record.entry.expiresAt amb.now = true from past)]
        obtain ⟨result, after, done, answers⟩ :=
          getPersistent_slot backed quiet inside 1 cold here
        refine ⟨result, after, done, ⟨answers.own, fun other different => ?_⟩,
          fun before => answers.counted ?_⟩
        · have faded := answers.others other different
          have kept : cache.slot contents forgotten other = cache.slot contents s other :=
            (slot_forgetMemory s key other).trans (if_neg different)
          rw [kept] at faded
          exact faded
        · have frame := forgetMemory_diskKept key s
          show (s.forgetMemory key).diskBytes = diskTotal (s.forgetMemory key).disk
          rw [frame.diskBytes, frame.disk]
          exact before
      case isFalse unexpired =>
        have live : isExpired record.entry.expiresAt amb.now = false := by
          rw [Bool.not_eq_true] at unexpired
          exact unexpired
        refine ⟨.ok (some record.value), _, rfl, ⟨?_, fun other _ => Slot.Fades.of_eq ?_⟩, id⟩
        · show Slot.Got _ _ _ _ _ (cache.slot contents (s.nextTick.touchMemory key record) key)
          rw [slot_touchMemory (s := s.nextTick) found]
          exact Slot.Got.memory record.entry memory live
        · exact slot_touchMemory (s := s.nextTick) found other

/-- A `get` of a rejected key changes nothing and answers nothing. -/
theorem get_idle (amb : Ambient) (s : CacheState σ) (rejected : ¬ cache.keyStrategy.Accepts key) :
    ∃ error, cache.get amb key s = (.error error, s) := by
  unfold get
  split
  case h_1 error _ => exact ⟨error, rfl⟩
  case h_2 valid => exact (rejected valid).elim

/-! ### Invalidation -/

/-- The store call of `invalidate`. -/
theorem removeStored_slot (amb : Ambient) (backed : cache.Backed contents domain) (inside : domain key)
    (s : CacheState σ) :
    (∃ error, amb.fault .removeInvalidated = some error ∧
        cache.removeStored amb key s = (.error error, s)) ∨
      ∃ after, cache.removeStored amb key s = (.ok (), after) ∧
        (∀ other, cache.slot contents after other =
          if other = key then (cache.slot contents s other).unstore
          else cache.slot contents s other) ∧
        after.disk = s.disk ∧ after.diskBytes = s.diskBytes := by
  unfold removeStored
  cases injected : cache.store with
  | none =>
      refine Or.inr ⟨s, rfl, fun other => ?_, rfl, rfl⟩
      have nothing : (cache.slot contents s other).stored = none := by
        show cache.held contents s other = none
        unfold held
        rw [injected]
      split
      · exact Slot.ext rfl rfl nothing
      · rfl
  | some store =>
      obtain ⟨removed, gone⟩ := (backed.mapLike store injected).remove s.store key inside
      simp only [callStore]
      cases raised : amb.fault .removeInvalidated with
      | some error => exact Or.inl ⟨error, rfl, rfl⟩
      | none =>
          refine Or.inr ⟨{ s with store := (store.remove key s.store).2 }, ?_,
            fun other => slot_update_store injected gone other, rfl, rfl⟩
          simp only [removed]

/-- The index update of `invalidate`. -/
theorem dropKey_slot (s : CacheState σ) (key other : String) :
    cache.slot contents (dropKey key s) other =
      if other = key then (cache.slot contents s other).forget.unlist
      else cache.slot contents s other := by
  unfold dropKey
  simp only
  split
  case h_1 absent =>
    show cache.slot contents (s.forgetMemory key) other = _
    rw [slot_forgetMemory]
    split
    case isFalse _ => rfl
    case isTrue same =>
      have unlisted : (cache.slot contents s other).index = none := by
        rw [same, slot_index_none, ← forgetMemory_disk key s]
        exact absent
      exact Slot.ext rfl unlisted rfl
  case h_2 record _ =>
    show cache.slot contents ((s.forgetMemory key).forgetDisk key record.storedBytes) other = _
    rw [slot_forgetDisk, slot_forgetMemory]
    split <;> rfl

theorem dropKey_counted (key : String) (counted : DiskCounted s) : DiskCounted (dropKey key s) := by
  have frame := forgetMemory_diskKept key s
  have carried : DiskCounted (s.forgetMemory key) := by
    unfold DiskCounted
    rw [frame.diskBytes, frame.disk]
    exact counted
  unfold dropKey
  simp only
  split
  case h_1 _ => exact carried
  case h_2 record found => exact forgetDisk_counted found carried

/-- **`invalidate` empties the slot**, unless its store call fails and nothing changes. -/
theorem invalidate_slot (amb : Ambient) (backed : cache.Backed contents domain)
    (accepted : cache.keyStrategy.Accepts key) (s : CacheState σ) :
    (∃ error, amb.fault .removeInvalidated = some error ∧
        cache.invalidate amb key s = (.error error, s)) ∨
      ∃ after, cache.invalidate amb key s = (.ok (), after) ∧
        (∀ other, cache.slot contents after other =
          if other = key then Slot.empty else cache.slot contents s other) ∧
        (DiskCounted s → DiskCounted after) := by
  have inside := backed.accepts key accepted
  unfold invalidate
  unfold KeyStrategy.Accepts at accepted
  simp only [accepted]
  rcases removeStored_slot amb backed inside s with
    ⟨error, raised, failed⟩ | ⟨t, done, slots, disk, bytes⟩
  · exact Or.inl ⟨error, raised, by rw [failed, andThen_error]⟩
  · refine Or.inr ⟨dropKey key t, by rw [done, andThen_ok], fun other => ?_, fun counted => ?_⟩
    · rw [dropKey_slot, slots]
      split <;> rfl
    · refine dropKey_counted key ?_
      unfold DiskCounted
      rw [disk, bytes]
      exact counted

theorem invalidate_idle (amb : Ambient) (s : CacheState σ) (rejected : ¬ cache.keyStrategy.Accepts key) :
    ∃ error, cache.invalidate amb key s = (.error error, s) := by
  unfold invalidate
  split
  case h_1 error _ => exact ⟨error, rfl⟩
  case h_2 valid => exact (rejected valid).elim

/-- The store call of `clear`. -/
theorem clearStored_slot (amb : Ambient) (backed : cache.Backed contents domain)
    (s : CacheState σ) :
    (∃ error, amb.fault .clear = some error ∧ cache.clearStored amb s = (.error error, s)) ∨
      ∃ after, cache.clearStored amb s = (.ok (), after) ∧
        (∀ other, cache.slot contents after other = (cache.slot contents s other).unstore) ∧
        after.disk = s.disk := by
  unfold clearStored
  cases injected : cache.store with
  | none =>
      refine Or.inr ⟨s, rfl, fun other => Slot.ext rfl rfl ?_, rfl⟩
      show cache.held contents s other = none
      unfold held
      rw [injected]
  | some store =>
      obtain ⟨cleared, gone⟩ := (backed.mapLike store injected).clear s.store
      simp only [callStore]
      cases raised : amb.fault .clear with
      | some error => exact Or.inl ⟨error, rfl, rfl⟩
      | none =>
          refine Or.inr ⟨{ s with store := (store.clear s.store).2 }, ?_, fun other => ?_, rfl⟩
          · simp only [cleared]
          · unfold slot held
            rw [injected]
            simp only [gone]
            rfl

/-- The index update of `clear`. -/
theorem dropAll_slot (s : CacheState σ) (other : String) :
    cache.slot contents (dropAll s) other = (cache.slot contents s other).forget.unlist := rfl

/-- **`clear` empties every slot**, unless its store call fails and nothing changes. -/
theorem clear_slot (amb : Ambient) (backed : cache.Backed contents domain) (s : CacheState σ) :
    (∃ error, amb.fault .clear = some error ∧ cache.clear amb s = (.error error, s)) ∨
      ∃ after, cache.clear amb s = (.ok (), after) ∧
        (∀ other, cache.slot contents after other = Slot.empty) ∧ DiskCounted after := by
  unfold clear
  rcases clearStored_slot amb backed s with ⟨error, raised, failed⟩ | ⟨t, done, slots, _⟩
  · exact Or.inl ⟨error, raised, by rw [failed, andThen_error]⟩
  · refine Or.inr ⟨dropAll t, by rw [done, andThen_ok], fun other => ?_, rfl⟩
    rw [dropAll_slot, slots]
    rfl

/-! ### Construction -/

/-- The loop over the snapshot: an expired record's entry leaves the store, any other is indexed. -/
theorem loadRecords_slot (backed : cache.Backed contents domain) {store : PersistentStore σ}
    (injected : cache.store = some store) :
    ∀ (records : List StoreRecord) (s : CacheState σ) (expirations : Nat) (after : CacheState σ),
      (records.map StoreRecord.key).Nodup → (∀ record ∈ records, domain record.key) →
      loadRecords store amb records s = (.ok expirations, after) →
      (∀ key, key ∉ records.map StoreRecord.key →
          cache.slot contents after key = cache.slot contents s key) ∧
        ∀ record ∈ records, cache.slot contents after record.key =
          if isExpired record.expiresAt amb.now then
            (cache.slot contents s record.key).unstore
          else (cache.slot contents s record.key).enlist record.label
  | [], s, expirations, after, _, _, done => by
      cases done
      exact ⟨fun _ _ => rfl, fun _ impossible => by cases impossible⟩
  | record :: rest, s, expirations, after, nodup, inside, done => by
      simp only [List.map_cons, List.nodup_cons] at nodup
      -- one record changes its own slot only, and the rest of the snapshot never returns to it
      have compose : ∀ (t : CacheState σ) (count : Nat) (own : Slot),
          loadRecords store amb rest t = (.ok count, after) →
          (∀ key, cache.slot contents t key =
            if key = record.key then own else cache.slot contents s key) →
          own = (if isExpired record.expiresAt amb.now then
            (cache.slot contents s record.key).unstore
            else (cache.slot contents s record.key).enlist record.label) →
          (∀ key, key ∉ (record :: rest).map StoreRecord.key →
              cache.slot contents after key = cache.slot contents s key) ∧
            ∀ listed ∈ record :: rest, cache.slot contents after listed.key =
              if isExpired listed.expiresAt amb.now then
                (cache.slot contents s listed.key).unstore
              else (cache.slot contents s listed.key).enlist listed.label := by
        intro t count own remaining slots exact_slot
        obtain ⟨elsewhere, listed⟩ := loadRecords_slot backed injected rest t count after nodup.2
          (fun other member => inside other (List.mem_cons_of_mem _ member)) remaining
        refine ⟨fun key outside => ?_, fun other member => ?_⟩
        · rw [List.map_cons, List.mem_cons, not_or] at outside
          rw [elsewhere key outside.2, slots, if_neg outside.1]
        · rcases List.mem_cons.mp member with rfl | member
          · rw [elsewhere other.key nodup.1, slots, if_pos rfl]
            exact exact_slot
          · have different : other.key ≠ record.key := fun same =>
              nodup.1 (same ▸ List.mem_map_of_mem member)
            rw [listed other member, slots, if_neg different]
      unfold loadRecords at done
      split at done
      case isTrue past =>
        obtain ⟨_, t, called, next⟩ := andThen_eq_ok.mp done
        obtain ⟨more, u, remaining, finished⟩ := andThen_eq_ok.mp next
        cases finished
        have gone := ((backed.mapLike store injected).remove s.store record.key
          (inside record List.mem_cons_self)).2
        unfold callStore at called
        split at called
        case h_1 _ _ => cases called
        case h_2 _ =>
          simp only [Prod.mk.injEq] at called
          obtain ⟨_, rfl⟩ := called
          refine compose _ more _ remaining (fun key => ?_) (if_pos past).symm
          refine (slot_update_store injected gone key).trans ?_
          by_cases same : key = record.key
          · rw [if_pos same, if_pos same, same]
          · rw [if_neg same, if_neg same]
      case isFalse live =>
        refine compose _ expirations _ done (fun key => ?_) (if_neg live).symm
        have index : (s.disk.insert record.key record).lookup key =
            if key = record.key then some record else s.disk.lookup key := lookup_insert_eq _ _ _ _
        unfold slot
        rw [CacheState.indexRecord_disk, index]
        by_cases same : key = record.key
        · rw [if_pos same, if_pos same, same]
          rfl
        · rw [if_neg same, if_neg same]
          rfl

/-- A slot right after the snapshot is loaded: indexed, with what the store held, or empty. -/
structure Loaded (held : Option StoredEntry) (slot : Slot) : Prop where
  cold : slot.memory = none
  coherent : slot.Coherent true
  kept : slot.stored = held ∨ slot.stored = none

/-- **The snapshot indexes the store**, less what has expired. -/
theorem loadRecords_loaded (backed : cache.Backed contents domain) {store : PersistentStore σ}
    (injected : cache.store = some store) {stored : σ} {snapshot : StoreSnapshot}
    (describes : snapshot.Describes (contents stored)) {expirations : Nat}
    (opened : ∀ key, cache.slot contents s key = ⟨none, none, contents stored key⟩)
    (read : loadRecords store amb snapshot.entries s = (.ok expirations, after)) (key : String) :
    Loaded (contents stored key) (cache.slot contents after key) := by
  obtain ⟨elsewhere, listed⟩ := loadRecords_slot backed injected snapshot.entries s expirations
    after describes.nodup (fun record member => by
      obtain ⟨entry, there, _⟩ := describes.listed record member
      exact (backed.mapLike store injected).held stored record.key entry there) read
  cases there : contents stored key with
  | none =>
      have outside : key ∉ snapshot.entries.map StoreRecord.key := by
        intro member
        obtain ⟨record, listed_here, rfl⟩ := List.mem_map.mp member
        obtain ⟨entry, held_here, _⟩ := describes.listed record listed_here
        rw [there] at held_here
        cases held_here
      rw [elsewhere key outside, opened, there]
      exact ⟨rfl, rfl, Or.inl rfl⟩
  | some entry =>
      obtain ⟨record, member, rfl⟩ := describes.complete key entry there
      obtain ⟨copy, held_here, expiry, pin⟩ := describes.listed record member
      have same_copy : copy = entry := Option.some_injective _ (held_here.symm.trans there)
      rw [same_copy] at expiry pin
      rw [listed record member, opened, there]
      split
      · exact ⟨rfl, rfl, Or.inr rfl⟩
      · refine ⟨rfl, ?_, Or.inl rfl⟩
        show some record.label = some entry.label
        unfold StoreRecord.label StoredEntry.label
        rw [expiry, pin]

/-- Where index and store agree, every indexed key may be given to the store. -/
theorem indexed_of_coherent (backed : cache.Backed contents domain)
    (coherent : ∀ key, ∃ persisting, (cache.slot contents s key).Coherent persisting) :
    Indexed domain s := by
  intro key record found
  have listed : (cache.slot contents s key).index = some record.label := by
    show (s.disk.lookup key).map StoreRecord.label = _
    rw [found]
    rfl
  obtain ⟨persisting, agree⟩ := coherent key
  obtain ⟨entry, present, _⟩ := agree.stored_some listed
  have there : cache.held contents s key = some entry := present
  unfold held at there
  split at there
  case h_1 _ => cases there
  case h_2 store injected => exact (backed.mapLike store injected).held s.store key entry there

/-- What construction leaves: nothing in memory, an index of what the store holds, and nothing on
the store that was not there before. -/
structure Built (cache : ContextCache σ) (contents : σ → String → Option StoredEntry)
    (stored : σ) (s : CacheState σ) : Prop where
  cold : ∀ key, (cache.slot contents s key).memory = none
  coherent : ∀ key, (cache.slot contents s key).Coherent cache.persists
  kept : ∀ key entry, (cache.slot contents s key).stored = some entry →
    contents stored key = some entry

/-- A cache that does not persist starts with an empty index. -/
theorem built_initial (off : cache.persists = false) (stored : σ) :
    cache.Built contents stored (CacheState.initial stored) := by
  refine ⟨fun _ => rfl, fun key => ?_, fun key entry present => ?_⟩
  · rw [off]
    rfl
  · have there : cache.held contents (CacheState.initial stored) key = some entry := present
    unfold held at there
    split at there
    · cases there
    · exact there

/-- **Construction** over a map-like store. -/
theorem fromBuilder_slot (backed : cache.Backed contents domain) (quiet : amb.Quiet) {stored : σ}
    (done : cache.fromBuilder amb stored = (.ok (), s)) :
    cache.Built contents stored s ∧ (cache.SnapshotRoom stored → DiskCounted s) := by
  unfold fromBuilder at done
  split at done
  case isFalse disabled =>
    cases done
    refine ⟨built_initial ?_ stored, fun _ => rfl⟩
    unfold persists
    rw [decide_eq_false disabled, Bool.false_and]
  case isTrue enabled =>
    split at done
    case h_1 none_injected =>
      cases done
      refine ⟨built_initial ?_ stored, fun _ => rfl⟩
      unfold persists
      rw [none_injected]
      exact Bool.and_false _
    case h_2 store injected =>
      have on : cache.persists = true := by
        unfold persists
        rw [decide_eq_true enabled, injected]
        rfl
      obtain ⟨⟨snapshot, listing, describes⟩, same⟩ :=
        (backed.mapLike store injected).loadIndex stored
      obtain ⟨loaded, opened, called, next⟩ := andThen_eq_ok.mp done
      obtain ⟨expirations, t, read, next⟩ := andThen_eq_ok.mp next
      obtain ⟨evictions, u, evicted, finished⟩ := andThen_eq_ok.mp next
      cases finished
      have call : (store.loadIndex stored).1 = .ok loaded ∧
          opened = { CacheState.initial stored with store := (store.loadIndex stored).2 } := by
        unfold callStore at called
        split at called
        case h_1 _ _ => cases called
        case h_2 _ => exact ⟨congrArg Prod.fst called, (congrArg Prod.snd called).symm⟩
      obtain ⟨answer, rfl⟩ := call
      have snapshot_eq : loaded = snapshot := by
        have both := answer.symm.trans listing
        cases both
        rfl
      rw [snapshot_eq] at read answer
      have loads := loadRecords_loaded backed injected describes (fun key =>
        Slot.ext rfl rfl (show cache.held contents _ key = contents stored key by
          unfold held
          rw [injected]
          exact congrFun same key)) read
      obtain ⟨_, after, again, fading⟩ := evictDiskLocked_fading backed quiet
        (indexed_of_coherent backed fun key => ⟨true, (loads key).coherent⟩)
      rw [evicted] at again
      cases again
      refine ⟨⟨fun key => ?_, fun key => ?_, fun key entry present => ?_⟩, fun room => ?_⟩
      · by_contra some_copy
        obtain ⟨copy, there⟩ := Option.ne_none_iff_exists'.mp some_copy
        have before := (fading.slots key).memory_of there
        rw [(loads key).cold] at before
        cases before
      · rw [on]
        exact (fading.slots key).coherent (loads key).coherent
      · have before := (fading.slots key).stored_of present
        rcases (loads key).kept with kept | gone
        · exact kept ▸ before
        · rw [gone] at before
          cases before
      · obtain ⟨nodup, total⟩ := room store injected snapshot answer
        have counted := (loadRecords_counted amb store snapshot.entries
          (({ CacheState.initial stored with store := (store.loadIndex stored).2 } :
            CacheState σ).count fun stats =>
              { stats with corruptions := satAdd stats.corruptions snapshot.corruptions })
          nodup (fun _ _ => rfl) rfl (by
            show 0 + _ ≤ _
            omega)).1
        rw [read] at counted
        exact fading.counted counted

/-! ### One call -/

/-- The keys a call is about. -/
def Concerns (key : String) : Call → Prop
  | .put _ own _ _ _ => own = key
  | .get _ own => own = key
  | .invalidate _ own => own = key
  | .clear _ => True

/-- A call that does nothing: a rejected key, an empty value, a failing deletion. -/
def Idle (cache : ContextCache σ) : Call → Prop
  | .put _ key value _ _ => ¬ cache.keyStrategy.Accepts key ∨ value = []
  | .get _ key => ¬ cache.keyStrategy.Accepts key
  | .invalidate amb key =>
      ¬ cache.keyStrategy.Accepts key ∨ ∃ error, amb.fault .removeInvalidated = some error
  | .clear amb => ∃ error, amb.fault .clear = some error

/-- **What one call does to one slot.** -/
inductive SlotStep (cache : ContextCache σ) (call : Call) (key : String) (slot : Slot) :
    Slot → Prop where
  | elsewhere (after : Slot) (unconcerned : ¬ Concerns key call) (fades : slot.Fades after) :
      SlotStep cache call key slot after
  | idle (nothing : cache.Idle call) : SlotStep cache call key slot slot
  | put (amb : Ambient) (value : List UInt8) (ttl : Option Duration) (pinned : Bool)
      (result : Except IoError Unit) (after : Slot) (called : call = .put amb key value ttl pinned)
      (accepted : cache.keyStrategy.Accepts key) (nonempty : value ≠ [])
      (own : slot.Put (cache.persistsValue value) (cache.fitsMemory value) amb.now
        (amb.fault .write) (cache.putEntry amb value ttl pinned) result after) :
      SlotStep cache call key slot after
  | get (amb : Ambient) (result : Except IoError (Option (List UInt8))) (after : Slot)
      (called : call = .get amb key) (accepted : cache.keyStrategy.Accepts key)
      (own : slot.Got cache.fitsMemory amb.now amb.fault result after) :
      SlotStep cache call key slot after
  | emptied (deleting : (∃ amb, call = .invalidate amb key) ∨ ∃ amb, call = .clear amb) :
      SlotStep cache call key slot Slot.empty

/-- **The step lemma**: a call does to each slot what `SlotStep` says. -/
theorem step_slot (backed : cache.Backed contents domain) {call : Call}
    (quiet : call.ambient.Quiet) (indexed : Indexed domain s) (key : String) :
    cache.SlotStep call key (cache.slot contents s key)
      (cache.slot contents (cache.step call s) key) := by
  have spread : ∀ (own : String) (change : Slot → Slot → Prop) (after : CacheState σ),
      cache.Touches contents own change s after →
      (change (cache.slot contents s own) (cache.slot contents after own) →
        own = key → cache.SlotStep call key (cache.slot contents s key)
          (cache.slot contents after key)) →
      (own ≠ key → ¬ Concerns key call) →
      cache.SlotStep call key (cache.slot contents s key) (cache.slot contents after key) := by
    intro own change after touches here away
    by_cases same : own = key
    · exact here touches.own same
    · exact SlotStep.elsewhere _ (away same) (touches.others key fun equal => same equal.symm)
  cases call with
  | put amb own value ttl pinned =>
      have quiet : amb.Quiet := quiet
      by_cases active : cache.keyStrategy.Accepts own ∧ value ≠ []
      · obtain ⟨result, after, done, touches, _⟩ :=
          put_slot backed quiet indexed active.1 active.2 ttl pinned
        unfold step
        simp only [done]
        refine spread own _ after touches (fun change same => ?_) id
        subst same
        exact SlotStep.put amb value ttl pinned result _ rfl active.1 active.2 change
      · have idle : ¬ cache.keyStrategy.Accepts own ∨ value = [] := by
          rw [Classical.not_and_iff_not_or_not, not_not] at active
          exact active
        unfold step
        simp only [put_idle idle]
        exact SlotStep.idle idle
  | get amb own =>
      have quiet : amb.Quiet := quiet
      by_cases accepted : cache.keyStrategy.Accepts own
      · obtain ⟨result, after, done, touches, _⟩ := get_slot backed quiet accepted s
        unfold step
        simp only [done]
        refine spread own _ after touches (fun change same => ?_) id
        subst same
        exact SlotStep.get amb result _ rfl accepted change
      · obtain ⟨error, done⟩ := get_idle amb s accepted
        unfold step
        simp only [done]
        exact SlotStep.idle accepted
  | invalidate amb own =>
      by_cases accepted : cache.keyStrategy.Accepts own
      · rcases invalidate_slot amb backed accepted s with
          ⟨error, raised, done⟩ | ⟨after, done, slots, _⟩
        · unfold step
          simp only [done]
          exact SlotStep.idle (Or.inr ⟨error, raised⟩)
        · unfold step
          simp only [done]
          rw [slots]
          by_cases same : key = own
          · rw [if_pos same]
            exact SlotStep.emptied (Or.inl ⟨amb, same ▸ rfl⟩)
          · rw [if_neg same]
            exact SlotStep.elsewhere _ (fun equal => same equal.symm) (Slot.Fades.refl _)
      · obtain ⟨error, done⟩ := invalidate_idle amb s accepted
        unfold step
        simp only [done]
        exact SlotStep.idle (Or.inl accepted)
  | clear amb =>
      rcases clear_slot amb backed s with ⟨error, raised, done⟩ | ⟨after, done, slots, _⟩
      · unfold step
        simp only [done]
        exact SlotStep.idle ⟨error, raised⟩
      · unfold step
        simp only [done]
        rw [slots]
        exact SlotStep.emptied (Or.inr ⟨amb, rfl⟩)

/-- A call indexes no key that may not be given to the store. -/
theorem step_indexed (backed : cache.Backed contents domain) {call : Call}
    (quiet : call.ambient.Quiet) (indexed : Indexed domain s) :
    Indexed domain (cache.step call s) := by
  intro key record found
  have listed : (cache.slot contents (cache.step call s) key).index = some record.label := by
    show ((cache.step call s).disk.lookup key).map StoreRecord.label = _
    rw [found]
    rfl
  have before : (cache.slot contents s key).index = some record.label → domain key := by
    intro there
    obtain ⟨old, old_found, _⟩ := slot_index_some there
    exact indexed key old old_found
  have effect := step_slot backed quiet indexed key
  generalize cache.slot contents (cache.step call s) key = next at effect listed
  cases effect with
  | elsewhere _ unconcerned fades => exact before (fades.index_of listed)
  | idle nothing => exact before listed
  | put _ _ _ _ _ _ called accepted nonempty own => exact backed.accepts key accepted
  | get _ _ _ called accepted own => exact backed.accepts key accepted
  | emptied deleting => cases listed

/-- The room one call needs in the persistent tier. -/
def CallDiskRoom (cache : ContextCache σ) : Call → CacheState σ → Prop
  | .put amb key value ttl pinned, s => cache.DiskRoom key (cache.putEntry amb value ttl pinned) s
  | _, _ => True

/-- A call keeps the byte counter of the index exact, also when it fails. -/
theorem step_counted (backed : cache.Backed contents domain) {call : Call}
    (quiet : call.ambient.Quiet) (indexed : Indexed domain s) (room : cache.CallDiskRoom call s)
    (counted : DiskCounted s) : DiskCounted (cache.step call s) := by
  cases call with
  | put amb key value ttl pinned =>
      have quiet : amb.Quiet := quiet
      unfold step
      by_cases active : cache.keyStrategy.Accepts key ∧ value ≠ []
      · obtain ⟨result, after, done, _, counts⟩ :=
          put_slot backed quiet indexed active.1 active.2 ttl pinned
        simp only [done]
        exact counts room counted
      · rw [Classical.not_and_iff_not_or_not, not_not] at active
        simp only [put_idle active]
        exact counted
  | get amb key =>
      have quiet : amb.Quiet := quiet
      unfold step
      by_cases accepted : cache.keyStrategy.Accepts key
      · obtain ⟨result, after, done, _, counts⟩ := get_slot backed quiet accepted s
        simp only [done]
        exact counts counted
      · obtain ⟨error, done⟩ := get_idle amb s accepted
        simp only [done]
        exact counted
  | invalidate amb key =>
      unfold step
      by_cases accepted : cache.keyStrategy.Accepts key
      · rcases invalidate_slot amb backed accepted s with
          ⟨error, _, done⟩ | ⟨after, done, _, counts⟩
        · simp only [done]
          exact counted
        · simp only [done]
          exact counts counted
      · obtain ⟨error, done⟩ := invalidate_idle amb s accepted
        simp only [done]
        exact counted
  | clear amb =>
      unfold step
      rcases clear_slot amb backed s with ⟨error, _, done⟩ | ⟨after, done, _, counts⟩
      · simp only [done]
        exact counted
      · simp only [done]
        exact counts

end ContextCache

end RivetCache
