/-
**A cache rebuilt over its store.**

The index is maintained call by call from what the store reports; a new cache reconstructs it from the
store alone. Over a store that accounts exactly the two agree.

* `Accounted`: the index lists exactly what the store holds, with the bytes the store would report, and
  the byte counter is its total; every call that succeeds keeps it (`step_reopenable`);
* `loadRecords_rebuilt`: reconstruction keeps the unexpired part of what the store holds;
* `restart`: after any run, a new cache has the same index up to what has expired, evicts nothing, and
  answers as the old one for every key that is not in memory.
-/

import RivetCache.Cache.Refine
import RivetCache.Stores.File
import RivetCache.Stores.LayeredExact

set_option linter.unusedSectionVars false

namespace RivetCache

open Library

variable {σ : Type}

/-! ### An index of what a store holds -/

/-- **The index lists what is held**, with its bytes, expiry and pin. -/
structure IndexOf (footprint : StoredEntry → Nat) (held : String → Option StoredEntry)
    (index : Table String StoreRecord) : Prop where
  listed : ∀ key record, index.lookup key = some record → ∃ entry, held key = some entry ∧
    record.storedBytes = footprint entry ∧ record.expiresAt = entry.expiresAt ∧
    record.pinned = entry.pinned
  complete : ∀ key entry, held key = some entry → ∃ record, index.lookup key = some record

namespace IndexOf

variable {footprint : StoredEntry → Nat} {held : String → Option StoredEntry}
  {index : Table String StoreRecord}

theorem empty : IndexOf footprint (fun _ => none) ∅ :=
  ⟨fun _ _ found => (nomatch found), fun _ _ present => (nomatch present)⟩

theorem unheld (indexOf : IndexOf footprint held index) {key : String}
    (absent : index.lookup key = none) : held key = none := by
  cases present : held key with
  | none => rfl
  | some entry =>
      obtain ⟨record, found⟩ := indexOf.complete key entry present
      rw [absent] at found
      exact nomatch found

theorem erase (indexOf : IndexOf footprint held index) (key : String) :
    IndexOf footprint (Function.update held key none) (index.erase key) := by
  constructor
  · intro other record found
    rw [lookup_erase_eq] at found
    split at found
    case isTrue _ => exact nomatch found
    case isFalse different =>
      rw [Function.update_of_ne different]
      exact indexOf.listed other record found
  · intro other entry present
    rw [lookup_erase_eq]
    rw [Function.update_apply] at present
    split at present
    case isTrue _ => exact nomatch present
    case isFalse different =>
      rw [if_neg different]
      exact indexOf.complete other entry present

/-- A record of a held entry is added. -/
theorem insert (indexOf : IndexOf footprint held index) {key : String} {entry : StoredEntry}
    {record : StoreRecord} (bytes : record.storedBytes = footprint entry)
    (expires : record.expiresAt = entry.expiresAt) (pins : record.pinned = entry.pinned) :
    IndexOf footprint (Function.update held key (some entry)) (index.insert key record) := by
  constructor
  · intro other found inserted
    rw [lookup_insert_eq] at inserted
    rw [Function.update_apply]
    split at inserted
    case isTrue same =>
      cases inserted
      rw [if_pos same]
      exact ⟨entry, rfl, bytes, expires, pins⟩
    case isFalse different =>
      rw [if_neg different]
      exact indexOf.listed other found inserted
  · intro other held' present
    rw [lookup_insert_eq]
    rw [Function.update_apply] at present
    split at present
    case isTrue same => exact ⟨record, if_pos same⟩
    case isFalse different =>
      rw [if_neg different]
      exact indexOf.complete other held' present

/-- A record is replaced by one with the same bytes, expiry and pin. -/
theorem touch (indexOf : IndexOf footprint held index) {key : String} {old new : StoreRecord}
    (found : index.lookup key = some old) (bytes : new.storedBytes = old.storedBytes)
    (expires : new.expiresAt = old.expiresAt) (pins : new.pinned = old.pinned) :
    IndexOf footprint held (index.insert key new) := by
  obtain ⟨entry, present, bytes', expires', pins'⟩ := indexOf.listed key old found
  have inserted : IndexOf footprint (Function.update held key (some entry)) (index.insert key new) :=
    indexOf.insert (bytes.trans bytes') (expires.trans expires') (pins.trans pins')
  rwa [← present, Function.update_eq_self] at inserted

/-- **The bytes a snapshot lists** are those of an index of the same map. -/
theorem sum_snapshot {snapshot : StoreSnapshot} (accounts : snapshot.Accounts footprint held)
    (indexOf : IndexOf footprint held index) :
    (snapshot.entries.map StoreRecord.storedBytes).sum = diskTotal index := by
  let listing : Table String StoreRecord :=
    ⟨snapshot.entries.map fun record => ⟨record.key, record⟩, by
      unfold List.NodupKeys List.keys
      rw [List.map_map]
      exact accounts.nodup⟩
  have same : total StoreRecord.storedBytes listing =
      (snapshot.entries.map StoreRecord.storedBytes).sum := by
    unfold total
    rw [List.map_map]
    rfl
  rw [← same]
  refine total_congr fun key => ?_
  cases found : listing.lookup key with
  | some record =>
      obtain ⟨listed, member, equal⟩ := List.mem_map.mp (mem_of_lookup found)
      cases equal
      obtain ⟨entry, present, bytes, _⟩ := accounts.listed record member
      obtain ⟨other, indexed⟩ := indexOf.complete record.key entry present
      obtain ⟨entry', present', bytes', _⟩ := indexOf.listed record.key other indexed
      rw [present] at present'
      cases present'
      rw [indexed]
      exact bytes.trans bytes'.symm
  | none =>
      cases indexed : index.lookup key with
      | none => rfl
      | some other =>
          obtain ⟨entry, present, _⟩ := indexOf.listed key other indexed
          obtain ⟨record, member, rfl⟩ := accounts.complete key entry present
          have listed : listing.lookup record.key = some record :=
            lookup_of_mem (List.mem_map.mpr ⟨record, member, rfl⟩)
          rw [found] at listed
          exact nomatch listed

end IndexOf

namespace ContextCache

variable {cache : ContextCache σ} {store : PersistentStore σ} {valid : σ → Prop}
  {contents : σ → String → Option StoredEntry} {domain : String → Prop}
  {footprint : StoredEntry → Nat} {amb : Ambient} {s : CacheState σ} {key : String}

/-- **Index and store are in step, to the byte.** -/
structure Accounted (cache : ContextCache σ) (valid : σ → Prop)
    (contents : σ → String → Option StoredEntry) (footprint : StoredEntry → Nat)
    (s : CacheState σ) : Prop where
  valid : valid s.store
  indexOf : IndexOf footprint (contents s.store) s.disk
  counted : DiskCounted s
  sized : s.diskBytes ≤ u64Max
  idle : cache.maxDiskBytes = 0 → ∀ key, s.disk.lookup key = none

/-- Index and store are in step, and the tier is within its capacity or all pinned. -/
structure Reopenable (cache : ContextCache σ) (valid : σ → Prop)
    (contents : σ → String → Option StoredEntry) (footprint : StoredEntry → Nat)
    (s : CacheState σ) : Prop extends Accounted cache valid contents footprint s where
  within : s.diskBytes ≤ cache.maxDiskBytes ∨
    ∀ key record, s.disk.lookup key = some record → record.pinned = true

theorem Reopenable.diskBounded (settled : cache.Reopenable valid contents footprint s) :
    cache.DiskBounded s := ⟨settled.counted, settled.within⟩

theorem Accounted.of_kept {t : CacheState σ} (accounted : cache.Accounted valid contents footprint s)
    (kept : DiskKept s t) : cache.Accounted valid contents footprint t := by
  refine ⟨?_, ?_, ?_, ?_, ?_⟩
  · rw [kept.store]
    exact accounted.valid
  · rw [kept.store, kept.disk]
    exact accounted.indexOf
  · unfold DiskCounted
    rw [kept.diskBytes, kept.disk]
    exact accounted.counted
  · rw [kept.diskBytes]
    exact accounted.sized
  · rw [kept.disk]
    exact accounted.idle

theorem Reopenable.of_kept {t : CacheState σ} (settled : cache.Reopenable valid contents footprint s)
    (kept : DiskKept s t) : cache.Reopenable valid contents footprint t := by
  refine ⟨settled.toAccounted.of_kept kept, ?_⟩
  rw [kept.diskBytes, kept.disk]
  exact settled.within

section Store

variable (exact_ : ExactStore store valid contents domain footprint)
  (injected : cache.store = some store)

include exact_

/-- What the index lists is in the domain of the store. -/
theorem Accounted.inside (accounted : cache.Accounted valid contents footprint s)
    {record : StoreRecord} (found : s.disk.lookup key = some record) : domain key := by
  obtain ⟨entry, present, _⟩ := accounted.indexOf.listed key record found
  exact (exact_.held s.store key entry accounted.valid present).1

include injected

/-! ### Removals -/

theorem Accounted.removable (faultless : amb.Faultless) (site : StoreSite)
    (accounted : cache.Accounted valid contents footprint s) {record : StoreRecord}
    (found : s.disk.lookup key = some record) : cache.Removable amb site key s := by
  refine ⟨faultless site, fun other same => ?_⟩
  cases injected.symm.trans same
  obtain ⟨after, removed, _⟩ := exact_.remove s.store key accounted.valid
    (accounted.inside exact_ found)
  rw [removed]

/-- A removed record leaves index and store in step. -/
theorem Accounted.removed {t : CacheState σ} (accounted : cache.Accounted valid contents footprint s)
    {record : StoreRecord} (found : s.disk.lookup key = some record)
    (removed : cache.Removed key s t) : cache.Accounted valid contents footprint t := by
  obtain ⟨after, done, sound, left⟩ := exact_.remove s.store key accounted.valid
    (accounted.inside exact_ found)
  have stored : t.store = after := by
    rw [removed.store]
    unfold storeAfterRemove
    rw [injected]
    exact congrArg Prod.snd done
  refine ⟨?_, ?_, ?_, ?_, ?_⟩
  · rw [stored]
    exact sound
  · rw [stored, left, removed.disk]
    exact accounted.indexOf.erase key
  · exact removed.counted found accounted.counted
  · rw [removed.diskBytes record found]
    exact (Nat.sub_le _ _).trans accounted.sized
  · intro none_enabled other
    rw [removed.disk, lookup_erase_eq, accounted.idle none_enabled, ite_self]

theorem Reopenable.removed {t : CacheState σ} (settled : cache.Reopenable valid contents footprint s)
    {record : StoreRecord} (found : s.disk.lookup key = some record)
    (removed : cache.Removed key s t) : cache.Reopenable valid contents footprint t :=
  ⟨settled.toAccounted.removed exact_ injected found removed,
    (removed.bounded found settled.diskBounded).within⟩

/-- **Eviction** settles the tier. -/
theorem evictDiskLocked_reopenable (faultless : amb.Faultless)
    (productive : ∀ round, (amb.policy .disk round).Productive)
    (accounted : cache.Accounted valid contents footprint s) :
    ∃ evicted after, cache.evictDiskLocked amb s = (.ok evicted, after) ∧
      cache.Reopenable valid contents footprint after := by
  obtain ⟨evicted, after, done, kept, _, settled⟩ := evictDiskLocked_ok cache amb
    (I := cache.Accounted valid contents footprint)
    (fun round _ _ _ holds found => holds.removable exact_ injected faultless (.removeVictim round) found)
    (fun _ _ _ _ holds found _ removed => holds.removed exact_ injected found removed) accounted
  refine ⟨evicted, after, done, kept, ?_⟩
  rcases settled with within | ⟨round, nothing⟩
  · exact Or.inl within
  · exact Or.inr (diskCandidates_eq_nil (selectVictim_productive (productive round) nothing))

omit exact_ injected in
/-- **No eviction** where the tier is within its capacity or all pinned. -/
theorem evictDiskLocked_none (within : s.diskBytes ≤ cache.maxDiskBytes ∨
    ∀ key record, s.disk.lookup key = some record → record.pinned = true) :
    cache.evictDiskLocked amb s = (.ok 0, s) := by
  unfold evictDiskLocked
  cases s.disk.entries.length with
  | zero => rfl
  | succ fuel =>
      unfold evictLoop
      split
      case isFalse _ => rfl
      case isTrue above =>
        have pinned := within.resolve_left (by simpa using above)
        cases chosen : amb.selectVictim .disk 0 s.diskCandidates with
        | none => rfl
        | some candidate =>
            obtain ⟨record, found, unpinned⟩ := selectVictim_disk chosen
            rw [pinned _ _ found] at unpinned
            cases unpinned

omit exact_ injected in
theorem admitMemory_diskKept (cache : ContextCache σ) (amb : Ambient) (key : String)
    (entry : StoredEntry) (s : CacheState σ) :
    ∃ evictions after, cache.admitMemory amb key entry s = (.ok evictions, after) ∧
      DiskKept s after := by
  unfold admitMemory
  split
  case isFalse _ => exact ⟨0, s, rfl, DiskKept.refl s⟩
  case isTrue _ =>
    obtain ⟨evictions, after, done, _, kept, _⟩ := evictMemoryLocked_ok cache amb
      (I := fun _ => True) (fun _ _ _ _ _ _ => trivial) trivial
    exact ⟨evictions, after, done, (insertMemoryLocked_diskKept key _ _ _ s).trans kept⟩

/-! ### Reading -/

/-- What the persistent tier serves. -/
def served (contents : σ → String → Option StoredEntry) (now : Nat) (s : CacheState σ)
    (key : String) : Option (List UInt8) :=
  match s.disk.lookup key with
  | none => none
  | some record =>
      if isExpired record.expiresAt now then none else (contents s.store key).map StoredEntry.value

/-- **Reading the persistent tier** answers what it serves. -/
theorem getPersistent_reopenable (faultless : amb.Faultless) (key : String) (expirations : Nat)
    (settled : cache.Reopenable valid contents footprint s) :
    ∃ after, cache.getPersistent amb key expirations s =
        (.ok (served contents amb.now s key), after) ∧
      cache.Reopenable valid contents footprint after := by
  unfold getPersistent served
  cases found : s.disk.lookup key with
  | none => exact ⟨_, rfl, settled.of_kept ⟨⟨rfl, rfl⟩, rfl⟩⟩
  | some record =>
      simp only
      split
      case isTrue expired =>
        obtain ⟨after, done, removed⟩ := removeDiskRecordLocked_ok true found
          (settled.removable exact_ injected faultless .removeExpired found)
        rw [done, andThen_ok]
        exact ⟨_, rfl, (settled.removed exact_ injected found removed).of_kept ⟨⟨rfl, rfl⟩, rfl⟩⟩
      case isFalse live =>
        obtain ⟨entry, present, _, expires, pins⟩ := settled.indexOf.listed key record found
        obtain ⟨after, answered, sound, kept⟩ := exact_.get s.store key settled.valid
          (settled.inside exact_ found)
        rw [present] at answered
        rw [injected]
        simp only [callStore, faultless .read, answered]
        have same : (entry.expiresAt != record.expiresAt || entry.pinned != record.pinned) = false := by
          rw [expires, pins]
          simp
        rw [same, if_neg Bool.false_ne_true, present]
        have touched : cache.Reopenable valid contents footprint
            ((({ s with store := after } : CacheState σ).nextTick.touchDisk key record).count
              fun stats => { stats with diskHits := satAdd stats.diskHits 1 }) := by
          have bounded := touchDisk_bounded (s := s.nextTick) found
            (settled.of_kept (t := s.nextTick) ⟨⟨rfl, rfl⟩, rfl⟩).diskBounded
          refine ⟨⟨sound, ?_, bounded.counted, settled.sized, ?_⟩, bounded.within⟩
          · show IndexOf footprint (contents after) (s.disk.insert key _)
            rw [kept]
            exact settled.indexOf.touch found rfl rfl rfl
          · intro none_enabled
            rw [settled.idle none_enabled] at found
            cases found
        unfold servePersistent
        obtain ⟨evictions, last, admitted, frame⟩ := admitMemory_diskKept cache amb key entry
          ((({ s with store := after } : CacheState σ).nextTick.touchDisk key record).count
            fun stats => { stats with diskHits := satAdd stats.diskHits 1 })
        simp only [admitted, andThen_ok]
        exact ⟨_, rfl, (touched.of_kept frame).of_kept ⟨⟨rfl, rfl⟩, rfl⟩⟩

/-- `get` of a key that is not in memory answers what the persistent tier serves. -/
theorem get_served (faultless : amb.Faultless) (settled : cache.Reopenable valid contents footprint s)
    (accepted : cache.keyStrategy.Accepts key) (cold : s.memory.lookup key = none) :
    (cache.get amb key s).1 = .ok (served contents amb.now s key) := by
  obtain ⟨after, done, _⟩ := getPersistent_reopenable exact_ injected faultless key 0 settled
  have validated : cache.keyStrategy.validate key = .ok () := accepted
  unfold get
  simp only [validated, cold, done]

/-- **`get`** keeps index and store in step. -/
theorem get_reopenable (faultless : amb.Faultless) (settled : cache.Reopenable valid contents footprint s)
    (key : String) : cache.Reopenable valid contents footprint (cache.get amb key s).2 := by
  unfold get
  split
  case h_1 _ _ => exact settled
  case h_2 _ =>
    split
    case h_1 _ =>
      obtain ⟨after, done, last⟩ := getPersistent_reopenable exact_ injected faultless key 0 settled
      rw [done]
      exact last
    case h_2 record _ =>
      split
      case isTrue _ =>
        have forgotten := settled.of_kept (forgetMemory_diskKept key s)
        obtain ⟨after, done, last⟩ := getPersistent_reopenable exact_ injected faultless key 1
          (forgotten.of_kept (t := (s.forgetMemory key).count fun stats =>
            { stats with expirations := satAdd stats.expirations 1 }) ⟨⟨rfl, rfl⟩, rfl⟩)
        rw [done]
        exact last
      case isFalse _ => exact settled.of_kept ⟨⟨rfl, rfl⟩, rfl⟩

/-! ### Writing -/

/-- **The persistent half of `put`** fails on a key the store refuses, and otherwise keeps index and
store in step. -/
theorem putPersistent_reopenable (key : String) (faultless : amb.Faultless)
    (productive : ∀ round, (amb.policy .disk round).Productive) {entry : StoredEntry}
    (sized : entry.Representable) (room : cache.DiskRoom key entry s)
    (settled : cache.Reopenable valid contents footprint s) :
    (∃ error after, cache.putPersistent amb key entry s = (.error error, after)) ∨
      ∃ counts after, cache.putPersistent amb key entry s = (.ok counts, after) ∧
        cache.Reopenable valid contents footprint after := by
  unfold putPersistent
  split
  case isFalse _ => exact Or.inr ⟨_, s, rfl, settled⟩
  case isTrue fits =>
    have enabled : cache.maxDiskBytes ≠ 0 := by
      unfold fitsDisk at fits
      simp only [Bool.and_eq_true, decide_eq_true_eq] at fits
      omega
    rw [injected]
    simp only
    have removable : ∀ record, s.disk.lookup key = some record →
        cache.Removable amb .removeExpired key s :=
      fun record found => settled.removable exact_ injected faultless .removeExpired found
    obtain ⟨expirations, t, dropped, state⟩ := dropExpired_ok removable
    have purged : cache.Reopenable valid contents footprint t := by
      rcases state with ⟨rfl, _⟩ | ⟨record, found, _, removed⟩
      · exact settled
      · exact settled.removed exact_ injected found removed
    have from_store : t.store = s.store ∨ t.store = (store.remove key s.store).2 := by
      rcases state with ⟨rfl, _⟩ | ⟨_, _, _, removed⟩
      · exact Or.inl rfl
      · refine Or.inr (removed.store.trans ?_)
        unfold storeAfterRemove
        rw [injected]
    rw [dropped, andThen_ok]
    cases found : t.disk.lookup key with
    | some record => exact Or.inr ⟨_, t, rfl, purged⟩
    | none =>
        have index_same : t.disk = s.disk.erase key := by
          rcases state with ⟨rfl, _⟩ | ⟨_, _, _, removed⟩
          · exact (erase_of_lookup_none found).symm
          · exact removed.disk
        unfold writePersistent callStore
        rw [faultless]
        by_cases inside : domain key
        · have absent := purged.indexOf.unheld found
          obtain ⟨after, inserted, sound, written⟩ :=
            exact_.absent t.store key entry purged.valid inside sized absent
          have fits := room store injected t.store from_store (footprint entry)
            (congrArg Prod.fst inserted)
          rw [← index_same] at fits
          simp only [inserted, andThen_ok, if_true]
          let arrived : CacheState σ := { t with store := after }
          have counted := indexRecord_counted (s := arrived.nextTick)
            ⟨key, footprint entry, entry.expiresAt, entry.pinned, arrived.nextTick.tick⟩ found
            purged.counted fits
          have listed : cache.Accounted valid contents footprint (arrived.nextTick.indexRecord
              ⟨key, footprint entry, entry.expiresAt, entry.pinned, arrived.nextTick.tick⟩) := by
            refine ⟨sound, ?_, counted, satAdd_le_max _ _, fun none_enabled => absurd none_enabled enabled⟩
            show IndexOf footprint (contents after) (t.disk.insert key _)
            rw [written]
            exact purged.indexOf.insert rfl rfl rfl
          obtain ⟨evicted, last, done, settled⟩ :=
            evictDiskLocked_reopenable exact_ injected faultless productive listed
          refine Or.inr ⟨(expirations, evicted), last, ?_, settled⟩
          show andThen (cache.evictDiskLocked amb _) _ = _
          rw [done]
          rfl
        · obtain ⟨error, after, refused⟩ := exact_.putOutside t.store key entry purged.valid inside
          simp only [refused, andThen_error]
          exact Or.inl ⟨error, _, rfl⟩

/-- **`put`** that succeeds keeps index and store in step. -/
theorem put_reopenable (faultless : amb.Faultless)
    (productive : ∀ round, (amb.policy .disk round).Productive) {value : List UInt8}
    {ttl : Option Duration} {pinned : Bool} (sized : value.length ≤ isizeMax)
    (room : cache.DiskRoom key (cache.putEntry amb value ttl pinned) s)
    (settled : cache.Reopenable valid contents footprint s)
    (succeeded : (cache.put amb key value ttl pinned s).1 = .ok ()) :
    cache.Reopenable valid contents footprint (cache.put amb key value ttl pinned s).2 := by
  have representable : (cache.putEntry amb value ttl pinned).Representable := by
    refine ⟨?_, sized⟩
    show expiryAt amb.now (ttl.getD cache.defaultTtl) ≤ u64Max
    unfold expiryAt
    split
    · exact Nat.zero_le _
    · exact satAdd_le_max _ _
  unfold put at succeeded ⊢
  split at succeeded
  case h_1 _ _ => exact nomatch succeeded
  case h_2 accepted =>
    simp only
    split
    case isTrue _ => exact settled
    case isFalse filled =>
      rw [if_neg filled] at succeeded
      rcases putPersistent_reopenable exact_ injected key faultless productive representable room
        settled with ⟨error, after, failed⟩ | ⟨counts, after, done, last⟩
      · simp only [failed, andThen_error] at succeeded
        exact nomatch succeeded
      · obtain ⟨evictions, final, admitted, frame⟩ := admitMemory_diskKept cache amb key
          (cache.putEntry amb value ttl pinned) after
        obtain ⟨expirations, diskEvictions⟩ := counts
        simp only [done, admitted, andThen_ok]
        exact (last.of_kept frame).of_kept
          (Reported.write final expirations evictions diskEvictions).toDiskKept

/-! ### Deleting -/

/-- **`invalidate`** that succeeds keeps index and store in step. -/
theorem invalidate_reopenable (faultless : amb.Faultless)
    (settled : cache.Reopenable valid contents footprint s)
    (succeeded : (cache.invalidate amb key s).1 = .ok ()) :
    cache.Reopenable valid contents footprint (cache.invalidate amb key s).2 := by
  unfold invalidate at succeeded ⊢
  split at succeeded
  case h_1 _ _ => exact nomatch succeeded
  case h_2 accepted =>
    unfold removeStored callStore at succeeded ⊢
    rw [injected] at succeeded ⊢
    simp only [faultless .removeInvalidated] at succeeded ⊢
    by_cases inside : domain key
    · obtain ⟨after, removed, sound, left⟩ := exact_.remove s.store key settled.valid inside
      simp only [removed, andThen_ok]
      unfold dropKey
      have kept := forgetMemory_diskKept key { s with store := after }
      cases found : s.disk.lookup key with
      | none =>
          have same : (({ s with store := after } : CacheState σ).forgetMemory key).disk.lookup key =
              none := by
            rw [kept.disk]
            exact found
          have absent := settled.indexOf.unheld found
          simp only [same]
          have unchanged : contents after = contents s.store := by
            rw [left, ← absent, Function.update_eq_self]
          have accounted : cache.Reopenable valid contents footprint { s with store := after } :=
            ⟨⟨sound, by rw [unchanged]; exact settled.indexOf, settled.counted, settled.sized,
              settled.idle⟩, settled.within⟩
          exact (accounted.of_kept kept).of_kept ⟨⟨rfl, rfl⟩, rfl⟩
      | some record =>
          have same : (({ s with store := after } : CacheState σ).forgetMemory key).disk.lookup key =
              some record := by
            rw [kept.disk]
            exact found
          simp only [same]
          have bounded := forgetDisk_bounded found settled.diskBounded
          have accounted : cache.Reopenable valid contents footprint
              (({ s with store := after } : CacheState σ).forgetDisk key record.storedBytes) := by
            refine ⟨⟨sound, ?_, bounded.counted, (Nat.sub_le _ _).trans settled.sized, ?_⟩,
              bounded.within⟩
            · show IndexOf footprint (contents after) (s.disk.erase key)
              rw [left]
              exact settled.indexOf.erase key
            · intro none_enabled other
              show (s.disk.erase key).lookup other = none
              rw [lookup_erase_eq, settled.idle none_enabled, ite_self]
          refine accounted.of_kept ⟨⟨?_, ?_⟩, kept.store⟩
          · show (CacheState.forgetMemory key _).disk.erase key = _
            rw [kept.disk]
            rfl
          · show satSub (CacheState.forgetMemory key _).diskBytes record.storedBytes = _
            rw [kept.diskBytes]
            rfl
    · obtain ⟨error, after, refused⟩ := exact_.removeOutside s.store key settled.valid inside
      simp only [refused, andThen_error] at succeeded
      exact nomatch succeeded

/-- **`clear`** empties both. -/
theorem clear_reopenable (faultless : amb.Faultless)
    (settled : cache.Reopenable valid contents footprint s) :
    cache.Reopenable valid contents footprint (cache.clear amb s).2 := by
  obtain ⟨after, cleared, sound, left⟩ := exact_.clear s.store settled.valid
  unfold clear clearStored callStore
  rw [injected]
  simp only [faultless .clear, cleared, andThen_ok]
  refine ⟨⟨sound, ?_, rfl, Nat.zero_le _, fun _ _ => rfl⟩, Or.inl (Nat.zero_le _)⟩
  show IndexOf footprint (contents after) ∅
  rw [left]
  exact IndexOf.empty

/-! ### Reconstruction -/

omit injected in
/-- **The loop over the snapshot** indexes what has not expired, and deletes the rest from the store. -/
theorem loadRecords_rebuilt (faultless : amb.Faultless) :
    ∀ (records : List StoreRecord) (s : CacheState σ), (records.map StoreRecord.key).Nodup →
      (∀ record ∈ records, domain record.key) → valid s.store →
      ∃ expirations t, loadRecords store amb records s = (.ok expirations, t) ∧ valid t.store ∧
        t.stats.diskEvictions = s.stats.diskEvictions ∧ t.events = s.events ∧
        (∀ key, key ∉ records.map StoreRecord.key →
          t.disk.lookup key = s.disk.lookup key ∧ contents t.store key = contents s.store key) ∧
        ∀ record ∈ records, if isExpired record.expiresAt amb.now then
            t.disk.lookup record.key = s.disk.lookup record.key ∧ contents t.store record.key = none
          else t.disk.lookup record.key = some record ∧
            contents t.store record.key = contents s.store record.key
  | [], s, _, _, sound =>
      ⟨0, s, rfl, sound, rfl, rfl, fun _ _ => ⟨rfl, rfl⟩, fun _ member => absurd member List.not_mem_nil⟩
  | record :: rest, s, nodup, inside, sound => by
      rw [List.map_cons, List.nodup_cons] at nodup
      unfold loadRecords
      split
      case isTrue expired =>
        obtain ⟨after, removed, sound', left⟩ := exact_.remove s.store record.key sound
          (inside record List.mem_cons_self)
        obtain ⟨expirations, t, done, last, evictions, events, others, listed⟩ :=
          loadRecords_rebuilt faultless rest
            (({ s with store := after } : CacheState σ).count fun stats =>
              { stats with expirations := satAdd stats.expirations 1 })
            nodup.2 (fun other member => inside other (List.mem_cons_of_mem _ member)) sound'
        have other_store : ∀ key, key ≠ record.key → contents after key = contents s.store key := by
          intro key different
          rw [left, Function.update_of_ne different]
        unfold callStore
        rw [faultless]
        simp only [removed, andThen_ok, done]
        refine ⟨_, t, rfl, last, evictions, events, fun key outside => ?_, fun other member => ?_⟩
        · rw [List.map_cons, List.mem_cons, not_or] at outside
          have kept := others key outside.2
          exact ⟨kept.1, kept.2.trans (other_store key outside.1)⟩
        · rcases List.mem_cons.mp member with rfl | member
          · have kept := others other.key nodup.1
            rw [if_pos expired]
            refine ⟨kept.1, kept.2.trans ?_⟩
            show contents after other.key = none
            rw [left, Function.update_self]
          · have different : other.key ≠ record.key := fun same =>
              nodup.1 (same ▸ List.mem_map_of_mem member)
            have kept := listed other member
            split at kept
            case isTrue gone =>
              rw [if_pos gone]
              exact kept
            case isFalse live =>
              rw [if_neg live]
              exact ⟨kept.1, kept.2.trans (other_store _ different)⟩
      case isFalse live =>
        let met : CacheState σ := { s with tick := max s.tick record.lastAccess }
        obtain ⟨expirations, t, done, last, evictions, events, others, listed⟩ :=
          loadRecords_rebuilt faultless rest (met.indexRecord record) nodup.2
            (fun other member => inside other (List.mem_cons_of_mem _ member)) sound
        have other_index : ∀ key, key ≠ record.key →
            (met.indexRecord record).disk.lookup key = s.disk.lookup key := by
          intro key different
          rw [CacheState.indexRecord_disk, lookup_insert_eq, if_neg different]
        refine ⟨expirations, t, done, last, evictions, events, fun key outside => ?_,
          fun other member => ?_⟩
        · rw [List.map_cons, List.mem_cons, not_or] at outside
          have kept := others key outside.2
          exact ⟨kept.1.trans (other_index key outside.1), kept.2⟩
        · rcases List.mem_cons.mp member with rfl | member
          · have kept := others other.key nodup.1
            rw [if_neg live]
            refine ⟨kept.1.trans ?_, kept.2⟩
            rw [CacheState.indexRecord_disk, lookup_insert_eq, if_pos rfl]
          · have different : other.key ≠ record.key := fun same =>
              nodup.1 (same ▸ List.mem_map_of_mem member)
            have kept := listed other member
            split at kept
            case isTrue gone =>
              rw [if_pos gone]
              exact ⟨kept.1.trans (other_index _ different), kept.2⟩
            case isFalse unexpired =>
              rw [if_neg unexpired]
              exact kept

omit exact_ injected in
/-- **What a reconstruction keeps** of an index, and of what the store holds. -/
structure Rebuilt (contents : σ → String → Option StoredEntry) (now : Nat)
    (held : String → Option StoredEntry) (index : Table String StoreRecord) (s : CacheState σ) :
    Prop where
  live : ∀ key record, index.lookup key = some record → isExpired record.expiresAt now = false →
    contents s.store key = held key ∧ ∃ next, s.disk.lookup key = some next ∧
      next.storedBytes = record.storedBytes ∧ next.expiresAt = record.expiresAt ∧
      next.pinned = record.pinned
  expired : ∀ key record, index.lookup key = some record → isExpired record.expiresAt now = true →
    s.disk.lookup key = none ∧ contents s.store key = none
  absent : ∀ key, index.lookup key = none → s.disk.lookup key = none ∧ contents s.store key = none

omit exact_ injected in
/-- What a rebuilt index lists was indexed before, and has not expired. -/
theorem Rebuilt.of_listed {now : Nat} {held : String → Option StoredEntry} {index : Table String StoreRecord}
    {key : String} {record : StoreRecord} (rebuilt : Rebuilt contents now held index s)
    (found : s.disk.lookup key = some record) :
    ∃ old, index.lookup key = some old ∧ contents s.store key = held key ∧
      record.storedBytes = old.storedBytes ∧ record.expiresAt = old.expiresAt ∧ record.pinned = old.pinned := by
  cases indexed : index.lookup key with
  | none =>
      rw [(rebuilt.absent key indexed).1] at found
      cases found
  | some old =>
      cases past : isExpired old.expiresAt now with
      | true =>
          rw [(rebuilt.expired key old indexed past).1] at found
          cases found
      | false =>
          obtain ⟨kept, next, there, same⟩ := rebuilt.live key old indexed past
          rw [found] at there
          cases there
          exact ⟨old, rfl, kept, same⟩

omit exact_ injected in
theorem Rebuilt.indexOf {now : Nat} {held : String → Option StoredEntry}
    {index : Table String StoreRecord} (rebuilt : Rebuilt contents now held index s)
    (indexOf : IndexOf footprint held index) : IndexOf footprint (contents s.store) s.disk := by
  constructor
  · intro key record found
    obtain ⟨old, indexed, kept, bytes, expires, pins⟩ := rebuilt.of_listed found
    obtain ⟨entry, present, bytes', expires', pins'⟩ := indexOf.listed key old indexed
    exact ⟨entry, kept.trans present, bytes.trans bytes', expires.trans expires', pins.trans pins'⟩
  · intro key entry present
    cases indexed : index.lookup key with
    | none =>
        rw [(rebuilt.absent key indexed).2] at present
        exact nomatch present
    | some old =>
        cases past : isExpired old.expiresAt now with
        | true =>
            rw [(rebuilt.expired key old indexed past).2] at present
            exact nomatch present
        | false =>
            obtain ⟨_, next, there, _⟩ := rebuilt.live key old indexed past
            exact ⟨next, there⟩

omit exact_ injected in
/-- The bytes of a rebuilt index. -/
theorem Rebuilt.total {now : Nat} {held : String → Option StoredEntry}
    {index : Table String StoreRecord} (rebuilt : Rebuilt contents now held index s) :
    diskTotal s.disk = Library.total
      (fun record => if isExpired record.expiresAt now then 0 else record.storedBytes) index := by
  refine total_congr fun key => ?_
  cases indexed : index.lookup key with
  | none =>
      rw [(rebuilt.absent key indexed).1]
      rfl
  | some old =>
      cases past : isExpired old.expiresAt now with
      | true =>
          rw [(rebuilt.expired key old indexed past).1]
          simp [past]
      | false =>
          obtain ⟨_, next, there, bytes, _⟩ := rebuilt.live key old indexed past
          rw [there]
          simp [past, bytes]

omit exact_ injected in
theorem Rebuilt.total_le {now : Nat} {held : String → Option StoredEntry}
    {index : Table String StoreRecord} (rebuilt : Rebuilt contents now held index s) :
    diskTotal s.disk ≤ diskTotal index := by
  rw [rebuilt.total]
  refine total_le_total fun key record _ => ?_
  split
  · exact Nat.zero_le _
  · exact le_refl _

omit exact_ injected in
/-- **The loop over the snapshot** of a store rebuilds an index of what the store holds. -/
theorem rebuilt_of_loaded {snapshot : StoreSnapshot} {held : String → Option StoredEntry} {now : Nat}
    {index : Table String StoreRecord} {loading t : CacheState σ}
    (accounts : snapshot.Accounts footprint held) (indexOf : IndexOf footprint held index)
    (empty : ∀ key, loading.disk.lookup key = none) (same : contents loading.store = held)
    (others : ∀ key, key ∉ snapshot.entries.map StoreRecord.key →
      t.disk.lookup key = loading.disk.lookup key ∧ contents t.store key = contents loading.store key)
    (listed : ∀ record ∈ snapshot.entries, if isExpired record.expiresAt now then
        t.disk.lookup record.key = loading.disk.lookup record.key ∧ contents t.store record.key = none
      else t.disk.lookup record.key = some record ∧
        contents t.store record.key = contents loading.store record.key) :
    Rebuilt contents now held index t := by
  have met : ∀ key old, index.lookup key = some old → ∃ record ∈ snapshot.entries,
      record.key = key ∧ record.storedBytes = old.storedBytes ∧
      record.expiresAt = old.expiresAt ∧ record.pinned = old.pinned := by
    intro key old indexed
    obtain ⟨entry, present, bytes, expires, pins⟩ := indexOf.listed key old indexed
    obtain ⟨record, member, rfl⟩ := accounts.complete key entry present
    obtain ⟨entry', present', bytes', expires', pins'⟩ := accounts.listed record member
    rw [present] at present'
    cases present'
    exact ⟨record, member, rfl, bytes'.trans bytes.symm, expires'.trans expires.symm,
      pins'.trans pins.symm⟩
  refine ⟨fun key old indexed past => ?_, fun key old indexed past => ?_, fun key indexed => ?_⟩
  · obtain ⟨record, member, rfl, bytes, expires, pins⟩ := met key old indexed
    have kept := listed record member
    rw [if_neg (by rw [expires, past]; simp), same] at kept
    exact ⟨kept.2, record, kept.1, bytes, expires, pins⟩
  · obtain ⟨record, member, rfl, _, expires, _⟩ := met key old indexed
    have kept := listed record member
    rw [if_pos (by rw [expires, past])] at kept
    exact ⟨kept.1.trans (empty _), kept.2⟩
  · have unlisted : key ∉ snapshot.entries.map StoreRecord.key := by
      intro member
      obtain ⟨record, inside, rfl⟩ := List.mem_map.mp member
      obtain ⟨entry, present, _⟩ := accounts.listed record inside
      rw [indexOf.unheld indexed] at present
      exact nomatch present
    have kept := others key unlisted
    rw [same, indexOf.unheld indexed] at kept
    exact ⟨kept.1.trans (empty _), kept.2⟩

omit exact_ injected in
/-- **Construction without a persistent tier**, over a store that holds nothing. -/
theorem fromBuilder_disabled (amb : Ambient) {stored : σ} (sound : valid stored)
    {index : Table String StoreRecord} (indexOf : IndexOf footprint (contents stored) index)
    (disabled : cache.maxDiskBytes = 0) (unlisted : ∀ key, index.lookup key = none) :
    ∃ next, cache.fromBuilder amb stored = (.ok (), next) ∧
      cache.Reopenable valid contents footprint next ∧
      Rebuilt contents amb.now (contents stored) index next ∧
      (∀ key, next.memory.lookup key = none) ∧ next.stats.diskEvictions = 0 ∧
      ∀ count, CacheEvent.persistentEviction count ∉ next.events := by
  have unheld : ∀ key, contents stored key = none := fun key => indexOf.unheld (unlisted key)
  have empty : IndexOf footprint (contents stored) (∅ : Table String StoreRecord) :=
    ⟨fun _ _ found => (nomatch found), fun key entry present => by
      rw [unheld] at present
      exact nomatch present⟩
  refine ⟨CacheState.initial stored, ?_, ⟨⟨sound, empty, rfl, Nat.zero_le _, fun _ _ => rfl⟩,
    Or.inl (Nat.zero_le _)⟩, ⟨fun key record indexed => ?_, fun key record indexed => ?_,
    fun key _ => ⟨rfl, unheld key⟩⟩, fun _ => rfl, rfl, fun _ member => absurd member List.not_mem_nil⟩
  · unfold fromBuilder
    rw [if_neg (by omega)]
  · rw [unlisted] at indexed
    exact nomatch indexed
  · rw [unlisted] at indexed
    exact nomatch indexed

/-- **Construction** over a store whose map an index lists, within the capacity or all pinned: the new
index lists the unexpired part of it, and nothing is evicted. -/
theorem fromBuilder_rebuilt (faultless : amb.Faultless) {stored : σ} (sound : valid stored)
    {index : Table String StoreRecord} (indexOf : IndexOf footprint (contents stored) index)
    (sized : diskTotal index ≤ u64Max)
    (within : diskTotal index ≤ cache.maxDiskBytes ∨
      ∀ key record, index.lookup key = some record → record.pinned = true)
    (idle : cache.maxDiskBytes = 0 → ∀ key, index.lookup key = none) :
    ∃ next, cache.fromBuilder amb stored = (.ok (), next) ∧
      cache.Reopenable valid contents footprint next ∧
      Rebuilt contents amb.now (contents stored) index next ∧
      (∀ key, next.memory.lookup key = none) ∧ next.stats.diskEvictions = 0 ∧
      ∀ count, CacheEvent.persistentEviction count ∉ next.events := by
  by_cases enabled : cache.maxDiskBytes > 0
  · obtain ⟨snapshot, opened, loaded, sound', same, accounts⟩ := exact_.loadIndex stored sound
    have inside : ∀ record ∈ snapshot.entries, domain record.key := by
      intro record member
      obtain ⟨entry, present, _⟩ := accounts.listed record member
      exact (exact_.held stored record.key entry sound present).1
    let loading : CacheState σ :=
      ({ CacheState.initial stored with store := opened } : CacheState σ).count fun stats =>
        { stats with corruptions := satAdd stats.corruptions snapshot.corruptions }
    obtain ⟨expirations, t, read, last, evictions, events, others, listed⟩ :=
      loadRecords_rebuilt exact_ faultless snapshot.entries loading accounts.nodup inside sound'
    have initial_index : ∀ key, loading.disk.lookup key = none := fun _ => rfl
    have initial_contents : contents loading.store = contents stored := same
    have rebuilt : Rebuilt contents amb.now (contents stored) index t :=
      rebuilt_of_loaded accounts indexOf initial_index initial_contents others listed
    have kept : DiskCounted t ∧ MemoryKept loading t := by
      have kept := loadRecords_counted amb store snapshot.entries loading accounts.nodup
        (fun record _ => initial_index record.key) rfl (by
          rw [IndexOf.sum_snapshot accounts indexOf]
          show 0 + _ ≤ _
          omega)
      rwa [read] at kept
    obtain ⟨counted, memory⟩ := kept
    have bytes : t.diskBytes = diskTotal t.disk := counted
    have smaller := rebuilt.total_le
    have settled : cache.Reopenable valid contents footprint t := by
      refine ⟨⟨last, rebuilt.indexOf indexOf, counted, by omega, fun none_enabled => by omega⟩, ?_⟩
      rcases within with within | pinned
      · exact Or.inl (by omega)
      · refine Or.inr fun key record found => ?_
        obtain ⟨old, indexed, _, _, _, pins⟩ := rebuilt.of_listed found
        exact pins.trans (pinned key old indexed)
    have called : callStore amb .loadIndex store.loadIndex (CacheState.initial stored) =
        (.ok snapshot, { CacheState.initial stored with store := opened }) := by
      unfold callStore
      rw [faultless]
      show ((store.loadIndex stored).1, _) = _
      rw [loaded]
      show _ = (_, ({ CacheState.initial stored with store := opened } : CacheState σ))
      simp only [loaded, CacheState.initial]
    refine ⟨((t.recordCount .corruption snapshot.corruptions).recordCount .expiration
      expirations).recordCount .persistentEviction 0, ?_, settled.of_kept ⟨⟨rfl, rfl⟩, rfl⟩,
      ⟨rebuilt.live, rebuilt.expired, rebuilt.absent⟩, fun key => ?_, evictions,
      fun count member => ?_⟩
    · unfold fromBuilder
      rw [if_pos enabled, injected]
      simp only [called, andThen_ok]
      show andThen (loadRecords store amb snapshot.entries loading) _ = _
      simp only [read, andThen_ok, evictDiskLocked_none settled.within]
    · show t.memory.lookup key = none
      rw [memory.memory]
      rfl
    · have nothing : t.events = [] := events
      have corruption : snapshot.corruptions = 0 := accounts.corruptions
      simp only [CacheState.recordCount_events, corruption, nothing, gt_iff_lt, lt_self_iff_false,
        if_false] at member
      split at member
      · simp at member
      · simp at member
  · have disabled : cache.maxDiskBytes = 0 := by omega
    exact fromBuilder_disabled amb sound indexOf disabled (idle disabled)

/-! ### Runs -/

omit exact_ injected in
/-- The store calls of a call succeed: it returns `Ok` unless its key is rejected. -/
def Succeeds (cache : ContextCache σ) : Call → CacheState σ → Prop
  | .put amb key value ttl pinned, s => cache.keyStrategy.Accepts key →
      (cache.put amb key value ttl pinned s).1 = .ok ()
  | .get amb key, s => cache.keyStrategy.Accepts key → ∃ value, (cache.get amb key s).1 = .ok value
  | .invalidate amb key, s => cache.keyStrategy.Accepts key →
      (cache.invalidate amb key s).1 = .ok ()
  | .clear amb, s => (cache.clear amb s).1 = .ok ()

/-- The value a call writes is a vector. -/
def CallSized : Call → Prop
  | .put _ _ value _ _ => value.length ≤ isizeMax
  | _ => True

/-- A call without store failures, under least-recently-used eviction, which leaves the stored bytes below
`2 ^ 64` in total. -/
structure CleanCall (cache : ContextCache σ) (call : Call) (s : CacheState σ) : Prop where
  faultless : call.ambient.Faultless
  lru : call.ambient.UsesLru
  sized : CallSized call
  succeeds : cache.Succeeds call s
  room : cache.CallDiskRoom call s

/-- **One call** keeps index and store in step, to the byte. -/
theorem step_reopenable {call : Call} (clean : cache.CleanCall call s)
    (settled : cache.Reopenable valid contents footprint s) :
    cache.Reopenable valid contents footprint (cache.step call s) := by
  cases call with
  | put amb key value ttl pinned =>
      show cache.Reopenable valid contents footprint (cache.put amb key value ttl pinned s).2
      by_cases accepted : cache.keyStrategy.Accepts key
      · exact put_reopenable exact_ injected clean.faultless (clean.lru.productive .disk) clean.sized
          clean.room settled (clean.succeeds accepted)
      · rw [put_idle (Or.inl accepted)]
        exact settled
  | get amb key => exact get_reopenable exact_ injected clean.faultless settled key
  | invalidate amb key =>
      show cache.Reopenable valid contents footprint (cache.invalidate amb key s).2
      by_cases accepted : cache.keyStrategy.Accepts key
      · exact invalidate_reopenable exact_ injected clean.faultless settled (clean.succeeds accepted)
      · obtain ⟨error, done⟩ := invalidate_idle amb s accepted
        rw [done]
        exact settled
  | clear amb => exact clear_reopenable exact_ injected clean.faultless settled

omit exact_ injected in
/-- A rebuilt index serves what the old one serves, from the reconstruction on. -/
theorem served_rebuilt {now later : Nat} (order : now ≤ later) {next : CacheState σ}
    (rebuilt : Rebuilt contents now (contents s.store) s.disk next) :
    served contents later next key = served contents later s key := by
  unfold served
  cases indexed : s.disk.lookup key with
  | none => rw [(rebuilt.absent key indexed).1]
  | some old =>
      cases past : isExpired old.expiresAt now with
      | true =>
          rw [(rebuilt.expired key old indexed past).1]
          simp only [isExpired_mono order past, if_true]
      | false =>
          obtain ⟨kept, record, there, _, expires, _⟩ := rebuilt.live key old indexed past
          rw [there]
          simp only [expires, kept]

/-- **A run** from construction over an empty store keeps index and store in step. -/
theorem run_reopenable {first : Ambient} (faultless : first.Faultless) {stored : σ} (sound : valid stored)
    (empty : ∀ key, contents stored key = none)
    (reached : Reaches cache.step cache.CleanCall (cache.fromBuilder first stored).2 s) :
    cache.Reopenable valid contents footprint s := by
  have nothing : IndexOf footprint (contents stored) (∅ : Table String StoreRecord) := by
    rw [show contents stored = fun _ => none from funext empty]
    exact IndexOf.empty
  obtain ⟨start, built, settled, _⟩ := fromBuilder_rebuilt exact_ injected faultless sound nothing
    (Nat.zero_le _) (Or.inl (Nat.zero_le _)) fun _ _ => rfl
  refine reached.invariant (cache.Reopenable valid contents footprint) ?_
    fun call t settled clean => step_reopenable exact_ injected clean settled
  rw [built]
  exact settled

end Store

/-! ### The bundled stores -/

/-- **The stores of the crate, empty**: a volatile store, a file store over an empty directory, a layered
store of such stores. -/
inductive EmptyBundled : (σ : Type) → PersistentStore σ → σ → Prop where
  | volatile : EmptyBundled VolatileStore volatileStore .new
  | file (os : FileAmbient) (faultless : os.Faultless) :
      EmptyBundled Directory (fileStore os) .empty
  | layered (τ : Nat → Type) (layered : LayeredStore τ) (start : Backends τ)
      (nonempty : layered.stores ≠ [])
      (each : ∀ index ∈ layered.stores,
        EmptyBundled (τ index) (layered.backend index) (start index)) :
      EmptyBundled (Backends τ) (layeredStore layered) start

/-- A bundled store accounts exactly. -/
theorem EmptyBundled.exactStore {σ : Type} {store : PersistentStore σ} {stored : σ}
    (bundled : EmptyBundled σ store stored) :
    ∃ (valid : σ → Prop) (contents : σ → String → Option StoredEntry) (domain : String → Prop)
      (footprint : StoredEntry → Nat), ExactStore store valid contents domain footprint ∧
      valid stored ∧ ∀ key, contents stored key = none := by
  induction bundled with
  | volatile =>
      have empty : ∀ key, VolatileStore.contents .new key = none := fun _ => rfl
      refine ⟨_, _, _, _, volatileStore_exact, fun key entry found => ?_, empty⟩
      rw [empty] at found
      exact nomatch found
  | file os faultless =>
      exact ⟨_, _, _, _, fileStore_exact faultless, Directory.empty_sound os,
        fun key => Directory.contents_missing rfl⟩
  | layered τ layered start nonempty each ih =>
      have choice : ∀ index, ∃ (valid : τ index → Prop)
          (contents : τ index → String → Option StoredEntry) (domain : String → Prop)
          (footprint : StoredEntry → Nat), index ∈ layered.stores →
            ExactStore (layered.backend index) valid contents domain footprint ∧
              valid (start index) ∧ ∀ key, contents (start index) key = none := by
        intro index
        by_cases member : index ∈ layered.stores
        · obtain ⟨valid, contents, domain, footprint, facts⟩ := ih index member
          exact ⟨valid, contents, domain, footprint, fun _ => facts⟩
        · exact ⟨fun _ => True, fun _ _ => none, fun _ => True, fun _ => 0,
            fun inside => absurd inside member⟩
      choose valid contents domain footprint facts using choice
      have holds : LayeredStore.Holds layered valid contents (fun _ _ => none) start :=
        fun index member => ⟨(facts index member).2.1, funext (facts index member).2.2⟩
      obtain ⟨alike, common⟩ := holds.alike nonempty
      exact ⟨_, _, _, _, layeredStore_exact (fun index member => (facts index member).1) nonempty,
        alike, congrFun common⟩

/-- The bytes, the expiry and the pin of an index record. -/
def listing (record : StoreRecord) : Nat × Nat × Bool :=
  (record.storedBytes, record.expiresAt, record.pinned)

/-- A cache without a memory tier and without a limit, over a volatile store, that holds `held`: its
counter stands at `bytes`, the index total at `total`. -/
structure Stands (s : CacheState VolatileStore) (held : String → Option StoredEntry)
    (bytes total : Nat) : Prop where
  valid : s.store.Valid
  contents : s.store.contents = held
  indexOf : IndexOf (fun entry => entry.value.length) held s.disk
  counter : s.diskBytes = bytes
  total : diskTotal s.disk = total
  endless : ∀ key entry, held key = some entry → entry.expiresAt = 0

theorem Stands.put {s : CacheState VolatileStore} {held : String → Option StoredEntry}
    {bytes total : Nat} (stands : Stands s held bytes total) {key : String}
    (accepted : sha256KeyStrategy.validate key = .ok ()) (absent : held key = none)
    {value : List UInt8} (filled : value ≠ []) (sized : value.length ≤ isizeMax) :
    Stands ((ContextCache.volatile 0 u64Max).put (Ambient.plain 5) key value none false s).2
      (Function.update held key (some ⟨value, 0, false⟩)) (satAdd bytes value.length)
      (total + value.length) := by
  have no_record : s.disk.lookup key = none := by
    cases found : s.disk.lookup key with
    | none => rfl
    | some record =>
        obtain ⟨entry, present, _⟩ := stands.indexOf.listed key record found
        rw [absent] at present
        exact nomatch present
  have no_entry : s.store.contents key = none := by
    rw [stands.contents]
    exact absent
  obtain ⟨after, inserted, sound, written⟩ := volatileStore_exact.absent s.store key ⟨value, 0, false⟩
    stands.valid trivial ⟨Nat.zero_le _, sized⟩ no_entry
  rw [stands.contents] at written
  have fits : (ContextCache.volatile 0 u64Max).fitsDisk value = true := by
    have limit : value.length ≤ u64Max := by
      unfold isizeMax at sized
      unfold u64Max
      omega
    have enabled : 0 < u64Max := by decide
    simp only [fitsDisk, volatile, limit, enabled, decide_true, Bool.and_self]
  have stays : ∀ t : CacheState VolatileStore, t.diskBytes ≤ u64Max →
      (ContextCache.volatile 0 u64Max).evictDiskLocked (Ambient.plain 5) t = (.ok 0, t) :=
    fun t within => evictDiskLocked_none (Or.inl within)
  let arrived : CacheState VolatileStore := { s with store := after }
  let listed := arrived.nextTick.indexRecord ⟨key, value.length, 0, false, arrived.nextTick.tick⟩
  have result : ∃ t, ((ContextCache.volatile 0 u64Max).put (Ambient.plain 5) key value none false s).2 =
      t ∧ DiskKept listed t := by
    refine ⟨_, rfl, ?_⟩
    unfold ContextCache.put
    have strategy : (ContextCache.volatile 0 u64Max).keyStrategy.validate key = .ok () := accepted
    have nonempty : value.isEmpty = false := List.isEmpty_eq_false_iff.mpr filled
    have entry : (ContextCache.volatile 0 u64Max).putEntry (Ambient.plain 5) value none false =
      ⟨value, 0, false⟩ := rfl
    have injected : (ContextCache.volatile 0 u64Max).store = some volatileStore := rfl
    have quiet : (Ambient.plain 5).fault .write = none := rfl
    have cold : (ContextCache.volatile 0 u64Max).fitsMemory value = false := rfl
    simp only [strategy, nonempty, Bool.false_eq_true, if_false, entry, putPersistent, fits, if_true,
      injected, dropExpired, no_record, andThen_ok, writePersistent, callStore, quiet, inserted,
      admitMemory, cold]
    rw [stays _ (satAdd_le_max _ _)]
    exact ⟨⟨rfl, rfl⟩, rfl⟩
  obtain ⟨t, same, kept⟩ := result
  rw [same]
  refine ⟨?_, ?_, ?_, ?_, ?_, ?_⟩
  · rw [kept.store]
    exact sound
  · rw [kept.store]
    exact written
  · rw [kept.disk]
    exact stands.indexOf.insert rfl rfl rfl
  · rw [kept.diskBytes]
    show satAdd s.diskBytes value.length = _
    rw [stands.counter]
  · rw [kept.disk]
    show diskTotal (s.disk.insert key _) = _
    unfold diskTotal
    rw [total_insert_absent _ no_record, add_comm]
    exact congrArg (· + value.length) stands.total
  · intro other entry present
    rw [Function.update_apply] at present
    split at present
    case isTrue _ =>
      cases present
      rfl
    case isFalse _ => exact stands.endless other entry present

theorem Stands.invalidate {s : CacheState VolatileStore} {held : String → Option StoredEntry}
    {bytes total : Nat} (stands : Stands s held bytes total) {key : String}
    (accepted : sha256KeyStrategy.validate key = .ok ()) {entry : StoredEntry}
    (present : held key = some entry) :
    Stands ((ContextCache.volatile 0 u64Max).invalidate (Ambient.plain 5) key s).2
      (Function.update held key none) (satSub bytes entry.value.length)
      (total - entry.value.length) := by
  obtain ⟨record, found⟩ := stands.indexOf.complete key entry present
  obtain ⟨other, same, size, _⟩ := stands.indexOf.listed key record found
  rw [present] at same
  cases same
  obtain ⟨after, removed, sound, left⟩ := volatileStore_exact.remove s.store key stands.valid trivial
  rw [stands.contents] at left
  have strategy : (ContextCache.volatile 0 u64Max).keyStrategy.validate key = .ok () := accepted
  have injected : (ContextCache.volatile 0 u64Max).store = some volatileStore := rfl
  have quiet : (Ambient.plain 5).fault .removeInvalidated = none := rfl
  have forgotten := forgetMemory_diskKept key { s with store := after }
  have there : (({ s with store := after } : CacheState VolatileStore).forgetMemory key).disk.lookup key =
      some record := by
    rw [forgotten.disk]
    exact found
  unfold ContextCache.invalidate
  simp only [strategy, removeStored, injected, callStore, quiet, removed, andThen_ok, dropKey, there]
  refine ⟨?_, ?_, ?_, ?_, ?_, ?_⟩
  · show VolatileStore.Valid (CacheState.forgetMemory key _).store
    rw [forgotten.store]
    exact sound
  · show VolatileStore.contents (CacheState.forgetMemory key _).store = _
    rw [forgotten.store]
    exact left
  · show IndexOf _ _ ((CacheState.forgetMemory key _).disk.erase key)
    rw [forgotten.disk]
    exact stands.indexOf.erase key
  · show satSub (CacheState.forgetMemory key _).diskBytes record.storedBytes = _
    rw [forgotten.diskBytes, size]
    show satSub s.diskBytes _ = _
    rw [stands.counter]
  · show diskTotal ((CacheState.forgetMemory key _).disk.erase key) = _
    rw [forgotten.disk]
    have parts := total_erase StoreRecord.storedBytes found
    have all := stands.total
    unfold diskTotal at all ⊢
    show Library.total StoreRecord.storedBytes (s.disk.erase key) = _
    rw [size] at parts
    omega
  · intro other held' present
    rw [Function.update_apply] at present
    split at present
    case isTrue _ => cases present
    case isFalse _ => exact stands.endless other held' present

theorem Stands.rebuild {s : CacheState VolatileStore} {held : String → Option StoredEntry}
    {bytes total : Nat} (stands : Stands s held bytes total) (bound : total ≤ u64Max) :
    ((ContextCache.volatile 0 u64Max).fromBuilder (Ambient.plain 5) s.store).2.diskBytes = total := by
  have indexOf : IndexOf (fun entry => entry.value.length) (VolatileStore.contents s.store) s.disk := by
    rw [stands.contents]
    exact stands.indexOf
  have injected : (ContextCache.volatile 0 u64Max).store = some volatileStore := rfl
  obtain ⟨next, built, settled, rebuilt, _⟩ := fromBuilder_rebuilt volatileStore_exact injected
    (Ambient.plain_faultless 5) stands.valid indexOf (by rw [stands.total]; exact bound)
    (Or.inl (by rw [stands.total]; exact bound)) (fun disabled => absurd disabled (by decide))
  have counted : next.diskBytes = diskTotal next.disk := settled.counted
  rw [built, counted, rebuilt.total, ← stands.total]
  refine total_congr fun key => ?_
  cases found : s.disk.lookup key with
  | none => rfl
  | some record =>
      obtain ⟨entry, present, _, expires, _⟩ := stands.indexOf.listed key record found
      simp [expires, stands.endless key entry present]

theorem Stands.built : Stands ((ContextCache.volatile 0 u64Max).fromBuilder (Ambient.plain 5) .new).2
    (fun _ => none) 0 0 := by
  have empty : VolatileStore.contents .new = fun _ => none := rfl
  have valid : VolatileStore.Valid .new := by
    intro key entry found
    rw [empty] at found
    exact nomatch found
  have injected : (ContextCache.volatile 0 u64Max).store = some volatileStore := rfl
  have nothing_listed : IndexOf (fun entry => entry.value.length) (VolatileStore.contents .new)
    (∅ : Table String StoreRecord) := IndexOf.empty
  obtain ⟨next, built, settled, rebuilt, _⟩ := fromBuilder_rebuilt volatileStore_exact injected
    (Ambient.plain_faultless 5) valid nothing_listed (Nat.zero_le _) (Or.inl (Nat.zero_le _))
    (fun _ _ => rfl)
  have held : VolatileStore.contents next.store = fun _ => none :=
    funext fun key => (rebuilt.absent key rfl).2
  have nothing : diskTotal next.disk = 0 := by
    rw [rebuilt.total]
    rfl
  have counted : next.diskBytes = diskTotal next.disk := settled.counted
  rw [built]
  exact ⟨settled.valid, held, held ▸ settled.indexOf, counted.trans nothing, nothing,
    fun _ _ present => nomatch present⟩

/-- Two values of the largest length and a short one: the counter saturates at the third write, and the
removal of the short value then takes it below the total. -/
theorem drift {big : List UInt8} (length : big.length = isizeMax) :
    let s := [Call.put (Ambient.plain 5) (repeatedKey 'a') big none false,
      .put (Ambient.plain 5) (repeatedKey 'b') big none false,
      .put (Ambient.plain 5) (repeatedKey 'c') [1, 1, 1, 1] none false,
      .invalidate (Ambient.plain 5) (repeatedKey 'c')].foldl
        (fun s call => (ContextCache.volatile 0 u64Max).step call s)
        ((ContextCache.volatile 0 u64Max).fromBuilder (Ambient.plain 5) .new).2
    s.diskBytes = 2 ^ 64 - 5 ∧
      ((ContextCache.volatile 0 u64Max).fromBuilder (Ambient.plain 5) s.store).2.diskBytes =
        2 ^ 64 - 2 := by
  intro s
  have accepts : ∀ c, c = 'a' ∨ c = 'b' ∨ c = 'c' →
      sha256KeyStrategy.validate (repeatedKey c) = .ok () := by
    rintro c (rfl | rfl | rfl) <;> decide
  have filled : big ≠ [] := by
    rintro rfl
    exact absurd length (by decide)
  have first := Stands.built.put (accepts 'a' (by decide)) rfl filled length.le
  have second := first.put (accepts 'b' (by decide))
    (by rw [Function.update_of_ne (by decide)]) filled length.le
  have third := second.put (accepts 'c' (by decide))
    (by rw [Function.update_of_ne (by decide), Function.update_of_ne (by decide)])
    (show ([1, 1, 1, 1] : List UInt8) ≠ [] by decide) (by decide)
  have last : Stands s _ _ _ := third.invalidate (accepts 'c' (by decide)) (Function.update_self _ _ _)
  rw [length] at last
  refine ⟨last.counter.trans ?_, (last.rebuild ?_).trans ?_⟩
  · decide
  · decide
  · decide

end ContextCache

end RivetCache
