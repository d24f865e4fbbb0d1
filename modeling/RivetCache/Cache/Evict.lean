/-
**The eviction loops and the elementary updates of the cache.**

* `evictLoop_settled`: the fuel is enough. Where every eviction succeeds and shrinks the tier, the
  loop keeps what each eviction keeps and ends within capacity or with nothing to evict;
* `selectVictim_memory`, `selectVictim_disk`: a victim is an unpinned record of its tier, whatever the
  policy answers and however the hash map is iterated;
* `removeDiskRecordLocked_ok`: the removal of an index record, where the store call succeeds;
* `evictMemoryLocked_ok`, `evictDiskLocked_ok`: what the two loops keep and where they end.
-/

import RivetCache.Cache.Model

set_option linter.unusedSectionVars false

namespace RivetCache

open Library

variable {σ : Type}

/-! ### The loop -/

section Loop

variable {S : Type} (exceeds : S → Bool) (victim : Nat → S → Option EvictionCandidate)
  (evict : Nat → EvictionCandidate → S → Except IoError Unit × S)

/-- **The loop settles**: where, under an invariant, every eviction succeeds, shrinks the tier and
keeps the invariant, fuel for every record suffices, and the loop ends within capacity or without a
victim. -/
theorem evictLoop_settled (I : S → Prop) (size : S → Nat)
    (shrinks : ∀ round candidate s, I s → victim round s = some candidate →
      ∃ after, evict round candidate s = (.ok (), after) ∧ I after ∧ size after < size s) :
    ∀ fuel round s, I s → size s ≤ fuel → ∃ evicted after,
      evictLoop exceeds victim evict fuel round s = (.ok evicted, after) ∧ I after ∧
        (exceeds after = false ∨ ∃ last, victim last after = none)
  | 0, round, s, holds, enough => by
      refine ⟨0, s, rfl, holds, Or.inr ⟨round, ?_⟩⟩
      cases chosen : victim round s with
      | none => rfl
      | some candidate =>
          obtain ⟨_, _, _, smaller⟩ := shrinks round candidate s holds chosen
          omega
  | fuel + 1, round, s, holds, enough => by
      unfold evictLoop
      cases above : exceeds s with
      | false => exact ⟨0, s, rfl, holds, Or.inl above⟩
      | true =>
          cases chosen : victim round s with
          | none => exact ⟨0, s, rfl, holds, Or.inr ⟨round, chosen⟩⟩
          | some candidate =>
              obtain ⟨next, evicted, kept, smaller⟩ := shrinks round candidate s holds chosen
              obtain ⟨more, after, rest, last, settled⟩ :=
                evictLoop_settled I size shrinks fuel (round + 1) next kept (by omega)
              refine ⟨satAdd more 1, after, ?_, last, settled⟩
              simp only [if_true, evicted, andThen_ok, rest]

end Loop

/-! ### Elementary updates -/

section Memory

variable (key : String) (s : CacheState σ)

theorem forgetMemory_memory : (s.forgetMemory key).memory = s.memory.erase key := by
  unfold CacheState.forgetMemory
  split
  case h_1 absent => exact (erase_of_lookup_none absent).symm
  case h_2 record _ => rfl

@[simp] theorem forgetMemory_disk : (s.forgetMemory key).disk = s.disk := by
  unfold CacheState.forgetMemory
  split <;> rfl

@[simp] theorem forgetMemory_diskBytes : (s.forgetMemory key).diskBytes = s.diskBytes := by
  unfold CacheState.forgetMemory
  split <;> rfl

@[simp] theorem forgetMemory_tick : (s.forgetMemory key).tick = s.tick := by
  unfold CacheState.forgetMemory
  split <;> rfl

@[simp] theorem forgetMemory_stats : (s.forgetMemory key).stats = s.stats := by
  unfold CacheState.forgetMemory
  split <;> rfl

@[simp] theorem forgetMemory_store : (s.forgetMemory key).store = s.store := by
  unfold CacheState.forgetMemory
  split <;> rfl

@[simp] theorem forgetMemory_events : (s.forgetMemory key).events = s.events := by
  unfold CacheState.forgetMemory
  split <;> rfl

end Memory

/-! ### Victims -/

/-- A chosen victim is one of the candidates. -/
theorem selectVictim_mem {amb : Ambient} {tier : CacheTier} {round : Nat}
    {candidates : List EvictionCandidate} {victim : EvictionCandidate}
    (chosen : amb.selectVictim tier round candidates = some victim) : victim ∈ candidates := by
  unfold Ambient.selectVictim at chosen
  split at chosen
  case h_1 _ => cases chosen
  case h_2 index _ =>
    exact (amb.order_perm tier round candidates).mem_iff.mp (List.mem_of_getElem? chosen)

/-- **A memory victim is an unpinned memory record.** -/
theorem selectVictim_memory {amb : Ambient} {round : Nat} {s : CacheState σ}
    {victim : EvictionCandidate}
    (chosen : amb.selectVictim .memory round s.memoryCandidates = some victim) :
    ∃ record, s.memory.lookup victim.key = some record ∧ record.pinned = false := by
  obtain ⟨⟨key, record⟩, inside, rfl⟩ := List.mem_map.mp (selectVictim_mem chosen)
  obtain ⟨member, unpinned⟩ := List.mem_filter.mp inside
  exact ⟨record, lookup_of_mem member, by simpa using unpinned⟩

/-- **A persistent victim is an unpinned index record.** -/
theorem selectVictim_disk {amb : Ambient} {round : Nat} {s : CacheState σ}
    {victim : EvictionCandidate}
    (chosen : amb.selectVictim .disk round s.diskCandidates = some victim) :
    ∃ record, s.disk.lookup victim.key = some record ∧ record.pinned = false := by
  obtain ⟨⟨key, record⟩, inside, rfl⟩ := List.mem_map.mp (selectVictim_mem chosen)
  obtain ⟨member, unpinned⟩ := List.mem_filter.mp inside
  exact ⟨record, lookup_of_mem member, by simpa using unpinned⟩

/-- A productive policy finds a victim among any candidates. -/
theorem selectVictim_productive {amb : Ambient} {tier : CacheTier} {round : Nat}
    (productive : (amb.policy tier round).Productive) {candidates : List EvictionCandidate}
    (nothing : amb.selectVictim tier round candidates = none) : candidates = [] := by
  by_contra some_candidate
  have ordered : amb.order tier round candidates ≠ [] := fun empty =>
    some_candidate (List.Perm.nil_eq (empty ▸ amb.order_perm tier round candidates)).symm
  obtain ⟨index, candidate, chosen, inside⟩ := productive _ ordered
  simp only [Ambient.selectVictim, chosen, inside, reduceCtorEq] at nothing

theorem Ambient.UsesLru.productive {amb : Ambient} (lru : amb.UsesLru) (tier : CacheTier)
    (round : Nat) : (amb.policy tier round).Productive := by
  rw [lru tier round]
  exact lruEviction_productive

/-- No memory candidate is left exactly when every memory record is pinned. -/
theorem memoryCandidates_eq_nil {s : CacheState σ} (empty : s.memoryCandidates = []) :
    ∀ key record, s.memory.lookup key = some record → record.pinned = true := by
  intro key record found
  have none_left := List.filter_eq_nil_iff.mp (List.map_eq_nil_iff.mp empty) _ (mem_of_lookup found)
  simpa using none_left

/-- No index candidate is left exactly when every index record is pinned. -/
theorem diskCandidates_eq_nil {s : CacheState σ} (empty : s.diskCandidates = []) :
    ∀ key record, s.disk.lookup key = some record → record.pinned = true := by
  intro key record found
  have none_left := List.filter_eq_nil_iff.mp (List.map_eq_nil_iff.mp empty) _ (mem_of_lookup found)
  simpa using none_left

/-! ### Frames -/

/-- The index and its counter are as they were. -/
structure IndexKept (s after : CacheState σ) : Prop where
  disk : after.disk = s.disk
  diskBytes : after.diskBytes = s.diskBytes

/-- The persistent side is as it was. -/
structure DiskKept (s after : CacheState σ) : Prop extends IndexKept s after where
  store : after.store = s.store

/-- The memory side is as it was. -/
structure MemoryKept (s after : CacheState σ) : Prop where
  memory : after.memory = s.memory
  memoryBytes : after.memoryBytes = s.memoryBytes

theorem DiskKept.refl (s : CacheState σ) : DiskKept s s := ⟨⟨rfl, rfl⟩, rfl⟩

theorem MemoryKept.refl (s : CacheState σ) : MemoryKept s s := ⟨rfl, rfl⟩

theorem DiskKept.trans {s t u : CacheState σ} (first : DiskKept s t) (second : DiskKept t u) :
    DiskKept s u :=
  ⟨⟨second.disk.trans first.disk, second.diskBytes.trans first.diskBytes⟩,
    second.store.trans first.store⟩

theorem MemoryKept.trans {s t u : CacheState σ} (first : MemoryKept s t)
    (second : MemoryKept t u) : MemoryKept s u :=
  ⟨second.memory.trans first.memory, second.memoryBytes.trans first.memoryBytes⟩

/-- Only the statistics and the recorded events may differ. -/
structure Reported (s after : CacheState σ) : Prop extends MemoryKept s after, DiskKept s after

namespace Reported

variable {s after : CacheState σ}

theorem refl (s : CacheState σ) : Reported s s := ⟨MemoryKept.refl s, DiskKept.refl s⟩

theorem count (reported : Reported s after) (update : CacheStats → CacheStats) :
    Reported s (after.count update) :=
  ⟨⟨reported.memory, reported.memoryBytes⟩, ⟨reported.disk, reported.diskBytes⟩, reported.store⟩

theorem record (reported : Reported s after) (event : CacheEvent) : Reported s (after.record event) :=
  ⟨⟨reported.memory, reported.memoryBytes⟩, ⟨reported.disk, reported.diskBytes⟩, reported.store⟩

theorem recordCount (reported : Reported s after) (event : Nat → CacheEvent) (count : Nat) :
    Reported s (after.recordCount event count) :=
  ⟨⟨reported.memory, reported.memoryBytes⟩, ⟨reported.disk, reported.diskBytes⟩, reported.store⟩

/-- What `put` reports once everything is stored. -/
theorem write (s : CacheState σ) (expirations memoryEvictions diskEvictions : Nat) :
    Reported s ((((s.count fun stats => { stats with writes := satAdd stats.writes 1 }
      ).recordCount .expiration expirations).recordCount .memoryEviction
        memoryEvictions).recordCount .persistentEviction diskEvictions |>.record .write) :=
  ((((((refl s).count _).recordCount _ _).recordCount _ _).recordCount _ _).record _)

end Reported

theorem forgetMemory_diskKept (key : String) (s : CacheState σ) :
    DiskKept s (s.forgetMemory key) :=
  ⟨⟨forgetMemory_disk key s, forgetMemory_diskBytes key s⟩, forgetMemory_store key s⟩

theorem insertMemoryLocked_diskKept (key : String) (value : List UInt8) (expiresAt : Nat)
    (pinned : Bool) (s : CacheState σ) :
    DiskKept s (s.insertMemoryLocked key value expiresAt pinned) :=
  ⟨⟨forgetMemory_disk key s, forgetMemory_diskBytes key s⟩, forgetMemory_store key s⟩

/-- A store call changes nothing but the store. -/
theorem callStore_state {α : Type} (amb : Ambient) (site : StoreSite)
    (call : σ → Except IoError α × σ) (s : CacheState σ) :
    ∃ stored, (callStore amb site call s).2 = { s with store := stored } := by
  unfold callStore
  split
  case h_1 _ => exact ⟨s.store, rfl⟩
  case h_2 _ => exact ⟨_, rfl⟩

namespace ContextCache

variable {cache : ContextCache σ} {amb : Ambient}

/-! ### Removing an index record -/

/-- The store after the removal of a key, where there is a store. -/
def storeAfterRemove (cache : ContextCache σ) (key : String) (stored : σ) : σ :=
  match cache.store with
  | none => stored
  | some store => (store.remove key stored).2

/-- An index record, its bytes and its stored entry are gone; memory is as it was. -/
structure Removed (cache : ContextCache σ) (key : String) (s after : CacheState σ) : Prop where
  disk : after.disk = s.disk.erase key
  diskBytes : ∀ record, s.disk.lookup key = some record →
    after.diskBytes = satSub s.diskBytes record.storedBytes
  store : after.store = cache.storeAfterRemove key s.store
  memory : MemoryKept s after

/-- The store call of a removal succeeds. -/
def Removable (cache : ContextCache σ) (amb : Ambient) (site : StoreSite) (key : String)
    (s : CacheState σ) : Prop :=
  amb.fault site = none ∧
    ∀ store, cache.store = some store → (store.remove key s.store).1 = .ok ()

theorem removeDiskRecordLocked_ok {site : StoreSite} {key : String} (expired : Bool)
    {s : CacheState σ} {record : StoreRecord} (present : s.disk.lookup key = some record)
    (removable : cache.Removable amb site key s) :
    ∃ after, cache.removeDiskRecordLocked amb site key expired s = (.ok (), after) ∧
      cache.Removed key s after := by
  have bytes : ∀ other, s.disk.lookup key = some other →
      satSub s.diskBytes record.storedBytes = satSub s.diskBytes other.storedBytes := by
    intro other found
    rw [Option.some_injective _ (present.symm.trans found)]
  unfold removeDiskRecordLocked
  rw [present]
  cases injected : cache.store with
  | none =>
      refine ⟨_, rfl, ⟨rfl, bytes, ?_, ⟨rfl, rfl⟩⟩⟩
      simp only [storeAfterRemove, injected]
  | some store =>
      have removed := removable.2 store injected
      simp only [callStore, removable.1, removed, andThen_ok]
      refine ⟨_, rfl, ⟨rfl, bytes, ?_, ⟨rfl, rfl⟩⟩⟩
      simp only [storeAfterRemove, injected]

/-- `put` first removes the key's index record, if it has expired. -/
theorem dropExpired_ok {key : String} {s : CacheState σ}
    (removable : ∀ record, s.disk.lookup key = some record →
      cache.Removable amb .removeExpired key s) :
    ∃ expirations after, cache.dropExpired amb key s = (.ok expirations, after) ∧
      ((after = s ∧ ∀ record, s.disk.lookup key = some record →
          isExpired record.expiresAt amb.now = false) ∨
        ∃ record, s.disk.lookup key = some record ∧
          isExpired record.expiresAt amb.now = true ∧ cache.Removed key s after) := by
  unfold dropExpired
  cases found : s.disk.lookup key with
  | none => exact ⟨0, s, rfl, Or.inl ⟨rfl, fun _ impossible => by cases impossible⟩⟩
  | some record =>
      simp only
      split
      case isTrue expired =>
        obtain ⟨after, done, removed⟩ :=
          removeDiskRecordLocked_ok true found (removable record found)
        rw [done, andThen_ok]
        exact ⟨1, after, rfl, Or.inr ⟨record, rfl, expired, removed⟩⟩
      case isFalse live =>
        refine ⟨0, s, rfl, Or.inl ⟨rfl, fun other same => ?_⟩⟩
        cases same
        simpa using live

theorem evictDiskRecord_ok {round : Nat} {candidate : EvictionCandidate} {s : CacheState σ}
    {record : StoreRecord} (present : s.disk.lookup candidate.key = some record)
    (removable : cache.Removable amb (.removeVictim round) candidate.key s) :
    ∃ after, cache.evictDiskRecord amb round candidate s = (.ok (), after) ∧
      cache.Removed candidate.key s after := by
  obtain ⟨after, done, removed⟩ :=
    removeDiskRecordLocked_ok false present removable
  unfold evictDiskRecord
  rw [done, andThen_ok]
  exact ⟨_, rfl, ⟨removed.disk, removed.diskBytes, removed.store,
    ⟨removed.memory.memory, removed.memory.memoryBytes⟩⟩⟩

/-! ### The two loops -/

/-- **`evict_memory_locked`** keeps what each eviction keeps, leaves the persistent side alone, and
ends within capacity or without a victim. -/
theorem evictMemoryLocked_ok (cache : ContextCache σ) (amb : Ambient) {I : CacheState σ → Prop}
    {s : CacheState σ}
    (kept : ∀ candidate record t, I t → t.memory.lookup candidate.key = some record →
      record.pinned = false → I (evictMemoryRecord candidate t).2) (holds : I s) :
    ∃ evicted after, cache.evictMemoryLocked amb s = (.ok evicted, after) ∧ I after ∧
      DiskKept s after ∧
      (after.memoryBytes ≤ cache.maxMemoryBytes ∨
        ∃ round, amb.selectVictim .memory round after.memoryCandidates = none) := by
  obtain ⟨evicted, after, done, ⟨invariant, frame⟩, settled⟩ := evictLoop_settled
    (fun s : CacheState σ => decide (cache.maxMemoryBytes < s.memoryBytes))
    (fun round s => amb.selectVictim .memory round s.memoryCandidates)
    (fun _ candidate s => evictMemoryRecord candidate s)
    (fun t => I t ∧ DiskKept s t) (fun t => t.memory.entries.length)
    (fun round candidate t both chosen => by
      obtain ⟨record, found, unpinned⟩ := selectVictim_memory chosen
      have shorter := length_erase found
      have frame := forgetMemory_diskKept candidate.key t
      refine ⟨_, rfl, ⟨kept candidate record t both.1 found unpinned,
        both.2.trans ⟨⟨frame.disk, frame.diskBytes⟩, frame.store⟩⟩, ?_⟩
      show (t.forgetMemory candidate.key).memory.entries.length < t.memory.entries.length
      rw [forgetMemory_memory]
      omega)
    s.memory.entries.length 0 s ⟨holds, DiskKept.refl s⟩ le_rfl
  refine ⟨evicted, after, done, invariant, frame, ?_⟩
  rcases settled with within | ⟨round, nothing⟩
  · exact Or.inl (by simpa using within)
  · exact Or.inr ⟨round, nothing⟩

/-- **`evict_disk_locked`** succeeds and keeps what each removal keeps, where the index records met
on the way can be removed; it leaves memory alone, and ends within capacity or without a victim. -/
theorem evictDiskLocked_ok (cache : ContextCache σ) (amb : Ambient) {I : CacheState σ → Prop}
    {s : CacheState σ}
    (removable : ∀ round key record t, I t → t.disk.lookup key = some record →
      cache.Removable amb (.removeVictim round) key t)
    (kept : ∀ key record t u, I t → t.disk.lookup key = some record → record.pinned = false →
      cache.Removed key t u → I u) (holds : I s) :
    ∃ evicted after, cache.evictDiskLocked amb s = (.ok evicted, after) ∧ I after ∧
      MemoryKept s after ∧
      (after.diskBytes ≤ cache.maxDiskBytes ∨
        ∃ round, amb.selectVictim .disk round after.diskCandidates = none) := by
  obtain ⟨evicted, after, done, ⟨invariant, frame⟩, settled⟩ := evictLoop_settled
    (fun s : CacheState σ => decide (cache.maxDiskBytes < s.diskBytes))
    (fun round s => amb.selectVictim .disk round s.diskCandidates)
    (cache.evictDiskRecord amb)
    (fun t => I t ∧ MemoryKept s t) (fun t => t.disk.entries.length)
    (fun round candidate t both chosen => by
      obtain ⟨record, found, unpinned⟩ := selectVictim_disk chosen
      obtain ⟨u, removed_ok, removed⟩ :=
        evictDiskRecord_ok found (removable round candidate.key record t both.1 found)
      have shorter := length_erase found
      refine ⟨u, removed_ok, ⟨kept candidate.key record t u both.1 found unpinned removed,
        both.2.trans removed.memory⟩, ?_⟩
      rw [removed.disk]
      omega)
    s.disk.entries.length 0 s ⟨holds, MemoryKept.refl s⟩ le_rfl
  refine ⟨evicted, after, done, invariant, frame, ?_⟩
  rcases settled with within | ⟨round, nothing⟩
  · exact Or.inl (by simpa using within)
  · exact Or.inr ⟨round, nothing⟩

end ContextCache

end RivetCache
