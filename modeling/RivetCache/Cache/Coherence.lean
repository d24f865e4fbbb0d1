/-
**The index and the store in step.**

With persistence enabled the index is meant to list exactly what the store holds, and `disk_bytes` to
count exactly that. `remove_disk_record_locked` takes the record out of the index, then calls the
store, then gives the bytes back: where that store call fails, the entry stays on the store, listed
nowhere and counted for no record. `get` and `from_builder`, which remove an entry themselves, call the
store first.

* `in_step_of_quiet`: in every run in which no removal made by `remove_disk_record_locked` fails,
  whatever other store calls fail, index and store are in step in every state reached;
* `removeDiskRecordLocked_failed`: where such a removal fails, they are not.
-/

import RivetCache.Cache.Refine

set_option linter.unusedSectionVars false

namespace RivetCache

open Library

variable {σ : Type}

namespace ContextCache

/-- **Index and store in step**: the same keys, and a byte counter that is the index total. -/
structure InStep (contents : σ → String → Option StoredEntry) (s : CacheState σ) : Prop where
  keys : ∀ key, s.disk.lookup key = none ↔ contents s.store key = none
  bytes : s.diskBytes = diskTotal s.disk

/-- Every slot is coherent. -/
def AllCoherent (cache : ContextCache σ) (contents : σ → String → Option StoredEntry)
    (s : CacheState σ) : Prop :=
  ∀ key, (cache.slot contents s key).Coherent cache.persists

variable {cache : ContextCache σ} {contents : σ → String → Option StoredEntry}
  {domain : String → Prop} {amb : Ambient} {s : CacheState σ}

theorem AllCoherent.indexed (backed : cache.Backed contents domain)
    (coherent : cache.AllCoherent contents s) : Indexed domain s :=
  indexed_of_coherent backed fun key => ⟨_, coherent key⟩

/-- Coherent slots of a persisting cache list what the store holds. -/
theorem AllCoherent.keys (coherent : cache.AllCoherent contents s)
    (persisting : cache.persists = true) (key : String) :
    s.disk.lookup key = none ↔ contents s.store key = none := by
  have agree := coherent key
  rw [persisting] at agree
  have listed : (cache.slot contents s key).index =
      (cache.slot contents s key).stored.map StoredEntry.label := agree
  have stored : (cache.slot contents s key).stored = contents s.store key := by
    show cache.held contents s key = _
    unfold held
    cases injected : cache.store with
    | none =>
        unfold persists at persisting
        rw [injected] at persisting
        simp at persisting
    | some _ => rfl
  rw [← stored, ← slot_index_none cache contents, listed]
  exact Option.map_eq_none_iff

/-- **One call keeps every slot coherent**, where `remove_disk_record_locked` does not fail. -/
theorem step_coherent (backed : cache.Backed contents domain) {call : Call}
    (quiet : call.ambient.Quiet) (coherent : cache.AllCoherent contents s) :
    cache.AllCoherent contents (cache.step call s) := by
  intro key
  have before := coherent key
  generalize effect : cache.slot contents (cache.step call s) key = after
  have step := step_slot backed quiet (coherent.indexed backed) key
  rw [effect] at step
  cases step with
  | elsewhere _ unconcerned fades => exact fades.coherent before
  | idle nothing => exact before
  | put amb value ttl pinned result _ called accepted nonempty own =>
      exact own.coherent persists_of_persistsValue before
  | get amb result _ called accepted own => exact own.coherent before
  | emptied deleting => exact Slot.coherent_empty _

/-- A call whose removals by `remove_disk_record_locked` succeed, with index totals that stay below
`2 ^ 64`. -/
structure QuietCall (cache : ContextCache σ) (call : Call) (s : CacheState σ) : Prop where
  quiet : call.ambient.Quiet
  room : cache.CallDiskRoom call s

/-- **Index and store are in step** in every state reached from construction by calls whose removals
by `remove_disk_record_locked` succeed. Any other store call may fail. -/
theorem in_step_of_quiet (cache : ContextCache σ) (persisting : cache.persists = true)
    (backed : cache.Backed contents domain) (quiet : amb.Quiet) {stored : σ}
    {start : CacheState σ} (built : cache.fromBuilder amb stored = (.ok (), start))
    (snapshots : cache.SnapshotRoom stored)
    (reached : Reaches cache.step cache.QuietCall start s) : InStep contents s := by
  obtain ⟨construction, counts⟩ := fromBuilder_slot backed quiet built
  have invariant : cache.AllCoherent contents s ∧ DiskCounted s := by
    refine reached.invariant (fun t => cache.AllCoherent contents t ∧ DiskCounted t)
      ⟨construction.coherent, counts snapshots⟩ fun call t held permitted => ⟨?_, ?_⟩
    · exact step_coherent backed permitted.quiet held.1
    · exact step_counted backed permitted.quiet (held.1.indexed backed) permitted.room held.2
  exact ⟨invariant.1.keys persisting, invariant.2⟩

/-- A read of a live entry, after a write of which the store call failed. -/
theorem in_step_of_quiet_write_fault :
    let cache := ContextCache.volatile 0 4
    let start := (cache.fromBuilder (Ambient.plain 5) VolatileStore.new).2
    let first := Call.put (Ambient.plain 5) (repeatedKey 'a') [1, 2] none false
    let second := Call.put (Ambient.failing 6 .write ⟨.other, "no space left on device"⟩)
      (repeatedKey 'b') [3, 4] none false
    InStep VolatileStore.contents (cache.step second (cache.step first start)) := by
  intro cache start first second
  have built : cache.fromBuilder (Ambient.plain 5) VolatileStore.new = (.ok (), start) := rfl
  refine cache.in_step_of_quiet rfl (volatile_backed 0 4) (Ambient.plain_faultless 5).quiet built
    (volatile_snapshotRoom 0 4) (Reaches.step (Reaches.step .refl ⟨?_, ?_⟩) ⟨?_, ?_⟩)
  · exact (Ambient.plain_faultless 5).quiet
  · intro store injected stored either bytes written
    cases injected
    rcases either with rfl | rfl
    all_goals
      cases written
      decide
  · exact ⟨rfl, fun _ => rfl⟩
  · intro store injected stored either bytes written
    cases injected
    rcases either with rfl | rfl
    all_goals
      cases written
      decide

/-- **One failing removal is enough**: an expired entry is read while the store refuses to remove
it. The read fails, and leaves the entry on the store, out of the index, its byte still counted. -/
theorem in_step_broken_by_expired_removal :
    let cache := ContextCache.volatile 0 10
    let start := (cache.fromBuilder (Ambient.plain 5) VolatileStore.new).2
    let put := Call.put (Ambient.plain 5) (repeatedKey 'a') [1] (some (Duration.fromSecs 1)) false
    let refusing := Ambient.failing 10 .removeExpired ⟨.other, "device busy"⟩
    let stored := cache.step put start
    let s := cache.step (Call.get refusing (repeatedKey 'a')) stored
    Reaches cache.step (fun _ _ => True) start s ∧
      (cache.get refusing (repeatedKey 'a') stored).1 = .error ⟨.other, "device busy"⟩ ∧
      s.disk.lookup (repeatedKey 'a') = none ∧
      VolatileStore.contents s.store (repeatedKey 'a') = some ⟨[1], 6, false⟩ ∧
      s.diskBytes = 1 ∧ diskTotal s.disk = 0 ∧ ¬ InStep VolatileStore.contents s := by
  intro cache start put refusing stored s
  have counter : s.diskBytes = 1 := by decide
  have counted : diskTotal s.disk = 0 := by decide
  refine ⟨Reaches.step (Reaches.step .refl trivial) trivial, by decide, by decide, by decide,
    counter, counted, fun inStep => ?_⟩
  have same := inStep.bytes
  rw [counter, counted] at same
  cases same

/-- **A failing removal leaves the entry behind**: the index has dropped the record, the store has
not, and the counter still counts its bytes. -/
theorem removeDiskRecordLocked_failed (coherent : cache.AllCoherent contents s)
    (persisting : cache.persists = true) {site : StoreSite} {error : IoError}
    (raised : amb.fault site = some error) {key : String} {record : StoreRecord}
    (found : s.disk.lookup key = some record) (expired : Bool) :
    ∃ after, cache.removeDiskRecordLocked amb site key expired s = (.error error, after) ∧
      after.disk.lookup key = none ∧ contents after.store key ≠ none ∧
      after.diskBytes = s.diskBytes := by
  obtain ⟨store, injected⟩ : ∃ store, cache.store = some store := by
    unfold persists at persisting
    simp only [Bool.and_eq_true] at persisting
    exact Option.isSome_iff_exists.mp persisting.2
  have present : contents s.store key ≠ none := by
    intro gone
    rw [← coherent.keys persisting key, found] at gone
    cases gone
  unfold removeDiskRecordLocked
  simp only [found, injected, callStore, raised, andThen_error]
  exact ⟨_, rfl, AList.lookup_erase key s.disk, present, rfl⟩

end ContextCache

end RivetCache
