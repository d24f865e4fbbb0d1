/-
**Stores that account exactly.**

What a store that works is for a cache that keeps a byte counter of its own: a map whose writes report the
bytes that an index reconstruction reports later.

* `ExactStore store valid contents domain footprint`: on its valid states and the keys of its domain no
  call fails; an entry of the map occupies `footprint` bytes, by the outcome of a write and by `load_index`;
  a key outside the domain is refused;
* `volatileStore_exact`: the bundled `VolatileStore` is one.
-/

import RivetCache.Store

set_option linter.unusedSectionVars false

namespace RivetCache

open Library

/-- **An entry of the source's types**: the expiry is a `u64`, the value a vector. -/
structure StoredEntry.Representable (entry : StoredEntry) : Prop where
  expiresAt : entry.expiresAt ≤ u64Max
  value : entry.value.length ≤ isizeMax

/-- The snapshot lists every entry of the map once, with its bytes, and counts no corruption. -/
structure StoreSnapshot.Accounts (snapshot : StoreSnapshot) (footprint : StoredEntry → Nat)
    (held : String → Option StoredEntry) : Prop where
  corruptions : snapshot.corruptions = 0
  nodup : (snapshot.entries.map StoreRecord.key).Nodup
  listed : ∀ record ∈ snapshot.entries, ∃ entry, held record.key = some entry ∧
    record.storedBytes = footprint entry ∧ record.expiresAt = entry.expiresAt ∧
    record.pinned = entry.pinned
  complete : ∀ key entry, held key = some entry → ∃ record ∈ snapshot.entries, record.key = key

/-- The bytes matter for the held entries only. -/
theorem StoreSnapshot.Accounts.congr {snapshot : StoreSnapshot} {footprint other : StoredEntry → Nat}
    {held : String → Option StoredEntry} (accounts : snapshot.Accounts footprint held)
    (same : ∀ key entry, held key = some entry → footprint entry = other entry) :
    snapshot.Accounts other held := by
  refine ⟨accounts.corruptions, accounts.nodup, fun record member => ?_, accounts.complete⟩
  obtain ⟨entry, present, bytes, rest⟩ := accounts.listed record member
  exact ⟨entry, present, bytes.trans (same record.key entry present), rest⟩

/-- **A store that accounts exactly.** -/
structure ExactStore {σ : Type} (store : PersistentStore σ) (valid : σ → Prop)
    (contents : σ → String → Option StoredEntry) (domain : String → Prop)
    (footprint : StoredEntry → Nat) : Prop where
  footprint_le : ∀ entry : StoredEntry, entry.Representable → footprint entry ≤ u64Max
  held : ∀ state key entry, valid state → contents state key = some entry →
    domain key ∧ entry.Representable
  get : ∀ state key, valid state → domain key → ∃ after,
    store.get key state = (.ok (contents state key), after) ∧ valid after ∧
      contents after = contents state
  present : ∀ state key entry, valid state → domain key → contents state key = some entry →
    ∃ after, store.putIfAbsent key entry state = (.ok ⟨false, footprint entry⟩, after) ∧
      valid after ∧ contents after = contents state
  absent : ∀ state key entry, valid state → domain key → entry.Representable →
    contents state key = none →
    ∃ after, store.putIfAbsent key entry state = (.ok ⟨true, footprint entry⟩, after) ∧
      valid after ∧ contents after = Function.update (contents state) key (some entry)
  remove : ∀ state key, valid state → domain key → ∃ after,
    store.remove key state = (.ok (), after) ∧ valid after ∧
      contents after = Function.update (contents state) key none
  clear : ∀ state, valid state → ∃ after, store.clear state = (.ok (), after) ∧ valid after ∧
    contents after = fun _ => none
  loadIndex : ∀ state, valid state → ∃ snapshot after,
    store.loadIndex state = (.ok snapshot, after) ∧ valid after ∧
      contents after = contents state ∧ snapshot.Accounts footprint (contents state)
  getOutside : ∀ state key, valid state → ¬ domain key → ∃ error after,
    store.get key state = (.error error, after)
  putOutside : ∀ state key entry, valid state → ¬ domain key → ∃ error after,
    store.putIfAbsent key entry state = (.error error, after)
  removeOutside : ∀ state key, valid state → ¬ domain key → ∃ error after,
    store.remove key state = (.error error, after)

/-! ### The volatile store -/

namespace VolatileStore

/-- Every entry is one of the source's types. -/
def Valid (state : VolatileStore) : Prop :=
  ∀ key entry, contents state key = some entry → entry.Representable

/-- A state with the same map. -/
theorem Valid.of_eq {state after : VolatileStore} (valid : state.Valid)
    (same : contents after = contents state) : after.Valid := by
  intro key entry found
  rw [same] at found
  exact valid key entry found

/-- A state with one key written or deleted. -/
theorem Valid.of_update {state after : VolatileStore} (valid : state.Valid) {key : String}
    {value : Option StoredEntry} (sound : ∀ entry, value = some entry → entry.Representable)
    (written : contents after = Function.update (contents state) key value) : after.Valid := by
  intro other entry found
  rw [written, Function.update_apply] at found
  split at found
  case isTrue _ => exact sound entry found
  case isFalse _ => exact valid other entry found

end VolatileStore

/-- **The bundled volatile store accounts exactly**: an entry occupies the bytes of its value. -/
theorem volatileStore_exact :
    ExactStore volatileStore VolatileStore.Valid VolatileStore.contents (fun _ => True)
      (fun entry => entry.value.length) where
  footprint_le entry sound := by
    have bound := sound.value
    unfold isizeMax at bound
    unfold u64Max
    omega
  held state key entry valid found := ⟨trivial, valid key entry found⟩
  get state key valid _ := by
    obtain ⟨answer, kept⟩ := volatileStore_mapLike.get state key trivial
    exact ⟨_, Prod.ext answer rfl, valid.of_eq kept, kept⟩
  present state key entry valid _ found := by
    obtain ⟨⟨stored, access⟩, present, same⟩ := Option.map_eq_some_iff.mp found
    cases same
    refine ⟨(volatileStore.putIfAbsent key stored state).2, Prod.ext ?_ rfl, ?_⟩
    · show (VolatileStore.putIfAbsent key stored state).1 = _
      unfold VolatileStore.putIfAbsent VolatileStore.nextTick
      simp only [present]
    · obtain ⟨_, kept⟩ := volatileStore_mapLike.present state key stored stored trivial found
      exact ⟨valid.of_eq kept, kept⟩
  absent state key entry valid _ sound missing := by
    have gone : state.entries.lookup key = none := Option.map_eq_none_iff.mp missing
    refine ⟨(volatileStore.putIfAbsent key entry state).2, Prod.ext ?_ rfl, ?_⟩
    · show (VolatileStore.putIfAbsent key entry state).1 = _
      unfold VolatileStore.putIfAbsent VolatileStore.nextTick
      simp only [gone]
    · obtain ⟨_, written⟩ := volatileStore_mapLike.absent state key entry trivial missing
      refine ⟨valid.of_update (fun other equal => ?_) written, written⟩
      cases equal
      exact sound
  remove state key valid _ := by
    have written : VolatileStore.contents (volatileStore.remove key state).2 =
        Function.update (VolatileStore.contents state) key none :=
      VolatileStore.contents_erase _ _ _
    refine ⟨(volatileStore.remove key state).2, rfl, valid.of_update ?_ written, written⟩
    intro entry equal
    exact nomatch equal
  clear state _ := by
    have emptied : VolatileStore.contents (volatileStore.clear state).2 = fun _ => none := rfl
    refine ⟨(volatileStore.clear state).2, rfl, fun key entry found => ?_, emptied⟩
    rw [emptied] at found
    exact nomatch found
  loadIndex state valid := by
    obtain ⟨_, answered, describes⟩ := VolatileStore.describes_loadIndex state
    cases answered
    refine ⟨_, _, rfl, valid, rfl, ⟨rfl, describes.nodup, ?_, describes.complete⟩⟩
    intro record member
    obtain ⟨⟨key, entry, access⟩, inside, rfl⟩ := List.mem_map.mp member
    refine ⟨entry, ?_, rfl, rfl, rfl⟩
    show (state.entries.lookup key).map Prod.fst = some entry
    rw [lookup_of_mem inside]
    rfl
  getOutside _ _ _ outside := absurd trivial outside
  putOutside _ _ _ _ outside := absurd trivial outside
  removeOutside _ _ _ outside := absurd trivial outside

end RivetCache
