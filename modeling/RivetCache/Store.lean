/-
**`store.rs`: the persistent tier.**

`PersistentStore` is a trait: its state is the implementation's own, and each call returns its
`io::Result` and the state it leaves. What a well-behaved store is for is stated against the map it
holds:

* `MapLike store contents domain`: no call fails on a key of the domain, `put_if_absent` inserts
  exactly when the key is absent, `remove` and `clear` delete, `load_index` lists what is held;
* `volatileStore_mapLike`: the bundled `VolatileStore` is such a store, on every key.
-/

import RivetCache.Policy
import RivetCache.Library.Table

set_option linter.unusedSectionVars false

namespace RivetCache

open Library

/-- `StoredEntry`. -/
structure StoredEntry where
  value : List UInt8
  expiresAt : Nat
  pinned : Bool
  deriving DecidableEq, Repr

/-- `StoreRecord`. -/
structure StoreRecord where
  key : String
  storedBytes : Nat
  expiresAt : Nat
  pinned : Bool
  lastAccess : Nat
  deriving DecidableEq, Repr

/-- `StoreSnapshot`. -/
structure StoreSnapshot where
  entries : List StoreRecord
  corruptions : Nat
  deriving DecidableEq, Repr

/-- `PutOutcome`. -/
structure PutOutcome where
  inserted : Bool
  storedBytes : Nat
  deriving DecidableEq, Repr

/-- The trait `PersistentStore`, over the state `σ` of an implementation. -/
structure PersistentStore (σ : Type) where
  loadIndex : σ → Except IoError StoreSnapshot × σ
  get : String → σ → Except IoError (Option StoredEntry) × σ
  putIfAbsent : String → StoredEntry → σ → Except IoError PutOutcome × σ
  remove : String → σ → Except IoError Unit × σ
  clear : σ → Except IoError Unit × σ

/-! ### A store is a map -/

section MapLike

variable {σ : Type}

/-- The snapshot lists every held key once, with the expiry and the pin it is held with. -/
structure StoreSnapshot.Describes (snapshot : StoreSnapshot)
    (held : String → Option StoredEntry) : Prop where
  nodup : (snapshot.entries.map StoreRecord.key).Nodup
  listed : ∀ record ∈ snapshot.entries, ∃ entry, held record.key = some entry ∧
    record.expiresAt = entry.expiresAt ∧ record.pinned = entry.pinned
  complete : ∀ key entry, held key = some entry → ∃ record ∈ snapshot.entries, record.key = key

/-- **A map-like store whose calls do not fail** on the keys of `domain`. `contents` reads the map a
state holds. -/
structure MapLike (store : PersistentStore σ) (contents : σ → String → Option StoredEntry)
    (domain : String → Prop) : Prop where
  held : ∀ state key entry, contents state key = some entry → domain key
  get : ∀ state key, domain key → (store.get key state).1 = .ok (contents state key) ∧
    contents (store.get key state).2 = contents state
  present : ∀ state key entry old, domain key → contents state key = some old →
    (∃ bytes, (store.putIfAbsent key entry state).1 = .ok ⟨false, bytes⟩) ∧
      contents (store.putIfAbsent key entry state).2 = contents state
  absent : ∀ state key entry, domain key → contents state key = none →
    (∃ bytes, (store.putIfAbsent key entry state).1 = .ok ⟨true, bytes⟩) ∧
      contents (store.putIfAbsent key entry state).2 =
        Function.update (contents state) key (some entry)
  remove : ∀ state key, domain key → (store.remove key state).1 = .ok () ∧
    contents (store.remove key state).2 = Function.update (contents state) key none
  clear : ∀ state, (store.clear state).1 = .ok () ∧
    contents (store.clear state).2 = fun _ => none
  loadIndex : ∀ state, (∃ snapshot : StoreSnapshot, (store.loadIndex state).1 = .ok snapshot ∧
      snapshot.Describes (contents state)) ∧
    contents (store.loadIndex state).2 = contents state

end MapLike

/-! ### The volatile store -/

/-- `VolatileStore`. -/
structure VolatileStore where
  entries : Table String (StoredEntry × Nat)
  tick : Nat

namespace VolatileStore

/-- `VolatileStore::new`. -/
def new : VolatileStore := ⟨∅, 0⟩

/-- `next_tick`: the counter wraps, the tick handed out saturates. -/
def nextTick (state : VolatileStore) : Nat × VolatileStore :=
  (satAdd state.tick 1, { state with tick := (state.tick + 1) % 2 ^ 64 })

/-- The map a volatile store holds. -/
def contents (state : VolatileStore) (key : String) : Option StoredEntry :=
  (state.entries.lookup key).map Prod.fst

def loadIndex (state : VolatileStore) : Except IoError StoreSnapshot × VolatileStore :=
  (.ok
    { entries := state.entries.entries.map fun ⟨key, entry, lastAccess⟩ =>
        { key := key
          storedBytes := entry.value.length
          expiresAt := entry.expiresAt
          pinned := entry.pinned
          lastAccess := lastAccess }
      corruptions := 0 }, state)

def get (key : String) (state : VolatileStore) :
    Except IoError (Option StoredEntry) × VolatileStore :=
  let (tick, state) := state.nextTick
  match state.entries.lookup key with
  | none => (.ok none, state)
  | some (entry, _) =>
      (.ok (some entry), { state with entries := state.entries.insert key (entry, tick) })

def putIfAbsent (key : String) (entry : StoredEntry) (state : VolatileStore) :
    Except IoError PutOutcome × VolatileStore :=
  let (tick, state) := state.nextTick
  match state.entries.lookup key with
  | some (existing, _) => (.ok ⟨false, existing.value.length⟩, state)
  | none =>
      (.ok ⟨true, entry.value.length⟩,
        { state with entries := state.entries.insert key (entry, tick) })

def remove (key : String) (state : VolatileStore) : Except IoError Unit × VolatileStore :=
  (.ok (), { state with entries := state.entries.erase key })

def clear (state : VolatileStore) : Except IoError Unit × VolatileStore :=
  (.ok (), { state with entries := ∅ })

end VolatileStore

/-- `impl PersistentStore for VolatileStore`. -/
def volatileStore : PersistentStore VolatileStore where
  loadIndex := VolatileStore.loadIndex
  get := VolatileStore.get
  putIfAbsent := VolatileStore.putIfAbsent
  remove := VolatileStore.remove
  clear := VolatileStore.clear

namespace VolatileStore

theorem contents_insert (entries : Table String (StoredEntry × Nat)) (tick : Nat) (key : String)
    (entry : StoredEntry) (access : Nat) :
    contents ⟨entries.insert key (entry, access), tick⟩ =
      Function.update (contents ⟨entries, tick⟩) key (some entry) := by
  funext other
  unfold contents
  rw [lookup_insert_eq, Function.update_apply]
  split <;> rfl

theorem contents_erase (entries : Table String (StoredEntry × Nat)) (tick : Nat) (key : String) :
    contents ⟨entries.erase key, tick⟩ =
      Function.update (contents ⟨entries, tick⟩) key none := by
  funext other
  unfold contents
  rw [lookup_erase_eq, Function.update_apply]
  split <;> rfl

theorem contents_get (key : String) (state : VolatileStore) :
    contents (get key state).2 = contents state := by
  unfold get nextTick
  simp only
  cases found : state.entries.lookup key with
  | none => rfl
  | some pair =>
      obtain ⟨entry, access⟩ := pair
      have here : contents state key = some entry := by
        unfold contents
        rw [found]
        rfl
      show contents ⟨state.entries.insert key (entry, _), _⟩ = _
      rw [contents_insert]
      funext other
      rw [Function.update_apply]
      split
      case isTrue same => rw [same, here]
      case isFalse _ => rfl

theorem describes_loadIndex (state : VolatileStore) :
    ∃ snapshot : StoreSnapshot, (loadIndex state).1 = .ok snapshot ∧
      snapshot.Describes (contents state) := by
  refine ⟨_, rfl, ⟨?_, ?_, ?_⟩⟩
  · have keys : (state.entries.entries.map fun entry => entry.1).Nodup := state.entries.nodupKeys
    simpa [List.map_map, Function.comp_def] using keys
  · intro record member
    obtain ⟨⟨key, entry, access⟩, inside, rfl⟩ := List.mem_map.mp member
    refine ⟨entry, ?_, rfl, rfl⟩
    show (state.entries.lookup key).map Prod.fst = some entry
    rw [lookup_of_mem inside]
    rfl
  · intro key entry found
    unfold contents at found
    obtain ⟨⟨stored, access⟩, present, _⟩ := Option.map_eq_some_iff.mp found
    exact ⟨_, List.mem_map.mpr ⟨⟨key, stored, access⟩, mem_of_lookup present, rfl⟩, rfl⟩

end VolatileStore

/-- **The bundled volatile store is a map that never fails.** -/
theorem volatileStore_mapLike :
    MapLike volatileStore VolatileStore.contents fun _ => True where
  held _ _ _ _ := trivial
  get state key _ := by
    refine ⟨?_, VolatileStore.contents_get key state⟩
    show (VolatileStore.get key state).1 = _
    unfold VolatileStore.get VolatileStore.nextTick VolatileStore.contents
    simp only
    cases state.entries.lookup key <;> rfl
  present state key entry old _ found := by
    obtain ⟨⟨stored, access⟩, present, _⟩ := Option.map_eq_some_iff.mp found
    show (∃ bytes, (VolatileStore.putIfAbsent key entry state).1 = _) ∧
      VolatileStore.contents (VolatileStore.putIfAbsent key entry state).2 = _
    unfold VolatileStore.putIfAbsent VolatileStore.nextTick
    simp only [present]
    exact ⟨⟨_, rfl⟩, rfl⟩
  absent state key entry _ missing := by
    have gone : state.entries.lookup key = none := Option.map_eq_none_iff.mp missing
    show (∃ bytes, (VolatileStore.putIfAbsent key entry state).1 = _) ∧
      VolatileStore.contents (VolatileStore.putIfAbsent key entry state).2 = _
    unfold VolatileStore.putIfAbsent VolatileStore.nextTick
    simp only [gone]
    exact ⟨⟨_, rfl⟩, VolatileStore.contents_insert _ _ _ _ _⟩
  remove state key _ := ⟨rfl, VolatileStore.contents_erase _ _ _⟩
  clear _ := ⟨rfl, rfl⟩
  loadIndex state := ⟨VolatileStore.describes_loadIndex state, rfl⟩

end RivetCache
