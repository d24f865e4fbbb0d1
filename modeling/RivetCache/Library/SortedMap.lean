/-
**Maps in the order of their keys.**

A map is the list of its entries, by strictly rising keys; two maps with the same lookups are one
(`SortedMap.ext_lookup`).
-/

import Mathlib.Order.Basic
import Mathlib.Tactic

set_option linter.unusedSectionVars false

namespace Library

variable {K V : Type} [LinearOrder K]

/-- A map, in the order of its keys. -/
@[ext] structure SortedMap (K V : Type) [LinearOrder K] where
  entries : List (K × V)
  sorted : entries.Pairwise fun left right => left.1 < right.1

namespace SortedMap

/-! ### Entries -/

/-- The value under a key. -/
def lookupEntry (key : K) : List (K × V) → Option V
  | [] => none
  | entry :: rest => if entry.1 = key then some entry.2 else lookupEntry key rest

/-- An entry is put in its place, in place of one of the same key. -/
def insertEntry (key : K) (value : V) : List (K × V) → List (K × V)
  | [] => [(key, value)]
  | entry :: rest =>
      if key < entry.1 then (key, value) :: entry :: rest
      else if entry.1 = key then (key, value) :: rest
      else entry :: insertEntry key value rest

theorem mem_insertEntry {key : K} {value : V} {entry : K × V} {entries : List (K × V)}
    (inside : entry ∈ insertEntry key value entries) : entry = (key, value) ∨ entry ∈ entries := by
  induction entries with
  | nil => exact Or.inl (List.mem_singleton.mp inside)
  | cons first rest ih =>
      unfold insertEntry at inside
      split at inside
      · exact List.mem_cons.mp inside
      · split at inside
        · exact (List.mem_cons.mp inside).imp_right (List.mem_cons_of_mem _)
        · rcases List.mem_cons.mp inside with rfl | later
          · exact Or.inr List.mem_cons_self
          · exact (ih later).imp_right (List.mem_cons_of_mem _)

theorem sorted_insertEntry (key : K) (value : V) {entries : List (K × V)}
    (sorted : entries.Pairwise fun left right => left.1 < right.1) :
    (insertEntry key value entries).Pairwise fun left right => left.1 < right.1 := by
  induction entries with
  | nil => exact List.pairwise_singleton _ _
  | cons first rest ih =>
      obtain ⟨above, sorted_rest⟩ := List.pairwise_cons.mp sorted
      unfold insertEntry
      split
      case isTrue below =>
        refine List.pairwise_cons.mpr ⟨fun entry inside => ?_, sorted⟩
        rcases List.mem_cons.mp inside with rfl | later
        · exact below
        · exact below.trans (above entry later)
      case isFalse notBelow =>
        split
        case isTrue same =>
          refine List.pairwise_cons.mpr ⟨fun entry inside => ?_, sorted_rest⟩
          exact same ▸ above entry inside
        case isFalse different =>
          refine List.pairwise_cons.mpr ⟨fun entry inside => ?_, ih sorted_rest⟩
          rcases mem_insertEntry inside with rfl | later
          · exact lt_of_le_of_ne (not_lt.mp notBelow) different
          · exact above entry later

theorem lookupEntry_insertEntry (key other : K) (value : V) (entries : List (K × V)) :
    lookupEntry other (insertEntry key value entries) =
      if other = key then some value else lookupEntry other entries := by
  induction entries with
  | nil => simp [insertEntry, lookupEntry, eq_comm]
  | cons first rest ih =>
      unfold insertEntry
      split
      case isTrue below => simp [lookupEntry, eq_comm]
      case isFalse =>
        split
        case isTrue same =>
          subst same
          by_cases here : other = first.1
          · simp [lookupEntry, here]
          · simp [lookupEntry, here, Ne.symm here]
        case isFalse different =>
          unfold lookupEntry
          by_cases here : first.1 = other
          · have apart : other ≠ key := fun same => different (here.trans same)
            rw [if_pos here, if_pos here, if_neg apart]
          · rw [if_neg here, if_neg here, ih]

/-- The entries but for those of a key. -/
def eraseEntry (key : K) (entries : List (K × V)) : List (K × V) :=
  entries.filter fun entry => decide (entry.1 ≠ key)

theorem lookupEntry_eraseEntry (key other : K) (entries : List (K × V)) :
    lookupEntry other (eraseEntry key entries) = if other = key then none else lookupEntry other entries := by
  induction entries with
  | nil => simp [eraseEntry, lookupEntry]
  | cons first rest ih =>
      unfold eraseEntry at ih ⊢
      by_cases gone : first.1 = key
      · rw [List.filter_cons_of_neg (by simp [gone]), ih]
        by_cases here : other = key
        · rw [if_pos here, if_pos here]
        · rw [if_neg here, if_neg here, lookupEntry, if_neg fun same => here (same.symm.trans gone)]
      · rw [List.filter_cons_of_pos (by simp [gone]), lookupEntry, lookupEntry, ih]
        by_cases same : first.1 = other
        · have apart : other ≠ key := fun here => gone (same.trans here)
          rw [if_pos same, if_neg apart, if_pos same]
        · rw [if_neg same, if_neg same]

theorem lookupEntry_map {W : Type} (f : V → W) (key : K) (entries : List (K × V)) :
    lookupEntry key (entries.map fun entry => (entry.1, f entry.2)) = (lookupEntry key entries).map f := by
  induction entries with
  | nil => rfl
  | cons entry rest ih =>
      simp only [List.map_cons, lookupEntry]
      by_cases same : entry.1 = key
      · rw [if_pos same, if_pos same, Option.map_some]
      · rw [if_neg same, if_neg same, ih]

/-- What is under a key is an entry of it. -/
theorem mem_iff_lookupEntry {entries : List (K × V)}
    (sorted : entries.Pairwise fun left right => left.1 < right.1) {key : K} {value : V} :
    (key, value) ∈ entries ↔ lookupEntry key entries = some value := by
  induction entries with
  | nil => simp [lookupEntry]
  | cons first rest ih =>
      obtain ⟨above, sorted_rest⟩ := List.pairwise_cons.mp sorted
      unfold lookupEntry
      rw [List.mem_cons]
      split
      case isTrue same =>
        subst same
        constructor
        · rintro (here | later)
          · exact congrArg (fun entry : K × V => some entry.2) here.symm
          · exact absurd (above _ later) (lt_irrefl _)
        · intro found
          exact Or.inl (Prod.ext rfl (Option.some.inj found).symm)
      case isFalse different =>
        rw [← ih sorted_rest]
        refine ⟨?_, Or.inr⟩
        rintro (here | later)
        · exact absurd (congrArg Prod.fst here).symm different
        · exact later

/-! ### Maps -/

/-- The map without an entry. -/
def empty : SortedMap K V := ⟨[], List.Pairwise.nil⟩

/-- The value under a key. -/
def lookup (map : SortedMap K V) (key : K) : Option V := lookupEntry key map.entries

/-- The map with a value under a key. -/
def insert (map : SortedMap K V) (key : K) (value : V) : SortedMap K V :=
  ⟨insertEntry key value map.entries, sorted_insertEntry key value map.sorted⟩

/-- The map without a key. -/
def erase (map : SortedMap K V) (key : K) : SortedMap K V :=
  ⟨eraseEntry key map.entries, map.sorted.filter _⟩

@[simp] theorem lookup_empty (key : K) : (empty : SortedMap K V).lookup key = none := rfl

theorem lookup_insert (map : SortedMap K V) (key other : K) (value : V) :
    (map.insert key value).lookup other = if other = key then some value else map.lookup other :=
  lookupEntry_insertEntry key other value map.entries

theorem lookup_erase (map : SortedMap K V) (key other : K) :
    (map.erase key).lookup other = if other = key then none else map.lookup other :=
  lookupEntry_eraseEntry key other map.entries

theorem mem_entries_iff {map : SortedMap K V} {key : K} {value : V} :
    (key, value) ∈ map.entries ↔ map.lookup key = some value :=
  mem_iff_lookupEntry map.sorted

/-- The entries of one key. -/
theorem filter_entries (map : SortedMap K V) (key : K) :
    (map.entries.filter fun entry => decide (entry.1 = key)) =
      (map.lookup key).toList.map fun value => (key, value) := by
  obtain ⟨entries, sorted⟩ := map
  show _ = (lookupEntry key entries).toList.map _
  induction entries with
  | nil => rfl
  | cons first rest ih =>
      obtain ⟨above, sorted_rest⟩ := List.pairwise_cons.mp sorted
      by_cases same : first.1 = key
      · have none_more : ∀ entry ∈ rest, ¬ decide (entry.1 = key) = true := by
          intro entry inside
          have later := above entry inside
          rw [same] at later
          simpa using later.ne'
        rw [List.filter_cons_of_pos (by simp [same]), List.filter_eq_nil_iff.mpr none_more, lookupEntry, if_pos same]
        exact congrArg (fun entry => [entry]) (Prod.ext same rfl)
      · rw [List.filter_cons_of_neg (by simp [same]), ih sorted_rest, lookupEntry, if_neg same]

/-- **The lookups make the map.** -/
theorem ext_lookup {map other : SortedMap K V} (same : ∀ key, map.lookup key = other.lookup key) :
    map = other := by
  apply SortedMap.ext
  have strict : ∀ left right : K × V, left ∈ map.entries → right ∈ other.entries →
      left.1 < right.1 → right.1 < left.1 → left = right :=
    fun _ _ _ _ below above => absurd (below.trans above) (lt_irrefl _)
  refine List.Perm.eq_of_pairwise strict map.sorted other.sorted ?_
  have distinct : ∀ map : SortedMap K V, map.entries.Nodup := fun map =>
    map.sorted.imp fun below equal => absurd (congrArg Prod.fst equal) below.ne
  refine (List.perm_ext_iff_of_nodup (distinct map) (distinct other)).mpr fun entry => ?_
  obtain ⟨key, value⟩ := entry
  rw [mem_entries_iff, mem_entries_iff, same]

/-- The map of what the values are mapped to. -/
def mapValues {W : Type} (f : V → W) (map : SortedMap K V) : SortedMap K W :=
  ⟨map.entries.map fun entry => (entry.1, f entry.2), List.pairwise_map.mpr map.sorted⟩

@[simp] theorem lookup_mapValues {W : Type} (f : V → W) (map : SortedMap K V) (key : K) :
    (map.mapValues f).lookup key = (map.lookup key).map f :=
  lookupEntry_map f key map.entries

/-- What is under a key already is inserted in vain. -/
theorem insert_lookup {map : SortedMap K V} {key : K} {value : V}
    (found : map.lookup key = some value) : map.insert key value = map := by
  refine ext_lookup fun other => ?_
  rw [lookup_insert]
  split
  case isTrue same => rw [same, found]
  case isFalse => rfl

end SortedMap

end Library
