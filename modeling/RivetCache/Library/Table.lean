/-
**Finite tables with a weight.**

A hash map is an association list with distinct keys (`AList`); the order of its entries carries no
meaning. What an incrementally maintained byte counter counts is the *total* of a weight over the
entries. The rules here say how `insert` and `erase` move a total:

* `total_erase`: erasing a present key gives back exactly the weight of its value;
* `total_insert`: inserting adds the weight of the value to the table without the key;
* `total_replace`: replacing a value by one of the same weight moves nothing;
* `total_congr`: tables that weigh the same at every key have the same total.
-/

import Mathlib.Algebra.BigOperators.Group.Finset.Basic
import Mathlib.Data.List.AList
import Mathlib.Tactic

set_option linter.unusedSectionVars false

namespace Library

variable {K V : Type} [DecidableEq K]

/-- A finite table: an association list with distinct keys. -/
abbrev Table (K V : Type) := AList fun _ : K => V

/-! ### Lookups -/

theorem erase_of_lookup_none {table : Table K V} {key : K} (absent : table.lookup key = none) :
    table.erase key = table := by
  apply AList.ext
  exact List.kerase_of_notMem_keys (AList.lookup_eq_none.mp absent)

theorem lookup_erase_eq (table : Table K V) (key other : K) :
    (table.erase key).lookup other = if other = key then none else table.lookup other := by
  split
  case isTrue same => rw [same, AList.lookup_erase]
  case isFalse different => rw [AList.lookup_erase_ne different]

theorem lookup_insert_eq (table : Table K V) (key other : K) (value : V) :
    (table.insert key value).lookup other = if other = key then some value else table.lookup other := by
  split
  case isTrue same => rw [same, AList.lookup_insert]
  case isFalse different => rw [AList.lookup_insert_ne different]

theorem lookup_of_isEmpty {table : Table K V} (empty : table.entries.isEmpty = true) (key : K) :
    table.lookup key = none := by
  unfold AList.lookup
  rw [List.isEmpty_iff.mp empty]
  rfl

theorem lookup_of_mem {table : Table K V} {key : K} {value : V}
    (member : (⟨key, value⟩ : (_ : K) × V) ∈ table.entries) : table.lookup key = some value :=
  AList.mem_lookup_iff.mpr member

theorem mem_of_lookup {table : Table K V} {key : K} {value : V}
    (present : table.lookup key = some value) :
    (⟨key, value⟩ : (_ : K) × V) ∈ table.entries :=
  AList.mem_lookup_iff.mp present

/-! ### Totals -/

/-- The total weight of the entries. -/
def total (weight : V → Nat) (table : Table K V) : Nat :=
  (table.entries.map fun entry => weight entry.2).sum

@[simp] theorem total_empty (weight : V → Nat) : total weight (∅ : Table K V) = 0 := rfl

/-- **Erasing a present key** gives back the weight of its value. -/
theorem total_erase (weight : V → Nat) {table : Table K V} {key : K} {value : V}
    (present : table.lookup key = some value) :
    total weight (table.erase key) + weight value = total weight table := by
  have member : key ∈ table.entries.keys := AList.lookup_isSome.mp (by rw [present]; rfl)
  obtain ⟨found, front, back, notFront, split, erased⟩ := List.exists_of_kerase member
  have same : found = value := by
    have hit : table.lookup key = some found := lookup_of_mem (by rw [split]; simp)
    exact Option.some_injective _ (hit.symm.trans present)
  have parts : (table.erase key).entries = front ++ back := erased
  unfold total
  rw [parts, split, same]
  simp only [List.map_append, List.map_cons, List.sum_append, List.sum_cons]
  omega

/-- **Inserting** adds the weight of the value to the table without the key. -/
theorem total_insert (weight : V → Nat) (table : Table K V) (key : K) (value : V) :
    total weight (table.insert key value) = weight value + total weight (table.erase key) := rfl

theorem total_insert_absent (weight : V → Nat) {table : Table K V} {key : K}
    (absent : table.lookup key = none) (value : V) :
    total weight (table.insert key value) = weight value + total weight table := by
  rw [total_insert, erase_of_lookup_none absent]

/-- **Replacing** a value by one of the same weight. -/
theorem total_replace (weight : V → Nat) {table : Table K V} {key : K} {old new : V}
    (present : table.lookup key = some old) (same : weight new = weight old) :
    total weight (table.insert key new) = total weight table := by
  rw [total_insert, same, add_comm, total_erase weight present]

/-- A greater weight has a greater total. -/
theorem total_le_total {less more : V → Nat} {table : Table K V}
    (le : ∀ key value, table.lookup key = some value → less value ≤ more value) :
    total less table ≤ total more table := by
  unfold total
  refine List.sum_le_sum fun entry inside => ?_
  obtain ⟨key, value⟩ := entry
  exact le key value (lookup_of_mem inside)

/-- The total over any keys that cover the table. -/
theorem total_eq_sum (weight : V → Nat) (table : Table K V) {keys : Finset K}
    (covers : ∀ key value, table.lookup key = some value → key ∈ keys) :
    total weight table = ∑ key ∈ keys, (table.lookup key).elim 0 weight := by
  have own : total weight table = ∑ key ∈ table.keys.toFinset, (table.lookup key).elim 0 weight := by
    rw [List.sum_toFinset _ table.keys_nodup]
    unfold total AList.keys List.keys
    rw [List.map_map]
    refine congrArg List.sum (List.map_congr_left ?_)
    rintro ⟨key, value⟩ member
    simp only [Function.comp_apply, lookup_of_mem member, Option.elim_some]
  rw [own]
  refine Finset.sum_subset (fun key member => ?_) fun key _ outside => ?_
  · obtain ⟨value, present⟩ := Option.isSome_iff_exists.mp
      (AList.lookup_isSome.mpr (List.mem_toFinset.mp member))
    exact covers key value present
  · have absent : table.lookup key = none :=
      AList.lookup_eq_none.mpr fun member => outside (List.mem_toFinset.mpr member)
    rw [absent]
    rfl

/-- **Tables that weigh the same at every key** have the same total. -/
theorem total_congr {V' : Type} {weight : V → Nat} {weight' : V' → Nat} {table : Table K V}
    {table' : Table K V'}
    (same : ∀ key, (table.lookup key).elim 0 weight = (table'.lookup key).elim 0 weight') :
    total weight table = total weight' table' := by
  have covers : ∀ key value, table.lookup key = some value →
      key ∈ table.keys.toFinset ∪ table'.keys.toFinset := fun key value present =>
    Finset.mem_union_left _ (List.mem_toFinset.mpr (AList.lookup_isSome.mp (by rw [present]; rfl)))
  have covers' : ∀ key value, table'.lookup key = some value →
      key ∈ table.keys.toFinset ∪ table'.keys.toFinset := fun key value present =>
    Finset.mem_union_right _ (List.mem_toFinset.mpr (AList.lookup_isSome.mp (by rw [present]; rfl)))
  rw [total_eq_sum weight table covers, total_eq_sum weight' table' covers']
  exact Finset.sum_congr rfl fun key _ => same key

/-- The number of entries, as a total. -/
theorem length_erase {table : Table K V} {key : K} {value : V}
    (present : table.lookup key = some value) :
    (table.erase key).entries.length + 1 = table.entries.length := by
  have counted := total_erase (fun _ => 1) present
  simpa [total] using counted

end Library
