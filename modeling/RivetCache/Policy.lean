/-
**`policy.rs`: keys, victim selection, telemetry.**

The injected policies of a cache. A `Clock` is read once by each call, so it appears as the reading
the call saw; the other traits are modelled here.

* `lruEviction_productive`: least-recently-used selection picks a victim whenever there is one;
* `lruEviction_least`: the victim it picks was accessed no later than any other candidate.
-/

import RivetCache.Base

namespace RivetCache

/-- `KeyStrategy`: only `validate` is read by the cache's own operations. -/
structure KeyStrategy where
  validate : String → Except IoError Unit

/-- A key the strategy accepts. -/
def KeyStrategy.Accepts (strategy : KeyStrategy) (key : String) : Prop :=
  strategy.validate key = .ok ()

instance (strategy : KeyStrategy) (key : String) : Decidable (strategy.Accepts key) :=
  inferInstanceAs (Decidable (strategy.validate key = .ok ()))

/-- `Sha256KeyStrategy`: 64 lowercase hexadecimal characters. -/
def sha256KeyStrategy : KeyStrategy where
  validate key :=
    if key.utf8ByteSize = 64 ∧ key.toList.all fun c => c.isDigit || ('a' ≤ c && c ≤ 'f') then
      .ok ()
    else
      .error ⟨.invalidInput, "cache key must be 64 lowercase hexadecimal characters"⟩

/-- `EvictionCandidate`. -/
structure EvictionCandidate where
  key : String
  lastAccess : Nat
  sizeBytes : Nat
  deriving DecidableEq, Repr

/-- `EvictionPolicy`. -/
structure EvictionPolicy where
  chooseVictim : List EvictionCandidate → Option Nat

/-- `Iterator::min_by_key`: the position of the first least element, and its measure. -/
def minByKey {α : Type} (measure : α → Nat) : List α → Option (Nat × Nat)
  | [] => none
  | first :: rest =>
      match minByKey measure rest with
      | none => some (0, measure first)
      | some (index, least) =>
          if measure first ≤ least then some (0, measure first) else some (index + 1, least)

/-- `LruEviction`. -/
def lruEviction : EvictionPolicy where
  chooseVictim candidates := (minByKey EvictionCandidate.lastAccess candidates).map Prod.fst

/-- `CacheEvent`. -/
inductive CacheEvent where
  | memoryHit
  | persistentHit
  | miss
  | write
  | memoryEviction (count : Nat)
  | persistentEviction (count : Nat)
  | expiration (count : Nat)
  | corruption (count : Nat)
  | invalidation (count : Nat)
  | clear
  deriving DecidableEq, Repr

/-! ### Least recently used -/

/-- The position `minByKey` returns is in bounds, holds the measure it returns, and no element
measures less. -/
theorem minByKey_spec {α : Type} (measure : α → Nat) {elements : List α} {index least : Nat}
    (found : minByKey measure elements = some (index, least)) :
    (∃ element, elements[index]? = some element ∧ measure element = least) ∧
      ∀ element ∈ elements, least ≤ measure element := by
  induction elements generalizing index least with
  | nil => cases found
  | cons first rest ih =>
      unfold minByKey at found
      cases tail : minByKey measure rest with
      | none =>
          rw [tail] at found
          cases found
          have empty : rest = [] := by
            cases rest with
            | nil => rfl
            | cons second rest =>
                unfold minByKey at tail
                split at tail
                · cases tail
                · split at tail <;> cases tail
          subst empty
          exact ⟨⟨first, rfl, rfl⟩, by simp⟩
      | some pair =>
          obtain ⟨position, smallest⟩ := pair
          rw [tail] at found
          obtain ⟨⟨element, inside, measured⟩, bound⟩ := ih tail
          simp only at found
          split at found
          case isTrue below =>
            cases found
            refine ⟨⟨first, rfl, rfl⟩, fun other member => ?_⟩
            rcases List.mem_cons.mp member with rfl | member
            · exact le_rfl
            · exact below.trans (bound other member)
          case isFalse above =>
            cases found
            refine ⟨⟨element, inside, measured⟩, fun other member => ?_⟩
            rcases List.mem_cons.mp member with rfl | member
            · omega
            · exact bound other member

theorem minByKey_isSome {α : Type} (measure : α → Nat) {elements : List α}
    (nonempty : elements ≠ []) : ∃ pair, minByKey measure elements = some pair := by
  cases elements with
  | nil => exact (nonempty rfl).elim
  | cons first rest =>
      unfold minByKey
      cases minByKey measure rest with
      | none => exact ⟨_, rfl⟩
      | some pair =>
          simp only
          split <;> exact ⟨_, rfl⟩

/-- A policy that answers with a candidate whenever there is one. -/
def EvictionPolicy.Productive (policy : EvictionPolicy) : Prop :=
  ∀ candidates, candidates ≠ [] →
    ∃ index candidate, policy.chooseVictim candidates = some index ∧
      candidates[index]? = some candidate

theorem lruEviction_productive : lruEviction.Productive := by
  intro candidates nonempty
  obtain ⟨⟨index, least⟩, found⟩ := minByKey_isSome EvictionCandidate.lastAccess nonempty
  obtain ⟨⟨candidate, inside, _⟩, _⟩ := minByKey_spec _ found
  exact ⟨index, candidate, by simp [lruEviction, found], inside⟩

/-- **The least recently used candidate**: no other one was accessed earlier. -/
theorem lruEviction_least {candidates : List EvictionCandidate} {index : Nat}
    {victim : EvictionCandidate} (chosen : lruEviction.chooseVictim candidates = some index)
    (inside : candidates[index]? = some victim) :
    ∀ other ∈ candidates, victim.lastAccess ≤ other.lastAccess := by
  simp only [lruEviction, Option.map_eq_some_iff] at chosen
  obtain ⟨⟨position, least⟩, found, rfl⟩ := chosen
  obtain ⟨⟨element, at_position, measured⟩, bound⟩ := minByKey_spec _ found
  have same : element = victim := Option.some_injective _ (at_position.symm.trans inside)
  subst same
  rw [measured]
  exact bound

end RivetCache
