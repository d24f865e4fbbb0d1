/-
**When a slot serves one value only.**

A slot remembers a value where its memory copy, if any, has it. It is current for the value where besides an
older entry that the persistent tier lists is covered by a memory copy (`Slot.Current`): then `get` answers
that value or nothing, as long as nothing expires.

* `Slot.Put.remembers`: a `put` of the value;
* `Slot.Got.remembers`, `Slot.Got.current_answer`: a `get`;
* `Slot.Fades.remembers`: evictions.
-/

import RivetCache.Cache.Slot

set_option linter.unusedSectionVars false

namespace RivetCache

namespace Slot

variable {slot after : Slot} {entry : StoredEntry} {value : List UInt8}

/-- The persistent tier lists an entry of another value. -/
def Outdated (value : List UInt8) (slot : Slot) : Prop :=
  ∃ copy, slot.stored = some copy ∧ slot.index = some copy.label ∧ copy.value ≠ value

/-- The memory copy has the value. -/
def Remembers (value : List UInt8) (slot : Slot) : Prop :=
  ∀ copy, slot.memory = some copy → copy.value = value

/-- **A slot is current** for a value. -/
structure Current (value : List UInt8) (slot : Slot) : Prop where
  remembers : slot.Remembers value
  covered : slot.Outdated value → slot.memory ≠ none

/-- No copy expires. -/
def Unexpiring (slot : Slot) : Prop := ∀ copy, slot.Holds copy → copy.expiresAt = 0

/-- A memory copy that does not expire is live. -/
theorem Unexpiring.live (unexpiring : slot.Unexpiring) (held : slot.memory = some entry)
    (now : Nat) : isExpired entry.expiresAt now = false := by
  rw [unexpiring entry (Or.inl held)]
  rfl

/-- Where memory has nothing to serve, a current slot lists no other value. -/
theorem Current.not_outdated {now : Nat} (current : slot.Current value)
    (unexpiring : slot.Unexpiring) (cold : slot.Cold now) : ¬ slot.Outdated value := by
  intro outdated
  obtain ⟨copy, held⟩ := Option.ne_none_iff_exists'.mp (current.covered outdated)
  have expired := cold copy held
  rw [unexpiring.live held now] at expired
  cases expired

/-- **Evictions.** -/
theorem Fades.remembers (fades : slot.Fades after) (remembers : slot.Remembers value) :
    after.Remembers value :=
  fun copy held => remembers copy (fades.memory_of held)

section

variable {persists fits : Bool} {now : Nat} {fault : Option IoError}
  {faults : StoreSite → Option IoError} {room : List UInt8 → Bool}

/-- **What `get` answers** in a current slot. -/
theorem Got.current_answer {answer : List UInt8}
    (got : slot.Got room now faults (.ok (some answer)) after) (current : slot.Current value)
    (unexpiring : slot.Unexpiring) : answer = value := by
  cases got with
  | memory entry held live => exact current.remembers entry held
  | persistent cold entry listed live held _ faded =>
      by_contra different
      exact current.not_outdated unexpiring cold ⟨entry, held, listed, different⟩

/-- **`get` in a current slot** remembers no other value. -/
theorem Got.remembers {result : Except IoError (Option (List UInt8))}
    (got : slot.Got room now faults result after) (current : slot.Current value)
    (unexpiring : slot.Unexpiring) : after.Remembers value := by
  have kept : (slot.expire now).Remembers value :=
    fun copy held => current.remembers copy (expire_memory held).1
  cases got with
  | memory entry held live => exact current.remembers
  | absent | expired | missing | discarded | failed => exact kept
  | persistent cold entry listed live held _ faded =>
      refine faded.remembers fun copy there => ?_
      rw [promote_memory] at there
      split at there
      case isTrue =>
        cases there
        by_contra different
        exact current.not_outdated unexpiring cold ⟨entry, held, listed, different⟩
      case isFalse => exact kept copy there

/-- **A `put`** that replaces the memory copy. -/
theorem Put.remembers (put : slot.Put persists fits now fault entry (.ok ()) after)
    (replaces : fits = true ∨ slot.Remembers entry.value) : after.Remembers entry.value := by
  obtain ⟨middle, _, written, admitted⟩ := put
  refine admitted.remembers fun copy held => ?_
  rw [promote_memory] at held
  split at held
  case isTrue =>
    cases held
    rfl
  case isFalse small =>
    have old := written.memory_of held
    rw [persist_memory] at old
    exact replaces.resolve_left small copy old

end

end Slot

end RivetCache
