/-
**One key of a context cache, abstractly.**

Whatever its hash maps, counters and policies do, a cache treats each key as a *slot*: a memory copy,
the metadata the index lists, and the entry on the store. This module says what the operations may do
to a slot, and nothing else; `Cache/Refine.lean` proves that the cache does no more.

* `Slot.Fades`: eviction. An unpinned copy may go, a pinned one stays;
* `Slot.Put`: `put` of the slot's own key, with the write that may fail;
* `Slot.Got`: `get` of the slot's own key, with its answer and the store calls that may fail;
* `Slot.Coherent`: the index lists the stored entry. Every operation keeps it;
* `Slot.Put.holds`, `Slot.Got.holds`: no operation makes up a copy;
* `Slot.Put.keeps`, `Slot.Fades.keeps`, `Slot.Got.keeps`: the life of a pinned entry.
-/

import RivetCache.Cache.Model

set_option linter.unusedSectionVars false

namespace RivetCache

/-- The metadata that the index and the stored entry must agree on. -/
structure Label where
  expiresAt : Nat
  pinned : Bool
  deriving DecidableEq

def StoredEntry.label (entry : StoredEntry) : Label := ⟨entry.expiresAt, entry.pinned⟩

def StoreRecord.label (record : StoreRecord) : Label := ⟨record.expiresAt, record.pinned⟩

/-- A memory record without its access tick. -/
def MemoryRecord.entry (record : MemoryRecord) : StoredEntry :=
  ⟨record.value, record.expiresAt, record.pinned⟩

/-- What a cache holds for one key. -/
@[ext] structure Slot where
  memory : Option StoredEntry
  index : Option Label
  stored : Option StoredEntry

namespace Slot

variable {slot after : Slot} {entry : StoredEntry}

/-! ### Elementary changes -/

/-- Nothing is held. -/
def empty : Slot := ⟨none, none, none⟩

/-- The memory copy goes. -/
def forget (slot : Slot) : Slot := { slot with memory := none }

/-- The index record goes. -/
def unlist (slot : Slot) : Slot := { slot with index := none }

/-- The stored entry goes. -/
def unstore (slot : Slot) : Slot := { slot with stored := none }

/-- An index record arrives. -/
def enlist (label : Label) (slot : Slot) : Slot := { slot with index := some label }

/-- The index record and the stored entry go together. -/
def drop (slot : Slot) : Slot := { slot with index := none, stored := none }

/-- A memory copy arrives. -/
def remember (entry : StoredEntry) (slot : Slot) : Slot := { slot with memory := some entry }

/-- No memory copy may be served at `now`. -/
def Cold (now : Nat) (slot : Slot) : Prop :=
  ∀ entry, slot.memory = some entry → isExpired entry.expiresAt now = true

/-- No index record may be served at `now`. -/
def Unlisted (now : Nat) (slot : Slot) : Prop :=
  ∀ label, slot.index = some label → isExpired label.expiresAt now = true

/-- `get` discards an expired memory copy. -/
def expire (now : Nat) (slot : Slot) : Slot :=
  match slot.memory with
  | none => slot
  | some entry => if isExpired entry.expiresAt now then slot.forget else slot

/-- `put` discards an expired index record with its stored entry. -/
def purge (now : Nat) (slot : Slot) : Slot :=
  match slot.index with
  | none => slot
  | some label => if isExpired label.expiresAt now then slot.drop else slot

/-- `put_if_absent`, when neither the index nor the store holds the key. -/
def write (entry : StoredEntry) (slot : Slot) : Slot :=
  match slot.index, slot.stored with
  | none, none => { slot with index := some entry.label, stored := some entry }
  | _, _ => slot

/-- The persistent half of `put`, where the entry is admitted to that tier. -/
def persist (persists : Bool) (now : Nat) (entry : StoredEntry) (slot : Slot) : Slot :=
  if persists then (slot.purge now).write entry else slot

/-- The memory half of `put`, and the promotion of `get`, where the value fits. -/
def promote (fits : Bool) (entry : StoredEntry) (slot : Slot) : Slot :=
  if fits then slot.remember entry else slot

@[simp] theorem forget_memory : slot.forget.memory = none := rfl

@[simp] theorem forget_index : slot.forget.index = slot.index := rfl

@[simp] theorem forget_stored : slot.forget.stored = slot.stored := rfl

@[simp] theorem drop_memory : slot.drop.memory = slot.memory := rfl

@[simp] theorem drop_index : slot.drop.index = none := rfl

@[simp] theorem drop_stored : slot.drop.stored = none := rfl

@[simp] theorem unlist_memory : slot.unlist.memory = slot.memory := rfl

@[simp] theorem unlist_index : slot.unlist.index = none := rfl

@[simp] theorem unlist_stored : slot.unlist.stored = slot.stored := rfl

@[simp] theorem expire_index (now : Nat) : (slot.expire now).index = slot.index := by
  unfold expire
  split
  · rfl
  · split <;> rfl

@[simp] theorem expire_stored (now : Nat) : (slot.expire now).stored = slot.stored := by
  unfold expire
  split
  · rfl
  · split <;> rfl

/-- An expired memory copy is gone afterwards, so what is left is what was live. -/
theorem expire_memory {now : Nat} (held : (slot.expire now).memory = some entry) :
    slot.memory = some entry ∧ isExpired entry.expiresAt now = false := by
  unfold expire at held
  split at held
  case h_1 absent =>
    rw [absent] at held
    cases held
  case h_2 copy present =>
    split at held
    case isTrue _ => cases held
    case isFalse live =>
      rw [present] at held
      cases held
      exact ⟨present, by simpa using live⟩

@[simp] theorem purge_memory (now : Nat) : (slot.purge now).memory = slot.memory := by
  unfold purge
  split
  · rfl
  · split <;> rfl

/-- What `purge` leaves is what was there, or nothing. -/
theorem purge_persistent (now : Nat) (slot : Slot) :
    ((slot.purge now).index = slot.index ∧ (slot.purge now).stored = slot.stored ∧
        ∀ label, slot.index = some label → isExpired label.expiresAt now = false) ∨
      ((slot.purge now).index = none ∧ (slot.purge now).stored = none ∧
        ∃ label, slot.index = some label ∧ isExpired label.expiresAt now = true) := by
  unfold purge
  split
  case h_1 absent =>
    exact Or.inl ⟨rfl, rfl, fun label listed => by rw [absent] at listed; cases listed⟩
  case h_2 label listed =>
    split
    case isTrue expired => exact Or.inr ⟨rfl, rfl, label, listed, expired⟩
    case isFalse live =>
      refine Or.inl ⟨rfl, rfl, fun other same => ?_⟩
      rw [listed] at same
      cases same
      simpa using live

/-- What the index still lists after a purge is what it listed, unexpired. -/
theorem purge_listed {now : Nat} {slot : Slot} {label : Label} (listed : (slot.purge now).index = some label) :
    slot.purge now = slot ∧ isExpired label.expiresAt now = false := by
  rcases slot.purge_persistent now with ⟨index, stored, live⟩ | ⟨index, _, _⟩
  · exact ⟨Slot.ext (Slot.purge_memory now) index stored, live label (index ▸ listed)⟩
  · rw [index] at listed
    cases listed

/-- Where the index lists nothing after a purge, it may serve nothing before it. -/
theorem unlisted_of_purge {now : Nat} {slot : Slot} (gone : (slot.purge now).index = none) :
    slot.Unlisted now := by
  intro label listed
  rcases slot.purge_persistent now with ⟨index, _, _⟩ | ⟨_, _, other, there, past⟩
  · rw [index, listed] at gone
    cases gone
  · rw [listed] at there
    cases there
    exact past

@[simp] theorem write_memory : (slot.write entry).memory = slot.memory := by
  unfold write
  split <;> rfl

theorem write_persistent (entry : StoredEntry) (slot : Slot) :
    (slot.write entry).index = slot.index ∧ (slot.write entry).stored = slot.stored ∨
      (slot.index = none ∧ slot.stored = none ∧
        (slot.write entry).index = some entry.label ∧ (slot.write entry).stored = some entry) := by
  unfold write
  split
  case h_1 index stored => exact Or.inr ⟨index, stored, rfl, rfl⟩
  case h_2 _ => exact Or.inl ⟨rfl, rfl⟩

@[simp] theorem persist_memory (persists : Bool) (now : Nat) :
    (slot.persist persists now entry).memory = slot.memory := by
  unfold persist
  split
  · rw [write_memory, purge_memory]
  · rfl

@[simp] theorem promote_index (fits : Bool) : (slot.promote fits entry).index = slot.index := by
  unfold promote
  split <;> rfl

@[simp] theorem promote_stored (fits : Bool) : (slot.promote fits entry).stored = slot.stored := by
  unfold promote
  split <;> rfl

theorem promote_memory (fits : Bool) :
    (slot.promote fits entry).memory = if fits then some entry else slot.memory := by
  unfold promote
  split <;> rfl

/-! ### Eviction -/

/-- **Eviction** takes away an unpinned memory copy, or an unpinned index record with its stored
entry, or both, or nothing. -/
structure Fades (before after : Slot) : Prop where
  memory : after.memory = before.memory ∨
    (after.memory = none ∧ ∃ entry, before.memory = some entry ∧ entry.pinned = false)
  persistent : (after.index = before.index ∧ after.stored = before.stored) ∨
    (after.index = none ∧ after.stored = none ∧
      ∃ label, before.index = some label ∧ label.pinned = false)

namespace Fades

theorem refl (slot : Slot) : slot.Fades slot := ⟨Or.inl rfl, Or.inl ⟨rfl, rfl⟩⟩

theorem of_eq (same : after = slot) : slot.Fades after := same ▸ refl slot

theorem trans {middle : Slot} (first : slot.Fades middle) (second : middle.Fades after) :
    slot.Fades after := by
  refine ⟨?_, ?_⟩
  · rcases second.memory with same | ⟨gone, entry, held, unpinned⟩
    · rw [same]
      exact first.memory
    · rcases first.memory with same | ⟨gone_before, _⟩
      · exact Or.inr ⟨gone, entry, same ▸ held, unpinned⟩
      · rw [gone_before] at held
        cases held
  · rcases second.persistent with ⟨index, stored⟩ | ⟨index, stored, label, listed, unpinned⟩
    · rw [index, stored]
      exact first.persistent
    · rcases first.persistent with ⟨same, _⟩ | ⟨gone_before, _⟩
      · exact Or.inr ⟨index, stored, label, same ▸ listed, unpinned⟩
      · rw [gone_before] at listed
        cases listed

/-- Nothing is stored again. -/
theorem stored_none (fades : slot.Fades after) (gone : slot.stored = none) :
    after.stored = none := by
  rcases fades.persistent with ⟨_, same⟩ | ⟨_, none_left, _⟩
  · exact same.trans gone
  · exact none_left

/-- A memory copy that is left was there. -/
theorem memory_of (fades : slot.Fades after) (held : after.memory = some entry) :
    slot.memory = some entry := by
  rcases fades.memory with same | ⟨gone, _⟩
  · exact same ▸ held
  · rw [gone] at held
    cases held

/-- A stored entry that is left was there. -/
theorem stored_of (fades : slot.Fades after) (held : after.stored = some entry) :
    slot.stored = some entry := by
  rcases fades.persistent with ⟨_, same⟩ | ⟨_, gone, _⟩
  · exact same ▸ held
  · rw [gone] at held
    cases held

/-- An index record that is left was there. -/
theorem index_of {label : Label} (fades : slot.Fades after) (listed : after.index = some label) :
    slot.index = some label := by
  rcases fades.persistent with ⟨same, _⟩ | ⟨gone, _⟩
  · exact same ▸ listed
  · rw [gone] at listed
    cases listed

/-- **A pinned memory copy stays.** -/
theorem memory_pinned (fades : slot.Fades after) (held : slot.memory = some entry)
    (pinned : entry.pinned = true) : after.memory = some entry := by
  rcases fades.memory with same | ⟨_, other, other_held, unpinned⟩
  · exact same.trans held
  · rw [held] at other_held
    cases other_held
    rw [pinned] at unpinned
    cases unpinned

/-- **A pinned index record stays, with its stored entry.** -/
theorem persistent_pinned {label : Label} (fades : slot.Fades after)
    (listed : slot.index = some label) (pinned : label.pinned = true) :
    after.index = some label ∧ after.stored = slot.stored := by
  rcases fades.persistent with ⟨index, stored⟩ | ⟨_, _, other, other_listed, unpinned⟩
  · exact ⟨index.trans listed, stored⟩
  · rw [listed] at other_listed
    cases other_listed
    rw [pinned] at unpinned
    cases unpinned

end Fades

/-! ### The operations -/

/-- **`put` of the slot's key.** The entry goes to the persistent tier and to memory, where these promote
it, with evictions after each; or the write to the store fails. -/
inductive Put (persists fits : Bool) (now : Nat) (fault : Option IoError) (entry : StoredEntry)
    (slot : Slot) : Except IoError Unit → Slot → Prop where
  | done (middle after : Slot) (written : (slot.persist persists now entry).Fades middle)
      (admitted : (middle.promote fits entry).Fades after) :
      Put persists fits now fault entry slot (.ok ()) after
  | failed (error : IoError) (raised : fault = some error) (persisting : persists = true) :
      Put persists fits now fault entry slot (.error error) (slot.purge now)

/-- **`get` of the slot's key.** The memory copy is served while it is live; then the stored entry, if
the index lists it, live and with the same metadata. -/
inductive Got (fits : List UInt8 → Bool) (now : Nat) (fault : StoreSite → Option IoError)
    (slot : Slot) : Except IoError (Option (List UInt8)) → Slot → Prop where
  | memory (entry : StoredEntry) (held : slot.memory = some entry)
      (live : isExpired entry.expiresAt now = false) :
      Got fits now fault slot (.ok (some entry.value)) slot
  | absent (cold : slot.Cold now) (unlisted : slot.index = none) :
      Got fits now fault slot (.ok none) (slot.expire now)
  | expired (cold : slot.Cold now) (label : Label) (listed : slot.index = some label)
      (past : isExpired label.expiresAt now = true) :
      Got fits now fault slot (.ok none) (slot.expire now).drop
  | missing (cold : slot.Cold now) (label : Label) (listed : slot.index = some label)
      (live : isExpired label.expiresAt now = false) (gone : slot.stored = none) :
      Got fits now fault slot (.ok none) (slot.expire now).unlist
  | discarded (cold : slot.Cold now) (label : Label) (listed : slot.index = some label)
      (live : isExpired label.expiresAt now = false)
      (why : (∃ entry, slot.stored = some entry ∧ entry.label ≠ label) ∨
        ∃ error, fault .read = some error) :
      Got fits now fault slot (.ok none) (slot.expire now).drop
  | persistent (cold : slot.Cold now) (entry : StoredEntry)
      (listed : slot.index = some entry.label) (live : isExpired entry.expiresAt now = false)
      (held : slot.stored = some entry) (after : Slot)
      (faded : ((slot.expire now).promote (fits entry.value) entry).Fades after) :
      Got fits now fault slot (.ok (some entry.value)) after
  | failed (cold : slot.Cold now) (error : IoError) (site : StoreSite)
      (raised : fault site = some error) :
      Got fits now fault slot (.error error) (slot.expire now)

section Operations

variable {persists fits : Bool} {now : Nat} {fault : Option IoError}
  {faults : StoreSite → Option IoError} {room : List UInt8 → Bool}

/-! ### Coherence -/

/-- **The index lists the stored entry**, where the cache persists at all. -/
def Coherent (persisting : Bool) (slot : Slot) : Prop :=
  slot.index = if persisting then slot.stored.map StoredEntry.label else none

theorem coherent_empty (persisting : Bool) : empty.Coherent persisting := by
  cases persisting <;> rfl

/-- Where nothing is listed, nothing is stored. -/
theorem Coherent.stored_none (coherent : slot.Coherent true) (unlisted : slot.index = none) :
    slot.stored = none := by
  have listed : slot.index = slot.stored.map StoredEntry.label := coherent
  rw [unlisted] at listed
  exact Option.map_eq_none_iff.mp listed.symm

/-- A listed entry is stored, with the listed metadata. -/
theorem Coherent.stored_some {persisting : Bool} {label : Label}
    (coherent : slot.Coherent persisting) (listed : slot.index = some label) :
    ∃ entry, slot.stored = some entry ∧ entry.label = label := by
  unfold Coherent at coherent
  rw [listed] at coherent
  cases persisting with
  | false => cases coherent
  | true => exact Option.map_eq_some_iff.mp coherent.symm

theorem Coherent.of_eq {persisting : Bool} (coherent : slot.Coherent persisting)
    (index : after.index = slot.index) (stored : after.stored = slot.stored) :
    after.Coherent persisting := by
  unfold Coherent
  rw [index, stored]
  exact coherent

theorem coherent_of_none {persisting : Bool} (index : slot.index = none)
    (stored : slot.stored = none) : slot.Coherent persisting := by
  unfold Coherent
  rw [index, stored]
  cases persisting <;> rfl

theorem Fades.coherent {persisting : Bool} (fades : slot.Fades after)
    (coherent : slot.Coherent persisting) : after.Coherent persisting := by
  rcases fades.persistent with ⟨index, stored⟩ | ⟨index, stored, _⟩
  · exact coherent.of_eq index stored
  · exact coherent_of_none index stored

theorem Coherent.purge {persisting : Bool} (coherent : slot.Coherent persisting) (now : Nat) :
    (slot.purge now).Coherent persisting := by
  rcases purge_persistent now slot with ⟨index, stored, _⟩ | ⟨index, stored, _⟩
  · exact coherent.of_eq index stored
  · exact coherent_of_none index stored

theorem Coherent.write (coherent : slot.Coherent true) (entry : StoredEntry) :
    (slot.write entry).Coherent true := by
  rcases write_persistent entry slot with ⟨index, stored⟩ | ⟨_, _, index, stored⟩
  · exact coherent.of_eq index stored
  · show (slot.write entry).index = (slot.write entry).stored.map StoredEntry.label
    rw [index, stored]
    rfl

/-- **`put` keeps coherence.** -/
theorem Put.coherent {persisting : Bool} {result : Except IoError Unit}
    (put : slot.Put persists fits now fault entry result after)
    (enabled : persists = true → persisting = true) (coherent : slot.Coherent persisting) :
    after.Coherent persisting := by
  cases put with
  | failed error raised persisting => exact coherent.purge now
  | done middle _ written admitted =>
      have persisted : (slot.persist persists now entry).Coherent persisting := by
        unfold persist
        split
        case isTrue active =>
          have on := enabled active
          subst on
          exact (coherent.purge now).write entry
        case isFalse _ => exact coherent
      have faded := written.coherent persisted
      exact admitted.coherent (faded.of_eq (promote_index fits) (promote_stored fits))

/-- **`get` keeps coherence.** -/
theorem Got.coherent {persisting : Bool} {result : Except IoError (Option (List UInt8))}
    (got : slot.Got room now faults result after) (coherent : slot.Coherent persisting) :
    after.Coherent persisting := by
  have expired := coherent.of_eq (expire_index now) (expire_stored now)
  cases got with
  | memory entry held live => exact coherent
  | absent cold unlisted => exact expired
  | expired cold label listed past => exact coherent_of_none rfl rfl
  | missing cold label listed live gone =>
      exact coherent_of_none rfl ((expire_stored now).trans gone)
  | discarded cold label listed live why => exact coherent_of_none rfl rfl
  | persistent cold entry listed live held _ faded =>
      exact faded.coherent (expired.of_eq (promote_index _) (promote_stored _))
  | failed cold error site raised => exact expired

/-- Where the write does not fail, `put` succeeds. -/
theorem Put.succeeded {result : Except IoError Unit}
    (put : slot.Put persists fits now fault entry result after) (works : fault = none) :
    result = .ok () := by
  cases put with
  | done middle _ written admitted => rfl
  | failed error raised persisting =>
      rw [works] at raised
      cases raised

/-- Where no store call fails, `get` answers. -/
theorem Got.succeeded {result : Except IoError (Option (List UInt8))}
    (got : slot.Got room now faults result after) (works : ∀ site, faults site = none) :
    ∃ answer, result = .ok answer := by
  cases got with
  | failed cold error site raised =>
      rw [works site] at raised
      cases raised
  | _ => exact ⟨_, rfl⟩

/-! ### Copies -/

/-- A copy of `entry` is in memory or on the store. -/
def Holds (entry : StoredEntry) (slot : Slot) : Prop :=
  slot.memory = some entry ∨ slot.stored = some entry

theorem not_holds_empty (entry : StoredEntry) : ¬ empty.Holds entry := by
  rintro (held | held) <;> cases held

theorem Fades.holds {copy : StoredEntry} (fades : slot.Fades after) (held : after.Holds copy) :
    slot.Holds copy := by
  rcases held with held | held
  · exact Or.inl (fades.memory_of held)
  · exact Or.inr (fades.stored_of held)

theorem holds_of_expire {copy : StoredEntry} (held : (slot.expire now).Holds copy) :
    slot.Holds copy := by
  rcases held with held | held
  · exact Or.inl (expire_memory held).1
  · exact Or.inr ((expire_stored now) ▸ held)

theorem holds_of_purge {copy : StoredEntry} (held : (slot.purge now).Holds copy) :
    slot.Holds copy := by
  rcases held with held | held
  · exact Or.inl (purge_memory now ▸ held)
  · rcases purge_persistent now slot with ⟨_, stored, _⟩ | ⟨_, stored, _⟩
    · exact Or.inr (stored ▸ held)
    · rw [stored] at held
      cases held

theorem holds_of_persist {copy : StoredEntry}
    (held : (slot.persist persists now entry).Holds copy) : slot.Holds copy ∨ copy = entry := by
  unfold persist at held
  split at held
  case isFalse _ => exact Or.inl held
  case isTrue _ =>
    rcases held with held | held
    · exact Or.inl (holds_of_purge (Or.inl (write_memory ▸ held)))
    · rcases write_persistent entry (slot.purge now) with ⟨_, stored⟩ | ⟨_, _, _, stored⟩
      · exact Or.inl (holds_of_purge (Or.inr (stored ▸ held)))
      · rw [stored] at held
        exact Or.inr (Option.some_injective _ held).symm

theorem holds_of_promote {copy : StoredEntry} (held : (slot.promote fits entry).Holds copy) :
    slot.Holds copy ∨ copy = entry := by
  rcases held with held | held
  · rw [promote_memory] at held
    split at held
    · exact Or.inr (Option.some_injective _ held).symm
    · exact Or.inl (Or.inl held)
  · exact Or.inl (Or.inr (promote_stored fits ▸ held))

/-- **`put` adds no copy** but of its own entry. -/
theorem Put.holds {result : Except IoError Unit} {copy : StoredEntry}
    (put : slot.Put persists fits now fault entry result after) (held : after.Holds copy) :
    slot.Holds copy ∨ copy = entry := by
  cases put with
  | failed error raised persisting => exact Or.inl (holds_of_purge held)
  | done middle _ written admitted =>
      rcases holds_of_promote (admitted.holds held) with before | same
      · exact holds_of_persist (written.holds before)
      · exact Or.inr same

/-- **`get` adds no copy.** -/
theorem Got.holds {result : Except IoError (Option (List UInt8))} {copy : StoredEntry}
    (got : slot.Got room now faults result after) (held : after.Holds copy) :
    slot.Holds copy := by
  have dropped : (slot.expire now).drop.Holds copy → slot.Holds copy := by
    rintro (left | left)
    · exact holds_of_expire (Or.inl left)
    · cases left
  cases got with
  | memory entry held live => exact held
  | absent cold unlisted => exact holds_of_expire held
  | expired cold label listed past => exact dropped held
  | missing cold label listed live gone => exact holds_of_expire held
  | discarded cold label listed live why => exact dropped held
  | persistent cold entry listed live stored _ faded =>
      rcases holds_of_promote (faded.holds held) with before | same
      · exact holds_of_expire before
      · exact Or.inr (same ▸ stored)
  | failed cold error site raised => exact holds_of_expire held

/-- A copy that `get` may come to serve: in memory, or on the store and listed as it is. -/
def Serves (entry : StoredEntry) (slot : Slot) : Prop :=
  slot.memory = some entry ∨ slot.stored = some entry ∧ slot.index = some entry.label

theorem Fades.serves {copy : StoredEntry} (fades : slot.Fades after)
    (serves : after.Serves copy) : slot.Serves copy := by
  rcases serves with held | ⟨held, listed⟩
  · exact Or.inl (fades.memory_of held)
  · exact Or.inr ⟨fades.stored_of held, fades.index_of listed⟩

theorem serves_of_expire {copy : StoredEntry} (serves : (slot.expire now).Serves copy) :
    slot.Serves copy := by
  rcases serves with held | ⟨held, listed⟩
  · exact Or.inl (expire_memory held).1
  · exact Or.inr ⟨expire_stored now ▸ held, expire_index now ▸ listed⟩

/-- **An older copy that a `put` leaves** was there before; where the entry fits memory or memory had
nothing live, and the index listed nothing live, it has expired. -/
theorem Put.serves {copy : StoredEntry}
    (put : slot.Put persists fits now fault entry (.ok ()) after) (serves : after.Serves copy) :
    copy = entry ∨ slot.Serves copy ∧ (fits = true ∨ slot.Cold now → slot.Unlisted now →
      isExpired copy.expiresAt now = true) := by
  have listed_before : (slot.purge now).stored = some copy →
      (slot.purge now).index = some copy.label →
      slot.Serves copy ∧ (slot.Unlisted now → isExpired copy.expiresAt now = true) := by
    intro held listed
    rcases purge_persistent now slot with ⟨index, stored, _⟩ | ⟨_, stored, _⟩
    · rw [stored] at held
      rw [index] at listed
      exact ⟨Or.inr ⟨held, listed⟩, fun unlisted => unlisted copy.label listed⟩
    · rw [stored] at held
      cases held
  obtain ⟨middle, _, written, admitted⟩ := put
  rcases admitted.serves serves with held | ⟨held, listed⟩
  · rw [promote_memory] at held
    split at held
    case isTrue _ => exact Or.inl (Option.some_injective _ held).symm
    case isFalse small =>
      have before := written.memory_of held
      rw [persist_memory] at before
      refine Or.inr ⟨Or.inl before, fun either _ => ?_⟩
      rcases either with fitting | cold
      · exact (small fitting).elim
      · exact cold copy before
  · rw [promote_stored] at held
    rw [promote_index] at listed
    have held := written.stored_of held
    have listed := written.index_of listed
    unfold persist at held listed
    split at held
    case isTrue active =>
      rw [if_pos active] at listed
      rcases write_persistent entry (slot.purge now) with ⟨index, stored⟩ | ⟨_, _, _, stored⟩
      · obtain ⟨before, gone⟩ := listed_before (stored ▸ held) (index ▸ listed)
        exact Or.inr ⟨before, fun _ => gone⟩
      · rw [stored] at held
        exact Or.inl (Option.some_injective _ held).symm
    case isFalse inactive =>
      rw [if_neg inactive] at listed
      exact Or.inr ⟨Or.inr ⟨held, listed⟩, fun _ unlisted => unlisted copy.label listed⟩

/-- **`get` leaves no copy** that was not there to be served. -/
theorem Got.serves {result : Except IoError (Option (List UInt8))} {copy : StoredEntry}
    (got : slot.Got room now faults result after) (serves : after.Serves copy) :
    slot.Serves copy := by
  have dropped : (slot.expire now).drop.Serves copy → slot.Serves copy := by
    rintro (left | ⟨left, _⟩)
    · exact serves_of_expire (Or.inl left)
    · cases left
  cases got with
  | memory entry held live => exact serves
  | absent cold unlisted => exact serves_of_expire serves
  | expired cold label listed past => exact dropped serves
  | missing cold label listed live gone =>
      rcases serves with left | ⟨_, left⟩
      · exact serves_of_expire (Or.inl left)
      · cases left
  | discarded cold label listed live why => exact dropped serves
  | persistent cold entry listed live held _ faded =>
      rcases faded.serves serves with left | ⟨stored, index⟩
      · rw [promote_memory] at left
        split at left
        · have same := Option.some_injective _ left
          exact Or.inr ⟨same ▸ held, same ▸ listed⟩
        · exact serves_of_expire (Or.inl left)
      · rw [promote_stored] at stored
        rw [promote_index] at index
        exact serves_of_expire (Or.inr ⟨stored, index⟩)
  | failed cold error site raised => exact serves_of_expire serves

/-- **What `get` answers** is a live copy. -/
theorem Got.answer {value : List UInt8}
    (got : slot.Got room now faults (.ok (some value)) after) :
    ∃ entry, entry.value = value ∧ isExpired entry.expiresAt now = false ∧
      slot.Serves entry := by
  cases got with
  | memory entry held live => exact ⟨entry, rfl, live, Or.inl held⟩
  | persistent cold entry listed live held _ faded =>
      exact ⟨entry, rfl, live, Or.inr ⟨held, listed⟩⟩

/-- Where the store holds nothing and the index lists something live, or the entry is not admitted,
`put` writes nothing to the store. -/
theorem Put.stored_none {result : Except IoError Unit}
    (put : slot.Put persists fits now fault entry result after) (gone : slot.stored = none)
    (refused : persists = true → ¬ slot.Unlisted now) : after.stored = none := by
  have purged : (slot.purge now).stored = none := by
    rcases purge_persistent now slot with ⟨_, stored, _⟩ | ⟨_, stored, _⟩
    · exact stored.trans gone
    · exact stored
  have persisted : (slot.persist persists now entry).stored = none := by
    unfold persist
    split
    case isFalse _ => exact gone
    case isTrue active =>
      rcases write_persistent entry (slot.purge now) with ⟨_, stored⟩ | ⟨unlisted, _, _, _⟩
      · exact stored.trans purged
      · refine (refused active fun label listed => ?_).elim
        rcases purge_persistent now slot with ⟨index, _, _⟩ | ⟨_, _, other, there, expired⟩
        · rw [← index, unlisted] at listed
          cases listed
        · rw [listed] at there
          cases there
          exact expired
  cases put with
  | failed error raised persisting => exact purged
  | done middle _ written admitted =>
      exact admitted.stored_none ((promote_stored fits).trans (written.stored_none persisted))

/-- `get` writes nothing to the store. -/
theorem Got.stored_none {result : Except IoError (Option (List UInt8))}
    (got : slot.Got room now faults result after) (gone : slot.stored = none) :
    after.stored = none := by
  have expired : (slot.expire now).stored = none := (expire_stored now).trans gone
  cases got with
  | memory entry held live => exact gone
  | absent cold unlisted => exact expired
  | expired cold label listed past => rfl
  | missing cold label listed live _ => exact expired
  | discarded cold label listed live why => rfl
  | persistent cold entry listed live held _ faded =>
      rw [gone] at held
      cases held
  | failed cold error site raised => exact expired

/-! ### Pinned entries -/

/-- **An entry that the reading `later` will be served**: in memory, or listed and stored with nothing
live in memory at that reading. -/
def Keeps (entry : StoredEntry) (later : Nat) (slot : Slot) : Prop :=
  slot.memory = some entry ∨
    slot.Cold later ∧ slot.index = some entry.label ∧ slot.stored = some entry

/-- **A pinned entry is kept through evictions.** -/
theorem Fades.keeps {later : Nat} (fades : slot.Fades after) (pinned : entry.pinned = true)
    (keeps : slot.Keeps entry later) : after.Keeps entry later := by
  rcases keeps with held | ⟨cold, listed, held⟩
  · exact Or.inl (fades.memory_pinned held pinned)
  · obtain ⟨still_listed, same⟩ := fades.persistent_pinned listed pinned
    exact Or.inr ⟨fun copy there => cold copy (fades.memory_of there), still_listed, same.trans held⟩

/-- **A `put` of a pinned entry keeps it**, where it fits memory; or where it is written to the store,
or already there, and no live memory copy stands before it at the later reading. -/
theorem Put.keeps {later : Nat}
    (put : slot.Put persists fits now fault entry (.ok ()) after) (pinned : entry.pinned = true)
    (unexpiring : entry.expiresAt = 0)
    (room : fits = true ∨ persists = true ∧ slot.Cold later ∧
      (slot.Unlisted now ∧ (slot.index = none → slot.stored = none) ∨
        slot.index = some entry.label ∧ slot.stored = some entry)) :
    after.Keeps entry later := by
  obtain ⟨middle, _, written, admitted⟩ := put
  refine admitted.keeps pinned ?_
  cases fits with
  | true => exact Or.inl rfl
  | false =>
      rcases room with impossible | ⟨active, cold, place⟩
      · cases impossible
      · refine written.keeps pinned (Or.inr ⟨fun copy there => ?_, ?_⟩)
        · rw [persist_memory] at there
          exact cold copy there
        · unfold persist
          rw [if_pos active]
          rcases place with ⟨unlisted, absent⟩ | ⟨listed, held⟩
          · have purged : (slot.purge now).index = none ∧ (slot.purge now).stored = none := by
              rcases purge_persistent now slot with ⟨index, stored, live⟩ | ⟨index, stored, _⟩
              · have nothing : slot.index = none := by
                  by_contra some_label
                  obtain ⟨label, there⟩ := Option.ne_none_iff_exists'.mp some_label
                  have expired := unlisted label there
                  rw [live label there] at expired
                  cases expired
                exact ⟨index.trans nothing, stored.trans (absent nothing)⟩
              · exact ⟨index, stored⟩
            unfold write
            rw [purged.1, purged.2]
            exact ⟨rfl, rfl⟩
          · have kept : slot.purge now = slot := by
              unfold purge
              simp only [listed]
              have live : isExpired entry.label.expiresAt now = false := by
                show isExpired entry.expiresAt now = false
                rw [unexpiring]
                exact isExpired_zero now
              rw [live]
              rfl
            rw [kept]
            unfold write
            rw [listed]
            exact ⟨listed, held⟩

/-- **What is kept is served.** -/
theorem Got.keeps {result : Except IoError (Option (List UInt8))}
    (got : slot.Got room now faults result after) (works : ∀ site, faults site = none)
    (unexpiring : entry.expiresAt = 0) (keeps : slot.Keeps entry now) :
    result = .ok (some entry.value) := by
  have live : isExpired entry.expiresAt now = false := by
    rw [unexpiring]
    exact isExpired_zero now
  have warm : slot.Cold now → slot.memory ≠ some entry := by
    intro cold held
    have expired := cold entry held
    rw [live] at expired
    cases expired
  have listed_live : ∀ label, slot.index = some entry.label → slot.index = some label →
      isExpired label.expiresAt now = false := by
    intro label listed there
    rw [listed] at there
    cases there
    exact live
  cases got with
  | memory copy held copy_live =>
      rcases keeps with same | ⟨cold, _⟩
      · rw [held] at same
        cases same
        rfl
      · have expired := cold copy held
        rw [copy_live] at expired
        cases expired
  | absent cold unlisted =>
      rcases keeps with held | ⟨_, listed, _⟩
      · exact (warm cold held).elim
      · rw [unlisted] at listed
        cases listed
  | expired cold label listed past =>
      rcases keeps with held | ⟨_, index, _⟩
      · exact (warm cold held).elim
      · rw [listed_live label index listed] at past
        cases past
  | missing cold label listed label_live gone =>
      rcases keeps with held | ⟨_, _, held⟩
      · exact (warm cold held).elim
      · rw [gone] at held
        cases held
  | discarded cold label listed label_live why =>
      rcases keeps with held | ⟨_, index, held⟩
      · exact (warm cold held).elim
      · rcases why with ⟨copy, there, differs⟩ | ⟨error, raised⟩
        · rw [held] at there
          rw [index] at listed
          cases there
          cases listed
          exact (differs rfl).elim
        · rw [works .read] at raised
          cases raised
  | persistent cold copy listed copy_live held _ faded =>
      rcases keeps with there | ⟨_, _, there⟩
      · exact (warm cold there).elim
      · rw [held] at there
        cases there
        rfl
  | failed cold error site raised =>
      rw [works site] at raised
      cases raised

end Operations

end Slot

end RivetCache
