/-
**Map-like tiers.**

A tier is a map from keys to entries where its calls do to that map what their names say, and a call
that fails leaves it unchanged (`MapTier`). `KvState.held` reads the maps of all tiers, and the
`held_*` lemmas say what each call of an operation does to them.

* `memoryTier`: the map under a lock that the repository's tests use as a tier;
* `failingTier`: the tier they use to reject writes.
-/

import RivetCache.Kv.Model
import RivetCache.Library.Table

set_option linter.unusedSectionVars false

namespace RivetCache

open Library

/-! ### The laws -/

/-- **A map-like tier.** `contents` reads the map a state holds; calls may fail. -/
structure MapTier {τ : Type} (tier : KvTier τ) (contents : τ → KvBlockKey → Option KvTierEntry) :
    Prop where
  keyed : ∀ state key entry, contents state key = some entry → entry.block.key = key
  got : ∀ state key answer, (tier.get key state).1 = .ok answer → answer = contents state key
  get : ∀ state key, contents (tier.get key state).2 = contents state
  put : ∀ state entry, (tier.put entry state).1 = .ok () →
    contents (tier.put entry state).2 =
      Function.update (contents state) entry.block.key (some entry)
  putFailed : ∀ state entry error, (tier.put entry state).1 = .error error →
    contents (tier.put entry state).2 = contents state
  remove : ∀ state key, (tier.remove key state).1 = .ok () →
    contents (tier.remove key state).2 = Function.update (contents state) key none
  removeFailed : ∀ state key error, (tier.remove key state).1 = .error error →
    contents (tier.remove key state).2 = contents state
  clear : ∀ state, (tier.clear state).1 = .ok () → contents (tier.clear state).2 = fun _ => none
  clearFailed : ∀ state error, (tier.clear state).1 = .error error →
    contents (tier.clear state).2 = contents state
  health : ∀ state, contents (tier.health state).2 = contents state

/-- Removing never fails. -/
def KvTier.RemovesSucceed {τ : Type} (tier : KvTier τ) : Prop :=
  ∀ state key, (tier.remove key state).1 = .ok ()

/-! ### The tiers of the tests -/

/-- The map of a `MemoryTier`. -/
structure MemoryTier where
  entries : Table KvBlockKey KvTierEntry
  keyed : ∀ key entry, entries.lookup key = some entry → entry.block.key = key

namespace MemoryTier

/-- The map a memory tier holds. -/
def contents (state : MemoryTier) (key : KvBlockKey) : Option KvTierEntry := state.entries.lookup key

def empty : MemoryTier where
  entries := ∅
  keyed key entry present := by simp at present

def insert (entry : KvTierEntry) (state : MemoryTier) : MemoryTier where
  entries := state.entries.insert entry.block.key entry
  keyed key stored present := by
    rw [lookup_insert_eq] at present
    split at present
    case isTrue same =>
      cases present
      exact same.symm
    case isFalse _ => exact state.keyed key stored present

def erase (key : KvBlockKey) (state : MemoryTier) : MemoryTier where
  entries := state.entries.erase key
  keyed other stored present := by
    rw [lookup_erase_eq] at present
    split at present
    case isTrue _ => cases present
    case isFalse _ => exact state.keyed other stored present

end MemoryTier

/-- `MemoryTier`. -/
def memoryTier (name : String) : KvTier MemoryTier where
  name := name
  get key state := (.ok (state.contents key), state)
  put entry state := (.ok (), state.insert entry)
  remove key state := (.ok (), state.erase key)
  clear _ := (.ok (), MemoryTier.empty)
  health := KvTier.healthy

/-- **A memory tier is a map that never fails.** -/
theorem memoryTier_mapTier (name : String) : MapTier (memoryTier name) MemoryTier.contents where
  keyed state key entry present := state.keyed key entry present
  got state key answer answered := (Except.ok.inj answered).symm
  get _ _ := rfl
  put state entry _ := by
    funext key
    rw [Function.update_apply]
    exact lookup_insert_eq state.entries entry.block.key key entry
  putFailed _ _ _ failed := by cases failed
  remove state key _ := by
    funext other
    rw [Function.update_apply]
    exact lookup_erase_eq state.entries key other
  removeFailed _ _ _ failed := by cases failed
  clear _ _ := rfl
  clearFailed _ _ failed := by cases failed
  health _ := rfl

/-- `FailingTier`. -/
def failingTier (name : String) : KvTier Unit where
  name := name
  get _ state := (.ok none, state)
  put _ state := (.error ⟨.other, "injected tier write failure"⟩, state)
  remove _ state := (.ok (), state)
  clear := KvTier.unsupportedClear name
  health := KvTier.healthy

/-- A failing tier is the empty map. -/
theorem failingTier_mapTier (name : String) : MapTier (failingTier name) fun _ _ => none where
  keyed _ _ _ present := by cases present
  got _ _ _ answered := (Except.ok.inj answered).symm
  get _ _ := rfl
  put _ _ accepted := by cases accepted
  putFailed _ _ _ _ := rfl
  remove _ key _ := by
    funext other
    rw [Function.update_apply]
    split <;> rfl
  removeFailed _ _ _ _ := rfl
  clear _ cleared := by cases cleared
  clearFailed _ _ _ := rfl
  health _ := rfl

/-! ### What a call did -/

namespace KvOp

/-- The call stored an entry in a tier. -/
def Stores (tier : Nat) (entry : KvTierEntry) : (op : KvOp) → op.Answer → Prop
  | .put index given, answer => index = tier ∧ given = entry ∧ answer = .ok ()
  | _, _ => False

/-- The call read an entry for a key from a tier. -/
def Reads (tier : Nat) (key : KvBlockKey) (entry : KvTierEntry) : (op : KvOp) → op.Answer → Prop
  | .get index asked, answer => index = tier ∧ asked = key ∧ answer = .ok (some entry)
  | _, _ => False

/-- The call removed a key from a tier. -/
def Removes (tier : Nat) (key : KvBlockKey) : (op : KvOp) → op.Answer → Prop
  | .remove index asked, answer => index = tier ∧ asked = key ∧ answer = .ok ()
  | _, _ => False

end KvOp

/-! ### The maps of an engine -/

section Engine

variable {τ : Nat → Type} {engine : KvEngine τ}
  {contents : (index : Nat) → τ index → KvBlockKey → Option KvTierEntry}

/-- Every tier of the engine is map-like. -/
def KvEngine.MapTiers (engine : KvEngine τ)
    (contents : (index : Nat) → τ index → KvBlockKey → Option KvTierEntry) : Prop :=
  ∀ index < engine.count, MapTier (engine.tier index) (contents index)

/-- What a tier holds for a key. -/
def KvState.held (contents : (index : Nat) → τ index → KvBlockKey → Option KvTierEntry)
    (s : KvState τ) (index : Nat) (key : KvBlockKey) : Option KvTierEntry :=
  contents index (s.tiers index) key

namespace KvEngine

theorem tiers_setTier (s : KvState τ) (index : Nat) (state : τ index) :
    (s.setTier index state).tiers index = state := Function.update_self _ _ _

theorem tiers_setTier_of_ne (s : KvState τ) {index other : Nat} (different : other ≠ index)
    (state : τ index) : (s.setTier index state).tiers other = s.tiers other :=
  Function.update_of_ne different _ _

theorem held_setTier (s : KvState τ) (index : Nat) (state : τ index) :
    (s.setTier index state).held contents =
      Function.update (s.held contents) index (contents index state) := by
  funext other key
  unfold KvState.held
  by_cases same : other = index
  · subst same
    rw [tiers_setTier, Function.update_self]
  · rw [tiers_setTier_of_ne s same, Function.update_of_ne same]

/-- A call that keeps its tier's map. -/
theorem held_setTier_same {s : KvState τ} {index : Nat} {state : τ index}
    (same : contents index state = contents index (s.tiers index)) :
    (s.setTier index state).held contents = s.held contents := by
  rw [held_setTier, same]
  exact Function.update_eq_self index (s.held contents)

/-- The maps, with one entry replaced. -/
def heldWith (held : Nat → KvBlockKey → Option KvTierEntry) (index : Nat) (key : KvBlockKey)
    (entry : Option KvTierEntry) : Nat → KvBlockKey → Option KvTierEntry :=
  Function.update held index (Function.update (held index) key entry)

theorem heldWith_apply (held : Nat → KvBlockKey → Option KvTierEntry) (index : Nat)
    (key : KvBlockKey) (entry : Option KvTierEntry) (other : Nat) (asked : KvBlockKey) :
    heldWith held index key entry other asked =
      if other = index ∧ asked = key then entry else held other asked := by
  unfold heldWith
  by_cases here : other = index
  · subst here
    rw [Function.update_self, Function.update_apply]
    simp only [true_and]
  · rw [Function.update_of_ne here]
    simp only [here, false_and, if_false]

/-- The maps without a key in some tiers. -/
def heldWithout (held : Nat → KvBlockKey → Option KvTierEntry) (key : KvBlockKey)
    (tiers : List Nat) : Nat → KvBlockKey → Option KvTierEntry :=
  fun index asked => if index ∈ tiers ∧ asked = key then none else held index asked

theorem heldWithout_nil (held : Nat → KvBlockKey → Option KvTierEntry) (key : KvBlockKey) :
    heldWithout held key [] = held := by
  funext index asked
  simp [heldWithout]

theorem heldWithout_cons (held : Nat → KvBlockKey → Option KvTierEntry) (key : KvBlockKey)
    (index : Nat) (rest : List Nat) :
    heldWithout (heldWith held index key none) key rest = heldWithout held key (index :: rest) := by
  funext other asked
  unfold heldWithout
  rw [heldWith_apply]
  by_cases member : other ∈ rest <;> by_cases same : asked = key <;>
    by_cases first : other = index <;> simp [member, same, first]

variable {index : Nat} (mapLike : MapTier (engine.tier index) (contents index)) (s : KvState τ)

/-! ### What the calls do to the maps -/

/-- A call of no tier. -/
@[simp] theorem held_now : (engine.handle .now s).2.held contents = s.held contents := rfl

@[simp] theorem held_count (update : KvEngineStats → KvEngineStats) :
    (engine.handle (.count update) s).2.held contents = s.held contents := rfl

include mapLike

theorem held_get (key : KvBlockKey) :
    (engine.handle (.get index key) s).2.held contents = s.held contents :=
  held_setTier_same (mapLike.get _ key)

/-- What is read is what is held. -/
theorem got_held {key : KvBlockKey} {answer : Option KvTierEntry}
    (answered : (engine.handle (.get index key) s).1 = .ok answer) :
    answer = s.held contents index key :=
  mapLike.got _ key answer answered

theorem held_put {entry : KvTierEntry}
    (accepted : (engine.handle (.put index entry) s).1 = .ok ()) :
    (engine.handle (.put index entry) s).2.held contents =
      heldWith (s.held contents) index entry.block.key (some entry) := by
  show (s.setTier index _).held contents = _
  rw [held_setTier, mapLike.put _ entry accepted]
  rfl

theorem held_put_failed {entry : KvTierEntry} {error : IoError}
    (refused : (engine.handle (.put index entry) s).1 = .error error) :
    (engine.handle (.put index entry) s).2.held contents = s.held contents :=
  held_setTier_same (mapLike.putFailed _ entry error refused)

theorem held_remove {key : KvBlockKey}
    (removed : (engine.handle (.remove index key) s).1 = .ok ()) :
    (engine.handle (.remove index key) s).2.held contents =
      heldWith (s.held contents) index key none := by
  show (s.setTier index _).held contents = _
  rw [held_setTier, mapLike.remove _ key removed]
  rfl

theorem held_remove_failed {key : KvBlockKey} {error : IoError}
    (refused : (engine.handle (.remove index key) s).1 = .error error) :
    (engine.handle (.remove index key) s).2.held contents = s.held contents :=
  held_setTier_same (mapLike.removeFailed _ key error refused)

omit mapLike in
/-- A call of one tier leaves the others alone. -/
theorem held_setTier_of_ne {other : Nat} (different : other ≠ index) (state : τ index) :
    (s.setTier index state).held contents other = s.held contents other := by
  unfold KvState.held
  rw [tiers_setTier_of_ne s different]

/-- A put: an entry held afterwards is the one put, or was held before. -/
theorem held_after_put {entry : KvTierEntry} {asked : KvBlockKey} {stored : KvTierEntry}
    (present : (engine.handle (.put index entry) s).2.held contents index asked = some stored) :
    (asked = entry.block.key ∧ stored = entry ∧
      (engine.handle (.put index entry) s).1 = .ok ()) ∨
      s.held contents index asked = some stored := by
  cases outcome : (engine.handle (.put index entry) s).1 with
  | error error =>
      rw [held_put_failed mapLike s outcome] at present
      exact Or.inr present
  | ok value =>
      rw [held_put mapLike s outcome, heldWith_apply] at present
      split at present
      case isTrue same => exact Or.inl ⟨same.2, (Option.some.inj present).symm, rfl⟩
      case isFalse _ => exact Or.inr present

/-- A remove: an entry held afterwards was held before. -/
theorem held_after_remove {key asked : KvBlockKey} {stored : KvTierEntry}
    (present : (engine.handle (.remove index key) s).2.held contents index asked = some stored) :
    s.held contents index asked = some stored := by
  cases outcome : (engine.handle (.remove index key) s).1 with
  | error error =>
      rw [held_remove_failed mapLike s outcome] at present
      exact present
  | ok value =>
      rw [held_remove mapLike s outcome, heldWith_apply] at present
      split at present
      case isTrue _ => cases present
      case isFalse _ => exact present

/-- A clear: an entry held afterwards was held before. -/
theorem held_after_clear {asked : KvBlockKey} {stored : KvTierEntry}
    (present : (engine.handle (.clear index) s).2.held contents index asked = some stored) :
    s.held contents index asked = some stored := by
  change contents index ((s.setTier index _).tiers index) asked = some stored at present
  rw [tiers_setTier] at present
  cases outcome : ((engine.tier index).clear (s.tiers index)).1 with
  | error error =>
      rw [mapLike.clearFailed _ error outcome] at present
      exact present
  | ok value =>
      rw [mapLike.clear _ outcome] at present
      cases present

omit mapLike in
/-- **What a call leaves**: an entry held after it was stored by it, or was held before. -/
theorem held_after (mapLike : engine.MapTiers contents) (op : KvOp) {other : Nat}
    (inside : other < engine.count) {asked : KvBlockKey} {stored : KvTierEntry}
    (present : (engine.handle op s).2.held contents other asked = some stored) :
    (asked = stored.block.key ∧ op.Stores other stored (engine.handle op s).1) ∨
      s.held contents other asked = some stored := by
  have frame : ∀ {called : Nat} (state : τ called), other ≠ called →
      (s.setTier called state).held contents other asked = some stored →
      s.held contents other asked = some stored := by
    intro called state different held
    rwa [held_setTier_of_ne s different] at held
  cases op with
  | now => exact Or.inr present
  | count update => exact Or.inr present
  | stats => exact Or.inr present
  | get called key =>
      by_cases same : other = called
      · subst same
        rw [held_get (mapLike other inside)] at present
        exact Or.inr present
      · exact Or.inr (frame _ same present)
  | put called entry =>
      by_cases same : other = called
      · subst same
        rcases held_after_put (mapLike other inside) s present with ⟨key, rfl, ok⟩ | before
        · exact Or.inl ⟨key, rfl, rfl, ok⟩
        · exact Or.inr before
      · exact Or.inr (frame _ same present)
  | remove called key =>
      by_cases same : other = called
      · subst same
        exact Or.inr (held_after_remove (mapLike other inside) s present)
      · exact Or.inr (frame _ same present)
  | clear called =>
      by_cases same : other = called
      · subst same
        exact Or.inr (held_after_clear (mapLike other inside) s present)
      · exact Or.inr (frame _ same present)
  | health called =>
      by_cases same : other = called
      · subst same
        have unchanged : (engine.handle (.health other) s).2.held contents = s.held contents :=
          held_setTier_same ((mapLike other inside).health _)
        rw [unchanged] at present
        exact Or.inr present
      · exact Or.inr (frame _ same present)

end KvEngine

end Engine

/-! ### Two tiers -/

/-- The states of two tiers. The engine never calls a tier from the third on. -/
@[reducible] def Pair (τ₁ τ₂ : Type) : Nat → Type
  | 0 => τ₁
  | _ + 1 => τ₂

/-- An engine over two tiers, with the default transport and allocator. -/
def KvEngine.pair {τ₁ τ₂ : Type} (first : KvTier τ₁) (second : KvTier τ₂) (clock : Nat → Nat)
    (writePolicy : KvWritePolicy) : KvEngine (Pair τ₁ τ₂) where
  count := 2
  tier
    | 0 => first
    | _ + 1 => second
  transport := copyTransport
  allocator := vecAllocator
  clock := clock
  promoteOnRead := true
  writePolicy := writePolicy

/-- Two tier states, before any operation. -/
def KvState.pair {τ₁ τ₂ : Type} (first : τ₁) (second : τ₂) : KvState (Pair τ₁ τ₂) where
  tiers
    | 0 => first
    | _ + 1 => second
  stats := {}
  reads := 0

/-- The maps of two tiers. -/
def pairContents {τ₁ τ₂ : Type} (first : τ₁ → KvBlockKey → Option KvTierEntry)
    (second : τ₂ → KvBlockKey → Option KvTierEntry) :
    (index : Nat) → Pair τ₁ τ₂ index → KvBlockKey → Option KvTierEntry
  | 0 => first
  | _ + 1 => second

theorem pair_mapTiers {τ₁ τ₂ : Type} {first : KvTier τ₁} {second : KvTier τ₂} {clock : Nat → Nat}
    {writePolicy : KvWritePolicy} {contents₁ : τ₁ → KvBlockKey → Option KvTierEntry}
    {contents₂ : τ₂ → KvBlockKey → Option KvTierEntry} (mapLike₁ : MapTier first contents₁)
    (mapLike₂ : MapTier second contents₂) :
    (KvEngine.pair first second clock writePolicy).MapTiers (pairContents contents₁ contents₂)
  | 0, _ => mapLike₁
  | _ + 1, _ => mapLike₂

/-- Two memory tiers under the primary policy; each reading of the clock is ten seconds after the one
before. -/
def twoMemoryTiers : KvEngine (Pair MemoryTier MemoryTier) :=
  KvEngine.pair (memoryTier "fast") (memoryTier "slow") (fun reading => reading * 10) .primary

def twoMemoryMaps := pairContents MemoryTier.contents MemoryTier.contents

theorem twoMemoryTiers_mapTiers : twoMemoryTiers.MapTiers twoMemoryMaps :=
  pair_mapTiers (memoryTier_mapTier _) (memoryTier_mapTier _)

theorem twoMemoryTiers_empty : ∀ index < twoMemoryTiers.count, ∀ key,
    (KvState.pair MemoryTier.empty MemoryTier.empty).held twoMemoryMaps index key = none
  | 0, _, _ => rfl
  | _ + 1, _, _ => rfl

/-- A key of the model `m`. -/
def KvBlockKey.sample : KvBlockKey where
  modelFingerprint := "m"
  sequenceHash := Vector.replicate 32 0
  blockIndex := 0
  tokenStart := 0
  tokenCount := 4
  layerStart := 0
  layerCount := 8
  layoutVersion := 1

/-- A block of one byte. -/
def KvBlock.sample (byte : UInt8) : KvBlock where
  key := KvBlockKey.sample
  bytes := ⟨[byte], by simp⟩

end RivetCache
