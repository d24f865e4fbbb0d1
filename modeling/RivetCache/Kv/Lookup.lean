/-
**`get` over tiers that do not fail.**

`get` asks the tiers in order, removes the expired entries it meets, serves the first other one and,
where promotion is enabled, copies it to every faster tier. `set_pinned` and `prefetch` look at a tier
the same way: `probe` is that step, and `scan` the loop over it (`run_probe`, `run_scan`).

* `run_promote`: what the copies leave;
* `get_looked`: what a `get` answers, and the maps it leaves.
-/

import RivetCache.Kv.Capture

set_option linter.unusedSectionVars false

namespace RivetCache

open Library

variable {τ : Nat → Type} {engine : KvEngine τ}
  {contents : (index : Nat) → τ index → KvBlockKey → Option KvTierEntry}

namespace KvEngine

/-! ### Engines whose calls succeed -/

/-- The calls of the tiers do not fail. -/
structure TiersSucceed (engine : KvEngine τ) : Prop where
  gets : engine.GetsSucceed
  puts : ∀ index < engine.count, ∀ entry state, ((engine.tier index).put entry state).1 = .ok ()
  removes : ∀ index < engine.count, (engine.tier index).RemovesSucceed

/-- The transport and the allocator return the bytes they are given. -/
structure Copying (engine : KvEngine τ) : Prop where
  transport : ∀ key bytes source destination,
    engine.transport.transfer key bytes source destination = .ok bytes
  allocator : ∀ bytes, engine.allocator.copy bytes = .ok bytes

/-- The bundled transport and allocator do. -/
theorem copying_of_bundled (transport : engine.transport = copyTransport)
    (allocator : engine.allocator = vecAllocator) : engine.Copying where
  transport _ _ _ _ := by rw [transport]; rfl
  allocator _ := by rw [allocator]; rfl

/-! ### Entries in time -/

/-- Nothing is held that is not expired. -/
def Stale (now : Nat) (held : Option KvTierEntry) : Prop :=
  ∀ entry, held = some entry → entry.expired now = true

/-- An entry is held that is not expired. -/
structure Live (now : Nat) (held : Option KvTierEntry) (entry : KvTierEntry) : Prop where
  held : held = some entry
  unexpired : entry.expired now = false

theorem stale_or_live (now : Nat) (held : Option KvTierEntry) :
    Stale now held ∨ ∃ entry, Live now held entry := by
  cases held with
  | none => exact Or.inl fun entry present => by cases present
  | some entry =>
      cases expired : entry.expired now with
      | false => exact Or.inr ⟨entry, rfl, expired⟩
      | true => exact Or.inl fun other present => by cases present; exact expired

theorem Live.not_stale {now : Nat} {held : Option KvTierEntry} {entry : KvTierEntry}
    (live : Live now held entry) : ¬ Stale now held := by
  intro stale
  have expired := stale entry live.held
  rw [live.unexpired] at expired
  cases expired

theorem Live.unique {now : Nat} {held : Option KvTierEntry} {entry other : KvTierEntry}
    (live : Live now held entry) (also : Live now held other) : entry = other :=
  Option.some.inj (live.held.symm.trans also.held)

/-- **The first tier with an entry that is not expired.** -/
structure FirstLive (held : Nat → KvBlockKey → Option KvTierEntry) (key : KvBlockKey) (now count : Nat)
    (index : Nat) (entry : KvTierEntry) : Prop where
  inside : index < count
  live : Live now (held index key) entry
  earlier : ∀ tier < index, Stale now (held tier key)

/-! ### The maps with a key replaced -/

/-- The maps, with one value for a key in some tiers. -/
def heldIn (held : Nat → KvBlockKey → Option KvTierEntry) (key : KvBlockKey) (tiers : List Nat)
    (value : Option KvTierEntry) : Nat → KvBlockKey → Option KvTierEntry :=
  fun index asked => if index ∈ tiers ∧ asked = key then value else held index asked

theorem heldIn_nil (held : Nat → KvBlockKey → Option KvTierEntry) (key : KvBlockKey)
    (value : Option KvTierEntry) : heldIn held key [] value = held := by
  funext index asked
  simp [heldIn]

theorem heldIn_cons (held : Nat → KvBlockKey → Option KvTierEntry) (key : KvBlockKey) (index : Nat)
    (rest : List Nat) (value : Option KvTierEntry) :
    heldIn (heldWith held index key value) key rest value = heldIn held key (index :: rest) value := by
  funext other asked
  unfold heldIn
  rw [heldWith_apply]
  by_cases member : other ∈ rest <;> by_cases same : asked = key <;>
    by_cases first : other = index <;> simp [member, same, first]

theorem heldIn_congr {held : Nat → KvBlockKey → Option KvTierEntry} {key : KvBlockKey}
    {tiers others : List Nat} {value : Option KvTierEntry} (same : ∀ index, index ∈ tiers ↔ index ∈ others) :
    heldIn held key tiers value = heldIn held key others value := by
  funext index asked
  unfold heldIn
  simp only [same]

/-! ### Looking at a tier -/

/-- What the loops do with a tier: an expired entry is removed, and another one ends the search. -/
def probe {α : Type} (index : Nat) (key : KvBlockKey) (now : Nat) (found : KvTierEntry → KvProgram α)
    (absent : KvProgram α) : KvProgram α := do
  match ← tierGet index key with
  | none => absent
  | some entry =>
      if entry.expired now then do
        discardExpired index key
        absent
      else found entry

/-- An expired entry is removed. -/
theorem run_discardExpired (mapLike : engine.MapTiers contents) (succeed : engine.TiersSucceed)
    {index : Nat} (inside : index < engine.count) (key : KvBlockKey) (s : KvState τ) :
    ∃ after, engine.run (discardExpired index key) s = (.ok (), after) ∧
      after.held contents = heldWith (s.held contents) index key none ∧ after.reads = s.reads := by
  have removed := succeed.removes index inside (s.tiers index) key
  have called : engine.run (tierRemove index key) s =
      (.ok (), (engine.handle (.remove index key) s).2) := Prod.ext removed rfl
  unfold run at called
  unfold discardExpired run
  rw [Program.run_bind, called, andThen_ok]
  exact ⟨_, rfl, held_remove (mapLike index inside) s removed, rfl⟩

/-- **The outcome of looking at a tier**: the program goes on as `found` or as `absent`. -/
theorem run_probe {α : Type} (mapLike : engine.MapTiers contents) (succeed : engine.TiersSucceed)
    {index : Nat} (inside : index < engine.count) (key : KvBlockKey) (now : Nat)
    (found : KvTierEntry → KvProgram α) (absent : KvProgram α) (s : KvState τ) :
    (∃ entry middle, Live now (s.held contents index key) entry ∧
      middle.held contents = s.held contents ∧ middle.reads = s.reads ∧
      engine.run (probe index key now found absent) s = engine.run (found entry) middle) ∨
    (∃ middle, Stale now (s.held contents index key) ∧
      middle.held contents = heldWith (s.held contents) index key none ∧ middle.reads = s.reads ∧
      engine.run (probe index key now found absent) s = engine.run absent middle) := by
  obtain ⟨answer, answered⟩ := succeed.gets index inside key (s.tiers index)
  let asked : KvState τ := (engine.handle (.get index key) s).2
  have asking : engine.run (tierGet index key) s = (.ok answer, asked) := Prod.ext answered rfl
  have here : answer = s.held contents index key := got_held (mapLike index inside) s answered
  have maps : asked.held contents = s.held contents := held_get (mapLike index inside) s key
  unfold run at asking
  unfold probe run
  rw [Program.run_bind, asking, andThen_ok]
  cases answer with
  | none =>
      refine Or.inr ⟨asked, fun entry present => ?_, ?_, rfl, rfl⟩
      · rw [← here] at present
        cases present
      · rw [maps]
        funext other asked
        rw [heldWith_apply]
        split
        case isTrue same =>
          rw [same.1, same.2]
          exact here.symm
        case isFalse => rfl
  | some entry =>
      dsimp only
      split
      case isTrue expired =>
        obtain ⟨after, removed, left, reads⟩ := run_discardExpired mapLike succeed inside key asked
        unfold run at removed
        rw [Program.run_bind, removed, andThen_ok]
        refine Or.inr ⟨after, fun other present => ?_, left.trans (by rw [maps]), reads, rfl⟩
        rw [← here] at present
        cases present
        exact expired
      case isFalse unexpired =>
        exact Or.inl ⟨entry, asked, ⟨here.symm, Bool.not_eq_true _ ▸ unexpired⟩, maps, rfl, rfl⟩

/-- The loop over the tiers. -/
def scan {α : Type} (key : KvBlockKey) (now : Nat) (found : Nat → KvTierEntry → KvProgram α)
    (absent : KvProgram α) : List Nat → KvProgram α
  | [] => absent
  | index :: rest => probe index key now (found index) (scan key now found absent rest)

/-- **The outcome of the loop**: the first tier with an entry that is not expired, or none; the expired
entries before it are gone. -/
theorem run_scan {α : Type} (mapLike : engine.MapTiers contents) (succeed : engine.TiersSucceed)
    {tiers : List Nat} (distinct : tiers.Nodup) (inside : ∀ index ∈ tiers, index < engine.count)
    (key : KvBlockKey) (now : Nat) (found : Nat → KvTierEntry → KvProgram α) (absent : KvProgram α)
    (s : KvState τ) :
    (∃ before index rest entry middle, tiers = before ++ index :: rest ∧
      (∀ tier ∈ before, Stale now (s.held contents tier key)) ∧
      Live now (s.held contents index key) entry ∧
      middle.held contents = heldIn (s.held contents) key before none ∧ middle.reads = s.reads ∧
      engine.run (scan key now found absent tiers) s = engine.run (found index entry) middle) ∨
    (∃ middle, (∀ tier ∈ tiers, Stale now (s.held contents tier key)) ∧
      middle.held contents = heldIn (s.held contents) key tiers none ∧ middle.reads = s.reads ∧
      engine.run (scan key now found absent tiers) s = engine.run absent middle) := by
  induction tiers generalizing s with
  | nil =>
      exact Or.inr ⟨s, fun _ member => absurd member List.not_mem_nil, (heldIn_nil _ key none).symm, rfl, rfl⟩
  | cons index rest ih =>
      obtain ⟨fresh, distinct⟩ := List.nodup_cons.mp distinct
      have here := inside index List.mem_cons_self
      rcases run_probe mapLike succeed here key now (found index) (scan key now found absent rest) s with
        ⟨entry, middle, live, maps, reads, ran⟩ | ⟨middle, stale, maps, reads, ran⟩
      · refine Or.inl ⟨[], index, rest, entry, middle, rfl, fun _ member => absurd member List.not_mem_nil,
          live, ?_, reads, ran⟩
        rw [maps, heldIn_nil]
      · have later : ∀ tier ∈ rest, middle.held contents tier key = s.held contents tier key := by
          intro tier member
          rw [maps, heldWith_apply, if_neg]
          rintro ⟨rfl, _⟩
          exact fresh member
        rcases ih distinct (fun tier member => inside tier (List.mem_cons_of_mem _ member)) middle with
          ⟨before, chosen, after, entry, last, split, others, live, lastMaps, lastReads, lastRan⟩ |
          ⟨last, others, lastMaps, lastReads, lastRan⟩
        · refine Or.inl ⟨index :: before, chosen, after, entry, last, by rw [split]; rfl, ?_, ?_, ?_,
            lastReads.trans reads, ran.trans lastRan⟩
          · intro tier member
            rcases List.mem_cons.mp member with rfl | member
            · exact stale
            · rw [← later tier (split ▸ List.mem_append_left _ member)]
              exact others tier member
          · rwa [← later chosen (split ▸ List.mem_append_right _ List.mem_cons_self)]
          · rw [lastMaps, maps, heldIn_cons]
        · refine Or.inr ⟨last, ?_, by rw [lastMaps, maps, heldIn_cons], lastReads.trans reads,
            ran.trans lastRan⟩
          intro tier member
          rcases List.mem_cons.mp member with rfl | member
          · exact stale
          · rw [← later tier member]
            exact others tier member

/-! ### Copying between tiers -/

/-- A put that is accepted. -/
theorem run_tierPut (mapLike : engine.MapTiers contents) (succeed : engine.TiersSucceed)
    {index : Nat} (inside : index < engine.count) (entry : KvTierEntry) (s : KvState τ) :
    ∃ after, engine.run (tierPut index entry) s = (.ok (), after) ∧
      after.held contents = heldWith (s.held contents) index entry.block.key (some entry) ∧
      after.reads = s.reads := by
  have accepted := succeed.puts index inside entry (s.tiers index)
  exact ⟨(engine.handle (.put index entry) s).2, Prod.ext accepted rfl,
    held_put (mapLike index inside) s accepted, rfl⟩

/-- **`transfer_entry`** between two tiers: the destination holds the entry. -/
theorem run_transferEntry (mapLike : engine.MapTiers contents) (succeed : engine.TiersSucceed)
    (copying : engine.Copying) {source destination : Nat} (sourceInside : source < engine.count)
    (inside : destination < engine.count) (different : source ≠ destination) (entry : KvTierEntry)
    (s : KvState τ) :
    ∃ after, engine.run (engine.transferEntry entry source destination) s = (.ok (), after) ∧
      after.held contents = heldWith (s.held contents) destination entry.block.key (some entry) ∧
      after.reads = s.reads := by
  obtain ⟨middle, put, maps, reads⟩ := run_tierPut mapLike succeed inside entry s
  unfold run at put
  unfold transferEntry copyEntry run
  rw [requireTier_ok sourceInside, requireTier_ok inside, Program.bind_ok, Program.bind_ok,
    if_neg different, copying.transport, Program.bind_ok, copying.allocator, Program.bind_ok,
    Program.run_bind, put, andThen_ok]
  exact ⟨_, rfl, maps, reads⟩

/-- **The promotion of `get`**: every tier of the list holds the entry. -/
theorem run_promote (mapLike : engine.MapTiers contents) (succeed : engine.TiersSucceed)
    (copying : engine.Copying) {source : Nat} (sourceInside : source < engine.count)
    {tiers : List Nat} (inside : ∀ index ∈ tiers, index < engine.count) (elsewhere : source ∉ tiers)
    (entry : KvTierEntry) (s : KvState τ) :
    ∃ after, engine.run (engine.promote entry source tiers) s = (.ok (), after) ∧
      after.held contents = heldIn (s.held contents) entry.block.key tiers (some entry) ∧
      after.reads = s.reads := by
  induction tiers generalizing s with
  | nil => exact ⟨s, rfl, (heldIn_nil _ _ _).symm, rfl⟩
  | cons destination rest ih =>
      rw [List.mem_cons, not_or] at elsewhere
      obtain ⟨middle, copied, maps, reads⟩ := run_transferEntry mapLike succeed copying sourceInside
        (inside destination List.mem_cons_self) elsewhere.1 entry s
      obtain ⟨after, others, left, last⟩ :=
        ih (fun index member => inside index (List.mem_cons_of_mem _ member)) elsewhere.2
          (engine.handle (.count fun stats =>
            { stats with promotions := satAdd stats.promotions 1 }) middle).2
      refine ⟨after, ?_, ?_, last.trans reads⟩
      · unfold run at copied others
        unfold promote run
        rw [Program.run_bind, copied, andThen_ok]
        exact others
      · rw [left, held_count, maps, heldIn_cons]

/-- **A hit**: where promotion is enabled, the faster tiers hold the entry. -/
theorem run_serve (mapLike : engine.MapTiers contents) (succeed : engine.TiersSucceed)
    (copying : engine.Copying) {index : Nat} (inside : index < engine.count) (entry : KvTierEntry)
    (s : KvState τ) :
    ∃ after, engine.run (engine.serve entry index) s = (.ok (some entry.block), after) ∧
      after.held contents = heldIn (s.held contents) entry.block.key
        (if engine.promoteOnRead then List.range index else []) (some entry) ∧
      after.reads = s.reads := by
  let counted : KvState τ := (engine.handle (.count fun stats =>
    { stats with hits := satAdd stats.hits 1 }) s).2
  have ends (middle : KvState τ) : engine.run (do
      let bytes ← .done (engine.allocator.copy entry.block.bytes)
      pure (some (⟨entry.block.key, bytes⟩ : KvBlock))) middle = (.ok (some entry.block), middle) := by
    rw [copying.allocator]
    rfl
  have counting (rest : KvProgram (Option KvBlock)) : engine.run (do
      countStats fun stats => { stats with hits := satAdd stats.hits 1 }
      rest) s = engine.run rest counted := rfl
  unfold serve
  rw [counting]
  split
  case isTrue promotes =>
    rw [Bool.and_eq_true, decide_eq_true_eq] at promotes
    obtain ⟨after, promoted, left, reads⟩ := run_promote mapLike succeed copying inside
      (fun tier member => (List.mem_range.mp (List.mem_reverse.mp member)).trans inside)
      (fun member => Nat.lt_irrefl _ (List.mem_range.mp (List.mem_reverse.mp member))) entry counted
    refine ⟨after, ?_, ?_, reads⟩
    · have served := ends after
      unfold run at promoted served ⊢
      rw [Program.run_bind, promoted, andThen_ok]
      exact served
    · rw [left, if_pos promotes.1]
      exact heldIn_congr fun _ => List.mem_reverse
  case isFalse stays =>
    refine ⟨counted, ends counted, ?_, rfl⟩
    have nothing : (if engine.promoteOnRead then List.range index else []) = [] := by
      split
      case isTrue promotes =>
        have first : index = 0 := by
          by_contra faster
          exact stays (by rw [promotes, Bool.true_and]; exact decide_eq_true (Nat.pos_of_ne_zero faster))
        rw [first]
        rfl
      case isFalse => rfl
    rw [nothing, heldIn_nil]
    rfl

/-! ### `get` -/

/-- The loop of `get`. -/
theorem getFrom_eq_scan (key : KvBlockKey) (now : Nat) (tiers : List Nat) :
    engine.getFrom key now tiers = scan key now (fun index entry => engine.serve entry index)
      (do
        countStats fun stats => { stats with misses := satAdd stats.misses 1 }
        pure none) tiers := by
  induction tiers with
  | nil => rfl
  | cons index rest ih =>
      show probe index key now (fun entry => engine.serve entry index) (engine.getFrom key now rest) = _
      rw [ih]
      rfl

/-- **What a `get` answers, and leaves.** A hit is the first tier in order with an entry that is not
expired: the tiers before it are without the key, or hold the promoted entry. A miss leaves no tier with
the key. -/
inductive Looked (engine : KvEngine τ)
    (contents : (index : Nat) → τ index → KvBlockKey → Option KvTierEntry) (key : KvBlockKey) (now : Nat)
    (s after : KvState τ) : Option KvBlock → Prop
  | hit {index : Nat} {entry : KvTierEntry}
      (first : FirstLive (s.held contents) key now engine.count index entry)
      (maps : ∀ tier < engine.count, ∀ asked, after.held contents tier asked =
        if tier < index ∧ asked = key then (if engine.promoteOnRead then some entry else none)
        else s.held contents tier asked) :
      Looked engine contents key now s after (some entry.block)
  | miss (stale : ∀ tier < engine.count, Stale now (s.held contents tier key))
      (maps : ∀ tier < engine.count, ∀ asked, after.held contents tier asked =
        if asked = key then none else s.held contents tier asked) :
      Looked engine contents key now s after none

/-- **`get` reads in order and promotes faithfully.** -/
theorem get_looked (mapLike : engine.MapTiers contents) (succeed : engine.TiersSucceed)
    (copying : engine.Copying) (key : KvBlockKey) (s : KvState τ) :
    ∃ answer after, engine.run (engine.get key) s = (.ok answer, after) ∧
      engine.Looked contents key (engine.clock s.reads) s after answer := by
  let timed : KvState τ := (engine.handle .now s).2
  have getting : engine.run (engine.get key) s =
      engine.run (engine.getFrom key (engine.clock s.reads) (List.range engine.count)) timed :=
    Program.run_bind _ _ s
  rw [getting, getFrom_eq_scan]
  rcases run_scan mapLike succeed List.nodup_range (fun index member => List.mem_range.mp member) key
      (engine.clock s.reads) (fun index entry => engine.serve entry index) (do
        countStats fun stats => { stats with misses := satAdd stats.misses 1 }
        pure none) timed with
    ⟨before, index, rest, entry, middle, split, stale, live, maps, _, ran⟩ | ⟨middle, stale, maps, _, ran⟩
  · obtain ⟨rfl, inside⟩ := range_split split
    obtain ⟨after, served, left, _⟩ := run_serve mapLike succeed copying inside entry middle
    have own : entry.block.key = key := (mapLike index inside).keyed _ _ _ live.held
    refine ⟨some entry.block, after, ran.trans served, .hit ⟨inside, live, fun tier earlier =>
      stale tier (List.mem_range.mpr earlier)⟩ fun tier _ asked => ?_⟩
    rw [left, maps, own]
    unfold heldIn
    change _ = if _ then _ else timed.held contents tier asked
    by_cases faster : tier < index <;> by_cases same : asked = key <;>
      cases engine.promoteOnRead <;> simp [faster, same]
  · refine ⟨none, _, ran.trans rfl, .miss (fun tier inside => stale tier (List.mem_range.mpr inside))
      fun tier inside asked => ?_⟩
    rw [held_count, maps]
    unfold heldIn
    simp only [List.mem_range, inside, true_and]
    rfl

theorem twoMemoryTiers_succeed : twoMemoryTiers.TiersSucceed where
  gets
    | 0, _, _, _ => ⟨_, rfl⟩
    | _ + 1, _, _, _ => ⟨_, rfl⟩
  puts
    | 0, _, _, _ => rfl
    | _ + 1, _, _, _ => rfl
  removes
    | 0, _ => fun _ _ => rfl
    | _ + 1, _ => fun _ _ => rfl

theorem twoMemoryTiers_copying : twoMemoryTiers.Copying := copying_of_bundled rfl rfl

/-- The slower of two memory tiers holds a block. -/
theorem get_looked_slower :
    let s := (twoMemoryTiers.run (twoMemoryTiers.putTo 1 (KvBlock.sample 1) none false)
      (KvState.pair MemoryTier.empty MemoryTier.empty)).2
    ∃ after, twoMemoryTiers.run (twoMemoryTiers.get KvBlockKey.sample) s =
        (.ok (some (KvBlock.sample 1)), after) ∧
      twoMemoryTiers.Looked twoMemoryMaps KvBlockKey.sample 0 s after (some (KvBlock.sample 1)) := by
  obtain ⟨answer, after, ran, looked⟩ := get_looked twoMemoryTiers_mapTiers twoMemoryTiers_succeed
    twoMemoryTiers_copying KvBlockKey.sample
    (twoMemoryTiers.run (twoMemoryTiers.putTo 1 (KvBlock.sample 1) none false)
      (KvState.pair MemoryTier.empty MemoryTier.empty)).2
  have hit : (Except.ok answer : Except IoError (Option KvBlock)) = .ok (some (KvBlock.sample 1)) :=
    (congrArg Prod.fst ran).symm
  cases hit
  exact ⟨after, ran, looked⟩

end KvEngine

end RivetCache
