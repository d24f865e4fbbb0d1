/-
**Write-through and its rollback.**

Under `KvWritePolicy::All` a `put` writes the tiers in order and, at the first that refuses, removes the
key from those written before.

* `rollBack_held`, `putEach_refused`: what the rollback and the loop leave, tier by tier;
* `restored_iff`: a failed `put` leaves every tier with what it held for the key exactly when the tiers
  before the refusing one held nothing for it. The rollback erases and does not restore.
-/

import RivetCache.Kv.Tier

set_option linter.unusedSectionVars false

namespace RivetCache

open Library

variable {τ : Nat → Type} {engine : KvEngine τ}
  {contents : (index : Nat) → τ index → KvBlockKey → Option KvTierEntry}

namespace KvEngine

/-! ### The entry a `put` writes -/

/-- The expiry of a write made in a state. -/
def expiry (engine : KvEngine τ) (ttl : Option Duration) (s : KvState τ) : UInt64 :=
  match ttl with
  | none => 0
  | some ttl => UInt64.ofNat (expiryAt (engine.clock s.reads) ttl)

/-- The entry a `put` writes. -/
def written (engine : KvEngine τ) (block : KvBlock) (ttl : Option Duration) (pinned : Bool)
    (s : KvState τ) : KvTierEntry :=
  ⟨block, engine.expiry ttl s, pinned⟩

/-- Computing the expiry reads the clock at most once and changes nothing else. -/
theorem run_writeExpiry (engine : KvEngine τ) (ttl : Option Duration) (s : KvState τ) :
    ∃ reads, s.reads ≤ reads ∧
      engine.run (writeExpiry ttl) s = (.ok (engine.expiry ttl s), { s with reads := reads }) := by
  cases ttl with
  | none => exact ⟨s.reads, le_rfl, rfl⟩
  | some ttl =>
      unfold writeExpiry expiry expiryAt
      by_cases zero : ttl.isZero = true
      · simp only [if_pos zero]
        exact ⟨s.reads, le_rfl, rfl⟩
      · simp only [if_neg zero]
        exact ⟨s.reads + 1, Nat.le_succ _, rfl⟩

theorem requireTier_ok {index : Nat} (inside : index < engine.count) :
    engine.requireTier index = .ok () := by
  unfold requireTier
  rw [if_neg (by omega)]

theorem run_putEntryTo {index : Nat} (inside : index < engine.count) (entry : KvTierEntry)
    (s : KvState τ) : engine.run (engine.putEntryTo index entry) s =
      engine.handle (.put index entry) s := by
  unfold putEntryTo
  rw [requireTier_ok inside]
  rfl

/-- **`put`** computes the entry, writes it and counts the write. -/
theorem run_put (engine : KvEngine τ) (block : KvBlock) (ttl : Option Duration) (pinned : Bool)
    (s : KvState τ) : ∃ reads, s.reads ≤ reads ∧
      engine.run (engine.put block ttl pinned) s =
        andThen (engine.run (engine.putEntry (engine.written block ttl pinned s))
            { s with reads := reads })
          fun _ s => (.ok (), { s with
            stats := { s.stats with writes := satAdd s.stats.writes 1 } }) := by
  obtain ⟨reads, later, expiry⟩ := run_writeExpiry engine ttl s
  refine ⟨reads, later, ?_⟩
  unfold run at expiry
  unfold put run
  rw [Program.run_bind, expiry, andThen_ok, Program.run_bind]
  rfl

/-! ### The rollback -/

/-- **The rollback** removes the key from the tiers written so far. -/
theorem rollBack_held (mapLike : engine.MapTiers contents)
    (removes : ∀ index < engine.count, (engine.tier index).RemovesSucceed) (key : KvBlockKey)
    (tiers : List Nat) (inside : ∀ index ∈ tiers, index < engine.count) (s : KvState τ) :
    ∃ after, engine.run (rollBack key tiers) s = (.ok (), after) ∧
      after.held contents = heldWithout (s.held contents) key tiers := by
  induction tiers generalizing s with
  | nil =>
      exact ⟨s, rfl, (heldWithout_nil _ key).symm⟩
  | cons index rest ih =>
      have here := inside index List.mem_cons_self
      have removed : (engine.handle (.remove index key) s).1 = .ok () := removes index here _ key
      obtain ⟨after, run, left⟩ :=
        ih (fun i member => inside i (List.mem_cons_of_mem _ member))
          (engine.handle (.remove index key) s).2
      refine ⟨after, run, ?_⟩
      rw [left, held_remove (mapLike index here) s removed, heldWithout_cons]

/-! ### The loop -/

/-- **The loop of `put`, when it fails**: a first tier refused the entry, and the tiers written before it,
in this call, hold nothing for the key. -/
theorem putEach_refused (mapLike : engine.MapTiers contents)
    (removes : ∀ index < engine.count, (engine.tier index).RemovesSucceed) {entry : KvTierEntry}
    {tiers earlier : List Nat} (distinct : tiers.Nodup)
    (inside : ∀ index ∈ tiers, index < engine.count)
    (inside' : ∀ index ∈ earlier, index < engine.count) {s after : KvState τ} {error : IoError}
    (failed : engine.run (engine.putEach entry tiers earlier) s = (.error error, after)) :
    ∃ accepting refusing rest, tiers = accepting ++ refusing :: rest ∧
      (∀ index ∈ accepting, (engine.handle (.put index entry) s).1 = .ok ()) ∧
      (engine.handle (.put refusing entry) s).1 = .error error ∧
      after.held contents =
        heldWithout (s.held contents) entry.block.key (earlier ++ accepting) := by
  induction tiers generalizing earlier s with
  | nil => cases failed
  | cons index rest ih =>
      have here := inside index List.mem_cons_self
      obtain ⟨fresh, distinct⟩ := List.nodup_cons.mp distinct
      unfold putEach run at failed
      rw [Program.run_bind, Program.run_attempt] at failed
      have attempted := run_putEntryTo here entry s
      unfold run at attempted
      rw [attempted, andThen_ok] at failed
      cases outcome : (engine.handle (.put index entry) s).1 with
      | error refusal =>
          rw [outcome] at failed
          simp only [Program.run_bind] at failed
          obtain ⟨cleared, rolled, left⟩ := rollBack_held mapLike removes entry.block.key earlier
            inside' (engine.handle (.put index entry) s).2
          unfold run at rolled
          rw [rolled] at failed
          cases failed
          refine ⟨[], index, rest, rfl, by simp, outcome, ?_⟩
          rw [left, held_put_failed (mapLike index here) s outcome, List.append_nil]
      | ok value =>
          rw [outcome] at failed
          have others : ∀ other ∈ rest, (engine.handle (.put index entry) s).2.tiers other =
              s.tiers other := fun other member =>
            tiers_setTier_of_ne s (fun same : other = index => fresh (same ▸ member)) _
          obtain ⟨accepting, refusing, later, split, accepted, refused, left⟩ :=
            ih distinct (fun i member => inside i (List.mem_cons_of_mem _ member))
              (fun i member => by
                rcases List.mem_append.mp member with before | same
                · exact inside' i before
                · rwa [List.mem_singleton.mp same])
              failed
          refine ⟨index :: accepting, refusing, later, by rw [split]; rfl, ?_, ?_, ?_⟩
          · intro other member
            rcases List.mem_cons.mp member with rfl | member
            · exact outcome
            · have same := others other (by rw [split]; exact List.mem_append_left _ member)
              have ok := accepted other member
              show ((engine.tier other).put entry (s.tiers other)).1 = .ok ()
              rw [← same]
              exact ok
          · have same := others refusing (by rw [split]; simp)
            show ((engine.tier refusing).put entry (s.tiers refusing)).1 = .error error
            rw [← same]
            exact refused
          · rw [left, held_put (mapLike index here) s outcome]
            funext other asked
            unfold heldWithout
            rw [heldWith_apply]
            by_cases before : other ∈ earlier <;> by_cases later : other ∈ accepting <;>
              by_cases same : asked = entry.block.key <;> by_cases first : other = index <;>
              simp [before, later, same, first]

/-! ### A failed write -/

/-- The first tier that refuses an entry. -/
structure FirstRefusal (engine : KvEngine τ) (entry : KvTierEntry) (s : KvState τ)
    (position : Nat) : Prop where
  inside : position < engine.count
  refused : ∃ error, ((engine.tier position).put entry (s.tiers position)).1 = .error error
  accepted : ∀ index < position, ((engine.tier index).put entry (s.tiers index)).1 = .ok ()

/-- A front part of `0 .. count` ends where the next element says. -/
theorem range_split {count position : Nat} {front rest : List Nat}
    (split : List.range count = front ++ position :: rest) :
    front = List.range position ∧ position < count := by
  have length := congrArg List.length split
  rw [List.length_range, List.length_append, List.length_cons] at length
  have inside : front.length < count := by omega
  have here : (List.range count)[front.length]? = some position := by
    rw [split]
    simp
  rw [List.getElem?_range inside] at here
  have position_eq : front.length = position := Option.some.inj here
  have taken : (List.range count).take front.length = front := by
    rw [split]
    simp
  rw [List.take_range, min_eq_left inside.le, position_eq] at taken
  exact ⟨taken.symm, position_eq ▸ inside⟩

/-- **What a failed `put` leaves**: the tiers before the first refusing one hold nothing for the key, and
everything else is as before. -/
theorem put_refused (mapLike : engine.MapTiers contents)
    (removes : ∀ index < engine.count, (engine.tier index).RemovesSucceed)
    (policy : engine.writePolicy = .all) {block : KvBlock} {ttl : Option Duration} {pinned : Bool}
    {s after : KvState τ} {error : IoError}
    (failed : engine.run (engine.put block ttl pinned) s = (.error error, after)) :
    ∃ position, engine.FirstRefusal (engine.written block ttl pinned s) s position ∧
      after.held contents =
        heldWithout (s.held contents) block.key (List.range position) := by
  obtain ⟨reads, _, run⟩ := run_put engine block ttl pinned s
  rw [run] at failed
  unfold putEntry at failed
  rw [policy] at failed
  simp only at failed
  cases outcome : engine.run
      (engine.putEach (engine.written block ttl pinned s) (List.range engine.count) [])
      { s with reads := reads } with
  | mk result reached =>
      rw [outcome] at failed
      cases result with
      | ok value => cases failed
      | error refusal =>
          obtain ⟨accepting, refusing, rest, split, accepted, refused, left⟩ :=
            putEach_refused mapLike removes List.nodup_range
              (fun index member => List.mem_range.mp member) (by simp) outcome
          obtain ⟨front, inside⟩ := range_split split
          subst front
          cases failed
          refine ⟨refusing, ⟨inside, ⟨_, refused⟩, fun index before => ?_⟩, ?_⟩
          · exact accepted index (List.mem_range.mpr before)
          · rw [List.nil_append] at left
            exact left

/-- **A failed `put` leaves every tier with what it held for the key exactly when the tiers before the
first refusing one held nothing for it.** -/
theorem restored_iff (mapLike : engine.MapTiers contents)
    (removes : ∀ index < engine.count, (engine.tier index).RemovesSucceed)
    (policy : engine.writePolicy = .all) {block : KvBlock} {ttl : Option Duration} {pinned : Bool}
    {s after : KvState τ} {error : IoError}
    (failed : engine.run (engine.put block ttl pinned) s = (.error error, after)) :
    ∃ position, engine.FirstRefusal (engine.written block ttl pinned s) s position ∧
      ((∀ index < engine.count, after.held contents index block.key =
          s.held contents index block.key) ↔
        ∀ index < position, s.held contents index block.key = none) := by
  obtain ⟨position, first, left⟩ := put_refused mapLike removes policy failed
  refine ⟨position, first, ?_⟩
  have value : ∀ index, after.held contents index block.key =
      if index < position then none else s.held contents index block.key := by
    intro index
    rw [left]
    simp [heldWithout]
  constructor
  · intro restored index before
    have same := restored index (before.trans first.inside)
    rw [value, if_pos before] at same
    exact same.symm
  · intro empty index _
    rw [value]
    split
    case isTrue before => exact (empty index before).symm
    case isFalse _ => rfl

/-- Over an empty memory tier the failed write leaves no trace. -/
theorem restored_iff_empty :
    let engine := KvEngine.pair (memoryTier "memory") (failingTier "failing") (fun _ => 0) .all
    let s := KvState.pair MemoryTier.empty ()
    let after := (engine.run (engine.put (KvBlock.sample 1) none false) s).2
    ∃ position, engine.FirstRefusal (engine.written (KvBlock.sample 1) none false s) s position ∧
      ((∀ index < engine.count,
          after.held (pairContents MemoryTier.contents fun _ _ => none) index KvBlockKey.sample =
            s.held (pairContents MemoryTier.contents fun _ _ => none) index KvBlockKey.sample) ↔
        ∀ index < position,
          s.held (pairContents MemoryTier.contents fun _ _ => none) index KvBlockKey.sample = none) :=
  restored_iff (pair_mapTiers (memoryTier_mapTier _) (failingTier_mapTier _))
    (fun index _ => match index with
      | 0 => fun _ _ => rfl
      | _ + 1 => fun _ _ => rfl)
    rfl rfl

/-- **The rollback erases an older replica**: the first tier held the key before the failed write, and
holds nothing after it. -/
theorem rollback_erases_older :
    let engine := KvEngine.pair (memoryTier "memory") (failingTier "failing") (fun _ => 0) .all
    let contents := pairContents MemoryTier.contents fun _ _ => none
    let s := (engine.run (engine.putTo 0 (KvBlock.sample 1) none false)
      (KvState.pair MemoryTier.empty ())).2
    let after := (engine.run (engine.put (KvBlock.sample 2) none false) s).2
    engine.MapTiers contents ∧ (∀ index < engine.count, (engine.tier index).RemovesSucceed) ∧
      (engine.run (engine.put (KvBlock.sample 2) none false) s).1 =
        .error ⟨.other, "injected tier write failure"⟩ ∧
      s.held contents 0 KvBlockKey.sample = some ⟨KvBlock.sample 1, 0, false⟩ ∧
      after.held contents 0 KvBlockKey.sample = none := by
  refine ⟨pair_mapTiers (memoryTier_mapTier _) (failingTier_mapTier _), ?_, rfl, rfl, rfl⟩
  rintro (_ | _) _ state key
  · rfl
  · rfl

end KvEngine

end RivetCache
