/-
**Moving a block.**

`move_block` reads the block from its source, puts it into its destination, and then removes it from the
source. The removal rests on the destination's `Ok`, which a context cache gives whether or not it retains
the block.

* `moveBlock_moved`: what a successful `move_block` has done;
* `moved_iff`: right after it the destination returns the block exactly where it retains it;
* `move_loses_block`: a move into a cache too small for the block, which neither tier holds afterwards.
-/

import RivetCache.Kv.CacheTier
import RivetCache.Kv.Copies

set_option linter.unusedSectionVars false

namespace RivetCache

open Library

variable {τ : Nat → Type} {engine : KvEngine τ}

namespace KvEngine

/-- A put that succeeds. -/
theorem run_tierPut_ok {index : Nat} {entry : KvTierEntry} {s after : KvState τ} {value : Unit}
    (done : engine.run (tierPut index entry) s = (.ok value, after)) :
    ((engine.tier index).put entry (s.tiers index)).1 = .ok () ∧
      after.tiers index = ((engine.tier index).put entry (s.tiers index)).2 := by
  have result : (engine.handle (.put index entry) s).1 = .ok value := congrArg Prod.fst done
  have state : (engine.handle (.put index entry) s).2 = after := congrArg Prod.snd done
  refine ⟨result, ?_⟩
  rw [← state]
  exact tiers_setTier s index _

/-- **A transfer that succeeds** has put the entry into its destination. -/
theorem transferEntry_ok (copies : engine.Copies) {entry : KvTierEntry} {source destination : Nat}
    {s after : KvState τ} {value : Unit}
    (done : engine.run (engine.transferEntry entry source destination) s = (.ok value, after)) :
    ((engine.tier destination).put entry (s.tiers destination)).1 = .ok () ∧
      after.tiers destination = ((engine.tier destination).put entry (s.tiers destination)).2 := by
  unfold transferEntry run at done
  obtain ⟨_, _, done⟩ := Program.run_done_bind_ok.mp done
  obtain ⟨_, _, done⟩ := Program.run_done_bind_ok.mp done
  split at done
  case isTrue _ => exact run_tierPut_ok done
  case isFalse _ =>
    unfold copyEntry at done
    obtain ⟨transported, transfer, done⟩ := Program.run_done_bind_ok.mp done
    obtain ⟨allocated, copy, done⟩ := Program.run_done_bind_ok.mp done
    have first := copies.transport _ _ _ _ _ transfer
    have second := copies.allocator _ _ copy
    subst first second
    obtain ⟨_, middle, put, counted⟩ := Program.run_bind_ok.mp done
    have effect := run_tierPut_ok put
    cases counted
    exact effect

/-- **What a successful `move_block` has done**: the source has answered an entry, the destination has
accepted it, and nothing was done to the destination afterwards. -/
theorem moveBlock_moved (copies : engine.Copies) {key : KvBlockKey} {source destination : Nat}
    {removeSource : Bool} {s after : KvState τ}
    (moved : engine.run (engine.moveBlock key source destination removeSource) s = (.ok true, after)) :
    ∃ entry, ((engine.tier source).get key (s.tiers source)).1 = .ok (some entry) ∧
      ((engine.tier destination).put entry
        ((engine.handle (.get source key) s).2.tiers destination)).1 = .ok () ∧
      after.tiers destination = ((engine.tier destination).put entry
        ((engine.handle (.get source key) s).2.tiers destination)).2 := by
  unfold moveBlock run at moved
  obtain ⟨_, _, moved⟩ := Program.run_done_bind_ok.mp moved
  obtain ⟨_, _, moved⟩ := Program.run_done_bind_ok.mp moved
  obtain ⟨answer, read, asked, moved⟩ := Program.run_bind_ok.mp moved
  have answered : (engine.handle (.get source key) s).1 = .ok answer := congrArg Prod.fst asked
  have state : (engine.handle (.get source key) s).2 = read := congrArg Prod.snd asked
  cases answer with
  | none => cases moved
  | some entry =>
      refine ⟨entry, answered, ?_⟩
      rw [state]
      unfold moveEntry at moved
      obtain ⟨now, timed, clock, moved⟩ := Program.run_bind_ok.mp moved
      cases clock
      split at moved
      case isTrue _ =>
        obtain ⟨_, _, _, ending⟩ := Program.run_bind_ok.mp moved
        cases ending
      case isFalse _ =>
        obtain ⟨_, middle, transferred, moved⟩ := Program.run_bind_ok.mp moved
        have effect := transferEntry_ok copies transferred
        refine ⟨effect.1, Eq.trans ?_ effect.2⟩
        split at moved
        case isFalse _ =>
          cases moved
          rfl
        case isTrue removing =>
          obtain ⟨_, last, removed, ending⟩ := Program.run_bind_ok.mp moved
          cases ending
          have elsewhere : source ≠ destination := of_decide_eq_true (Bool.and_elim_right removing)
          have left : (engine.handle (.remove source key) middle).2 = after :=
            congrArg Prod.snd removed
          rw [← left]
          exact tiers_setTier_of_ne middle (Ne.symm elsewhere) _

/-- **A moved block is in its destination exactly where the destination retains it.** Source and
destination are map-like tiers or context caches. -/
theorem moved_iff (copies : engine.Copies) {source destination : Nat}
    (sourceKind : TierKind (engine.tier source))
    (destinationKind : TierKind (engine.tier destination)) {s : KvState τ}
    (reachable : destinationKind.Reachable (s.tiers destination)) {key : KvBlockKey}
    {entry : KvTierEntry}
    (held : ((engine.tier source).get key (s.tiers source)).1 = .ok (some entry)) {after : KvState τ}
    (moved : engine.run (engine.moveBlock key source destination true) s = (.ok true, after)) :
    ((engine.tier destination).get key (after.tiers destination)).1 = .ok (some entry) ↔
      destinationKind.Retains entry
        ((engine.handle (.get source key) s).2.tiers destination) := by
  obtain ⟨found, read, accepted, state⟩ := moveBlock_moved copies moved
  rw [held] at read
  cases read
  have still : destinationKind.Reachable
      ((engine.handle (.get source key) s).2.tiers destination) := by
    by_cases same : destination = source
    · subst same
      rw [show (engine.handle (.get destination key) s).2.tiers destination =
        ((engine.tier destination).get key (s.tiers destination)).2 from tiers_setTier s _ _]
      exact destinationKind.reachable_get reachable key
    · rw [show (engine.handle (.get source key) s).2.tiers destination = s.tiers destination from
        tiers_setTier_of_ne s same _]
      exact reachable
  have iff := destinationKind.put_get_iff still accepted
  rw [sourceKind.keyed held] at iff
  rw [state]
  exact iff

/-! ### Two context caches -/

/-- Two context caches over volatile stores, of the memory capacities given and no persistent one. Under
their one block key both keep the envelope at one cache key. -/
def twoCaches (fast slow : Nat) : KvEngine (Pair (CacheTierState VolatileStore)
    (CacheTierState VolatileStore)) :=
  KvEngine.pair
    (contextCacheTier "fast" (ContextCache.volatile fast 0) (fun _ => repeatedKey 'a') Ambient.plain)
    (contextCacheTier "slow" (ContextCache.volatile slow 0) (fun _ => repeatedKey 'a') Ambient.plain)
    (fun reading => reading) .primary

/-- A cache as `from_builder` makes it over an empty store. -/
def emptyCache (memoryBytes : Nat) : CacheTierState VolatileStore where
  cache := ((ContextCache.volatile memoryBytes 0).fromBuilder (Ambient.plain 0) VolatileStore.new).2
  calls := 0

theorem twoCaches_copies (fast slow : Nat) : (twoCaches fast slow).Copies where
  transport _ _ _ _ _ transferred := (Except.ok.inj transferred).symm
  allocator _ _ copied := (Except.ok.inj copied).symm

/-- A move into a cache that has room for the envelope. -/
theorem moved_iff_room :
    let engine := twoCaches 100 100
    let s := (engine.run (engine.putTo 0 (KvBlock.sample 7) none true)
      (KvState.pair (emptyCache 100) (emptyCache 100))).2
    let after := (engine.run (engine.moveBlock KvBlockKey.sample 0 1 true) s).2
    ((engine.tier 1).get KvBlockKey.sample (after.tiers 1)).1 =
      .ok (some ⟨KvBlock.sample 7, 0, true⟩) := by
  intro engine s after
  let kind : TierKind (engine.tier 1) := TierKind.contextCache "slow" (ContextCache.volatile 100 0)
    (fun _ => repeatedKey 'a') Ambient.plain VolatileStore.contents (fun _ => True)
    (ContextCache.volatile_backed 100 0) fun call => Ambient.plain_faultless call
  let source : TierKind (engine.tier 0) := TierKind.contextCache "fast" (ContextCache.volatile 100 0)
    (fun _ => repeatedKey 'a') Ambient.plain VolatileStore.contents (fun _ => True)
    (ContextCache.volatile_backed 100 0) fun call => Ambient.plain_faultless call
  have reachable : kind.Reachable (s.tiers 1) :=
    ⟨Ambient.plain 0, VolatileStore.new, _, Ambient.plain_faultless 0, rfl, .refl⟩
  have moved : engine.run (engine.moveBlock KvBlockKey.sample 0 1 true) s = (.ok true, after) := rfl
  refine (moved_iff (twoCaches_copies 100 100) source kind reachable rfl moved).mpr ?_
  exact Or.inl ⟨rfl, fun exceeds => absurd exceeds (by decide)⟩

/-- **A move into a cache too small for the block loses it**: the move succeeds, the destination does not
hold the block, and the source no longer does. -/
theorem move_loses_block :
    let engine := twoCaches 100 1
    let s := (engine.run (engine.putTo 0 (KvBlock.sample 7) none true)
      (KvState.pair (emptyCache 100) (emptyCache 1))).2
    let after := (engine.run (engine.moveBlock KvBlockKey.sample 0 1 true) s).2
    ((engine.tier 0).get KvBlockKey.sample (s.tiers 0)).1 =
        .ok (some ⟨KvBlock.sample 7, 0, true⟩) ∧
      (engine.run (engine.moveBlock KvBlockKey.sample 0 1 true) s).1 = .ok true ∧
      ((engine.tier 1).get KvBlockKey.sample (after.tiers 1)).1 = .ok none ∧
      ((engine.tier 0).get KvBlockKey.sample (after.tiers 0)).1 = .ok none := by
  refine ⟨?_, ?_, ?_, ?_⟩ <;> rfl

end KvEngine

end RivetCache
