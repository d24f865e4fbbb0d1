/-
**`prefetch` reports what it did.**

A prefetch takes its keys in turn. A destination that holds an entry that is not expired keeps it;
otherwise the other tiers are searched as in `get`, and the first such entry is copied (`Turn`).

* `turn_keeps`, `turn_frame`: what a turn leaves alone; `Turns` are the turns of a list of keys;
* `fetched_of_turns`: under a fixed clock the destination holds its own copy of a key, or the first one;
* `prefetch_reported`: the report counts the turns, and all of the above.
-/

import Mathlib.Data.Bool.Count
import RivetCache.Kv.Lookup

set_option linter.unusedSectionVars false

namespace RivetCache

open Library

variable {τ : Nat → Type} {engine : KvEngine τ}
  {contents : (index : Nat) → τ index → KvBlockKey → Option KvTierEntry}

namespace KvEngine

/-! ### One turn -/

/-- **What the turn of a key does.** It populates the destination, or there was nothing to copy. -/
inductive Turn (engine : KvEngine τ)
    (contents : (index : Nat) → τ index → KvBlockKey → Option KvTierEntry) (destination : Nat)
    (key : KvBlockKey) (now : Nat) (s after : KvState τ) : Bool → Prop
  | kept {entry : KvTierEntry} (live : Live now (s.held contents destination key) entry)
      (maps : after.held contents = s.held contents) : Turn engine contents destination key now s after true
  | copied {source : Nat} {entry : KvTierEntry} (stale : Stale now (s.held contents destination key))
      (first : FirstLive (s.held contents) key now engine.count source entry)
      (maps : ∀ tier < engine.count, ∀ asked, after.held contents tier asked =
        if asked = key then
          (if tier = destination then some entry
            else if tier < source then none else s.held contents tier key)
        else s.held contents tier asked) :
      Turn engine contents destination key now s after true
  | missed (stale : ∀ tier < engine.count, Stale now (s.held contents tier key))
      (maps : ∀ tier < engine.count, ∀ asked, after.held contents tier asked =
        if asked = key then none else s.held contents tier asked) :
      Turn engine contents destination key now s after false

variable {destination : Nat} {key : KvBlockKey} {now : Nat} {s after : KvState τ} {populated : Bool}

/-- **A turn misses** where no tier holds an entry that is not expired. -/
theorem turn_missed_iff (inside : destination < engine.count)
    (turn : engine.Turn contents destination key now s after populated) :
    populated = false ↔ ∀ tier < engine.count, Stale now (s.held contents tier key) := by
  cases turn with
  | kept live _ =>
      exact ⟨fun copied => (by cases copied), fun stale => absurd (stale _ inside) live.not_stale⟩
  | copied _ first _ =>
      exact ⟨fun copied => (by cases copied),
        fun stale => absurd (stale _ first.inside) first.live.not_stale⟩
  | missed stale _ => exact ⟨fun _ => stale, fun _ => rfl⟩

/-- **A turn keeps what is not expired.** -/
theorem turn_keeps (turn : engine.Turn contents destination key now s after populated) {tier : Nat}
    (inside : tier < engine.count) {asked : KvBlockKey} {entry : KvTierEntry}
    (live : Live now (s.held contents tier asked) entry) :
    after.held contents tier asked = s.held contents tier asked := by
  cases turn with
  | kept _ maps => rw [maps]
  | copied stale first maps =>
      rw [maps tier inside]
      split
      case isFalse => rfl
      case isTrue same =>
        subst same
        split
        case isTrue here =>
          rw [here] at live
          exact absurd stale live.not_stale
        case isFalse =>
          split
          case isTrue earlier => exact absurd (first.earlier tier earlier) live.not_stale
          case isFalse => rfl
  | missed stale maps =>
      rw [maps tier inside]
      split
      case isFalse => rfl
      case isTrue same =>
        subst same
        exact absurd (stale tier inside) live.not_stale

/-- A turn leaves the other keys alone. -/
theorem turn_frame (turn : engine.Turn contents destination key now s after populated) {tier : Nat}
    (inside : tier < engine.count) {asked : KvBlockKey} (other : asked ≠ key) :
    after.held contents tier asked = s.held contents tier asked := by
  cases turn with
  | kept _ maps => rw [maps]
  | copied _ _ maps => rw [maps tier inside, if_neg other]
  | missed _ maps => rw [maps tier inside, if_neg other]

theorem FirstLive.unique {held : Nat → KvBlockKey → Option KvTierEntry} {count index other : Nat}
    {entry another : KvTierEntry} (first : FirstLive held key now count index entry)
    (also : FirstLive held key now count other another) : index = other ∧ entry = another := by
  have same : index = other := by
    rcases Nat.lt_trichotomy index other with before | same | later
    · exact absurd (also.earlier index before) first.live.not_stale
    · exact same
    · exact absurd (first.earlier other later) also.live.not_stale
  subst same
  exact ⟨rfl, first.live.unique also.live⟩

/-- **What a turn fetches**: the first entry that is not expired, where the destination had none. -/
theorem turn_fetches (inside : destination < engine.count)
    (turn : engine.Turn contents destination key now s after populated)
    (stale : Stale now (s.held contents destination key)) {source : Nat} {entry : KvTierEntry}
    (first : FirstLive (s.held contents) key now engine.count source entry) :
    Live now (after.held contents destination key) entry := by
  cases turn with
  | kept live _ => exact absurd stale live.not_stale
  | copied _ found maps =>
      obtain ⟨rfl, rfl⟩ := first.unique found
      refine ⟨?_, first.live.unexpired⟩
      rw [maps destination inside, if_pos rfl, if_pos rfl]
  | missed none _ => exact absurd (none source first.inside) first.live.not_stale

/-! ### The program of a turn -/

theorem findSource_eq_scan (key : KvBlockKey) (now destination : Nat) (tiers : List Nat) :
    findSource key now destination tiers = scan key now (fun source entry => pure (some (source, entry)))
      (pure none) (tiers.filter (· ≠ destination)) := by
  induction tiers with
  | nil => rfl
  | cons source rest ih =>
      unfold findSource
      by_cases same : source = destination
      · rw [if_pos same, ih, List.filter_cons_of_neg (by simp [same])]
      · rw [if_neg same, ih, List.filter_cons_of_pos (by simp [same])]
        rfl

/-- A part of `0 .. count` without one number, up to the next element. -/
theorem filter_split {count destination index : Nat} {front rest : List Nat}
    (split : (List.range count).filter (· ≠ destination) = front ++ index :: rest) :
    index < count ∧ index ≠ destination ∧ ∀ tier, tier ∈ front ↔ tier < index ∧ tier ≠ destination := by
  have sorted : ((List.range count).filter (· ≠ destination)).Pairwise (· < ·) :=
    List.pairwise_lt_range.filter _
  have member (tier : Nat) : tier ∈ front ++ index :: rest ↔ tier < count ∧ tier ≠ destination := by
    rw [← split, List.mem_filter, List.mem_range, decide_eq_true_eq]
  rw [split, List.pairwise_append, List.pairwise_cons] at sorted
  obtain ⟨_, ⟨later, _⟩, before⟩ := sorted
  have here := (member index).mp (List.mem_append_right _ List.mem_cons_self)
  refine ⟨here.1, here.2, fun tier => ⟨fun inFront => ?_, fun below => ?_⟩⟩
  · exact ⟨before tier inFront index List.mem_cons_self,
      ((member tier).mp (List.mem_append_left _ inFront)).2⟩
  · rcases List.mem_append.mp ((member tier).mpr ⟨below.1.trans here.1, below.2⟩) with front | behind
    · exact front
    · rcases List.mem_cons.mp behind with same | inRest
      · omega
      · have := later tier inRest
        omega

/-- **A key that the destination does not hold**, or held expired. -/
theorem run_fetchKey (mapLike : engine.MapTiers contents) (succeed : engine.TiersSucceed)
    (copying : engine.Copying) (inside : destination < engine.count) (key : KvBlockKey) (now : Nat)
    {start s : KvState τ} (stale : Stale now (start.held contents destination key))
    (maps : s.held contents = heldWith (start.held contents) destination key none) :
    ∃ populated after, engine.run (engine.fetchKey key now destination) s = (.ok populated, after) ∧
      engine.Turn contents destination key now start after populated ∧ after.reads = s.reads := by
  have others {tier : Nat} (other : tier ≠ destination) (asked : KvBlockKey) :
      s.held contents tier asked = start.held contents tier asked := by
    rw [maps, heldWith_apply, if_neg fun same => other same.1]
  have distinct : ((List.range engine.count).filter (· ≠ destination)).Nodup := List.nodup_range.filter _
  have bounds : ∀ tier ∈ (List.range engine.count).filter (· ≠ destination), tier < engine.count :=
    fun tier member => List.mem_range.mp (List.mem_filter.mp member).1
  rcases run_scan mapLike succeed distinct bounds key now
      (fun source entry => pure (some (source, entry))) (pure none) s with
    ⟨before, source, rest, entry, middle, split, earlier, live, left, reads, ran⟩ |
    ⟨middle, none_live, left, reads, ran⟩
  · obtain ⟨sourceInside, different, front⟩ := filter_split split
    have first : FirstLive (start.held contents) key now engine.count source entry := by
      refine ⟨sourceInside, ?_, fun tier below => ?_⟩
      · rwa [← others different]
      · by_cases here : tier = destination
        · rwa [here]
        · rw [← others here]
          exact earlier tier ((front tier).mpr ⟨below, here⟩)
    have own : entry.block.key = key := (mapLike source sourceInside).keyed _ _ _ live.held
    obtain ⟨after, copied, last, lastReads⟩ := run_transferEntry mapLike succeed copying sourceInside
      inside different entry middle
    refine ⟨true, after, ?_, .copied stale first fun tier tierInside asked => ?_, lastReads.trans reads⟩
    · rw [← findSource_eq_scan] at ran
      unfold run at ran copied ⊢
      unfold fetchKey
      rw [Program.run_bind, ran]
      show Program.run engine.handle (do
        engine.transferEntry entry source destination
        pure true) middle = _
      rw [Program.run_bind, copied]
      rfl
    · rw [last, own, left, heldWith_apply]
      unfold heldIn
      simp only [front]
      by_cases same : asked = key
      · subst same
        by_cases here : tier = destination
        · simp [here]
        · simp [here, others here]
      · rw [if_neg fun both => same both.2, if_neg fun both => same both.2, if_neg same, maps,
          heldWith_apply, if_neg fun both => same both.2]
  · refine ⟨false, middle, ?_, .missed (fun tier tierInside => ?_) fun tier tierInside asked => ?_, reads⟩
    · rw [← findSource_eq_scan] at ran
      unfold run at ran ⊢
      unfold fetchKey
      rw [Program.run_bind, ran]
      rfl
    · by_cases here : tier = destination
      · rwa [here]
      · rw [← others here]
        exact none_live tier (List.mem_filter.mpr ⟨List.mem_range.mpr tierInside, by simp [here]⟩)
    · rw [left]
      unfold heldIn
      by_cases same : asked = key
      · subst same
        rw [if_pos rfl]
        by_cases here : tier = destination
        · rw [if_neg, maps, heldWith_apply, if_pos ⟨here, rfl⟩]
          rintro ⟨member, _⟩
          simp [here] at member
        · rw [if_pos]
          exact ⟨List.mem_filter.mpr ⟨List.mem_range.mpr tierInside, by simp [here]⟩, rfl⟩
      · rw [if_neg fun both => same both.2, if_neg same, maps, heldWith_apply,
          if_neg fun both => same both.2]

/-- **The turn of a key.** -/
theorem run_prefetchKey (mapLike : engine.MapTiers contents) (succeed : engine.TiersSucceed)
    (copying : engine.Copying) (inside : destination < engine.count) (key : KvBlockKey) (s : KvState τ) :
    ∃ populated after, engine.run (engine.prefetchKey key destination) s = (.ok populated, after) ∧
      engine.Turn contents destination key (engine.clock s.reads) s after populated ∧
      after.reads = s.reads + 1 := by
  let timed : KvState τ := (engine.handle .now s).2
  have timing : engine.run (engine.prefetchKey key destination) s =
      engine.run (probe destination key (engine.clock s.reads) (fun _ => pure true)
        (engine.fetchKey key (engine.clock s.reads) destination)) timed := rfl
  rw [timing]
  rcases run_probe mapLike succeed inside key (engine.clock s.reads) (fun _ => pure true)
      (engine.fetchKey key (engine.clock s.reads) destination) timed with
    ⟨entry, middle, live, maps, reads, ran⟩ | ⟨middle, stale, maps, reads, ran⟩
  · exact ⟨true, middle, ran.trans rfl, .kept live maps, reads⟩
  · have stale_there : Stale (engine.clock s.reads) (s.held contents destination key) := stale
    obtain ⟨populated, after, fetched, turn, last⟩ := run_fetchKey mapLike succeed copying inside key
      (engine.clock s.reads) stale_there maps
    exact ⟨populated, after, ran.trans fetched, turn, last.trans reads⟩

/-! ### The turns of a list -/

/-- **The turns of some keys**, with their outcomes: each reads the clock once. -/
inductive Turns (engine : KvEngine τ)
    (contents : (index : Nat) → τ index → KvBlockKey → Option KvTierEntry) (destination : Nat) :
    List KvBlockKey → KvState τ → KvState τ → List Bool → Prop
  | nil (s : KvState τ) : Turns engine contents destination [] s s []
  | cons {key : KvBlockKey} {rest : List KvBlockKey} {s middle after : KvState τ} {populated : Bool}
      {outcomes : List Bool}
      (ran : engine.run (engine.prefetchKey key destination) s = (.ok populated, middle))
      (turn : engine.Turn contents destination key (engine.clock s.reads) s middle populated)
      (reads : middle.reads = s.reads + 1)
      (others : Turns engine contents destination rest middle after outcomes) :
      Turns engine contents destination (key :: rest) s after (populated :: outcomes)

theorem exists_turns (mapLike : engine.MapTiers contents) (succeed : engine.TiersSucceed)
    (copying : engine.Copying) (inside : destination < engine.count) (keys : List KvBlockKey)
    (s : KvState τ) : ∃ after outcomes, engine.Turns contents destination keys s after outcomes := by
  induction keys generalizing s with
  | nil => exact ⟨s, [], .nil s⟩
  | cons key rest ih =>
      obtain ⟨populated, middle, ran, turn, reads⟩ :=
        run_prefetchKey mapLike succeed copying inside key s
      obtain ⟨after, outcomes, others⟩ := ih middle
      exact ⟨after, populated :: outcomes, .cons ran turn reads others⟩

namespace Turns

variable {keys : List KvBlockKey} {outcomes : List Bool}

theorem length (turns : engine.Turns contents destination keys s after outcomes) :
    outcomes.length = keys.length := by
  induction turns with
  | nil => rfl
  | cons _ _ _ _ ih => rw [List.length_cons, List.length_cons, ih]

theorem reads (turns : engine.Turns contents destination keys s after outcomes) :
    after.reads = s.reads + keys.length := by
  induction turns with
  | nil => rfl
  | cons _ _ reads _ ih =>
      rw [ih, reads, List.length_cons]
      omega

/-- **The loop of `prefetch_worker`** takes the turns and counts them. -/
theorem run (turns : engine.Turns contents destination keys s after outcomes) (populated missed : Nat) :
    ∃ counts, engine.run (engine.prefetchEach destination keys populated missed) s = (.ok counts, after) ∧
      (populated + missed + keys.length ≤ u64Max →
        counts = (populated + outcomes.count true, missed + outcomes.count false)) := by
  induction turns generalizing populated missed with
  | nil => exact ⟨_, rfl, fun _ => rfl⟩
  | @cons key rest s middle after outcome outcomes ran turn reads others ih =>
      have step : engine.run (engine.prefetchEach destination (key :: rest) populated missed) s =
          engine.run (if outcome then
            engine.prefetchEach destination rest (satAdd populated 1) missed
          else engine.prefetchEach destination rest populated (satAdd missed 1)) middle := by
        unfold KvEngine.run at ran ⊢
        refine (Program.run_bind (engine.prefetchKey key destination) _ s).trans ?_
        rw [ran]
        rfl
      rw [step]
      cases outcome with
      | true =>
          obtain ⟨counts, looped, exact_counts⟩ := ih (satAdd populated 1) missed
          refine ⟨counts, looped, fun fits => ?_⟩
          rw [List.length_cons] at fits
          have added : satAdd populated 1 = populated + 1 := satAdd_of_le (by omega)
          rw [added] at exact_counts
          rw [exact_counts (by omega), List.count_cons_self, List.count_cons_of_ne (by decide)]
          exact Prod.ext (by dsimp only; omega) rfl
      | false =>
          obtain ⟨counts, looped, exact_counts⟩ := ih populated (satAdd missed 1)
          refine ⟨counts, looped, fun fits => ?_⟩
          rw [List.length_cons] at fits
          have added : satAdd missed 1 = missed + 1 := satAdd_of_le (by omega)
          rw [added] at exact_counts
          rw [exact_counts (by omega), List.count_cons_self, List.count_cons_of_ne (by decide)]
          exact Prod.ext rfl (by dsimp only; omega)

/-- **A turn of the list**, after the turns of the keys before. -/
theorem turnAt (turns : engine.Turns contents destination keys s after outcomes) {index : Nat}
    (inside : index < keys.length) :
    ∃ begun ended populated,
      engine.Turns contents destination (keys.take index) s begun (outcomes.take index) ∧
      outcomes[index]? = some populated ∧
      engine.Turn contents destination keys[index] (engine.clock begun.reads) begun ended populated := by
  induction turns generalizing index with
  | nil => cases inside
  | @cons key rest s middle after populated outcomes ran turn reads others ih =>
      cases index with
      | zero => exact ⟨s, middle, populated, .nil s, rfl, turn⟩
      | succ index =>
          obtain ⟨begun, ended, outcome, before, here, there⟩ := ih (Nat.lt_of_succ_lt_succ inside)
          exact ⟨begun, ended, outcome, .cons ran turn reads before, here, there⟩

/-- **What is never expired is kept**, whatever the clock. -/
theorem keeps (turns : engine.Turns contents destination keys s after outcomes) {tier : Nat}
    (inside : tier < engine.count) {asked : KvBlockKey} {entry : KvTierEntry}
    (held : s.held contents tier asked = some entry)
    (unexpired : ∀ index < keys.length, entry.expired (engine.clock (s.reads + index)) = false) :
    after.held contents tier asked = some entry := by
  induction turns with
  | nil => exact held
  | @cons key rest s middle after populated outcomes ran turn reads others ih =>
      have live : Live (engine.clock s.reads) (s.held contents tier asked) entry :=
        ⟨held, unexpired 0 (Nat.succ_pos _)⟩
      refine ih ((turn_keeps turn inside live).trans held) fun index below => ?_
      rw [reads, Nat.add_assoc, Nat.add_comm 1]
      exact unexpired (index + 1) (Nat.succ_lt_succ below)

/-- **What the destination holds**, under a fixed clock: the first entry that is not expired, where it
had none of its own. -/
theorem fetches (turns : engine.Turns contents destination keys s after outcomes)
    (inside : destination < engine.count)
    (fixed : ∀ index < keys.length, engine.clock (s.reads + index) = now) {key : KvBlockKey}
    (member : key ∈ keys) (stale : Stale now (s.held contents destination key)) {source : Nat}
    {entry : KvTierEntry} (first : FirstLive (s.held contents) key now engine.count source entry) :
    Live now (after.held contents destination key) entry := by
  induction turns with
  | nil => cases member
  | @cons own rest s middle after populated outcomes ran turn reads others ih =>
      have here : engine.clock s.reads = now := fixed 0 (Nat.succ_pos _)
      have later : ∀ index < rest.length, engine.clock (middle.reads + index) = now := by
        intro index below
        rw [reads, Nat.add_assoc, Nat.add_comm 1]
        exact fixed (index + 1) (Nat.succ_lt_succ below)
      rw [here] at turn
      by_cases same : key = own
      · subst same
        have fetched := turn_fetches inside turn stale first
        refine ⟨others.keeps inside fetched.held fun index below => ?_, fetched.unexpired⟩
        rw [later index below]
        exact fetched.unexpired
      · have frame {tier : Nat} (tierInside : tier < engine.count) :
            middle.held contents tier key = s.held contents tier key :=
          turn_frame turn tierInside same
        refine ih later ((List.mem_cons.mp member).resolve_left same) ?_ ⟨first.inside, ?_, ?_⟩
        · rwa [frame inside]
        · rw [frame first.inside]
          exact first.live
        · intro tier before
          rw [frame (before.trans first.inside)]
          exact first.earlier tier before

end Turns

/-! ### The report -/

/-- The state in which a turn begins. -/
def atTurn (engine : KvEngine τ) (destination : Nat) (keys : List KvBlockKey) (s : KvState τ)
    (index : Nat) : KvState τ :=
  (engine.run (engine.prefetchEach destination (keys.take index) 0 0) s).2

/-- **A report that says what was done.** -/
structure Reported (engine : KvEngine τ)
    (contents : (index : Nat) → τ index → KvBlockKey → Option KvTierEntry) (destination : Nat)
    (keys : List KvBlockKey) (s after : KvState τ) (report : PrefetchReport) : Prop where
  requested : report.requested = keys.length
  total : report.populated + report.missed = keys.length
  missed : ∃ outcomes : List Bool, outcomes.length = keys.length ∧
    report.missed = outcomes.count false ∧
    ∀ (index : Nat) (inside : index < keys.length), outcomes[index]? = some false ↔
      ∀ tier < engine.count, Stale (engine.clock (s.reads + index))
        ((engine.atTurn destination keys s index).held contents tier keys[index])
  fetched : ∀ now, (∀ reading, engine.clock reading = now) → ∀ key ∈ keys,
    (∃ tier < engine.count, ∃ entry, Live now (s.held contents tier key) entry) →
    ∃ entry, Live now (after.held contents destination key) entry ∧
      (Live now (s.held contents destination key) entry ∨
        (Stale now (s.held contents destination key) ∧
          ∃ source, FirstLive (s.held contents) key now engine.count source entry))
  kept : ∀ tier < engine.count, ∀ key entry, s.held contents tier key = some entry →
    (∀ index < keys.length, entry.expired (engine.clock (s.reads + index)) = false) →
    after.held contents tier key = some entry

/-- Where a tier holds an entry that is not expired, there is a first such tier. -/
theorem exists_firstLive {held : Nat → KvBlockKey → Option KvTierEntry} {key : KvBlockKey} {now count : Nat}
    (some_live : ∃ tier < count, ∃ entry, Live now (held tier key) entry) :
    ∃ source entry, FirstLive held key now count source entry := by
  classical
  obtain ⟨inside, entry, live⟩ := Nat.find_spec some_live
  refine ⟨_, entry, inside, live, fun tier before => ?_⟩
  rcases stale_or_live now (held tier key) with stale | found
  · exact stale
  · exact absurd ⟨before.trans inside, found⟩ (Nat.find_min some_live before)

/-- **A prefetch reports what it did.** -/
theorem prefetch_reported (mapLike : engine.MapTiers contents) (succeed : engine.TiersSucceed)
    (copying : engine.Copying) (inside : destination < engine.count) {keys : List KvBlockKey}
    (fits : keys.length < 2 ^ 64) (s : KvState τ) :
    ∃ report after, engine.run (engine.prefetchWorker keys destination) s = (.ok report, after) ∧
      engine.Reported contents destination keys s after report := by
  obtain ⟨after, outcomes, turns⟩ := exists_turns mapLike succeed copying inside keys s
  obtain ⟨counts, ran, exact_counts⟩ := turns.run 0 0
  obtain rfl := exact_counts (by unfold u64Max; omega)
  rw [Nat.zero_add, Nat.zero_add] at ran
  refine ⟨⟨keys.length, outcomes.count true, outcomes.count false⟩,
    (engine.handle (.count fun stats =>
      { stats with prefetches := satAdd stats.prefetches keys.length }) after).2, ?_, ?_⟩
  · unfold run at ran ⊢
    unfold prefetchWorker
    rw [requireTier_ok inside, Program.bind_ok, Program.run_bind, ran]
    rfl
  · refine ⟨rfl, ?_, ⟨outcomes, turns.length, rfl, fun index below => ?_⟩, ?_, ?_⟩
    · rw [← turns.length]
      exact List.count_true_add_count_false outcomes
    · obtain ⟨begun, ended, populated, before, outcome, turn⟩ := turns.turnAt below
      obtain ⟨_, reached, _⟩ := before.run 0 0
      have state : engine.atTurn destination keys s index = begun := congrArg Prod.snd reached
      have time := before.reads
      rw [List.length_take, Nat.min_eq_left below.le] at time
      rw [outcome, state, ← time, Option.some.injEq]
      exact turn_missed_iff inside turn
    · intro now fixed key member some_live
      rcases stale_or_live now (s.held contents destination key) with stale | ⟨entry, live⟩
      · obtain ⟨source, entry, first⟩ := exists_firstLive some_live
        exact ⟨entry, turns.fetches inside (fun _ _ => fixed _) member stale first,
          Or.inr ⟨stale, source, first⟩⟩
      · refine ⟨entry, ⟨turns.keeps inside live.held fun index _ => ?_, live.unexpired⟩, Or.inl live⟩
        rw [fixed]
        exact live.unexpired
    · exact fun tier tierInside key entry held unexpired => turns.keeps tierInside held unexpired

/-- The slower of two memory tiers holds a block. -/
def slowerHolds : KvState (Pair MemoryTier MemoryTier) :=
  (twoMemoryTiers.run (twoMemoryTiers.putTo 1 (KvBlock.sample 1) none false)
    (KvState.pair MemoryTier.empty MemoryTier.empty)).2

/-- A key that is asked for twice is copied once, and populated twice. -/
theorem prefetch_reported_twice :
    ∃ after, twoMemoryTiers.run (twoMemoryTiers.prefetchWorker [KvBlockKey.sample, KvBlockKey.sample] 0)
        slowerHolds = (.ok ⟨2, 2, 0⟩, after) ∧
      twoMemoryTiers.Reported twoMemoryMaps 0 [KvBlockKey.sample, KvBlockKey.sample] slowerHolds after
        ⟨2, 2, 0⟩ := by
  obtain ⟨report, after, ran, reported⟩ := prefetch_reported twoMemoryTiers_mapTiers twoMemoryTiers_succeed
    twoMemoryTiers_copying (show 0 < twoMemoryTiers.count by decide)
    (show [KvBlockKey.sample, KvBlockKey.sample].length < 2 ^ 64 by decide) slowerHolds
  have counts : (Except.ok report : Except IoError PrefetchReport) = .ok ⟨2, 2, 0⟩ :=
    (congrArg Prod.fst ran).symm
  cases counts
  exact ⟨after, ran, reported⟩

/-- The two memory tiers, with a transport that fails. -/
def refusingTransport : KvEngine (Pair MemoryTier MemoryTier) :=
  { twoMemoryTiers with transport.transfer := fun _ _ _ _ => .error ⟨.other, "no route"⟩ }

/-- **A prefetch needs the transport**: the slower tier holds the block, the tiers do not fail, and
there is no report. -/
theorem prefetch_not_reported :
    refusingTransport.MapTiers twoMemoryMaps ∧ refusingTransport.TiersSucceed ∧
      ∀ report after, refusingTransport.run (refusingTransport.prefetchWorker [KvBlockKey.sample] 0)
        slowerHolds ≠ (.ok report, after) := by
  refine ⟨twoMemoryTiers_mapTiers, ⟨twoMemoryTiers_succeed.gets, twoMemoryTiers_succeed.puts,
    twoMemoryTiers_succeed.removes⟩, fun report after done => ?_⟩
  have failed : (refusingTransport.run (refusingTransport.prefetchWorker [KvBlockKey.sample] 0)
      slowerHolds).1 = .error ⟨.other, "no route"⟩ := rfl
  rw [done] at failed
  cases failed

end KvEngine

end RivetCache
