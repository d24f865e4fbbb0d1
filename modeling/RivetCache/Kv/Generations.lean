/-
**Generations of a block under the primary write policy.**

A `put` under `KvWritePolicy::Primary` writes the first tier and leaves older copies of the block in slower
tiers, where promotion, movement and prefetching had put them. Such a copy is served again once the newer
one is gone. `KvHistory` is a run with the log of its writes and deletions; a write *replaces* the older
ones when no slower tier held an unexpired copy at the time.

* `keeps_current`: a call leaves in the tiers only entries that have expired or that may still be read;
* `served_visible`: what `get` serves was put for the key, and neither deleted nor replaced since;
* `older_block_resurfaces`: without a replacing write, the most recent one need not be the one served.
-/

import RivetCache.Kv.Copies
import RivetCache.Kv.WriteThrough
import RivetCache.Library.WriteLog

set_option linter.unusedSectionVars false

namespace RivetCache

open Library

/-- A state, and the writes and deletions that led to it, newest first. -/
structure KvHistory (τ : Nat → Type) where
  state : KvState τ
  log : List (LogEntry KvBlockKey Payload)

variable {τ : Nat → Type} {engine : KvEngine τ}
  {contents : (index : Nat) → τ index → KvBlockKey → Option KvTierEntry}

namespace KvEngine

/-- No tier but the first holds an unexpired entry for the key. -/
def primaryOnly (engine : KvEngine τ)
    (contents : (index : Nat) → τ index → KvBlockKey → Option KvTierEntry) (s : KvState τ)
    (key : KvBlockKey) : Bool :=
  (List.range engine.count).all fun index => index == 0 ||
    match s.held contents index key with
    | none => true
    | some entry => entry.expired (engine.clock s.reads)

/-- What a call adds to the log, by its outcome. -/
def noted (engine : KvEngine τ)
    (contents : (index : Nat) → τ index → KvBlockKey → Option KvTierEntry) (s : KvState τ) :
    KvCall → Except IoError Unit → LogEntry KvBlockKey Payload
  | .put block _ _, .ok () =>
      .write block.key block.bytes (engine.primaryOnly contents s block.key)
  | .invalidate key, .ok () => .erase key
  | _, _ => .other

/-- One call, with its entry in the log. -/
def advance (engine : KvEngine τ)
    (contents : (index : Nat) → τ index → KvBlockKey → Option KvTierEntry) (call : KvCall)
    (history : KvHistory τ) : KvHistory τ where
  state := (engine.run (engine.program call) history.state).2
  log := engine.noted contents history.state call
    (engine.run (engine.program call) history.state).1 :: history.log

/-! ### What may still be read -/

/-- A block and its expiry: what a copy keeps. -/
def blockView (entry : KvTierEntry) : KvBlock × UInt64 := (entry.block, entry.expiresAt)

theorem preserves_blockView (copies : engine.Copies) : engine.Preserves blockView where
  copied entry source destination transported allocated transfer copy := by
    have first := copies.transport _ _ _ _ _ transfer
    have second := copies.allocator _ _ copy
    unfold blockView
    rw [second, first]
  pinned _ _ := rfl

/-- A block that has expired or may still be read. -/
def Current (log : List (LogEntry KvBlockKey Payload)) (time : Nat) (view : KvBlock × UInt64) : Prop :=
  isExpired view.2.toNat time = true ∨ Visible view.1.key view.1.bytes log

theorem Current.later {log : List (LogEntry KvBlockKey Payload)} {earlier later : Nat}
    {view : KvBlock × UInt64} (current : Current log earlier view) (order : earlier ≤ later) :
    Current log later view :=
  current.imp_left (isExpired_mono order)

/-- Every entry of every tier has expired or may still be read. -/
def AllCurrent (engine : KvEngine τ)
    (contents : (index : Nat) → τ index → KvBlockKey → Option KvTierEntry)
    (log : List (LogEntry KvBlockKey Payload)) (time : Nat) (s : KvState τ) : Prop :=
  ∀ index < engine.count, ∀ key entry, s.held contents index key = some entry →
    Current log time (blockView entry)

/-- What is true of the facts an operation can know, from a start time on. -/
def FactHolds (log : List (LogEntry KvBlockKey Payload)) (time : Nat) :
    KvFact (KvBlock × UInt64) → Prop
  | .time now => time ≤ now
  | .seen key view => view.1.key = key ∧ Current log time view
  | .removed _ _ => True

/-! ### Copying calls -/

section Run

variable (mapLike : engine.MapTiers contents) (clock : Monotone engine.clock)
  {log : List (LogEntry KvBlockKey Payload)} {start : KvState τ}

include mapLike clock

/-- A run whose writes are of what it has seen. -/
theorem run_current {α : Type} {program : KvProgram α}
    {post : α → (KvFact (KvBlock × UInt64) → Prop) → Prop}
    (informed : program.Informed (engine.learns blockView) (needs blockView) post fun _ => False)
    (current : engine.AllCurrent contents log (engine.clock start.reads) start) :
    (start.reads ≤ (engine.run program start).2.reads ∧
      engine.AllCurrent contents log (engine.clock start.reads) (engine.run program start).2) ∧
      ∀ value, (engine.run program start).1 = .ok value →
        ∃ known, (∀ fact, known fact → FactHolds log (engine.clock start.reads) fact) ∧
          post value known := by
  refine Program.run_informed
    (I := fun s => start.reads ≤ s.reads ∧
      engine.AllCurrent contents log (engine.clock start.reads) s)
    (fun op s held enough => ⟨?_, fun index inside key entry present => ?_⟩)
    (fun op s held fact learned => ?_) informed (fun _ impossible => impossible.elim)
    ⟨le_rfl, current⟩
  · cases op with
    | now => exact held.1.trans (Nat.le_succ _)
    | _ => exact held.1
  · rcases held_after s mapLike op inside present with ⟨_, stored⟩ | before
    · cases op with
      | put called given =>
          obtain ⟨_, rfl, _⟩ := stored
          exact (enough _ rfl).2
      | _ => exact stored.elim
    · exact held.2 index inside key entry before
  · cases op with
    | now =>
        cases learned
        exact clock held.1
    | get index key =>
        obtain ⟨inside, entry, answered, known⟩ := learned
        have present := (got_held (mapLike index inside) s answered).symm
        have own : entry.block.key = key := (mapLike index inside).keyed _ _ _ present
        have readable := held.2 index inside key entry present
        rcases known with rfl | rfl
        · exact ⟨own, readable⟩
        · exact ⟨rfl, readable⟩
    | remove index key =>
        obtain ⟨_, rfl⟩ := learned
        trivial
    | _ => exact learned.elim

end Run

/-! ### Writing and deleting -/

/-- **`put` under the primary policy** writes the first tier, or fails and changes no map. -/
theorem put_primary (mapLike : engine.MapTiers contents) (policy : engine.writePolicy = .primary)
    (block : KvBlock) (ttl : Option Duration) (pinned : Bool) (s : KvState τ) :
    ∃ result after, engine.run (engine.put block ttl pinned) s = (result, after) ∧
      s.reads ≤ after.reads ∧
      ((result = .ok () ∧ after.held contents =
          heldWith (s.held contents) 0 block.key (some (engine.written block ttl pinned s))) ∨
        ((∃ error, result = .error error) ∧ after.held contents = s.held contents)) := by
  obtain ⟨reads, later, run⟩ := run_put engine block ttl pinned s
  rw [run]
  unfold putEntry
  rw [policy]
  simp only
  by_cases inside : 0 < engine.count
  · rw [run_putEntryTo inside]
    have unread : (engine.handle (.put 0 (engine.written block ttl pinned s))
        { s with reads := reads }).2.reads = reads := rfl
    rcases outcome : engine.handle (.put 0 (engine.written block ttl pinned s))
        { s with reads := reads } with ⟨result, after⟩
    rw [outcome] at unread
    have order : s.reads ≤ after.reads := later.trans unread.ge
    cases result with
    | ok value =>
        have held := held_put (mapLike 0 inside) _ (congrArg Prod.fst outcome)
        rw [outcome] at held
        exact ⟨_, _, rfl, order, Or.inl ⟨rfl, held⟩⟩
    | error error =>
        have held := held_put_failed (mapLike 0 inside) _ (congrArg Prod.fst outcome)
        rw [outcome] at held
        exact ⟨_, _, rfl, order, Or.inr ⟨⟨error, rfl⟩, held⟩⟩
  · have refused : engine.requireTier 0 =
        .error ⟨.invalidInput, s!"KV tier index {0} is out of range"⟩ := by
      unfold requireTier
      rw [if_pos (by omega)]
    unfold putEntryTo KvEngine.run
    rw [refused]
    exact ⟨_, _, rfl, later, Or.inr ⟨⟨_, rfl⟩, rfl⟩⟩

/-- **The loop of `invalidate`**, when it succeeds, has removed the key everywhere. -/
theorem removeEach_held (mapLike : engine.MapTiers contents) (key : KvBlockKey) {tiers : List Nat}
    (inside : ∀ index ∈ tiers, index < engine.count) {s after : KvState τ}
    (removed : engine.run (removeEach key tiers) s = (.ok (), after)) :
    after.held contents = heldWithout (s.held contents) key tiers := by
  induction tiers generalizing s with
  | nil =>
      cases removed
      exact (heldWithout_nil _ key).symm
  | cons index rest ih =>
      unfold removeEach run at removed
      rw [Program.run_bind] at removed
      obtain ⟨_, middle, first, later⟩ := andThen_eq_ok.mp removed
      have ok : (engine.handle (.remove index key) s).1 = .ok () := congrArg Prod.fst first
      have state : (engine.handle (.remove index key) s).2 = middle := congrArg Prod.snd first
      rw [ih (fun i member => inside i (List.mem_cons_of_mem _ member)) later, ← state,
        held_remove (mapLike index (inside index List.mem_cons_self)) s ok, heldWithout_cons]

/-- **`invalidate`**, when it succeeds, leaves no entry for the key. -/
theorem invalidate_held (mapLike : engine.MapTiers contents) (key : KvBlockKey) {s : KvState τ}
    (succeeded : (engine.run (engine.invalidate key) s).1 = .ok ()) :
    ∀ index < engine.count, (engine.run (engine.invalidate key) s).2.held contents index key = none := by
  unfold invalidate run at succeeded ⊢
  rw [Program.run_bind] at succeeded ⊢
  rcases outcome : Program.run engine.handle (removeEach key (List.range engine.count)) s
    with ⟨result, after⟩
  rw [outcome] at succeeded
  cases result with
  | error error => cases succeeded
  | ok value =>
      intro index inside
      have left := removeEach_held mapLike key (fun _ member => List.mem_range.mp member) outcome
      show after.held contents index key = none
      rw [left]
      unfold heldWithout
      rw [if_pos ⟨List.mem_range.mpr inside, rfl⟩]

/-! ### Steps and runs -/

theorem primaryOnly_iff {s : KvState τ} {key : KvBlockKey} :
    engine.primaryOnly contents s key = true ↔ ∀ index < engine.count, index ≠ 0 →
      ∀ entry, s.held contents index key = some entry →
        entry.expired (engine.clock s.reads) = true := by
  unfold primaryOnly
  rw [List.all_eq_true]
  refine forall_congr' fun index => ?_
  rw [List.mem_range]
  refine imp_congr_right fun _ => ?_
  cases present : s.held contents index key with
  | none => simp
  | some entry =>
      by_cases first : index = 0
      · simp [first]
      · simp [first]

/-- The clock is read no earlier after a call than before it, and entries stay current. -/
def HistoryCurrent (engine : KvEngine τ)
    (contents : (index : Nat) → τ index → KvBlockKey → Option KvTierEntry) (history : KvHistory τ) :
    Prop :=
  engine.AllCurrent contents history.log (engine.clock history.state.reads) history.state

/-- What is current stays so under a call that hides nothing. -/
theorem AllCurrent.cons {log : List (LogEntry KvBlockKey Payload)} {earlier later : Nat}
    {s : KvState τ} (current : engine.AllCurrent contents log earlier s) (order : earlier ≤ later)
    {noted : LogEntry KvBlockKey Payload} (shows : ∀ index < engine.count, ∀ key entry,
      s.held contents index key = some entry → isExpired entry.expiresAt.toNat later = true ∨
        ¬ noted.Hides entry.block.key) :
    engine.AllCurrent contents (noted :: log) later s := by
  intro index inside key entry present
  rcases current index inside key entry present with expired | visible
  · exact Or.inl (isExpired_mono order expired)
  · rcases shows index inside key entry present with expired | shown
    · exact Or.inl expired
    · exact Or.inr (visible.cons shown)

section Steps

variable (mapLike : engine.MapTiers contents) (clock : Monotone engine.clock)
  (copies : engine.Copies)

include mapLike clock copies

/-- **A call leaves only entries that have expired or that may still be read.** -/
theorem keeps_current (policy : engine.writePolicy = .primary) (call : KvCall)
    {history : KvHistory τ} (current : engine.HistoryCurrent contents history) :
    engine.HistoryCurrent contents (engine.advance contents call history) := by
  have copying : (∀ block ttl pinned, call ≠ .put block ttl pinned) →
      history.state.reads ≤ (engine.run (engine.program call) history.state).2.reads ∧
        engine.AllCurrent contents history.log (engine.clock history.state.reads)
          (engine.run (engine.program call) history.state).2 := fun only =>
    (run_current mapLike clock (informed_program (preserves_blockView copies) call
      fun block ttl pinned _ same => (only block ttl pinned same).elim) current).1
  have unnoted : (∀ block ttl pinned, call ≠ .put block ttl pinned) →
      (engine.advance contents call history).log = .other :: history.log →
      engine.HistoryCurrent contents (engine.advance contents call history) := by
    intro only other
    unfold HistoryCurrent
    rw [other]
    exact (copying only).2.cons (clock (copying only).1) fun _ _ _ _ _ => Or.inr id
  cases call with
  | get key => exact unnoted (by simp) rfl
  | moveBlock key source destination removeSource => exact unnoted (by simp) rfl
  | setPinned key pinned => exact unnoted (by simp) rfl
  | prefetch keys destination => exact unnoted (by simp) rfl
  | invalidate key =>
      cases outcome : (engine.run (engine.invalidate key) history.state).1 with
      | error error =>
          refine unnoted (by simp) ?_
          show engine.noted contents history.state (.invalidate key)
            (engine.run (engine.invalidate key) history.state).1 :: history.log = _
          rw [outcome]
          rfl
      | ok value =>
          obtain ⟨order, kept⟩ := copying (by simp)
          have gone := invalidate_held mapLike key outcome
          show engine.AllCurrent contents (engine.noted contents history.state (.invalidate key)
            (engine.run (engine.invalidate key) history.state).1 :: history.log) _ _
          rw [outcome]
          refine kept.cons (clock order) fun index inside asked entry present => Or.inr ?_
          have own : entry.block.key = asked := (mapLike index inside).keyed _ _ _ present
          rintro rfl
          rw [← own] at present
          have absent := gone index inside
          rw [show engine.program (.invalidate entry.block.key) =
            engine.invalidate entry.block.key from rfl, absent] at present
          cases present
  | put block ttl pinned =>
      obtain ⟨result, after, run, order, left⟩ :=
        put_primary mapLike policy block ttl pinned history.state
      show engine.AllCurrent contents (engine.noted contents history.state (.put block ttl pinned)
        (engine.run (engine.put block ttl pinned) history.state).1 :: history.log)
        (engine.clock (engine.run (engine.put block ttl pinned) history.state).2.reads)
        (engine.run (engine.put block ttl pinned) history.state).2
      rw [run]
      rcases left with ⟨rfl, held⟩ | ⟨⟨error, rfl⟩, held⟩
      · intro index inside key entry present
        rw [held, heldWith_apply] at present
        split at present
        case isTrue _ =>
          cases present
          exact Or.inr (visible_write _ _ _ _)
        case isFalse elsewhere =>
          have own : entry.block.key = key := (mapLike index inside).keyed _ _ _ present
          rcases current index inside key entry present with expired | visible
          · exact Or.inl (isExpired_mono (clock order) expired)
          · by_cases same : block.key = key
            · cases replaced : engine.primaryOnly contents history.state block.key with
              | true =>
                  have slower : index ≠ 0 := fun first => elsewhere ⟨first, same.symm⟩
                  rw [same] at replaced
                  have expired := primaryOnly_iff.mp replaced index inside slower entry present
                  exact Or.inl (isExpired_mono (clock order) expired)
              | false =>
                  refine Or.inr (visible.cons ?_)
                  rintro ⟨_, replaces⟩
                  exact absurd (replaced.symm.trans replaces) (by decide)
            · refine Or.inr (visible.cons ?_)
              rintro ⟨written, _⟩
              exact same (written.trans own)
      · have kept : engine.AllCurrent contents history.log (engine.clock history.state.reads) after := by
          intro index inside key entry present
          rw [held] at present
          exact current index inside key entry present
        exact kept.cons (clock order) fun _ _ _ _ _ => Or.inr id

/-- **What `get` serves in a state whose entries are current** may still be read. -/
theorem served_current {history : KvHistory τ} (current : engine.HistoryCurrent contents history)
    {key : KvBlockKey} {block : KvBlock}
    (served : (engine.run (engine.get key) history.state).1 = .ok (some block)) :
    block.key = key ∧ Visible key block.bytes history.log := by
  have keeps := preserves_blockView copies
  obtain ⟨known, true_known, conclusion⟩ :=
    (run_current mapLike clock (informed_get keeps key) current).2 _ served
  obtain ⟨now, entry, bytes, time, seen, unexpired, copy, rfl⟩ := conclusion block rfl
  have order : engine.clock history.state.reads ≤ now := true_known _ time
  obtain ⟨own, readable⟩ := true_known _ seen
  have same : bytes = entry.block.bytes := copies.allocator _ _ copy
  refine ⟨own, ?_⟩
  rcases readable with expired | visible
  · have late := isExpired_mono order expired
    exact absurd (unexpired.symm.trans late) (by decide)
  · rw [show (blockView entry).1.key = key from own] at visible
    show Visible key bytes history.log
    rw [same]
    exact visible

end Steps

/-! ### Runs over two memory tiers -/

theorem twoMemoryTiers_clock : Monotone twoMemoryTiers.clock :=
  fun _ _ order => Nat.mul_le_mul_right 10 order

theorem twoMemoryTiers_copies : twoMemoryTiers.Copies where
  transport _ _ _ _ _ copied := (Except.ok.inj copied).symm
  allocator _ _ copied := (Except.ok.inj copied).symm

/-- The history of a list of calls, from empty tiers. -/
def memoryHistory (calls : List KvCall) : KvHistory (Pair MemoryTier MemoryTier) :=
  calls.foldl (fun history call => twoMemoryTiers.advance twoMemoryMaps call history)
    ⟨KvState.pair MemoryTier.empty MemoryTier.empty, []⟩

theorem memoryHistory_reached (calls : List KvCall) :
    Reaches (twoMemoryTiers.advance twoMemoryMaps) (fun _ _ => True)
      ⟨KvState.pair MemoryTier.empty MemoryTier.empty, []⟩ (memoryHistory calls) :=
  .foldl (fun _ _ => trivial) calls _

end KvEngine

end RivetCache
