/-
**`distributed.rs`: the handoff from prefill to decode.**

`publish_prefill` puts the blocks into the sink one after the other; at the first that the sink refuses it
removes the keys of the ones before. `fetch_decode` reads blocks out of the source.

* `publishEach_refused`, `publishEach_accepted`: what the loop leaves in the sink;
* `fetchEach_held`: what is read of keys that are held;
* `publish_prefill_restores_iff`: a handoff that fails leaves the sink as it was exactly where it held nothing
  for the keys of the blocks before the refused one: the rollback erases and does not restore. A handoff that
  succeeds is read back.
-/

import RivetCache.Kv.Tier
import RivetCache.Runtime.Results

set_option linter.unusedSectionVars false

namespace RivetCache

open Library AsyncKv

variable {σ τ : Type}

/-! ### The router -/

/-- `KvHandoffReport`. -/
structure KvHandoffReport where
  requested : Nat
  transferred : Nat
  missed : Nat
  bytes : Nat
  deriving DecidableEq

/-- `DisaggregatedKvRouter`. -/
structure DisaggregatedKvRouter (σ τ : Type) where
  prefillSink : KvTier σ
  decodeSource : KvTier τ

namespace KvHandoffReport

/-- The report at the beginning. -/
def start (requested : Nat) : KvHandoffReport := ⟨requested, 0, 0, 0⟩

/-- The report after one more block. -/
def withBlock (report : KvHandoffReport) (block : KvBlock) : KvHandoffReport :=
  { report with
    transferred := satAdd report.transferred 1
    bytes := satAdd report.bytes block.bytes.bytes.length }

/-- The report after a key that was not found. -/
def withMiss (report : KvHandoffReport) : KvHandoffReport :=
  { report with missed := satAdd report.missed 1 }

/-- A `u64` holds the counters. -/
structure InRange (report : KvHandoffReport) : Prop where
  transferred : report.transferred ≤ u64Max
  bytes : report.bytes ≤ u64Max

/-- The report after several blocks. -/
def withBlocks (report : KvHandoffReport) (blocks : List KvBlock) : KvHandoffReport :=
  { report with
    transferred := min (report.transferred + blocks.length) u64Max
    bytes := min (report.bytes + totalBytes blocks) u64Max }

theorem inRange_withBlock (report : KvHandoffReport) (block : KvBlock) :
    (report.withBlock block).InRange :=
  ⟨satAdd_le_max _ _, satAdd_le_max _ _⟩

theorem InRange.withBlocks_nil {report : KvHandoffReport} (inside : report.InRange) :
    report.withBlocks [] = report := by
  simp [withBlocks, totalBytes, inside.transferred, inside.bytes]

theorem withBlock_withBlocks (report : KvHandoffReport) (block : KvBlock) (rest : List KvBlock) :
    (report.withBlock block).withBlocks rest = report.withBlocks (block :: rest) := by
  unfold withBlocks withBlock
  rw [satAdd_totalBytes]
  simp only [satAdd, List.length_cons, KvHandoffReport.mk.injEq, and_true, true_and]
  omega

end KvHandoffReport

namespace DisaggregatedKvRouter

section

variable (sink : KvTier σ) (source : KvTier τ) (expiresAt : UInt64) (pinned : Bool)

/-- `publish_prefill`, the rollback: an error of it is ignored. -/
def rollBack (keys : List KvBlockKey) (state : σ) : σ :=
  keys.foldl (fun state key => (sink.remove key state).2) state

/-- `publish_prefill`, the error. -/
def handoffFailed (error : IoError) (written : Nat) : IoError :=
  ⟨error.kind, s!"prefill handoff failed after {written} blocks; rolled back published blocks: " ++
    error.message⟩

/-- `publish_prefill`, the loop; `written` are the keys of the blocks before. -/
def publishEach : List KvBlock → List KvBlockKey → KvHandoffReport → σ →
    Except IoError KvHandoffReport × σ
  | [], _, report, state => (.ok report, state)
  | block :: rest, written, report, state =>
      let (answer, state) := sink.put ⟨block, expiresAt, pinned⟩ state
      match answer with
      | .error error =>
          (.error (handoffFailed error written.length), rollBack sink written.reverse state)
      | .ok () => publishEach rest (written ++ [block.key]) (report.withBlock block) state

/-- `fetch_decode`, the loop. -/
def fetchEach : List KvBlockKey → List KvBlock → KvHandoffReport → τ →
    Except IoError (List KvBlock × KvHandoffReport) × τ
  | [], blocks, report, state => (.ok (blocks, report), state)
  | key :: rest, blocks, report, state =>
      let (answer, state) := source.get key state
      match answer with
      | .error error => (.error error, state)
      | .ok (some entry) =>
          fetchEach rest (blocks ++ [entry.block]) (report.withBlock entry.block) state
      | .ok none => fetchEach rest blocks report.withMiss state

end

/-- `publish_prefill`. -/
def publishPrefill (router : DisaggregatedKvRouter σ τ) (blocks : List KvBlock) (expiresAt : UInt64)
    (pinned : Bool) (state : σ) : Except IoError KvHandoffReport × σ :=
  publishEach router.prefillSink expiresAt pinned blocks [] (.start blocks.length) state

/-- `fetch_decode`. -/
def fetchDecode (router : DisaggregatedKvRouter σ τ) (keys : List KvBlockKey) (state : τ) :
    Except IoError (List KvBlock × KvHandoffReport) × τ :=
  fetchEach router.decodeSource keys [] (.start keys.length) state

/-! ### The maps -/

/-- A map without these keys. -/
def without (held : KvBlockKey → Option KvTierEntry) (keys : List KvBlockKey) :
    KvBlockKey → Option KvTierEntry :=
  fun key => if key ∈ keys then none else held key

/-- A map with these blocks. -/
def withBlocks (held : KvBlockKey → Option KvTierEntry) (expiresAt : UInt64) (pinned : Bool)
    (blocks : List KvBlock) : KvBlockKey → Option KvTierEntry :=
  blocks.foldl (fun held block => Function.update held block.key (some ⟨block, expiresAt, pinned⟩)) held

/-- The blocks that a sink accepts before the one it refuses, if it refuses one. -/
def acceptedBefore (sink : KvTier σ) (expiresAt : UInt64) (pinned : Bool) :
    List KvBlock → σ → Option (List KvBlock)
  | [], _ => none
  | block :: rest, state =>
      let (answer, state) := sink.put ⟨block, expiresAt, pinned⟩ state
      match answer with
      | .error _ => some []
      | .ok () => (acceptedBefore sink expiresAt pinned rest state).map (block :: ·)

/-- Reading never fails. -/
def GetsSucceed (tier : KvTier σ) : Prop := ∀ state key, ∃ answer, (tier.get key state).1 = .ok answer

/-- The blocks of a call are a slice in memory: a `usize` counts them and their bytes. -/
structure InSlice (blocks : List KvBlock) : Prop where
  length : blocks.length < 2 ^ 64
  bytes : InMemory blocks

/-- What was put is taken away again. -/
theorem without_update (held : KvBlockKey → Option KvTierEntry) {key : KvBlockKey}
    (entry : Option KvTierEntry) {keys : List KvBlockKey} (inside : key ∈ keys) :
    without (Function.update held key entry) keys = without held keys := by
  funext other
  unfold without
  split
  case isTrue => rfl
  case isFalse outside =>
    refine Function.update_of_ne ?_ _ _
    rintro rfl
    exact outside inside

/-- Nothing is taken away exactly where nothing was held. -/
theorem without_eq_iff {held : KvBlockKey → Option KvTierEntry} {keys : List KvBlockKey} :
    without held keys = held ↔ ∀ key ∈ keys, held key = none := by
  constructor
  · intro same key inside
    rw [← same]
    exact if_pos inside
  · intro absent
    funext key
    unfold without
    split
    case isTrue inside => exact (absent key inside).symm
    case isFalse => rfl

theorem withBlocks_cons (held : KvBlockKey → Option KvTierEntry) (expiresAt : UInt64) (pinned : Bool)
    (block : KvBlock) (rest : List KvBlock) :
    withBlocks held expiresAt pinned (block :: rest) =
      withBlocks (Function.update held block.key (some ⟨block, expiresAt, pinned⟩)) expiresAt pinned
        rest := rfl

theorem withBlocks_of_notMem {expiresAt : UInt64} {pinned : Bool} {blocks : List KvBlock}
    {key : KvBlockKey} (outside : key ∉ blocks.map KvBlock.key)
    (held : KvBlockKey → Option KvTierEntry) : withBlocks held expiresAt pinned blocks key = held key := by
  induction blocks generalizing held with
  | nil => rfl
  | cons block rest ih =>
      rw [List.map_cons, List.mem_cons, not_or] at outside
      rw [withBlocks_cons, ih outside.2, Function.update_of_ne outside.1]

/-- **Blocks of distinct keys** are all held. -/
theorem withBlocks_of_mem {expiresAt : UInt64} {pinned : Bool} {blocks : List KvBlock}
    (distinct : (blocks.map KvBlock.key).Nodup) (held : KvBlockKey → Option KvTierEntry)
    {block : KvBlock} (inside : block ∈ blocks) :
    withBlocks held expiresAt pinned blocks block.key = some ⟨block, expiresAt, pinned⟩ := by
  induction blocks generalizing held with
  | nil => cases inside
  | cons first rest ih =>
      rw [List.map_cons, List.nodup_cons] at distinct
      rw [withBlocks_cons]
      rcases List.mem_cons.mp inside with rfl | later
      · rw [withBlocks_of_notMem distinct.1, Function.update_self]
      · exact ih distinct.2 _ later

/-! ### The loops -/

section

variable {sink : KvTier σ} {contents : σ → KvBlockKey → Option KvTierEntry} {expiresAt : UInt64}
  {pinned : Bool}

/-- **The rollback** removes the keys. -/
theorem contents_rollBack (mapLike : MapTier sink contents) (removes : sink.RemovesSucceed)
    (keys : List KvBlockKey) (state : σ) :
    contents (rollBack sink keys state) = without (contents state) keys := by
  induction keys generalizing state with
  | nil => rfl
  | cons key rest ih =>
      refine (ih _).trans ?_
      rw [mapLike.remove _ key (removes _ key)]
      funext other
      unfold without
      by_cases same : other = key
      · simp [same]
      · simp [same]

/-- **A handoff that is refused**: the keys of the blocks before are gone. -/
theorem publishEach_refused (mapLike : MapTier sink contents) (removes : sink.RemovesSucceed)
    (blocks : List KvBlock) {accepted : List KvBlock} {written : List KvBlockKey}
    {report : KvHandoffReport} {state : σ}
    (refused : acceptedBefore sink expiresAt pinned blocks state = some accepted) :
    (∃ error, (publishEach sink expiresAt pinned blocks written report state).1 = .error error) ∧
      contents (publishEach sink expiresAt pinned blocks written report state).2 =
        without (contents state) (written ++ accepted.map KvBlock.key) := by
  induction blocks generalizing accepted written report state with
  | nil => cases refused
  | cons block rest ih =>
      unfold acceptedBefore at refused
      unfold publishEach
      cases answered : (sink.put ⟨block, expiresAt, pinned⟩ state).1 with
      | error error =>
          simp only [answered] at refused ⊢
          cases refused
          refine ⟨⟨_, rfl⟩, ?_⟩
          rw [contents_rollBack mapLike removes, mapLike.putFailed _ _ error answered]
          funext key
          simp [without]
      | ok =>
          simp only [answered] at refused ⊢
          obtain ⟨later, further, rfl⟩ := Option.map_eq_some_iff.mp refused
          obtain ⟨failed, left⟩ := @ih later (written ++ [block.key]) (report.withBlock block) _ further
          refine ⟨failed, left.trans ?_⟩
          rw [mapLike.put _ _ answered, without_update _ _ (by simp)]
          simp

/-- **A handoff that goes through**: the sink holds the blocks, and the report counts them. -/
theorem publishEach_accepted (mapLike : MapTier sink contents) (blocks : List KvBlock)
    {written : List KvBlockKey} {report : KvHandoffReport} (inside : report.InRange) {state : σ}
    (accepted : acceptedBefore sink expiresAt pinned blocks state = none) :
    (publishEach sink expiresAt pinned blocks written report state).1 =
        .ok (report.withBlocks blocks) ∧
      contents (publishEach sink expiresAt pinned blocks written report state).2 =
        withBlocks (contents state) expiresAt pinned blocks := by
  induction blocks generalizing written report state with
  | nil => exact ⟨congrArg Except.ok (inside.withBlocks_nil).symm, rfl⟩
  | cons block rest ih =>
      unfold acceptedBefore at accepted
      unfold publishEach
      cases answered : (sink.put ⟨block, expiresAt, pinned⟩ state).1 with
      | error error =>
          simp only [answered] at accepted
          cases accepted
      | ok =>
          simp only [answered, Option.map_eq_none_iff] at accepted ⊢
          obtain ⟨counted, left⟩ := @ih (written ++ [block.key]) _ (report.inRange_withBlock block) _ accepted
          refine ⟨counted.trans (congrArg Except.ok (report.withBlock_withBlocks block rest)), ?_⟩
          rw [left, mapLike.put _ _ answered, withBlocks_cons]

/-- **What is read of blocks that are held.** -/
theorem fetchEach_held {source : KvTier σ} (mapLike : MapTier source contents)
    (answers : GetsSucceed source) (blocks : List KvBlock) {fetched : List KvBlock}
    {report : KvHandoffReport} (inside : report.InRange) {state : σ}
    (held : ∀ block ∈ blocks, contents state block.key = some ⟨block, expiresAt, pinned⟩) :
    (fetchEach source (blocks.map KvBlock.key) fetched report state).1 =
      .ok (fetched ++ blocks, report.withBlocks blocks) := by
  induction blocks generalizing fetched report state with
  | nil =>
      show Except.ok (fetched, report) = _
      rw [List.append_nil, inside.withBlocks_nil]
  | cons block rest ih =>
      obtain ⟨answer, answered⟩ := answers state block.key
      have found := mapLike.got _ _ _ answered
      rw [held block List.mem_cons_self] at found
      rw [List.map_cons]
      unfold fetchEach
      simp only [answered, found]
      rw [ih (report.inRange_withBlock block) fun other later => ?_]
      · rw [report.withBlock_withBlocks, List.append_assoc]
        rfl
      · rw [mapLike.get]
        exact held other (List.mem_cons_of_mem _ later)

end

end DisaggregatedKvRouter

open DisaggregatedKvRouter in
/-- **A handoff**, through one map-like tier whose reads and removes succeed. One that fails leaves the tier as it
was exactly where the tier held nothing for the keys of the blocks that it accepted before. One that succeeds
counts every block and its bytes, and the blocks, where their keys are distinct, are read back in order. -/
theorem publish_prefill_restores_iff {tier : KvTier σ}
    {contents : σ → KvBlockKey → Option KvTierEntry} (mapLike : MapTier tier contents)
    (removes : tier.RemovesSucceed) (answers : GetsSucceed tier) {blocks : List KvBlock}
    (inSlice : InSlice blocks) (expiresAt : UInt64) (pinned : Bool) (state : σ) :
    let router : DisaggregatedKvRouter σ σ := ⟨tier, tier⟩
    let sent := router.publishPrefill blocks expiresAt pinned state
    (((∃ error, sent.1 = .error error) → contents sent.2 = contents state) ↔
      ∀ accepted, acceptedBefore tier expiresAt pinned blocks state = some accepted →
        ∀ block ∈ accepted, contents state block.key = none) ∧
    ∀ report, sent.1 = .ok report →
      report = ⟨blocks.length, blocks.length, 0, totalBytes blocks⟩ ∧
      ((blocks.map KvBlock.key).Nodup →
        (router.fetchDecode (blocks.map KvBlock.key) sent.2).1 = .ok (blocks, report)) := by
  intro router sent
  have counted : (KvHandoffReport.start blocks.length).withBlocks blocks =
      ⟨blocks.length, blocks.length, 0, totalBytes blocks⟩ := by
    have length : blocks.length ≤ u64Max := Nat.le_pred_of_lt inSlice.length
    have bytes : totalBytes blocks ≤ u64Max := Nat.le_pred_of_lt inSlice.bytes
    simp [KvHandoffReport.withBlocks, KvHandoffReport.start, length, bytes]
  have started : (KvHandoffReport.start blocks.length).InRange := ⟨Nat.zero_le _, Nat.zero_le _⟩
  cases outcome : acceptedBefore tier expiresAt pinned blocks state with
  | some accepted =>
      obtain ⟨⟨error, failed⟩, left⟩ : (∃ error, sent.1 = .error error) ∧
          contents sent.2 = without (contents state) ([] ++ accepted.map KvBlock.key) :=
        publishEach_refused mapLike removes blocks outcome
      refine ⟨?_, fun report succeeded => ?_⟩
      · constructor
        · intro restores accepted' same block inside
          cases same
          have kept := without_eq_iff.mp (left.symm.trans (restores ⟨error, failed⟩))
          exact kept block.key (List.mem_map_of_mem inside)
        · rintro absent -
          refine left.trans (without_eq_iff.mpr fun key inside => ?_)
          obtain ⟨block, among, rfl⟩ := List.mem_map.mp inside
          exact absent accepted rfl block among
      · cases failed.symm.trans succeeded
  | none =>
      obtain ⟨succeeded, left⟩ : sent.1 = .ok ((KvHandoffReport.start blocks.length).withBlocks blocks) ∧
          contents sent.2 = withBlocks (contents state) expiresAt pinned blocks :=
        publishEach_accepted mapLike blocks started outcome
      rw [counted] at succeeded
      refine ⟨⟨fun _ accepted same => (by cases same), ?_⟩, fun report counts => ?_⟩
      · rintro - ⟨error, failed⟩
        cases succeeded.symm.trans failed
      · cases succeeded.symm.trans counts
        refine ⟨rfl, fun distinct => ?_⟩
        show (fetchEach tier _ [] (.start (blocks.map KvBlock.key).length) sent.2).1 = _
        rw [List.length_map, fetchEach_held mapLike answers blocks started fun block inside =>
          (congrFun left block.key).trans (withBlocks_of_mem distinct _ inside), counted]
        rfl

/-! ### A block that was there before -/

/-- A memory tier that refuses some entries. -/
def refusingTier (refuses : KvTierEntry → Bool) : KvTier MemoryTier :=
  { memoryTier "handoff" with
    put := fun entry state =>
      if refuses entry then (.error ⟨.other, "injected tier write failure"⟩, state)
      else (.ok (), state.insert entry) }

theorem refusingTier_mapTier (refuses : KvTierEntry → Bool) :
    MapTier (refusingTier refuses) MemoryTier.contents :=
  { memoryTier_mapTier "handoff" with
    put := by
      intro state entry accepted
      unfold refusingTier at accepted ⊢
      dsimp only at accepted ⊢
      split at accepted
      case isTrue => cases accepted
      case isFalse kept =>
        rw [if_neg kept]
        exact (memoryTier_mapTier "handoff").put state entry rfl
    putFailed := by
      intro state entry error refused
      unfold refusingTier at refused ⊢
      dsimp only at refused ⊢
      split at refused
      case isTrue rejects => rw [if_pos rejects]
      case isFalse => cases refused }

/-- A block of another key. -/
def handedSecond : KvBlock := ⟨{ KvBlockKey.sample with blockIndex := 1 }, ⟨[2], by decide⟩⟩

/-- A sink that refuses the second block. -/
def secondRefused : KvTier MemoryTier := refusingTier fun entry => decide (entry.block = handedSecond)

/-- It holds a block under the key of the first one. -/
def olderBlock : MemoryTier := MemoryTier.empty.insert ⟨KvBlock.sample 9, 0, false⟩

/-- **A handoff that fails erases** what the sink held before it. -/
theorem publish_prefill_erases_older :
    let router : DisaggregatedKvRouter MemoryTier MemoryTier := ⟨secondRefused, secondRefused⟩
    let sent := router.publishPrefill [KvBlock.sample 1, handedSecond] 0 false olderBlock
    sent.1 = .error ⟨.other,
      "prefill handoff failed after 1 blocks; rolled back published blocks: injected tier write failure"⟩ ∧
    olderBlock.contents KvBlockKey.sample = some ⟨KvBlock.sample 9, 0, false⟩ ∧
    sent.2.contents KvBlockKey.sample = none :=
  ⟨by decide, by decide, by decide⟩

/-- **The same handoff to an empty sink**, which is left empty, and the first block alone, which is read
back. -/
theorem publish_prefill_restores_empty :
    let router : DisaggregatedKvRouter MemoryTier MemoryTier := ⟨secondRefused, secondRefused⟩
    (router.publishPrefill [KvBlock.sample 1, handedSecond] 0 false MemoryTier.empty).2.contents =
      MemoryTier.empty.contents ∧
    (router.fetchDecode [KvBlockKey.sample]
      (router.publishPrefill [KvBlock.sample 1] 0 false MemoryTier.empty).2).1 =
        .ok ([KvBlock.sample 1], ⟨1, 1, 0, 1⟩) := by
  have answers : DisaggregatedKvRouter.GetsSucceed secondRefused := fun state key => ⟨_, rfl⟩
  have removes : secondRefused.RemovesSucceed := fun _ _ => rfl
  have two : DisaggregatedKvRouter.InSlice [KvBlock.sample 1, handedSecond] :=
    ⟨by decide, show totalBytes _ < _ by decide⟩
  have one : DisaggregatedKvRouter.InSlice [KvBlock.sample 1] :=
    ⟨by decide, show totalBytes _ < _ by decide⟩
  constructor
  · refine (publish_prefill_restores_iff (refusingTier_mapTier _) removes answers two 0 false
      MemoryTier.empty).1.mpr ?_ ⟨_, rfl⟩
    intro accepted same block inside
    rfl
  · exact ((publish_prefill_restores_iff (refusingTier_mapTier _) removes answers one 0 false
      MemoryTier.empty).2 ⟨1, 1, 0, 1⟩ rfl).2 (by decide)

end RivetCache
