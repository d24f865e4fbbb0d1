/-
**What the result of a job says.**

`execute` counts as it goes: each payload has a loop of its own, with counters of its own. The loops are
`Program.forEach`, so a job that succeeds has run one engine operation for each item, in order, and its
counters are folds of their answers.

* `storeEach_eq` and its siblings: the loops of `execute` and of `prefetch_worker` as `forEach`;
* `AddsUp`: what the result says of the calls that were made, for each payload;
* `execute_adds_up`: the result of every job that succeeds adds up;
* `did_adds_up`: so do the records of the pipeline.
-/

import RivetCache.Kv.Tier
import RivetCache.Library.ForEach
import RivetCache.Runtime.Ledger
import Mathlib.Data.Bool.Count
import Mathlib.Data.List.ReduceOption

set_option linter.unusedSectionVars false

namespace RivetCache

open Library Program

variable {τ : Nat → Type} {engine : KvEngine τ} {calls : List EngineCall}

/-! ### The loops -/

/-- `prefetch_worker`, the counts after one more key. -/
def KvEngine.countPrefetched (counts : Nat × Nat) (populated : Bool) : Nat × Nat :=
  if populated then (satAdd counts.1 1, counts.2) else (counts.1, satAdd counts.2 1)

theorem KvEngine.prefetchEach_eq (destination : Nat) (keys : List KvBlockKey) (populated missed : Nat) :
    engine.prefetchEach destination keys populated missed =
      forEach (fun key => engine.prefetchKey key destination)
        (fun counts _ copied => countPrefetched counts copied) keys (populated, missed) := by
  have turns (key : KvBlockKey) (rest : List KvBlockKey) (counts : Nat × Nat) :
      engine.prefetchEach destination (key :: rest) counts.1 counts.2 =
        engine.prefetchKey key destination >>= fun copied =>
          engine.prefetchEach destination rest (countPrefetched counts copied).1
            (countPrefetched counts copied).2 := by
    rw [prefetchEach]
    congr 1
    funext copied
    cases copied <;> rfl
  exact eq_forEach (fun keys counts => engine.prefetchEach destination keys counts.1 counts.2)
    (fun _ => rfl) turns keys (populated, missed)

namespace AsyncKv

variable {out result : AsyncKvResult}

/-- `execute`, a retrieval after one more key. -/
def withAnswer (out : AsyncKvResult) : Option KvBlock → AsyncKvResult
  | some block => { withBlock out block with blocks := out.blocks ++ [block] }
  | none => withItem out false

theorem storeEach_eq (ttl : Option Duration) (pinned : Bool) (blocks : List KvBlock) :
    storeEach engine ttl pinned blocks out =
      forEach (fun block => engine.put block ttl pinned) (fun out block _ => withBlock out block)
        blocks out :=
  eq_forEach (storeEach engine ttl pinned) (fun _ => rfl) (fun _ _ _ => rfl) blocks out

theorem retrieveEach_eq (keys : List KvBlockKey) :
    retrieveEach engine keys out =
      forEach engine.get (fun out _ answer => withAnswer out answer) keys out := by
  refine eq_forEach (retrieveEach engine) (fun _ => rfl) (fun key rest out => ?_) keys out
  rw [retrieveEach]
  congr 1
  funext answer
  cases answer <;> rfl

theorem moveEach_eq (requests : List MoveRequest) :
    moveEach engine requests out =
      forEach (fun request => engine.moveBlock request.key request.source request.destination
        request.removeSource) (fun out _ moved => withItem out moved) requests out :=
  eq_forEach (moveEach engine) (fun _ => rfl) (fun _ _ _ => rfl) requests out

theorem invalidateEach_eq (keys : List KvBlockKey) :
    invalidateEach engine keys out =
      forEach engine.invalidate (fun out _ _ => withItem out true) keys out :=
  eq_forEach (invalidateEach engine) (fun _ => rfl) (fun _ _ _ => rfl) keys out

theorem pinAll_eq (pinned : Bool) (keys : List KvBlockKey) :
    pinAll engine pinned keys out =
      forEach (fun key => engine.setPinned key pinned) (fun out _ changed => withItem out changed)
        keys out :=
  eq_forEach (pinAll engine pinned) (fun _ => rfl) (fun _ _ _ => rfl) keys out

/-! ### The counters -/

/-- The bytes of these blocks, all together. -/
def totalBytes (blocks : List KvBlock) : Nat := (blocks.map fun block => block.bytes.bytes.length).sum

theorem foldl_withItem (answers : List Bool) (out : AsyncKvResult) :
    answers.foldl withItem out =
      { out with
        completed := out.completed + answers.count true
        missed := out.missed + answers.count false } := by
  induction answers generalizing out with
  | nil => rfl
  | cons answer rest ih =>
      rw [List.foldl_cons, ih]
      cases answer with
      | true =>
          simp [withItem]
          omega
      | false =>
          simp [withItem]
          omega

/-- The byte counter saturates. -/
theorem satAdd_totalBytes (bytes : Nat) (block : KvBlock) (rest : List KvBlock) :
    min (satAdd bytes block.bytes.bytes.length + totalBytes rest) u64Max =
      min (bytes + totalBytes (block :: rest)) u64Max := by
  simp only [totalBytes, satAdd, List.map_cons, List.sum_cons]
  omega

theorem foldl_withBlock (blocks : List KvBlock) {out : AsyncKvResult} (below : out.bytes ≤ u64Max) :
    blocks.foldl withBlock out =
      { out with
        bytes := min (out.bytes + totalBytes blocks) u64Max
        completed := out.completed + blocks.length } := by
  induction blocks generalizing out with
  | nil => simp [totalBytes, below]
  | cons block rest ih =>
      rw [List.foldl_cons, ih (satAdd_le_max _ _)]
      simp only [withBlock, satAdd_totalBytes, List.length_cons, Nat.add_assoc, Nat.add_comm 1]

/-- **A retrieval** keeps the blocks it found, in order, and counts them. -/
theorem foldl_withAnswer (answers : List (Option KvBlock)) {out : AsyncKvResult}
    (below : out.bytes ≤ u64Max) :
    answers.foldl withAnswer out =
      { out with
        bytes := min (out.bytes + totalBytes (answers.reduceOption)) u64Max
        completed := out.completed + (answers.reduceOption).length
        missed := out.missed + answers.countP Option.isNone
        blocks := out.blocks ++ answers.reduceOption } := by
  induction answers generalizing out with
  | nil => simp [totalBytes, List.reduceOption_nil, below]
  | cons answer rest ih =>
      rw [List.foldl_cons]
      cases answer with
      | none =>
          rw [@ih (withAnswer out none) below, List.reduceOption_cons_of_none]
          simp [withAnswer, withItem]
          omega
      | some block =>
          rw [@ih (withAnswer out (some block)) (satAdd_le_max _ _), List.reduceOption_cons_of_some]
          simp [withAnswer, withBlock, satAdd_totalBytes]
          omega

/-- Every key is found or missed. -/
theorem found_add_missed (answers : List (Option KvBlock)) :
    answers.reduceOption.length + answers.countP Option.isNone = answers.length := by
  rw [List.countP_eq_length_filter]
  exact (List.length_eq_reduceOption_length_add_filter_none (l := answers)).symm

/-! ### What the loops did -/

/-- **A store that succeeds** has put every block. -/
theorem storeEach_makes {ttl : Option Duration} {pinned : Bool} {blocks : List KvBlock}
    (below : out.bytes ≤ u64Max)
    (made : (storeEach engine ttl pinned blocks out).Makes calls (.ok result)) :
    ∃ answers, EachMakes (fun block => engine.put block ttl pinned) blocks calls answers ∧
      result = { out with
        bytes := min (out.bytes + totalBytes blocks) u64Max
        completed := out.completed + blocks.length } := by
  rw [storeEach_eq] at made
  obtain ⟨answers, each, rfl⟩ := forEach_makes made
  exact ⟨answers, each, (each.foldl_items withBlock out).trans (foldl_withBlock blocks below)⟩

/-- **A retrieval that succeeds** has asked for every key. -/
theorem retrieveEach_makes {keys : List KvBlockKey} (below : out.bytes ≤ u64Max)
    (made : (retrieveEach engine keys out).Makes calls (.ok result)) :
    ∃ answers, EachMakes engine.get keys calls answers ∧
      result = { out with
        bytes := min (out.bytes + totalBytes answers.reduceOption) u64Max
        completed := out.completed + answers.reduceOption.length
        missed := out.missed + answers.countP Option.isNone
        blocks := out.blocks ++ answers.reduceOption } := by
  rw [retrieveEach_eq] at made
  obtain ⟨answers, each, rfl⟩ := forEach_makes made
  exact ⟨answers, each, (each.foldl_answers withAnswer out).trans (foldl_withAnswer answers below)⟩

/-- A loop that tries every item. -/
theorem tryEach_makes {ι : Type} {program : ι → KvProgram Bool} {items : List ι}
    (made : (forEach program (fun out _ done => withItem out done) items out).Makes calls (.ok result)) :
    ∃ answers, EachMakes program items calls answers ∧
      result = { out with
        completed := out.completed + answers.count true
        missed := out.missed + answers.count false } := by
  obtain ⟨answers, each, rfl⟩ := forEach_makes made
  exact ⟨answers, each, (each.foldl_answers withItem out).trans (foldl_withItem answers out)⟩

/-- **A move that succeeds** has tried every request. -/
theorem moveEach_makes {requests : List MoveRequest}
    (made : (moveEach engine requests out).Makes calls (.ok result)) :
    ∃ answers, EachMakes (fun request => engine.moveBlock request.key request.source
        request.destination request.removeSource) requests calls answers ∧
      result = { out with
        completed := out.completed + answers.count true
        missed := out.missed + answers.count false } := by
  rw [moveEach_eq] at made
  exact tryEach_makes made

/-- **An invalidation that succeeds** has invalidated every key. -/
theorem invalidateEach_makes {keys : List KvBlockKey}
    (made : (invalidateEach engine keys out).Makes calls (.ok result)) :
    ∃ answers, EachMakes engine.invalidate keys calls answers ∧
      result = { out with completed := out.completed + keys.length } := by
  rw [invalidateEach_eq] at made
  obtain ⟨answers, each, rfl⟩ := forEach_makes made
  refine ⟨answers, each, ?_⟩
  calc (keys.zip answers).foldl (fun out _ => withItem out true) out
      = keys.foldl (fun out _ => withItem out true) out :=
        each.foldl_items (fun out _ => withItem out true) out
    _ = (keys.map fun _ => true).foldl withItem out := List.foldl_map.symm
    _ = { out with completed := out.completed + keys.length } := by
        rw [foldl_withItem, List.map_const', List.count_replicate_self]
        simp [List.count_replicate]

/-- **A pin that succeeds** has tried every key. -/
theorem pinAll_makes {pinned : Bool} {keys : List KvBlockKey}
    (made : (pinAll engine pinned keys out).Makes calls (.ok result)) :
    ∃ answers, EachMakes (fun key => engine.setPinned key pinned) keys calls answers ∧
      result = { out with
        completed := out.completed + answers.count true
        missed := out.missed + answers.count false } := by
  rw [pinAll_eq] at made
  exact tryEach_makes made

end AsyncKv

namespace KvEngine

theorem foldl_countPrefetched (answers : List Bool) (populated missed : Nat)
    (room : populated + missed + answers.length ≤ u64Max) :
    answers.foldl countPrefetched (populated, missed) =
      (populated + answers.count true, missed + answers.count false) := by
  induction answers generalizing populated missed with
  | nil => rfl
  | cons answer rest ih =>
      rw [List.length_cons] at room
      cases answer with
      | true =>
          have exact_sum : satAdd populated 1 = populated + 1 := satAdd_of_le (by omega)
          rw [List.foldl_cons, countPrefetched, if_pos rfl, exact_sum, ih _ _ (by omega)]
          simp
          omega
      | false =>
          have exact_sum : satAdd missed 1 = missed + 1 := satAdd_of_le (by omega)
          rw [List.foldl_cons, countPrefetched, if_neg Bool.false_ne_true, exact_sum, ih _ _ (by omega)]
          simp
          omega

/-- **A prefetch that succeeds** has had a turn for every key, and reports how they went. -/
theorem prefetchWorker_makes {keys : List KvBlockKey} {destination : Nat} {report : PrefetchReport}
    (fits : keys.length < 2 ^ 64)
    (made : (engine.prefetchWorker keys destination).Makes calls (.ok report)) :
    ∃ answers turns last, calls = turns ++ last ∧
      EachMakes (fun key => engine.prefetchKey key destination) keys turns answers ∧
        report = ⟨keys.length, answers.count true, answers.count false⟩ := by
  unfold prefetchWorker at made
  obtain ⟨_, checking, later, rfl, ⟨rfl, _⟩, rest⟩ := makes_bind_ok made
  obtain ⟨counts, turns, last, rfl, each, ended⟩ := makes_bind_ok rest
  obtain ⟨_, _, _, rfl, _, rfl, same⟩ := makes_bind_ok ended
  cases same
  rw [prefetchEach_eq] at each
  obtain ⟨answers, turned, rfl⟩ := forEach_makes each
  have room : 0 + 0 + answers.length ≤ u64Max := by
    rw [turned.length]
    unfold u64Max
    omega
  have folded := (turned.foldl_answers countPrefetched (0, 0)).trans
    (foldl_countPrefetched answers 0 0 room)
  refine ⟨answers, turns, _, rfl, turned, ?_⟩
  rw [folded, Nat.zero_add, Nat.zero_add]

/-- `health`, one tier. -/
def askHealth (index : Nat) : KvProgram (Except IoError Unit) := ask (KvOp.health index)

/-- **A report of the health** asks every tier. -/
theorem health_makes {indices : List Nat} {tiers : List KvTierHealth}
    (made : (engine.health indices).Makes calls (.ok tiers)) :
    ∃ answers, EachMakes askHealth indices calls answers ∧
      tiers.map KvTierHealth.healthy = answers.map Except.isOk := by
  induction indices generalizing calls tiers with
  | nil =>
      obtain ⟨rfl, same⟩ := made
      cases same
      exact ⟨[], .nil, rfl⟩
  | cons index rest ih =>
      unfold health at made
      obtain ⟨answer, own, later, rfl, asked, onward⟩ := makes_bind_ok made
      obtain ⟨others, mine, last, rfl, went, ended⟩ := makes_bind_ok onward
      obtain ⟨answers, each, agree⟩ := ih went
      cases answer with
      | ok done =>
          obtain ⟨rfl, same⟩ := ended
          cases same
          rw [List.append_nil]
          exact ⟨.ok done :: answers, .cons asked each, congrArg (true :: ·) agree⟩
      | error error =>
          obtain ⟨rfl, same⟩ := ended
          cases same
          rw [List.append_nil]
          exact ⟨.error error :: answers, .cons asked each, congrArg (false :: ·) agree⟩

theorem all_healthy_eq {answers : List (Except IoError Unit)} {tiers : List KvTierHealth}
    (agree : tiers.map KvTierHealth.healthy = answers.map Except.isOk) :
    (tiers.all fun tier => tier.healthy) = answers.all Except.isOk :=
  calc (tiers.all fun tier => tier.healthy)
      = (tiers.map KvTierHealth.healthy).all id := by simp [List.all_map]
    _ = (answers.map Except.isOk).all id := by rw [agree]
    _ = answers.all Except.isOk := by simp [List.all_map]

end KvEngine

/-! ### What the result says -/

/-- How many items the job has. -/
def AsyncKvPayload.items : AsyncKvPayload → Nat
  | .store blocks _ _ => blocks.length
  | .retrieve keys => keys.length
  | .move requests => requests.length
  | .prefetch keys _ => keys.length
  | .invalidate keys => keys.length
  | .pin keys _ => keys.length
  | .clear => 1
  | .health => 1

namespace AsyncKv

/-- These blocks are in memory at once: each is a `Vec<u8>` with a buffer of its own. -/
def InMemory (blocks : List KvBlock) : Prop := totalBytes blocks < 2 ^ 64

/-- **What the result says of the calls**, for each payload. -/
def Tells (engine : KvEngine τ) (calls : List EngineCall) (result : AsyncKvResult) :
    AsyncKvPayload → Prop
  | .store blocks ttl pinned =>
      ∃ answers, EachMakes (fun block => engine.put block ttl pinned) blocks calls answers ∧
        result.completed = blocks.length
  | .retrieve keys =>
      ∃ answers, EachMakes engine.get keys calls answers ∧
        result.blocks = answers.reduceOption ∧
        result.completed = result.blocks.length ∧
        result.bytes = min (totalBytes result.blocks) u64Max ∧
        (InMemory result.blocks → result.bytes = totalBytes result.blocks) ∧
        (result.found = false ↔ result.completed = 0)
  | .move requests =>
      ∃ answers, EachMakes (fun request => engine.moveBlock request.key request.source
          request.destination request.removeSource) requests calls answers ∧
        result.completed = answers.count true ∧
        (result.found = false ↔ result.completed = 0)
  | .prefetch keys destination =>
      ∃ answers turns last, calls = turns ++ last ∧
        EachMakes (fun key => engine.prefetchKey key destination) keys turns answers ∧
        result.completed = answers.count true ∧
        (result.found = false ↔ result.completed = 0)
  | .invalidate keys =>
      ∃ answers, EachMakes engine.invalidate keys calls answers ∧ result.completed = keys.length
  | .pin keys pinned =>
      ∃ answers, EachMakes (fun key => engine.setPinned key pinned) keys calls answers ∧
        result.completed = answers.count true ∧
        (result.found = false ↔ result.completed = 0)
  | .clear => engine.clear.Makes calls (.ok ()) ∧ result.completed = 1
  | .health =>
      ∃ answers, EachMakes KvEngine.askHealth (List.range engine.count) calls answers ∧
        (result.found = false ↔ ∃ answer ∈ answers, answer.isOk = false) ∧
        (result.found = false ↔ ∃ tier ∈ result.health, tier.healthy = false)

/-- **The result adds up.** -/
structure AddsUp (engine : KvEngine τ) (payload : AsyncKvPayload) (calls : List EngineCall)
    (result : AsyncKvResult) : Prop where
  requested : result.requested = payload.items
  total : result.requested = result.completed + result.missed
  tells : Tells engine calls result payload

/-- What `found` says after a loop. -/
theorem decide_pos_iff (completed : Nat) : decide (0 < completed) = false ↔ completed = 0 := by
  rw [decide_eq_false_iff_not, Nat.not_lt, Nat.le_zero]

/-- Every item is done or missed. -/
theorem done_add_missed {ι : Type} {program : ι → KvProgram Bool} {items : List ι} {answers : List Bool}
    (each : EachMakes program items calls answers) :
    items.length = answers.count true + answers.count false := by
  rw [answers.count_true_add_count_false, each.length]

theorem retrieve_adds_up {job : AsyncKvJob} {keys : List KvBlockKey}
    (made : (perform engine (blank job) (.retrieve keys)).Makes calls (.ok result)) :
    AddsUp engine (.retrieve keys) calls result := by
  obtain ⟨_, own, later, rfl, went, rfl, same⟩ := makes_bind_ok made
  obtain ⟨answers, each, rfl⟩ := retrieveEach_makes (Nat.zero_le _) went
  cases same
  have counted := found_add_missed answers
  have sum : 0 + totalBytes answers.reduceOption = totalBytes answers.reduceOption := Nat.zero_add _
  rw [each.length] at counted
  rw [List.append_nil]
  refine ⟨rfl, ?_, answers, each, rfl, Nat.zero_add _, congrArg (min · u64Max) sum, fun memory => ?_,
    decide_pos_iff _⟩
  · show keys.length = 0 + answers.reduceOption.length + (0 + answers.countP Option.isNone)
    omega
  · have below : totalBytes answers.reduceOption < 2 ^ 64 := memory
    show min (0 + totalBytes answers.reduceOption) u64Max = totalBytes answers.reduceOption
    unfold u64Max
    omega

theorem health_adds_up {job : AsyncKvJob}
    (made : (perform engine (blank job) .health).Makes calls (.ok result)) :
    AddsUp engine .health calls result := by
  obtain ⟨tiers, own, later, rfl, went, ended⟩ := makes_bind_ok made
  obtain ⟨answers, each, agree⟩ := KvEngine.health_makes went
  have sick : (tiers.all fun tier => tier.healthy) = false ↔ ∃ tier ∈ tiers, tier.healthy = false := by
    simp
  have failing : (tiers.all fun tier => tier.healthy) = false ↔
      ∃ answer ∈ answers, answer.isOk = false := by
    rw [KvEngine.all_healthy_eq agree]
    simp
  split at ended
  case isTrue well =>
    obtain ⟨rfl, same⟩ := ended
    cases same
    rw [List.append_nil]
    rw [well] at sick failing
    exact ⟨rfl, rfl, answers, each, failing, sick⟩
  case isFalse ill =>
    obtain ⟨rfl, same⟩ := ended
    cases same
    rw [List.append_nil]
    rw [Bool.not_eq_true] at ill
    rw [ill] at sick failing
    exact ⟨rfl, rfl, answers, each, failing, sick⟩

/-- **The match on the payload**, before the stopwatch is read. -/
theorem perform_adds_up {job : AsyncKvJob} {payload : AsyncKvPayload} (fits : payload.items < 2 ^ 64)
    (made : (perform engine (blank job) payload).Makes calls (.ok result)) :
    AddsUp engine payload calls result := by
  cases payload with
  | store blocks ttl pinned =>
      obtain ⟨answers, each, rfl⟩ := storeEach_makes (Nat.zero_le _) made
      exact ⟨rfl, (Nat.zero_add _).symm, answers, each, Nat.zero_add _⟩
  | retrieve keys => exact retrieve_adds_up made
  | move requests =>
      obtain ⟨_, own, later, rfl, went, rfl, same⟩ := makes_bind_ok made
      obtain ⟨answers, each, rfl⟩ := moveEach_makes went
      cases same
      rw [List.append_nil]
      refine ⟨rfl, ?_, answers, each, Nat.zero_add _, decide_pos_iff _⟩
      show requests.length = 0 + answers.count true + (0 + answers.count false)
      rw [Nat.zero_add, Nat.zero_add, done_add_missed each]
  | prefetch keys destination =>
      obtain ⟨report, own, later, rfl, went, rfl, same⟩ := makes_bind_ok made
      obtain ⟨answers, turns, last, rfl, each, rfl⟩ := KvEngine.prefetchWorker_makes fits went
      cases same
      rw [List.append_nil]
      exact ⟨rfl, done_add_missed each, answers, turns, last, rfl, each, rfl, decide_pos_iff _⟩
  | invalidate keys =>
      obtain ⟨answers, each, rfl⟩ := invalidateEach_makes made
      exact ⟨rfl, (Nat.zero_add _).symm, answers, each, Nat.zero_add _⟩
  | pin keys pinned =>
      obtain ⟨_, own, later, rfl, went, rfl, same⟩ := makes_bind_ok made
      obtain ⟨answers, each, rfl⟩ := pinAll_makes went
      cases same
      rw [List.append_nil]
      refine ⟨rfl, ?_, answers, each, Nat.zero_add _, decide_pos_iff _⟩
      show keys.length = 0 + answers.count true + (0 + answers.count false)
      rw [Nat.zero_add, Nat.zero_add, done_add_missed each]
  | clear =>
      obtain ⟨_, own, later, rfl, went, rfl, same⟩ := makes_bind_ok made
      cases same
      rw [List.append_nil]
      exact ⟨rfl, rfl, went, rfl⟩
  | health => exact health_adds_up made

/-- **The results of jobs add up**: whatever answers a job gets to its calls of the engine, if it succeeds,
then its result counts every item as completed or missed, and says of the calls what `Tells` states. -/
theorem execute_adds_up {elapsed : Nat} {job : AsyncKvJob} (fits : job.payload.items < 2 ^ 64)
    (made : (execute engine elapsed job).Makes calls (.ok result)) :
    AddsUp engine job.payload calls result := by
  obtain ⟨out, own, later, rfl, performs, rfl, same⟩ := makes_bind_ok made
  obtain ⟨requested, total, tells⟩ := perform_adds_up fits performs
  cases same
  rw [List.append_nil]
  refine ⟨requested, total, ?_⟩
  cases payload : job.payload <;> rw [payload] at tells <;> exact tells

/-- A retrieval of the key of the sample block, and of the key after it. -/
def retrieveTwo : AsyncKvJob :=
  ⟨1, .retrieve, .retrieve [KvBlockKey.sample, { KvBlockKey.sample with blockIndex := 1 }]⟩

/-- Two keys are asked for, one is there. -/
theorem execute_adds_up_one :
    ∃ calls result, (execute twoMemoryTiers 5 retrieveTwo).Makes calls (.ok result) ∧
      result.requested = 2 ∧ result.completed = 1 ∧ result.blocks = [KvBlock.sample 1] ∧
      AddsUp twoMemoryTiers retrieveTwo.payload calls result := by
  obtain ⟨calls, made⟩ := makes_run twoMemoryTiers.handle (execute twoMemoryTiers 5 retrieveTwo)
    (twoMemoryTiers.run (twoMemoryTiers.putTo 1 (KvBlock.sample 1) none false)
      (KvState.pair MemoryTier.empty MemoryTier.empty)).2
  exact ⟨calls, _, made, rfl, rfl, rfl, execute_adds_up (by decide) made⟩

end AsyncKv

/-! ### What a recorded job says -/

namespace AsyncKvPipeline

variable {pipeline : AsyncKvPipeline τ} {job : AsyncKvJob} {value : AsyncKvResult}

/-- The run of a job that has succeeded. -/
theorem Did.makes (did : pipeline.Did job calls (.ok value)) :
    ∃ elapsed, (AsyncKv.execute pipeline.engine elapsed job).Makes calls (.ok value) := by
  obtain ⟨elapsed, outcome, made, same⟩ := did
  cases outcome with
  | error error => cases same
  | ok result =>
      cases same
      exact ⟨elapsed, made⟩

/-- **The records of the pipeline add up.** -/
theorem did_adds_up (did : pipeline.Did job calls (.ok value)) (fits : job.payload.items < 2 ^ 64) :
    AsyncKv.AddsUp pipeline.engine job.payload calls value :=
  did.makes.elim fun _ made => AsyncKv.execute_adds_up fits made

/-- **A store that has succeeded** has put each of its blocks. -/
theorem did_store {blocks : List KvBlock} {ttl : Option Duration} {pinned : Bool}
    (did : pipeline.Did job calls (.ok value)) (stores : job.payload = .store blocks ttl pinned)
    {block : KvBlock} (inside : block ∈ blocks) :
    ∃ earlier own later, calls = earlier ++ own ++ later ∧
      (pipeline.engine.put block ttl pinned).Makes own (.ok ()) := by
  obtain ⟨elapsed, made⟩ := did.makes
  obtain ⟨out, first, last, rfl, performs, rfl, _⟩ := makes_bind_ok made
  rw [stores] at performs
  obtain ⟨answers, each, _⟩ := AsyncKv.storeEach_makes (Nat.zero_le _) performs
  obtain ⟨earlier, own, later, answer, rfl, puts⟩ := each.of_mem inside
  exact ⟨earlier, own, later, List.append_nil _, puts⟩

end AsyncKvPipeline

end RivetCache
