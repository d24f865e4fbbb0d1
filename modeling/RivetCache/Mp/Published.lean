/-
**What the service publishes.**

A record enters the prefix index in `query` or `wait`: from a copy of the request, and from a snapshot
of its job. Both were taken earlier, and other calls and the workers have gone on since.

* `Completed`: a store request whose job has completed, after it had put each of its keys;
* `completed_of_fetched`: what `query` and `wait` publish is of such a request;
* `published_step`: every step keeps that the index is of such requests;
* `published_sound`: so it is in every run in which identifiers do not repeat;
* `told_adds_up`: a status of a completed request counts each chunk as found or missed.
-/

import RivetCache.Kv.PrefixMap
import RivetCache.Mp.Ended
import RivetCache.Runtime.Results

set_option linter.unusedSectionVars false

namespace RivetCache

open Library

variable {τ : Nat → Type}

namespace MpCall

/-- The snapshot that a call has taken of the job of a request. -/
def seen : MpCall → Option (Nat × AsyncKvJobSnapshot)
  | .fetching _ id snapshot => some (id, snapshot)
  | .publishing _ id _ snapshot => some (id, snapshot)
  | .marking _ id _ snapshot => some (id, snapshot)
  | _ => none

/-- The status of a request that a call has returned. -/
def told : MpCall → Option (Nat × MpRequestStatus)
  | .queried id (.ok (some status)) => some (id, status)
  | .waited id (.ok status) => some (id, status)
  | _ => none

end MpCall

/-- The kind of a request. -/
def MpRequest.kind : MpRequest → MpRequestKind
  | .lookup _ _ _ => .lookup
  | .store _ _ _ _ _ _ => .store
  | .retrieve _ _ _ => .retrieve
  | .retrieveLookup _ _ => .retrieve
  | .pin _ _ _ pinned => if pinned then .pin else .unpin
  | .delete _ _ _ => .delete
  | .clear _ => .clear
  | .health _ => .health

namespace MpCacheService

variable {service : MpCacheService τ} {s t : MpState τ} {late : Bool} {call next : MpCall}
  {index : Nat}

/-! ### Store requests -/

theorem validateModel_ok {value valid : String} (checked : validateModel value = .ok valid) :
    valid = value := by
  unfold validateModel at checked
  split at checked <;> cases checked
  rfl

theorem requireItems_ok {α : Type} {items : List α} {message : String} {operation : AsyncKvOperation}
    {payload : AsyncKvPayload} {work : AsyncKvOperation × AsyncKvPayload}
    (made : AsyncKvPipeline.requireItems items message operation payload = .ok work) :
    work = (operation, payload) := by
  unfold AsyncKvPipeline.requireItems at made
  split at made <;> cases made
  rfl

/-- **`submit_store`** makes the job that stores the blocks of its keys. -/
theorem submitStore_ok {session model : String} {tokens : List UInt32} {blocks : List KvBlock}
    {ttl : Option Duration} {pinned : Bool} {draft : RequestDraft}
    (made : service.submitStore session model tokens blocks ttl pinned = .ok draft) :
    draft.kind = .store ∧ service.keysFor draft.model draft.tokens = .ok draft.keys ∧
      draft.payload = .store blocks ttl pinned ∧ blocksMatch blocks draft.keys = true := by
  unfold submitStore at made
  obtain ⟨_, _, made⟩ := bind_eq_ok.mp made
  obtain ⟨checked, valid, made⟩ := bind_eq_ok.mp made
  split at made
  case isTrue => cases made
  case isFalse =>
    obtain ⟨keys, cut, made⟩ := bind_eq_ok.mp made
    split at made
    case isTrue => cases made
    case isFalse matching =>
      obtain ⟨⟨operation, payload⟩, work, made⟩ := bind_eq_ok.mp made
      cases requireItems_ok work
      cases made
      exact ⟨rfl, cut, rfl, by simpa using matching⟩

/-- The draft of a request is of its kind. -/
theorem kind_of_prepare {request : MpRequest} {draft : RequestDraft}
    (made : service.prepare s request = .ok draft) : draft.kind = request.kind := by
  cases request with
  | store session model tokens blocks ttl pinned => exact (submitStore_ok made).1
  | lookup session model tokens =>
      unfold prepare submitLookup at made
      obtain ⟨_, _, made⟩ := bind_eq_ok.mp made
      obtain ⟨_, _, made⟩ := bind_eq_ok.mp made
      split at made
      case isTrue => cases made
      case isFalse =>
        obtain ⟨_, _, made⟩ := bind_eq_ok.mp made
        obtain ⟨_, _, made⟩ := bind_eq_ok.mp made
        cases made
        rfl
  | retrieve session model tokens =>
      unfold prepare submitRetrieve at made
      obtain ⟨_, _, made⟩ := bind_eq_ok.mp made
      obtain ⟨_, _, made⟩ := bind_eq_ok.mp made
      obtain ⟨_, _, made⟩ := bind_eq_ok.mp made
      split at made
      case isTrue => cases made
      case isFalse =>
        obtain ⟨_, _, made⟩ := bind_eq_ok.mp made
        cases made
        rfl
  | retrieveLookup session lookupRequestId =>
      unfold prepare submitRetrieveLookup at made
      obtain ⟨_, _, made⟩ := bind_eq_ok.mp made
      split at made
      case h_1 => cases made
      case h_2 =>
        split at made
        case isTrue => cases made
        case isFalse =>
          obtain ⟨_, _, made⟩ := bind_eq_ok.mp made
          cases made
          rfl
  | pin session model tokens pinned =>
      unfold prepare submitPin at made
      obtain ⟨_, _, made⟩ := bind_eq_ok.mp made
      obtain ⟨_, _, made⟩ := bind_eq_ok.mp made
      obtain ⟨keys, _, made⟩ := bind_eq_ok.mp made
      cases none_left : keys.isEmpty with
      | true =>
          rw [none_left] at made
          cases made
      | false =>
          rw [none_left] at made
          obtain ⟨_, _, made⟩ := bind_eq_ok.mp made
          cases made
          rfl
  | delete session model tokens =>
      unfold prepare submitDelete at made
      obtain ⟨_, _, made⟩ := bind_eq_ok.mp made
      obtain ⟨_, _, made⟩ := bind_eq_ok.mp made
      obtain ⟨_, _, made⟩ := bind_eq_ok.mp made
      split at made
      case isTrue => cases made
      case isFalse =>
        obtain ⟨_, _, made⟩ := bind_eq_ok.mp made
        cases made
        rfl
  | clear session =>
      unfold prepare submitClear at made
      obtain ⟨_, _, made⟩ := bind_eq_ok.mp made
      cases made
      rfl
  | health session =>
      unfold prepare submitHealth at made
      obtain ⟨_, _, made⟩ := bind_eq_ok.mp made
      cases made
      rfl

/-- A draft of a store is made by `submit_store`. -/
theorem Prepared.store {draft : RequestDraft} (prepared : service.Prepared draft)
    (stores : draft.kind = .store) :
    service.keysFor draft.model draft.tokens = .ok draft.keys ∧ ∃ blocks ttl pinned,
      draft.payload = .store blocks ttl pinned ∧ blocksMatch blocks draft.keys = true := by
  obtain ⟨before, request, made⟩ := prepared
  have kind := kind_of_prepare made
  rw [stores] at kind
  cases request with
  | store session model tokens blocks ttl pinned =>
      obtain ⟨_, cut, payload, matching⟩ := submitStore_ok made
      exact ⟨cut, blocks, ttl, pinned, payload, matching⟩
  | pin session model tokens pinned => cases pinned <;> cases kind
  | _ => cases kind

/-- Blocks that match the keys are one for each. -/
theorem block_of_match {blocks : List KvBlock} {keys : List KvBlockKey}
    (matching : blocksMatch blocks keys = true) {key : KvBlockKey} (inside : key ∈ keys) :
    ∃ block ∈ blocks, block.key = key := by
  unfold blocksMatch at matching
  rw [Bool.not_eq_true', Bool.or_eq_false_iff, decide_eq_false_iff_not, not_not] at matching
  obtain ⟨lengths, alike⟩ := matching
  obtain ⟨index, bound, rfl⟩ := List.getElem_of_mem inside
  refine ⟨blocks[index], List.getElem_mem _, ?_⟩
  have pair : (blocks[index], keys[index]) ∈ blocks.zip keys := by
    rw [← List.getElem_zip (h := by rw [List.length_zip]; omega)]
    exact List.getElem_mem _
  simpa using List.any_eq_false.mp alike _ pair

/-! ### What is published -/

/-- **A store request has completed**: its call has returned the ticket of this record, its job was
accepted, and has come to an end that is recorded as a success, after it had put each of the keys. -/
structure Completed (service : MpCacheService τ) (s : MpState τ) (request : RequestRecord)
    (entry : RecordedJob) : Prop where
  returned : ∃ index submission : Nat, s.calls[index]? = some (.registered request submission) ∧
    s.pipeline.submissions[submission]? = some (.accepted entry.job)
  store : request.kind = .store
  cut : service.keysFor request.model request.tokens = .ok request.keys
  settled : service.pipeline.Settled s.pipeline entry
  succeeded : ∃ value, entry.result = .ok value
  puts : ∀ key ∈ request.keys, ∃ block ttl pinned earlier own later, block.key = key ∧
    entry.calls = earlier ++ own ++ later ∧
      (service.pipeline.engine.put block ttl pinned).Makes own (.ok ())

/-- A record of the index is of such a request. -/
def Stored (service : MpCacheService τ) (s : MpState τ) (record : PrefixRecord) : Prop :=
  ∃ request entry, service.Completed s request entry ∧
    record = ⟨request.model, request.tokens, request.keys⟩

/-- A snapshot of a completed job. -/
def Ended (service : MpCacheService τ) (s : MpState τ) (id : Nat) (snapshot : AsyncKvJobSnapshot) :
    Prop :=
  snapshot.state = .completed → ∃ entry, service.pipeline.Settled s.pipeline entry ∧
    entry.job.id = id ∧ snapshot = PipelineState.finishedSnapshot entry.job entry.result

/-- **The invariant**: the snapshots and records that the calls have taken, and the index. -/
structure Sound (service : MpCacheService τ) (s : MpState τ) : Prop where
  orderly : s.pipeline.Orderly
  origins : service.Origins s
  ledger : service.pipeline.Ledger s.pipeline.Sent s.pipeline
  seen : ∀ (index : Nat) (call : MpCall) (id : Nat) (snapshot : AsyncKvJobSnapshot),
    s.calls[index]? = some call → call.seen = some (id, snapshot) → service.Ended s id snapshot
  told : ∀ (index : Nat) (call : MpCall) (id : Nat) (status : MpRequestStatus),
    s.calls[index]? = some call → call.told = some (id, status) →
      ∃ record snapshot, status = mpStatus record snapshot ∧ service.Ended s id snapshot
  publishing : ∀ (index : Nat) (waits : Bool) (id : Nat) (record : RequestRecord)
    (snapshot : AsyncKvJobSnapshot), s.calls[index]? = some (.publishing waits id record snapshot) →
      ∃ entry, service.Completed s record entry
  indexed : ∀ record ∈ s.index, service.Stored s record

variable {id : Nat} {snapshot : AsyncKvJobSnapshot}

/-- The end of a job is final. -/
theorem settled_step (label : Label τ) {entry : RecordedJob} (orderly : s.pipeline.Orderly)
    (numbered : Numbered label s) (settled : service.pipeline.Settled s.pipeline entry) :
    service.pipeline.Settled (service.step label s).pipeline entry := by
  rcases step_pipeline service label s numbered with same | ⟨own, _, same⟩
  · rw [same]
    exact settled
  · rw [same]
    exact settled.step orderly own

/-- A job that was accepted stays accepted. -/
theorem accepted_step (label : Label τ) {submission : Nat} {job : AsyncKvJob}
    (numbered : Numbered label s) (accepted : s.pipeline.submissions[submission]? = some (.accepted job)) :
    (service.step label s).pipeline.submissions[submission]? = some (.accepted job) := by
  rcases step_pipeline service label s numbered with same | ⟨own, _, same⟩
  · rw [same]
    exact accepted
  · obtain ⟨next, stands, follows⟩ := AsyncKvPipeline.follows_step service.pipeline own accepted
    rw [same, stands, follows.accepted job rfl]

/-- **A request that has completed** stays so. -/
theorem Completed.step {request : RequestRecord} {entry : RecordedJob}
    (done : service.Completed s request entry) (label : Label τ) (orderly : s.pipeline.Orderly)
    (numbered : Numbered label s) : service.Completed (service.step label s) request entry := by
  obtain ⟨index, submission, returned, accepted⟩ := done.returned
  refine ⟨⟨index, submission, registered_step label returned, accepted_step label numbered accepted⟩,
    done.store, done.cut, ?_, done.succeeded, done.puts⟩
  exact settled_step label orderly numbered done.settled

theorem Ended.step (ended : service.Ended s id snapshot) (label : Label τ)
    (orderly : s.pipeline.Orderly) (numbered : Numbered label s) :
    service.Ended (service.step label s) id snapshot := by
  intro completed
  obtain ⟨entry, settled, named, same⟩ := ended completed
  exact ⟨entry, settled_step label orderly numbered settled, named, same⟩

/-- A record of the job map. -/
theorem ended_of_found (ledger : service.pipeline.Ledger s.pipeline.Sent s.pipeline)
    (found : s.pipeline.jobs id = some snapshot) : service.Ended s id snapshot := by
  intro completed
  refine ledger.settled found ?_
  unfold PipelineState.isTerminal
  rw [completed]
  rfl

/-- A job that the channel took under the identifier of a record is the job of that record. -/
theorem job_of_sent (orderly : s.pipeline.Orderly) {submission : Nat} {job other : AsyncKvJob}
    (accepted : s.pipeline.submissions[submission]? = some (.accepted job))
    (sent : s.pipeline.Sent other) (same : other.id = job.id) : other = job := by
  obtain ⟨own, stand, stands, has⟩ := sent
  have ticket : stand.sentTicket = some job.id := by
    rw [Submission.sentTicket_eq, has, ← same]
    rfl
  have numbers : own = submission :=
    orderly.ticketed.distinct own submission stand _ job.id stands accepted
      (Submission.ticket_of_sentTicket ticket) rfl
  subst numbers
  rw [accepted] at stands
  cases stands
  cases has
  rfl

/-- The test of `finalize_prefix`. -/
theorem publishes_iff {record : RequestRecord} :
    publishes record snapshot = true ↔
      record.kind = .store ∧ record.prefixIndexed = false ∧ snapshot.state = .completed := by
  unfold publishes
  simp only [Bool.not_eq_true', Bool.or_eq_false_iff, decide_eq_false_iff_not, not_not, and_assoc]

/-- **What `query` and `wait` publish** is of a request that has completed. -/
theorem completed_of_fetched (sound : service.Sound s) {record : RequestRecord}
    (ended : service.Ended s id snapshot) (found : s.requests id = some record)
    (due : publishes record snapshot = true) : ∃ entry, service.Completed s record entry := by
  obtain ⟨store, unmarked, completed⟩ := publishes_iff.mp due
  obtain ⟨entry, settled, named, same⟩ := ended completed
  obtain ⟨index, kept, submission, returned, filed, marked⟩ := sound.origins.filed id record found
  obtain rfl : record = kept := by
    rcases marked with rfl | rfl
    · rfl
    · cases unmarked
  obtain ⟨draft, job, stems⟩ := sound.origins.stems index _ record submission returned rfl rfl
  -- the job of the snapshot is the one of the record: identifiers do not repeat
  have ids : job.id = id := by
    rw [← filed, stems.named]
    rfl
  have own : entry.job = job :=
    job_of_sent sound.orderly stems.accepted settled.sent (named.trans ids.symm)
  obtain ⟨value, succeeded⟩ : ∃ value, entry.result = .ok value := by
    cases result : entry.result with
    | ok value => exact ⟨value, rfl⟩
    | error error =>
        rw [same, result] at completed
        cases completed
  have drafted : draft.kind = .store := by
    rw [stems.named] at store
    exact store
  obtain ⟨cut, blocks, ttl, pinned, payload, matching⟩ := stems.prepared.store drafted
  refine ⟨entry, ⟨index, submission, returned, own ▸ stems.accepted⟩, store, ?_, settled,
    ⟨value, succeeded⟩, fun key inside => ?_⟩
  · rw [stems.named]
    exact cut
  · rw [stems.named] at inside
    obtain ⟨block, there, rfl⟩ := block_of_match matching inside
    have stores : entry.job.payload = .store blocks ttl pinned := by
      rw [own, ← payload]
      exact congrArg Prod.snd stems.work
    have did := settled.did
    rw [succeeded] at did
    obtain ⟨earlier, own, later, calls, put⟩ := AsyncKvPipeline.did_store did stores there
    exact ⟨block, ttl, pinned, earlier, own, later, rfl, calls, put⟩

/-! ### Every run -/

/-- **What a step does to the index**: a call registers the record that it has read. -/
theorem index_step (service : MpCacheService τ) (label : Label τ) (s : MpState τ) :
    (service.step label s).index = s.index ∨
    ∃ (index : Nat) (waits : Bool) (id : Nat) (request : RequestRecord) (snapshot : AsyncKvJobSnapshot),
      s.calls[index]? = some (.publishing waits id request snapshot) ∧
        s.index.register request.model request.tokens request.keys =
          .ok (service.step label s).index := by
  have steps := step_steps service label s
  generalize service.step label s = after at steps
  cases steps with
  | pipeline | begins | waits => exact Or.inl rfl
  | @advances index _ _ _ _ _ standing onward =>
      cases onward with
      | @publish waits id request snapshot _ done =>
          exact Or.inr ⟨index, waits, id, request, snapshot, standing, done⟩
      | mark waits id request snapshot =>
          refine Or.inl ?_
          show (markIndexed s request.jobId).index = s.index
          unfold markIndexed
          split <;> rfl
      | _ => exact Or.inl rfl

/-- A call reads its snapshot in the job map, and keeps it. -/
theorem Advances.seen (advances : Advances s late call next t) (seen : next.seen = some (id, snapshot)) :
    s.pipeline.jobs id = some snapshot ∨ call.seen = some (id, snapshot) := by
  cases advances with
  | look found =>
      cases seen
      exact Or.inl found
  | @poll own read answer =>
      cases seen
      refine Or.inl ?_
      unfold PipelineState.waitRound PipelineState.snapshot at answer
      cases found : s.pipeline.jobs id with
      | none =>
          rw [found] at answer
          cases answer
      | some job =>
          rw [found] at answer
          dsimp only at answer
          split at answer
          case isTrue =>
            cases answer
            rfl
          case isFalse =>
            split at answer <;> cases answer
  | fetchStore | publish => exact Or.inr seen
  | @fetch waits id snapshot record | mark waits id record snapshot =>
      rcases answered_cases waits id (mpStatus record snapshot) with same | same <;>
        rw [same] at seen <;> cases seen
  | @publishFailed waits id record snapshot error =>
      rcases failedWith_cases waits id error with same | same <;> rw [same] at seen <;> cases seen
  | _ => cases seen

/-- A call returns the status of the snapshot that it has taken. -/
theorem Advances.told (advances : Advances s late call next t) {status : MpRequestStatus}
    (told : next.told = some (id, status)) :
    ∃ record snapshot, call.seen = some (id, snapshot) ∧ status = mpStatus record snapshot := by
  cases advances with
  | @fetch waits own snapshot record | mark waits own record snapshot =>
      rcases answered_cases waits own (mpStatus record snapshot) with same | same <;>
      · rw [same] at told
        cases told
        exact ⟨record, snapshot, rfl, rfl⟩
  | @publishFailed waits own record snapshot error =>
      rcases failedWith_cases waits own error with same | same <;> rw [same] at told <;> cases told
  | @retrieve own => cases told
  | _ => cases told

/-- A call that publishes a record has read it among the requests. -/
theorem Advances.chooses (advances : Advances s late call next t) {waits : Bool}
    {record : RequestRecord} (chooses : next = .publishing waits id record snapshot) :
    call = .fetching waits id snapshot ∧ s.requests id = some record ∧
      publishes record snapshot = true := by
  cases advances with
  | fetchStore found due =>
      cases chooses
      exact ⟨rfl, found, due⟩
  | @fetch waits id snapshot record | mark waits id record snapshot =>
      rcases answered_cases waits id (mpStatus record snapshot) with same | same <;>
        rw [same] at chooses <;> cases chooses
  | @publishFailed waits id record snapshot error =>
      rcases failedWith_cases waits id error with same | same <;> rw [same] at chooses <;> cases chooses
  | _ => cases chooses

/-- **Every step keeps it.** -/
theorem published_step (label : Label τ) (sound : service.Sound s) (numbered : Numbered label s) :
    service.Sound (service.step label s) where
  orderly := orderly_step label sound.orderly numbered
  origins := origins_step label sound.origins
  ledger := by
    rcases step_pipeline service label s numbered with same | ⟨own, _, same⟩
    · rw [same]
      exact sound.ledger
    · rw [same]
      exact AsyncKvPipeline.ledger_step own sound.ledger
  seen index stand id snapshot stands seen := by
    have ended : service.Ended s id snapshot := by
      rcases step_calls stands with before | ⟨_, begun⟩ | ⟨_, call, _, _, standing, onward, _⟩
      · exact sound.seen index stand id snapshot before seen
      · cases begun <;> cases seen
      · rcases onward.seen seen with found | before
        · exact ended_of_found sound.ledger found
        · exact sound.seen index call id snapshot standing before
    exact ended.step label sound.orderly numbered
  told index stand id status stands told := by
    obtain ⟨record, snapshot, same, ended⟩ :
        ∃ record snapshot, status = mpStatus record snapshot ∧ service.Ended s id snapshot := by
      rcases step_calls stands with before | ⟨_, begun⟩ | ⟨_, call, _, _, standing, onward, _⟩
      · exact sound.told index stand id status before told
      · cases begun <;> cases told
      · obtain ⟨record, snapshot, seen, same⟩ := onward.told told
        exact ⟨record, snapshot, same, sound.seen index call id snapshot standing seen⟩
    exact ⟨record, snapshot, same, ended.step label sound.orderly numbered⟩
  publishing index waits id record snapshot stands := by
    obtain ⟨entry, done⟩ : ∃ entry, service.Completed s record entry := by
      rcases step_calls stands with before | ⟨_, begun⟩ | ⟨_, _, _, _, standing, onward, _⟩
      · exact sound.publishing index waits id record snapshot before
      · cases begun
      · obtain ⟨rfl, found, due⟩ := onward.chooses rfl
        exact completed_of_fetched sound (sound.seen index _ id snapshot standing rfl) found due
    exact ⟨entry, done.step label sound.orderly numbered⟩
  indexed record inside := by
    obtain ⟨request, entry, done, same⟩ : service.Stored s record := by
      rcases index_step service label s with same | ⟨index, waits, id, request, snapshot, stands, done⟩
      · exact sound.indexed record (same ▸ inside)
      · rcases (PrefixIndex.mem_registered done).mp inside with same | ⟨before, _⟩
        · obtain ⟨entry, completed⟩ := sound.publishing index waits id request snapshot stands
          exact ⟨request, entry, completed, same⟩
        · exact sound.indexed record before
    exact ⟨request, entry, done.step label sound.orderly numbered, same⟩

theorem published_initial (service : MpCacheService τ) (tiers : KvState τ) :
    service.Sound (service.initial tiers) where
  orderly := service.pipeline.orderly_initial tiers
  origins := service.origins_initial tiers
  ledger := service.pipeline.ledger_initial tiers
  seen _ _ _ _ there := by cases there
  told _ _ _ _ there := by cases there
  publishing _ _ _ _ _ there := by cases there
  indexed _ inside := by cases inside

/-- **Publication is sound**: in every state of a run with less than `2 ^ 64` submissions, each record
of the index is of a store request that has completed, and has put each of its keys; and no other is
about to be published. -/
theorem published_sound (service : MpCacheService τ) (tiers : KvState τ)
    (reached : Reaches service.step Numbered (service.initial tiers) s) :
    (∀ record ∈ s.index, service.Stored s record) ∧
    ∀ (index : Nat) (waits : Bool) (id : Nat) (request : RequestRecord) (snapshot : AsyncKvJobSnapshot),
      s.calls[index]? = some (.publishing waits id request snapshot) →
        ∃ entry, service.Completed s request entry := by
  have sound : service.Sound s := reached.invariant service.Sound (service.published_initial tiers)
    fun label _ sound numbered => published_step label sound numbered
  exact ⟨sound.indexed, sound.publishing⟩

/-- **A status adds up**: what `query` and `wait` tell of a completed request counts each of its chunks as
found or missed. -/
theorem told_adds_up (sound : service.Sound s) (stands : s.calls[index]? = some call) {id : Nat}
    {status : MpRequestStatus} (told : call.told = some (id, status))
    (completed : status.state = .completed)
    (fits : ∀ entry ∈ s.pipeline.recorded, entry.job.payload.items < 2 ^ 64) :
    status.totalChunks = status.foundChunks + status.missedChunks := by
  obtain ⟨record, snapshot, rfl, ended⟩ := sound.told index call id status stands told
  obtain ⟨entry, settled, _, rfl⟩ := ended completed
  have did := settled.did
  cases outcome : entry.result with
  | error error =>
      rw [outcome] at completed
      cases completed
  | ok value =>
      rw [outcome] at did
      exact (AsyncKvPipeline.did_adds_up did (fits entry settled.recorded)).total

/-! ### Runs on fixed inputs -/

/-- A store, its job, and a `query` that publishes it. -/
def storePublished : List (Label (Pair MemoryTier MemoryTier)) :=
  List.flatten [[.submit (.store "s" "m" [1, 2] [keptBlock] none false)],
    List.replicate 5 (.pipeline (.advance 0)), List.replicate 3 (.resume 0 false),
    List.replicate 6 (.pipeline (.work 0 0)), [.query 1], List.replicate 4 (.resume 1 false)]

/-- The record of the block in the index is of a store that has completed. -/
theorem published_sound_block :
    plainService.Stored (plainRun storePublished) ⟨"m", [1, 2], [keptBlock.key]⟩ := by
  have reached : Reaches plainService.step Numbered plainStart (plainRun storePublished) :=
    .ofList ⟨trivial, (fun _ _ _ => by decide), (fun _ _ there => by cases there),
      (fun _ _ there => by cases there), (fun _ _ there => by cases there),
      (fun _ _ there => by cases there), trivial, trivial, trivial, trivial, trivial, trivial, trivial,
      trivial, trivial, trivial, trivial, trivial, trivial, trivial, trivial⟩
  exact (published_sound plainService _ reached).1 _ (List.mem_singleton.mpr rfl)

/-- A service with two workers, and room for one job. -/
def narrowService : MpCacheService (Pair MemoryTier MemoryTier) :=
  { plainService with pipeline := AsyncKvPipeline.narrow }

def narrowStart : MpState (Pair MemoryTier MemoryTier) :=
  narrowService.initial (KvState.pair MemoryTier.empty MemoryTier.empty)

/-- A run of the pipeline, seen from the service. -/
theorem pipeline_reached (service : MpCacheService τ) (s : MpState τ)
    {allowed : AsyncKvPipeline.Label τ → PipelineState τ → Prop} {p : PipelineState τ}
    (reached : Reaches service.pipeline.step allowed s.pipeline p) :
    Reaches service.step (fun _ _ => True) s { s with pipeline := p } := by
  induction reached with
  | refl => exact .refl
  | step before permitted ih => exact ih.next (.pipeline _) trivial

/-- A block of the model `n`. -/
def lateBlock : KvBlock where
  key := KvBlockKey.fromPrefix zeroDigest "n" [3, 4] ⟨0, 0, 2, 0, 8, 1⟩
  bytes := ⟨[8], by simp⟩

/-- The request that stores it. -/
def lateDraft : RequestDraft where
  operation := .store
  payload := .store [lateBlock] none false
  session := "s"
  kind := .store
  total := 1
  keys := [lateBlock.key]
  model := "n"
  tokens := [3, 4]
  prefixIndexed := false

/-- Its job, under the identifier that comes after the last. -/
def lateJob : AsyncKvJob := ⟨1, .store, .store [lateBlock] none false⟩

/-- **A request is published for another's job**: a call of `query` has the snapshot of a completed job,
and the identifiers begin again. -/
theorem publishes_other {s : MpState (Pair MemoryTier MemoryTier)} {front : List Submission}
    {workers : List Worker} (stage : AsyncKvPipeline.Stage s.pipeline front 0 [] workers)
    (present : workers.all Worker.gone = false) {first : MpCall} {snapshot : AsyncKvJobSnapshot}
    (calls : s.calls = [first, .fetching false 1 snapshot]) (completed : snapshot.state = .completed)
    (empty : s.index = []) :
    ∃ after, Reaches narrowService.step (fun _ _ => True) s after ∧
      after.calls = [first, .marking false 1 (lateDraft.record 1) snapshot,
        .registered (lateDraft.record 1) front.length] ∧
      after.index = [⟨"n", [3, 4], [lateBlock.key]⟩] ∧
      after.pipeline.recorded = s.pipeline.recorded ∧
      after.pipeline.submissions[front.length]? = some (.accepted lateJob) := by
  obtain ⟨pipeline, requests, sessions, index, stand⟩ := s
  obtain ⟨id, operation, state, result, error⟩ := snapshot
  cases calls
  cases empty
  cases completed
  have begun : AsyncKvPipeline.Stage (AsyncKvPipeline.narrow.step
      (.submit .store (.store [lateBlock] none false)) pipeline) _ 0 [] workers := stage.begins
  obtain ⟨p, sent, last⟩ := begun.accepts present
  have accepted : p.submissions[front.length]? = some (.accepted lateJob) := by
    rw [last.submissions]
    exact List.getElem?_concat_length
  have submits : narrowService.step (.submit (.store "s" "n" [3, 4] [lateBlock] none false))
      ⟨pipeline, requests, sessions, [], [first, .fetching false 1 ⟨id, operation, .completed, result, error⟩]⟩ =
    ⟨AsyncKvPipeline.narrow.step (.submit .store (.store [lateBlock] none false)) pipeline, requests,
      sessions, [], [first, .fetching false 1 ⟨id, operation, .completed, result, error⟩,
        .submitting lateDraft pipeline.submissions.length]⟩ := rfl
  rw [stage.submissions] at submits
  have accept : narrowService.step (.resume 2 false) ⟨p, requests, sessions, [],
      [first, .fetching false 1 ⟨id, operation, .completed, result, error⟩,
        .submitting lateDraft front.length]⟩ =
    ⟨p, requests, sessions, [], [first, .fetching false 1 ⟨id, operation, .completed, result, error⟩,
      .listing (lateDraft.record 1) front.length]⟩ := by
    show callStep _ 2 false (.submitting lateDraft front.length) = _
    unfold callStep
    dsimp only
    rw [accepted]
    rfl
  have submitted : Reaches narrowService.step (fun _ _ => True) ⟨pipeline, requests, sessions, [],
      [first, .fetching false 1 ⟨id, operation, .completed, result, error⟩]⟩ _ :=
    Reaches.refl.next (.submit (.store "s" "n" [3, 4] [lateBlock] none false)) trivial
  rw [submits] at submitted
  have listed := (submitted.trans (pipeline_reached narrowService _ sent)).next (.resume 2 false) trivial
  dsimp only at listed
  rw [accept] at listed
  have filed := (listed.next (.resume 2 false) trivial).next (.resume 2 false) trivial
  have published := (filed.next (.resume 1 false) trivial).next (.resume 1 false) trivial
  have recorded : p.recorded = _ := AsyncKvPipeline.recorded_submitting sent
  exact ⟨_, published, rfl, rfl, recorded, accepted⟩

/-- A store whose job completes, a `query` that has its snapshot, and a job that waits in the queue. -/
def storeAsked : List (Label (Pair MemoryTier MemoryTier)) :=
  List.flatten [[.submit (.store "s" "m" [1, 2] [keptBlock] none false)],
    List.replicate 5 (.pipeline (.advance 0)), List.replicate 3 (.resume 0 false),
    List.replicate 9 (.pipeline (.work 0 0)), [.query 1, .resume 1 false],
    [.pipeline (.submit .clear .clear)], List.replicate 5 (.pipeline (.advance 1))]

def askedState : MpState (Pair MemoryTier MemoryTier) :=
  storeAsked.foldl (fun s label => narrowService.step label s) narrowStart

/-- **A store that is pending is published**: after `2 ^ 64` submissions its job has the identifier of
the one that a `query` has seen completed. -/
theorem pending_store_published :
    ∃ s, Reaches narrowService.step (fun _ _ => True) narrowStart s ∧
      ∃ record ∈ s.index, ¬ narrowService.Stored s record := by
  obtain ⟨asked, toAsked, request, entry, snapshot, calls, completed, model, recorded, stores, empty,
      stage⟩ : ∃ asked, Reaches narrowService.step (fun _ _ => True) narrowStart asked ∧
        ∃ request entry snapshot, asked.calls = [.registered request 0, .fetching false 1 snapshot] ∧
          snapshot.state = .completed ∧ request.model = "m" ∧ asked.pipeline.recorded = [entry] ∧
            entry.job.payload = .store [keptBlock] none false ∧ asked.index = [] ∧
              AsyncKvPipeline.Stage asked.pipeline asked.pipeline.submissions 2 [⟨2, .clear, .clear⟩]
                [.idle, .idle] :=
    ⟨askedState, .foldl (fun _ _ => trivial) _ _, _, _, _, rfl, rfl, rfl, rfl, rfl, rfl,
      ⟨rfl, rfl, rfl, rfl, rfl⟩⟩
  -- the queue is full until the identifiers have run out
  obtain ⟨many, more, toMany, worn⟩ := stage.rejectsMany (2 ^ 64 - 3) rfl (by decide)
  obtain ⟨wrapped, call, toWrapped, around⟩ := worn.rejects rfl
  have zero : fetchAdd (2 + (2 ^ 64 - 3)) 1 = 0 := by decide
  rw [zero] at around
  have filled := toMany.trans toWrapped
  have same : wrapped.recorded = [entry] :=
    (AsyncKvPipeline.recorded_submitting filled).trans recorded
  have received : (AsyncKvPipeline.narrow.step (.work 0 0) wrapped).recorded = wrapped.recorded := by
    simp only [AsyncKvPipeline.step, around.standing, List.getElem?_cons_zero,
      AsyncKvPipeline.workStep, around.queued]
    rfl
  have emptied := (filled.mono fun _ _ _ => trivial :
    Reaches _ AsyncKvPipeline.Anyhow _ _).next (.work 0 0) trivial
  have before := toAsked.trans (pipeline_reached narrowService asked emptied)
  obtain ⟨after, reached, stands, index, kept, accepted⟩ :=
    publishes_other (s := { asked with pipeline := _ }) (around.receives 0 rfl) rfl calls completed empty
  refine ⟨after, before.trans reached, _, index ▸ List.mem_singleton_self _, ?_⟩
  rintro ⟨own, ended, done, fields⟩
  obtain ⟨position, submission, returned, mine⟩ := done.returned
  have named : own.model = "n" := (congrArg PrefixRecord.modelFingerprint fields).symm
  rw [stands] at returned
  rcases position with _ | _ | _ | position
  · cases returned
    rw [model] at named
    exact absurd named (by decide)
  · cases returned
  · cases returned
    rw [accepted] at mine
    have inside := done.settled.recorded
    rw [kept.trans (received.trans same), List.mem_singleton] at inside
    subst inside
    have late : lateJob = ended.job := Submission.accepted.inj (Option.some.inj mine)
    rw [← late] at stores
    have blocks : [lateBlock] = [keptBlock] := (AsyncKvPayload.store.inj stores).1
    have models := congrArg (fun block : KvBlock => block.key.modelFingerprint) (List.cons.inj blocks).1
    exact absurd models (by decide)
  · cases returned

end MpCacheService

end RivetCache
