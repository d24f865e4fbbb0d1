/-
**`async_runtime.rs`: the asynchronous pipeline.**

Clients submit jobs to a bounded queue, workers run them on a `KvEngine`. What the threads share is the
job map, the queue and five atomic counters; every access to one of them is one step here, so that the
steps of `submit`, of its `rollback`, of the workers and of `finish` interleave at every point where
the threads may.

A call of `submit`, a worker and a call of `finish` stand before their next step (`Submission`,
`Worker`, `Finish`); `AsyncKvPipeline.step` takes one step of one of them. A worker runs its job one
engine call at a time, and other users of the engine change its tiers in between.

What no step reads is left out: the events, the condition variable, the thread handles.
-/

import RivetCache.Kv.Model
import RivetCache.Library.Census
import RivetCache.Library.Transcript

set_option linter.unusedSectionVars false

namespace RivetCache

open Library

/-! ### Jobs -/

/-- `AsyncKvOperation`. -/
inductive AsyncKvOperation where
  | store
  | retrieve
  | move
  | prefetch
  | invalidate
  | pin
  | unpin
  | clear
  | health
  deriving DecidableEq, Repr

/-- `AsyncKvJobState`. -/
inductive AsyncKvJobState where
  | pending
  | running
  | completed
  | failed
  deriving DecidableEq, Repr

/-- `AsyncKvJobState::Completed | AsyncKvJobState::Failed`. -/
def AsyncKvJobState.terminal : AsyncKvJobState → Bool
  | .completed => true
  | .failed => true
  | _ => false

/-- `AsyncKvError`. -/
structure AsyncKvError where
  kind : ErrorKind
  message : String
  deriving DecidableEq, Repr

/-- `AsyncKvError::from`. -/
def AsyncKvError.ofIoError (error : IoError) : AsyncKvError := ⟨error.kind, error.message⟩

/-- `AsyncKvError::to_io_error`. -/
def AsyncKvError.toIoError (error : AsyncKvError) : IoError := ⟨error.kind, error.message⟩

/-- `AsyncKvResult`. -/
structure AsyncKvResult where
  jobId : Nat
  operation : AsyncKvOperation
  found : Bool
  requested : Nat
  completed : Nat
  missed : Nat
  bytes : Nat
  elapsedMicros : Nat
  blocks : List KvBlock
  health : List KvTierHealth

/-- `AsyncKvJobSnapshot`. -/
structure AsyncKvJobSnapshot where
  jobId : Nat
  operation : AsyncKvOperation
  state : AsyncKvJobState
  result : Option AsyncKvResult
  error : Option AsyncKvError

/-- `MoveRequest`. -/
structure MoveRequest where
  key : KvBlockKey
  source : Nat
  destination : Nat
  removeSource : Bool

/-- `Payload` of a job. -/
inductive AsyncKvPayload where
  | store (blocks : List KvBlock) (ttl : Option Duration) (pinned : Bool)
  | retrieve (keys : List KvBlockKey)
  | move (requests : List MoveRequest)
  | prefetch (keys : List KvBlockKey) (destination : Nat)
  | invalidate (keys : List KvBlockKey)
  | pin (keys : List KvBlockKey) (pinned : Bool)
  | clear
  | health

/-- `Job`. -/
structure AsyncKvJob where
  id : Nat
  operation : AsyncKvOperation
  payload : AsyncKvPayload

variable {τ : Nat → Type}

/-! ### Running a job -/

namespace AsyncKv

variable (engine : KvEngine τ)

/-- `out.bytes` and `out.completed` after one more block. -/
def withBlock (out : AsyncKvResult) (block : KvBlock) : AsyncKvResult :=
  { out with
    bytes := satAdd out.bytes block.bytes.bytes.length
    completed := out.completed + 1 }

/-- One more item, done or missed. -/
def withItem (out : AsyncKvResult) (success : Bool) : AsyncKvResult :=
  if success then { out with completed := out.completed + 1 }
  else { out with missed := out.missed + 1 }

/-- `execute`, the loop of a store. -/
def storeEach (ttl : Option Duration) (pinned : Bool) :
    List KvBlock → AsyncKvResult → KvProgram AsyncKvResult
  | [], out => pure out
  | block :: rest, out => do
      engine.put block ttl pinned
      storeEach ttl pinned rest (withBlock out block)

/-- `execute`, the loop of a retrieval. -/
def retrieveEach : List KvBlockKey → AsyncKvResult → KvProgram AsyncKvResult
  | [], out => pure out
  | key :: rest, out => do
      match ← engine.get key with
      | some block =>
          retrieveEach rest { withBlock out block with blocks := out.blocks ++ [block] }
      | none => retrieveEach rest (withItem out false)

/-- `execute`, the loop of a move. -/
def moveEach : List MoveRequest → AsyncKvResult → KvProgram AsyncKvResult
  | [], out => pure out
  | request :: rest, out => do
      let moved ← engine.moveBlock request.key request.source request.destination
        request.removeSource
      moveEach rest (withItem out moved)

/-- `execute`, the loop of an invalidation. -/
def invalidateEach : List KvBlockKey → AsyncKvResult → KvProgram AsyncKvResult
  | [], out => pure out
  | key :: rest, out => do
      engine.invalidate key
      invalidateEach rest (withItem out true)

/-- `execute`, the loop of a pin. -/
def pinAll (pinned : Bool) : List KvBlockKey → AsyncKvResult → KvProgram AsyncKvResult
  | [], out => pure out
  | key :: rest, out => do
      let changed ← engine.setPinned key pinned
      pinAll pinned rest (withItem out changed)

/-- What `execute` starts from. -/
def blank (job : AsyncKvJob) : AsyncKvResult :=
  { jobId := job.id, operation := job.operation, found := true, requested := 0, completed := 0,
    missed := 0, bytes := 0, elapsedMicros := 0, blocks := [], health := [] }

/-- `execute`, the match on the payload. -/
def perform (out : AsyncKvResult) : AsyncKvPayload → KvProgram AsyncKvResult
  | .store blocks ttl pinned =>
      storeEach engine ttl pinned blocks { out with requested := blocks.length }
  | .retrieve keys => do
      let out ← retrieveEach engine keys { out with requested := keys.length }
      pure { out with found := decide (0 < out.completed) }
  | .move requests => do
      let out ← moveEach engine requests { out with requested := requests.length }
      pure { out with found := decide (0 < out.completed) }
  | .prefetch keys destination => do
      let report ← engine.prefetchWorker keys destination
      pure { out with
        requested := report.requested
        completed := report.populated
        missed := report.missed
        found := decide (0 < report.populated) }
  | .invalidate keys => invalidateEach engine keys { out with requested := keys.length }
  | .pin keys pinned => do
      let out ← pinAll engine pinned keys { out with requested := keys.length }
      pure { out with found := decide (0 < out.completed) }
  | .clear => do
      engine.clear
      pure { out with requested := 1, completed := 1 }
  | .health => do
      let health ← engine.health (List.range engine.count)
      if health.all fun tier => tier.healthy then
        pure { out with requested := 1, health := health, found := true, completed := 1 }
      else pure { out with requested := 1, health := health, found := false, missed := 1 }

/-- `execute`; `elapsed` is what the stopwatch shows in the end, in microseconds. -/
def execute (elapsed : Nat) (job : AsyncKvJob) : KvProgram AsyncKvResult := do
  let out ← perform engine (blank job) job.payload
  pure { out with elapsedMicros := min elapsed u64Max }

end AsyncKv

/-! ### Where the threads stand -/

/-- A call of `submit`, before its next step. -/
inductive Submission where
  /-- `next_id.fetch_add` -/
  | reserve (operation : AsyncKvOperation) (payload : AsyncKvPayload)
  /-- `jobs.insert` -/
  | enlist (job : AsyncKvJob)
  /-- `inflight.fetch_add` -/
  | raise (job : AsyncKvJob)
  /-- `try_send` -/
  | send (job : AsyncKvJob)
  /-- `submitted.fetch_add` -/
  | confirm (job : AsyncKvJob)
  /-- `rollback`: `inflight.fetch_sub` -/
  | lower (job : AsyncKvJob) (error : IoError)
  /-- `rollback`: `jobs.remove` -/
  | strike (job : AsyncKvJob) (error : IoError)
  /-- returned the identifier of the job -/
  | accepted (job : AsyncKvJob)
  /-- returned an error -/
  | rejected (job : AsyncKvJob) (error : IoError)

/-- A call that a job made of the engine, and its answer. -/
abbrev EngineCall := Call KvOp KvOp.Answer

/-- A worker, before its next step. -/
inductive Worker where
  /-- `receiver.recv` -/
  | idle
  /-- `mark_running` -/
  | received (job : AsyncKvJob)
  /-- `execute`, with what is left to do and the calls made so far -/
  | executing (job : AsyncKvJob) (rest : KvProgram AsyncKvResult) (calls : List EngineCall)
  /-- `mark_finished`: `jobs.insert` -/
  | recording (job : AsyncKvJob) (result : Except AsyncKvError AsyncKvResult)
      (calls : List EngineCall)
  /-- `mark_finished`: `completed.fetch_add` or `failed.fetch_add` -/
  | tallying (id : Nat) (success : Bool)
  /-- `mark_finished`: `inflight.fetch_sub` -/
  | releasing (id : Nat)
  /-- returned -/
  | left

/-- A call of `finish`, before its next step. -/
inductive Finish where
  /-- the first load of `inflight` -/
  | enter
  /-- the condition of `wait_timeout_while` -/
  | waiting
  /-- the load after a timeout -/
  | late
  /-- returned -/
  | returned (drained : Bool)
  deriving DecidableEq, Repr

/-- A job that was recorded: its calls of the engine and its result. -/
structure RecordedJob where
  job : AsyncKvJob
  calls : List EngineCall
  result : Except AsyncKvError AsyncKvResult

/-- `State`, the channel, the engine's tiers, and where each thread stands. `recorded` lists the jobs
recorded so far, newest first; nothing reads it. -/
structure PipelineState (τ : Nat → Type) where
  jobs : Nat → Option AsyncKvJobSnapshot
  nextId : Nat
  submitted : Nat
  completed : Nat
  failed : Nat
  inflight : Nat
  sender : Bool
  queue : List AsyncKvJob
  tiers : KvState τ
  submissions : List Submission
  workers : List Worker
  finishes : List Finish
  recorded : List RecordedJob

namespace PipelineState

/-- A call of `submit` goes on to its next step. -/
def moveSubmission (s : PipelineState τ) (index : Nat) (next : Submission) : PipelineState τ :=
  { s with submissions := s.submissions.set index next }

/-- A worker goes on to its next step. -/
def moveWorker (s : PipelineState τ) (index : Nat) (next : Worker) : PipelineState τ :=
  { s with workers := s.workers.set index next }

/-- A call of `finish` goes on to its next step. -/
def moveFinish (s : PipelineState τ) (index : Nat) (next : Finish) : PipelineState τ :=
  { s with finishes := s.finishes.set index next }

/-- `jobs.insert`. -/
def insertJob (s : PipelineState τ) (id : Nat) (job : AsyncKvJobSnapshot) : PipelineState τ :=
  { s with jobs := Function.update s.jobs id (some job) }

/-- `jobs.remove`. -/
def removeJob (s : PipelineState τ) (id : Nat) : PipelineState τ :=
  { s with jobs := Function.update s.jobs id none }

/-- The record of a submitted job. -/
def pendingSnapshot (job : AsyncKvJob) : AsyncKvJobSnapshot :=
  ⟨job.id, job.operation, .pending, none, none⟩

/-- `mark_running`. -/
def markRunning (s : PipelineState τ) (id : Nat) : PipelineState τ :=
  match s.jobs id with
  | some job => s.insertJob id { job with state := .running }
  | none => s

/-- The record of a finished job. -/
def finishedSnapshot (job : AsyncKvJob) :
    Except AsyncKvError AsyncKvResult → AsyncKvJobSnapshot
  | .ok result => ⟨job.id, job.operation, .completed, some result, none⟩
  | .error error => ⟨job.id, job.operation, .failed, none, some error⟩

/-- Is this a finished job? -/
def isTerminal (job : AsyncKvJobSnapshot) : Bool := job.state.terminal

/-- `snapshot`. -/
def snapshot (s : PipelineState τ) (id : Nat) : Option AsyncKvJobSnapshot := s.jobs id

/-- `take`: what it answers, and the state it leaves. -/
def take (s : PipelineState τ) (id : Nat) : Option AsyncKvJobSnapshot × PipelineState τ :=
  match s.jobs id with
  | some job => if isTerminal job then (some job, s.removeJob id) else (some job, s)
  | none => (none, s)

/-- One round of `wait`: its answer, or nothing when it sleeps. `late` tells whether the deadline has
passed. -/
def waitRound (s : PipelineState τ) (id : Nat) (late : Bool) :
    Option (Except IoError AsyncKvJobSnapshot) :=
  match s.snapshot id with
  | none => some (.error ⟨.notFound, s!"unknown async job {id}"⟩)
  | some job =>
      if isTerminal job then some (.ok job)
      else if late then some (.error ⟨.timedOut, s!"async job {id} did not finish before timeout"⟩)
      else none

end PipelineState

/-! ### The pipeline -/

/-- Has the worker returned? -/
def Worker.gone : Worker → Bool
  | .left => true
  | _ => false

/-- `AsyncKvPipeline`. -/
structure AsyncKvPipeline (τ : Nat → Type) where
  engine : KvEngine τ
  workerThreads : Nat
  queueCapacity : Nat
  someWorker : workerThreads ≠ 0
  someRoom : queueCapacity ≠ 0

namespace AsyncKvPipeline

open PipelineState

/-- `AsyncKvPipeline::new`. -/
def new (engine : KvEngine τ) (workerThreads queueCapacity : Nat) :
    Except IoError (AsyncKvPipeline τ) :=
  if zero : workerThreads = 0 ∨ queueCapacity = 0 then
    .error ⟨.invalidInput, "async KV pipeline requires non-zero workers and queue capacity"⟩
  else .ok ⟨engine, workerThreads, queueCapacity, fun none => zero (Or.inl none),
    fun none => zero (Or.inr none)⟩

/-- A new pipeline: `State::new`, an empty queue, and its workers. -/
def initial (pipeline : AsyncKvPipeline τ) (tiers : KvState τ) : PipelineState τ where
  jobs _ := none
  nextId := 0
  submitted := 0
  completed := 0
  failed := 0
  inflight := 0
  sender := true
  queue := []
  tiers := tiers
  submissions := []
  workers := List.replicate pipeline.workerThreads .idle
  finishes := []
  recorded := []

variable (pipeline : AsyncKvPipeline τ)

/-- `try_send`, on the sender if it is still there. A channel whose receivers are gone says so even
when it is full. -/
def trySend (s : PipelineState τ) (job : AsyncKvJob) : Except IoError (PipelineState τ) :=
  if s.sender = false then .error ⟨.brokenPipe, "async KV pipeline is shut down"⟩
  else if s.workers.all Worker.gone then
    .error ⟨.brokenPipe, "async KV pipeline workers are unavailable"⟩
  else if pipeline.queueCapacity ≤ s.queue.length then
    .error ⟨.wouldBlock, "async KV pipeline queue is full"⟩
  else .ok { s with queue := s.queue ++ [job] }

/-- The next step of a call of `submit`, and of its `rollback`. -/
def submitStep (s : PipelineState τ) (index : Nat) : Submission → PipelineState τ
  | .reserve operation payload =>
      { s with nextId := fetchAdd s.nextId 1 }.moveSubmission index
        (.enlist ⟨satAdd s.nextId 1, operation, payload⟩)
  | .enlist job => (s.insertJob job.id (pendingSnapshot job)).moveSubmission index (.raise job)
  | .raise job => { s with inflight := fetchAdd s.inflight 1 }.moveSubmission index (.send job)
  | .send job =>
      match pipeline.trySend s job with
      | .ok sent => sent.moveSubmission index (.confirm job)
      | .error error => s.moveSubmission index (.lower job error)
  | .confirm job =>
      { s with submitted := fetchAdd s.submitted 1 }.moveSubmission index (.accepted job)
  | .lower job error =>
      { s with inflight := fetchSub s.inflight 1 }.moveSubmission index (.strike job error)
  | .strike job error => (s.removeJob job.id).moveSubmission index (.rejected job error)
  | .accepted _ => s
  | .rejected _ _ => s

/-- The next step of a worker, in `worker_loop`. A job that begins to run is given what its stopwatch
will show. -/
def workStep (s : PipelineState τ) (index elapsed : Nat) : Worker → PipelineState τ
  | .idle =>
      match s.queue with
      | job :: rest => { s with queue := rest }.moveWorker index (.received job)
      -- `recv` blocks on an empty channel, until the sender is gone
      | [] => if s.sender then s else s.moveWorker index .left
  | .received job =>
      (s.markRunning job.id).moveWorker index
        (.executing job (AsyncKv.execute pipeline.engine elapsed job) [])
  | .executing job (.call op next) calls =>
      { s with tiers := (pipeline.engine.handle op s.tiers).2 }.moveWorker index
        (.executing job (next (pipeline.engine.handle op s.tiers).1)
          (calls ++ [Call.mk op (pipeline.engine.handle op s.tiers).1]))
  | .executing job (.done outcome) calls =>
      s.moveWorker index (.recording job (outcome.mapError AsyncKvError.ofIoError) calls)
  | .recording job result calls =>
      let inserted := s.insertJob job.id (finishedSnapshot job result)
      { inserted with recorded := ⟨job, calls, result⟩ :: s.recorded }.moveWorker index
        (.tallying job.id result.isOk)
  | .tallying id true =>
      { s with completed := fetchAdd s.completed 1 }.moveWorker index (.releasing id)
  | .tallying id false => { s with failed := fetchAdd s.failed 1 }.moveWorker index (.releasing id)
  | .releasing _ => { s with inflight := fetchSub s.inflight 1 }.moveWorker index .idle
  | .left => s

/-- The next step of a call of `finish`; `timedOut` tells whether its time is up. -/
def finishStep (s : PipelineState τ) (index : Nat) (timedOut : Bool) : Finish → PipelineState τ
  | .enter => s.moveFinish index (if s.inflight = 0 then .returned true else .waiting)
  | .waiting =>
      if s.inflight = 0 then s.moveFinish index (.returned true)
      else if timedOut then s.moveFinish index .late
      else s
  | .late => s.moveFinish index (.returned (decide (s.inflight = 0)))
  | .returned _ => s

/-- The steps of the threads. -/
inductive Label (τ : Nat → Type) where
  /-- a client calls `submit` -/
  | submit (operation : AsyncKvOperation) (payload : AsyncKvPayload)
  /-- the next step of a call of `submit` -/
  | advance (index : Nat)
  /-- the next step of a worker -/
  | work (index elapsed : Nat)
  /-- an idle worker returns, on a broken receiver -/
  | leave (index : Nat)
  /-- a client calls `take` -/
  | take (id : Nat)
  /-- a client calls `finish` -/
  | finish
  /-- the next step of a call of `finish` -/
  | poll (index : Nat) (timedOut : Bool)
  /-- the last handle is dropped, and the sender with it -/
  | shutDown
  /-- another user of the engine changes its tiers -/
  | outside (tiers : KvState τ)

/-- One step. -/
def step : Label τ → PipelineState τ → PipelineState τ
  | .submit operation payload, s =>
      { s with submissions := s.submissions ++ [.reserve operation payload] }
  | .advance index, s =>
      match s.submissions[index]? with
      | some stand => pipeline.submitStep s index stand
      | none => s
  | .work index elapsed, s =>
      match s.workers[index]? with
      | some stand => pipeline.workStep s index elapsed stand
      | none => s
  | .leave index, s =>
      match s.workers[index]? with
      | some .idle => s.moveWorker index .left
      | _ => s
  | .take id, s => (s.take id).2
  | .finish, s => { s with finishes := s.finishes ++ [.enter] }
  | .poll index timedOut, s =>
      match s.finishes[index]? with
      | some stand => finishStep s index timedOut stand
      | none => s
  | .shutDown, s => { s with sender := false }
  | .outside tiers, s => { s with tiers := tiers }

/-! ### Submitting -/

/-- A job for `submit`, when it has work to do. -/
def requireItems {α : Type} (items : List α) (message : String) (operation : AsyncKvOperation)
    (payload : AsyncKvPayload) : Except IoError (AsyncKvOperation × AsyncKvPayload) :=
  if items.isEmpty then .error ⟨.invalidInput, message⟩ else .ok (operation, payload)

/-- `submit_store`. -/
def submitStore (blocks : List KvBlock) (ttl : Option Duration) (pinned : Bool) :
    Except IoError (AsyncKvOperation × AsyncKvPayload) :=
  requireItems blocks "async store requires at least one KV block" .store
    (.store blocks ttl pinned)

/-- `submit_retrieve`. -/
def submitRetrieve (keys : List KvBlockKey) : Except IoError (AsyncKvOperation × AsyncKvPayload) :=
  requireItems keys "async retrieve requires at least one key" .retrieve (.retrieve keys)

/-- `submit_move_many`. -/
def submitMoveMany (keys : List KvBlockKey) (source destination : Nat) (removeSource : Bool) :
    Except IoError (AsyncKvOperation × AsyncKvPayload) :=
  requireItems keys "async move requires at least one key" .move
    (.move (keys.map fun key => ⟨key, source, destination, removeSource⟩))

/-- `submit_move`. -/
def submitMove (key : KvBlockKey) (source destination : Nat) (removeSource : Bool) :
    Except IoError (AsyncKvOperation × AsyncKvPayload) :=
  submitMoveMany [key] source destination removeSource

/-- `submit_prefetch`. -/
def submitPrefetch (keys : List KvBlockKey) (destination : Nat) :
    Except IoError (AsyncKvOperation × AsyncKvPayload) :=
  requireItems keys "async prefetch requires at least one key" .prefetch
    (.prefetch keys destination)

/-- `submit_invalidate`. -/
def submitInvalidate (keys : List KvBlockKey) :
    Except IoError (AsyncKvOperation × AsyncKvPayload) :=
  requireItems keys "async invalidation requires at least one key" .invalidate (.invalidate keys)

/-- `submit_set_pinned`. -/
def submitSetPinned (keys : List KvBlockKey) (pinned : Bool) :
    Except IoError (AsyncKvOperation × AsyncKvPayload) :=
  requireItems keys "async pin operation requires at least one key"
    (if pinned then .pin else .unpin) (.pin keys pinned)

/-- `submit_clear`. -/
def submitClear : AsyncKvOperation × AsyncKvPayload := (.clear, .clear)

/-- `submit_health`. -/
def submitHealth : AsyncKvOperation × AsyncKvPayload := (.health, .health)

end AsyncKvPipeline

end RivetCache
