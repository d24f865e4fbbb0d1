/-
**The calls of one job.**

The workers keep the calls of their jobs, and a recorded job has all of its own. So whatever is true of
every call that is made for a job while it runs is true of the calls that are recorded with it.

* `SentAt`: the job of a submission;
* `Watched`: the calls of some jobs, with the workers and in the record;
* `watched_step`: a step keeps it for the job of a submission, where the engine answers that job so;
* `did_prefetch`: the result of a prefetch counts the blocks that stay.
-/

import RivetCache.Kv.Kept
import RivetCache.Runtime.Results

set_option linter.unusedSectionVars false

namespace RivetCache

open Library PipelineState

variable {τ : Nat → Type}

/-- The job of a worker, with the calls that were made for it so far. -/
def Worker.log : Worker → Option (AsyncKvJob × List EngineCall)
  | .executing job _ calls => some (job, calls)
  | .recording job _ calls => some (job, calls)
  | _ => none

namespace PipelineState

/-- The channel took the job of this submission. -/
def SentAt (s : PipelineState τ) (submission : Nat) (job : AsyncKvJob) : Prop :=
  ∃ stand, s.submissions[submission]? = some stand ∧ stand.sentJob = some job

/-- **The calls of these jobs** are all of this kind. -/
structure Watched (mine : AsyncKvJob → Prop) (fine : EngineCall → Prop) (s : PipelineState τ) : Prop where
  working : ∀ (index : Nat) (stand : Worker) (job : AsyncKvJob) (calls : List EngineCall),
    s.workers[index]? = some stand → stand.log = some (job, calls) → mine job → ∀ call ∈ calls, fine call
  recorded : ∀ entry ∈ s.recorded, mine entry.job → ∀ call ∈ entry.calls, fine call

namespace Watched

variable {mine : AsyncKvJob → Prop} {fine : EngineCall → Prop} {s : PipelineState τ} {index : Nat}

/-- Nothing else counts. -/
theorem congr (watched : s.Watched mine fine) (after : PipelineState τ)
    (workers : after.workers = s.workers) (recorded : after.recorded = s.recorded) :
    after.Watched mine fine :=
  ⟨by rw [workers]; exact watched.working, by rw [recorded]; exact watched.recorded⟩

/-- A worker goes on. -/
theorem moves (watched : s.Watched mine fine) {next : Worker}
    (logs : ∀ job calls, next.log = some (job, calls) → mine job → ∀ call ∈ calls, fine call) :
    (s.moveWorker index next).Watched mine fine where
  working other stand job calls stands log := by
    rcases getElem?_set_cases stands with ⟨_, rfl⟩ | ⟨_, before⟩
    · exact logs job calls log
    · exact watched.working other stand job calls before log
  recorded := watched.recorded

/-- A worker goes on, without a job. -/
theorem rests (watched : s.Watched mine fine) {next : Worker} (none_left : next.log = none) :
    (s.moveWorker index next).Watched mine fine :=
  watched.moves fun job calls log => by
    rw [none_left] at log
    cases log

/-- **A step of a worker**, where the engine answers these jobs so. -/
theorem workStep (watched : s.Watched mine fine) (pipeline : AsyncKvPipeline τ) {stand : Worker}
    (stood : s.workers[index]? = some stand)
    (answers : ∀ job rest calls, stand = .executing job rest calls → mine job →
      ∀ op, fine ⟨op, (pipeline.engine.handle op s.tiers).1⟩) (elapsed : Nat) :
    (pipeline.workStep s index elapsed stand).Watched mine fine := by
  cases stand with
  | idle =>
      simp only [AsyncKvPipeline.workStep]
      cases s.queue with
      | nil =>
          cases s.sender with
          | true => exact watched
          | false => exact watched.rests rfl
      | cons job rest => exact (watched.congr { s with queue := rest } rfl rfl).rests rfl
  | received job =>
      have marked : (s.markRunning job.id).Watched mine fine := by
        rw [markRunning_eq]
        exact watched.congr _ rfl rfl
      refine marked.moves fun own calls log _ call inside => ?_
      cases log
      cases inside
  | executing job rest calls =>
      have so_far := watched.working index _ job calls stood rfl
      cases rest with
      | call op next =>
          have same : PipelineState.Watched mine fine
            { s with tiers := (pipeline.engine.handle op s.tiers).2 } := watched.congr _ rfl rfl
          refine same.moves fun own made log its call inside => ?_
          cases log
          rcases List.mem_append.mp inside with before | last
          · exact so_far its call before
          · rw [List.mem_singleton.mp last]
            exact answers _ _ _ rfl its op
      | done outcome =>
          refine watched.moves fun own made log its => ?_
          cases log
          exact so_far its
  | recording job result calls =>
      have so_far := watched.working index _ job calls stood rfl
      have kept : PipelineState.Watched mine fine { s.insertJob job.id (finishedSnapshot job result) with
          recorded := ⟨job, calls, result⟩ :: s.recorded } := by
        refine ⟨watched.working, fun entry inside its => ?_⟩
        rcases List.mem_cons.mp inside with rfl | before
        · exact so_far its
        · exact watched.recorded entry before its
      exact kept.rests rfl
  | tallying id success =>
      cases success with
      | true => exact (watched.congr { s with completed := fetchAdd s.completed 1 } rfl rfl).rests rfl
      | false => exact (watched.congr { s with failed := fetchAdd s.failed 1 } rfl rfl).rests rfl
  | releasing id => exact (watched.congr { s with inflight := fetchSub s.inflight 1 } rfl rfl).rests rfl
  | left => exact watched

end Watched

end PipelineState

namespace AsyncKvPipeline

variable {pipeline : AsyncKvPipeline τ} {mine : AsyncKvJob → Prop} {fine : EngineCall → Prop}
  {s : PipelineState τ} {submission : Nat}

/-- A step, where the jobs are the same before and after. -/
theorem watched_onward (label : Label τ) (watched : s.Watched mine fine)
    (answers : ∀ index elapsed job rest calls, label = .work index elapsed →
      s.workers[index]? = some (.executing job rest calls) → mine job →
        ∀ op, fine ⟨op, (pipeline.engine.handle op s.tiers).1⟩) :
    (pipeline.step label s).Watched mine fine := by
  cases label with
  | advance index =>
      simp only [step]
      cases s.submissions[index]? with
      | none => exact watched
      | some stand =>
          cases stand with
          | send job =>
              simp only [submitStep]
              cases tried : pipeline.trySend s job with
              | error error => exact watched.congr _ rfl rfl
              | ok after =>
                  rw [trySend_ok tried]
                  exact watched.congr _ rfl rfl
          | _ => exact watched.congr _ rfl rfl
  | work index elapsed =>
      simp only [step]
      cases stood : s.workers[index]? with
      | none => exact watched
      | some stand =>
          refine watched.workStep pipeline stood (fun job rest calls same its => ?_) elapsed
          subst same
          exact answers index elapsed job rest calls rfl stood its
  | leave index =>
      simp only [step]
      split
      case h_1 => exact watched.rests rfl
      case h_2 => exact watched
  | take id =>
      show (s.take id).2.Watched mine fine
      rw [take_eq]
      exact watched.congr _ rfl rfl
  | poll index timedOut =>
      simp only [step]
      cases s.finishes[index]? with
      | none => exact watched
      | some stand =>
          show (finishStep s index timedOut stand).Watched mine fine
          rw [finishStep_eq]
          exact watched.congr _ rfl rfl
  | submit | finish | shutDown | outside => exact watched.congr _ rfl rfl

/-- The job of a submission stays there. -/
theorem sentAt_step (label : Label τ) {job : AsyncKvJob} (sent : s.SentAt submission job) :
    (pipeline.step label s).SentAt submission job := by
  obtain ⟨stand, stands, has⟩ := sent
  obtain ⟨next, there, follows⟩ := follows_step pipeline label stands
  exact ⟨next, there, follows.sentJob job has⟩

/-- A job has one submission. -/
theorem sentAt_unique (orderly : s.Orderly) {other : Nat} {job : AsyncKvJob}
    (sent : s.SentAt submission job) (also : s.SentAt other job) : other = submission := by
  obtain ⟨stand, stands, has⟩ := sent
  obtain ⟨its, there, its_job⟩ := also
  have ticket : ∀ {own : Submission}, own.sentJob = some job → own.ticket = some job.id := by
    intro own sends
    refine Submission.ticket_of_sentTicket ?_
    rw [Submission.sentTicket_eq, sends]
    rfl
  exact orderly.ticketed.distinct other submission its stand job.id there stands (ticket its_job) (ticket has)

/-- **A step keeps it for the job of a submission**, where the engine answers that job so. -/
theorem watched_step (label : Label τ) (ledger : pipeline.Ledger s.Sent s)
    (orderly : (pipeline.step label s).Orderly) (watched : s.Watched (s.SentAt submission) fine)
    (answers : ∀ index elapsed job rest calls, label = .work index elapsed →
      s.workers[index]? = some (.executing job rest calls) → s.SentAt submission job →
        ∀ op, fine ⟨op, (pipeline.engine.handle op s.tiers).1⟩) :
    (pipeline.step label s).Watched ((pipeline.step label s).SentAt submission) fine := by
  -- a job that a worker has, or that was recorded, was sent before this step
  have before : ∀ {job : AsyncKvJob}, s.Sent job → (pipeline.step label s).SentAt submission job →
      s.SentAt submission job := by
    rintro job ⟨own, sent⟩ later
    have same := sentAt_unique orderly later (sentAt_step label sent)
    subst same
    exact sent
  have watched_before : s.Watched ((pipeline.step label s).SentAt submission) fine := by
    refine ⟨fun index stand job calls stands log later => ?_, fun entry inside later => ?_⟩
    · have working : stand.job = some job := by
        cases stand <;> cases log <;> rfl
      exact watched.working index stand job calls stands log
        (before (ledger.working index stand job stands working) later)
    · exact watched.recorded entry inside (before (ledger.recorded entry inside).1 later)
  refine watched_onward label watched_before fun index elapsed job rest calls same stands later => ?_
  exact answers index elapsed job rest calls same stands
    (before (ledger.working index _ job stands rfl) later)

/-- A submission to come has no job. -/
theorem watched_start (unmade : s.submissions.length ≤ submission) :
    s.Watched (s.SentAt submission) fine := by
  have none_sent : ∀ job, ¬ s.SentAt submission job := by
    rintro job ⟨stand, stands, _⟩
    exact absurd (List.getElem?_eq_some_iff.mp stands).1 (Nat.not_lt.mpr unmade)
  exact ⟨fun _ _ job _ _ _ sent => absurd sent (none_sent job),
    fun entry _ sent => absurd sent (none_sent entry.job)⟩

/-! ### What a prefetch did -/

/-- **A prefetch that has succeeded** counts the blocks that stay. -/
theorem did_prefetch {places : KvBlockKey → Option Nat} {times : Set Nat} {job : AsyncKvJob}
    {calls : List EngineCall} {value : AsyncKvResult} {keys : List KvBlockKey} {destination : Nat}
    (did : pipeline.Did job calls (.ok value)) (prefetches : job.payload = .prefetch keys destination)
    (inside : ∀ key tier, places key = some tier → tier < pipeline.engine.count)
    (sees : KvEngine.AllSee places times calls) :
    min (keys.countP (KvEngine.staysSomewhere places)) u64Max ≤ value.completed := by
  obtain ⟨elapsed, made⟩ := did.makes
  obtain ⟨out, earlier, later, rfl, performs, _, finish⟩ := Program.makes_bind_ok made
  cases finish
  rw [prefetches] at performs
  obtain ⟨report, first, last, rfl, worked, _, told⟩ := Program.makes_bind_ok performs
  cases told
  exact KvEngine.prefetchWorker_counts inside worked sees.append.1.append.1

end AsyncKvPipeline

end RivetCache
