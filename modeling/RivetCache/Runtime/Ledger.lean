/-
**What a recorded job did.**

A worker runs its job one call at a time, and keeps the calls it has made. `Ledger` says that these are the
calls of the job's program, that a worker has its job from the channel, and that a final record in the job
map is of a recorded job.

* `Did`: run so, the program of the job makes these calls and ends with this result;
* `ledger_step`: every step keeps `Ledger`;
* `Settled`: a recorded job has come to its end, and stays there.
-/

import RivetCache.Runtime.LifeCycle

set_option linter.unusedSectionVars false

namespace RivetCache

open Library PipelineState

variable {τ : Nat → Type}

/-- The channel took the job. -/
def PipelineState.Sent (s : PipelineState τ) (job : AsyncKvJob) : Prop :=
  ∃ (index : Nat) (stand : Submission), s.submissions[index]? = some stand ∧ stand.sentJob = some job

namespace AsyncKvPipeline

/-- Fed with these answers, the job makes these calls and ends with this result. -/
def Did (pipeline : AsyncKvPipeline τ) (job : AsyncKvJob) (calls : List EngineCall)
    (result : Except AsyncKvError AsyncKvResult) : Prop :=
  ∃ elapsed outcome, (AsyncKv.execute pipeline.engine elapsed job).Makes calls outcome ∧
    result = outcome.mapError AsyncKvError.ofIoError

/-- **The invariant**: the jobs in the queue, with the workers and in the record were sent, and the workers
run their programs. -/
structure Ledger (pipeline : AsyncKvPipeline τ) (sent : AsyncKvJob → Prop) (s : PipelineState τ) :
    Prop where
  queued : ∀ job ∈ s.queue, sent job
  working : ∀ (index : Nat) (stand : Worker) (job : AsyncKvJob), s.workers[index]? = some stand →
    stand.job = some job → sent job
  executing : ∀ (index : Nat) (job : AsyncKvJob) (rest : KvProgram AsyncKvResult)
    (calls : List EngineCall), s.workers[index]? = some (.executing job rest calls) →
      ∃ elapsed, (AsyncKv.execute pipeline.engine elapsed job).Continues calls rest
  recording : ∀ (index : Nat) (job : AsyncKvJob) (result : Except AsyncKvError AsyncKvResult)
    (calls : List EngineCall), s.workers[index]? = some (.recording job result calls) →
      pipeline.Did job calls result
  recorded : ∀ entry ∈ s.recorded, sent entry.job ∧ pipeline.Did entry.job entry.calls entry.result
  final : ∀ (id : Nat) (snapshot : AsyncKvJobSnapshot), s.jobs id = some snapshot →
    isTerminal snapshot = true →
      ∃ entry ∈ s.recorded, entry.job.id = id ∧ snapshot = finishedSnapshot entry.job entry.result

namespace Ledger

variable {pipeline : AsyncKvPipeline τ} {sent : AsyncKvJob → Prop} {s : PipelineState τ} {index : Nat}

theorem mono (ledger : pipeline.Ledger sent s) {more : AsyncKvJob → Prop}
    (implied : ∀ job, sent job → more job) : pipeline.Ledger more s where
  queued job inside := implied job (ledger.queued job inside)
  working index stand job stands has := implied job (ledger.working index stand job stands has)
  executing := ledger.executing
  recording := ledger.recording
  recorded entry inside :=
    ⟨implied _ (ledger.recorded entry inside).1, (ledger.recorded entry inside).2⟩
  final := ledger.final

/-- Nothing else counts. -/
theorem congr (ledger : pipeline.Ledger sent s) (after : PipelineState τ) (jobs : after.jobs = s.jobs)
    (queue : after.queue = s.queue) (workers : after.workers = s.workers)
    (recorded : after.recorded = s.recorded) : pipeline.Ledger sent after := by
  obtain ⟨queued, working, executing, recording, entries, final⟩ := ledger
  cases s
  cases after
  cases jobs
  cases queue
  cases workers
  cases recorded
  exact ⟨queued, working, executing, recording, entries, final⟩

/-- A record that is not final is written, or a record is removed. -/
theorem rewrite (ledger : pipeline.Ledger sent s) (id : Nat) (record : Option AsyncKvJobSnapshot)
    (going : ∀ snapshot, record = some snapshot → isTerminal snapshot = false) :
    pipeline.Ledger sent { s with jobs := Function.update s.jobs id record } where
  queued := ledger.queued
  working := ledger.working
  executing := ledger.executing
  recording := ledger.recording
  recorded := ledger.recorded
  final other snapshot found terminal := by
    change Function.update s.jobs id record other = some snapshot at found
    rw [Function.update_apply] at found
    split at found
    case isTrue =>
      rw [going snapshot found] at terminal
      cases terminal
    case isFalse => exact ledger.final other snapshot found terminal

/-- A worker goes on. -/
theorem moves (ledger : pipeline.Ledger sent s) {next : Worker}
    (has : ∀ job, next.job = some job → sent job)
    (runs : ∀ job rest calls, next = .executing job rest calls →
      ∃ elapsed, (AsyncKv.execute pipeline.engine elapsed job).Continues calls rest)
    (did : ∀ job result calls, next = .recording job result calls → pipeline.Did job calls result) :
    pipeline.Ledger sent (s.moveWorker index next) where
  queued := ledger.queued
  working other its job stands holds := by
    rcases getElem?_set_cases stands with ⟨_, rfl⟩ | ⟨_, before⟩
    · exact has job holds
    · exact ledger.working other its job before holds
  executing other job rest calls stands := by
    rcases getElem?_set_cases stands with ⟨_, same⟩ | ⟨_, before⟩
    · exact runs job rest calls same.symm
    · exact ledger.executing other job rest calls before
  recording other job result calls stands := by
    rcases getElem?_set_cases stands with ⟨_, same⟩ | ⟨_, before⟩
    · exact did job result calls same.symm
    · exact ledger.recording other job result calls before
  recorded := ledger.recorded
  final := ledger.final

/-- A worker goes on, without a job. -/
theorem rests (ledger : pipeline.Ledger sent s) {next : Worker} (none_left : next.job = none) :
    pipeline.Ledger sent (s.moveWorker index next) := by
  refine ledger.moves (fun job has => ?_) (fun job rest calls same => ?_)
    fun job result calls same => ?_
  · rw [none_left] at has
    cases has
  · subst same
    cases none_left
  · subst same
    cases none_left

/-- The channel takes a job. -/
theorem enqueues (ledger : pipeline.Ledger sent s) {job : AsyncKvJob} (took : sent job) :
    pipeline.Ledger sent { s with queue := s.queue ++ [job] } where
  queued other inside := by
    rcases List.mem_append.mp inside with before | last
    · exact ledger.queued other before
    · rw [List.mem_singleton.mp last]
      exact took
  working := ledger.working
  executing := ledger.executing
  recording := ledger.recording
  recorded := ledger.recorded
  final := ledger.final

/-- **A step of a submission.** -/
theorem submitStep (ledger : pipeline.Ledger sent s) (stand : Submission)
    (took : ∀ job, stand = .send job → (pipeline.trySend s job).isOk = true → sent job) :
    pipeline.Ledger sent (pipeline.submitStep s index stand) := by
  cases stand with
  | enlist job =>
      refine (ledger.rewrite job.id (some (pendingSnapshot job)) fun snapshot same => ?_).congr _ rfl rfl
        rfl rfl
      cases same
      rfl
  | strike job error =>
      exact (ledger.rewrite job.id none fun snapshot same => by cases same).congr _ rfl rfl rfl rfl
  | send job =>
      simp only [AsyncKvPipeline.submitStep]
      cases tried : pipeline.trySend s job with
      | error error => exact ledger.congr _ rfl rfl rfl rfl
      | ok after =>
          have sends := took job rfl (by rw [tried]; rfl)
          rw [trySend_ok tried]
          exact (ledger.enqueues sends).congr _ rfl rfl rfl rfl
  | reserve | raise | confirm | lower | accepted | rejected => exact ledger.congr _ rfl rfl rfl rfl

/-- A worker takes a job from the queue. -/
theorem receives (ledger : pipeline.Ledger sent s) {job : AsyncKvJob} {rest : List AsyncKvJob}
    (queue : s.queue = job :: rest) :
    pipeline.Ledger sent ({ s with queue := rest }.moveWorker index (.received job)) := by
  have took : sent job := ledger.queued job (by rw [queue]; exact List.mem_cons_self)
  have left : pipeline.Ledger sent { s with queue := rest } :=
    ⟨fun other inside => ledger.queued other (by rw [queue]; exact List.mem_cons_of_mem _ inside),
      ledger.working, ledger.executing, ledger.recording, ledger.recorded, ledger.final⟩
  refine left.moves (fun other has => ?_) (fun _ _ _ same => by cases same)
    fun _ _ _ same => by cases same
  cases has
  exact took

/-- A worker marks its job running. -/
theorem begins (ledger : pipeline.Ledger sent s) {job : AsyncKvJob} (elapsed : Nat)
    (stood : s.workers[index]? = some (.received job)) :
    pipeline.Ledger sent ((s.markRunning job.id).moveWorker index
      (.executing job (AsyncKv.execute pipeline.engine elapsed job) [])) := by
  have took : sent job := ledger.working index _ job stood rfl
  have marked : pipeline.Ledger sent (s.markRunning job.id) := by
    unfold markRunning
    split
    case h_1 old found =>
      refine ledger.rewrite job.id _ fun snapshot same => ?_
      cases same
      rfl
    case h_2 => exact ledger
  refine marked.moves (fun other has => ?_)
    (fun other rest calls same => ?_) fun _ _ _ same => by cases same
  · cases has
    exact took
  · cases same
    exact ⟨elapsed, Program.continues_start _⟩

/-- A worker records the end of its job. -/
theorem records (ledger : pipeline.Ledger sent s) {job : AsyncKvJob}
    {result : Except AsyncKvError AsyncKvResult} {calls : List EngineCall}
    (stood : s.workers[index]? = some (.recording job result calls)) :
    pipeline.Ledger sent { s.insertJob job.id (finishedSnapshot job result) with
      recorded := ⟨job, calls, result⟩ :: s.recorded } where
  queued := ledger.queued
  working := ledger.working
  executing := ledger.executing
  recording := ledger.recording
  recorded entry inside := by
    rcases List.mem_cons.mp inside with rfl | before
    · exact ⟨ledger.working index _ job stood rfl, ledger.recording index job result calls stood⟩
    · exact ledger.recorded entry before
  final id snapshot found terminal := by
    change Function.update s.jobs job.id (some (finishedSnapshot job result)) id = some snapshot at found
    rw [Function.update_apply] at found
    split at found
    case isTrue same =>
      cases found
      exact ⟨_, List.mem_cons_self, same.symm, rfl⟩
    case isFalse =>
      obtain ⟨entry, inside, named, same⟩ := ledger.final id snapshot found terminal
      exact ⟨entry, List.mem_cons_of_mem _ inside, named, same⟩

/-- **A step of a worker.** -/
theorem workStep (ledger : pipeline.Ledger sent s) {stand : Worker}
    (stood : s.workers[index]? = some stand) (elapsed : Nat) :
    pipeline.Ledger sent (pipeline.workStep s index elapsed stand) := by
  cases stand with
  | idle =>
      simp only [AsyncKvPipeline.workStep]
      cases queue : s.queue with
      | nil =>
          cases s.sender with
          | true => exact ledger
          | false => exact ledger.rests rfl
      | cons job rest => exact ledger.receives queue
  | received job => exact ledger.begins elapsed stood
  | executing job rest calls =>
      have took : sent job := ledger.working index _ job stood rfl
      obtain ⟨started, so_far⟩ := ledger.executing index job rest calls stood
      cases rest with
      | call op next =>
          have same : pipeline.Ledger sent { s with tiers := (pipeline.engine.handle op s.tiers).2 } :=
            ledger.congr _ rfl rfl rfl rfl
          refine same.moves (fun other has => ?_) (fun other rest calls same => ?_)
            fun _ _ _ same => by cases same
          · cases has
            exact took
          · cases same
            exact ⟨started, so_far.call _⟩
      | done outcome =>
          refine ledger.moves (fun other has => ?_) (fun _ _ _ same => by cases same)
            fun other result calls same => ?_
          · cases has
            exact took
          · cases same
            exact ⟨started, outcome, so_far.ended, rfl⟩
  | recording job result calls => exact (ledger.records stood).rests rfl
  | tallying id success =>
      cases success with
      | true =>
          have same : pipeline.Ledger sent { s with completed := fetchAdd s.completed 1 } :=
            ledger.congr _ rfl rfl rfl rfl
          exact same.rests rfl
      | false =>
          have same : pipeline.Ledger sent { s with failed := fetchAdd s.failed 1 } :=
            ledger.congr _ rfl rfl rfl rfl
          exact same.rests rfl
  | releasing id =>
      have same : pipeline.Ledger sent { s with inflight := fetchSub s.inflight 1 } :=
        ledger.congr _ rfl rfl rfl rfl
      exact same.rests rfl
  | left => exact ledger

end Ledger

variable {pipeline : AsyncKvPipeline τ} {s : PipelineState τ} {index : Nat}

/-- A job that was sent stays sent. -/
theorem sent_step (label : Label τ) {job : AsyncKvJob} (sent : s.Sent job) :
    (pipeline.step label s).Sent job := by
  obtain ⟨own, stand, stands, has⟩ := sent
  obtain ⟨next, there, follows⟩ := follows_step pipeline label stands
  exact ⟨own, next, there, follows.sentJob job has⟩

/-- **Every step keeps the ledger.** -/
theorem ledger_step (label : Label τ) (ledger : pipeline.Ledger s.Sent s) :
    pipeline.Ledger (pipeline.step label s).Sent (pipeline.step label s) := by
  have before : pipeline.Ledger (pipeline.step label s).Sent s :=
    ledger.mono fun job sent => sent_step label sent
  cases label with
  | submit operation payload => exact before.congr _ rfl rfl rfl rfl
  | advance index =>
      generalize done : (pipeline.step (.advance index) s).Sent = sent at before ⊢
      simp only [step] at done ⊢
      cases stood : s.submissions[index]? with
      | none => exact before
      | some stand =>
          rw [stood] at done
          refine before.submitStep stand fun job same accepted => ?_
          subst same
          rw [← done]
          simp only [submitStep]
          cases tried : pipeline.trySend s job with
          | error error =>
              rw [tried] at accepted
              cases accepted
          | ok after =>
              rw [trySend_ok tried]
              exact ⟨index, .confirm job, getElem?_set_of_some stood, rfl⟩
  | work index elapsed =>
      generalize (pipeline.step (.work index elapsed) s).Sent = sent at before ⊢
      simp only [step]
      cases stood : s.workers[index]? with
      | none => exact before
      | some stand => exact before.workStep stood elapsed
  | leave index =>
      generalize (pipeline.step (.leave index) s).Sent = sent at before ⊢
      simp only [step]
      split
      case h_1 => exact before.rests rfl
      case h_2 => exact before
  | take id =>
      generalize (pipeline.step (.take id) s).Sent = sent at before ⊢
      simp only [step, take]
      cases s.jobs id with
      | none => exact before
      | some job =>
          dsimp only
          split
          · exact before.rewrite id none fun snapshot same => by cases same
          · exact before
  | finish => exact before.congr _ rfl rfl rfl rfl
  | poll index timedOut =>
      generalize (pipeline.step (.poll index timedOut) s).Sent = sent at before ⊢
      simp only [step]
      cases s.finishes[index]? with
      | none => exact before
      | some stand =>
          show pipeline.Ledger sent (finishStep s index timedOut stand)
          rw [finishStep_eq]
          exact before.congr _ rfl rfl rfl rfl
  | shutDown => exact before.congr _ rfl rfl rfl rfl
  | outside tiers => exact before.congr _ rfl rfl rfl rfl

theorem ledger_initial (pipeline : AsyncKvPipeline τ) (tiers : KvState τ) :
    pipeline.Ledger (pipeline.initial tiers).Sent (pipeline.initial tiers) where
  queued job inside := by cases inside
  working index stand job stands has := by
    rw [List.eq_of_mem_replicate (List.mem_of_getElem? stands)] at has
    cases has
  executing index job rest calls stands := by
    cases List.eq_of_mem_replicate (List.mem_of_getElem? stands)
  recording index job result calls stands := by
    cases List.eq_of_mem_replicate (List.mem_of_getElem? stands)
  recorded entry inside := by cases inside
  final id snapshot found := by cases found

/-! ### Jobs at their end -/

/-- **The job has come to this end**: it was sent, it ran so, and its record says so until it is taken. -/
structure Settled (pipeline : AsyncKvPipeline τ) (s : PipelineState τ) (entry : RecordedJob) : Prop where
  recorded : entry ∈ s.recorded
  sent : s.Sent entry.job
  did : pipeline.Did entry.job entry.calls entry.result
  record : ∀ snapshot, s.jobs entry.job.id = some snapshot →
    snapshot = finishedSnapshot entry.job entry.result

/-- What was recorded stays recorded. -/
theorem recorded_step (label : Label τ) {entry : RecordedJob} (inside : entry ∈ s.recorded) :
    entry ∈ (pipeline.step label s).recorded := by
  cases label with
  | advance own =>
      simp only [step]
      cases s.submissions[own]? with
      | none => exact inside
      | some stand =>
          cases stand with
          | send job =>
              simp only [submitStep]
              cases tried : pipeline.trySend s job with
              | error error => exact inside
              | ok after =>
                  rw [trySend_ok tried]
                  exact inside
          | _ => exact inside
  | work own elapsed =>
      simp only [step]
      cases s.workers[own]? with
      | none => exact inside
      | some stand =>
          cases stand with
          | idle =>
              simp only [workStep]
              cases s.queue with
              | nil => cases s.sender <;> exact inside
              | cons job rest => exact inside
          | received job =>
              show entry ∈ (s.markRunning job.id).recorded
              rw [markRunning_eq]
              exact inside
          | executing job rest calls => cases rest <;> exact inside
          | recording job result calls => exact List.mem_cons_of_mem _ inside
          | tallying id success => cases success <;> exact inside
          | releasing | left => exact inside
  | leave own =>
      simp only [step]
      split <;> exact inside
  | take id =>
      show entry ∈ (s.take id).2.recorded
      rw [take_eq]
      exact inside
  | poll own timedOut =>
      simp only [step]
      cases s.finishes[own]? with
      | none => exact inside
      | some stand =>
          show entry ∈ (finishStep s own timedOut stand).recorded
          rw [finishStep_eq]
          exact inside
  | submit | finish | shutDown | outside => exact inside

theorem accepted_of_sent {job : AsyncKvJob} (sent : s.Sent job) : s.Accepted job.id := by
  obtain ⟨own, stand, stands, has⟩ := sent
  refine ⟨own, stand, stands, ?_⟩
  rw [Submission.sentTicket_eq, has]
  rfl

/-- **A job that has come to its end** stays there. -/
theorem Settled.step {entry : RecordedJob} (settled : pipeline.Settled s entry) (orderly : s.Orderly)
    (label : Label τ) : pipeline.Settled (pipeline.step label s) entry := by
  refine ⟨recorded_step label settled.recorded, sent_step label settled.sent, settled.did,
    fun snapshot found => ?_⟩
  have moves : Moves (label = .take entry.job.id) (s.jobs entry.job.id)
      ((pipeline.step label s).jobs entry.job.id) :=
    step_moves orderly label (accepted_of_sent settled.sent)
  have record := settled.record
  rw [found] at moves
  generalize s.jobs entry.job.id = before at moves record
  cases moves with
  | stay => exact record snapshot rfl
  | run job =>
      have same := congrArg isTerminal (record _ rfl)
      rw [isTerminal_pending, isTerminal_finished] at same
      cases same
  | settle job result =>
      have same := congrArg isTerminal (record _ rfl)
      rw [isTerminal_running, isTerminal_finished] at same
      cases same

/-- A final record is of a job that has come to its end. -/
theorem Ledger.settled (ledger : pipeline.Ledger s.Sent s) {id : Nat} {snapshot : AsyncKvJobSnapshot}
    (found : s.jobs id = some snapshot) (terminal : isTerminal snapshot = true) :
    ∃ entry, pipeline.Settled s entry ∧ entry.job.id = id ∧
      snapshot = finishedSnapshot entry.job entry.result := by
  obtain ⟨entry, inside, rfl, rfl⟩ := ledger.final id snapshot found terminal
  obtain ⟨sent, did⟩ := ledger.recorded entry inside
  refine ⟨entry, ⟨inside, sent, did, fun other its => ?_⟩, rfl, rfl⟩
  rw [found] at its
  exact (Option.some.inj its).symm

end AsyncKvPipeline

end RivetCache
