/-
**Where a job is.**

Of an accepted job whose record is not final there is one copy, in the queue or with a worker; of any
other job there is none. What the job map says of a job is what the place of its copy says: pending
with its submission and in the queue, running with a worker.

`Located` is the invariant; it rests on the identifiers being distinct (`Ticketed`), so that what one
thread writes to the record of its job does not meet the record of another.
-/

import RivetCache.Runtime.Counters

set_option linter.unusedSectionVars false

namespace RivetCache

open Library

namespace PipelineState

variable {τ : Nat → Type}

/-- Where the jobs are, and what the job map says of them. -/
structure Located (s : PipelineState τ) : Prop where
  copies : ∀ id, s.copies id = if unsettled (s.jobs id) then s.sends id else 0
  outstanding : s.outstanding = s.queue.length + s.workers.countP Worker.working
  waiting : ∀ (index : Nat) (stand : Submission) (job : AsyncKvJob),
    s.submissions[index]? = some stand → stand.waitingJob = some job →
      s.jobs job.id = some (pendingSnapshot job)
  struck : ∀ (index : Nat) (job : AsyncKvJob) (error : IoError),
    s.submissions[index]? = some (.rejected job error) → s.jobs job.id = none
  queued : ∀ job ∈ s.queue, s.jobs job.id = some (pendingSnapshot job)
  received : ∀ (index : Nat) (job : AsyncKvJob), s.workers[index]? = some (.received job) →
    s.jobs job.id = some (pendingSnapshot job)
  running : ∀ (index : Nat) (stand : Worker) (job : AsyncKvJob),
    s.workers[index]? = some stand → stand.runningJob = some job →
      s.jobs job.id = some (runningSnapshot job)

namespace Located

variable {s : PipelineState τ} {index : Nat}

/-! ### Copies -/

/-- A job of which there is a copy was accepted, and its record is not final. -/
theorem of_copies (located : s.Located) {id : Nat} (some_copy : 0 < s.copies id) :
    unsettled (s.jobs id) = true ∧ s.Accepted id := by
  rw [located.copies id] at some_copy
  split at some_copy
  case isTrue open_record => exact ⟨open_record, sends_pos_iff.mp some_copy⟩
  case isFalse => exact absurd some_copy (lt_irrefl 0)

/-- There is no second copy. -/
theorem copies_le_one (located : s.Located) (ticketed : s.Ticketed) (id : Nat) :
    s.copies id ≤ 1 := by
  rw [located.copies id]
  split
  · exact ticketed.sends_le_one id
  · exact Nat.zero_le 1

theorem copies_of_queue {job : AsyncKvJob} (inside : job ∈ s.queue) : 0 < s.copies job.id := by
  have counts : 0 < s.queue.countP (fun other => decide (other.id = job.id)) :=
    List.countP_pos_iff.mpr ⟨job, inside, decide_eq_true rfl⟩
  unfold PipelineState.copies
  omega

theorem copies_of_worker {stand : Worker} {job : AsyncKvJob}
    (stood : s.workers[index]? = some stand) (held : stand.job = some job) :
    0 < s.copies job.id := by
  have counts := countP_pos_of_getElem? stood (Worker.holds_of_job held)
  unfold PipelineState.copies
  omega

/-- The job of a worker is not in the queue. -/
theorem not_queued (located : s.Located) (ticketed : s.Ticketed) {stand : Worker}
    {job other : AsyncKvJob} (stood : s.workers[index]? = some stand) (held : stand.job = some job)
    (inside : other ∈ s.queue) : other.id ≠ job.id := by
  intro same
  have one := located.copies_le_one ticketed job.id
  have with_worker := countP_pos_of_getElem? stood (Worker.holds_of_job held)
  have in_queue : 0 < s.queue.countP (fun other => decide (other.id = job.id)) :=
    List.countP_pos_iff.mpr ⟨other, inside, decide_eq_true same⟩
  unfold PipelineState.copies at one
  omega

/-- No two workers have the same job. -/
theorem worker_alone (located : s.Located) (ticketed : s.Ticketed) {other : Nat}
    {stand its : Worker} {job held : AsyncKvJob} (stood : s.workers[index]? = some stand)
    (holds : stand.job = some job) (stands : s.workers[other]? = some its)
    (also : its.job = some held) (same : held.id = job.id) : other = index := by
  by_contra apart
  have one := located.copies_le_one ticketed job.id
  have two := two_le_countP (p := Worker.holds job.id) (Ne.symm apart) stood stands
    (Worker.holds_of_job holds) (same ▸ Worker.holds_of_job also)
  unfold PipelineState.copies at one
  omega

/-- A submission that is not sent is of no job of which there is a copy. -/
theorem ticket_ne (located : s.Located) (ticketed : s.Ticketed) {stand : Submission} {id other : Nat}
    (stood : s.submissions[index]? = some stand) (has : stand.ticket = some id)
    (unsent : stand.sentTicket = none) (some_copy : 0 < s.copies other) : id ≠ other := by
  rintro rfl
  have sent := sends_pos_iff.mpr (located.of_copies some_copy).2
  have none_sent := ticketed.sends_eq_zero stood has unsent
  omega

/-- Nothing else counts. -/
theorem congr (located : s.Located) (after : PipelineState τ) (jobs : after.jobs = s.jobs)
    (queue : after.queue = s.queue) (submissions : after.submissions = s.submissions)
    (workers : after.workers = s.workers) : after.Located := by
  obtain ⟨copies, outstanding, waiting, struck, queued, received, running⟩ := located
  cases s
  cases after
  cases jobs
  cases queue
  cases submissions
  cases workers
  exact ⟨copies, outstanding, waiting, struck, queued, received, running⟩

/-! ### Submissions -/

/-- A submission goes on, and the channel has its job as before. -/
theorem callMoves (located : s.Located) {stand next : Submission}
    (stood : s.submissions[index]? = some stand) (same : next.sentTicket = stand.sentTicket)
    (waits : ∀ job, next.waitingJob = some job → s.jobs job.id = some (pendingSnapshot job))
    (gone : ∀ job error, next = .rejected job error → s.jobs job.id = none) :
    (s.moveSubmission index next).Located := by
  have sends : ∀ id, (s.moveSubmission index next).sends id = s.sends id := by
    intro id
    have moved := countP_set (p := Submission.sentAs id) stood next
    simp only [Submission.sentAs, same] at moved
    exact Nat.add_right_cancel moved
  refine ⟨?_, ?_, ?_, ?_, located.queued, located.received, located.running⟩
  · intro id
    rw [sends]
    exact located.copies id
  · have moved := countP_set (p := fun stand : Submission =>
      (stand.sentTicket.map fun id => unsettled (s.jobs id)).getD false) stood next
    simp only [same] at moved
    exact (Nat.add_right_cancel moved).trans located.outstanding
  · intro other its job stands waiting
    rcases getElem?_set_cases stands with ⟨_, rfl⟩ | ⟨_, stands⟩
    · exact waits job waiting
    · exact located.waiting other its job stands waiting
  · intro other job error stands
    rcases getElem?_set_cases stands with ⟨_, same⟩ | ⟨_, stands⟩
    · exact gone job error same.symm
    · exact located.struck other job error stands

/-- The record of a submission that is not sent is written or removed. -/
theorem rewriteUnsent (located : s.Located) (ticketed : s.Ticketed) {stand : Submission} {id : Nat}
    (stood : s.submissions[index]? = some stand) (has : stand.ticket = some id)
    (unsent : stand.sentTicket = none) (still : stand.waitingJob = none)
    (stays : ∀ job error, stand ≠ .rejected job error) (record : Option AsyncKvJobSnapshot) :
    ({ s with jobs := Function.update s.jobs id record } : PipelineState τ).Located := by
  have none_sent := ticketed.sends_eq_zero stood has unsent
  have others : ∀ {other : Nat}, 0 < s.copies other →
      Function.update s.jobs id record other = s.jobs other := fun some_copy =>
    Function.update_of_ne (located.ticket_ne ticketed stood has unsent some_copy).symm _ _
  refine ⟨?_, ?_, ?_, ?_, ?_, ?_, ?_⟩
  · intro other
    by_cases same : other = id
    · subst same
      show s.copies other = if _ then s.sends other else 0
      rw [located.copies other, none_sent, ite_self, ite_self]
    · show s.copies other = if unsettled (Function.update s.jobs id record other) then _ else 0
      rw [Function.update_of_ne same]
      exact located.copies other
  · have counts := countP_flag Submission.sentTicket
      (fun other => unsettled (s.jobs other))
      (fun other => unsettled (Function.update s.jobs id record other)) id
      (fun other apart => by rw [Function.update_of_ne apart]) s.submissions
    have none_counted : (s.submissions.countP fun stand => decide (stand.sentTicket = some id)) = 0 :=
      none_sent
    rw [none_counted, ite_self, ite_self] at counts
    exact counts.trans located.outstanding
  · intro other its job stands waits
    have apart : job.id ≠ id := by
      intro same
      have one := ticketed.distinct index other stand its id stood stands has
        (same ▸ (Submission.ticket_of_waitingJob waits).1)
      subst one
      rw [stood] at stands
      cases stands
      rw [still] at waits
      cases waits
    show Function.update s.jobs id record job.id = _
    rw [Function.update_of_ne apart]
    exact located.waiting other its job stands waits
  · intro other its error stands
    have apart : its.id ≠ id := by
      rintro rfl
      have one := ticketed.distinct index other stand _ its.id stood stands has rfl
      subst one
      rw [stood] at stands
      cases stands
      exact stays its error rfl
    show Function.update s.jobs id record its.id = none
    rw [Function.update_of_ne apart]
    exact located.struck other its error stands
  · intro job inside
    exact (others (copies_of_queue inside)).trans (located.queued job inside)
  · intro other job stands
    exact (others (copies_of_worker stands rfl)).trans (located.received other job stands)
  · intro other its job stands runs
    exact (others (copies_of_worker stands (Worker.job_of_runningJob runs))).trans
      (located.running other its job stands runs)

/-- The channel takes a job. -/
theorem sent (located : s.Located) {job : AsyncKvJob}
    (stood : s.submissions[index]? = some (.send job)) :
    ({ s with queue := s.queue ++ [job] }.moveSubmission index (.confirm job)).Located := by
  have record := located.waiting index _ job stood rfl
  refine ⟨?_, ?_, ?_, ?_, ?_, located.received, located.running⟩
  · intro id
    have one_more : (s.submissions.set index (.confirm job)).countP (Submission.sentAs id) =
        s.sends id + if job.id = id then 1 else 0 := by
      have moved := countP_set (p := Submission.sentAs id) stood (.confirm job)
      by_cases same : job.id = id <;>
        simpa [Submission.sentAs, Submission.sentTicket, same, sends] using moved
    have queued : (s.queue ++ [job]).countP (fun other => decide (other.id = id)) =
        s.queue.countP (fun other => decide (other.id = id)) + if job.id = id then 1 else 0 := by
      rw [List.countP_append, List.countP_singleton]
      by_cases same : job.id = id <;> simp [same]
    have before := located.copies id
    show (s.queue ++ [job]).countP (fun other => decide (other.id = id)) +
        s.workers.countP (Worker.holds id) = if unsettled (s.jobs id) then
          (s.submissions.set index (.confirm job)).countP (Submission.sentAs id) else 0
    unfold PipelineState.copies at before
    rw [one_more, queued]
    by_cases same : job.id = id
    · have pending : unsettled (s.jobs id) = true := by
        rw [← same, record]
        rfl
      rw [pending, if_pos rfl] at before ⊢
      omega
    · rw [if_neg same, Nat.add_zero, Nat.add_zero]
      exact before
  · have moved := countP_set (p := fun stand : Submission =>
      (stand.sentTicket.map fun id => unsettled (s.jobs id)).getD false) stood (.confirm job)
    have pending : unsettled (s.jobs job.id) = true := by
      rw [record]
      rfl
    simp only [Submission.sentTicket, Option.map_none, Option.map_some, Option.getD_none,
      Option.getD_some, pending, Bool.toNat_true, Bool.toNat_false, Nat.add_zero] at moved
    refine moved.trans ((congrArg (· + 1) located.outstanding).trans ?_)
    show _ = (s.queue ++ [job]).length + s.workers.countP Worker.working
    rw [List.length_append, List.length_singleton]
    omega
  · intro other its held stands waits
    rcases getElem?_set_cases stands with ⟨_, rfl⟩ | ⟨_, stands⟩
    · cases waits
    · exact located.waiting other its held stands waits
  · intro other its error stands
    rcases getElem?_set_cases stands with ⟨_, same⟩ | ⟨_, stands⟩
    · cases same
    · exact located.struck other its error stands
  · intro other inside
    rcases List.mem_append.mp inside with inside | last
    · exact located.queued other inside
    · rw [List.mem_singleton.mp last]
      exact record

/-- **A step of a submission** keeps where the jobs are. -/
theorem submitStep (pipeline : AsyncKvPipeline τ) {stand : Submission} (located : s.Located)
    (ticketed : s.Ticketed) (stood : s.submissions[index]? = some stand) :
    (pipeline.submitStep s index stand).Located := by
  cases stand with
  | reserve operation payload =>
      have same : ({ s with nextId := fetchAdd s.nextId 1 } : PipelineState τ).Located  :=
        located.congr _ rfl rfl rfl rfl
      exact same.callMoves stood rfl (fun _ waits => by cases waits) fun _ _ gone => by cases gone
  | enlist job =>
      have written := located.rewriteUnsent ticketed stood rfl rfl rfl (fun _ _ same => by cases same)
        (some (pendingSnapshot job))
      refine written.callMoves stood rfl (fun waiting waits => ?_) fun _ _ gone => by cases gone
      cases waits
      exact Function.update_self _ _ _
  | raise job =>
      have same : ({ s with inflight := fetchAdd s.inflight 1 } : PipelineState τ).Located  :=
        located.congr _ rfl rfl rfl rfl
      refine same.callMoves stood rfl (fun waiting waits => ?_) fun _ _ gone => by cases gone
      cases waits
      exact located.waiting index _ job stood rfl
  | send job =>
      simp only [AsyncKvPipeline.submitStep]
      cases tried : pipeline.trySend s job with
      | error error =>
          exact located.callMoves stood rfl (fun _ waits => by cases waits)
            fun _ _ gone => by cases gone
      | ok after =>
          rw [AsyncKvPipeline.trySend_ok tried]
          exact located.sent stood
  | confirm job =>
      have same : ({ s with submitted := fetchAdd s.submitted 1 } : PipelineState τ).Located  :=
        located.congr _ rfl rfl rfl rfl
      exact same.callMoves stood rfl (fun _ waits => by cases waits) fun _ _ gone => by cases gone
  | lower job error =>
      have same : ({ s with inflight := fetchSub s.inflight 1 } : PipelineState τ).Located  :=
        located.congr _ rfl rfl rfl rfl
      exact same.callMoves stood rfl (fun _ waits => by cases waits) fun _ _ gone => by cases gone
  | strike job error =>
      have removed := located.rewriteUnsent ticketed stood rfl rfl rfl (fun _ _ same => by cases same)
        none
      refine removed.callMoves stood rfl (fun _ waits => by cases waits) fun _ _ gone => ?_
      cases gone
      exact Function.update_self _ _ _
  | accepted job => exact located
  | rejected job error => exact located

/-! ### Workers -/

/-- A worker goes on with the job it has, or without one. -/
theorem workerMoves (located : s.Located) {stand next : Worker}
    (stood : s.workers[index]? = some stand) (same : next.job = stand.job)
    (starts : ∀ job, next ≠ .received job)
    (runs : ∀ job, next.runningJob = some job → stand.runningJob = some job) :
    (s.moveWorker index next).Located := by
  refine ⟨?_, ?_, located.waiting, located.struck, located.queued, ?_, ?_⟩
  · intro id
    have moved := countP_set (p := Worker.holds id) stood next
    simp only [Worker.holds, same] at moved
    have moved := Nat.add_right_cancel moved
    have before := located.copies id
    unfold PipelineState.copies at before
    rw [← moved] at before
    exact before
  · have moved := countP_set (p := Worker.working) stood next
    simp only [Worker.working, same] at moved
    have moved := Nat.add_right_cancel moved
    exact located.outstanding.trans (congrArg (s.queue.length + ·) moved.symm)
  · intro other job stands
    rcases getElem?_set_cases stands with ⟨_, same⟩ | ⟨_, stands⟩
    · exact absurd same.symm (starts job)
    · exact located.received other job stands
  · intro other its job stands running
    rcases getElem?_set_cases stands with ⟨_, rfl⟩ | ⟨_, stands⟩
    · exact located.running index stand job stood (runs job running)
    · exact located.running other its job stands running

/-- A worker receives the first job of the queue. -/
theorem receives (located : s.Located) {job : AsyncKvJob} {rest : List AsyncKvJob}
    (stood : s.workers[index]? = some .idle) (queue : s.queue = job :: rest) :
    ({ s with queue := rest }.moveWorker index (.received job)).Located := by
  have record := located.queued job (by rw [queue]; exact List.mem_cons_self)
  refine ⟨?_, ?_, located.waiting, located.struck, ?_, ?_, ?_⟩
  · intro id
    have moved := countP_set (p := Worker.holds id) stood (.received job)
    have before := located.copies id
    unfold PipelineState.copies at before
    rw [queue, List.countP_cons] at before
    show rest.countP (fun other => decide (other.id = id)) +
        (s.workers.set index (.received job)).countP (Worker.holds id) =
      if unsettled (s.jobs id) then s.sends id else 0
    rw [← before]
    simp only [Worker.holds_idle, Worker.holds_received, Bool.toNat_false, Nat.add_zero] at moved
    by_cases same : job.id = id
    · simp only [same, decide_true, Bool.toNat_true, if_true] at moved ⊢
      omega
    · simp only [same, decide_false, Bool.toNat_false, Bool.false_eq_true, if_false] at moved ⊢
      omega
  · have moved : (s.workers.set index (.received job)).countP Worker.working + 0 =
        s.workers.countP Worker.working + 1 := countP_set stood (.received job)
    have before := located.outstanding
    rw [queue, List.length_cons] at before
    refine before.trans ?_
    show _ = rest.length + (s.workers.set index (.received job)).countP Worker.working
    omega
  · intro other inside
    exact located.queued other (by rw [queue]; exact List.mem_cons_of_mem _ inside)
  · intro other held stands
    rcases getElem?_set_cases stands with ⟨_, same⟩ | ⟨_, stands⟩
    · cases same
      exact record
    · exact located.received other held stands
  · intro other its held stands runs
    rcases getElem?_set_cases stands with ⟨_, rfl⟩ | ⟨_, stands⟩
    · cases runs
    · exact located.running other its held stands runs

/-- What a worker writes to the record of its job does not meet the records of the others. -/
theorem others_record (located : s.Located) (ticketed : s.Ticketed) {stand : Worker}
    {job : AsyncKvJob} (stood : s.workers[index]? = some stand) (held : stand.job = some job)
    (record : Option AsyncKvJobSnapshot) :
    (∀ (other : Nat) (its : Submission) (waits : AsyncKvJob), s.submissions[other]? = some its →
        its.waitingJob = some waits →
        Function.update s.jobs job.id record waits.id = some (pendingSnapshot waits)) ∧
      (∀ (other : Nat) (its : AsyncKvJob) (error : IoError),
        s.submissions[other]? = some (.rejected its error) →
        Function.update s.jobs job.id record its.id = none) ∧
      (∀ queued ∈ s.queue,
        Function.update s.jobs job.id record queued.id = some (pendingSnapshot queued)) ∧
      (∀ (other : Nat) (its : AsyncKvJob), other ≠ index →
        s.workers[other]? = some (.received its) →
        Function.update s.jobs job.id record its.id = some (pendingSnapshot its)) ∧
      ∀ (other : Nat) (its : Worker) (runs : AsyncKvJob), other ≠ index →
        s.workers[other]? = some its → its.runningJob = some runs →
        Function.update s.jobs job.id record runs.id = some (runningSnapshot runs) := by
  have copy := copies_of_worker stood held
  refine ⟨?_, ?_, ?_, ?_, ?_⟩
  · intro other its waits stands waiting
    obtain ⟨has, unsent⟩ := Submission.ticket_of_waitingJob waiting
    rw [Function.update_of_ne (located.ticket_ne ticketed stands has unsent copy)]
    exact located.waiting other its waits stands waiting
  · intro other its error stands
    rw [Function.update_of_ne (located.ticket_ne ticketed stands rfl rfl copy)]
    exact located.struck other its error stands
  · intro queued inside
    rw [Function.update_of_ne (located.not_queued ticketed stood held inside)]
    exact located.queued queued inside
  · intro other its apart stands
    rw [Function.update_of_ne fun same =>
      apart (located.worker_alone ticketed stood held stands rfl same)]
    exact located.received other its stands
  · intro other its runs apart stands running
    rw [Function.update_of_ne fun same => apart (located.worker_alone ticketed stood held stands
      (Worker.job_of_runningJob running) same)]
    exact located.running other its runs stands running

/-- A worker marks its job running. -/
theorem begins (located : s.Located) (ticketed : s.Ticketed) {job : AsyncKvJob}
    {rest : KvProgram AsyncKvResult} (stood : s.workers[index]? = some (.received job)) :
    ((s.markRunning job.id).moveWorker index (.executing job rest [])).Located := by
  have record := located.received index job stood
  have marked : s.markRunning job.id =
      { s with jobs := Function.update s.jobs job.id (some (runningSnapshot job)) } := by
    unfold markRunning
    rw [record]
    rfl
  rw [marked]
  obtain ⟨waiting, struck, queued, received, running⟩ :=
    located.others_record ticketed stood rfl (some (runningSnapshot job))
  refine ⟨?_, ?_, waiting, struck, queued, ?_, ?_⟩
  · intro id
    have moved := countP_set (p := Worker.holds id) stood (.executing job rest [])
    have moved := Nat.add_right_cancel moved
    have before := located.copies id
    show s.queue.countP (fun other => decide (other.id = id)) +
        (s.workers.set index (.executing job rest [])).countP (Worker.holds id) =
      if unsettled (Function.update s.jobs job.id (some (runningSnapshot job)) id) then s.sends id
      else 0
    rw [moved]
    refine before.trans ?_
    by_cases same : id = job.id
    · rw [same, Function.update_self, record]
      rfl
    · rw [Function.update_of_ne same]
  · have moved := countP_set (p := Worker.working) stood (.executing job rest [])
    have moved := Nat.add_right_cancel moved
    have counts := countP_flag Submission.sentTicket
      (fun other => unsettled (s.jobs other))
      (fun other => unsettled
        (Function.update s.jobs job.id (some (runningSnapshot job)) other)) job.id
      (fun other apart => by rw [Function.update_of_ne apart]) s.submissions
    simp only [record, Function.update_self, unsettled, isTerminal_pending, isTerminal_running]
      at counts
    have counts := Nat.add_right_cancel counts
    exact (counts.trans located.outstanding).trans (congrArg (s.queue.length + ·) moved.symm)
  · intro other held stands
    rcases getElem?_set_cases stands with ⟨_, same⟩ | ⟨apart, stands⟩
    · cases same
    · exact received other held apart stands
  · intro other its runs stands runningToo
    rcases getElem?_set_cases stands with ⟨_, rfl⟩ | ⟨apart, stands⟩
    · cases runningToo
      exact Function.update_self _ _ _
    · exact running other its runs apart stands runningToo

/-- A worker records the end of its job. -/
theorem records (located : s.Located) (ticketed : s.Ticketed) {job : AsyncKvJob}
    {result : Except AsyncKvError AsyncKvResult} {calls : List EngineCall}
    (stood : s.workers[index]? = some (.recording job result calls)) (success : Bool) :
    ((s.insertJob job.id (finishedSnapshot job result)).moveWorker index
      (.tallying job.id success)).Located := by
  have record := located.running index _ job stood rfl
  obtain ⟨waiting, struck, queued, received, running⟩ :=
    located.others_record ticketed stood rfl (some (finishedSnapshot job result))
  have one_send := ticketed.sends_le_one job.id
  have some_send := sends_pos_iff.mpr (located.of_copies (copies_of_worker stood rfl)).2
  refine ⟨?_, ?_, waiting, struck, queued, ?_, ?_⟩
  · intro id
    have moved := countP_set (p := Worker.holds id) stood (.tallying job.id success)
    have before := located.copies id
    unfold PipelineState.copies at before
    show s.queue.countP (fun other => decide (other.id = id)) +
        (s.workers.set index (.tallying job.id success)).countP (Worker.holds id) =
      if unsettled (Function.update s.jobs job.id (some (finishedSnapshot job result)) id) then
        s.sends id
      else 0
    by_cases same : id = job.id
    · subst same
      rw [Function.update_self]
      simp only [Worker.holds_recording, Worker.holds_tallying, decide_true, Bool.toNat_false,
        Bool.toNat_true, Nat.add_zero] at moved
      simp only [record, unsettled, isTerminal_running, isTerminal_finished, Bool.not_false,
        Bool.not_true, if_true, Bool.false_eq_true, if_false] at before ⊢
      omega
    · rw [Function.update_of_ne same, ← before]
      simp only [Worker.holds_recording, Worker.holds_tallying, Ne.symm same, decide_false,
        Bool.toNat_false, Nat.add_zero] at moved
      rw [moved]
  · have moved : (s.workers.set index (.tallying job.id success)).countP Worker.working + 1 =
        s.workers.countP Worker.working + 0 := countP_set stood (.tallying job.id success)
    have counts := countP_flag Submission.sentTicket
      (fun other => unsettled (s.jobs other))
      (fun other => unsettled
        (Function.update s.jobs job.id (some (finishedSnapshot job result)) other)) job.id
      (fun other apart => by rw [Function.update_of_ne apart]) s.submissions
    have sends : (s.submissions.countP fun stand => decide (stand.sentTicket = some job.id)) = 1 :=
      show s.sends job.id = 1 by omega
    have was : unsettled (s.jobs job.id) = true := by
      rw [record]
      rfl
    have is : unsettled (Function.update s.jobs job.id (some (finishedSnapshot job result)) job.id) =
        false := by
      rw [Function.update_self]
      simp [unsettled]
    rw [is, was, sends, if_pos rfl, if_neg Bool.false_ne_true, Nat.add_zero] at counts
    have before : (s.submissions.countP fun stand : Submission => (stand.sentTicket.map fun id =>
        unsettled (s.jobs id)).getD false) = s.queue.length + s.workers.countP Worker.working :=
      located.outstanding
    show (s.submissions.countP fun stand : Submission => (stand.sentTicket.map fun id =>
      unsettled (Function.update s.jobs job.id (some (finishedSnapshot job result)) id)).getD false) =
      s.queue.length + (s.workers.set index (.tallying job.id success)).countP Worker.working
    omega
  · intro other held stands
    rcases getElem?_set_cases stands with ⟨_, same⟩ | ⟨apart, stands⟩
    · cases same
    · exact received other held apart stands
  · intro other its runs stands runningToo
    rcases getElem?_set_cases stands with ⟨_, rfl⟩ | ⟨apart, stands⟩
    · cases runningToo
    · exact running other its runs apart stands runningToo

/-- **A step of a worker** keeps where the jobs are. -/
theorem workStep (pipeline : AsyncKvPipeline τ) {stand : Worker} (located : s.Located)
    (ticketed : s.Ticketed) (stood : s.workers[index]? = some stand) (elapsed : Nat) :
    (pipeline.workStep s index elapsed stand).Located := by
  cases stand with
  | idle =>
      simp only [AsyncKvPipeline.workStep]
      cases queue : s.queue with
      | nil =>
          cases s.sender with
          | true => exact located
          | false =>
              exact located.workerMoves stood rfl (fun _ same => by cases same)
                fun _ runs => by cases runs
      | cons job rest => exact located.receives stood queue
  | received job => exact located.begins ticketed stood
  | executing job rest calls =>
      cases rest with
      | call op next =>
          have same : ({ s with tiers := (pipeline.engine.handle op s.tiers).2 } :
              PipelineState τ).Located  :=
            located.congr _ rfl rfl rfl rfl
          exact same.workerMoves stood rfl (fun _ same => by cases same) fun _ runs => runs
      | done outcome =>
          exact located.workerMoves stood rfl (fun _ same => by cases same) fun _ runs => runs
  | recording job result calls =>
      have recorded := located.records ticketed stood result.isOk
      exact recorded.congr _ rfl rfl rfl rfl
  | tallying id success =>
      cases success with
      | true =>
          have same : ({ s with completed := fetchAdd s.completed 1 } : PipelineState τ).Located  :=
            located.congr _ rfl rfl rfl rfl
          exact same.workerMoves stood rfl (fun _ same => by cases same) fun _ runs => by cases runs
      | false =>
          have same : ({ s with failed := fetchAdd s.failed 1 } : PipelineState τ).Located  :=
            located.congr _ rfl rfl rfl rfl
          exact same.workerMoves stood rfl (fun _ same => by cases same) fun _ runs => by cases runs
  | releasing id =>
      have same : ({ s with inflight := fetchSub s.inflight 1 } : PipelineState τ).Located  :=
        located.congr _ rfl rfl rfl rfl
      exact same.workerMoves stood rfl (fun _ same => by cases same) fun _ runs => by cases runs
  | left => exact located

/-! ### Clients -/

/-- A final record is taken: it was of no use to any thread. -/
theorem take (located : s.Located) (id : Nat) : (s.take id).2.Located := by
  unfold PipelineState.take
  cases record : s.jobs id with
  | none => exact located
  | some job =>
      dsimp only
      split
      case isFalse => exact located
      case isTrue final =>
        have closed : unsettled (s.jobs id) = false := by
          rw [record]
          simp [unsettled, final]
        have others : ∀ {other : Nat} {snapshot : AsyncKvJobSnapshot},
            s.jobs other = some snapshot → isTerminal snapshot = false →
              Function.update s.jobs id none other = some snapshot := by
          intro other snapshot present going
          rw [Function.update_of_ne ?_, present]
          rintro rfl
          rw [record] at present
          cases present
          rw [final] at going
          cases going
        refine ⟨?_, ?_, ?_, ?_, ?_, ?_, ?_⟩
        · intro other
          refine (located.copies other).trans ?_
          show _ = if unsettled (Function.update s.jobs id none other) then s.sends other else 0
          by_cases same : other = id
          · rw [same, Function.update_self, closed]
            rfl
          · rw [Function.update_of_ne same]
        · have counts := countP_flag Submission.sentTicket
            (fun other => unsettled (s.jobs other))
            (fun other => unsettled (Function.update s.jobs id none other)) id
            (fun other apart => by rw [Function.update_of_ne apart]) s.submissions
          have gone : unsettled (Function.update s.jobs id none id) = false := by
            rw [Function.update_self]
            rfl
          rw [closed, gone] at counts
          exact (Nat.add_right_cancel counts).trans located.outstanding
        · intro index stand held stands waits
          exact others (located.waiting index stand held stands waits) rfl
        · intro index its error stands
          have none_there := located.struck index its error stands
          show Function.update s.jobs id none its.id = none
          by_cases same : its.id = id
          · rw [same, Function.update_self]
          · rw [Function.update_of_ne same, none_there]
        · intro held inside
          exact others (located.queued held inside) rfl
        · intro index held stands
          exact others (located.received index held stands) rfl
        · intro index stand held stands runs
          exact others (located.running index stand held stands runs) rfl

/-- A call of `submit` begins. -/
theorem begin (located : s.Located) (operation : AsyncKvOperation) (payload : AsyncKvPayload) :
    ({ s with submissions := s.submissions ++ [Submission.reserve operation payload] } :
      PipelineState τ).Located := by
  refine ⟨?_, ?_, ?_, ?_, located.queued, located.received, located.running⟩
  · intro id
    refine (located.copies id).trans ?_
    show _ = if unsettled (s.jobs id) then (s.submissions ++ [Submission.reserve operation payload]).countP
      (Submission.sentAs id) else 0
    rw [List.countP_append, List.countP_singleton]
    simp [Submission.sentAs, Submission.sentTicket, sends]
  · refine Eq.trans ?_ located.outstanding
    show (s.submissions ++ [Submission.reserve operation payload]).countP _ = _
    rw [List.countP_append, List.countP_singleton]
    simp [Submission.sentTicket, PipelineState.outstanding]
  · intro index stand job stands waits
    rcases getElem?_append_cases stands with stands | ⟨_, rfl⟩
    · exact located.waiting index stand job stands waits
    · cases waits
  · intro index job error stands
    rcases getElem?_append_cases stands with stands | ⟨_, same⟩
    · exact located.struck index job error stands
    · cases same

end Located

end PipelineState

end RivetCache
