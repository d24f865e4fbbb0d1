/-
**What the counters of the pipeline count.**

A submission, a queued job and a worker each stand at one place; what an atomic counter holds is how
many stand at certain places.

* `Ticketed`: the identifiers of the submissions. As long as `next_id` has not run through its 64 bits,
  no two submissions have the same;
* `Counted`: what `inflight`, `submitted`, `completed` and `failed` count. No subtraction wraps, since
  each takes away what the one who takes it had added.
-/

import RivetCache.Library.Run
import RivetCache.Runtime.Model

set_option linter.unusedSectionVars false

namespace RivetCache

open Library

/-! ### Who stands where -/

namespace Submission

/-- The identifier of a call, once it has one. -/
def ticket : Submission → Option Nat
  | .reserve _ _ => none
  | .enlist job => some job.id
  | .raise job => some job.id
  | .send job => some job.id
  | .confirm job => some job.id
  | .lower job _ => some job.id
  | .strike job _ => some job.id
  | .accepted job => some job.id
  | .rejected job _ => some job.id

/-- The identifier of a job that the channel took. -/
def sentTicket : Submission → Option Nat
  | .confirm job => some job.id
  | .accepted job => some job.id
  | _ => none

/-- Has an identifier. -/
def reserved (stand : Submission) : Bool := stand.ticket.isSome

/-- The channel took the job. -/
def sent (stand : Submission) : Bool := stand.sentTicket.isSome

/-- The channel took the job `id`. -/
def sentAs (id : Nat) (stand : Submission) : Bool := decide (stand.sentTicket = some id)

/-- Raised `inflight`, and has not handed that over to the channel or taken it back. -/
def raised : Submission → Bool
  | .send _ => true
  | .lower _ _ => true
  | _ => false

/-- Has returned `Ok`. -/
def confirmed : Submission → Bool
  | .accepted _ => true
  | _ => false

/-- Has not returned. -/
def inProgress : Submission → Bool
  | .accepted _ => false
  | .rejected _ _ => false
  | _ => true

/-- The job whose record is in the map, and which is not sent yet. -/
def waitingJob : Submission → Option AsyncKvJob
  | .raise job => some job
  | .send job => some job
  | _ => none

theorem ticket_of_sentTicket {stand : Submission} {id : Nat} (sent : stand.sentTicket = some id) :
    stand.ticket = some id := by
  cases stand <;> first | exact sent | cases sent

theorem ticket_of_waitingJob {stand : Submission} {job : AsyncKvJob} (waits : stand.waitingJob = some job) :
    stand.ticket = some job.id ∧ stand.sentTicket = none := by
  cases stand <;> cases waits <;> exact ⟨rfl, rfl⟩

end Submission

namespace Worker

/-- The job of a worker that has not recorded it yet. -/
def job : Worker → Option AsyncKvJob
  | .received job => some job
  | .executing job _ _ => some job
  | .recording job _ _ => some job
  | _ => none

/-- The job of a worker that marked it running and has not recorded it yet. -/
def runningJob : Worker → Option AsyncKvJob
  | .executing job _ _ => some job
  | .recording job _ _ => some job
  | _ => none

/-- Holds the job `id`. -/
def holds (id : Nat) (stand : Worker) : Bool := decide (stand.job.map AsyncKvJob.id = some id)

/-- Has a job that it has not recorded. -/
def working (stand : Worker) : Bool := stand.job.isSome

/-- Recorded a job, and has not taken it off `inflight` yet. -/
def settling : Worker → Bool
  | .tallying _ _ => true
  | .releasing _ => true
  | _ => false

/-- Has a job that `completed` and `failed` do not count yet. -/
def owing : Worker → Bool
  | .tallying _ _ => true
  | stand => stand.working

theorem job_of_runningJob {stand : Worker} {job : AsyncKvJob} (runs : stand.runningJob = some job) :
    stand.job = some job := by
  cases stand <;> first | exact runs | cases runs

@[simp] theorem holds_idle (id : Nat) : idle.holds id = false := by
  simp [holds, job]

@[simp] theorem holds_received (id : Nat) (job : AsyncKvJob) :
    (received job).holds id = decide (job.id = id) := by
  simp [holds, Worker.job]

@[simp] theorem holds_recording (id : Nat) (job : AsyncKvJob)
    (result : Except AsyncKvError AsyncKvResult) (calls : List EngineCall) :
    (recording job result calls).holds id = decide (job.id = id) := by
  simp [holds, Worker.job]

@[simp] theorem holds_tallying (id its : Nat) (success : Bool) :
    (tallying its success).holds id = false := by
  simp [holds, job]

theorem holds_of_job {stand : Worker} {job : AsyncKvJob} (held : stand.job = some job) :
    stand.holds job.id = true := by
  simp [holds, held]

end Worker

/-- The channel takes a job at its end. -/
theorem AsyncKvPipeline.trySend_ok {τ : Nat → Type} {pipeline : AsyncKvPipeline τ}
    {s after : PipelineState τ} {job : AsyncKvJob} (sent : pipeline.trySend s job = .ok after) :
    after = { s with queue := s.queue ++ [job] } := by
  unfold AsyncKvPipeline.trySend at sent
  split_ifs at sent
  cases sent
  rfl

/-- A step of `finish` moves that call only. -/
theorem AsyncKvPipeline.finishStep_eq {τ : Nat → Type} (s : PipelineState τ) (index : Nat)
    (timedOut : Bool) (stand : Finish) :
    AsyncKvPipeline.finishStep s index timedOut stand =
      { s with finishes := (AsyncKvPipeline.finishStep s index timedOut stand).finishes } := by
  cases stand <;> simp only [AsyncKvPipeline.finishStep]
  case waiting => split_ifs <;> rfl
  all_goals rfl

/-- A worker does not touch the calls of `finish`. -/
theorem AsyncKvPipeline.workStep_finishes {τ : Nat → Type} (pipeline : AsyncKvPipeline τ)
    (s : PipelineState τ) (index elapsed : Nat) (stand : Worker) :
    (pipeline.workStep s index elapsed stand).finishes = s.finishes := by
  cases stand with
  | idle =>
      simp only [workStep]
      cases s.queue with
      | nil => cases s.sender <;> rfl
      | cons job rest => rfl
  | received job =>
      simp only [workStep]
      unfold PipelineState.markRunning
      cases s.jobs job.id <;> rfl
  | executing job rest calls => cases rest <;> rfl
  | tallying id success => cases success <;> rfl
  | _ => rfl

/-- A worker does not touch the submissions. -/
theorem AsyncKvPipeline.workStep_submissions {τ : Nat → Type} (pipeline : AsyncKvPipeline τ)
    (s : PipelineState τ) (index elapsed : Nat) (stand : Worker) :
    (pipeline.workStep s index elapsed stand).nextId = s.nextId ∧
      (pipeline.workStep s index elapsed stand).submissions = s.submissions := by
  cases stand with
  | idle =>
      simp only [workStep]
      cases s.queue with
      | nil => cases s.sender <;> exact ⟨rfl, rfl⟩
      | cons job rest => exact ⟨rfl, rfl⟩
  | received job =>
      simp only [workStep]
      unfold PipelineState.markRunning
      cases s.jobs job.id <;> exact ⟨rfl, rfl⟩
  | executing job rest calls => cases rest <;> exact ⟨rfl, rfl⟩
  | recording job result calls => exact ⟨rfl, rfl⟩
  | tallying id success => cases success <;> exact ⟨rfl, rfl⟩
  | releasing id => exact ⟨rfl, rfl⟩
  | left => exact ⟨rfl, rfl⟩

namespace PipelineState

variable {τ : Nat → Type}

/-- A record that is there and not final. -/
def unsettled : Option AsyncKvJobSnapshot → Bool
  | some job => !isTerminal job
  | none => false

/-- The record of a job that runs. -/
def runningSnapshot (job : AsyncKvJob) : AsyncKvJobSnapshot :=
  ⟨job.id, job.operation, .running, none, none⟩

@[simp] theorem isTerminal_pending (job : AsyncKvJob) : isTerminal (pendingSnapshot job) = false :=
  rfl

@[simp] theorem isTerminal_running (job : AsyncKvJob) : isTerminal (runningSnapshot job) = false :=
  rfl

@[simp] theorem isTerminal_finished (job : AsyncKvJob)
    (result : Except AsyncKvError AsyncKvResult) : isTerminal (finishedSnapshot job result) = true := by
  cases result <;> rfl

/-- `mark_running` changes a record only. -/
theorem markRunning_eq (s : PipelineState τ) (id : Nat) :
    s.markRunning id = { s with jobs := (s.markRunning id).jobs } := by
  unfold markRunning
  split <;> rfl

/-- `take` removes a record at most. -/
theorem take_eq (s : PipelineState τ) (id : Nat) :
    (s.take id).2 = { s with jobs := (s.take id).2.jobs } := by
  unfold take
  split
  · split <;> rfl
  · rfl

/-- The channel took the job `id`: its submission returns `Ok(id)`, or has. -/
def Accepted (s : PipelineState τ) (id : Nat) : Prop :=
  ∃ (index : Nat) (stand : Submission), s.submissions[index]? = some stand ∧ stand.sentTicket = some id

/-- How many submissions of the job `id` the channel took. -/
def sends (s : PipelineState τ) (id : Nat) : Nat := s.submissions.countP (Submission.sentAs id)

/-- How many copies of the job `id` wait in the queue or are with a worker. -/
def copies (s : PipelineState τ) (id : Nat) : Nat :=
  s.queue.countP (fun job => decide (job.id = id)) + s.workers.countP (Worker.holds id)

/-- How many accepted jobs have a record that is not final. -/
def outstanding (s : PipelineState τ) : Nat :=
  s.submissions.countP fun stand : Submission =>
    (stand.sentTicket.map fun id => unsettled (s.jobs id)).getD false

theorem sends_pos_iff {s : PipelineState τ} {id : Nat} : 0 < s.sends id ↔ s.Accepted id := by
  unfold sends Accepted
  rw [List.countP_pos_iff]
  constructor
  · rintro ⟨stand, inside, sent⟩
    obtain ⟨index, stood⟩ := List.mem_iff_getElem?.mp inside
    exact ⟨index, stand, stood, by simpa [Submission.sentAs] using sent⟩
  · rintro ⟨index, stand, stood, sent⟩
    exact ⟨stand, List.mem_of_getElem? stood, by simpa [Submission.sentAs] using sent⟩

/-! ### Identifiers -/

/-- The identifiers of the calls of `submit`. -/
structure Ticketed (s : PipelineState τ) : Prop where
  count : s.nextId = s.submissions.countP Submission.reserved
  room : s.nextId < 2 ^ 64
  bound : ∀ (index : Nat) (stand : Submission) (id : Nat),
    s.submissions[index]? = some stand → stand.ticket = some id → id ≤ s.nextId
  distinct : ∀ (index other : Nat) (stand its : Submission) (id : Nat),
    s.submissions[index]? = some stand → s.submissions[other]? = some its →
      stand.ticket = some id → its.ticket = some id → index = other

namespace Ticketed

variable {s : PipelineState τ} {index : Nat} {stand : Submission}

/-- A call goes on under its identifier. -/
theorem move (ticketed : s.Ticketed) (stood : s.submissions[index]? = some stand)
    (next : Submission) (same : next.ticket = stand.ticket) (after : PipelineState τ)
    (ids : after.nextId = s.nextId) (calls : after.submissions = s.submissions.set index next) : after.Ticketed := by
  have before : ∀ (other : Nat) (its : Submission), after.submissions[other]? = some its →
      ∃ old : Submission, s.submissions[other]? = some old ∧ old.ticket = its.ticket := by
    intro other its stands
    rw [calls] at stands
    rcases getElem?_set_cases stands with ⟨rfl, rfl⟩ | ⟨_, stands⟩
    · exact ⟨stand, stood, same.symm⟩
    · exact ⟨its, stands, rfl⟩
  refine ⟨?_, ?_, ?_, ?_⟩
  · have moved := countP_set (p := Submission.reserved) stood next
    have kept : next.reserved = stand.reserved := by simp [Submission.reserved, same]
    rw [kept] at moved
    rw [ids, calls, ticketed.count]
    omega
  · rw [ids]
    exact ticketed.room
  · intro other its id stands has
    obtain ⟨old, stood, same⟩ := before other its stands
    rw [ids]
    exact ticketed.bound other old id stood (same.trans has)
  · intro first second its hers id stands stays has hasToo
    obtain ⟨old, stood, same⟩ := before first its stands
    obtain ⟨older, stayed, equal⟩ := before second hers stays
    exact ticketed.distinct first second old older id stood stayed (same.trans has)
      (equal.trans hasToo)

/-- Where the calls do not move. -/
theorem keep (ticketed : s.Ticketed) (after : PipelineState τ) (ids : after.nextId = s.nextId)
    (calls : after.submissions = s.submissions) : after.Ticketed := by
  refine ⟨?_, ?_, ?_, ?_⟩
  · rw [ids, calls]
    exact ticketed.count
  · rw [ids]
    exact ticketed.room
  · rw [ids, calls]
    exact ticketed.bound
  · rw [calls]
    exact ticketed.distinct

/-- A call that begins. -/
theorem begin (ticketed : s.Ticketed) (operation : AsyncKvOperation) (payload : AsyncKvPayload) :
    ({ s with submissions := s.submissions ++ [Submission.reserve operation payload] } :
      PipelineState τ).Ticketed := by
  refine ⟨?_, ticketed.room, ?_, ?_⟩
  · show s.nextId = _
    rw [List.countP_append, ticketed.count]
    rfl
  · intro other its id stands has
    rcases getElem?_append_cases stands with stands | ⟨_, rfl⟩
    · exact ticketed.bound other its id stands has
    · cases has
  · intro first second its hers id stands stays has hasToo
    rcases getElem?_append_cases stands with stands | ⟨_, rfl⟩
    · rcases getElem?_append_cases stays with stays | ⟨_, rfl⟩
      · exact ticketed.distinct first second its hers id stands stays has hasToo
      · cases hasToo
    · cases has

/-- A call gets its identifier: the next one. -/
theorem reserve (ticketed : s.Ticketed) {operation : AsyncKvOperation} {payload : AsyncKvPayload}
    (stood : s.submissions[index]? = some (.reserve operation payload))
    (fresh : s.nextId + 1 < 2 ^ 64) :
    ({ s with nextId := fetchAdd s.nextId 1 }.moveSubmission index
      (.enlist ⟨satAdd s.nextId 1, operation, payload⟩)).Ticketed := by
  have ids : fetchAdd s.nextId 1 = s.nextId + 1 := fetchAdd_of_lt fresh
  have id : satAdd s.nextId 1 = s.nextId + 1 := satAdd_of_le (by unfold u64Max; omega)
  rw [ids, id]
  refine ⟨?_, fresh, ?_, ?_⟩
  · have moved := countP_set (p := Submission.reserved) stood
      (.enlist ⟨s.nextId + 1, operation, payload⟩)
    have count := ticketed.count
    simp only [Submission.reserved, Submission.ticket, Option.isSome, Bool.toNat_false,
      Bool.toNat_true] at moved count
    show s.nextId + 1 = _
    simp only [moveSubmission]
    omega
  · intro other its id stands has
    rcases getElem?_set_cases stands with ⟨rfl, rfl⟩ | ⟨_, stands⟩
    · exact (Option.some.inj has).symm.le
    · exact (ticketed.bound other its id stands has).trans (Nat.le_succ _)
  · intro first second its hers id stands stays has hasToo
    rcases getElem?_set_cases stands with ⟨rfl, rfl⟩ | ⟨_, stands⟩
    · rcases getElem?_set_cases stays with ⟨rfl, rfl⟩ | ⟨_, stays⟩
      · rfl
      · have low := ticketed.bound second hers id stays hasToo
        cases has
        exact absurd low (Nat.not_succ_le_self _)
    · rcases getElem?_set_cases stays with ⟨_, rfl⟩ | ⟨_, stays⟩
      · have low := ticketed.bound first its id stands has
        cases hasToo
        exact absurd low (Nat.not_succ_le_self _)
      · exact ticketed.distinct first second its hers id stands stays has hasToo

/-- A call whose job is not sent: no call sent a job of its identifier. -/
theorem sends_eq_zero (ticketed : s.Ticketed) {id : Nat}
    (stood : s.submissions[index]? = some stand) (has : stand.ticket = some id)
    (unsent : stand.sentTicket = none) : s.sends id = 0 := by
  by_contra some_sent
  obtain ⟨other, its, stands, sent⟩ := sends_pos_iff.mp (Nat.pos_of_ne_zero some_sent)
  have same := ticketed.distinct index other stand its id stood stands has
    (Submission.ticket_of_sentTicket sent)
  subst same
  rw [stood] at stands
  cases stands
  rw [unsent] at sent
  cases sent

/-- No job is sent twice. -/
theorem sends_le_one (ticketed : s.Ticketed) (id : Nat) : s.sends id ≤ 1 := by
  by_cases sent : s.Accepted id
  · obtain ⟨index, stand, stood, sent⟩ := sent
    -- without that call, none is left
    have moved := countP_set (p := Submission.sentAs id) stood (.reserve .clear .clear)
    have one : stand.sentAs id = true := by simpa [Submission.sentAs] using sent
    have none_left : (s.submissions.set index (.reserve .clear .clear)).countP
        (Submission.sentAs id) = 0 := by
      rw [List.countP_eq_zero]
      intro its inside
      obtain ⟨other, stands⟩ := List.mem_iff_getElem?.mp inside
      rcases getElem?_set_cases stands with ⟨rfl, rfl⟩ | ⟨apart, stands⟩
      · simp [Submission.sentAs, Submission.sentTicket]
      · intro also
        have also : its.sentTicket = some id := by simpa [Submission.sentAs] using also
        exact apart (ticketed.distinct index other stand its id stood stands
          (Submission.ticket_of_sentTicket sent) (Submission.ticket_of_sentTicket also)).symm
    rw [one, none_left] at moved
    simp only [Submission.sentAs, Submission.sentTicket, reduceCtorEq, decide_false, Bool.toNat_false,
      Bool.toNat_true] at moved
    unfold sends
    omega
  · have none_sent := mt sends_pos_iff.mp sent
    omega

/-- A step of a submission. -/
theorem submitStep (pipeline : AsyncKvPipeline τ) (ticketed : s.Ticketed)
    (stood : s.submissions[index]? = some stand)
    (fresh : ∀ operation payload, stand = .reserve operation payload → s.nextId + 1 < 2 ^ 64) :
    (pipeline.submitStep s index stand).Ticketed := by
  cases stand with
  | reserve operation payload => exact ticketed.reserve stood (fresh operation payload rfl)
  | enlist job => exact ticketed.move stood (.raise job) rfl _ rfl rfl
  | raise job => exact ticketed.move stood (.send job) rfl _ rfl rfl
  | send job =>
      simp only [AsyncKvPipeline.submitStep]
      cases tried : pipeline.trySend s job with
      | error error => exact ticketed.move stood (.lower job error) rfl _ rfl rfl
      | ok after =>
          rw [AsyncKvPipeline.trySend_ok tried]
          exact ticketed.move stood (.confirm job) rfl _ rfl rfl
  | confirm job => exact ticketed.move stood (.accepted job) rfl _ rfl rfl
  | lower job error => exact ticketed.move stood (.strike job error) rfl _ rfl rfl
  | strike job error => exact ticketed.move stood (.rejected job error) rfl _ rfl rfl
  | accepted job => exact ticketed
  | rejected job error => exact ticketed

/-- A step of a worker moves no submission. -/
theorem workStep (pipeline : AsyncKvPipeline τ) (ticketed : s.Ticketed) (index elapsed : Nat)
    (stand : Worker) : (pipeline.workStep s index elapsed stand).Ticketed := by
  obtain ⟨ids, submissions⟩ := AsyncKvPipeline.workStep_submissions pipeline s index elapsed stand
  exact ticketed.keep _ ids submissions

theorem take (ticketed : s.Ticketed) (id : Nat) : (s.take id).2.Ticketed := by
  rw [take_eq]
  exact ticketed.keep _ rfl rfl

end Ticketed

/-! ### Counters -/

/-- What the counters count. -/
structure Counted (s : PipelineState τ) : Prop where
  inflight : s.inflight = s.submissions.countP Submission.raised + s.queue.length +
    s.workers.countP Worker.working + s.workers.countP Worker.settling
  submitted : s.submitted = s.submissions.countP Submission.confirmed
  settled : s.completed + s.failed + s.queue.length + s.workers.countP Worker.owing =
    s.submissions.countP Submission.sent
  settling : s.workers.countP Worker.working + s.workers.countP Worker.settling ≤
    s.completed + s.failed + s.workers.countP Worker.owing

theorem raised_add_sent_le (calls : List Submission) :
    calls.countP Submission.raised + calls.countP Submission.sent ≤
      calls.countP Submission.reserved := by
  induction calls with
  | nil => rfl
  | cons stand rest ih =>
      rw [List.countP_cons, List.countP_cons, List.countP_cons]
      have one : (if stand.raised then 1 else 0) + (if stand.sent then 1 else 0) ≤
          (if stand.reserved then 1 else 0) := by
        cases stand <;> simp [Submission.raised, Submission.sent, Submission.sentTicket,
          Submission.reserved, Submission.ticket]
      omega

theorem confirmed_le_sent (calls : List Submission) :
    calls.countP Submission.confirmed ≤ calls.countP Submission.sent := by
  apply List.countP_mono_left
  intro stand _ confirmed
  cases stand <;> first | rfl | cases confirmed

/-- What a step of a submission does to the counts. -/
theorem submission_census {calls : List Submission} {index : Nat} {stand : Submission}
    (stood : calls[index]? = some stand) (next : Submission) :
    ((calls.set index next).countP Submission.raised + stand.raised.toNat =
        calls.countP Submission.raised + next.raised.toNat) ∧
      ((calls.set index next).countP Submission.confirmed + stand.confirmed.toNat =
        calls.countP Submission.confirmed + next.confirmed.toNat) ∧
      ((calls.set index next).countP Submission.sent + stand.sent.toNat =
        calls.countP Submission.sent + next.sent.toNat) ∧
      ((calls.set index next).countP Submission.reserved + stand.reserved.toNat =
        calls.countP Submission.reserved + next.reserved.toNat) :=
  ⟨countP_set stood next, countP_set stood next, countP_set stood next, countP_set stood next⟩

/-- What a step of a worker does to the counts. -/
theorem worker_census {workers : List Worker} {index : Nat} {stand : Worker}
    (stood : workers[index]? = some stand) (next : Worker) :
    ((workers.set index next).countP Worker.working + stand.working.toNat =
        workers.countP Worker.working + next.working.toNat) ∧
      ((workers.set index next).countP Worker.settling + stand.settling.toNat =
        workers.countP Worker.settling + next.settling.toNat) ∧
      ((workers.set index next).countP Worker.owing + stand.owing.toNat =
        workers.countP Worker.owing + next.owing.toNat) :=
  ⟨countP_set stood next, countP_set stood next, countP_set stood next⟩

namespace Counted

variable {s : PipelineState τ} {index : Nat}

/-- `inflight` counts calls with an identifier, each once. -/
theorem inflight_le (counted : s.Counted) (ticketed : s.Ticketed) : s.inflight ≤ s.nextId := by
  have apart := raised_add_sent_le s.submissions
  have inflight := counted.inflight
  have settled := counted.settled
  have settling := counted.settling
  have count := ticketed.count
  omega

/-- Everything that is counted was submitted under an identifier. -/
theorem settled_le (counted : s.Counted) (ticketed : s.Ticketed) :
    s.completed + s.failed + s.workers.countP Worker.owing ≤ s.nextId := by
  have apart := raised_add_sent_le s.submissions
  have settled := counted.settled
  have count := ticketed.count
  omega

/-- A submission that counts for the same as before. -/
theorem goOn {stand next : Submission} (counted : s.Counted) (stood : s.submissions[index]? = some stand)
    (raised : next.raised = stand.raised) (confirmed : next.confirmed = stand.confirmed)
    (sent : next.sent = stand.sent) : (s.moveSubmission index next).Counted := by
  obtain ⟨raises, confirms, sends, _⟩ := submission_census stood next
  rw [raised] at raises
  rw [confirmed] at confirms
  rw [sent] at sends
  have raises := Nat.add_right_cancel raises
  have confirms := Nat.add_right_cancel confirms
  have sends := Nat.add_right_cancel sends
  refine ⟨?_, ?_, ?_, counted.settling⟩ <;> simp only [moveSubmission, raises, confirms, sends]
  · exact counted.inflight
  · exact counted.submitted
  · exact counted.settled

/-- A step of a submission keeps what the counters count. -/
theorem submitStep (pipeline : AsyncKvPipeline τ) {stand : Submission} (counted : s.Counted)
    (ticketed : s.Ticketed) (stood : s.submissions[index]? = some stand) :
    (pipeline.submitStep s index stand).Counted := by
  obtain ⟨inflight, submitted, settled, settling⟩ := counted
  have room := ticketed.room
  have count := ticketed.count
  cases stand with
  | reserve operation payload => exact goOn ⟨inflight, submitted, settled, settling⟩ stood rfl rfl rfl
  | enlist job => exact goOn ⟨inflight, submitted, settled, settling⟩ stood rfl rfl rfl
  | raise job =>
      obtain ⟨raised, confirmed, sent, reserved⟩ := submission_census stood (.send job)
      -- the calls that `inflight` will count have their identifiers
      have apart := raised_add_sent_le (s.submissions.set index (.send job))
      simp only [Submission.raised, Submission.confirmed, Submission.sent, Submission.sentTicket,
        Submission.reserved, Submission.ticket, Option.isSome, Bool.toNat_true, Bool.toNat_false]
        at raised confirmed sent reserved
      have exact_add : fetchAdd s.inflight 1 = s.inflight + 1 := fetchAdd_of_lt (by omega)
      refine ⟨?_, submitted.trans confirmed.symm, settled.trans sent.symm, settling⟩
      show fetchAdd s.inflight 1 = _
      simp only [AsyncKvPipeline.submitStep, moveSubmission]
      omega
  | send job =>
      simp only [AsyncKvPipeline.submitStep]
      cases tried : pipeline.trySend s job with
      | error error => exact goOn ⟨inflight, submitted, settled, settling⟩ stood rfl rfl rfl
      | ok after =>
          rw [AsyncKvPipeline.trySend_ok tried]
          obtain ⟨raised, confirmed, sent, _⟩ := submission_census stood (.confirm job)
          simp only [Submission.raised, Submission.confirmed, Submission.sent,
            Submission.sentTicket, Option.isSome, Bool.toNat_true, Bool.toNat_false]
            at raised confirmed sent
          refine ⟨?_, submitted.trans confirmed.symm, ?_, settling⟩
          · simp only [moveSubmission, List.length_append, List.length_singleton]
            omega
          · simp only [moveSubmission, List.length_append, List.length_singleton]
            omega
  | confirm job =>
      obtain ⟨raised, confirmed, sent, reserved⟩ := submission_census stood (.accepted job)
      have apart := raised_add_sent_le (s.submissions.set index (.accepted job))
      have below := confirmed_le_sent (s.submissions.set index (.accepted job))
      simp only [Submission.raised, Submission.confirmed, Submission.sent, Submission.sentTicket,
        Submission.reserved, Submission.ticket, Option.isSome, Bool.toNat_true, Bool.toNat_false]
        at raised confirmed sent reserved
      have exact_add : fetchAdd s.submitted 1 = s.submitted + 1 := fetchAdd_of_lt (by omega)
      refine ⟨inflight.trans (congrArg (· + _ + _ + _) raised.symm), ?_,
        settled.trans (Nat.add_right_cancel sent).symm, settling⟩
      show fetchAdd s.submitted 1 = _
      simp only [AsyncKvPipeline.submitStep, moveSubmission]
      omega
  | lower job error =>
      obtain ⟨raised, confirmed, sent, _⟩ := submission_census stood (.strike job error)
      have bound := inflight_le ⟨inflight, submitted, settled, settling⟩ ticketed
      simp only [Submission.raised, Submission.confirmed, Submission.sent, Submission.sentTicket,
        Option.isSome, Bool.toNat_true, Bool.toNat_false, Nat.add_zero] at raised confirmed sent
      have exact_sub : fetchSub s.inflight 1 = s.inflight - 1 :=
        fetchSub_of_le (by omega)
      have after : pipeline.submitStep s index (.lower job error) =
          { s with inflight := s.inflight - 1 }.moveSubmission index (.strike job error) := by
        rw [← exact_sub]
        rfl
      rw [after]
      refine ⟨?_, submitted.trans confirmed.symm, settled.trans sent.symm, settling⟩
      show s.inflight - 1 = _
      simp only [moveSubmission]
      omega
  | strike job error => exact goOn ⟨inflight, submitted, settled, settling⟩ stood rfl rfl rfl
  | accepted job => exact ⟨inflight, submitted, settled, settling⟩
  | rejected job error => exact ⟨inflight, submitted, settled, settling⟩

/-- A worker that counts for the same as before. -/
theorem shift {stand next : Worker} (counted : s.Counted) (stood : s.workers[index]? = some stand)
    (working : next.working = stand.working) (settling : next.settling = stand.settling)
    (owing : next.owing = stand.owing) : (s.moveWorker index next).Counted := by
  obtain ⟨works, settles, owes⟩ := worker_census stood next
  rw [working] at works
  rw [settling] at settles
  rw [owing] at owes
  have works := Nat.add_right_cancel works
  have settles := Nat.add_right_cancel settles
  have owes := Nat.add_right_cancel owes
  refine ⟨?_, counted.submitted, ?_, ?_⟩ <;> simp only [moveWorker, works, settles, owes]
  · exact counted.inflight
  · exact counted.settled
  · exact counted.settling

/-- A step of a worker keeps what the counters count. -/
theorem workStep (pipeline : AsyncKvPipeline τ) {stand : Worker} (counted : s.Counted)
    (ticketed : s.Ticketed) (stood : s.workers[index]? = some stand) (elapsed : Nat) :
    (pipeline.workStep s index elapsed stand).Counted := by
  have bound := inflight_le counted ticketed
  have owed := settled_le counted ticketed
  have room := ticketed.room
  obtain ⟨inflight, submitted, settled, settling⟩ := counted
  cases stand with
  | idle =>
      simp only [AsyncKvPipeline.workStep]
      cases queue : s.queue with
      | nil =>
          cases s.sender with
          | true => exact ⟨inflight, submitted, settled, settling⟩
          | false =>
              exact shift ⟨inflight, submitted, settled, settling⟩ stood rfl rfl rfl
      | cons job rest =>
          obtain ⟨working, recorded, owing⟩ := worker_census stood (.received job)
          simp only [Worker.working, Worker.settling, Worker.owing, Worker.job, Option.isSome,
            Bool.toNat_true, Bool.toNat_false, Nat.add_zero] at working recorded owing
          rw [queue, List.length_cons] at inflight settled
          refine ⟨?_, submitted, ?_, ?_⟩ <;> simp only [moveWorker] <;> omega
  | received job =>
      simp only [AsyncKvPipeline.workStep]
      rw [markRunning_eq]
      exact shift ⟨inflight, submitted, settled, settling⟩ stood rfl rfl rfl
  | executing job rest calls =>
      cases rest with
      | call op next => exact shift ⟨inflight, submitted, settled, settling⟩ stood rfl rfl rfl
      | done outcome => exact shift ⟨inflight, submitted, settled, settling⟩ stood rfl rfl rfl
  | recording job result calls =>
      obtain ⟨working, recorded, owing⟩ := worker_census stood (.tallying job.id result.isOk)
      simp only [Worker.working, Worker.settling, Worker.owing, Worker.job, Option.isSome,
        Bool.toNat_true, Bool.toNat_false, Nat.add_zero] at working recorded owing
      refine ⟨?_, submitted, ?_, ?_⟩ <;>
        simp only [AsyncKvPipeline.workStep, insertJob, moveWorker] <;> omega
  | tallying id success =>
      obtain ⟨working, recorded, owing⟩ := worker_census stood (.releasing id)
      have counts := countP_pos_of_getElem? (p := Worker.owing) stood rfl
      simp only [Worker.working, Worker.settling, Worker.owing, Worker.job, Option.isSome,
        Bool.toNat_true, Bool.toNat_false, Nat.add_zero] at working recorded owing
      cases success with
      | true =>
          have exact_add : fetchAdd s.completed 1 = s.completed + 1 :=
            fetchAdd_of_lt (by omega)
          refine ⟨?_, submitted, ?_, ?_⟩ <;>
            simp only [AsyncKvPipeline.workStep, moveWorker, exact_add] <;> omega
      | false =>
          have exact_add : fetchAdd s.failed 1 = s.failed + 1 := fetchAdd_of_lt (by omega)
          refine ⟨?_, submitted, ?_, ?_⟩ <;>
            simp only [AsyncKvPipeline.workStep, moveWorker, exact_add] <;> omega
  | releasing id =>
      obtain ⟨working, recorded, owing⟩ := worker_census stood .idle
      have counts := countP_pos_of_getElem? (p := Worker.settling) stood rfl
      simp only [Worker.working, Worker.settling, Worker.owing, Worker.job, Option.isSome,
        Bool.toNat_true, Bool.toNat_false, Nat.add_zero] at working recorded owing
      have exact_sub : fetchSub s.inflight 1 = s.inflight - 1 :=
        fetchSub_of_le (by omega)
      have after : pipeline.workStep s index elapsed (.releasing id) =
          { s with inflight := s.inflight - 1 }.moveWorker index .idle := by
        rw [← exact_sub]
        rfl
      rw [after]
      refine ⟨?_, submitted, ?_, ?_⟩ <;> simp only [moveWorker] <;> omega
  | left => exact ⟨inflight, submitted, settled, settling⟩

/-- Nothing else counts. -/
theorem congr (counted : s.Counted) (after : PipelineState τ)
    (inflight : after.inflight = s.inflight) (submitted : after.submitted = s.submitted)
    (completed : after.completed = s.completed) (failed : after.failed = s.failed)
    (queue : after.queue = s.queue) (submissions : after.submissions = s.submissions)
    (workers : after.workers = s.workers) : after.Counted := by
  refine ⟨?_, ?_, ?_, ?_⟩
  · rw [inflight, submissions, queue, workers]
    exact counted.inflight
  · rw [submitted, submissions]
    exact counted.submitted
  · rw [completed, failed, queue, workers, submissions]
    exact counted.settled
  · rw [workers, completed, failed]
    exact counted.settling

theorem take (counted : s.Counted) (id : Nat) : (s.take id).2.Counted := by
  rw [take_eq]
  exact counted.congr _ rfl rfl rfl rfl rfl rfl rfl

/-- A call of `submit` begins. -/
theorem begin (counted : s.Counted) (operation : AsyncKvOperation) (payload : AsyncKvPayload) :
    ({ s with submissions := s.submissions ++ [Submission.reserve operation payload] } :
      PipelineState τ).Counted := by
  obtain ⟨inflight, submitted, settled, settling⟩ := counted
  refine ⟨?_, ?_, ?_, settling⟩ <;>
    simp only [List.countP_append, List.countP_singleton, Submission.raised, Submission.confirmed,
      Submission.sent, Submission.sentTicket, Option.isSome, Bool.false_eq_true, if_false,
      Nat.add_zero]
  · exact inflight
  · exact submitted
  · exact settled

end Counted

end PipelineState

end RivetCache
