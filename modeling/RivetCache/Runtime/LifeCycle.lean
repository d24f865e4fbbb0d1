/-
**The life cycle of a job.**

`Orderly` puts together the identifiers, the counters and the places of the jobs; every step keeps it
(`orderly_step`) as long as `next_id` does not run through its 64 bits (`Unwrapped`), so it holds in every
state reached (`orderly`). From it:

* `step_moves`: an accepted job goes from pending to running to its end, and from there only `take`
  moves it;
* `inflight_bounds`, `inflight_covers`: what `inflight` is between, and that no subtraction wraps;
* `drained`: where `inflight` is zero, every accepted job has come to its end or was taken;
* `life_cycle`: all of it, for every run.

With `2 ^ 64` submissions two accepted jobs have the same identifier (`identifiers_repeat`).
-/

import RivetCache.Library.Run
import RivetCache.Kv.Tier
import RivetCache.Runtime.Places

set_option linter.unusedSectionVars false

namespace RivetCache

open Library PipelineState

/-- What is submitted: the operation of a job and its payload. -/
def AsyncKvJob.work (job : AsyncKvJob) : AsyncKvOperation × AsyncKvPayload := (job.operation, job.payload)

/-- What a call of `submit` submits. -/
def Submission.work : Submission → AsyncKvOperation × AsyncKvPayload
  | .reserve operation payload => (operation, payload)
  | .enlist job => job.work
  | .raise job => job.work
  | .send job => job.work
  | .confirm job => job.work
  | .lower job _ => job.work
  | .strike job _ => job.work
  | .accepted job => job.work
  | .rejected job _ => job.work

/-- The job that the channel took. -/
def Submission.sentJob : Submission → Option AsyncKvJob
  | .confirm job => some job
  | .accepted job => some job
  | _ => none

theorem Submission.sentTicket_eq (stand : Submission) :
    stand.sentTicket = stand.sentJob.map AsyncKvJob.id := by
  cases stand <;> rfl

/-- A call of `submit` goes on: it submits the same, a job that was sent stays sent, and what has returned
stays there. -/
structure Submission.Follows (stand next : Submission) : Prop where
  work : next.work = stand.work
  sentJob : ∀ job, stand.sentJob = some job → next.sentJob = some job
  accepted : ∀ job, stand = .accepted job → next = .accepted job

theorem Submission.Follows.refl (stand : Submission) : stand.Follows stand :=
  ⟨rfl, fun _ sent => sent, fun _ same => same⟩

theorem Submission.Follows.sent {stand next : Submission} (follows : stand.Follows next) {id : Nat}
    (sent : stand.sentTicket = some id) : next.sentTicket = some id := by
  rw [Submission.sentTicket_eq] at sent ⊢
  obtain ⟨job, has, rfl⟩ := Option.map_eq_some_iff.mp sent
  rw [follows.sentJob job has]
  rfl

namespace PipelineState

variable {τ : Nat → Type}

/-- What every step keeps. -/
structure Orderly (s : PipelineState τ) : Prop where
  ticketed : s.Ticketed
  counted : s.Counted
  located : s.Located

/-- A step that none of it is about. -/
theorem Orderly.congr {s : PipelineState τ} (orderly : s.Orderly) (after : PipelineState τ)
    (jobs : after.jobs = s.jobs) (ids : after.nextId = s.nextId)
    (inflight : after.inflight = s.inflight) (submitted : after.submitted = s.submitted)
    (completed : after.completed = s.completed) (failed : after.failed = s.failed)
    (queue : after.queue = s.queue) (submissions : after.submissions = s.submissions)
    (workers : after.workers = s.workers) : after.Orderly :=
  ⟨orderly.ticketed.keep after ids submissions,
    orderly.counted.congr after inflight submitted completed failed queue submissions workers,
    orderly.located.congr after jobs queue submissions workers⟩

/-- How the record of an accepted job changes; `taking` tells whether `take` is called on it. -/
inductive Moves (taking : Prop) : Option AsyncKvJobSnapshot → Option AsyncKvJobSnapshot → Prop where
  | stay (record : Option AsyncKvJobSnapshot) : Moves taking record record
  | run (job : AsyncKvJob) : Moves taking (some (pendingSnapshot job)) (some (runningSnapshot job))
  | settle (job : AsyncKvJob) (result : Except AsyncKvError AsyncKvResult) :
      Moves taking (some (runningSnapshot job)) (some (finishedSnapshot job result))
  | taken {job : AsyncKvJobSnapshot} (final : isTerminal job = true) (called : taking) :
      Moves taking (some job) none

/-- No call of `submit` is in progress, and no job waits or is with a worker. -/
structure Quiet (s : PipelineState τ) : Prop where
  submissions : ∀ stand ∈ s.submissions, stand.inProgress = false
  queue : s.queue = []
  workers : ∀ stand ∈ s.workers, stand.working = false ∧ stand.settling = false

end PipelineState

namespace AsyncKvPipeline

variable {τ : Nat → Type} (pipeline : AsyncKvPipeline τ)

/-- The step does not carry `next_id` to its last value. -/
def Unwrapped : Label τ → PipelineState τ → Prop
  | .advance index, s => ∀ operation payload,
      s.submissions[index]? = some (.reserve operation payload) → s.nextId + 1 < 2 ^ 64
  | _, _ => True

theorem orderly_initial (tiers : KvState τ) : (pipeline.initial tiers).Orderly := by
  have idle : ∀ p : Worker → Bool, p .idle = false →
      (List.replicate pipeline.workerThreads Worker.idle).countP p = 0 := by
    intro p none_there
    rw [List.countP_eq_zero]
    intro stand inside
    rw [List.eq_of_mem_replicate inside, none_there]
    exact Bool.false_ne_true
  have working := idle Worker.working rfl
  have settling := idle Worker.settling rfl
  have owing := idle Worker.owing rfl
  refine ⟨⟨rfl, Nat.two_pow_pos 64, ?_, ?_⟩, ⟨?_, rfl, ?_, ?_⟩, ⟨?_, ?_, ?_, ?_, ?_, ?_, ?_⟩⟩
  · intro index stand id stands
    cases stands
  · intro index other stand its id stands
    cases stands
  · simp only [initial, working, settling, List.countP_nil, List.length_nil]
  · simp only [initial, owing, List.countP_nil, List.length_nil]
  · simp only [initial, working, settling, owing, Nat.add_zero, Nat.le_refl]
  · intro id
    have none_held := idle (Worker.holds id) (Worker.holds_idle id)
    simp [initial, PipelineState.copies, none_held, unsettled]
  · simp [initial, PipelineState.outstanding, working]
  · intro index stand job stands
    cases stands
  · intro index id error stands
    cases stands
  · intro job inside
    cases inside
  · intro index job stands
    cases List.eq_of_mem_replicate (List.mem_of_getElem? stands)
  · intro index stand job stands runs
    rw [List.eq_of_mem_replicate (List.mem_of_getElem? stands)] at runs
    cases runs

variable {pipeline} {s : PipelineState τ}

/-- **Every step keeps it.** -/
theorem orderly_step (label : Label τ) (orderly : s.Orderly) (unwrapped : Unwrapped label s) :
    (pipeline.step label s).Orderly := by
  obtain ⟨ticketed, counted, located⟩ := orderly
  cases label with
  | submit operation payload =>
      exact ⟨ticketed.begin operation payload, counted.begin operation payload,
        located.begin operation payload⟩
  | advance index =>
      simp only [step]
      cases stood : s.submissions[index]? with
      | none => exact ⟨ticketed, counted, located⟩
      | some stand =>
          exact ⟨ticketed.submitStep pipeline stood fun operation payload same =>
              unwrapped operation payload (same ▸ stood),
            counted.submitStep pipeline ticketed stood, located.submitStep pipeline ticketed stood⟩
  | work index elapsed =>
      simp only [step]
      cases stood : s.workers[index]? with
      | none => exact ⟨ticketed, counted, located⟩
      | some stand =>
          exact ⟨ticketed.workStep pipeline index elapsed stand,
            counted.workStep pipeline ticketed stood elapsed,
            located.workStep pipeline ticketed stood elapsed⟩
  | leave index =>
      simp only [step]
      cases stood : s.workers[index]? with
      | none => exact ⟨ticketed, counted, located⟩
      | some stand =>
          cases stand with
          | idle =>
              exact ⟨ticketed.keep _ rfl rfl, counted.shift stood rfl rfl rfl,
                located.workerMoves stood rfl (fun _ same => by cases same)
                  fun _ runs => by cases runs⟩
          | _ => exact ⟨ticketed, counted, located⟩
  | take id =>
      refine ⟨ticketed.take id, counted.take id, located.take id⟩
  | finish =>
      exact Orderly.congr ⟨ticketed, counted, located⟩ _ rfl rfl rfl rfl rfl rfl rfl rfl rfl
  | poll index timedOut =>
      simp only [step]
      cases s.finishes[index]? with
      | none => exact ⟨ticketed, counted, located⟩
      | some stand =>
          show (finishStep s index timedOut stand).Orderly
          rw [finishStep_eq]
          exact Orderly.congr ⟨ticketed, counted, located⟩ _ rfl rfl rfl rfl rfl rfl rfl rfl rfl
  | shutDown =>
      exact Orderly.congr ⟨ticketed, counted, located⟩ _ rfl rfl rfl rfl rfl rfl rfl rfl rfl
  | outside tiers =>
      exact Orderly.congr ⟨ticketed, counted, located⟩ _ rfl rfl rfl rfl rfl rfl rfl rfl rfl

/-- **In every state reached.** -/
theorem orderly {tiers : KvState τ}
    (reached : Reaches pipeline.step Unwrapped (pipeline.initial tiers) s) : s.Orderly :=
  reached.invariant Orderly (pipeline.orderly_initial tiers)
    fun label _ orderly unwrapped => orderly_step label orderly unwrapped

/-! ### Records -/

variable {index id : Nat}

/-- A submission does not touch the record of an accepted job. -/
theorem submitStep_jobs {stand : Submission} (ticketed : s.Ticketed)
    (stood : s.submissions[index]? = some stand) (accepted : s.Accepted id) :
    (pipeline.submitStep s index stand).jobs id = s.jobs id := by
  have apart : ∀ {own : Nat}, stand.ticket = some own → stand.sentTicket = none → id ≠ own := by
    rintro own has unsent rfl
    have none_sent := ticketed.sends_eq_zero stood has unsent
    have sent := sends_pos_iff.mpr accepted
    omega
  cases stand with
  | enlist job => exact Function.update_of_ne (apart rfl rfl) _ _
  | strike own error => exact Function.update_of_ne (apart rfl rfl) _ _
  | send job =>
      simp only [submitStep]
      cases tried : pipeline.trySend s job with
      | error error => rfl
      | ok after =>
          rw [trySend_ok tried]
          rfl
  | _ => rfl

/-- What a worker does to a record. -/
theorem workStep_moves {stand : Worker} (located : s.Located) {taking : Prop} (elapsed : Nat)
    (stood : s.workers[index]? = some stand) :
    Moves taking (s.jobs id) ((pipeline.workStep s index elapsed stand).jobs id) := by
  cases stand with
  | idle =>
      simp only [workStep]
      cases s.queue with
      | nil => cases s.sender <;> exact .stay _
      | cons job rest => exact .stay _
  | received job =>
      have record := located.received index job stood
      simp only [workStep, markRunning, record]
      show Moves taking (s.jobs id) (Function.update s.jobs job.id (some (runningSnapshot job)) id)
      by_cases same : id = job.id
      · rw [same, Function.update_self, record]
        exact .run job
      · rw [Function.update_of_ne same]
        exact .stay _
  | executing job rest calls => cases rest <;> exact .stay _
  | recording job result calls =>
      have record := located.running index _ job stood rfl
      show Moves taking (s.jobs id)
        (Function.update s.jobs job.id (some (finishedSnapshot job result)) id)
      by_cases same : id = job.id
      · rw [same, Function.update_self, record]
        exact .settle job result
      · rw [Function.update_of_ne same]
        exact .stay _
  | tallying own success => cases success <;> exact .stay _
  | releasing own => exact .stay _
  | left => exact .stay _

/-- `take` removes a final record, and no other. -/
theorem take_moves (s : PipelineState τ) (own : Nat) :
    Moves (own = id) (s.jobs id) ((s.take own).2.jobs id) := by
  unfold take
  cases record : s.jobs own with
  | none => exact .stay _
  | some job =>
      dsimp only
      split
      case isFalse => exact .stay _
      case isTrue final =>
        show Moves _ (s.jobs id) (Function.update s.jobs own none id)
        by_cases same : id = own
        · rw [same, Function.update_self, record]
          exact .taken final rfl
        · rw [Function.update_of_ne same]
          exact .stay _

/-- **What a step does to the record of an accepted job.** -/
theorem step_moves (orderly : s.Orderly) (label : Label τ) (accepted : s.Accepted id) :
    Moves (label = .take id) (s.jobs id) ((pipeline.step label s).jobs id) := by
  cases label with
  | submit operation payload => exact .stay _
  | advance index =>
      simp only [step]
      cases stood : s.submissions[index]? with
      | none => exact .stay _
      | some stand =>
          simp only [submitStep_jobs orderly.ticketed stood accepted]
          exact .stay _
  | work index elapsed =>
      simp only [step]
      cases stood : s.workers[index]? with
      | none => exact .stay _
      | some stand => exact workStep_moves orderly.located elapsed stood
  | leave index =>
      simp only [step]
      split <;> exact .stay _
  | take own =>
      have moves : Moves (own = id) (s.jobs id) ((s.take own).2.jobs id) := take_moves s own
      simp only [Label.take.injEq]
      exact moves
  | finish => exact .stay _
  | poll index timedOut =>
      simp only [step]
      cases s.finishes[index]? with
      | none => exact .stay _
      | some stand =>
          show Moves _ _ ((finishStep s index timedOut stand).jobs id)
          rw [finishStep_eq]
          exact .stay _
  | shutDown => exact .stay _
  | outside tiers => exact .stay _

/-- A step of a submission. -/
theorem submitStep_follows (pipeline : AsyncKvPipeline τ) {stand : Submission}
    (stood : s.submissions[index]? = some stand) :
    ∃ next, (pipeline.submitStep s index stand).submissions = s.submissions.set index next ∧
      stand.Follows next := by
  have stays : s.submissions = s.submissions.set index stand := by
    obtain ⟨inside, same⟩ := List.getElem?_eq_some_iff.mp stood
    rw [← same, List.set_getElem_self]
  cases stand with
  | send job =>
      simp only [submitStep]
      cases tried : pipeline.trySend s job with
      | error error => exact ⟨_, rfl, rfl, fun _ sent => (by cases sent), fun _ same => by cases same⟩
      | ok after =>
          rw [trySend_ok tried]
          exact ⟨_, rfl, rfl, fun _ sent => (by cases sent), fun _ same => by cases same⟩
  | confirm own => exact ⟨_, rfl, rfl, fun _ sent => sent, fun _ same => by cases same⟩
  | accepted own => exact ⟨_, stays, .refl _⟩
  | rejected own error => exact ⟨_, stays, .refl _⟩
  | _ => exact ⟨_, rfl, rfl, fun _ sent => (by cases sent), fun _ same => by cases same⟩

/-- **What a step does to a submission.** -/
theorem follows_step (pipeline : AsyncKvPipeline τ) (label : Label τ) {stand : Submission}
    (stands : s.submissions[index]? = some stand) :
    ∃ next, (pipeline.step label s).submissions[index]? = some next ∧ stand.Follows next := by
  have stays : ∃ next, s.submissions[index]? = some next ∧ stand.Follows next :=
    ⟨stand, stands, .refl stand⟩
  cases label with
  | submit operation payload =>
      obtain ⟨inside, _⟩ := List.getElem?_eq_some_iff.mp stands
      exact ⟨stand, (List.getElem?_append_left inside).trans stands, .refl stand⟩
  | advance own =>
      simp only [step]
      cases stood : s.submissions[own]? with
      | none => exact stays
      | some its =>
          obtain ⟨next, moved, follows⟩ := submitStep_follows pipeline stood
          by_cases same : index = own
          · subst same
            rw [stands] at stood
            cases stood
            exact ⟨next, by rw [moved]; exact getElem?_set_of_some stands, follows⟩
          · exact ⟨stand, by rw [moved]; exact getElem?_set_of_ne same stands, .refl stand⟩
  | work own elapsed =>
      simp only [step]
      cases s.workers[own]? with
      | none => exact stays
      | some its =>
          obtain ⟨_, same⟩ := workStep_submissions pipeline s own elapsed its
          rw [same]
          exact stays
  | leave own =>
      simp only [step]
      split <;> exact stays
  | take own =>
      simp only [step]
      rw [take_eq]
      exact stays
  | poll own timedOut =>
      simp only [step]
      cases s.finishes[own]? with
      | none => exact stays
      | some its =>
          show ∃ next, (finishStep s own timedOut its).submissions[index]? = some next ∧ _
          rw [finishStep_eq]
          exact stays
  | finish => exact stays
  | shutDown => exact stays
  | outside tiers => exact stays

/-- An accepted job stays accepted. -/
theorem accepted_step (label : Label τ) (accepted : s.Accepted id) :
    (pipeline.step label s).Accepted id := by
  obtain ⟨own, its, stands, sent⟩ := accepted
  obtain ⟨next, there, follows⟩ := follows_step pipeline label stands
  exact ⟨own, next, there, follows.sent sent⟩

/-- An accepted job that has come to its end, or was taken, is not open again. -/
theorem settled_step (orderly : s.Orderly) (label : Label τ) (accepted : s.Accepted id)
    (settled : unsettled (s.jobs id) = false) :
    unsettled ((pipeline.step label s).jobs id) = false := by
  have moves : Moves (label = .take id) (s.jobs id) ((pipeline.step label s).jobs id) :=
    step_moves orderly label accepted
  generalize s.jobs id = before at moves settled
  generalize (pipeline.step label s).jobs id = after at moves
  cases moves with
  | stay => exact settled
  | run job => cases settled
  | settle job result => cases settled
  | taken final called => rfl

/-! ### What `inflight` says -/

/-- Where `inflight` is zero, every accepted job has come to its end, or was taken. -/
theorem drained (orderly : s.Orderly) (zero : s.inflight = 0) (accepted : s.Accepted id) :
    unsettled (s.jobs id) = false := by
  have inflight := orderly.counted.inflight
  have copies := orderly.located.copies id
  have sent := sends_pos_iff.mpr accepted
  have no_queue : s.queue = [] := List.length_eq_zero_iff.mp (by omega)
  have held : s.workers.countP (Worker.holds id) ≤ s.workers.countP Worker.working := by
    apply List.countP_mono_left
    intro stand _ holds
    cases stand <;> simp_all [Worker.holds, Worker.job, Worker.working]
  have none_left : s.copies id = 0 := by
    unfold PipelineState.copies
    rw [no_queue, List.countP_nil]
    omega
  by_contra still
  rw [Bool.not_eq_false] at still
  rw [if_pos still] at copies
  omega

/-- What `inflight` is between. -/
theorem inflight_bounds (orderly : s.Orderly) :
    s.outstanding ≤ s.inflight ∧ s.inflight ≤ s.outstanding +
      s.submissions.countP Submission.inProgress + s.workers.countP Worker.settling := by
  have inflight := orderly.counted.inflight
  have outstanding := orderly.located.outstanding
  have progress : s.submissions.countP Submission.raised ≤
      s.submissions.countP Submission.inProgress := by
    apply List.countP_mono_left
    intro stand _ raised
    cases stand <;> first | rfl | cases raised
  omega

/-- Who takes something off `inflight` finds it there. -/
theorem inflight_covers (orderly : s.Orderly) :
    (∀ (index : Nat) (job : AsyncKvJob) (error : IoError),
        s.submissions[index]? = some (.lower job error) → 0 < s.inflight) ∧
      ∀ index id : Nat, s.workers[index]? = some (.releasing id) → 0 < s.inflight := by
  have inflight := orderly.counted.inflight
  constructor
  · intro index id error stands
    have counts := countP_pos_of_getElem? (p := Submission.raised) stands rfl
    omega
  · intro index id stands
    have counts := countP_pos_of_getElem? (p := Worker.settling) stands rfl
    omega

/-- **When nothing is in progress**, every job submitted has been completed or has failed. -/
theorem submitted_eq (orderly : s.Orderly) (quiet : s.Quiet) :
    s.submitted = s.completed + s.failed := by
  obtain ⟨_, submitted, settled, _⟩ := orderly.counted
  have same : s.submissions.countP Submission.sent =
      s.submissions.countP Submission.confirmed := by
    apply List.countP_congr
    intro stand inside
    have done := quiet.submissions stand inside
    cases stand <;> first | exact Iff.rfl | cases done
  have none_owed : s.workers.countP Worker.owing = 0 := by
    rw [List.countP_eq_zero]
    intro stand inside owing
    obtain ⟨idle, done⟩ := quiet.workers stand inside
    cases stand with
    | tallying own success => cases done
    | _ => cases idle.symm.trans owing
  rw [quiet.queue, List.length_nil, none_owed, same] at settled
  omega

/-! ### `finish` -/

/-- A round of `finish` that returns `true` finds `inflight` zero. -/
theorem poll_returned_cases {own : Nat} {timedOut : Bool}
    (returned : (pipeline.step (.poll own timedOut) s).finishes[index]? = some (.returned true)) :
    s.finishes[index]? = some (.returned true) ∨
      (s.inflight = 0 ∧ (pipeline.step (.poll own timedOut) s).jobs = s.jobs) := by
  simp only [step] at returned ⊢
  cases stood : s.finishes[own]? with
  | none =>
      rw [stood] at returned
      exact Or.inl returned
  | some stand =>
      rw [stood] at returned
      cases stand with
      | enter =>
          rcases getElem?_set_cases returned with ⟨_, same⟩ | ⟨_, before⟩
          · split at same
            case isTrue zero => exact Or.inr ⟨zero, rfl⟩
            case isFalse => cases same
          · exact Or.inl before
      | waiting =>
          simp only [finishStep] at returned ⊢
          split at returned
          case isTrue zero =>
            rw [if_pos zero]
            exact Or.inr ⟨zero, rfl⟩
          case isFalse =>
            split at returned
            case isTrue =>
              rcases getElem?_set_cases returned with ⟨_, same⟩ | ⟨_, before⟩
              · cases same
              · exact Or.inl before
            case isFalse => exact Or.inl returned
      | late =>
          rcases getElem?_set_cases returned with ⟨_, same⟩ | ⟨_, before⟩
          · exact Or.inr ⟨of_decide_eq_true (Finish.returned.inj same).symm, rfl⟩
          · exact Or.inl before
      | returned drained => exact Or.inl returned

/-- A step of a submission leaves the calls of `finish` as they are. -/
theorem advance_finishes (own : Nat) :
    (pipeline.step (.advance own) s).finishes = s.finishes := by
  simp only [step]
  cases stood : s.submissions[own]? with
  | none => rfl
  | some stand =>
      cases stand with
      | send job =>
          simp only [submitStep]
          cases tried : pipeline.trySend s job with
          | error error => rfl
          | ok after =>
              have same := trySend_ok tried
              subst same
              rfl
      | _ => rfl

/-- A call of `finish` that has returned `true` had done so before, or finds `inflight` zero. -/
theorem returned_cases {label : Label τ}
    (returned : (pipeline.step label s).finishes[index]? = some (.returned true)) :
    s.finishes[index]? = some (.returned true) ∨
      (s.inflight = 0 ∧ (pipeline.step label s).jobs = s.jobs) := by
  cases label with
  | finish =>
      rcases getElem?_append_cases returned with before | ⟨_, same⟩
      · exact Or.inl before
      · cases same
  | poll own timedOut => exact poll_returned_cases returned
  | advance own =>
      rw [advance_finishes] at returned
      exact Or.inl returned
  | work own elapsed =>
      left
      simp only [step] at returned
      cases stood : s.workers[own]? with
      | none =>
          rw [stood] at returned
          exact returned
      | some stand =>
          rw [stood] at returned
          rwa [workStep_finishes] at returned
  | leave own =>
      left
      simp only [step] at returned
      split at returned <;> exact returned
  | take own =>
      left
      simp only [step] at returned
      rw [take_eq] at returned
      exact returned
  | submit operation payload => exact Or.inl returned
  | shutDown => exact Or.inl returned
  | outside tiers => exact Or.inl returned

/-- **`finish` waits for the jobs accepted before.** -/
theorem finish_drained (orderly : s.Orderly) (accepted : s.Accepted id) {after : PipelineState τ}
    (later : Reaches pipeline.step Unwrapped (pipeline.step .finish s) after)
    (returned : after.finishes[s.finishes.length]? = some (.returned true)) :
    unsettled (after.jobs id) = false := by
  have kept : after.Orderly ∧ after.Accepted id ∧
      (after.finishes[s.finishes.length]? = some (.returned true) →
        unsettled (after.jobs id) = false) := by
    refine later.invariant (fun after => after.Orderly ∧ after.Accepted id ∧
      (after.finishes[s.finishes.length]? = some (.returned true) →
        unsettled (after.jobs id) = false)) ?_ ?_
    · refine ⟨orderly_step .finish orderly trivial, accepted_step .finish accepted, fun returned => ?_⟩
      have entered : (pipeline.step .finish s).finishes[s.finishes.length]? = some .enter :=
        List.getElem?_concat_length
      rw [entered] at returned
      cases returned
    · rintro label middle ⟨orderly, accepted, settles⟩ unwrapped
      refine ⟨orderly_step label orderly unwrapped, accepted_step label accepted, fun returned => ?_⟩
      rcases returned_cases returned with before | ⟨zero, same⟩
      · exact settled_step orderly label accepted (settles before)
      · rw [same]
        exact drained orderly zero accepted
  exact kept.2.2 returned

/-! ### The life cycle -/

/-- What holds of the jobs in a state, and of what comes after it. -/
structure LifeCycle (pipeline : AsyncKvPipeline τ) (s : PipelineState τ) : Prop where
  /-- accepted identifiers are distinct -/
  distinct : ∀ (index other : Nat) (job its : AsyncKvJob),
    s.submissions[index]? = some (.accepted job) → s.submissions[other]? = some (.accepted its) →
      job.id = its.id → index = other
  /-- the record of an accepted job goes from pending to running to its end -/
  moves : ∀ (label : Label τ) (id : Nat), s.Accepted id →
    Moves (label = .take id) (s.jobs id) ((pipeline.step label s).jobs id) ∧
      (pipeline.step label s).Accepted id
  /-- a rejected submission leaves no record -/
  rejected : ∀ (index : Nat) (job : AsyncKvJob) (error : IoError),
    s.submissions[index]? = some (.rejected job error) → s.jobs job.id = none
  /-- nor does it count: `inflight` counts others -/
  inflight : s.inflight = s.outstanding + s.submissions.countP Submission.raised +
    s.workers.countP Worker.settling
  /-- `inflight` is between what is not final and that with what is in progress -/
  bounds : s.outstanding ≤ s.inflight ∧ s.inflight ≤ s.outstanding +
    s.submissions.countP Submission.inProgress + s.workers.countP Worker.settling
  /-- `inflight` does not underflow -/
  covers : (∀ (index : Nat) (job : AsyncKvJob) (error : IoError),
      s.submissions[index]? = some (.lower job error) → 0 < s.inflight) ∧
    ∀ index id : Nat, s.workers[index]? = some (.releasing id) → 0 < s.inflight
  /-- a call of `finish` that begins here and returns `true` has waited for the accepted jobs -/
  finish : ∀ after, Reaches pipeline.step Unwrapped (pipeline.step .finish s) after →
    after.finishes[s.finishes.length]? = some (.returned true) →
      ∀ id, s.Accepted id → unsettled (after.jobs id) = false
  /-- when nothing is in progress, the counters agree -/
  quiet : s.Quiet → s.submitted = s.completed + s.failed

/-- **The life cycle of the jobs**, in every run with less than `2 ^ 64` submissions. -/
theorem life_cycle (pipeline : AsyncKvPipeline τ) (tiers : KvState τ) {s : PipelineState τ}
    (reached : Reaches pipeline.step Unwrapped (pipeline.initial tiers) s) :
    pipeline.LifeCycle s := by
  have orderly := orderly reached
  have inflight := orderly.counted.inflight
  have outstanding := orderly.located.outstanding
  refine ⟨?_, ?_, orderly.located.struck, by omega, inflight_bounds orderly,
    inflight_covers orderly, ?_, submitted_eq orderly⟩
  · intro index other job its stands stays same
    exact orderly.ticketed.distinct index other _ _ its.id stands stays
      (congrArg some same) rfl
  · intro label id accepted
    exact ⟨step_moves orderly label accepted, accepted_step label accepted⟩
  · intro after later returned id accepted
    exact finish_drained orderly accepted later returned

/-! ### Two workers and room for one job -/

/-- Two workers on two memory tiers, and a queue that holds one job. -/
def narrow : AsyncKvPipeline (Pair MemoryTier MemoryTier) :=
  ⟨twoMemoryTiers, 2, 1, by decide, Nat.one_ne_zero⟩

def narrowStart : PipelineState (Pair MemoryTier MemoryTier) :=
  narrow.initial (KvState.pair MemoryTier.empty MemoryTier.empty)

theorem life_cycle_one_job : ∃ s : PipelineState (Pair MemoryTier MemoryTier),
    s.submissions[0]? = some (.accepted ⟨1, .clear, .clear⟩) ∧ narrow.LifeCycle s := by
  have begun : Reaches narrow.step Unwrapped narrowStart
      (narrow.step (.submit .clear .clear) narrowStart) := Reaches.refl.step trivial
  have reserved := begun.next (.advance 0) fun _ _ _ => by decide
  have enlisted := reserved.next (.advance 0) fun _ _ stood => by cases stood
  have raised := enlisted.next (.advance 0) fun _ _ stood => by cases stood
  have sent := raised.next (.advance 0) fun _ _ stood => by cases stood
  have returned := sent.next (.advance 0) fun _ _ stood => by cases stood
  exact ⟨_, rfl, life_cycle narrow (KvState.pair MemoryTier.empty MemoryTier.empty) returned⟩

/-! ### Identifiers run out -/

/-- Any step is allowed. -/
def Anyhow : Label τ → PipelineState τ → Prop := fun _ _ => True

/-- A step of a client that submits. -/
def Submitting : Label τ → PipelineState τ → Prop
  | .submit _ _, _ => True
  | .advance _, _ => True
  | _, _ => False

/-- Submitting records no job. -/
theorem recorded_submitting {s after : PipelineState τ}
    (reached : Reaches pipeline.step Submitting s after) : after.recorded = s.recorded := by
  refine reached.invariant (fun after => after.recorded = s.recorded) rfl
    fun label middle same submits => ?_
  cases label with
  | submit => exact same
  | advance index =>
      simp only [step]
      cases middle.submissions[index]? with
      | none => exact same
      | some stand =>
          cases stand with
          | send job =>
              simp only [submitStep]
              cases tried : pipeline.trySend middle job with
              | error error => exact same
              | ok sent =>
                  rw [trySend_ok tried]
                  exact same
          | _ => exact same
  | _ => cases submits

/-- A state of the pipeline, as far as the next submissions care. -/
structure Stage (s : PipelineState τ) (calls : List Submission) (next : Nat)
    (queue : List AsyncKvJob) (workers : List Worker) : Prop where
  submissions : s.submissions = calls
  nextId : s.nextId = next
  sender : s.sender = true
  queued : s.queue = queue
  standing : s.workers = workers

section Stages

variable {s : PipelineState (Pair MemoryTier MemoryTier)} {calls : List Submission} {next : Nat}
  {queue : List AsyncKvJob} {workers : List Worker} {operation : AsyncKvOperation}
  {payload : AsyncKvPayload}

/-- The last submission takes a step. -/
theorem step_last {stand : Submission} (last : s.submissions = calls ++ [stand]) :
    narrow.step (.advance calls.length) s = narrow.submitStep s calls.length stand := by
  simp only [step, last, List.getElem?_concat_length]

/-- The last submission has taken a step. -/
theorem set_last {stand : Submission} (last : s.submissions = calls ++ [stand])
    (next : Submission) : s.submissions.set calls.length next = calls ++ [next] := by
  rw [last, List.set_append_right _ _ (le_refl _), Nat.sub_self, List.set_cons_zero]

namespace Stage

theorem begins (stage : Stage s calls next queue workers) :
    Stage (narrow.step (.submit operation payload) s) (calls ++ [Submission.reserve operation payload]) next queue
      workers := by
  obtain ⟨rfl, rfl, sender, rfl, rfl⟩ := stage
  exact ⟨rfl, rfl, sender, rfl, rfl⟩

theorem reserves (stage : Stage s (calls ++ [Submission.reserve operation payload]) next queue workers) :
    Stage (narrow.step (.advance calls.length) s)
      (calls ++ [Submission.enlist ⟨satAdd next 1, operation, payload⟩]) (fetchAdd next 1) queue workers := by
  obtain ⟨last, rfl, sender, rfl, rfl⟩ := stage
  rw [step_last last]
  exact ⟨set_last last _, rfl, sender, rfl, rfl⟩

variable {job held : AsyncKvJob} {error : IoError}

theorem enlists (stage : Stage s (calls ++ [Submission.enlist job]) next queue workers) :
    Stage (narrow.step (.advance calls.length) s) (calls ++ [Submission.raise job]) next queue workers := by
  obtain ⟨last, rfl, sender, rfl, rfl⟩ := stage
  rw [step_last last]
  exact ⟨set_last last _, rfl, sender, rfl, rfl⟩

theorem raises (stage : Stage s (calls ++ [Submission.raise job]) next queue workers) :
    Stage (narrow.step (.advance calls.length) s) (calls ++ [Submission.send job]) next queue workers := by
  obtain ⟨last, rfl, sender, rfl, rfl⟩ := stage
  rw [step_last last]
  exact ⟨set_last last _, rfl, sender, rfl, rfl⟩

/-- The queue is full. -/
theorem bounces (stage : Stage s (calls ++ [Submission.send job]) next [held] workers)
    (present : workers.all Worker.gone = false) :
    Stage (narrow.step (.advance calls.length) s)
      (calls ++ [Submission.lower job ⟨.wouldBlock, "async KV pipeline queue is full"⟩]) next [held]
      workers := by
  obtain ⟨last, rfl, sender, queued, rfl⟩ := stage
  have full : narrow.trySend s job =
      .error ⟨.wouldBlock, "async KV pipeline queue is full"⟩ := by
    simp [trySend, sender, present, queued, narrow]
  rw [step_last last]
  simp only [submitStep, full]
  exact ⟨set_last last _, rfl, sender, queued, rfl⟩

/-- There is room in the queue. -/
theorem sends (stage : Stage s (calls ++ [Submission.send job]) next [] workers)
    (present : workers.all Worker.gone = false) :
    Stage (narrow.step (.advance calls.length) s) (calls ++ [Submission.confirm job]) next [job]
      workers := by
  obtain ⟨last, rfl, sender, queued, rfl⟩ := stage
  have taken : narrow.trySend s job = .ok { s with queue := s.queue ++ [job] } := by
    simp [trySend, sender, present, queued, narrow]
  rw [step_last last]
  simp only [submitStep, taken]
  exact ⟨set_last last _, rfl, sender, congrArg (· ++ [job]) queued, rfl⟩

theorem confirms (stage : Stage s (calls ++ [Submission.confirm job]) next queue workers) :
    Stage (narrow.step (.advance calls.length) s) (calls ++ [Submission.accepted job]) next queue
      workers := by
  obtain ⟨last, rfl, sender, rfl, rfl⟩ := stage
  rw [step_last last]
  exact ⟨set_last last _, rfl, sender, rfl, rfl⟩

theorem lowers (stage : Stage s (calls ++ [Submission.lower job error]) next queue workers) :
    Stage (narrow.step (.advance calls.length) s) (calls ++ [Submission.strike job error]) next queue
      workers := by
  obtain ⟨last, rfl, sender, rfl, rfl⟩ := stage
  rw [step_last last]
  exact ⟨set_last last _, rfl, sender, rfl, rfl⟩

theorem strikes (stage : Stage s (calls ++ [Submission.strike job error]) next queue workers) :
    Stage (narrow.step (.advance calls.length) s) (calls ++ [Submission.rejected job error]) next queue
      workers := by
  obtain ⟨last, rfl, sender, rfl, rfl⟩ := stage
  rw [step_last last]
  exact ⟨set_last last _, rfl, sender, rfl, rfl⟩

/-- An idle worker receives the job of the queue. -/
theorem receives (stage : Stage s calls next [job] workers) (index : Nat)
    (idle : workers[index]? = some .idle) :
    Stage (narrow.step (.work index 0) s) calls next [] (workers.set index (.received job)) := by
  obtain ⟨rfl, rfl, sender, queued, rfl⟩ := stage
  simp only [step, idle, workStep, queued]
  exact ⟨rfl, rfl, sender, rfl, rfl⟩

/-- **A submission while the queue is full** is rejected, and has used an identifier. -/
theorem rejects (stage : Stage s calls next [held] workers)
    (present : workers.all Worker.gone = false) :
    ∃ after call, Reaches narrow.step Submitting s after ∧
      Stage after (calls ++ [call]) (fetchAdd next 1) [held] workers := by
  have begun : Stage (narrow.step (.submit .clear .clear) s) _ _ _ _ := stage.begins
  have sending := begun.reserves.enlists.raises
  refine ⟨_, _, ?_, (sending.bounces present).lowers.strikes⟩
  exact ((((((Reaches.refl.step trivial).step trivial).step trivial).step trivial).step
    trivial).step trivial).step trivial

/-- **A submission while there is room** is accepted. -/
theorem accepts (stage : Stage s (calls ++ [Submission.reserve operation payload]) next [] workers)
    (present : workers.all Worker.gone = false) :
    ∃ after, Reaches narrow.step Submitting s after ∧
      Stage after (calls ++ [Submission.accepted ⟨satAdd next 1, operation, payload⟩]) (fetchAdd next 1)
        [⟨satAdd next 1, operation, payload⟩] workers := by
  refine ⟨_, ?_, (stage.reserves.enlists.raises.sends present).confirms⟩
  exact ((((Reaches.refl.step trivial).step trivial).step trivial).step trivial).step trivial

/-- Many submissions while the queue is full. -/
theorem rejectsMany (count : Nat) (stage : Stage s calls next [held] workers)
    (present : workers.all Worker.gone = false) (room : next + count < 2 ^ 64) :
    ∃ after more, Reaches narrow.step Submitting s after ∧
      Stage after (calls ++ more) (next + count) [held] workers := by
  induction count with
  | zero => exact ⟨s, [], .refl, by rwa [List.append_nil]⟩
  | succ count ih =>
      obtain ⟨middle, more, reached, there⟩ := ih (by omega)
      obtain ⟨after, call, last, stands⟩ := there.rejects present
      rw [fetchAdd_of_lt (by omega), List.append_assoc] at stands
      exact ⟨after, more ++ [call], reached.trans last, stands⟩

end Stage

end Stages

/-- **Identifiers repeat**: after `2 ^ 64 - 2` submissions, two that are accepted one after the other
have the same identifier. -/
theorem identifiers_repeat :
    ∃ (s : PipelineState (Pair MemoryTier MemoryTier)) (first second : Nat) (job : AsyncKvJob),
      Reaches narrow.step Anyhow narrowStart s ∧ first ≠ second ∧
        s.submissions[first]? = some (.accepted job) ∧
        s.submissions[second]? = some (.accepted job) := by
  have start : Stage narrowStart [] 0 [] [.idle, .idle] := ⟨rfl, rfl, rfl, rfl, rfl⟩
  have free : ∀ {s after : PipelineState (Pair MemoryTier MemoryTier)},
      Reaches narrow.step Submitting s after → Reaches narrow.step Anyhow s after :=
    fun reached => reached.mono fun _ _ _ => trivial
  have begun : Stage (narrow.step (.submit .clear .clear) narrowStart) _ _ _ _ := start.begins
  obtain ⟨one, toOne, full⟩ := begun.accepts rfl
  obtain ⟨many, more, toMany, worn⟩ := full.rejectsMany (2 ^ 64 - 3) rfl (by decide)
  have drained := worn.receives 0 rfl
  have next : Stage (narrow.step (.submit .clear .clear) _) _ _ _ _ := drained.begins
  obtain ⟨two, toTwo, last⟩ := next.accepts rfl
  have emptied := last.receives 1 rfl
  have finally_ : Stage (narrow.step (.submit .clear .clear) _) _ _ _ _ := emptied.begins
  obtain ⟨three, toThree, again⟩ := finally_.accepts rfl
  have its_id : satAdd (fetchAdd 0 1 + (2 ^ 64 - 3)) 1 = 2 ^ 64 - 1 := by decide
  have same_id : satAdd (fetchAdd (fetchAdd 0 1 + (2 ^ 64 - 3)) 1) 1 = 2 ^ 64 - 1 := by decide
  have calls := again.submissions
  rw [its_id, same_id] at calls
  generalize [] ++ [Submission.accepted ⟨satAdd 0 1, .clear, .clear⟩] ++ more = before at calls
  generalize (⟨2 ^ 64 - 1, .clear, .clear⟩ : AsyncKvJob) = job at calls
  refine ⟨three, before.length, (before ++ [Submission.accepted job]).length, job, ?_, ?_, ?_, ?_⟩
  · have first := ((Reaches.refl.step trivial).trans (free toOne)).trans (free toMany)
    have second := ((first.step trivial).step trivial).trans (free toTwo)
    exact ((second.step trivial).step trivial).trans (free toThree)
  · rw [List.length_append, List.length_singleton]
    exact (Nat.succ_ne_self _).symm
  · have inside : before.length < (before ++ [Submission.accepted job]).length := by simp
    rw [calls, List.getElem?_append_left inside, List.getElem?_concat_length]
  · rw [calls, List.getElem?_concat_length]

end AsyncKvPipeline

end RivetCache
