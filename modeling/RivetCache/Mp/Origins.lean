/-
**Where the records of the service come from.**

A call that submits a job keeps the number of its submission, and no two calls keep the same one. So a record
in the map was filed by a call that has returned, and as long as identifiers do not repeat no other call files
one under its identifier.

* `Origins`: the invariant, and `origins_step`: every step keeps it;
* `orderly_step`: the pipeline of a service is in order, as in its own runs;
* `registers_once`: no two calls register a record under one identifier.
-/

import RivetCache.Mp.Steps
import RivetCache.Runtime.LifeCycle

set_option linter.unusedSectionVars false

namespace RivetCache

open Library

variable {τ : Nat → Type}

namespace MpCall

/-- The number of the submission that a call has made. -/
def submission : MpCall → Option Nat
  | .submitting _ submission => some submission
  | .listing _ submission => some submission
  | .filing _ submission => some submission
  | .registered _ submission => some submission
  | _ => none

/-- The record that a call registers, or has registered. -/
def registers : MpCall → Option RequestRecord
  | .listing record _ => some record
  | .filing record _ => some record
  | .registered record _ => some record
  | _ => none

end MpCall

/-- A draft that a `submit_*` method has made, in some state. -/
def MpCacheService.Prepared (service : MpCacheService τ) (draft : RequestDraft) : Prop :=
  ∃ s request, service.prepare s request = .ok draft

/-- The job of a draft was accepted, and this is its record. -/
structure MpCacheService.Stems (service : MpCacheService τ) (s : MpState τ) (submission : Nat)
    (record : RequestRecord) (draft : RequestDraft) (job : AsyncKvJob) : Prop where
  prepared : service.Prepared draft
  accepted : s.pipeline.submissions[submission]? = some (.accepted job)
  work : job.work = (draft.operation, draft.payload)
  named : record = draft.record job.id

/-- **The invariant**: who has submitted what, and who has filed a record. -/
structure MpCacheService.Origins (service : MpCacheService τ) (s : MpState τ) : Prop where
  alone : ∀ (index other : Nat) (call its : MpCall) (submission : Nat),
    s.calls[index]? = some call → s.calls[other]? = some its →
      call.submission = some submission → its.submission = some submission → index = other
  submits : ∀ (index : Nat) (draft : RequestDraft) (submission : Nat),
    s.calls[index]? = some (.submitting draft submission) →
      service.Prepared draft ∧ ∃ stand, s.pipeline.submissions[submission]? = some stand ∧
        stand.work = (draft.operation, draft.payload)
  stems : ∀ (index : Nat) (call : MpCall) (record : RequestRecord) (submission : Nat),
    s.calls[index]? = some call → call.registers = some record → call.submission = some submission →
      ∃ draft job, service.Stems s submission record draft job
  filed : ∀ (id : Nat) (record : RequestRecord), s.requests id = some record →
    ∃ (index : Nat) (kept : RequestRecord) (submission : Nat),
      s.calls[index]? = some (.registered kept submission) ∧ kept.jobId = id ∧
        (record = kept ∨ record = { kept with prefixIndexed := true })

namespace MpCacheService

open MpState

variable {service : MpCacheService τ} {s t : MpState τ} {late : Bool} {call next : MpCall}
  {index : Nat}

/-- The number that a call keeps is of a submission. -/
theorem Origins.inside (origins : service.Origins s) (standing : s.calls[index]? = some call)
    {submission : Nat} (keeps : call.submission = some submission) :
    submission < s.pipeline.submissions.length := by
  cases call with
  | submitting draft own =>
      cases keeps
      obtain ⟨_, stand, there, _⟩ := origins.submits index draft _ standing
      exact (List.getElem?_eq_some_iff.mp there).1
  | listing | filing | registered =>
      obtain ⟨_, _, stems⟩ := origins.stems index _ _ submission standing rfl keeps
      exact (List.getElem?_eq_some_iff.mp stems.accepted).1
  | _ => cases keeps

theorem Stems.onward {record : RequestRecord} {submission : Nat} {draft : RequestDraft}
    {job : AsyncKvJob} (stems : service.Stems s submission record draft job)
    (goes : t.pipeline.submissions[submission]? = some (.accepted job)) :
    service.Stems t submission record draft job :=
  ⟨stems.prepared, goes, stems.work, stems.named⟩

/-! ### The pipeline -/

/-- **A step of the pipeline** keeps the origins. -/
theorem origins_pipeline (label : AsyncKvPipeline.Label τ) (origins : service.Origins s) :
    service.Origins { s with pipeline := service.pipeline.step label s.pipeline } := by
  refine ⟨origins.alone, fun index draft submission there => ?_,
    fun index call record submission there registers keeps => ?_, origins.filed⟩
  · obtain ⟨prepared, stand, stood, work⟩ := origins.submits index draft submission there
    obtain ⟨next, stands, follows⟩ :=
      AsyncKvPipeline.follows_step service.pipeline label stood
    exact ⟨prepared, next, stands, follows.work.trans work⟩
  · obtain ⟨draft, job, stems⟩ := origins.stems index call record submission there registers keeps
    obtain ⟨next, stands, follows⟩ :=
      AsyncKvPipeline.follows_step service.pipeline label stems.accepted
    exact ⟨draft, job, stems.onward (by rw [stands, follows.accepted job rfl])⟩

/-! ### The calls -/

/-- A call that submits nothing begins. -/
theorem origins_begins (origins : service.Origins s) (idle : call.submission = none)
    (nothing : call.registers = none) : service.Origins (s.beginCall call) := by
  refine ⟨fun index other call its submission there stands keeps also => ?_,
    fun index draft submission there => ?_,
    fun index call record submission there registers keeps => ?_, fun id record found => ?_⟩
  · rcases getElem?_append_cases there with before | ⟨_, rfl⟩
    · rcases getElem?_append_cases stands with earlier | ⟨_, rfl⟩
      · exact origins.alone index other call its submission before earlier keeps also
      · rw [idle] at also
        cases also
    · rw [idle] at keeps
      cases keeps
  · rcases getElem?_append_cases there with before | ⟨_, rfl⟩
    · exact origins.submits index draft submission before
    · cases idle
  · rcases getElem?_append_cases there with before | ⟨_, rfl⟩
    · obtain ⟨draft, job, stems⟩ := origins.stems index call record submission before registers keeps
      exact ⟨draft, job, stems.onward stems.accepted⟩
    · rw [nothing] at registers
      cases registers
  · obtain ⟨index, kept, submission, there, same⟩ := origins.filed id record found
    refine ⟨index, kept, submission, ?_, same⟩
    exact (List.getElem?_append_left (List.getElem?_eq_some_iff.mp there).1).trans there

/-- **A call that submits a job begins**: it keeps the number of the new submission. -/
theorem origins_submits (origins : service.Origins s) {draft : RequestDraft}
    (prepared : service.Prepared draft) :
    service.Origins ({ s with
        pipeline := service.pipeline.step (.submit draft.operation draft.payload) s.pipeline
      }.beginCall (.submitting draft s.pipeline.submissions.length)) := by
  have later := origins_pipeline (.submit draft.operation draft.payload) origins
  refine ⟨fun index other call its submission there stands keeps also => ?_,
    fun index other submission there => ?_,
    fun index call record submission there registers keeps => ?_, fun id record found => ?_⟩
  · rcases getElem?_append_cases there with before | ⟨last, rfl⟩
    · rcases getElem?_append_cases stands with earlier | ⟨_, rfl⟩
      · exact origins.alone index other call its submission before earlier keeps also
      · cases also
        exact absurd (origins.inside before keeps) (lt_irrefl _)
    · rcases getElem?_append_cases stands with earlier | ⟨finally_, _⟩
      · cases keeps
        exact absurd (origins.inside earlier also) (lt_irrefl _)
      · rw [last, finally_]
  · rcases getElem?_append_cases there with before | ⟨_, same⟩
    · exact later.submits index other submission before
    · cases same
      exact ⟨prepared, _, List.getElem?_concat_length, rfl⟩
  · rcases getElem?_append_cases there with before | ⟨_, rfl⟩
    · obtain ⟨draft, job, stems⟩ := later.stems index call record submission before registers keeps
      exact ⟨draft, job, stems.onward stems.accepted⟩
    · cases registers
  · obtain ⟨index, kept, submission, there, same⟩ := origins.filed id record found
    refine ⟨index, kept, submission, ?_, same⟩
    exact (List.getElem?_append_left (List.getElem?_eq_some_iff.mp there).1).trans there

@[simp] theorem answered_submission (waits : Bool) (id : Nat) (status : MpRequestStatus) :
    (answered waits id status).submission = none := by
  unfold answered
  split <;> rfl

@[simp] theorem failedWith_submission (waits : Bool) (id : Nat) (error : IoError) :
    (failedWith waits id error).submission = none := by
  unfold failedWith
  split <;> rfl

/-- A call keeps its number, or gives it up. -/
theorem Advances.submission (advances : Advances s late call next t) {submission : Nat}
    (keeps : next.submission = some submission) : call.submission = some submission := by
  cases advances with
  | accept | list | file => exact keeps
  | fetch | mark =>
      rw [answered_submission] at keeps
      cases keeps
  | publishFailed =>
      rw [failedWith_submission] at keeps
      cases keeps
  | _ => cases keeps

/-- A call that keeps a number after a step registers a record. -/
theorem Advances.registers (advances : Advances s late call next t) {submission : Nat}
    (keeps : next.submission = some submission) :
    (∃ draft job, call = .submitting draft submission ∧
      s.pipeline.submissions[submission]? = some (.accepted job) ∧
        next.registers = some (draft.record job.id)) ∨
    ∃ record, call.registers = some record ∧ next.registers = some record := by
  cases advances with
  | accept accepted =>
      cases keeps
      exact Or.inl ⟨_, _, rfl, accepted, rfl⟩
  | list record | file record => exact Or.inr ⟨record, rfl, rfl⟩
  | fetch | mark =>
      rw [answered_submission] at keeps
      cases keeps
  | publishFailed =>
      rw [failedWith_submission] at keeps
      cases keeps
  | _ => cases keeps

/-- **A call that advances** keeps the origins. -/
theorem origins_advances (advances : Advances s late call next t)
    (standing : s.calls[index]? = some call) (origins : service.Origins s) :
    service.Origins (t.moveCall index next) := by
  have pipeline : (t.moveCall index next).pipeline = s.pipeline := advances.keeps.2
  refine ⟨fun own other stand its submission there stands keeps also => ?_,
    fun own draft submission there => ?_,
    fun own stand record submission there registers keeps => ?_, fun id record found => ?_⟩
  · rcases advances.calls_cases there with ⟨rfl, rfl⟩ | ⟨_, before⟩
    · rcases advances.calls_cases stands with ⟨rfl, _⟩ | ⟨_, earlier⟩
      · rfl
      · exact origins.alone own other call its submission standing earlier
          (advances.submission keeps) also
    · rcases advances.calls_cases stands with ⟨rfl, rfl⟩ | ⟨_, earlier⟩
      · exact origins.alone own other stand call submission before standing keeps
          (advances.submission also)
      · exact origins.alone own other stand its submission before earlier keeps also
  · rw [pipeline]
    rcases advances.calls_cases there with ⟨_, rfl⟩ | ⟨_, before⟩
    · rcases advances.registers rfl with ⟨_, _, _, _, other⟩ | ⟨_, _, other⟩ <;> cases other
    · exact origins.submits own draft submission before
  · have stems : ∃ draft job, service.Stems s submission record draft job := by
      rcases advances.calls_cases there with ⟨_, rfl⟩ | ⟨_, before⟩
      · rcases advances.registers keeps with ⟨draft, job, rfl, accepted, same⟩ | ⟨old, stood, same⟩
        · obtain ⟨prepared, stand, there, work⟩ := origins.submits index draft submission standing
          rw [accepted] at there
          cases there
          rw [registers] at same
          cases same
          exact ⟨draft, job, prepared, accepted, work, rfl⟩
        · rw [registers] at same
          cases same
          exact origins.stems index call record submission standing stood (advances.submission keeps)
      · exact origins.stems own stand record submission before registers keeps
    obtain ⟨draft, job, stems⟩ := stems
    exact ⟨draft, job, stems.onward (by rw [pipeline]; exact stems.accepted)⟩
  · rcases advances.requests_cases found with ⟨submission, files, rfl⟩ | ⟨old, before, same, _⟩
    · subst files
      cases advances
      exact ⟨index, record, submission, getElem?_set_of_some standing, rfl, Or.inl rfl⟩
    · obtain ⟨own, kept, submission, there, named, marked⟩ := origins.filed id old before
      refine ⟨own, kept, submission, ?_, named, ?_⟩
      · rw [advances.calls_other (fun same => ?_)]
        · exact there
        · subst same
          rw [standing] at there
          cases there
          cases advances
      · rcases same with rfl | rfl
        · exact marked
        · rcases marked with rfl | rfl <;> exact Or.inr rfl

/-- **Every step keeps the origins.** -/
theorem origins_step (label : Label τ) (origins : service.Origins s) :
    service.Origins (service.step label s) := by
  cases label with
  | pipeline label => exact origins_pipeline label origins
  | submit request =>
      unfold step
      dsimp only
      split
      case h_1 => exact origins_begins origins rfl rfl
      case h_2 draft prepared => exact origins_submits origins ⟨s, request, prepared⟩
  | query | retrieveResult | endSession => exact origins_begins origins rfl rfl
  | wait id fits => exact origins_begins origins (by split <;> rfl) (by split <;> rfl)
  | resume index late =>
      unfold step
      dsimp only
      split
      case h_1 call standing =>
        rcases callStep_cases s index late call with same | ⟨next, t, advances, same⟩
        · rw [same]
          exact origins
        · rw [same]
          exact origins_advances advances standing origins
      case h_2 => exact origins

theorem origins_initial (service : MpCacheService τ) (tiers : KvState τ) :
    service.Origins (service.initial tiers) := by
  refine ⟨fun _ _ _ _ _ there => ?_, fun _ _ _ there => ?_, fun _ _ _ _ there => ?_,
    fun _ _ found => ?_⟩
  · cases there
  · cases there
  · cases there
  · cases found

/-! ### Identifiers -/

/-- The step does not carry `next_id` to its last value. -/
def Numbered : Label τ → MpState τ → Prop
  | .pipeline label, s => AsyncKvPipeline.Unwrapped label s.pipeline
  | _, _ => True

/-- The pipeline without a step of its own. -/
theorem callStep_pipeline (s : MpState τ) (index : Nat) (late : Bool) (call : MpCall) :
    (callStep s index late call).pipeline = s.pipeline := by
  rcases callStep_cases s index late call with same | ⟨next, t, advances, same⟩
  · rw [same]
  · rw [same]
    exact advances.keeps.2

/-- A step of the service is a step of its pipeline, or leaves it alone. -/
theorem step_pipeline (service : MpCacheService τ) (label : Label τ) (s : MpState τ)
    (numbered : Numbered label s) :
    (service.step label s).pipeline = s.pipeline ∨ ∃ own, AsyncKvPipeline.Unwrapped own s.pipeline ∧
      (service.step label s).pipeline = service.pipeline.step own s.pipeline := by
  cases label with
  | pipeline own => exact Or.inr ⟨own, numbered, rfl⟩
  | submit request =>
      unfold step
      dsimp only
      split
      · exact Or.inl rfl
      · exact Or.inr ⟨.submit _ _, trivial, rfl⟩
  | query | retrieveResult | endSession | wait => exact Or.inl rfl
  | resume index late =>
      unfold step
      dsimp only
      split
      · exact Or.inl (callStep_pipeline s index late _)
      · exact Or.inl rfl

/-- **Every step keeps the pipeline in order**, as its own steps do. -/
theorem orderly_step (label : Label τ) (orderly : s.pipeline.Orderly) (numbered : Numbered label s) :
    (service.step label s).pipeline.Orderly := by
  rcases step_pipeline service label s numbered with same | ⟨own, unwrapped, same⟩
  · rw [same]
    exact orderly
  · rw [same]
    exact AsyncKvPipeline.orderly_step own orderly unwrapped

/-- **Identifiers do not repeat**: no two calls register a record under one identifier. -/
theorem registers_once (orderly : s.pipeline.Orderly) (origins : service.Origins s) {other : Nat}
    {its : MpCall} {record also : RequestRecord} (standing : s.calls[index]? = some call)
    (registers : call.registers = some record) (stands : s.calls[other]? = some its)
    (files : its.registers = some also) (same : also.jobId = record.jobId) : other = index := by
  have numbered : ∀ {call : MpCall} {record : RequestRecord}, call.registers = some record →
      ∃ submission, call.submission = some submission := by
    intro call record registers
    cases call <;> first | exact ⟨_, rfl⟩ | cases registers
  obtain ⟨first, keeps⟩ := numbered registers
  obtain ⟨second, also_keeps⟩ := numbered files
  obtain ⟨_, job, stems⟩ := origins.stems index call record first standing registers keeps
  obtain ⟨_, its_job, its_stems⟩ := origins.stems other its also second stands files also_keeps
  have ids : its_job.id = job.id := by
    rw [stems.named, its_stems.named] at same
    exact same
  have numbers : second = first :=
    orderly.ticketed.distinct second first _ _ job.id its_stems.accepted stems.accepted
      (congrArg some ids) rfl
  subst numbers
  exact origins.alone other index its call second stands standing also_keeps keeps

end MpCacheService

end RivetCache
