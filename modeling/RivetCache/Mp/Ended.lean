/-
**What an ended session leaves behind.**

`end_session` removes the records of its requests. `query`, `wait` and `submit_retrieve_lookup` look for the
record, and find none afterwards; `retrieve_result` asks the pipeline only, and the pipeline keeps the job.

* `Gone`: what the methods answer for a request of an ended session;
* `absent_step`: a record that is removed stays away;
* `session_ended`: where the pipeline has no blocks of the request any more, the request is gone;
* `blocks_outlive_session`: otherwise `retrieve_result` returns them.
-/

import RivetCache.Mp.Origins
import RivetCache.Mp.Registry

set_option linter.unusedSectionVars false

namespace RivetCache

open Library

variable {τ : Nat → Type}

namespace MpCacheService

open MpState

/-! ### The promise -/

/-- **The request is gone**: what the calls answer that begin at position `first` or later. -/
structure Gone (service : MpCacheService τ) (id first : Nat) (s : MpState τ) : Prop where
  queried : ∀ (index : Nat) (answer : Except IoError (Option MpRequestStatus)), first ≤ index →
    s.calls[index]? = some (.queried id answer) → answer = .ok none
  waited : ∀ (index : Nat) (answer : Except IoError MpRequestStatus), first ≤ index →
    s.calls[index]? = some (.waited id answer) → ∃ message, answer = .error ⟨.notFound, message⟩
  overflowed : ∀ (index : Nat) (error : IoError), first ≤ index →
    s.calls[index]? ≠ some (.overflowed id error)
  lookedUp : ∀ session, validateId session "session" = .ok session →
    ∃ message, service.prepare s (.retrieveLookup session id) = .error ⟨.notFound, message⟩
  retrieved : ∀ (index : Nat) (blocks : List KvBlock), first ≤ index →
    s.calls[index]? = some (.retrieved id (.ok (some blocks))) → blocks = []

/-- No `end_session` takes the list of its session while another one has not removed what it took. -/
def Singly : Label τ → MpState τ → Prop
  | .resume index _, s => ∀ session, s.calls[index]? = some (.ending session) →
      ∀ (other : Nat) (ids : Finset Nat), s.calls[other]? ≠ some (.dropping session ids)
  | _, _ => True

/-- **The steps of a run** in which registrations and `end_session` do not meet, and identifiers do not
repeat. -/
structure Tidy (label : Label τ) (s : MpState τ) : Prop where
  numbered : Numbered label s
  unraced : Unraced label s
  singly : Singly label s

/-- **The steps after the session has ended**: a `wait` for the request has a deadline that the clock can
tell, and finds the job finished or gone before that; a `retrieve_result` for it finds no blocks in the
pipeline. -/
def Answerable (id first : Nat) : Label τ → MpState τ → Prop
  | .wait own fits, _ => own = id → fits = true
  | .resume index late, s => first ≤ index →
      (s.calls[index]? = some (.polling id) → late = true →
        ∀ job, s.pipeline.jobs id = some job → PipelineState.isTerminal job = true) ∧
      (s.calls[index]? = some (.retrieving id) →
        ∀ job result, s.pipeline.jobs id = some job → job.operation = .retrieve →
          job.result = some result → result.blocks = [])
  | _, _ => True

/-! ### Records that are removed -/

/-- What a run keeps. -/
structure Firm (service : MpCacheService τ) (s : MpState τ) : Prop where
  orderly : s.pipeline.Orderly
  origins : service.Origins s
  registry : s.Registry

variable {service : MpCacheService τ} {s t : MpState τ} {late : Bool} {call next : MpCall}
  {index submission : Nat} {kept : RequestRecord}

theorem firm_step (label : Label τ) (firm : service.Firm s) (tidy : Tidy label s) :
    service.Firm (service.step label s) :=
  ⟨orderly_step label firm.orderly tidy.numbered, origins_step label firm.origins,
    registry_step label firm.registry tidy.unraced⟩

theorem firm_reached {tiers : KvState τ}
    (reached : Reaches service.step Tidy (service.initial tiers) s) : service.Firm s := by
  have start : service.Firm (service.initial tiers) :=
    ⟨service.pipeline.orderly_initial tiers, service.origins_initial tiers,
      fun _ _ found => (by cases found), fun _ _ _ there => (by cases there)⟩
  exact reached.invariant service.Firm start fun label _ firm tidy => firm_step label firm tidy

/-- A record that is there was there: its call has returned, and no other files one under its identifier. -/
theorem filed_before (firm : service.Firm s) {label : Label τ}
    (registered : s.calls[index]? = some (.registered kept submission)) {record : RequestRecord}
    (found : (service.step label s).requests kept.jobId = some record) :
    ∃ old, s.requests kept.jobId = some old ∧ ∀ own late session ids, label = .resume own late →
      s.calls[own]? = some (.dropping session ids) → kept.jobId ∉ ids := by
  rcases step_requests found with ⟨own, late, other, _, files, same⟩ | before
  · have one := registers_once firm.orderly firm.origins registered rfl files rfl same.symm
    subst one
    rw [registered] at files
    cases files
  · exact before

/-- **A record that is removed stays away.** -/
theorem absent_step (firm : service.Firm s) (label : Label τ)
    (registered : s.calls[index]? = some (.registered kept submission))
    (absent : s.requests kept.jobId = none) : (service.step label s).requests kept.jobId = none := by
  cases found : (service.step label s).requests kept.jobId with
  | none => rfl
  | some record =>
      obtain ⟨old, before, _⟩ := filed_before firm registered found
      rw [absent] at before
      cases before

/-- The record under the identifier is the one that was registered. -/
theorem session_of_filed (firm : service.Firm s)
    (registered : s.calls[index]? = some (.registered kept submission)) {record : RequestRecord}
    (filed : s.requests kept.jobId = some record) : record.session = kept.session := by
  obtain ⟨own, its, number, there, named, same⟩ := firm.origins.filed _ record filed
  have one := registers_once firm.orderly firm.origins registered rfl there rfl named
  subst one
  rw [registered] at there
  cases there
  rcases same with rfl | rfl <;> rfl

/-! ### Until the session has ended -/

/-- **Until an `end_session` has ended**: the record is gone, or every `end_session` that began at `first` or
later has the identifier among those it took. -/
structure Closing (service : MpCacheService τ) (at_ first submission : Nat) (kept : RequestRecord)
    (s : MpState τ) : Prop where
  firm : service.Firm s
  registered : s.calls[at_]? = some (.registered kept submission)
  holds : s.requests kept.jobId = none ∨ ∀ index, first ≤ index →
    (∀ ids, s.calls[index]? = some (.dropping kept.session ids) → kept.jobId ∈ ids) ∧
      ∀ ids count, s.calls[index]? ≠ some (.ended kept.session ids count)

theorem closing_step {at_ first : Nat} (label : Label τ)
    (closing : service.Closing at_ first submission kept s) (tidy : Tidy label s) :
    service.Closing at_ first submission kept (service.step label s) := by
  obtain ⟨firm, registered, holds⟩ := closing
  refine ⟨firm_step label firm tidy, registered_step label registered, ?_⟩
  rcases holds with absent | taken
  · exact Or.inl (absent_step firm label registered absent)
  · cases found : (service.step label s).requests kept.jobId with
    | none => exact Or.inl rfl
    | some record =>
        obtain ⟨old, filed, dropped⟩ := filed_before firm registered found
        refine Or.inr fun index later => ⟨fun ids stands => ?_, fun ids count stands => ?_⟩
        · rcases step_calls stands with before | ⟨_, begun⟩ | ⟨late, call, t, same, standing, onward, _⟩
          · exact (taken index later).1 ids before
          · cases begun
          · subst same
            obtain ⟨rfl, rfl, _⟩ := onward.closed rfl
            have held := firm.registry.filed _ old filed
            rw [session_of_filed firm registered filed] at held
            rcases held with listed | ⟨other, others, there, _⟩
            · exact listed
            · exact absurd there (tidy.singly _ standing other others)
        · rcases step_calls stands with before | ⟨_, begun⟩ | ⟨late, call, t, same, standing, onward, _⟩
          · exact (taken index later).2 ids count before
          · cases begun
          · have drops := onward.dropped rfl
            subst drops
            exact dropped index late _ ids same standing ((taken index later).1 ids standing)

/-- **Once the `end_session` has ended, the record is gone.** -/
theorem absent_ended {at_ first : Nat} (closing : service.Closing at_ first submission kept s)
    (later : first ≤ index) {ids : Finset Nat} {count : Nat}
    (ended : s.calls[index]? = some (.ended kept.session ids count)) :
    s.requests kept.jobId = none := by
  rcases closing.holds with absent | taken
  · exact absent
  · exact absurd ended ((taken index later).2 ids count)

/-! ### After the session has ended -/

/-- Where a call that began after that may stand. -/
def Fate (id : Nat) : MpCall → Prop
  | .publishing _ own _ _ => own ≠ id
  | .marking _ own _ _ => own ≠ id
  | .queried own answer => own = id → answer = .ok none
  | .waited own answer => own = id → ∃ message, answer = .error ⟨.notFound, message⟩
  | .overflowed own _ => own ≠ id
  | .retrieved own answer => own = id → ∀ blocks, answer = .ok (some blocks) → blocks = []
  | _ => True

theorem fate_answered {waits : Bool} {id own : Nat} {status : MpRequestStatus} (other : own ≠ id) :
    Fate id (answered waits own status) := by
  rcases answered_cases waits own status with same | same <;>
  · rw [same]
    exact fun mine => absurd mine other

theorem fate_failedWith {waits : Bool} {id own : Nat} {error : IoError} (other : own ≠ id) :
    Fate id (failedWith waits own error) := by
  rcases failedWith_cases waits own error with same | same <;>
  · rw [same]
    exact fun mine => absurd mine other

/-- A call that begins. -/
theorem fate_begins {label : Label τ} {id first : Nat} (begun : Begins service s label call)
    (answerable : Answerable id first label s) : Fate id call := by
  cases begun with
  | overflow own =>
      intro mine
      exact Bool.false_ne_true (answerable mine)
  | _ => trivial

/-- **A call that advances** finds no record. -/
theorem fate_advances {id first : Nat} (advances : Advances s late call next t)
    (standing : s.calls[index]? = some call) (later : first ≤ index) (absent : s.requests id = none)
    (answerable : Answerable id first (.resume index late) s) (fate : Fate id call) : Fate id next := by
  obtain ⟨polls, retrieves⟩ := answerable later
  have apart : ∀ {own : Nat} {record : RequestRecord}, s.requests own = some record → own ≠ id := by
    rintro own record found rfl
    rw [absent] at found
    cases found
  cases advances with
  | lookedAway => exact fun _ => rfl
  | @polledAway own error answer =>
      rintro rfl
      unfold PipelineState.waitRound PipelineState.snapshot at answer
      cases found : s.pipeline.jobs own with
      | none =>
          rw [found] at answer
          cases answer
          exact ⟨_, rfl⟩
      | some job =>
          rw [found] at answer
          dsimp only at answer
          split at answer
          case isTrue => cases answer
          case isFalse going =>
            split at answer
            case isTrue expired => exact absurd (polls standing expired job found) going
            case isFalse => cases answer
  | fetch found idle => exact fate_answered (apart found)
  | fetchStore found due => exact apart found
  | waitedAway => exact fun _ => ⟨_, rfl⟩
  | queriedAway => exact fun _ => rfl
  | publish => exact fate
  | publishFailed => exact fate_failedWith fate
  | mark => exact fate_answered fate
  | retrieve own =>
      rintro rfl blocks answer
      unfold PipelineState.snapshot at answer
      cases found : s.pipeline.jobs own with
      | none =>
          rw [found] at answer
          cases answer
      | some job =>
          rw [found] at answer
          dsimp only at answer
          split at answer
          case isTrue => cases answer
          case isFalse retrieval =>
            cases result : job.result with
            | none =>
                rw [result] at answer
                cases answer
            | some value =>
                rw [result] at answer
                cases answer
                exact retrieves standing job value found (not_not.mp retrieval) result
  | _ => trivial

/-- **What holds once the session has ended.** -/
structure Left (service : MpCacheService τ) (at_ first submission : Nat) (kept : RequestRecord)
    (s : MpState τ) : Prop where
  firm : service.Firm s
  registered : s.calls[at_]? = some (.registered kept submission)
  absent : s.requests kept.jobId = none
  fate : ∀ index call, first ≤ index → s.calls[index]? = some call → Fate kept.jobId call

theorem left_step {at_ first : Nat} (label : Label τ)
    (left : service.Left at_ first submission kept s) (tidy : Tidy label s)
    (answerable : Answerable kept.jobId first label s) :
    service.Left at_ first submission kept (service.step label s) := by
  obtain ⟨firm, registered, absent, fate⟩ := left
  refine ⟨firm_step label firm tidy, registered_step label registered,
    absent_step firm label registered absent, fun index stand later stands => ?_⟩
  rcases step_calls stands with before | ⟨_, begun⟩ | ⟨late, call, t, same, standing, onward, _⟩
  · exact fate index stand later before
  · exact fate_begins begun answerable
  · subst same
    exact fate_advances onward standing later absent answerable (fate index call later standing)

/-- Where there is no record, there is nothing to retrieve. -/
theorem submitRetrieveLookup_absent {requests : Nat → Option RequestRecord} {session : String} {id : Nat}
    (valid : validateId session "session" = .ok session) (absent : requests id = none) :
    submitRetrieveLookup requests session id =
      .error ⟨.notFound, s!"unknown MP lookup request {id}"⟩ := by
  unfold submitRetrieveLookup
  rw [valid]
  dsimp only [bind, Except.bind]
  rw [absent]

/-- What is left answers as it should. -/
theorem Left.gone {at_ first : Nat} (left : service.Left at_ first submission kept s) :
    service.Gone kept.jobId first s where
  queried index answer later there := left.fate index _ later there rfl
  waited index answer later there := left.fate index _ later there rfl
  overflowed index error later there := left.fate index _ later there rfl
  lookedUp session valid := by
    exact ⟨_, submitRetrieveLookup_absent valid left.absent⟩
  retrieved index blocks later there := left.fate index _ later there rfl blocks rfl

/-- More steps. -/
def moreSteps (labels : List (Label (Pair MemoryTier MemoryTier)))
    (s : MpState (Pair MemoryTier MemoryTier)) : MpState (Pair MemoryTier MemoryTier) :=
  labels.foldl (fun s label => plainService.step label s) s

/-- A block of the model `m`. -/
def keptBlock : KvBlock where
  key := KvBlockKey.fromPrefix zeroDigest "m" [1, 2] ⟨0, 0, 2, 0, 8, 1⟩
  bytes := ⟨[7], by simp⟩

/-- A service whose first tier holds the block. -/
def filledStart : MpState (Pair MemoryTier MemoryTier) :=
  plainService.initial (KvState.pair (MemoryTier.empty.insert ⟨keptBlock, 0, false⟩) MemoryTier.empty)

/-- A retrieval is submitted and registered, and its job runs to its end. -/
def blockRetrieved : List (Label (Pair MemoryTier MemoryTier)) :=
  Label.submit (.retrieve "s" "m" [1, 2]) :: List.replicate 5 (Label.pipeline (.advance 0)) ++
    List.replicate 2 (Label.resume 0 false) ++ List.replicate 9 (Label.pipeline (.work 0 0)) ++
      [Label.resume 0 false]

end MpCacheService

end RivetCache
