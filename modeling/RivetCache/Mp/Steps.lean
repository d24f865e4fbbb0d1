/-
**The steps of the service, one by one.**

`Advances` says what the next step of a call does: where it goes, and what becomes of the maps and of the
index. `callStep_cases` is the only place that looks into `callStep`; the invariants of the service are
proved by cases on `Advances`.
-/

import RivetCache.Mp.Model

set_option linter.unusedSectionVars false

namespace RivetCache

open Library

variable {τ : Nat → Type}

namespace MpCacheService

open MpState

/-- **A call takes its next step**: from one position to another, with the state but for the position of
the call. -/
inductive Advances (s : MpState τ) (late : Bool) : MpCall → MpCall → MpState τ → Prop where
  | accept {draft : RequestDraft} {submission : Nat} {job : AsyncKvJob}
      (accepted : s.pipeline.submissions[submission]? = some (.accepted job)) :
      Advances s late (.submitting draft submission) (.listing (draft.record job.id) submission) s
  | reject {draft : RequestDraft} {submission : Nat} {job : AsyncKvJob} {error : IoError}
      (rejected : s.pipeline.submissions[submission]? = some (.rejected job error)) :
      Advances s late (.submitting draft submission) (.refused error) s
  | list (record : RequestRecord) (submission : Nat) :
      Advances s late (.listing record submission) (.filing record submission)
        (s.listRequest record.session record.jobId)
  | file (record : RequestRecord) (submission : Nat) :
      Advances s late (.filing record submission) (.registered record submission)
        (s.fileRequest record)
  | look {id : Nat} {snapshot : AsyncKvJobSnapshot} (found : s.pipeline.jobs id = some snapshot) :
      Advances s late (.looking id) (.fetching false id snapshot) s
  | lookedAway {id : Nat} (absent : s.pipeline.jobs id = none) :
      Advances s late (.looking id) (.queried id (.ok none)) s
  | poll {id : Nat} {snapshot : AsyncKvJobSnapshot}
      (answer : s.pipeline.waitRound id late = some (.ok snapshot)) :
      Advances s late (.polling id) (.fetching true id snapshot) s
  | polledAway {id : Nat} {error : IoError}
      (answer : s.pipeline.waitRound id late = some (.error error)) :
      Advances s late (.polling id) (.waited id (.error error)) s
  | fetch {waits : Bool} {id : Nat} {snapshot : AsyncKvJobSnapshot} {record : RequestRecord}
      (found : s.requests id = some record) (idle : publishes record snapshot = false) :
      Advances s late (.fetching waits id snapshot) (answered waits id (mpStatus record snapshot)) s
  | fetchStore {waits : Bool} {id : Nat} {snapshot : AsyncKvJobSnapshot} {record : RequestRecord}
      (found : s.requests id = some record) (due : publishes record snapshot = true) :
      Advances s late (.fetching waits id snapshot) (.publishing waits id record snapshot) s
  | waitedAway {id : Nat} {snapshot : AsyncKvJobSnapshot} (absent : s.requests id = none) :
      Advances s late (.fetching true id snapshot)
        (.waited id (.error ⟨.notFound, s!"unknown MP request {id}"⟩)) s
  | queriedAway {id : Nat} {snapshot : AsyncKvJobSnapshot} (absent : s.requests id = none) :
      Advances s late (.fetching false id snapshot) (.queried id (.ok none)) s
  | publish {waits : Bool} {id : Nat} {record : RequestRecord} {snapshot : AsyncKvJobSnapshot}
      {index : PrefixIndex}
      (done : s.index.register record.model record.tokens record.keys = .ok index) :
      Advances s late (.publishing waits id record snapshot) (.marking waits id record snapshot)
        { s with index := index }
  | publishFailed {waits : Bool} {id : Nat} {record : RequestRecord}
      {snapshot : AsyncKvJobSnapshot} {error : IoError}
      (failed : s.index.register record.model record.tokens record.keys = .error error) :
      Advances s late (.publishing waits id record snapshot) (failedWith waits id error) s
  | mark (waits : Bool) (id : Nat) (record : RequestRecord) (snapshot : AsyncKvJobSnapshot) :
      Advances s late (.marking waits id record snapshot)
        (answered waits id (mpStatus record snapshot)) (markIndexed s record.jobId)
  | retrieve (id : Nat) :
      Advances s late (.retrieving id) (.retrieved id
        (match s.pipeline.snapshot id with
        | none => .ok none
        | some snapshot =>
            if snapshot.operation ≠ .retrieve then invalid "request is not a retrieve operation"
            else .ok (snapshot.result.map AsyncKvResult.blocks))) s
  | close (session : String) :
      Advances s late (.ending session) (.dropping session (s.sessions session))
        (s.closeSession session)
  | drop (session : String) (ids : Finset Nat) :
      Advances s late (.dropping session ids) (.ended session ids (s.countRequests ids))
        (s.dropRequests ids)

/-- **The step lemma of a call**: it waits, or it advances. -/
theorem callStep_cases (s : MpState τ) (index : Nat) (late : Bool) (call : MpCall) :
    callStep s index late call = s ∨
    ∃ next t, Advances s late call next t ∧ callStep s index late call = t.moveCall index next := by
  cases call with
  | submitting draft submission =>
      unfold callStep
      dsimp only
      split
      · exact Or.inr ⟨_, _, .accept ‹_›, rfl⟩
      · exact Or.inr ⟨_, _, .reject ‹_›, rfl⟩
      · exact Or.inl rfl
  | listing record submission => exact Or.inr ⟨_, _, .list record submission, rfl⟩
  | filing record submission => exact Or.inr ⟨_, _, .file record submission, rfl⟩
  | looking id =>
      unfold callStep
      dsimp only
      split
      · exact Or.inr ⟨_, _, .look ‹_›, rfl⟩
      · exact Or.inr ⟨_, _, .lookedAway ‹_›, rfl⟩
  | polling id =>
      unfold callStep
      dsimp only
      split
      · exact Or.inr ⟨_, _, .poll ‹_›, rfl⟩
      · exact Or.inr ⟨_, _, .polledAway ‹_›, rfl⟩
      · exact Or.inl rfl
  | fetching waits id snapshot =>
      unfold callStep
      dsimp only
      split
      case h_1 record found =>
        cases due : publishes record snapshot with
        | true => exact Or.inr ⟨_, _, .fetchStore found due, rfl⟩
        | false => exact Or.inr ⟨_, _, .fetch found due, rfl⟩
      case h_2 absent =>
        cases waits with
        | true => exact Or.inr ⟨_, _, .waitedAway absent, rfl⟩
        | false => exact Or.inr ⟨_, _, .queriedAway absent, rfl⟩
  | publishing waits id record snapshot =>
      unfold callStep
      dsimp only
      split
      · exact Or.inr ⟨_, _, .publish ‹_›, rfl⟩
      · exact Or.inr ⟨_, _, .publishFailed ‹_›, rfl⟩
  | marking waits id record snapshot => exact Or.inr ⟨_, _, .mark waits id record snapshot, rfl⟩
  | retrieving id => exact Or.inr ⟨_, _, .retrieve id, rfl⟩
  | ending session => exact Or.inr ⟨_, _, .close session, rfl⟩
  | dropping session ids => exact Or.inr ⟨_, _, .drop session ids, rfl⟩
  | registered | refused | queried | waited | overflowed | retrieved | ended => exact Or.inl rfl

variable {s t : MpState τ} {late : Bool} {call next : MpCall}

theorem answered_cases (waits : Bool) (id : Nat) (status : MpRequestStatus) :
    answered waits id status = .waited id (.ok status) ∨
      answered waits id status = .queried id (.ok (some status)) := by
  cases waits
  · exact Or.inr rfl
  · exact Or.inl rfl

theorem failedWith_cases (waits : Bool) (id : Nat) (error : IoError) :
    failedWith waits id error = .waited id (.error error) ∨
      failedWith waits id error = .queried id (.error error) := by
  cases waits
  · exact Or.inr rfl
  · exact Or.inl rfl

/-- An `end_session` has taken its list. -/
theorem Advances.closed (advances : Advances s late call next t) {session : String} {ids : Finset Nat}
    (drops : next = .dropping session ids) :
    call = .ending session ∧ ids = s.sessions session ∧ t = s.closeSession session := by
  cases advances with
  | close own =>
      cases drops
      exact ⟨rfl, rfl, rfl⟩
  | @fetch waits id snapshot record | mark waits id record snapshot =>
      rcases answered_cases waits id (mpStatus record snapshot) with same | same <;>
        rw [same] at drops <;> cases drops
  | @publishFailed waits id record snapshot error =>
      rcases failedWith_cases waits id error with same | same <;> rw [same] at drops <;> cases drops
  | _ => cases drops

/-- An `end_session` has removed what it took. -/
theorem Advances.dropped (advances : Advances s late call next t) {session : String} {ids : Finset Nat}
    {count : Nat} (ends : next = .ended session ids count) : call = .dropping session ids := by
  cases advances with
  | drop own taken =>
      cases ends
      rfl
  | @fetch waits id snapshot record | mark waits id record snapshot =>
      rcases answered_cases waits id (mpStatus record snapshot) with same | same <;>
        rw [same] at ends <;> cases ends
  | @publishFailed waits id record snapshot error =>
      rcases failedWith_cases waits id error with same | same <;> rw [same] at ends <;> cases ends
  | _ => cases ends

/-- The calls and the pipeline are left alone. -/
theorem Advances.keeps (advances : Advances s late call next t) :
    t.calls = s.calls ∧ t.pipeline = s.pipeline := by
  cases advances with
  | mark waits id record snapshot =>
      unfold markIndexed
      split <;> exact ⟨rfl, rfl⟩
  | _ => exact ⟨rfl, rfl⟩

/-- The calls after one of them has advanced. -/
theorem Advances.calls_cases (advances : Advances s late call next t) {index other : Nat}
    {stand : MpCall} (there : (t.moveCall index next).calls[other]? = some stand) :
    (other = index ∧ stand = next) ∨ (other ≠ index ∧ s.calls[other]? = some stand) := by
  change (t.calls.set index next)[other]? = some stand at there
  rw [advances.keeps.1] at there
  exact getElem?_set_cases there

/-- The call that has advanced, and the others. -/
theorem Advances.calls_self (advances : Advances s late call next t) {index : Nat}
    (standing : s.calls[index]? = some call) :
    (t.moveCall index next).calls[index]? = some next := by
  change (t.calls.set index next)[index]? = some next
  rw [advances.keeps.1]
  exact getElem?_set_of_some standing

theorem Advances.calls_other (advances : Advances s late call next t) {index other : Nat}
    (different : other ≠ index) :
    (t.moveCall index next).calls[other]? = s.calls[other]? := by
  change (t.calls.set index next)[other]? = s.calls[other]?
  rw [advances.keeps.1]
  exact List.getElem?_set_ne different.symm

/-- **Where a record comes from**: it was filed by this step, or it was there, with or without its mark, and
no `end_session` has removed it. -/
theorem Advances.requests_cases (advances : Advances s late call next t) {id : Nat}
    {record : RequestRecord} (found : t.requests id = some record) :
    (∃ submission, call = .filing record submission ∧ id = record.jobId) ∨
    ∃ old, s.requests id = some old ∧ (record = old ∨ record = { old with prefixIndexed := true }) ∧
      ∀ session ids, call = .dropping session ids → id ∉ ids := by
  cases advances with
  | file filed submission =>
      change Function.update s.requests filed.jobId (some filed) id = _ at found
      rw [Function.update_apply] at found
      split at found
      case isTrue own =>
        cases found
        exact Or.inl ⟨submission, rfl, own⟩
      case isFalse => exact Or.inr ⟨record, found, Or.inl rfl, fun _ _ other => by cases other⟩
  | mark waits own stored snapshot =>
      refine Or.inr ?_
      unfold markIndexed at found
      split at found
      case h_1 current there =>
        change Function.update s.requests stored.jobId _ id = _ at found
        rw [Function.update_apply] at found
        split at found
        case isTrue same =>
          cases found
          exact ⟨current, same ▸ there, Or.inr rfl, fun _ _ other => by cases other⟩
        case isFalse => exact ⟨record, found, Or.inl rfl, fun _ _ other => by cases other⟩
      case h_2 => exact ⟨record, found, Or.inl rfl, fun _ _ other => by cases other⟩
  | drop session ids =>
      change (if id ∈ ids then none else s.requests id) = _ at found
      split at found
      case isTrue => cases found
      case isFalse outside =>
        exact Or.inr ⟨record, found, Or.inl rfl, fun _ _ same => by cases same; exact outside⟩
  | _ => exact Or.inr ⟨record, found, Or.inl rfl, fun _ _ other => by cases other⟩

/-! ### The steps of a run -/

/-- **A call begins**: what each method of the service starts with. -/
inductive Begins (service : MpCacheService τ) (s : MpState τ) : Label τ → MpCall → Prop where
  | submit {request : MpRequest} {draft : RequestDraft}
      (prepared : service.prepare s request = .ok draft) :
      Begins service s (.submit request) (.submitting draft s.pipeline.submissions.length)
  | refuse {request : MpRequest} {error : IoError} (refused : service.prepare s request = .error error) :
      Begins service s (.submit request) (.refused error)
  | query (id : Nat) : Begins service s (.query id) (.looking id)
  | wait (id : Nat) : Begins service s (.wait id true) (.polling id)
  | overflow (id : Nat) : Begins service s (.wait id false)
      (.overflowed id ⟨.timedOut, "async job timeout overflow"⟩)
  | retrieve (id : Nat) : Begins service s (.retrieveResult id) (.retrieving id)
  | close (session : String) : Begins service s (.endSession session) (.ending session)

/-- **What a step does**: it is one of the pipeline, or a call begins, or waits, or advances. -/
inductive Steps (service : MpCacheService τ) (s : MpState τ) (label : Label τ) : MpState τ → Prop where
  | pipeline (own : AsyncKvPipeline.Label τ) (same : label = .pipeline own) :
      Steps service s label { s with pipeline := service.pipeline.step own s.pipeline }
  | begins {call : MpCall} (begun : Begins service s label call) {p : PipelineState τ}
      (drives : p = s.pipeline ∨ ∃ draft submission, call = .submitting draft submission ∧
        p = service.pipeline.step (.submit draft.operation draft.payload) s.pipeline) :
      Steps service s label ({ s with pipeline := p }.beginCall call)
  | waits : Steps service s label s
  | advances {index : Nat} {late : Bool} {call next : MpCall} {t : MpState τ}
      (same : label = .resume index late) (standing : s.calls[index]? = some call)
      (onward : Advances s late call next t) : Steps service s label (t.moveCall index next)

theorem step_steps (service : MpCacheService τ) (label : Label τ) (s : MpState τ) :
    Steps service s label (service.step label s) := by
  cases label with
  | pipeline own => exact .pipeline own rfl
  | submit request =>
      unfold step
      dsimp only
      split
      case h_1 error refused => exact .begins (.refuse refused) (Or.inl rfl)
      case h_2 draft prepared => exact .begins (.submit prepared) (Or.inr ⟨draft, _, rfl, rfl⟩)
  | query id => exact .begins (.query id) (Or.inl rfl)
  | wait id fits =>
      cases fits with
      | true => exact .begins (.wait id) (Or.inl rfl)
      | false => exact .begins (.overflow id) (Or.inl rfl)
  | retrieveResult id => exact .begins (.retrieve id) (Or.inl rfl)
  | endSession session => exact .begins (.close session) (Or.inl rfl)
  | resume index late =>
      unfold step
      dsimp only
      split
      case h_1 call standing =>
        rcases callStep_cases s index late call with same | ⟨next, t, onward, same⟩
        · rw [same]
          exact .waits
        · rw [same]
          exact .advances rfl standing onward
      case h_2 => exact .waits

/-- **What stands at a position after a step**: what stood there before, a call that begins, or one that
has advanced. -/
theorem step_calls {service : MpCacheService τ} {label : Label τ} {index : Nat} {stand : MpCall}
    (stands : (service.step label s).calls[index]? = some stand) :
    s.calls[index]? = some stand ∨ (index = s.calls.length ∧ Begins service s label stand) ∨
    ∃ late call t, label = .resume index late ∧ s.calls[index]? = some call ∧
      Advances s late call stand t ∧ service.step label s = t.moveCall index stand := by
  have steps := step_steps service label s
  generalize service.step label s = after at steps stands
  cases steps with
  | pipeline own same => exact Or.inl stands
  | begins begun drives =>
      rcases getElem?_append_cases stands with before | ⟨last, rfl⟩
      · exact Or.inl before
      · exact Or.inr (Or.inl ⟨last, begun⟩)
  | waits => exact Or.inl stands
  | advances same standing onward =>
      rcases onward.calls_cases stands with ⟨rfl, rfl⟩ | ⟨_, before⟩
      · exact Or.inr (Or.inr ⟨_, _, _, same, standing, onward, rfl⟩)
      · exact Or.inl before

/-- A call that has filed its record stays there. -/
theorem registered_step {service : MpCacheService τ} (label : Label τ) {index : Nat}
    {record : RequestRecord} {submission : Nat}
    (there : s.calls[index]? = some (.registered record submission)) :
    (service.step label s).calls[index]? = some (.registered record submission) := by
  have steps := step_steps service label s
  generalize service.step label s = after at steps
  cases steps with
  | pipeline own same => exact there
  | begins begun drives =>
      exact (List.getElem?_append_left (List.getElem?_eq_some_iff.mp there).1).trans there
  | waits => exact there
  | @advances own late call next t same standing onward =>
      rw [onward.calls_other (fun same => ?_)]
      · exact there
      · subst same
        rw [standing] at there
        cases there
        cases onward

/-- An `end_session` removes the records that it took. -/
theorem step_dropping (service : MpCacheService τ) {index : Nat} {session : String} {ids : Finset Nat}
    (there : s.calls[index]? = some (.dropping session ids)) (late : Bool) :
    service.step (.resume index late) s =
      (s.dropRequests ids).moveCall index (.ended session ids (s.countRequests ids)) := by
  unfold step
  dsimp only
  rw [there]
  rfl

/-- **Where a record comes from**: it was filed by this step, or it was there, and no `end_session` has
removed it. -/
theorem step_requests {service : MpCacheService τ} {label : Label τ} {id : Nat} {record : RequestRecord}
    (found : (service.step label s).requests id = some record) :
    (∃ index late submission, label = .resume index late ∧
      s.calls[index]? = some (.filing record submission) ∧ id = record.jobId) ∨
    ∃ old, s.requests id = some old ∧ ∀ index late session ids, label = .resume index late →
      s.calls[index]? = some (.dropping session ids) → id ∉ ids := by
  have steps := step_steps service label s
  generalize done : service.step label s = after at steps found
  cases steps with
  | pipeline own same =>
      subst same
      exact Or.inr ⟨record, found, fun _ _ _ _ other => by cases other⟩
  | begins begun drives =>
      refine Or.inr ⟨record, found, fun _ _ _ _ other => ?_⟩
      subst other
      cases begun
  | waits =>
      refine Or.inr ⟨record, found, fun index late session ids same there inside => ?_⟩
      subst same
      rw [step_dropping service there] at done
      rw [← done] at found
      change (if id ∈ ids then none else s.requests id) = _ at found
      rw [if_pos inside] at found
      cases found
  | @advances own late call next t same standing onward =>
      subst same
      rcases onward.requests_cases found with ⟨submission, rfl, named⟩ | ⟨old, before, _, kept⟩
      · exact Or.inl ⟨own, late, submission, rfl, standing, named⟩
      · refine Or.inr ⟨old, before, fun _ _ session ids other there => ?_⟩
        cases other
        rw [standing] at there
        exact kept session ids (Option.some.inj there)

end MpCacheService

end RivetCache
