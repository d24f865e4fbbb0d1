/-
**The two registries of the service.**

`register` lists an identifier under its session, and files its record afterwards, under another lock.
`end_session` takes the list, and removes the records afterwards. Where no `end_session` removes the records
of a list while one of them is still to be filed, every record is listed (`registered_listed`); otherwise
the record is filed too late, and no `end_session` finds it (`record_orphaned`).

* `MpState.Held`: an identifier is listed, or an `end_session` has taken the list and has not finished;
* `registry_step`: every step keeps `Registry`.
-/

import RivetCache.Kv.Tier
import RivetCache.Mp.Steps

set_option linter.unusedSectionVars false

namespace RivetCache

open Library

variable {τ : Nat → Type}

/-- A call that has returned. -/
def MpCall.returned : MpCall → Bool
  | .registered _ _ => true
  | .refused _ => true
  | .queried _ _ => true
  | .waited _ _ => true
  | .overflowed _ _ => true
  | .retrieved _ _ => true
  | .ended _ _ _ => true
  | _ => false

namespace MpState

/-- An `end_session` of the session has taken the identifier, and has not removed its record yet. -/
def Taken (s : MpState τ) (session : String) (id : Nat) : Prop :=
  ∃ (index : Nat) (ids : Finset Nat), s.calls[index]? = some (.dropping session ids) ∧ id ∈ ids

/-- The identifier is listed under the session, or was taken from there. -/
def Held (s : MpState τ) (session : String) (id : Nat) : Prop :=
  id ∈ s.sessions session ∨ s.Taken session id

/-- **The invariant**: what is filed, or is going to be, is held. -/
structure Registry (s : MpState τ) : Prop where
  filed : ∀ id record, s.requests id = some record → s.Held record.session id
  filing : ∀ (index : Nat) (record : RequestRecord) (submission : Nat),
    s.calls[index]? = some (.filing record submission) → s.Held record.session record.jobId

end MpState

namespace MpCacheService

open MpState

variable {service : MpCacheService τ} {s t : MpState τ} {late : Bool} {call next : MpCall}
  {index : Nat}

/-- **The steps of a run**: no `end_session` removes the records of its session while one that it took is
still to be filed. -/
def Unraced : Label τ → MpState τ → Prop
  | .resume index _, s => ∀ session ids, s.calls[index]? = some (.dropping session ids) →
      ∀ (other : Nat) (record : RequestRecord) (submission : Nat),
        s.calls[other]? = some (.filing record submission) →
          record.session = session → record.jobId ∉ ids
  | _, _ => True

/-- A call that begins holds nothing back. -/
theorem held_of_begun {session : String} {id : Nat} (held : s.Held session id) {p : PipelineState τ} :
    ({ s with pipeline := p }.beginCall call).Held session id := by
  rcases held with listed | ⟨index, ids, there, inside⟩
  · exact Or.inl listed
  · refine Or.inr ⟨index, ids, ?_, inside⟩
    show (s.calls ++ [call])[index]? = _
    rw [List.getElem?_append_left (List.getElem?_eq_some_iff.mp there).1]
    exact there

theorem registry_begins (registry : s.Registry) {p : PipelineState τ}
    (begins : ∀ record submission, call ≠ .filing record submission) :
    ({ s with pipeline := p }.beginCall call).Registry := by
  refine ⟨fun id record found => held_of_begun (registry.filed id record found),
    fun other record submission there => ?_⟩
  rcases getElem?_append_cases there with before | ⟨_, same⟩
  · exact held_of_begun (registry.filing other record submission before)
  · exact absurd same.symm (begins record submission)

/-- **What is held stays held** when a call advances: an `end_session` that takes a list holds it, and one that
ends held what it has removed. -/
theorem held_advances (advances : Advances s late call next t)
    (standing : s.calls[index]? = some call) {session : String} {id : Nat}
    (held : s.Held session id) :
    (t.moveCall index next).Held session id ∨
      ∃ ids, call = .dropping session ids ∧ id ∈ ids := by
  have taken : s.Taken session id → (t.moveCall index next).Taken session id ∨
      ∃ ids, call = .dropping session ids ∧ id ∈ ids := by
    rintro ⟨other, ids, there, inside⟩
    by_cases own : other = index
    · subst own
      rw [standing] at there
      exact Or.inr ⟨ids, Option.some.inj there, inside⟩
    · exact Or.inl ⟨other, ids, (advances.calls_other own).trans there, inside⟩
  rcases held with listed | there
  · cases advances with
    | list record submission =>
        refine Or.inl (Or.inl ?_)
        show id ∈ Function.update s.sessions record.session _ session
        rw [Function.update_apply]
        split
        case isTrue same => exact Finset.mem_insert_of_mem (same ▸ listed)
        case isFalse => exact listed
    | close closing =>
        by_cases own : session = closing
        · subst own
          have closes : Advances s late _ _ _ := Advances.close session
          exact Or.inl (Or.inr ⟨index, _, closes.calls_self standing, listed⟩)
        · refine Or.inl (Or.inl ?_)
          show id ∈ Function.update s.sessions closing ∅ session
          rw [Function.update_of_ne own]
          exact listed
    | mark waits own record snapshot =>
        refine Or.inl (Or.inl ?_)
        have same : (markIndexed s record.jobId).sessions = s.sessions := by
          unfold markIndexed
          split <;> rfl
        show id ∈ (markIndexed s record.jobId).sessions session
        rw [same]
        exact listed
    | _ => exact Or.inl (Or.inl listed)
  · rcases taken there with still | dropped
    · exact Or.inl (Or.inr still)
    · exact Or.inr dropped

/-- A call that advances to the filing of a record has listed it. -/
theorem listed_of_filing (advances : Advances s late call next t) {record : RequestRecord}
    {submission : Nat} (files : next = .filing record submission) :
    record.jobId ∈ t.sessions record.session := by
  cases advances with
  | list own submission' =>
      cases files
      show record.jobId ∈ Function.update s.sessions record.session _ record.session
      rw [Function.update_self]
      exact Finset.mem_insert_self _ _
  | fetch | mark =>
      unfold answered at files
      split at files <;> cases files
  | publishFailed =>
      unfold failedWith at files
      split at files <;> cases files
  | _ => cases files

/-- **A call that advances keeps the registries consistent**, unless it is an `end_session` that removes the
record of an identifier that is still to be filed. -/
theorem registry_advances (advances : Advances s late call next t)
    (standing : s.calls[index]? = some call)
    (unraced : ∀ session ids, call = .dropping session ids →
      ∀ (other : Nat) (record : RequestRecord) (submission : Nat),
        s.calls[other]? = some (.filing record submission) →
          record.session = session → record.jobId ∉ ids)
    (registry : s.Registry) : (t.moveCall index next).Registry := by
  refine ⟨fun id record found => ?_, fun other record submission there => ?_⟩
  · rcases advances.requests_cases found with ⟨submission, files, rfl⟩ | ⟨old, before, same, kept⟩
    · rcases held_advances advances standing
        (registry.filing index record submission (files ▸ standing)) with held | ⟨ids, drops, _⟩
      · exact held
      · rw [files] at drops
        cases drops
    · have session : record.session = old.session := by
        rcases same with same | same <;> rw [same]
      rw [session]
      rcases held_advances advances standing (registry.filed id old before) with
        held | ⟨ids, drops, inside⟩
      · exact held
      · exact absurd inside (kept _ ids drops)
  · rcases advances.calls_cases there with ⟨_, files⟩ | ⟨_, before⟩
    · exact Or.inl (listed_of_filing advances files.symm)
    · rcases held_advances advances standing (registry.filing other record submission before) with
        held | ⟨ids, drops, inside⟩
      · exact held
      · exact absurd inside (unraced _ ids drops other record submission before rfl)

/-- **Every step keeps the registries consistent.** -/
theorem registry_step (label : Label τ) (registry : s.Registry) (unraced : Unraced label s) :
    (service.step label s).Registry := by
  cases label with
  | pipeline label => exact ⟨registry.filed, registry.filing⟩
  | submit request =>
      unfold step
      dsimp only
      split
      · exact registry_begins registry fun _ _ same => by cases same
      · exact registry_begins registry fun _ _ same => by cases same
  | query | retrieveResult | endSession =>
      exact registry_begins registry fun _ _ same => by cases same
  | wait id fits => exact registry_begins registry fun _ _ same => by split at same <;> cases same
  | resume index late =>
      unfold step
      dsimp only
      split
      case h_1 call standing =>
        rcases callStep_cases s index late call with same | ⟨next, t, advances, same⟩
        · rw [same]
          exact registry
        · rw [same]
          refine registry_advances advances standing (fun session ids drops => ?_) registry
          rw [drops] at standing
          exact unraced session ids standing
      case h_2 => exact registry

/-! ### When no call is in progress -/

/-- No call of the service is in progress. -/
def Settled (s : MpState τ) : Prop := ∀ call ∈ s.calls, call.returned = true

/-- `end_session`, run alone: what becomes of the maps, and the identifiers it counts. -/
def endAlone (s : MpState τ) (session : String) : MpState τ × Finset Nat :=
  ((s.closeSession session).dropRequests (s.sessions session),
    (s.sessions session).filter fun id => (s.requests id).isSome)

/-- An `end_session` that runs alone does that, and returns the count. -/
theorem endAlone_eq (service : MpCacheService τ) (s : MpState τ) (session : String) (late : Bool) :
    service.step (.resume s.calls.length late)
        (service.step (.resume s.calls.length late) (service.step (.endSession session) s)) =
      (endAlone s session).1.beginCall
        (.ended session (s.sessions session) (endAlone s session).2.card) := by
  have begun : (s.calls ++ [MpCall.ending session])[s.calls.length]? = some (.ending session) :=
    List.getElem?_concat_length
  have set : ∀ first second : MpCall, (s.calls ++ [first]).set s.calls.length second =
      s.calls ++ [second] := fun first second => by
    rw [List.set_append_right _ _ (Nat.le_refl _), Nat.sub_self]
    rfl
  have closed : (s.calls ++ [MpCall.dropping session (s.sessions session)])[s.calls.length]? =
      some (.dropping session (s.sessions session)) := List.getElem?_concat_length
  show service.step (.resume s.calls.length late) (service.step (.resume s.calls.length late)
    (s.beginCall (.ending session))) = _
  unfold step beginCall
  dsimp only
  rw [begun]
  dsimp only [callStep, moveCall, closeSession]
  rw [set, closed]
  dsimp only [callStep, moveCall, dropRequests, countRequests]
  rw [set]
  rfl

/-- **Every record is listed under its session** whenever no call is in progress, in a run in which no
`end_session` removes the records of a list while one of them is still to be filed. An `end_session` of the
session then removes the record, and counts it. -/
theorem registered_listed (service : MpCacheService τ) (tiers : KvState τ) {s : MpState τ}
    (reached : Reaches service.step Unraced (service.initial tiers) s) (settled : Settled s) {id : Nat}
    {record : RequestRecord} (filed : s.requests id = some record) :
    id ∈ s.sessions record.session ∧
      (endAlone s record.session).1.requests id = none ∧ id ∈ (endAlone s record.session).2 := by
  have registry : s.Registry := by
    refine reached.invariant _ ⟨fun _ _ found => ?_, fun _ _ _ there => ?_⟩
      fun label t before unraced => registry_step label before unraced
    · cases found
    · cases there
  have listed : id ∈ s.sessions record.session := by
    rcases registry.filed id record filed with listed | ⟨index, ids, there, _⟩
    · exact listed
    · have returned := settled _ (List.mem_of_getElem? there)
      cases returned
  refine ⟨listed, if_pos listed, Finset.mem_filter.mpr ⟨listed, ?_⟩⟩
  rw [filed]
  rfl

/-! ### Runs on fixed inputs -/

/-- A service over two memory tiers, with one worker. -/
def plainService : MpCacheService (Pair MemoryTier MemoryTier) where
  engine := twoMemoryTiers
  pipeline := ⟨twoMemoryTiers, 1, 4, by decide, by decide⟩
  digest := zeroDigest
  config := ⟨2, 0, 8, 1, 0⟩
  someTokens := by decide
  someLayers := by decide
  inside := by decide

def plainStart : MpState (Pair MemoryTier MemoryTier) :=
  plainService.initial (KvState.pair MemoryTier.empty MemoryTier.empty)

/-- The state after some steps. -/
def plainRun (labels : List (Label (Pair MemoryTier MemoryTier))) :
    MpState (Pair MemoryTier MemoryTier) :=
  labels.foldl (fun s label => plainService.step label s) plainStart

/-- A client submits a health check, up to the listing of its request. -/
def healthSubmitted : List (Label (Pair MemoryTier MemoryTier)) :=
  .submit (.health "s") :: List.replicate 5 (.pipeline (.advance 0)) ++
    [.resume 0 false, .resume 0 false]

/-- **An orphaned record**: an `end_session` takes the list and removes no record before the record is filed.
It stays after that, and after another `end_session`. -/
theorem record_orphaned :
    let s := plainRun (healthSubmitted ++
      [.endSession "s", .resume 1 false, .resume 1 false, .resume 0 false])
    Reaches plainService.step (fun _ _ => True) plainStart s ∧ Settled s ∧
      ∃ record, s.requests 1 = some record ∧ record.session = "s" ∧
        1 ∉ s.sessions "s" ∧ (endAlone s "s").1.requests 1 = some record ∧
        1 ∉ (endAlone s "s").2 := by
  refine ⟨.foldl (fun _ _ => trivial) _ _, ?_, _, rfl, rfl, by decide, rfl, by decide⟩
  exact List.all_eq_true.mp rfl

/-- A health check that is registered, and listed. -/
theorem registered_listed_health :
    let s := plainRun (healthSubmitted ++ [.resume 0 false])
    ∃ record, s.requests 1 = some record ∧ 1 ∈ s.sessions record.session ∧
      (endAlone s record.session).1.requests 1 = none ∧ 1 ∈ (endAlone s record.session).2 := by
  have reached : Reaches plainService.step Unraced plainStart
      (plainRun (healthSubmitted ++ [.resume 0 false])) :=
    .ofList ⟨trivial, trivial, trivial, trivial, trivial, trivial,
      (fun _ _ there => by cases there), (fun _ _ there => by cases there),
      (fun _ _ there => by cases there), trivial⟩
  refine ⟨_, rfl, ?_⟩
  exact registered_listed plainService _ reached (List.all_eq_true.mp rfl) rfl

end MpCacheService

end RivetCache
