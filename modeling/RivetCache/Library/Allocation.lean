/-
**Allocations and releases.**

A log of allocations and releases, the latest first. What is live is what was allocated and not released
since (`live`); a release is proper where it releases what is live (`ReleasesLive`), so that nothing is
released twice without an allocation in between (`ReleasesLive.between`).

`Accounts`: the live resources are the ones that owners hold, each held by one owner. It is kept

* where resources change hands (`Accounts.permuted`),
* where an owner allocates a resource of a new handle (`Accounts.allocated`),
* where an owner releases what it holds (`Accounts.released`).
-/

import RivetCache.Library.Ownership

set_option linter.unusedSectionVars false

namespace Library

variable {Owner Resource Handle : Type}

/-! ### Logs -/

/-- An allocation, or a release of whatever has a handle. -/
inductive AllocationEvent (Resource Handle : Type) where
  | allocated (resource : Resource)
  | released (handle : Handle)
  deriving DecidableEq

section

variable [DecidableEq Resource] [DecidableEq Handle] (handle : Resource → Handle)

/-- **What is live**: allocated, and not released since. -/
def live : List (AllocationEvent Resource Handle) → Finset Resource
  | [] => ∅
  | .allocated resource :: earlier => insert resource (live earlier)
  | .released freed :: earlier => (live earlier).filter fun resource => handle resource ≠ freed

/-- **Only what is live is released.** -/
def ReleasesLive : List (AllocationEvent Resource Handle) → Prop
  | [] => True
  | .allocated _ :: earlier => ReleasesLive earlier
  | .released freed :: earlier =>
      (∃ resource ∈ live handle earlier, handle resource = freed) ∧ ReleasesLive earlier

variable {handle}

theorem mem_live_allocated {resource other : Resource}
    {earlier : List (AllocationEvent Resource Handle)} :
    other ∈ live handle (.allocated resource :: earlier) ↔
      other = resource ∨ other ∈ live handle earlier :=
  Finset.mem_insert

theorem mem_live_released {freed : Handle} {other : Resource}
    {earlier : List (AllocationEvent Resource Handle)} :
    other ∈ live handle (.released freed :: earlier) ↔
      other ∈ live handle earlier ∧ handle other ≠ freed :=
  Finset.mem_filter

/-- What is live after a release was allocated since. -/
theorem allocated_since {freed : Handle} {earlier : List (AllocationEvent Resource Handle)}
    {resource : Resource} (same : handle resource = freed) :
    ∀ since, resource ∈ live handle (since ++ .released freed :: earlier) →
      .allocated resource ∈ since
  | [], inside => absurd same (mem_live_released.mp inside).2
  | .allocated other :: since, inside => by
      rcases mem_live_allocated.mp inside with rfl | before
      · exact List.mem_cons_self
      · exact List.mem_cons_of_mem _ (allocated_since same since before)
  | .released other :: since, inside =>
      List.mem_cons_of_mem _ (allocated_since same since (mem_live_released.mp inside).1)

theorem ReleasesLive.of_append {later earlier : List (AllocationEvent Resource Handle)}
    (proper : ReleasesLive handle (later ++ earlier)) : ReleasesLive handle earlier := by
  induction later with
  | nil => exact proper
  | cons event later ih =>
      cases event with
      | allocated resource => exact ih proper
      | released freed => exact ih proper.2

/-- **Nothing is released twice** without an allocation in between. -/
theorem ReleasesLive.between {later between earlier : List (AllocationEvent Resource Handle)}
    {freed : Handle}
    (proper : ReleasesLive handle
      (later ++ .released freed :: (between ++ .released freed :: earlier))) :
    ∃ resource, handle resource = freed ∧ .allocated resource ∈ between := by
  obtain ⟨⟨resource, inside, same⟩, _⟩ := proper.of_append
  exact ⟨resource, same, allocated_since same between inside⟩

end

/-! ### Accounts -/

section

variable [DecidableEq Resource] [DecidableEq Handle] {handle : Resource → Handle}
  {owned : Owner → Option Resource} {log : List (AllocationEvent Resource Handle)}

/-- **The account of a log**: the owners hold what is live, each resource is held once, and nothing that
is not live was released. -/
structure Accounts (handle : Resource → Handle) (owned : Owner → Option Resource)
    (log : List (AllocationEvent Resource Handle)) : Prop where
  sole : Sole handle owned
  live_iff : ∀ resource, resource ∈ live handle log ↔ ∃ owner, owned owner = some resource
  proper : ReleasesLive handle log

namespace Accounts

theorem nothing (empty : ∀ owner, owned owner = none) : Accounts handle owned [] where
  sole owner other mine theirs held := by
    rw [empty] at held
    cases held
  live_iff resource := by
    refine ⟨fun inside => absurd inside (Finset.notMem_empty _), ?_⟩
    rintro ⟨owner, held⟩
    rw [empty] at held
    cases held
  proper := trivial

/-- **Resources change hands.** -/
theorem permuted (accounts : Accounts handle owned log) (hands : Equiv.Perm Owner) :
    Accounts handle (fun owner => owned (hands owner)) log where
  sole := accounts.sole.permuted hands
  live_iff resource := by
    rw [accounts.live_iff]
    exact (hands.surjective.exists (p := fun owner => owned owner = some resource))
  proper := accounts.proper

variable [DecidableEq Owner]

/-- **A new resource**, of a handle that nothing live has. -/
theorem allocated (accounts : Accounts handle owned log) {gainer : Owner} {resource : Resource}
    (idle : owned gainer = none)
    (fresh : ∀ other ∈ live handle log, handle other ≠ handle resource) :
    Accounts handle (Function.update owned gainer (some resource)) (.allocated resource :: log) where
  sole := accounts.sole.update_some gainer resource fun owner held owns =>
    fresh held ((accounts.live_iff held).mpr ⟨owner, owns⟩)
  live_iff other := by
    rw [mem_live_allocated, accounts.live_iff]
    constructor
    · rintro (rfl | ⟨owner, owns⟩)
      · exact ⟨gainer, Function.update_self _ _ _⟩
      · refine ⟨owner, ?_⟩
        rw [Function.update_of_ne (fun own => by rw [own, idle] at owns; cases owns)]
        exact owns
    · rintro ⟨owner, owns⟩
      by_cases own : owner = gainer
      · rw [own, Function.update_self] at owns
        exact Or.inl (Option.some.inj owns).symm
      · rw [Function.update_of_ne own] at owns
        exact Or.inr ⟨owner, owns⟩
  proper := accounts.proper

/-- **An owner releases** what it holds. -/
theorem released (accounts : Accounts handle owned log) {owner : Owner} {resource : Resource}
    (holds : owned owner = some resource) :
    Accounts handle (Function.update owned owner none) (.released (handle resource) :: log) where
  sole := accounts.sole.update_none owner
  live_iff other := by
    rw [mem_live_released, accounts.live_iff]
    constructor
    · rintro ⟨⟨other_owner, owns⟩, apart⟩
      refine ⟨other_owner, ?_⟩
      rw [Function.update_of_ne (fun own => ?_)]
      · exact owns
      · rw [own, holds] at owns
        exact apart (congrArg handle (Option.some.inj owns)).symm
    · rintro ⟨other_owner, owns⟩
      by_cases own : other_owner = owner
      · rw [own, Function.update_self] at owns
        cases owns
      · rw [Function.update_of_ne own] at owns
        exact ⟨⟨other_owner, owns⟩, accounts.sole.apart own owns holds⟩
  proper := ⟨⟨resource, (accounts.live_iff resource).mpr ⟨owner, holds⟩, rfl⟩, accounts.proper⟩

/-- A handle that an owner holds is the handle of something live. -/
theorem live_of_owned (accounts : Accounts handle owned log) {owner : Owner} {resource : Resource}
    (holds : owned owner = some resource) : resource ∈ live handle log :=
  (accounts.live_iff resource).mpr ⟨owner, holds⟩

end Accounts

end

end Library
