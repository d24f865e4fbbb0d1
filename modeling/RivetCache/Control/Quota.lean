/-
**`control.rs`: tenant quotas.**

A `QuotaManager` keeps the limits and the usage of its tenants under one lock. Reservations and request
leases are objects of their own: a client holds them, and commits, drops or releases them later. They are
known here by the number of their making, so that a run is a sequence of calls on the manager and on the
objects it has handed out.

* `Accounted`: what is reserved is what the pending reservations amount to, and what is used or reserved
  is within the limits;
* `reserve_accounted_iff`: a reservation keeps that exactly where its check was made without saturation;
* `storage_accounted`: it holds in every state that runs of such reservations and any other calls reach;
* `unlimited_overflows`: a tenant whose limit is the greatest `u64` can hold more than its limit.
-/

import RivetCache.Base
import RivetCache.Library.Table
import RivetCache.Library.Run

set_option linter.unusedSectionVars false

namespace RivetCache

open Library

/-! ### Tenants -/

/-- `TenantQuota`. -/
structure TenantQuota where
  maxBytes : Nat
  maxEntries : Nat
  maxInflight : Nat
  deriving DecidableEq

/-- `TenantQuota::validate`. -/
def TenantQuota.validate (quota : TenantQuota) : Except IoError Unit :=
  if quota.maxBytes = 0 ∨ quota.maxEntries = 0 ∨ quota.maxInflight = 0 then
    .error ⟨.invalidInput, "tenant quota limits must all be greater than zero"⟩
  else .ok ()

/-- `TenantUsage`. -/
structure TenantUsage where
  usedBytes : Nat := 0
  usedEntries : Nat := 0
  reservedBytes : Nat := 0
  reservedEntries : Nat := 0
  inflight : Nat := 0
  deriving DecidableEq

/-- `TenantState`. -/
structure TenantState where
  quota : TenantQuota
  usage : TenantUsage
  deriving DecidableEq

/-- `QuotaInner`. -/
abbrev Tenants := Table String TenantState

/-- `ReservationState`. -/
inductive ReservationState where
  | pending
  | committed
  | released
  deriving DecidableEq

/-- `StorageReservation`. -/
structure StorageReservation where
  tenant : String
  bytes : Nat
  entries : Nat
  state : ReservationState
  deriving DecidableEq

/-- `RequestLease`. -/
structure RequestLease where
  tenant : String
  released : Bool
  deriving DecidableEq

/-- `validate_id` of `control.rs`. -/
def validateControlId (value field : String) : Except IoError Unit :=
  if value.isEmpty ∨ 128 < value.utf8ByteSize ∨
      ¬ value.toList.all fun c => c.isAlphanum || c == '-' || c == '_' || c == '.' || c == ':' then
    .error ⟨.invalidInput, s!"invalid {field} id"⟩
  else .ok ()

def noQuota (tenant : String) : IoError := ⟨.notFound, s!"tenant {tenant} has no quota"⟩

/-! ### The manager's calls -/

/-- `set_quota`, the test of an existing tenant. -/
def TenantUsage.exceeds (usage : TenantUsage) (quota : TenantQuota) : Bool :=
  decide (quota.maxBytes < satAdd usage.usedBytes usage.reservedBytes) ||
    decide (quota.maxEntries < satAdd usage.usedEntries usage.reservedEntries) ||
    decide (quota.maxInflight < usage.inflight)

/-- `set_quota`. -/
def setQuota (tenant : String) (quota : TenantQuota) (tenants : Tenants) :
    Except IoError Unit × Tenants :=
  match validateControlId tenant "tenant" with
  | .error error => (.error error, tenants)
  | .ok () =>
      match quota.validate with
      | .error error => (.error error, tenants)
      | .ok () =>
          match tenants.lookup tenant with
          | none => (.ok (), tenants.insert tenant ⟨quota, {}⟩)
          | some state =>
              if state.usage.exceeds quota then
                (.error ⟨.invalidInput, "new quota is below current tenant usage"⟩, tenants)
              else (.ok (), tenants.insert tenant { state with quota := quota })

/-- `begin_request`. -/
def beginRequest (tenant : String) (tenants : Tenants) : Except IoError RequestLease × Tenants :=
  match tenants.lookup tenant with
  | none => (.error (noQuota tenant), tenants)
  | some state =>
      if state.quota.maxInflight ≤ state.usage.inflight then
        (.error ⟨.wouldBlock, s!"tenant {tenant} exceeded max_inflight"⟩, tenants)
      else
        (.ok ⟨tenant, false⟩, tenants.insert tenant
          { state with usage := { state.usage with inflight := state.usage.inflight + 1 } })

/-- `release_inner`. -/
def releaseInner (lease : RequestLease) (tenants : Tenants) : RequestLease × Tenants :=
  if lease.released then (lease, tenants)
  else
    ({ lease with released := true },
      match tenants.lookup lease.tenant with
      | none => tenants
      | some state => tenants.insert lease.tenant
          { state with usage := { state.usage with inflight := satSub state.usage.inflight 1 } })

/-- `reserve_storage`, the test: used, reserved and new together exceed a limit. -/
def TenantState.overflows (state : TenantState) (bytes entries : Nat) : Bool :=
  decide (state.quota.maxBytes <
      satAdd (satAdd state.usage.usedBytes state.usage.reservedBytes) bytes) ||
    decide (state.quota.maxEntries <
      satAdd (satAdd state.usage.usedEntries state.usage.reservedEntries) entries)

/-- `reserve_storage`. -/
def reserveStorage (tenant : String) (bytes entries : Nat) (tenants : Tenants) :
    Except IoError StorageReservation × Tenants :=
  if bytes = 0 ∨ entries = 0 then
    (.error ⟨.invalidInput, "storage reservations require non-zero bytes and entries"⟩, tenants)
  else
    match tenants.lookup tenant with
    | none => (.error (noQuota tenant), tenants)
    | some state =>
        if state.overflows bytes entries then
          (.error ⟨.other, s!"tenant {tenant} exceeded storage quota"⟩, tenants)
        else
          (.ok ⟨tenant, bytes, entries, .pending⟩, tenants.insert tenant
            { state with
              usage := { state.usage with
                reservedBytes := satAdd state.usage.reservedBytes bytes
                reservedEntries := satAdd state.usage.reservedEntries entries } })

/-- `release_storage`. -/
def releaseStorage (tenant : String) (bytes entries : Nat) (tenants : Tenants) :
    Except IoError Unit × Tenants :=
  match tenants.lookup tenant with
  | none => (.error (noQuota tenant), tenants)
  | some state =>
      (.ok (), tenants.insert tenant
        { state with
          usage := { state.usage with
            usedBytes := satSub state.usage.usedBytes bytes
            usedEntries := satSub state.usage.usedEntries entries } })

/-- `commit`, before the reservation is dropped. -/
def commitReservation (reservation : StorageReservation) (tenants : Tenants) :
    Except IoError Unit × StorageReservation × Tenants :=
  match tenants.lookup reservation.tenant with
  | none => (.error ⟨.notFound, "tenant disappeared during reservation"⟩, reservation, tenants)
  | some state =>
      (.ok (), { reservation with state := .committed }, tenants.insert reservation.tenant
        { state with
          usage := { state.usage with
            reservedBytes := satSub state.usage.reservedBytes reservation.bytes
            reservedEntries := satSub state.usage.reservedEntries reservation.entries
            usedBytes := satAdd state.usage.usedBytes reservation.bytes
            usedEntries := satAdd state.usage.usedEntries reservation.entries } })

/-- `rollback`, which `drop` calls. -/
def rollBackReservation (reservation : StorageReservation) (tenants : Tenants) :
    StorageReservation × Tenants :=
  if reservation.state ≠ .pending then (reservation, tenants)
  else
    ({ reservation with state := .released },
      match tenants.lookup reservation.tenant with
      | none => tenants
      | some state => tenants.insert reservation.tenant
          { state with
            usage := { state.usage with
              reservedBytes := satSub state.usage.reservedBytes reservation.bytes
              reservedEntries := satSub state.usage.reservedEntries reservation.entries } })

/-! ### Runs -/

/-- A `QuotaManager` and the objects it has handed out; `made` numbers the next one. -/
structure QuotaManager where
  tenants : Tenants
  reservations : Table Nat StorageReservation
  leases : Table Nat RequestLease
  made : Nat

/-- `QuotaManager::new`. -/
def QuotaManager.new : QuotaManager := ⟨∅, ∅, ∅, 0⟩

/-- A call on the manager or on an object it has handed out. -/
inductive QuotaCall where
  | setQuota (tenant : String) (quota : TenantQuota)
  | beginRequest (tenant : String)
  | releaseLease (lease : Nat)
  | reserveStorage (tenant : String) (bytes entries : Nat)
  | commit (reservation : Nat)
  | drop (reservation : Nat)
  | releaseStorage (tenant : String) (bytes entries : Nat)

/-- The effect of a call. `commit` takes its reservation, which is dropped at its end. -/
def QuotaManager.step (call : QuotaCall) (m : QuotaManager) : QuotaManager :=
  match call with
  | .setQuota tenant quota => { m with tenants := (RivetCache.setQuota tenant quota m.tenants).2 }
  | .beginRequest tenant =>
      match RivetCache.beginRequest tenant m.tenants with
      | (.error _, tenants) => { m with tenants := tenants }
      | (.ok lease, tenants) =>
          { m with tenants := tenants, leases := m.leases.insert m.made lease, made := m.made + 1 }
  | .releaseLease lease =>
      match m.leases.lookup lease with
      | none => m
      | some held =>
          { m with tenants := (releaseInner held m.tenants).2, leases := m.leases.erase lease }
  | .reserveStorage tenant bytes entries =>
      match RivetCache.reserveStorage tenant bytes entries m.tenants with
      | (.error _, tenants) => { m with tenants := tenants }
      | (.ok reservation, tenants) =>
          { m with
            tenants := tenants
            reservations := m.reservations.insert m.made reservation
            made := m.made + 1 }
  | .commit reservation =>
      match m.reservations.lookup reservation with
      | none => m
      | some held =>
          let (_, held, tenants) := commitReservation held m.tenants
          { m with
            tenants := (rollBackReservation held tenants).2
            reservations := m.reservations.erase reservation }
  | .drop reservation =>
      match m.reservations.lookup reservation with
      | none => m
      | some held =>
          { m with
            tenants := (rollBackReservation held m.tenants).2
            reservations := m.reservations.erase reservation }
  | .releaseStorage tenant bytes entries =>
      { m with tenants := (RivetCache.releaseStorage tenant bytes entries m.tenants).2 }

/-! ### What is accounted for -/

/-- What a tenant's storage is counted in. -/
inductive Resource where
  | bytes
  | entries
  deriving DecidableEq

def TenantQuota.limit (quota : TenantQuota) : Resource → Nat
  | .bytes => quota.maxBytes
  | .entries => quota.maxEntries

def TenantUsage.used (usage : TenantUsage) : Resource → Nat
  | .bytes => usage.usedBytes
  | .entries => usage.usedEntries

def TenantUsage.reserved (usage : TenantUsage) : Resource → Nat
  | .bytes => usage.reservedBytes
  | .entries => usage.reservedEntries

def StorageReservation.amount (reservation : StorageReservation) : Resource → Nat
  | .bytes => reservation.bytes
  | .entries => reservation.entries

/-- What the reservations of a tenant amount to. -/
def pendingAmount (reservations : Table Nat StorageReservation) (tenant : String)
    (resource : Resource) : Nat :=
  total (fun reservation => if reservation.tenant = tenant then reservation.amount resource else 0)
    reservations

/-- **A tenant is accounted for**: its reserved amounts are those of its pending reservations, and its
used and reserved amounts, as integers, are within its limits. -/
structure TenantState.Accounted (state : TenantState) (reservations : Table Nat StorageReservation)
    (tenant : String) : Prop where
  reserved : ∀ resource, state.usage.reserved resource = pendingAmount reservations tenant resource
  within : ∀ resource,
    state.usage.used resource + state.usage.reserved resource ≤ state.quota.limit resource

/-- Every tenant is accounted for. -/
def QuotaManager.Accounted (m : QuotaManager) : Prop :=
  ∀ tenant state, m.tenants.lookup tenant = some state → state.Accounted m.reservations tenant

/-- **The test of a reservation is exact**: it refuses, or no sum it forms saturates. -/
def TenantState.TestsExactly (state : TenantState) (bytes entries : Nat) : Prop :=
  (bytes = 0 ∨ entries = 0) ∨ state.overflows bytes entries = true ∨
    (state.usage.usedBytes + state.usage.reservedBytes + bytes ≤ u64Max ∧
      state.usage.usedEntries + state.usage.reservedEntries + entries ≤ u64Max)

/-- Every call but a reservation whose test saturates. -/
def QuotaManager.TestsExactly (call : QuotaCall) (m : QuotaManager) : Prop :=
  match call with
  | .reserveStorage tenant bytes entries =>
      ∀ state, m.tenants.lookup tenant = some state → state.TestsExactly bytes entries
  | _ => True

/-! ### Amounts -/

/-- The state of a tenant after an admitted reservation. -/
def TenantState.reserve (state : TenantState) (bytes entries : Nat) : TenantState :=
  { state with
    usage := { state.usage with
      reservedBytes := satAdd state.usage.reservedBytes bytes
      reservedEntries := satAdd state.usage.reservedEntries entries } }

/-- The state of a tenant after a reservation has left it, with the given used amounts. -/
def TenantState.settle (state : TenantState) (reservation : StorageReservation)
    (usedBytes usedEntries : Nat) : TenantState :=
  { state with
    usage := { state.usage with
      reservedBytes := satSub state.usage.reservedBytes reservation.bytes
      reservedEntries := satSub state.usage.reservedEntries reservation.entries
      usedBytes := usedBytes
      usedEntries := usedEntries } }

section Amounts

variable {reservations : Table Nat StorageReservation} {handle : Nat}
  {reservation : StorageReservation}

theorem pendingAmount_insert (absent : reservations.lookup handle = none) (tenant : String)
    (resource : Resource) :
    pendingAmount (reservations.insert handle reservation) tenant resource =
      (if reservation.tenant = tenant then reservation.amount resource else 0) +
        pendingAmount reservations tenant resource :=
  total_insert_absent _ absent reservation

theorem pendingAmount_erase (held : reservations.lookup handle = some reservation)
    (tenant : String) (resource : Resource) :
    pendingAmount (reservations.erase handle) tenant resource +
        (if reservation.tenant = tenant then reservation.amount resource else 0) =
      pendingAmount reservations tenant resource :=
  total_erase _ held

theorem pendingAmount_erase_own (held : reservations.lookup handle = some reservation)
    (resource : Resource) :
    pendingAmount (reservations.erase handle) reservation.tenant resource +
        reservation.amount resource = pendingAmount reservations reservation.tenant resource := by
  have parts := pendingAmount_erase held reservation.tenant resource
  rwa [if_pos rfl] at parts

theorem pendingAmount_erase_other (held : reservations.lookup handle = some reservation)
    {tenant : String} (different : tenant ≠ reservation.tenant) (resource : Resource) :
    pendingAmount (reservations.erase handle) tenant resource =
      pendingAmount reservations tenant resource := by
  have parts := pendingAmount_erase held tenant resource
  rwa [if_neg (Ne.symm different), add_zero] at parts

theorem pendingAmount_eq_zero {tenant : String}
    (strangers : ∀ handle reservation, reservations.lookup handle = some reservation →
      reservation.tenant ≠ tenant) (resource : Resource) :
    pendingAmount reservations tenant resource = 0 := by
  have bound : pendingAmount reservations tenant resource ≤ total (fun _ => 0) reservations := by
    apply total_le_total
    intro handle reservation present
    rw [if_neg (strangers handle reservation present)]
  have nothing : total (fun _ : StorageReservation => 0) reservations = 0 := by simp [total]
  omega

end Amounts

/-! ### The invariant -/

namespace QuotaManager

/-- The accounts, with what they rest on: amounts that a `u64` holds, and reservations that are pending,
of a known tenant and numbered below the next. -/
structure Kept (m : QuotaManager) : Prop where
  accounted : m.Accounted
  fits : ∀ tenant state, m.tenants.lookup tenant = some state → ∀ resource,
    state.usage.used resource + state.usage.reserved resource ≤ u64Max
  pending : ∀ handle reservation, m.reservations.lookup handle = some reservation →
    reservation.state = .pending
  known : ∀ handle reservation, m.reservations.lookup handle = some reservation →
    ∃ state, m.tenants.lookup reservation.tenant = some state
  unmade : ∀ handle, m.made ≤ handle → m.reservations.lookup handle = none

theorem kept_new : new.Kept where
  accounted _ _ present := by cases present
  fits _ _ present := by cases present
  pending _ _ present := by cases present
  known _ _ present := by cases present
  unmade _ _ := rfl

variable {m : QuotaManager} {tenant : String} {state : TenantState}

/-- **One tenant's usage changes**: the reservations of the other tenants stay as they are. -/
theorem Kept.update (kept : m.Kept) {after : TenantState} {next : QuotaManager}
    (tenants : next.tenants = m.tenants.insert tenant after)
    (own : after.Accounted next.reservations tenant)
    (fits : ∀ resource, after.usage.used resource + after.usage.reserved resource ≤ u64Max)
    (others : ∀ other, other ≠ tenant → ∀ resource,
      pendingAmount next.reservations other resource = pendingAmount m.reservations other resource)
    (reservations : ∀ handle reservation, next.reservations.lookup handle = some reservation →
      m.reservations.lookup handle = some reservation ∨
        (reservation.tenant = tenant ∧ reservation.state = .pending))
    (unmade : ∀ handle, next.made ≤ handle → next.reservations.lookup handle = none) :
    next.Kept where
  accounted other kept_state present := by
    rw [tenants, lookup_insert_eq] at present
    by_cases same : other = tenant
    · subst same
      rw [if_pos rfl] at present
      cases present
      exact own
    · rw [if_neg same] at present
      have before := kept.accounted other kept_state present
      exact ⟨fun resource => (before.reserved resource).trans (others other same resource).symm,
        before.within⟩
  fits other kept_state present := by
    rw [tenants, lookup_insert_eq] at present
    by_cases same : other = tenant
    · rw [if_pos same] at present
      cases present
      exact fits
    · rw [if_neg same] at present
      exact kept.fits other kept_state present
  pending handle reservation present := by
    rcases reservations handle reservation present with before | ⟨_, pending⟩
    · exact kept.pending handle reservation before
    · exact pending
  known handle reservation present := by
    rw [tenants, lookup_insert_eq]
    by_cases same : reservation.tenant = tenant
    · exact ⟨after, if_pos same⟩
    · rw [if_neg same]
      rcases reservations handle reservation present with before | ⟨own, _⟩
      · exact kept.known handle reservation before
      · exact (same own).elim
  unmade := unmade

/-- A tenant's usage changes, the reservations do not. -/
theorem Kept.replace (kept : m.Kept) {after : TenantState}
    (own : after.Accounted m.reservations tenant)
    (fits : ∀ resource, after.usage.used resource + after.usage.reserved resource ≤ u64Max) :
    ({ m with tenants := m.tenants.insert tenant after } : QuotaManager).Kept :=
  kept.update rfl own fits (fun _ _ _ => rfl) (fun _ _ present => Or.inl present) kept.unmade

/-! ### Steps -/

/-- An accepted quota covers what is used and reserved. -/
theorem within_of_accepted {usage : TenantUsage} {quota : TenantQuota}
    (fits : ∀ resource, usage.used resource + usage.reserved resource ≤ u64Max)
    (accepted : usage.exceeds quota = false) (resource : Resource) :
    usage.used resource + usage.reserved resource ≤ quota.limit resource := by
  have bytes := satAdd_of_le (fits .bytes)
  have entries := satAdd_of_le (fits .entries)
  unfold TenantUsage.used TenantUsage.reserved at *
  simp only at bytes entries
  unfold TenantUsage.exceeds at accepted
  rw [bytes, entries] at accepted
  simp only [Bool.or_eq_false_iff, decide_eq_false_iff_not, not_lt] at accepted
  obtain ⟨⟨bytes_within, entries_within⟩, _⟩ := accepted
  cases resource
  · exact bytes_within
  · exact entries_within

theorem setQuota_kept (kept : m.Kept) (tenant : String) (quota : TenantQuota) :
    (m.step (.setQuota tenant quota)).Kept := by
  simp only [step, setQuota]
  split
  case h_1 _ _ => exact kept
  case h_2 _ =>
    split
    case h_1 _ _ => exact kept
    case h_2 _ =>
      split
      case h_1 absent =>
        have strangers : ∀ handle reservation, m.reservations.lookup handle = some reservation →
            reservation.tenant ≠ tenant := by
          intro handle reservation present same
          obtain ⟨_, found⟩ := kept.known handle reservation present
          rw [same, absent] at found
          cases found
        refine kept.replace ⟨fun resource => ?_, fun resource => ?_⟩ fun resource => ?_
        · rw [pendingAmount_eq_zero strangers]
          cases resource <;> rfl
        · cases resource <;> exact Nat.zero_le _
        · cases resource <;> exact Nat.zero_le _
      case h_2 state found =>
        split
        case isTrue _ => exact kept
        case isFalse accepted =>
          have fits := kept.fits tenant state found
          exact kept.replace ⟨(kept.accounted tenant state found).reserved,
            within_of_accepted fits (Bool.eq_false_of_not_eq_true accepted)⟩ fits

/-- A change of `inflight` alone. -/
theorem Kept.inflight (kept : m.Kept) (found : m.tenants.lookup tenant = some state)
    (inflight : Nat) :
    ({ m with
      tenants := m.tenants.insert tenant
        { state with usage := { state.usage with inflight := inflight } } } : QuotaManager).Kept := by
  have before := kept.accounted tenant state found
  refine kept.replace ⟨fun resource => ?_, fun resource => ?_⟩ fun resource => ?_
  · have same := before.reserved resource
    cases resource <;> exact same
  · have same := before.within resource
    cases resource <;> exact same
  · have same := kept.fits tenant state found resource
    cases resource <;> exact same

theorem beginRequest_kept (kept : m.Kept) (tenant : String) :
    (m.step (.beginRequest tenant)).Kept := by
  simp only [step, beginRequest]
  cases found : m.tenants.lookup tenant with
  | none => exact kept
  | some state =>
      by_cases full : state.quota.maxInflight ≤ state.usage.inflight
      · simp only [full, if_true]
        exact kept
      · simp only [full, if_false]
        have after := kept.inflight found (state.usage.inflight + 1)
        exact ⟨after.accounted, after.fits, after.pending, after.known,
          fun handle unmade => kept.unmade handle (Nat.le_of_succ_le unmade)⟩

theorem releaseLease_kept (kept : m.Kept) (lease : Nat) : (m.step (.releaseLease lease)).Kept := by
  simp only [step]
  cases held : m.leases.lookup lease with
  | none => exact kept
  | some lease =>
      simp only
      unfold releaseInner
      split
      case isTrue _ => exact ⟨kept.accounted, kept.fits, kept.pending, kept.known, kept.unmade⟩
      case isFalse _ =>
        split
        case h_1 _ => exact ⟨kept.accounted, kept.fits, kept.pending, kept.known, kept.unmade⟩
        case h_2 state found =>
          have after := kept.inflight found (satSub state.usage.inflight 1)
          exact ⟨after.accounted, after.fits, after.pending, after.known, after.unmade⟩

theorem releaseStorage_kept (kept : m.Kept) (tenant : String) (bytes entries : Nat) :
    (m.step (.releaseStorage tenant bytes entries)).Kept := by
  simp only [step, releaseStorage]
  split
  case h_1 _ => exact kept
  case h_2 state found =>
    have before := kept.accounted tenant state found
    have less : ∀ resource, ({ state.usage with
        usedBytes := satSub state.usage.usedBytes bytes
        usedEntries := satSub state.usage.usedEntries entries } : TenantUsage).used resource ≤
          state.usage.used resource := by
      intro resource
      cases resource <;> exact Nat.sub_le _ _
    have same : ∀ resource, ({ state.usage with
        usedBytes := satSub state.usage.usedBytes bytes
        usedEntries := satSub state.usage.usedEntries entries } : TenantUsage).reserved resource =
          state.usage.reserved resource := by
      intro resource
      cases resource <;> rfl
    refine kept.replace ⟨fun resource => ?_, fun resource => ?_⟩ fun resource => ?_
    · rw [same, before.reserved]
    · rw [same]
      exact (Nat.add_le_add_right (less resource) _).trans (before.within resource)
    · rw [same]
      exact (Nat.add_le_add_right (less resource) _).trans (kept.fits tenant state found resource)

/-- What a reservation does. -/
theorem reserveStorage_cases (m : QuotaManager) (tenant : String) (bytes entries : Nat) :
    m.step (.reserveStorage tenant bytes entries) = m ∨
      ∃ state, m.tenants.lookup tenant = some state ∧ ¬ (bytes = 0 ∨ entries = 0) ∧
        state.overflows bytes entries = false ∧
        m.step (.reserveStorage tenant bytes entries) =
          { m with
            tenants := m.tenants.insert tenant (state.reserve bytes entries)
            reservations := m.reservations.insert m.made ⟨tenant, bytes, entries, .pending⟩
            made := m.made + 1 } := by
  simp only [step, reserveStorage]
  by_cases zero : bytes = 0 ∨ entries = 0
  · exact Or.inl (by simp only [zero, if_true])
  · simp only [zero, if_false]
    cases found : m.tenants.lookup tenant with
    | none => exact Or.inl rfl
    | some state =>
        cases refused : state.overflows bytes entries with
        | true => exact Or.inl (by simp only [refused, if_true])
        | false =>
            refine Or.inr ⟨state, rfl, not_false, refused, ?_⟩
            simp only [refused, Bool.false_eq_true, if_false]
            rfl

/-- The sums of an exact test are within the limits. -/
theorem within_of_admitted {bytes entries : Nat}
    (bytes_fit : state.usage.usedBytes + state.usage.reservedBytes + bytes ≤ u64Max)
    (entries_fit : state.usage.usedEntries + state.usage.reservedEntries + entries ≤ u64Max)
    (admitted : state.overflows bytes entries = false) :
    state.usage.usedBytes + state.usage.reservedBytes + bytes ≤ state.quota.maxBytes ∧
      state.usage.usedEntries + state.usage.reservedEntries + entries ≤ state.quota.maxEntries := by
  unfold TenantState.overflows at admitted
  rw [satAdd_of_le ((Nat.le_add_right _ _).trans bytes_fit), satAdd_of_le bytes_fit,
    satAdd_of_le ((Nat.le_add_right _ _).trans entries_fit), satAdd_of_le entries_fit] at admitted
  simpa using admitted

/-- **A reservation whose test is exact** keeps the accounts. -/
theorem reserveStorage_kept (kept : m.Kept) {bytes entries : Nat}
    (exactly : ∀ state, m.tenants.lookup tenant = some state → state.TestsExactly bytes entries) :
    (m.step (.reserveStorage tenant bytes entries)).Kept := by
  rcases m.reserveStorage_cases tenant bytes entries with same | ⟨state, found, nonzero, admitted, after⟩
  · rw [same]
    exact kept
  · rw [after]
    have before := kept.accounted tenant state found
    have absent := kept.unmade m.made le_rfl
    obtain ⟨bytes_fit, entries_fit⟩ : state.usage.usedBytes + state.usage.reservedBytes + bytes ≤
        u64Max ∧ state.usage.usedEntries + state.usage.reservedEntries + entries ≤ u64Max := by
      rcases exactly state found with zero | refused | fits
      · exact (nonzero zero).elim
      · rw [admitted] at refused
        cases refused
      · exact fits
    obtain ⟨bytes_within, entries_within⟩ := within_of_admitted bytes_fit entries_fit admitted
    have bytes_sum : satAdd state.usage.reservedBytes bytes = state.usage.reservedBytes + bytes :=
      satAdd_of_le (by omega)
    have entries_sum : satAdd state.usage.reservedEntries entries =
        state.usage.reservedEntries + entries := satAdd_of_le (by omega)
    have reserved : ∀ resource, (state.reserve bytes entries).usage.reserved resource =
        state.usage.reserved resource +
          (⟨tenant, bytes, entries, .pending⟩ : StorageReservation).amount resource := by
      intro resource
      cases resource
      · exact bytes_sum
      · exact entries_sum
    refine kept.update rfl ⟨fun resource => ?_, fun resource => ?_⟩ (fun resource => ?_)
      (fun other different resource => ?_) (fun handle reservation present => ?_)
      fun handle unmade => ?_
    · show _ = pendingAmount (m.reservations.insert m.made _) tenant resource
      rw [pendingAmount_insert absent, if_pos rfl, reserved, before.reserved, add_comm]
    · rw [reserved]
      cases resource
      · exact (Nat.add_assoc _ _ _).symm.le.trans bytes_within
      · exact (Nat.add_assoc _ _ _).symm.le.trans entries_within
    · rw [reserved]
      cases resource
      · exact (Nat.add_assoc _ _ _).symm.le.trans bytes_fit
      · exact (Nat.add_assoc _ _ _).symm.le.trans entries_fit
    · show pendingAmount (m.reservations.insert m.made _) other resource = _
      rw [pendingAmount_insert absent, if_neg (Ne.symm different), zero_add]
    · have present : (m.reservations.insert m.made _).lookup handle = some reservation := present
      rw [lookup_insert_eq] at present
      by_cases own : handle = m.made
      · rw [if_pos own] at present
        cases present
        exact Or.inr ⟨rfl, rfl⟩
      · rw [if_neg own] at present
        exact Or.inl present
    · have unmade : m.made + 1 ≤ handle := unmade
      show (m.reservations.insert m.made _).lookup handle = none
      rw [lookup_insert_eq, if_neg (by omega)]
      exact kept.unmade handle (by omega)

/-- **What `commit` does** to the tenant of its reservation. -/
theorem step_commit {handle : Nat} {reservation : StorageReservation}
    (held : m.reservations.lookup handle = some reservation)
    (found : m.tenants.lookup reservation.tenant = some state) :
    m.step (.commit handle) =
      { m with
        tenants := m.tenants.insert reservation.tenant (state.settle reservation
          (satAdd state.usage.usedBytes reservation.bytes)
          (satAdd state.usage.usedEntries reservation.entries))
        reservations := m.reservations.erase handle } := by
  simp only [step, held, commitReservation, found]
  rfl

/-- **What `drop` does** to the tenant of its reservation. -/
theorem step_drop (kept : m.Kept) {handle : Nat} {reservation : StorageReservation}
    (held : m.reservations.lookup handle = some reservation)
    (found : m.tenants.lookup reservation.tenant = some state) :
    m.step (.drop handle) =
      { m with
        tenants := m.tenants.insert reservation.tenant
          (state.settle reservation state.usage.usedBytes state.usage.usedEntries)
        reservations := m.reservations.erase handle } := by
  have pending := kept.pending handle reservation held
  simp only [step, held, rollBackReservation, pending, ne_eq, not_true_eq_false, if_false, found]
  rfl

/-- An amount that is reserved leaves the reserved total exactly. -/
theorem settle_reserved (kept : m.Kept) {handle : Nat} {reservation : StorageReservation}
    (held : m.reservations.lookup handle = some reservation)
    (found : m.tenants.lookup reservation.tenant = some state) (usedBytes usedEntries : Nat)
    (resource : Resource) :
    (state.settle reservation usedBytes usedEntries).usage.reserved resource +
      reservation.amount resource = state.usage.reserved resource := by
  have before := (kept.accounted _ state found).reserved resource
  have parts := pendingAmount_erase_own held resource
  have less : reservation.amount resource ≤ state.usage.reserved resource := by omega
  cases resource
  · exact Nat.sub_add_cancel less
  · exact Nat.sub_add_cancel less

/-- **A reservation leaves**: its tenant stays accounted for, where the used amounts grow by no more than
the reserved ones shrink. -/
theorem settle_kept (kept : m.Kept) {handle : Nat} {reservation : StorageReservation}
    (held : m.reservations.lookup handle = some reservation)
    (found : m.tenants.lookup reservation.tenant = some state) {usedBytes usedEntries : Nat}
    (used : ∀ resource, (state.settle reservation usedBytes usedEntries).usage.used resource ≤
      state.usage.used resource + reservation.amount resource) :
    ({ m with
      tenants := m.tenants.insert reservation.tenant
        (state.settle reservation usedBytes usedEntries)
      reservations := m.reservations.erase handle } : QuotaManager).Kept := by
  have before := kept.accounted _ state found
  have shrinks := settle_reserved kept held found usedBytes usedEntries
  refine kept.update rfl ⟨fun resource => ?_, fun resource => ?_⟩ (fun resource => ?_)
    (fun other different resource => pendingAmount_erase_other held different resource)
    (fun other reservation present => ?_) fun other unmade => ?_
  · have parts := pendingAmount_erase_own held resource
    have same := before.reserved resource
    have reserved := shrinks resource
    show _ = pendingAmount (m.reservations.erase handle) _ resource
    omega
  · have reserved := shrinks resource
    have grown := used resource
    have within : _ ≤ (state.settle reservation usedBytes usedEntries).quota.limit resource :=
      before.within resource
    omega
  · have reserved := shrinks resource
    have grown := used resource
    have fits := kept.fits _ state found resource
    omega
  · have present : (m.reservations.erase handle).lookup other = some _ := present
    rw [lookup_erase_eq] at present
    split at present
    case isTrue _ => cases present
    case isFalse _ => exact Or.inl present
  · show (m.reservations.erase handle).lookup other = none
    rw [lookup_erase_eq]
    split
    case isTrue _ => rfl
    case isFalse _ => exact kept.unmade other unmade

/-- The used amounts after a commit: nothing saturates. -/
theorem commit_used (kept : m.Kept) {handle : Nat} {reservation : StorageReservation}
    (held : m.reservations.lookup handle = some reservation)
    (found : m.tenants.lookup reservation.tenant = some state) (resource : Resource) :
    (state.settle reservation (satAdd state.usage.usedBytes reservation.bytes)
      (satAdd state.usage.usedEntries reservation.entries)).usage.used resource =
        state.usage.used resource + reservation.amount resource := by
  have before := (kept.accounted _ state found).reserved resource
  have parts := pendingAmount_erase_own held resource
  have fits := kept.fits _ state found resource
  have room : state.usage.used resource + reservation.amount resource ≤ u64Max := by omega
  cases resource
  · exact satAdd_of_le room
  · exact satAdd_of_le room

theorem commit_kept (kept : m.Kept) (handle : Nat) : (m.step (.commit handle)).Kept := by
  cases held : m.reservations.lookup handle with
  | none =>
      simp only [step, held]
      exact kept
  | some reservation =>
      obtain ⟨state, found⟩ := kept.known handle reservation held
      rw [step_commit held found]
      exact settle_kept kept held found fun resource => (commit_used kept held found resource).le

theorem drop_kept (kept : m.Kept) (handle : Nat) : (m.step (.drop handle)).Kept := by
  cases held : m.reservations.lookup handle with
  | none =>
      simp only [step, held]
      exact kept
  | some reservation =>
      obtain ⟨state, found⟩ := kept.known handle reservation held
      rw [step_drop kept held found]
      refine settle_kept kept held found fun resource => ?_
      cases resource <;> exact Nat.le_add_right _ _

/-- **One call** keeps the accounts. -/
theorem step_kept (kept : m.Kept) {call : QuotaCall} (exactly : m.TestsExactly call) :
    (m.step call).Kept := by
  cases call with
  | setQuota tenant quota => exact setQuota_kept kept tenant quota
  | beginRequest tenant => exact beginRequest_kept kept tenant
  | releaseLease lease => exact releaseLease_kept kept lease
  | reserveStorage tenant bytes entries => exact reserveStorage_kept kept exactly
  | commit reservation => exact commit_kept kept reservation
  | drop reservation => exact drop_kept kept reservation
  | releaseStorage tenant bytes entries => exact releaseStorage_kept kept tenant bytes entries

/-- **A reservation that saturates its test** breaks the accounts of its tenant: no other does. -/
theorem reserve_accounted_iff (kept : m.Kept) {bytes entries : Nat}
    (limits : ∀ state, m.tenants.lookup tenant = some state →
      ∀ resource, state.quota.limit resource ≤ u64Max) :
    (m.step (.reserveStorage tenant bytes entries)).Accounted ↔
      m.TestsExactly (.reserveStorage tenant bytes entries) := by
  refine ⟨fun accounted state found => ?_, fun exactly => (reserveStorage_kept kept exactly).accounted⟩
  by_contra saturates
  unfold TenantState.TestsExactly at saturates
  push Not at saturates
  obtain ⟨⟨some_bytes, some_entries⟩, admitted, too_much⟩ := saturates
  rcases m.reserveStorage_cases tenant bytes entries with same | ⟨state', found', _, _, after⟩
  · -- the reservation is not refused: it is counted
    have grown := congrArg QuotaManager.made same
    simp only [step, reserveStorage, some_bytes, some_entries, or_self, if_false, found] at grown
    simp only [Bool.not_eq_true] at admitted
    simp only [admitted, Bool.false_eq_true, if_false] at grown
    omega
  · rw [found] at found'
    cases found'
    rw [after] at accounted
    have own := accounted tenant _ (AList.lookup_insert _)
    have absent := kept.unmade m.made le_rfl
    have sums : ∀ resource, (state.reserve bytes entries).usage.reserved resource =
        state.usage.reserved resource +
          (⟨tenant, bytes, entries, .pending⟩ : StorageReservation).amount resource := by
      intro resource
      have sum := own.reserved resource
      rw [pendingAmount_insert absent, if_pos rfl,
        ← (kept.accounted tenant state found).reserved resource] at sum
      omega
    have bounded : ∀ resource, state.usage.used resource + (state.usage.reserved resource +
        (⟨tenant, bytes, entries, .pending⟩ : StorageReservation).amount resource) ≤ u64Max := by
      intro resource
      rw [← sums resource]
      exact (own.within resource).trans (limits state found resource)
    have bytes_fit := bounded .bytes
    have entries_fit := bounded .entries
    exact absurd (too_much ((Nat.add_assoc _ _ _).le.trans bytes_fit))
      (not_lt.mpr ((Nat.add_assoc _ _ _).le.trans entries_fit))

/-! ### Runs -/

/-- A reservation that has been settled is not settled again. -/
theorem settled_once {handle : Nat} {later : QuotaManager} (made : handle < m.made)
    (gone : m.reservations.lookup handle = none)
    (run : Reaches step (fun _ _ => True) m later) : later.reservations.lookup handle = none := by
  have invariant : handle < later.made ∧ later.reservations.lookup handle = none := by
    refine run.invariant (fun t => handle < t.made ∧ t.reservations.lookup handle = none)
      ⟨made, gone⟩ fun call t held _ => ?_
    obtain ⟨before, absent⟩ := held
    cases call with
    | setQuota tenant quota => exact ⟨before, absent⟩
    | beginRequest tenant =>
        simp only [step]
        split
        · exact ⟨before, absent⟩
        · exact ⟨Nat.lt_succ_of_lt before, absent⟩
    | releaseLease lease =>
        simp only [step]
        split
        · exact ⟨before, absent⟩
        · exact ⟨before, absent⟩
    | reserveStorage tenant bytes entries =>
        rcases t.reserveStorage_cases tenant bytes entries with same | ⟨state, _, _, _, after⟩
        · rw [same]
          exact ⟨before, absent⟩
        · rw [after]
          refine ⟨Nat.lt_succ_of_lt before, ?_⟩
          show (t.reservations.insert t.made _).lookup handle = none
          rw [lookup_insert_eq, if_neg (by omega)]
          exact absent
    | commit reservation =>
        simp only [step]
        split
        · exact ⟨before, absent⟩
        · refine ⟨before, ?_⟩
          rw [lookup_erase_eq, absent, ite_self]
    | drop reservation =>
        simp only [step]
        split
        · exact ⟨before, absent⟩
        · refine ⟨before, ?_⟩
          rw [lookup_erase_eq, absent, ite_self]
    | releaseStorage tenant bytes entries => exact ⟨before, absent⟩
  exact invariant.2

/-- **A reservation is settled**: its amounts leave what is reserved of its tenant, `moved` of them are
used from then on, no other tenant is touched, and whatever follows, it is not settled again. -/
structure Settles (m after : QuotaManager) (handle : Nat) (reservation : StorageReservation)
    (moved : Resource → Nat) : Prop where
  own : ∃ state next, m.tenants.lookup reservation.tenant = some state ∧
    after.tenants.lookup reservation.tenant = some next ∧ next.quota = state.quota ∧
    ∀ resource,
      next.usage.reserved resource + reservation.amount resource = state.usage.reserved resource ∧
      next.usage.used resource = state.usage.used resource + moved resource
  others : ∀ other, other ≠ reservation.tenant → after.tenants.lookup other = m.tenants.lookup other
  once : ∀ later, Reaches step (fun _ _ => True) after later →
    later.step (.commit handle) = later ∧ later.step (.drop handle) = later

theorem settles_of_settle (kept : m.Kept) {handle : Nat} {reservation : StorageReservation}
    (held : m.reservations.lookup handle = some reservation)
    (found : m.tenants.lookup reservation.tenant = some state) {usedBytes usedEntries : Nat}
    {moved : Resource → Nat}
    (used : ∀ resource, (state.settle reservation usedBytes usedEntries).usage.used resource =
      state.usage.used resource + moved resource) :
    m.Settles { m with
      tenants := m.tenants.insert reservation.tenant
        (state.settle reservation usedBytes usedEntries)
      reservations := m.reservations.erase handle } handle reservation moved where
  own := ⟨state, _, found, AList.lookup_insert _, rfl, fun resource =>
    ⟨settle_reserved kept held found usedBytes usedEntries resource, used resource⟩⟩
  others other different := AList.lookup_insert_ne different
  once later run := by
    have made : handle < m.made := by
      by_contra unmade
      have absent := kept.unmade handle (not_lt.mp unmade)
      rw [held] at absent
      cases absent
    have gone := settled_once (m := { m with
      tenants := m.tenants.insert reservation.tenant
        (state.settle reservation usedBytes usedEntries)
      reservations := m.reservations.erase handle }) made (AList.lookup_erase _ _) run
    constructor
    · simp only [step, gone]
    · simp only [step, gone]

/-- **The storage accounts.** In every state that any calls reach, as long as the test of every
reservation is exact: what is reserved of a tenant is what its pending reservations amount to, used and
reserved together are within its limits, a commit moves its amounts from reserved to used exactly once,
and a drop returns them exactly once. -/
theorem storage_accounted (run : Reaches step TestsExactly new m) :
    m.Accounted ∧ ∀ handle reservation, m.reservations.lookup handle = some reservation →
      m.Settles (m.step (.commit handle)) handle reservation reservation.amount ∧
      m.Settles (m.step (.drop handle)) handle reservation fun _ => 0 := by
  have kept : m.Kept := run.invariant Kept kept_new fun call t held exactly => step_kept held exactly
  refine ⟨kept.accounted, fun handle reservation held => ?_⟩
  obtain ⟨state, found⟩ := kept.known handle reservation held
  constructor
  · rw [step_commit held found]
    exact settles_of_settle kept held found (commit_used kept held found)
  · rw [step_drop kept held found]
    refine settles_of_settle kept held found fun resource => ?_
    cases resource <;> rfl

/-- A tenant with small limits: one reservation committed, one pending. -/
theorem storage_accounted_pending :
    let calls : List QuotaCall := [.setQuota "a" ⟨100, 10, 2⟩, .reserveStorage "a" 60 2, .commit 0,
      .reserveStorage "a" 30 1]
    (calls.foldl (fun m call => step call m) new).Accounted := by
  have exactly : ∀ (m : QuotaManager) bytes entries, (∀ state, m.tenants.lookup "a" = some state →
      state.usage.usedBytes + state.usage.reservedBytes + bytes ≤ u64Max ∧
        state.usage.usedEntries + state.usage.reservedEntries + entries ≤ u64Max) →
      m.TestsExactly (.reserveStorage "a" bytes entries) :=
    fun m bytes entries fits state found => Or.inr (Or.inr (fits state found))
  have start : Reaches step TestsExactly new (step (.setQuota "a" ⟨100, 10, 2⟩) new) :=
    Reaches.refl.step trivial
  have reserved : Reaches step TestsExactly new (step (.reserveStorage "a" 60 2) _) :=
    start.step (exactly _ _ _ fun state found => by
      cases found
      decide)
  have committed : Reaches step TestsExactly new (step (.commit 0) _) := reserved.step trivial
  have pending : Reaches step TestsExactly new (step (.reserveStorage "a" 30 1) _) :=
    committed.step (exactly _ _ _ fun state found => by
      cases found
      decide)
  exact (storage_accounted pending).1

/-- **A tenant whose limit is the greatest `u64`** can use and reserve more than its limit. -/
theorem unlimited_overflows :
    let calls : List QuotaCall := [.setQuota "a" ⟨u64Max, u64Max, 1⟩, .reserveStorage "a" u64Max 1,
      .commit 0, .reserveStorage "a" 1 1]
    let m := calls.foldl (fun m call => step call m) new
    Reaches step (fun _ _ => True) new m ∧ m.tenants.lookup "a" =
        some ⟨⟨u64Max, u64Max, 1⟩, ⟨u64Max, 1, 1, 1, 0⟩⟩ ∧
      ¬ m.Accounted := by
  intro calls m
  have usage : m.tenants.lookup "a" = some ⟨⟨u64Max, u64Max, 1⟩, ⟨u64Max, 1, 1, 1, 0⟩⟩ := rfl
  refine ⟨Reaches.foldl (fun _ _ => trivial) calls new, usage, fun accounted => ?_⟩
  exact absurd ((accounted "a" _ usage).within .bytes) (by decide)

end QuotaManager

end RivetCache
