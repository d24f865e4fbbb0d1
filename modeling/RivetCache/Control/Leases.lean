/-
**`control.rs`: requests in flight.**

A lease outlives the call that made it. `release` takes it: `release_inner` runs, and then the drop at its
end, which runs `release_inner` again; a lease that is only dropped runs it once. The two are steps of their
own here, since other threads take the lock between them. `Effect` says once what a step can do to tenants and
leases.

* `Counted`: the requests in flight of a tenant are its leases that are not released, and within its limit;
* `leases_counted`: it holds in every state that any steps reach; a lease that is released and dropped counts
  down once, and a refused call changes nothing.
-/

import RivetCache.Control.Quota

set_option linter.unusedSectionVars false

namespace RivetCache

open Library

/-- A step of a thread: a whole call, or the `release_inner` of a `release` whose drop is still to come.
`QuotaCall.releaseLease` is a drop. -/
inductive LeaseCall where
  | call (call : QuotaCall)
  | releaseInner (lease : Nat)

namespace QuotaManager

/-- The effect of a step. -/
def leaseStep (call : LeaseCall) (m : QuotaManager) : QuotaManager :=
  match call with
  | .call call => m.step call
  | .releaseInner lease =>
      match m.leases.lookup lease with
      | none => m
      | some held =>
          { m with
            tenants := (RivetCache.releaseInner held m.tenants).2
            leases := m.leases.insert lease (RivetCache.releaseInner held m.tenants).1 }

/-- The leases of a tenant that are not released. -/
def live (m : QuotaManager) (tenant : String) : Nat :=
  total (fun lease => if lease.tenant = tenant ∧ lease.released = false then 1 else 0) m.leases

/-- **Requests are counted**: those in flight are the leases that are not released, and within the limit.
Leases are of known tenants and numbered below the next. -/
structure Counted (m : QuotaManager) : Prop where
  counted : ∀ tenant state, m.tenants.lookup tenant = some state →
    state.usage.inflight = m.live tenant
  within : ∀ tenant state, m.tenants.lookup tenant = some state →
    state.usage.inflight ≤ state.quota.maxInflight
  known : ∀ handle lease, m.leases.lookup handle = some lease →
    ∃ state, m.tenants.lookup lease.tenant = some state
  unmade : ∀ handle, m.made ≤ handle → m.leases.lookup handle = none

/-- A state with another number of requests in flight. -/
def inFlight (state : TenantState) (inflight : Nat) : TenantState :=
  { state with usage := { state.usage with inflight := inflight } }

/-- **What a step can do** to the tenants and the leases. -/
inductive Effect (m next : QuotaManager) : Prop
  /-- Nothing. -/
  | same (tenants : next.tenants = m.tenants) (leases : next.leases = m.leases)
      (made : m.made ≤ next.made)
  /-- A tenant gets its first quota. -/
  | joined {tenant : String} {quota : TenantQuota} (absent : m.tenants.lookup tenant = none)
      (valid : validateControlId tenant "tenant" = .ok ())
      (tenants : next.tenants = m.tenants.insert tenant ⟨quota, {}⟩) (leases : next.leases = m.leases)
      (made : next.made = m.made)
  /-- A tenant gets other amounts, or a quota that its requests fit. -/
  | changed {tenant : String} {state after : TenantState} (found : m.tenants.lookup tenant = some state)
      (tenants : next.tenants = m.tenants.insert tenant after)
      (inflight : after.usage.inflight = state.usage.inflight)
      (fits : after.quota = state.quota ∨ after.usage.inflight ≤ after.quota.maxInflight)
      (leases : next.leases = m.leases) (made : m.made ≤ next.made)
  /-- A request begins. -/
  | begun {tenant : String} {state : TenantState} (found : m.tenants.lookup tenant = some state)
      (room : state.usage.inflight < state.quota.maxInflight)
      (tenants : next.tenants = m.tenants.insert tenant (inFlight state (state.usage.inflight + 1)))
      (leases : next.leases = m.leases.insert m.made ⟨tenant, false⟩) (made : next.made = m.made + 1)
  /-- A lease that is not released is released, and perhaps dropped. -/
  | released {handle : Nat} {lease : RequestLease} {state : TenantState}
      (held : m.leases.lookup handle = some lease) (live : lease.released = false)
      (found : m.tenants.lookup lease.tenant = some state)
      (tenants : next.tenants =
        m.tenants.insert lease.tenant (inFlight state (satSub state.usage.inflight 1)))
      (leases : next.leases = m.leases.erase handle ∨
        next.leases = m.leases.insert handle { lease with released := true })
      (made : next.made = m.made)
  /-- A lease goes, or is released, that did not count. -/
  | idle {handle : Nat} {lease : RequestLease} (held : m.leases.lookup handle = some lease)
      (idle : lease.released = true ∨ m.tenants.lookup lease.tenant = none)
      (tenants : next.tenants = m.tenants)
      (leases : next.leases = m.leases.erase handle ∨
        next.leases = m.leases.insert handle { lease with released := true })
      (made : next.made = m.made)

variable {m next : QuotaManager} {tenant : String} {state : TenantState} {handle : Nat}
  {lease : RequestLease}

/-! ### What steps do -/

theorem setQuota_effect (m : QuotaManager) (tenant : String) (quota : TenantQuota) :
    Effect m (m.step (.setQuota tenant quota)) := by
  simp only [step, setQuota]
  cases valid : validateControlId tenant "tenant" with
  | error error => exact .same rfl rfl le_rfl
  | ok _ =>
      cases quota.validate with
      | error error => exact .same rfl rfl le_rfl
      | ok _ =>
          cases found : m.tenants.lookup tenant with
          | none => exact .joined found valid rfl rfl rfl
          | some state =>
              by_cases exceeds : state.usage.exceeds quota = true
              · simp only [exceeds, if_true]
                exact .same rfl rfl le_rfl
              · simp only [exceeds, if_false, Bool.false_eq_true]
                refine .changed found rfl rfl (.inr ?_) rfl le_rfl
                simp only [TenantUsage.exceeds, Bool.or_eq_true, decide_eq_true_eq, not_or,
                  not_lt] at exceeds
                exact exceeds.2

theorem beginRequest_effect (m : QuotaManager) (tenant : String) :
    Effect m (m.step (.beginRequest tenant)) := by
  simp only [step, beginRequest]
  cases found : m.tenants.lookup tenant with
  | none => exact .same rfl rfl le_rfl
  | some state =>
      by_cases full : state.quota.maxInflight ≤ state.usage.inflight
      · simp only [full, if_true]
        exact .same rfl rfl le_rfl
      · simp only [full, if_false]
        exact .begun found (by omega) rfl rfl rfl

/-- **What `release_inner` does** to a lease that counts. -/
theorem releaseInner_live {tenants : Tenants} (live : lease.released = false)
    (found : tenants.lookup lease.tenant = some state) :
    RivetCache.releaseInner lease tenants = ({ lease with released := true },
      tenants.insert lease.tenant (inFlight state (satSub state.usage.inflight 1))) := by
  simp only [RivetCache.releaseInner, live, found]
  rfl

/-- What it does to one that does not: at most its flag is set. -/
theorem releaseInner_idle {tenants : Tenants}
    (idle : lease.released = true ∨ tenants.lookup lease.tenant = none) :
    RivetCache.releaseInner lease tenants = ({ lease with released := true }, tenants) := by
  obtain ⟨tenant, released⟩ := lease
  rcases idle with rfl | absent
  · rfl
  · cases released with
    | true => rfl
    | false =>
        simp only at absent
        simp only [RivetCache.releaseInner, absent]
        rfl

/-- A lease counts, or it does not. -/
theorem counts_or_idle (m : QuotaManager) (lease : RequestLease) :
    (lease.released = false ∧ ∃ state, m.tenants.lookup lease.tenant = some state) ∨
      (lease.released = true ∨ m.tenants.lookup lease.tenant = none) := by
  cases lease.released with
  | true => exact .inr (.inl rfl)
  | false =>
      cases found : m.tenants.lookup lease.tenant with
      | none => exact .inr (.inr rfl)
      | some state => exact .inl ⟨rfl, state, rfl⟩

theorem dropLease_effect (m : QuotaManager) (handle : Nat) :
    Effect m (m.step (.releaseLease handle)) := by
  simp only [step]
  cases held : m.leases.lookup handle with
  | none => exact .same rfl rfl le_rfl
  | some lease =>
      rcases counts_or_idle m lease with ⟨live, state, found⟩ | idle
      · refine .released held live found ?_ (.inl rfl) rfl
        simp only [releaseInner_live live found]
      · refine .idle held idle ?_ (.inl rfl) rfl
        simp only [releaseInner_idle idle]

theorem releaseInner_effect (m : QuotaManager) (handle : Nat) :
    Effect m (m.leaseStep (.releaseInner handle)) := by
  simp only [leaseStep]
  cases held : m.leases.lookup handle with
  | none => exact .same rfl rfl le_rfl
  | some lease =>
      rcases counts_or_idle m lease with ⟨live, state, found⟩ | idle
      · refine .released held live found ?_ (.inr ?_) rfl
        all_goals simp only [releaseInner_live live found]
      · refine .idle held idle ?_ (.inr ?_) rfl
        all_goals simp only [releaseInner_idle idle]

theorem reserveStorage_effect (m : QuotaManager) (tenant : String) (bytes entries : Nat) :
    Effect m (m.step (.reserveStorage tenant bytes entries)) := by
  simp only [step, reserveStorage]
  by_cases empty : bytes = 0 ∨ entries = 0
  · simp only [empty, if_true]
    exact .same rfl rfl le_rfl
  · simp only [empty, if_false]
    cases found : m.tenants.lookup tenant with
    | none => exact .same rfl rfl le_rfl
    | some state =>
        by_cases overflows : state.overflows bytes entries = true
        · simp only [overflows, if_true]
          exact .same rfl rfl le_rfl
        · simp only [overflows, if_false, Bool.false_eq_true]
          exact .changed found rfl rfl (.inl rfl) rfl (Nat.le_succ _)

theorem releaseStorage_effect (m : QuotaManager) (tenant : String) (bytes entries : Nat) :
    Effect m (m.step (.releaseStorage tenant bytes entries)) := by
  simp only [step, releaseStorage]
  cases found : m.tenants.lookup tenant with
  | none => exact .same rfl rfl le_rfl
  | some state => exact .changed found rfl rfl (.inl rfl) rfl le_rfl

theorem dropReservation_effect (m : QuotaManager) (handle : Nat) :
    Effect m (m.step (.drop handle)) := by
  simp only [step]
  cases held : m.reservations.lookup handle with
  | none => exact .same rfl rfl le_rfl
  | some reservation =>
      simp only [rollBackReservation]
      by_cases settled : reservation.state ≠ .pending
      · rw [if_pos settled]
        exact .same rfl rfl le_rfl
      · rw [if_neg settled]
        cases found : m.tenants.lookup reservation.tenant with
        | none => exact .same rfl rfl le_rfl
        | some state => exact .changed found rfl rfl (.inl rfl) rfl le_rfl

theorem commit_effect (m : QuotaManager) (handle : Nat) : Effect m (m.step (.commit handle)) := by
  cases held : m.reservations.lookup handle with
  | none =>
      simp only [step, held]
      exact .same rfl rfl le_rfl
  | some reservation =>
      cases found : m.tenants.lookup reservation.tenant with
      | some state =>
          rw [step_commit held found]
          exact .changed found rfl rfl (.inl rfl) rfl le_rfl
      | none =>
          -- the commit fails, and the drop finds no tenant either
          have failed : commitReservation reservation m.tenants =
              (.error ⟨.notFound, "tenant disappeared during reservation"⟩, reservation, m.tenants) := by
            unfold commitReservation
            rw [found]
          have dropped : (rollBackReservation reservation m.tenants).2 = m.tenants := by
            unfold rollBackReservation
            rw [found]
            split <;> rfl
          simp only [step, held, failed, dropped]
          exact .same rfl rfl le_rfl

/-- **What a step can do.** -/
theorem leaseStep_effect (m : QuotaManager) (call : LeaseCall) : Effect m (m.leaseStep call) := by
  cases call with
  | releaseInner handle => exact releaseInner_effect m handle
  | call call =>
      cases call with
      | setQuota tenant quota => exact setQuota_effect m tenant quota
      | beginRequest tenant => exact beginRequest_effect m tenant
      | releaseLease handle => exact dropLease_effect m handle
      | reserveStorage tenant bytes entries => exact reserveStorage_effect m tenant bytes entries
      | commit handle => exact commit_effect m handle
      | drop handle => exact dropReservation_effect m handle
      | releaseStorage tenant bytes entries => exact releaseStorage_effect m tenant bytes entries

/-! ### Counting -/

theorem counted_new : new.Counted where
  counted _ _ present := by cases present
  within _ _ present := by cases present
  known _ _ present := by cases present
  unmade _ _ := rfl

theorem live_erase (held : m.leases.lookup handle = some lease) (leases : next.leases = m.leases.erase handle)
    (tenant : String) :
    next.live tenant + (if lease.tenant = tenant ∧ lease.released = false then 1 else 0) =
      m.live tenant := by
  unfold live
  rw [leases]
  exact total_erase _ held

theorem live_insert_released (held : m.leases.lookup handle = some lease)
    (leases : next.leases = m.leases.insert handle { lease with released := true }) (tenant : String) :
    next.live tenant + (if lease.tenant = tenant ∧ lease.released = false then 1 else 0) =
      m.live tenant := by
  unfold live
  rw [leases, total_insert]
  have erased := total_erase (fun lease : RequestLease =>
    if lease.tenant = tenant ∧ lease.released = false then 1 else 0) held
  simp only [Bool.true_eq_false, and_false, if_false] at erased ⊢
  omega

/-- A lease that is released or dropped counts no more. -/
theorem live_settled (held : m.leases.lookup handle = some lease)
    (leases : next.leases = m.leases.erase handle ∨
      next.leases = m.leases.insert handle { lease with released := true }) (tenant : String) :
    next.live tenant + (if lease.tenant = tenant ∧ lease.released = false then 1 else 0) =
      m.live tenant := by
  rcases leases with gone | kept
  · exact live_erase held gone tenant
  · exact live_insert_released held kept tenant

theorem live_insert_made (absent : m.leases.lookup m.made = none)
    (leases : next.leases = m.leases.insert m.made ⟨tenant, false⟩) (other : String) :
    next.live other = (if tenant = other then 1 else 0) + m.live other := by
  unfold live
  rw [leases, total_insert_absent _ absent]
  simp

/-- A tenant that is not known has no leases. -/
theorem live_unknown (counted : m.Counted) (absent : m.tenants.lookup tenant = none) :
    m.live tenant = 0 := by
  have bound : m.live tenant ≤ total (fun _ => 0) m.leases := by
    apply total_le_total
    intro handle lease present
    obtain ⟨state, found⟩ := counted.known handle lease present
    have other : lease.tenant ≠ tenant := fun same => by
      rw [same, absent] at found
      cases found
    simp [other]
  have nothing : total (fun _ : RequestLease => 0) m.leases = 0 := by simp [total]
  omega

/-- Where a lease was released or dropped, the others are as they were. -/
theorem lookup_settled (leases : next.leases = m.leases.erase handle ∨
    next.leases = m.leases.insert handle { lease with released := true }) (other : Nat) :
    next.leases.lookup other = m.leases.lookup other ∨
      next.leases.lookup other = none ∧ other = handle ∨
        next.leases.lookup other = some { lease with released := true } ∧ other = handle := by
  by_cases own : other = handle
  · rcases leases with gone | kept
    · exact .inr (.inl ⟨by rw [gone, lookup_erase_eq, if_pos own], own⟩)
    · exact .inr (.inr ⟨by rw [kept, lookup_insert_eq, if_pos own], own⟩)
  · left
    rcases leases with gone | kept
    · rw [gone, lookup_erase_eq, if_neg own]
    · rw [kept, lookup_insert_eq, if_neg own]

/-- What is left of the leases was there, under the same tenants. -/
theorem known_settled (held : m.leases.lookup handle = some lease)
    (leases : next.leases = m.leases.erase handle ∨
      next.leases = m.leases.insert handle { lease with released := true }) {other : Nat}
    {left : RequestLease} (present : next.leases.lookup other = some left) :
    ∃ before lease', m.leases.lookup before = some lease' ∧ lease'.tenant = left.tenant := by
  rcases lookup_settled leases other with same | ⟨gone, -⟩ | ⟨flagged, -⟩
  · exact ⟨other, left, same ▸ present, rfl⟩
  · rw [gone] at present
    cases present
  · rw [flagged] at present
    cases present
    exact ⟨handle, lease, held, rfl⟩

/-- What was not there is not there. -/
theorem unmade_settled (held : m.leases.lookup handle = some lease)
    (leases : next.leases = m.leases.erase handle ∨
      next.leases = m.leases.insert handle { lease with released := true }) {other : Nat}
    (absent : m.leases.lookup other = none) : next.leases.lookup other = none := by
  rcases lookup_settled leases other with same | ⟨gone, -⟩ | ⟨-, own⟩
  · rw [same, absent]
  · exact gone
  · rw [own, held] at absent
    cases absent

theorem live_congr (leases : next.leases = m.leases) (tenant : String) :
    next.live tenant = m.live tenant := by
  unfold live
  rw [leases]

/-- **No tenant changes**, and the leases that count are the same. -/
theorem Counted.congr (counted : m.Counted) (tenants : next.tenants = m.tenants)
    (live : ∀ tenant, next.live tenant = m.live tenant)
    (known : ∀ handle lease, next.leases.lookup handle = some lease →
      ∃ handle lease', m.leases.lookup handle = some lease' ∧ lease'.tenant = lease.tenant)
    (unmade : ∀ handle, next.made ≤ handle → next.leases.lookup handle = none) : next.Counted where
  counted tenant state present := by
    rw [live]
    exact counted.counted tenant state (tenants ▸ present)
  within tenant state present := counted.within tenant state (tenants ▸ present)
  known handle lease present := by
    obtain ⟨before, lease', there, alike⟩ := known handle lease present
    rw [tenants, ← alike]
    exact counted.known before lease' there
  unmade := unmade

/-- **One tenant changes**: its requests are counted, and those of the others are as they were. -/
theorem Counted.update (counted : m.Counted) {after : TenantState}
    (tenants : next.tenants = m.tenants.insert tenant after)
    (own : after.usage.inflight = next.live tenant)
    (within : after.usage.inflight ≤ after.quota.maxInflight)
    (others : ∀ other, other ≠ tenant → next.live other = m.live other)
    (known : ∀ handle lease, next.leases.lookup handle = some lease →
      lease.tenant = tenant ∨ ∃ handle lease', m.leases.lookup handle = some lease' ∧
        lease'.tenant = lease.tenant)
    (unmade : ∀ handle, next.made ≤ handle → next.leases.lookup handle = none) : next.Counted where
  counted other state present := by
    rw [tenants, lookup_insert_eq] at present
    by_cases same : other = tenant
    · rw [if_pos same] at present
      cases present
      rw [same]
      exact own
    · rw [if_neg same] at present
      rw [others other same]
      exact counted.counted other state present
  within other state present := by
    rw [tenants, lookup_insert_eq] at present
    by_cases same : other = tenant
    · rw [if_pos same] at present
      cases present
      exact within
    · rw [if_neg same] at present
      exact counted.within other state present
  known handle lease present := by
    rw [tenants, lookup_insert_eq]
    by_cases same : lease.tenant = tenant
    · exact ⟨after, if_pos same⟩
    · rw [if_neg same]
      rcases known handle lease present with own | ⟨before, lease', there, alike⟩
      · exact absurd own same
      · exact alike ▸ counted.known before lease' there
  unmade := unmade

/-- **A step keeps the count.** -/
theorem Effect.counted (effect : Effect m next) (counted : m.Counted) : next.Counted := by
  cases effect with
  | same tenants leases made =>
      refine counted.congr tenants (live_congr leases)
        (fun handle lease held => ⟨handle, lease, leases ▸ held, rfl⟩) fun handle unmade => ?_
      rw [leases]
      exact counted.unmade handle (le_trans made unmade)
  | @joined tenant quota absent valid tenants leases made =>
      refine counted.update tenants ?_ (Nat.zero_le _) (fun other _ => live_congr leases other)
        (fun handle lease held => .inr ⟨handle, lease, leases ▸ held, rfl⟩) fun handle unmade => ?_
      · rw [live_congr leases, live_unknown counted absent]
      · rw [leases]
        exact counted.unmade handle (made ▸ unmade)
  | @changed tenant state after found tenants inflight fits leases made =>
      refine counted.update tenants ?_ ?_ (fun other _ => live_congr leases other)
        (fun handle lease held => .inr ⟨handle, lease, leases ▸ held, rfl⟩) fun handle unmade => ?_
      · rw [live_congr leases, inflight]
        exact counted.counted tenant state found
      · rcases fits with same | within
        · rw [same, inflight]
          exact counted.within tenant state found
        · exact within
      · rw [leases]
        exact counted.unmade handle (le_trans made unmade)
  | @begun tenant state found room tenants leases made =>
      have live := live_insert_made (counted.unmade m.made le_rfl) leases
      refine counted.update tenants ?_ room (fun other different => ?_) (fun handle lease held => ?_)
        fun handle unmade => ?_
      · have before := counted.counted tenant state found
        rw [live, if_pos rfl]
        simp only [inFlight]
        omega
      · rw [live, if_neg (Ne.symm different), Nat.zero_add]
      · rw [leases, lookup_insert_eq] at held
        by_cases own : handle = m.made
        · rw [if_pos own] at held
          cases held
          exact .inl rfl
        · rw [if_neg own] at held
          exact .inr ⟨handle, lease, held, rfl⟩
      · rw [made] at unmade
        rw [leases, lookup_insert_eq, if_neg (by omega)]
        exact counted.unmade handle (by omega)
  | @released handle lease state held live found tenants leases made =>
      have settled := live_settled held leases
      have before := counted.counted _ _ found
      have limit := counted.within _ _ found
      refine counted.update tenants ?_ ?_ (fun other different => ?_)
        (fun other left present => .inr (known_settled held leases present))
        fun other unmade => unmade_settled held leases (counted.unmade other (made ▸ unmade))
      · have own := settled lease.tenant
        rw [if_pos ⟨rfl, live⟩] at own
        simp only [inFlight, satSub]
        omega
      · simp only [inFlight, satSub]
        omega
      · have own := settled other
        rwa [if_neg fun both => different both.1.symm, Nat.add_zero] at own
  | @idle handle lease held idle tenants leases made =>
      have unreleased : lease.released = true := by
        rcases idle with released | absent
        · exact released
        · obtain ⟨state, found⟩ := counted.known handle lease held
          rw [absent] at found
          cases found
      refine counted.congr tenants (fun tenant => ?_)
        (fun other left present => known_settled held leases present)
        fun other unmade => unmade_settled held leases (counted.unmade other (made ▸ unmade))
      have settled := live_settled held leases tenant
      rwa [if_neg (by simp [unreleased]), Nat.add_zero] at settled

/-- **The count holds in every state** that steps reach. -/
theorem counted_reached (run : Reaches leaseStep (fun _ _ => True) new m) : m.Counted :=
  run.invariant Counted counted_new fun call _ counted _ => (leaseStep_effect _ call).counted counted

/-! ### Names -/

/-- The tenants have names that a quota can be set for. -/
def Named (m : QuotaManager) : Prop :=
  ∀ tenant state, m.tenants.lookup tenant = some state → validateControlId tenant "tenant" = .ok ()

theorem named_new : new.Named := fun _ _ present => by cases present

theorem Named.insert (named : m.Named) {after : TenantState}
    (tenants : next.tenants = m.tenants.insert tenant after)
    (valid : validateControlId tenant "tenant" = .ok ()) : next.Named := by
  intro other state present
  rw [tenants, lookup_insert_eq] at present
  by_cases same : other = tenant
  · exact same ▸ valid
  · rw [if_neg same] at present
    exact named other state present

/-- **A step keeps the names.** -/
theorem Effect.named (effect : Effect m next) (named : m.Named) : next.Named := by
  cases effect with
  | same tenants => exact fun tenant state present => named tenant state (tenants ▸ present)
  | joined absent valid tenants => exact named.insert tenants valid
  | changed found tenants => exact named.insert tenants (named _ _ found)
  | begun found room tenants => exact named.insert tenants (named _ _ found)
  | released held live found tenants => exact named.insert tenants (named _ _ found)
  | idle held idle tenants => exact fun tenant state present => named tenant state (tenants ▸ present)

/-! ### Released once -/

/-- A lease that was handed out and is released, or gone. -/
def Settled (handle : Nat) (m : QuotaManager) : Prop :=
  handle < m.made ∧ ∀ lease, m.leases.lookup handle = some lease → lease.released = true

/-- What is settled stays settled. -/
theorem Effect.settled (effect : Effect m next) (settled : Settled handle m) : Settled handle next := by
  obtain ⟨below, released⟩ := settled
  have unchanged {other : Nat} {lease : RequestLease} (leases : next.leases = m.leases.erase other ∨
      next.leases = m.leases.insert other { lease with released := true }) :
      ∀ left, next.leases.lookup handle = some left → left.released = true := by
    intro left present
    rcases lookup_settled leases handle with same | ⟨gone, -⟩ | ⟨flagged, -⟩
    · exact released left (same ▸ present)
    · rw [gone] at present
      cases present
    · rw [flagged] at present
      cases present
      rfl
  cases effect with
  | same tenants leases made => exact ⟨lt_of_lt_of_le below made, leases ▸ released⟩
  | joined absent valid tenants leases made => exact ⟨made ▸ below, leases ▸ released⟩
  | changed found tenants inflight fits leases made =>
      exact ⟨lt_of_lt_of_le below made, leases ▸ released⟩
  | begun found room tenants leases made =>
      refine ⟨by omega, fun lease present => ?_⟩
      rw [leases, lookup_insert_eq, if_neg (by omega)] at present
      exact released lease present
  | released held live found tenants leases made => exact ⟨made ▸ below, unchanged leases⟩
  | idle held idle tenants leases made => exact ⟨made ▸ below, unchanged leases⟩

theorem settled_later {later : QuotaManager} (run : Reaches leaseStep (fun _ _ => True) m later)
    (settled : Settled handle m) : Settled handle later :=
  run.invariant (Settled handle) settled fun call _ settled _ => (leaseStep_effect _ call).settled settled

/-- A lease that is settled changes no tenant, released or dropped. -/
theorem tenants_settled (settled : Settled handle m) :
    (m.leaseStep (.releaseInner handle)).tenants = m.tenants ∧
      (m.leaseStep (.call (.releaseLease handle))).tenants = m.tenants := by
  cases held : m.leases.lookup handle with
  | none => simp [leaseStep, step, held]
  | some lease =>
      have idle : RivetCache.releaseInner lease m.tenants = ({ lease with released := true }, m.tenants) :=
        releaseInner_idle (.inl (settled.2 lease held))
      simp [leaseStep, step, held, idle]

/-- **A lease counts down once**: its release takes one request off its tenant and no other, a drop of it
does the same, and after the release it is settled. -/
theorem release_counts_down (counted : m.Counted) (held : m.leases.lookup handle = some lease)
    (live : lease.released = false) : ∃ state, m.tenants.lookup lease.tenant = some state ∧
      1 ≤ state.usage.inflight ∧
      (m.leaseStep (.releaseInner handle)).tenants =
        m.tenants.insert lease.tenant (inFlight state (state.usage.inflight - 1)) ∧
      (m.leaseStep (.call (.releaseLease handle))).tenants =
        (m.leaseStep (.releaseInner handle)).tenants ∧
      Settled handle (m.leaseStep (.releaseInner handle)) ∧
      Settled handle (m.leaseStep (.call (.releaseLease handle))) := by
  obtain ⟨state, found⟩ := counted.known handle lease held
  have released := releaseInner_live live found
  have below : handle < m.made := by
    by_contra unmade
    have absent := counted.unmade handle (by omega)
    rw [held] at absent
    cases absent
  have one : 1 ≤ state.usage.inflight := by
    have erased := total_erase (fun other : RequestLease =>
      if other.tenant = lease.tenant ∧ other.released = false then 1 else 0) held
    have before := counted.counted _ _ found
    rw [if_pos ⟨rfl, live⟩] at erased
    unfold QuotaManager.live at before
    omega
  refine ⟨state, found, one, ?_, ?_, ⟨?_, fun left present => ?_⟩, ⟨?_, fun left present => ?_⟩⟩
  · simp [leaseStep, held, released, satSub]
  · simp [leaseStep, step, held, released]
  · simpa [leaseStep, held] using below
  · simp only [leaseStep, held, released, AList.lookup_insert] at present
    cases present
    rfl
  · simpa [leaseStep, step, held] using below
  · simp [leaseStep, step, held] at present

theorem beginRequest_refused {tenants : Tenants} {error : IoError}
    (refused : (RivetCache.beginRequest tenant tenants).1 = .error error) :
    RivetCache.beginRequest tenant tenants = (.error error, tenants) := by
  unfold RivetCache.beginRequest at refused ⊢
  cases found : tenants.lookup tenant with
  | none =>
      rw [found] at refused
      cases refused
      rfl
  | some state =>
      rw [found] at refused
      simp only at refused ⊢
      by_cases full : state.quota.maxInflight ≤ state.usage.inflight
      · rw [if_pos full] at refused ⊢
        cases refused
        rfl
      · rw [if_neg full] at refused
        cases refused

theorem setQuota_refused {tenants : Tenants} {quota : TenantQuota} {error : IoError}
    (refused : (RivetCache.setQuota tenant quota tenants).1 = .error error) :
    RivetCache.setQuota tenant quota tenants = (.error error, tenants) := by
  unfold RivetCache.setQuota at refused ⊢
  split at refused
  case h_1 invalid =>
    cases refused
    rfl
  case h_2 valid =>
    split at refused
    case h_1 invalid =>
      cases refused
      rfl
    case h_2 valid' =>
      split at refused
      case h_1 => cases refused
      case h_2 state found =>
        by_cases exceeds : state.usage.exceeds quota = true
        · rw [if_pos exceeds] at refused ⊢
          cases refused
          rfl
        · rw [if_neg exceeds] at refused
          cases refused

/-- **In-flight limits count live leases.** In every state that steps reach: the requests in flight of a
tenant are its leases that are not released, and within its limit; a lease that is not released counts down
once, by its release or by its drop, and from then on neither changes a tenant, whatever comes between; a
refused request or quota changes nothing. -/
theorem leases_counted (run : Reaches leaseStep (fun _ _ => True) new m) :
    (∀ tenant state, m.tenants.lookup tenant = some state →
      state.usage.inflight = m.live tenant ∧ state.usage.inflight ≤ state.quota.maxInflight) ∧
    (∀ handle lease, m.leases.lookup handle = some lease → lease.released = false →
      ∃ state, m.tenants.lookup lease.tenant = some state ∧ 1 ≤ state.usage.inflight ∧
        (m.leaseStep (.releaseInner handle)).tenants =
          m.tenants.insert lease.tenant (inFlight state (state.usage.inflight - 1)) ∧
        (m.leaseStep (.call (.releaseLease handle))).tenants =
          (m.leaseStep (.releaseInner handle)).tenants ∧
        Settled handle (m.leaseStep (.releaseInner handle)) ∧
        Settled handle (m.leaseStep (.call (.releaseLease handle)))) ∧
    (∀ handle, Settled handle m → ∀ later, Reaches leaseStep (fun _ _ => True) m later →
      (later.leaseStep (.releaseInner handle)).tenants = later.tenants ∧
        (later.leaseStep (.call (.releaseLease handle))).tenants = later.tenants) ∧
    (∀ tenant error, (RivetCache.beginRequest tenant m.tenants).1 = .error error →
      m.leaseStep (.call (.beginRequest tenant)) = m) ∧
    ∀ tenant quota error, (RivetCache.setQuota tenant quota m.tenants).1 = .error error →
      m.leaseStep (.call (.setQuota tenant quota)) = m := by
  have counted := counted_reached run
  refine ⟨fun tenant state present => ⟨counted.counted tenant state present,
      counted.within tenant state present⟩, fun handle lease => release_counts_down counted,
    fun handle settled later after => tenants_settled (settled_later after settled),
    fun tenant error refused => ?_, fun tenant quota error refused => ?_⟩
  · have same := beginRequest_refused refused
    simp only [leaseStep, step, same]
  · have same := setQuota_refused refused
    simp only [leaseStep, step, same]

/-- Two requests begin, the third is refused, and one lease is released and dropped. -/
theorem leases_counted_released :
    let calls : List LeaseCall := [.call (.setQuota "a" ⟨1, 1, 2⟩), .call (.beginRequest "a"),
      .call (.beginRequest "a"), .call (.beginRequest "a"), .releaseInner 0, .call (.releaseLease 0)]
    let m := calls.foldl (fun m call => leaseStep call m) new
    m.live "a" = 1 ∧ ∀ state, m.tenants.lookup "a" = some state → state.usage.inflight = m.live "a" := by
  intro calls m
  have counted := leases_counted (Reaches.foldl (fun _ _ => trivial) calls new)
  exact ⟨by decide, fun state found => (counted.1 "a" state found).1⟩

end QuotaManager

end RivetCache
