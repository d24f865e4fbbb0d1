/-
**Every buffer is accounted for.**

A device that keeps a log of what it allocated and freed (`DeviceMemory.logged`). Over any run of a tier on it,
whatever `allocate`, `upload` and `download` answer, the live buffers are the ones that entries and calls hold
(`accounts_step`); where no call is in progress, they are the buffers of the entries
(`buffers_accounted`). No buffer is freed that is not live, and after the tier is dropped none is left.
-/

import RivetCache.Device.Linear
import RivetCache.Library.Allocation

set_option linter.unusedSectionVars false

namespace RivetCache

open Library

variable {δ : Type}

/-! ### The log of a device -/

/-- The events of a device. -/
abbrev DeviceLog := List (AllocationEvent DeviceBuffer UInt64)

/-- A device, and its log. -/
structure LoggedDevice (δ : Type) where
  device : δ
  log : DeviceLog

namespace DeviceLog

/-- An allocation, where it succeeds. -/
def allocation (log : DeviceLog) : Except Fault DeviceBuffer → DeviceLog
  | .ok buffer => .allocated buffer :: log
  | .error _ => log

/-- A release, where it succeeds. -/
def release (log : DeviceLog) (buffer : DeviceBuffer) : Except Fault Unit → DeviceLog
  | .ok () => .released buffer.handle :: log
  | .error _ => log

/-- The buffers that are allocated and not freed. -/
def liveBuffers (log : DeviceLog) : Finset DeviceBuffer := live DeviceBuffer.handle log

end DeviceLog

/-- **A device that keeps a log**; its answers are those of the device. -/
def DeviceMemory.logged (memory : DeviceMemory δ) : DeviceMemory (LoggedDevice δ) where
  name := memory.name
  allocate len state :=
    let (answer, device) := memory.allocate len state.device
    (answer, ⟨device, state.log.allocation answer⟩)
  upload buffer bytes state :=
    let (answer, device) := memory.upload buffer bytes state.device
    (answer, { state with device := device })
  download buffer state :=
    let (answer, device) := memory.download buffer state.device
    (answer, { state with device := device })
  free buffer state :=
    let (answer, device) := memory.free buffer state.device
    (answer, ⟨device, state.log.release buffer answer⟩)
  health state :=
    let (answer, device) := memory.health state.device
    (answer, { state with device := device })

/-- `drop`: what the entries hold is freed, in any order; an error is ignored. -/
def DeviceMemory.dropEntries (memory : DeviceMemory δ)
    (order : List ((_ : List UInt8) × DeviceEntry)) (device : δ) : δ :=
  order.foldl (fun device entry => (memory.free entry.2.buffer device).2) device

/-- The call has returned. -/
def DevicePhase.hasReturned : DevicePhase → Bool
  | .got _ => true
  | .ended _ => true
  | _ => false

/-- No call is in progress. -/
def DeviceKvTier.Idle (state : DeviceKvTier δ) : Prop :=
  ∀ id call phase, state.calls id = some (call, phase) → phase.hasReturned = true

/-- **What a device promises** for the next step of a call: no live buffer has the handle of a buffer that
it hands out, and an upload that fails returns an error. -/
structure DeviceMemory.Promises (memory : DeviceMemory δ) (device : LoggedDevice δ)
    (phase : DevicePhase) : Prop where
  fresh : ∀ entry buffer, phase = .putAllocate entry →
    (memory.allocate (UInt64.ofNat entry.block.bytes.bytes.length) device.device).1 = .ok buffer →
    ∀ other ∈ device.log.liveBuffers, other.handle ≠ buffer.handle
  returns : ∀ entry buffer, phase = .putUpload entry buffer →
    (memory.upload buffer entry.block.bytes device.device).1 ≠ .error .panic

/-- **A run of a tier** whose device keeps its promises. -/
def DeviceMemory.Promising (memory : DeviceMemory δ) :
    DeviceLabel → DeviceKvTier (LoggedDevice δ) → Prop
  | .begin _ _, _ => True
  | .advance id _, state => ∀ call phase, state.calls id = some (call, phase) →
      memory.Promises state.device phase

/-! ### The log takes no part -/

section

variable (memory : DeviceMemory δ) (digest : Digest)

/-- A call goes on as it would without the log. -/
theorem next_logged (pick : List UInt8) (entries : DeviceEntries) (state : LoggedDevice δ)
    (phase : DevicePhase) :
    (phase.next memory.logged digest pick entries state).phase =
        (phase.next memory digest pick entries state.device).phase ∧
      (phase.next memory.logged digest pick entries state).entries =
        (phase.next memory digest pick entries state.device).entries ∧
      (phase.next memory.logged digest pick entries state).device.device =
        (phase.next memory digest pick entries state.device).device := by
  cases phase with
  | clearing drained firstError =>
      unfold DevicePhase.next
      dsimp only
      split
      · exact ⟨rfl, rfl, rfl⟩
      · split <;> exact ⟨rfl, rfl, rfl⟩
  | _ => exact ⟨rfl, rfl, rfl⟩

/-- A tier without the log. -/
def DeviceKvTier.forgetLog (state : DeviceKvTier (LoggedDevice δ)) : DeviceKvTier δ :=
  ⟨state.entries, state.device.device, state.calls⟩

/-- **The steps of a tier** are those of the tier without the log. -/
theorem step_logged (label : DeviceLabel) (state : DeviceKvTier (LoggedDevice δ)) :
    (DeviceKvTier.step memory.logged digest label state).forgetLog =
      DeviceKvTier.step memory digest label state.forgetLog := by
  cases label with
  | begin id call =>
      cases standing : state.calls id <;> simp [DeviceKvTier.step, DeviceKvTier.forgetLog, standing]
  | advance id pick =>
      cases standing : state.calls id with
      | none => simp [DeviceKvTier.step, DeviceKvTier.forgetLog, standing]
      | some call =>
          obtain ⟨phase, entries, device⟩ :=
            next_logged memory digest pick state.entries state.device call.2
          simp only [DeviceKvTier.step, DeviceKvTier.forgetLog, standing, DeviceKvTier.move, phase,
            entries, device]

end

/-! ### One step -/

section

variable {memory : DeviceMemory δ} {digest : Digest} {state : DeviceKvTier (LoggedDevice δ)}
  {id : Nat} {call : DeviceCall} {phase : DevicePhase} {pick : List UInt8}

/-- The live buffers are held by the entries and the calls, each by one of them. -/
def DeviceKvTier.Balanced (state : DeviceKvTier (LoggedDevice δ)) : Prop :=
  Accounts DeviceBuffer.handle state.owned state.device.log

/-- A step that neither allocates nor frees writes nothing to the log. -/
theorem next_log_kept (entries : DeviceEntries) {device : LoggedDevice δ}
    (unfreed : phase.frees pick = none)
    (unallocated : ∀ entry buffer, phase = .putAllocate entry →
      (memory.logged.allocate (UInt64.ofNat entry.block.bytes.bytes.length) device).1 ≠ .ok buffer) :
    (phase.next memory.logged digest pick entries device).device.log = device.log := by
  cases phase with
  | putAllocate entry =>
      show device.log.allocation (memory.logged.allocate _ device).1 = _
      cases answered : (memory.logged.allocate (UInt64.ofNat entry.block.bytes.bytes.length)
          device).1 with
      | error fault => rfl
      | ok buffer => exact absurd answered (unallocated entry buffer rfl)
  | putFailed buffer error => cases unfreed
  | freeing old => cases unfreed
  | clearing drained firstError =>
      have absent : drained.lookup pick = none := Option.map_eq_none_iff.mp unfreed
      unfold DevicePhase.next
      simp only [absent]
      split <;> rfl
  | _ => rfl

/-- A buffer is freed. -/
theorem next_log_freed (entries : DeviceEntries) {device : LoggedDevice δ} {buffer : DeviceBuffer}
    (frees : ∀ buffer device, (memory.free buffer device).1 = .ok ())
    (releases : phase.frees pick = some buffer) :
    (phase.next memory.logged digest pick entries device).device.log =
      .released buffer.handle :: device.log := by
  have freed : ∀ buffer, (memory.logged.free buffer device).2.log =
      .released buffer.handle :: device.log := by
    intro buffer
    show device.log.release buffer (memory.free buffer device.device).1 = _
    rw [frees]
    rfl
  cases phase with
  | putFailed failed error =>
      cases releases
      exact freed _
  | freeing old =>
      cases releases
      exact freed _
  | clearing drained firstError =>
      obtain ⟨entry, found, rfl⟩ := Option.map_eq_some_iff.mp releases
      unfold DevicePhase.next
      simp only [found]
      exact freed entry.buffer
  | _ => cases releases

/-- **One step of a call.** Buffers change hands under the lock; `allocate` and `free` write to the log. -/
theorem balanced_next (frees : ∀ buffer device, (memory.free buffer device).1 = .ok ())
    (balanced : state.Balanced) (standing : state.calls id = some (call, phase))
    (promises : memory.Promises state.device phase) :
    (state.move id call
      (phase.next memory.logged digest pick state.entries state.device)).Balanced := by
  have passed : Passed memory.logged state id phase pick (state.move id call
      (phase.next memory.logged digest pick state.entries state.device)).owned :=
    passed_next standing pick
  show Accounts _ (state.move id call _).owned
    (phase.next memory.logged digest pick state.entries state.device).device.log
  generalize (state.move id call (phase.next memory.logged digest pick state.entries
    state.device)).owned = after at passed ⊢
  cases passed with
  | exchanged hands unfreed unallocated =>
      rw [next_log_kept _ unfreed unallocated]
      exact balanced.permuted hands
  | allocated entry buffer here answered =>
      subst here
      show Accounts _ _ (state.device.log.allocation (memory.logged.allocate _ _).1)
      rw [answered]
      exact balanced.allocated (owned_call standing []) (promises.fresh entry buffer rfl answered)
  | freed slot buffer releases holds =>
      rw [next_log_freed _ frees releases]
      exact balanced.released ((owned_call standing slot).trans holds)
  | lost _ _ panicked =>
      rcases panicked with ⟨entry, buffer, here, panicked⟩ | ⟨buffer, _, panicked⟩
      · exact absurd panicked (promises.returns entry buffer here)
      · have freed := frees buffer state.device.device
        rw [show (memory.free buffer state.device.device).1 = _ from panicked] at freed
        cases freed

end

/-! ### Runs -/

section

variable {memory : DeviceMemory δ} {digest : Digest} {state : DeviceKvTier (LoggedDevice δ)}

/-- **One step of a tier.** -/
theorem balanced_step (frees : ∀ buffer device, (memory.free buffer device).1 = .ok ())
    (label : DeviceLabel) (balanced : state.Balanced) (permitted : memory.Promising label state) :
    (DeviceKvTier.step memory.logged digest label state).Balanced := by
  cases label with
  | begin id call =>
      unfold DeviceKvTier.step
      dsimp only
      split
      case h_1 => exact balanced
      case h_2 idle =>
        unfold DeviceKvTier.Balanced
        rw [owned_begin idle]
        exact balanced
  | advance id pick =>
      unfold DeviceKvTier.step
      dsimp only
      split
      case h_1 => exact balanced
      case h_2 call phase standing =>
        exact balanced_next frees balanced standing (permitted call phase standing)

/-- A call that has returned holds nothing. -/
theorem holding_hasReturned {phase : DevicePhase} (returned : phase.hasReturned = true)
    (slot : List UInt8) : phase.holding slot = none := by
  cases phase with
  | got result => rfl
  | ended result => rfl
  | _ => cases returned

/-- Where no call is in progress, only the entries hold buffers. -/
theorem owned_idle (idle : state.Idle) {owner : DeviceOwner} {buffer : DeviceBuffer}
    (owns : state.owned owner = some buffer) : ∃ name, owner = .tier name := by
  cases owner with
  | tier name => exact ⟨name, rfl⟩
  | call id slot =>
      obtain ⟨⟨call, phase⟩, standing, holds⟩ := Option.bind_eq_some_iff.mp owns
      rw [holding_hasReturned (idle id call phase standing)] at holds
      cases holds

/-- **What `drop` leaves**: the entries are freed one after the other. The induction is on the order. -/
theorem dropEntries_accounts (frees : ∀ buffer device, (memory.free buffer device).1 = .ok ())
    (order : List ((_ : List UInt8) × DeviceEntry)) {owned : DeviceOwner → Option DeviceBuffer}
    {device : LoggedDevice δ} (accounts : Accounts DeviceBuffer.handle owned device.log)
    (distinct : (order.map Sigma.fst).Nodup)
    (holds : ∀ entry ∈ order, owned (.tier entry.1) = some entry.2.buffer)
    (all : ∀ owner buffer, owned owner = some buffer → ∃ entry ∈ order, owner = .tier entry.1) :
    (memory.logged.dropEntries order device).log.liveBuffers = ∅ ∧
      ReleasesLive DeviceBuffer.handle (memory.logged.dropEntries order device).log := by
  induction order generalizing owned device with
  | nil =>
      refine ⟨Finset.eq_empty_of_forall_notMem fun buffer inside => ?_, accounts.proper⟩
      obtain ⟨owner, owns⟩ := (accounts.live_iff buffer).mp inside
      obtain ⟨entry, nowhere, _⟩ := all owner buffer owns
      cases nowhere
  | cons first rest ih =>
      obtain ⟨apart, distinct⟩ := List.nodup_cons.mp distinct
      have next := accounts.released (holds first List.mem_cons_self)
      have logged : (memory.logged.free first.2.buffer device).2.log =
          .released first.2.buffer.handle :: device.log := by
        show device.log.release first.2.buffer (memory.free first.2.buffer device.device).1 = _
        rw [frees]
        rfl
      rw [← logged] at next
      refine ih next distinct (fun entry inside => ?_) fun owner buffer owns => ?_
      · rw [Function.update_of_ne]
        · exact holds entry (List.mem_cons_of_mem _ inside)
        · intro same
          exact apart (DeviceOwner.tier.inj same ▸ List.mem_map_of_mem inside)
      · by_cases own : owner = .tier first.1
        · rw [own, Function.update_self] at owns
          cases owns
        · rw [Function.update_of_ne own] at owns
          obtain ⟨entry, inside, named⟩ := all owner buffer owns
          rcases List.mem_cons.mp inside with rfl | later
          · exact absurd named own
          · exact ⟨entry, later, named⟩

end

/-- **Every buffer is accounted for.** In every run of a tier whose device hands out fresh handles and frees
what it is told to, while `allocate`, `upload` and `download` fail as they like: only live buffers are
freed, none twice without an allocation in between, and no two names have one buffer; where no call is in
progress, the live buffers are those of the entries, and once the entries are dropped, in any order, none is
left. -/
theorem buffers_accounted (memory : DeviceMemory δ) (digest : Digest)
    (frees : ∀ buffer device, (memory.free buffer device).1 = .ok ()) (device : δ)
    {state : DeviceKvTier (LoggedDevice δ)}
    (reached : Reaches (DeviceKvTier.step memory.logged digest) memory.Promising
      (DeviceKvTier.new ⟨device, []⟩) state) :
    ReleasesLive DeviceBuffer.handle state.device.log ∧
    (∀ later between earlier freed, state.device.log =
        later ++ .released freed :: (between ++ .released freed :: earlier) →
      ∃ buffer : DeviceBuffer, buffer.handle = freed ∧ .allocated buffer ∈ between) ∧
    (∀ name other entry another, state.entries.lookup name = some entry →
      state.entries.lookup other = some another →
      entry.buffer.handle = another.buffer.handle → name = other) ∧
    (state.Idle →
      (∀ buffer, buffer ∈ state.device.log.liveBuffers ↔
        ∃ name entry, state.entries.lookup name = some entry ∧ entry.buffer = buffer) ∧
      ∀ order, order.Perm state.entries.entries →
        (memory.logged.dropEntries order state.device).log.liveBuffers = ∅ ∧
        ReleasesLive DeviceBuffer.handle (memory.logged.dropEntries order state.device).log) := by
  have new : (DeviceKvTier.new (⟨device, []⟩ : LoggedDevice δ)).Balanced :=
    Accounts.nothing fun owner => by cases owner <;> rfl
  have balanced := reached.invariant DeviceKvTier.Balanced new fun label state balanced permitted =>
    balanced_step frees label balanced permitted
  have tier_owns : ∀ name entry, state.entries.lookup name = some entry →
      state.owned (.tier name) = some entry.buffer :=
    fun name entry found => congrArg (Option.map DeviceEntry.buffer) found
  refine ⟨balanced.proper, ?_, ?_, fun idle => ⟨fun buffer => ?_, fun order shuffled => ?_⟩⟩
  · intro later between earlier freed split
    exact (split ▸ balanced.proper : ReleasesLive _ _).between
  · intro name other entry another found found_there same
    exact DeviceOwner.tier.inj (balanced.sole _ _ _ _ (tier_owns name entry found)
      (tier_owns other another found_there) same)
  · refine (balanced.live_iff buffer).trans ⟨?_, ?_⟩
    · rintro ⟨owner, owns⟩
      obtain ⟨name, rfl⟩ := owned_idle idle owns
      obtain ⟨entry, found, same⟩ := Option.map_eq_some_iff.mp owns
      exact ⟨name, entry, found, same⟩
    · rintro ⟨name, entry, found, rfl⟩
      exact ⟨.tier name, tier_owns name entry found⟩
  · refine dropEntries_accounts frees order balanced ?_ (fun entry inside => ?_)
      fun owner buffer owns => ?_
    · exact (shuffled.map Sigma.fst).nodup_iff.mpr state.entries.nodupKeys
    · exact tier_owns _ _ (lookup_of_mem (shuffled.mem_iff.mp inside))
    · obtain ⟨name, rfl⟩ := owned_idle idle owns
      obtain ⟨entry, found, _⟩ := Option.map_eq_some_iff.mp owns
      exact ⟨⟨name, entry⟩, shuffled.mem_iff.mpr (mem_of_lookup found), rfl⟩

/-! ### A block that is replaced -/

/-- A tier on a host device, with a log. -/
def loggedStep : DeviceLabel → DeviceKvTier (LoggedDevice HostBuffers) →
    DeviceKvTier (LoggedDevice HostBuffers) :=
  DeviceKvTier.step (hostDeviceMemory "host").logged zeroDigest

/-- The steps of a second `put` of the block, the call `1`. -/
def replaceSteps : List DeviceLabel :=
  [.begin 1 (.put deviceEntry), .advance 1 [], .advance 1 [], .advance 1 [], .advance 1 []]

/-- The tier after the two. -/
def replacedTier : DeviceKvTier (LoggedDevice HostBuffers) :=
  (putSteps ++ replaceSteps).foldl (fun state label => loggedStep label state)
    (.new ⟨HostDeviceMemory.empty, []⟩)

/-- The first buffer is freed, and the second one is what is live. -/
example : replacedTier.device.log =
    [.released 1, .allocated ⟨2, 1⟩, .allocated ⟨1, 1⟩] := rfl

/-- A call whose next step the device keeps its promises for. -/
theorem promising {memory : DeviceMemory δ} {call : DeviceCall} {phase : DevicePhase}
    {pick : List UInt8} {id : Nat} {state : DeviceKvTier (LoggedDevice δ)}
    (standing : state.calls id = some (call, phase)) (keeps : memory.Promises state.device phase) :
    memory.Promising (.advance id pick) state := by
  intro call' phase' there
  rw [standing] at there
  cases there
  exact keeps

/-- **A block is put twice**: the entry has the one live buffer, and `drop` frees it. -/
theorem buffers_accounted_replaced :
    (∀ buffer, buffer ∈ replacedTier.device.log.liveBuffers ↔
      ∃ name entry, replacedTier.entries.lookup name = some entry ∧ entry.buffer = buffer) ∧
    ((hostDeviceMemory "host").logged.dropEntries replacedTier.entries.entries
      replacedTier.device).log.liveBuffers = ∅ := by
  have reached : Reaches loggedStep (hostDeviceMemory "host").Promising
      (.new ⟨HostDeviceMemory.empty, []⟩) replacedTier := by
    refine Reaches.ofList ⟨trivial, promising rfl ⟨?_, ?_⟩, promising rfl ⟨?_, ?_⟩,
      promising rfl ⟨?_, ?_⟩, trivial, promising rfl ⟨?_, ?_⟩, promising rfl ⟨?_, ?_⟩,
      promising rfl ⟨?_, ?_⟩, promising rfl ⟨?_, ?_⟩, trivial⟩
    · intro entry buffer same allocated other inside
      exact absurd inside (Finset.notMem_empty _)
    · intro entry buffer same
      cases same
    · intro entry buffer same
      cases same
    · intro entry buffer same panicked
      cases same
      cases panicked
    · intro entry buffer same
      cases same
    · intro entry buffer same
      cases same
    · intro entry buffer same allocated other inside
      cases same
      cases allocated
      rw [Finset.mem_singleton.mp inside]
      decide
    · intro entry buffer same
      cases same
    · intro entry buffer same
      cases same
    · intro entry buffer same panicked
      cases same
      cases panicked
    all_goals
      intro entry buffer same
      cases same
  have idle : replacedTier.Idle := by
    intro id call phase standing
    by_cases second : id = 1
    · subst second
      cases standing
      rfl
    · by_cases first : id = 0
      · subst first
        cases standing
        rfl
      · rw [show replacedTier.calls id = none from calls_foldl_other
          (putSteps ++ replaceSteps) (by
            simp [putSteps, replaceSteps, DeviceLabel.caller, Ne.symm first, Ne.symm second])]
          at standing
        cases standing
  exact (((buffers_accounted (hostDeviceMemory "host") zeroDigest (fun _ _ => rfl)
    HostDeviceMemory.empty reached).2.2.2 idle).imp (fun balance => balance)
      fun drop => (drop _ (List.Perm.refl _)).1)

end RivetCache
