/-
**What the registry of a HIP device holds.**

An allocation of the driver has one owner: a caller that was given the buffer, or a call (`owned`). So has an
entry of the registry (`listed`); a call that releases an address has its entry and no longer the address.

* `collision_iff`: an address that is registered is in the registry where a call is still releasing it;
* `hip_step`: the invariant, for one step;
* `hip_registry`: a run of the allocator.
-/

import RivetCache.Device.Hip

set_option linter.unusedSectionVars false

namespace RivetCache

open Library

/-! ### Owners -/

/-- An owner of an allocation, or of an entry of the registry. -/
inductive HipOwner where
  | caller (buffer : DeviceBuffer)
  | call (id : Nat)
  deriving DecidableEq

namespace HipPhase

/-- The allocation that a call holds. -/
def holding : HipPhase → Option DeviceBuffer
  | .register buffer => some buffer
  | .reject buffer => some buffer
  | .validate buffer => some buffer
  | .release buffer => some buffer
  | _ => none

/-- The entry of the registry that a call holds. -/
def listing : HipPhase → Option DeviceBuffer
  | .validate buffer => some buffer
  | .release buffer => some buffer
  | .unregister buffer => some buffer
  | _ => none

end HipPhase

namespace HipDeviceMemory

/-- What the callers hold, and what the calls hold at their phases. -/
def claims (holds : HipPhase → Option DeviceBuffer) (memory : HipDeviceMemory) :
    HipOwner → Option DeviceBuffer
  | .caller buffer => if buffer ∈ memory.given then some buffer else none
  | .call id => (memory.calls id).bind fun call => holds call.2

/-- Who holds which allocation of the driver. -/
def owned (memory : HipDeviceMemory) : HipOwner → Option DeviceBuffer :=
  memory.claims HipPhase.holding

/-- Who holds which entry of the registry. -/
def listed (memory : HipDeviceMemory) : HipOwner → Option DeviceBuffer :=
  memory.claims HipPhase.listing

variable {memory after : HipDeviceMemory} {holds : HipPhase → Option DeviceBuffer} {id : Nat}
  {call : HipCall} {phase : HipPhase} {buffer : DeviceBuffer}

theorem claims_call (standing : memory.calls id = some (call, phase)) :
    memory.claims holds (.call id) = holds phase := by
  show (memory.calls id).bind _ = _
  rw [standing]
  rfl

theorem claims_uncalled (idle : memory.calls id = none) : memory.claims holds (.call id) = none := by
  show (memory.calls id).bind _ = _
  rw [idle]
  rfl

theorem claims_caller {other : DeviceBuffer} (claimed : memory.claims holds (.caller buffer) = some other) :
    other = buffer ∧ buffer ∈ memory.given := by
  change (if buffer ∈ memory.given then some buffer else none) = some other at claimed
  split at claimed
  case isTrue inside => exact ⟨(Option.some.inj claimed).symm, inside⟩
  case isFalse => cases claimed

theorem claims_given (inside : buffer ∈ memory.given) :
    memory.claims holds (.caller buffer) = some buffer := if_pos inside

/-- A call that goes on. -/
theorem claims_stand : (memory.stand id call phase).claims holds =
    Function.update (memory.claims holds) (.call id) (holds phase) := by
  funext owner
  cases owner with
  | caller buffer => exact (Function.update_of_ne HipOwner.noConfusion _ _).symm
  | call other =>
      by_cases own : other = id
      · rw [own, Function.update_self]
        exact claims_call (Function.update_self _ _ _)
      · rw [Function.update_of_ne (fun same => own (HipOwner.call.inj same))]
        show (Function.update memory.calls id _ other).bind _ = _
        rw [Function.update_of_ne own]
        rfl

/-- A call that goes on, and holds what it held. -/
theorem claims_kept {next : HipPhase} (standing : memory.calls id = some (call, phase))
    (same : holds next = holds phase) :
    (memory.stand id call next).claims holds = memory.claims holds :=
  claims_stand.trans (Function.update_eq_self_iff.mpr (same.trans (claims_call standing).symm))

/-- A caller is given a buffer. -/
theorem claims_insert : { memory with given := insert buffer memory.given }.claims holds =
    Function.update (memory.claims holds) (.caller buffer) (some buffer) := by
  funext owner
  cases owner with
  | caller other =>
      by_cases own : other = buffer
      · rw [own, Function.update_self]
        exact if_pos (Finset.mem_insert_self _ _)
      · rw [Function.update_of_ne (fun same => own (HipOwner.caller.inj same))]
        show (if other ∈ insert buffer memory.given then some other else none) = _
        simp only [Finset.mem_insert, own, false_or]
        rfl
  | call other => exact (Function.update_of_ne HipOwner.noConfusion _ _).symm

/-- A caller passes a buffer on. -/
theorem claims_erase : { memory with given := memory.given.erase buffer }.claims holds =
    Function.update (memory.claims holds) (.caller buffer) none := by
  funext owner
  cases owner with
  | caller other =>
      by_cases own : other = buffer
      · rw [own, Function.update_self]
        exact if_neg (Finset.notMem_erase _ _)
      · rw [Function.update_of_ne (fun same => own (HipOwner.caller.inj same))]
        show (if other ∈ memory.given.erase buffer then some other else none) = _
        simp only [Finset.mem_erase, ne_eq, own, not_false_eq_true, true_and]
        rfl
  | call other => exact (Function.update_of_ne HipOwner.noConfusion _ _).symm

/-! ### The invariant -/

/-- **The invariant.** What the driver has allocated has one owner each; so have the entries of the registry.
An entry says the length of the allocation, unless its owner is a call that has released it. -/
structure Sound (memory : HipDeviceMemory) : Prop where
  accounts : Accounts DeviceBuffer.handle memory.owned memory.driver
  sole : Sole DeviceBuffer.handle memory.listed
  entry : ∀ owner buffer, memory.listed owner = some buffer → ∃ len,
    memory.allocations.lookup buffer.handle = some len ∧
      (memory.owned owner = some buffer → len = buffer.len)
  covered : ∀ handle len, memory.allocations.lookup handle = some len →
    ∃ owner buffer, memory.listed owner = some buffer ∧ buffer.handle = handle

/-- The owner of an entry has the allocation as well, or is releasing it. -/
theorem owned_or_releasing {owner : HipOwner} (listed : memory.listed owner = some buffer) :
    memory.owned owner = some buffer ∨ memory.Releasing buffer.handle := by
  cases owner with
  | caller other =>
      obtain ⟨rfl, inside⟩ := claims_caller listed
      exact Or.inl (claims_given inside)
  | call id =>
      obtain ⟨⟨call, phase⟩, standing, lists⟩ := Option.bind_eq_some_iff.mp listed
      cases phase with
      | validate other => exact Or.inl ((claims_call standing).trans lists)
      | release other => exact Or.inl ((claims_call standing).trans lists)
      | unregister other =>
          cases lists
          exact Or.inr ⟨id, call, buffer, standing, rfl⟩
      | _ => cases lists

/-- **A collision**: an address that is registered is in the registry already where a call is still
releasing it. -/
theorem collision_iff (sound : memory.Sound) (standing : memory.calls id = some (call, .register buffer)) :
    (memory.allocations.lookup buffer.handle).isSome = true ↔ memory.Releasing buffer.handle := by
  constructor
  · intro there
    obtain ⟨len, found⟩ := Option.isSome_iff_exists.mp there
    obtain ⟨owner, other, listed, same⟩ := sound.covered _ len found
    rcases owned_or_releasing listed with owns | releasing
    · -- the address has one owner, and the call that registers it has no entry
      have own := sound.accounts.sole owner (.call id) other buffer owns (claims_call standing) same
      rw [own] at listed
      cases (claims_call standing).symm.trans listed
    · exact same ▸ releasing
  · rintro ⟨other, call', releasing, standing', same⟩
    obtain ⟨len, found, _⟩ := sound.entry (.call other) releasing (claims_call standing')
    rw [← same, found]
    rfl

namespace Sound

/-- **Nothing but the owners changes**: they exchange what they hold. -/
theorem exchanged (sound : memory.Sound) (hands : Equiv.Perm HipOwner)
    (allocations : after.allocations = memory.allocations) (driver : after.driver = memory.driver)
    (owned : after.owned = fun owner => memory.owned (hands owner))
    (listed : after.listed = fun owner => memory.listed (hands owner)) : after.Sound where
  accounts := by
    rw [owned, driver]
    exact sound.accounts.permuted hands
  sole := by
    rw [listed]
    exact sound.sole.permuted hands
  entry owner buffer lists := by
    rw [listed] at lists
    rw [owned, allocations]
    exact sound.entry _ buffer lists
  covered handle len found := by
    rw [allocations] at found
    obtain ⟨owner, buffer, lists, same⟩ := sound.covered handle len found
    refine ⟨hands.symm owner, buffer, ?_, same⟩
    rw [listed]
    simpa using lists

/-- A step that changes none of this. -/
theorem kept (sound : memory.Sound) (allocations : after.allocations = memory.allocations)
    (driver : after.driver = memory.driver) (owned : after.owned = memory.owned)
    (listed : after.listed = memory.listed) : after.Sound :=
  sound.exchanged (Equiv.refl _) allocations driver owned listed

/-- **The driver is called**: the registry stays as it is. -/
theorem driven (sound : memory.Sound) (allocations : after.allocations = memory.allocations)
    (listed : after.listed = memory.listed)
    (accounts : Accounts DeviceBuffer.handle after.owned after.driver)
    (sub : ∀ owner buffer, memory.listed owner = some buffer → after.owned owner = some buffer →
      memory.owned owner = some buffer) : after.Sound where
  accounts := accounts
  sole := listed ▸ sound.sole
  entry owner buffer lists := by
    rw [listed] at lists
    obtain ⟨len, found, exact_len⟩ := sound.entry owner buffer lists
    rw [allocations]
    exact ⟨len, found, fun owns => exact_len (sub owner buffer lists owns)⟩
  covered handle len found := by
    rw [allocations] at found
    rw [listed]
    exact sound.covered handle len found

/-- **A new entry**: the buffer is handed to the caller, with the entry. -/
theorem registered (sound : memory.Sound) (standing : memory.calls id = some (call, .register buffer))
    (absent : memory.allocations.lookup buffer.handle = none)
    (allocations : after.allocations = memory.allocations.insert buffer.handle buffer.len)
    (driver : after.driver = memory.driver)
    (claims : ∀ holds, after.claims holds = Function.update (Function.update (memory.claims holds)
      (.call id) (holds (.allocated (.ok buffer)))) (.caller buffer) (some buffer)) :
    after.Sound := by
  have mine : memory.owned (.call id) = some buffer := claims_call standing
  have ungiven : buffer ∉ memory.given := fun inside =>
    HipOwner.noConfusion (sound.accounts.sole (.caller buffer) (.call id) buffer buffer
      (claims_given inside) mine rfl)
  have unlisted : memory.listed (.call id) = none := claims_call standing
  have owned : after.owned =
      fun owner => memory.owned (Equiv.swap (.call id) (.caller buffer) owner) :=
    (claims HipPhase.holding).trans (update_handed mine (if_neg ungiven))
  have listed : after.listed = Function.update memory.listed (.caller buffer) (some buffer) := by
    refine (claims HipPhase.listing).trans ?_
    rw [show (HipPhase.allocated (.ok buffer)).listing = memory.listed (.call id) from unlisted.symm]
    exact congrArg (fun before => Function.update before _ _) (Function.update_eq_self _ _)
  have unused : ∀ owner other, memory.listed owner = some other → other.handle ≠ buffer.handle := by
    intro owner other lists same
    obtain ⟨len, found, _⟩ := sound.entry owner other lists
    rw [same, absent] at found
    cases found
  constructor
  · rw [owned, driver]
    exact sound.accounts.permuted _
  · rw [listed]
    exact sound.sole.update_some _ buffer unused
  · intro owner other lists
    rw [allocations, lookup_insert_eq]
    rw [listed] at lists
    by_cases own : owner = .caller buffer
    · rw [own, Function.update_self] at lists
      cases lists
      exact ⟨buffer.len, if_pos rfl, fun _ => rfl⟩
    · rw [Function.update_of_ne own] at lists
      obtain ⟨len, found, exact_len⟩ := sound.entry owner other lists
      refine ⟨len, (if_neg (unused owner other lists)).trans found, fun owns => exact_len ?_⟩
      have apart : owner ≠ .call id := fun same => by
        rw [same, unlisted] at lists
        cases lists
      simp only [owned, Equiv.swap_apply_of_ne_of_ne apart own] at owns
      exact owns
  · intro handle len found
    rw [allocations, lookup_insert_eq] at found
    rw [listed]
    by_cases own : handle = buffer.handle
    · exact ⟨.caller buffer, buffer, Function.update_self _ _ _, own.symm⟩
    · rw [if_neg own] at found
      obtain ⟨owner, other, lists, same⟩ := sound.covered handle len found
      refine ⟨owner, other, ?_, same⟩
      rw [Function.update_of_ne]
      · exact lists
      · rintro rfl
        exact ungiven (claims_caller lists).2

/-- **An entry is overwritten** that a call is still going to take out. -/
theorem overwritten (sound : memory.Sound) (standing : memory.calls id = some (call, .register buffer))
    (there : (memory.allocations.lookup buffer.handle).isSome = true)
    (allocations : after.allocations = memory.allocations.insert buffer.handle buffer.len)
    (driver : after.driver = memory.driver) (owned : after.owned = memory.owned)
    (listed : after.listed = memory.listed) : after.Sound where
  accounts := by
    rw [owned, driver]
    exact sound.accounts
  sole := listed ▸ sound.sole
  entry owner other lists := by
    rw [listed] at lists
    rw [allocations, owned, lookup_insert_eq]
    by_cases own : other.handle = buffer.handle
    · refine ⟨buffer.len, if_pos own, fun owns => ?_⟩
      have mine := sound.accounts.sole owner (.call id) other buffer owns (claims_call standing) own
      rw [mine] at lists
      cases (claims_call standing).symm.trans lists
    · obtain ⟨len, found, exact_len⟩ := sound.entry owner other lists
      exact ⟨len, (if_neg own).trans found, exact_len⟩
  covered handle len found := by
    rw [allocations, lookup_insert_eq] at found
    rw [listed]
    by_cases own : handle = buffer.handle
    · obtain ⟨before, found⟩ := Option.isSome_iff_exists.mp there
      exact sound.covered handle before (own ▸ found)
    · rw [if_neg own] at found
      exact sound.covered handle len found

/-- **An entry is taken out** of the registry. -/
theorem unregistered (sound : memory.Sound)
    (standing : memory.calls id = some (call, .unregister buffer))
    (allocations : after.allocations = memory.allocations.erase buffer.handle)
    (driver : after.driver = memory.driver) (owned : after.owned = memory.owned)
    (listed : after.listed = Function.update memory.listed (.call id) none) : after.Sound where
  accounts := by
    rw [owned, driver]
    exact sound.accounts
  sole := by
    rw [listed]
    exact sound.sole.update_none _
  entry owner other lists := by
    rw [listed] at lists
    rw [allocations, owned, lookup_erase_eq]
    have apart : owner ≠ .call id := fun same => by
      rw [same, Function.update_self] at lists
      cases lists
    rw [Function.update_of_ne apart] at lists
    obtain ⟨len, found, exact_len⟩ := sound.entry owner other lists
    refine ⟨len, (if_neg ?_).trans found, exact_len⟩
    exact sound.sole.apart apart lists (claims_call standing)
  covered handle len found := by
    rw [allocations, lookup_erase_eq] at found
    split at found
    case isTrue => cases found
    case isFalse own =>
      obtain ⟨owner, other, lists, same⟩ := sound.covered handle len found
      refine ⟨owner, other, ?_, same⟩
      rw [listed, Function.update_of_ne]
      · exact lists
      · rintro rfl
        cases (claims_call standing).symm.trans lists
        exact own same.symm

end Sound

/-! ### One step -/

section

variable (sound : memory.Sound) (standing : memory.calls id = some (call, phase))

include sound standing

/-- A call goes on that holds afterwards what it held before. -/
theorem sound_stand {next : HipPhase} (holding : next.holding = phase.holding)
    (listing : next.listing = phase.listing) : (memory.stand id call next).Sound := by
  exact sound.kept rfl rfl (claims_kept standing holding) (claims_kept standing listing)

/-- A buffer that was given out is in the registry, with its length. -/
theorem validateBuffer_ok {buffer : DeviceBuffer} (here : phase = .validate buffer) :
    validateBuffer memory.allocations buffer = .ok () := by
  subst here
  obtain ⟨len, found, exact_len⟩ := sound.entry (.call id) buffer (claims_call standing)
  unfold validateBuffer
  simp only [found, exact_len (claims_call standing), if_true]

/-- **The driver releases** what a call holds. -/
theorem sound_released {next : HipPhase} {buffer : DeviceBuffer} (holds : phase.holding = some buffer)
    (gone : next.holding = none) (listing : next.listing = phase.listing) :
    ({ memory.stand id call next with
      driver := .released buffer.handle :: memory.driver } : HipDeviceMemory).Sound := by
  have owned : (memory.stand id call next).owned =
      Function.update memory.owned (.call id) none := claims_stand.trans (by rw [gone]; rfl)
  have listed : (memory.stand id call next).listed = memory.listed := claims_kept standing listing
  refine sound.driven rfl listed ?_ fun owner other _ owns => ?_
  · show Accounts _ (memory.stand id call next).owned _
    rw [owned]
    exact sound.accounts.released ((claims_call standing).trans holds)
  · change (memory.stand id call next).owned owner = some other at owns
    rw [owned] at owns
    by_cases own : owner = .call id
    · rw [own, Function.update_self] at owns
      cases owns
    · rwa [Function.update_of_ne own] at owns

/-- **The driver allocates.** -/
theorem sound_allocated {buffer : DeviceBuffer} (nothing : phase.holding = none)
    (unlisted : phase.listing = none)
    (fresh : ∀ other ∈ memory.driver.liveBuffers, other.handle ≠ buffer.handle) :
    ({ memory.stand id call (.register buffer) with
      driver := .allocated buffer :: memory.driver } : HipDeviceMemory).Sound := by
  have listed : (memory.stand id call (.register buffer)).listed = memory.listed :=
    claims_kept standing unlisted.symm
  have owned : (memory.stand id call (.register buffer)).owned =
      Function.update memory.owned (.call id) (some buffer) := claims_stand
  refine sound.driven rfl listed ?_ fun owner other lists owns => ?_
  · show Accounts _ (memory.stand id call (.register buffer)).owned _
    rw [owned]
    exact sound.accounts.allocated ((claims_call standing).trans nothing) fresh
  · change (memory.stand id call (.register buffer)).owned owner = some other at owns
    rw [owned, Function.update_of_ne] at owns
    · exact owns
    · rintro rfl
      cases lists.symm.trans ((claims_call standing).trans unlisted)

/-- **One step of a call.** -/
theorem sound_advance {answer : Except IoError UInt64} (answers : memory.DriverAnswers answer phase) :
    (memory.advance id call answer phase).Sound := by
  cases phase with
  | malloc len =>
      obtain ⟨pointer, rfl, address, fresh⟩ := answers
      unfold advance
      simp only [address, if_false]
      exact sound_allocated sound standing rfl rfl fresh
  | register buffer =>
      unfold advance
      dsimp only
      split
      case isTrue there =>
        exact sound.overwritten standing there rfl rfl (claims_kept standing rfl)
          (claims_kept standing rfl)
      case isFalse absent =>
        refine sound.registered standing ?_ rfl rfl fun holds => ?_
        · exact Option.not_isSome_iff_eq_none.mp absent
        · exact claims_insert.trans (congrArg (fun before => Function.update before _ _) claims_stand)
  | reject buffer =>
      obtain ⟨pointer, rfl⟩ := answers
      exact sound_released sound standing rfl rfl rfl
  | validate buffer =>
      unfold advance
      simp only [validateBuffer_ok sound standing rfl]
      exact sound_stand sound standing rfl rfl
  | release buffer =>
      obtain ⟨pointer, rfl⟩ := answers
      exact sound_released sound standing rfl rfl rfl
  | unregister buffer =>
      have listed : (memory.stand id call (.freed (.ok ()))).listed =
          Function.update memory.listed (.call id) none := claims_stand
      exact sound.unregistered standing rfl rfl (claims_kept standing rfl) listed
  | allocated result => exact sound_stand sound standing rfl rfl
  | freed result => exact sound_stand sound standing rfl rfl

end

/-- **A call begins**; the buffer that `free` is given passes from the caller to the call. -/
theorem sound_begin (sound : memory.Sound) (idle : memory.calls id = none)
    (callers : memory.CallersFree call) :
    ({ memory.stand id call call.start with given := memory.passed call } : HipDeviceMemory).Sound := by
  cases call with
  | allocate len =>
      have nothing : ∀ holds : HipPhase → Option DeviceBuffer, holds (.malloc len) = none →
          (∀ result, holds (.allocated result) = none) →
          (memory.stand id (.allocate len) (HipCall.allocate len).start).claims holds =
            memory.claims holds := by
        intro holds mallocs allocated
        refine claims_stand.trans (Function.update_eq_self_iff.mpr ?_)
        rw [claims_uncalled idle]
        unfold HipCall.start
        dsimp only
        split
        · exact allocated _
        · exact mallocs
      exact sound.kept rfl rfl (nothing _ rfl fun _ => rfl) (nothing _ rfl fun _ => rfl)
  | free buffer =>
      have passes : ∀ holds : HipPhase → Option DeviceBuffer, holds (.validate buffer) = some buffer →
          ({ memory.stand id (.free buffer) (HipCall.free buffer).start with
            given := memory.passed (.free buffer) } : HipDeviceMemory).claims holds =
            fun owner => memory.claims holds (Equiv.swap (.caller buffer) (.call id) owner) := by
        intro holds validates
        rw [← update_handed (claims_given callers) (claims_uncalled idle), ← claims_erase, ← validates]
        show (HipDeviceMemory.stand { memory with given := memory.given.erase buffer } id
          (.free buffer) (.validate buffer)).claims holds = _
        exact claims_stand
      exact sound.exchanged _ rfl rfl (passes _ rfl) (passes _ rfl)

/-- **The invariant, for one step.** -/
theorem hip_step (label : HipLabel) (sound : memory.Sound) (allowed : Allowed label memory) :
    (step label memory).Sound := by
  cases label with
  | begin id call =>
      unfold step
      dsimp only
      split
      case h_1 => exact sound
      case h_2 idle => exact sound_begin sound idle allowed
  | advance id answer =>
      unfold step
      dsimp only
      split
      case h_1 => exact sound
      case h_2 call phase standing => exact sound_advance sound standing (allowed call phase standing)

/-! ### Runs -/

theorem sound_load : load.Sound where
  accounts := Accounts.nothing fun owner => by cases owner <;> rfl
  sole owner other mine theirs lists := by cases owner <;> cases lists
  entry owner buffer lists := by cases owner <;> cases lists
  covered handle len found := by cases found

/-- Where no call is in progress, only the callers hold anything. -/
theorem claims_idle (idle : memory.Idle) (returned : ∀ phase, hasReturned phase = true → holds phase = none)
    {owner : HipOwner} (claimed : memory.claims holds owner = some buffer) :
    owner = .caller buffer ∧ buffer ∈ memory.given := by
  cases owner with
  | caller other =>
      obtain ⟨rfl, inside⟩ := claims_caller claimed
      exact ⟨rfl, inside⟩
  | call id =>
      obtain ⟨⟨call, phase⟩, standing, holding⟩ := Option.bind_eq_some_iff.mp claimed
      rw [returned phase (idle id call phase standing)] at holding
      cases holding

/-- **Where no call is in progress**, the registry is what the driver has allocated. -/
theorem Sound.idle_lookup_iff (sound : memory.Sound) (idle : memory.Idle) (handle len : UInt64) :
    memory.allocations.lookup handle = some len ↔ ⟨handle, len⟩ ∈ memory.driver.liveBuffers := by
  have unheld : ∀ phase, hasReturned phase = true → HipPhase.holding phase = none := by
    intro phase returned
    cases phase with
    | allocated => rfl
    | freed => rfl
    | _ => cases returned
  have unlisted : ∀ phase, hasReturned phase = true → HipPhase.listing phase = none := by
    intro phase returned
    cases phase with
    | allocated => rfl
    | freed => rfl
    | _ => cases returned
  constructor
  · intro found
    obtain ⟨owner, buffer, lists, rfl⟩ := sound.covered handle len found
    obtain ⟨rfl, inside⟩ := claims_idle idle unlisted lists
    obtain ⟨stored, there, exact_len⟩ := sound.entry _ buffer lists
    have owns : memory.owned (.caller buffer) = some buffer := claims_given inside
    have same : len = buffer.len :=
      (Option.some.inj (found.symm.trans there)).trans (exact_len owns)
    rw [same]
    exact sound.accounts.live_of_owned owns
  · intro inside
    obtain ⟨owner, owns⟩ := (sound.accounts.live_iff _).mp inside
    obtain ⟨rfl, given⟩ := claims_idle idle unheld owns
    obtain ⟨stored, there, exact_len⟩ := sound.entry _ ⟨handle, len⟩ (claims_given given)
    rw [there, exact_len owns]

/-- **The step that registers an address**: the call returns its buffer where no other call is still releasing
the address. -/
theorem register_ok_iff (sound : memory.Sound)
    (standing : memory.calls id = some (call, .register buffer)) (answer : Except IoError UInt64) :
    (step (.advance id answer) memory).calls id = some (call, .allocated (.ok buffer)) ↔
      ¬ memory.Releasing buffer.handle := by
  rw [← collision_iff sound standing]
  unfold step
  simp only [standing, advance]
  split
  case isTrue there =>
    have stands : ∀ memory : HipDeviceMemory, (memory.stand id call (.reject buffer)).calls id =
        some (call, .reject buffer) := fun _ => Function.update_self _ _ _
    simp [stands, there]
  case isFalse absent =>
    have stands : ∀ memory : HipDeviceMemory,
        (memory.stand id call (.allocated (.ok buffer))).calls id =
          some (call, .allocated (.ok buffer)) := fun _ => Function.update_self _ _ _
    simp [stands, absent]

/-- An `allocate` that has not failed, unless it was asked for no byte. -/
def Granted (call : HipCall) : HipPhase → Prop
  | .reject _ => False
  | .allocated (.error _) => call = .allocate 0
  | _ => True

/-- A step of one call, for a property of what the calls stand at. -/
theorem granted_stand (granted : ∀ id call phase, memory.calls id = some (call, phase) →
    Granted call phase) {next : HipPhase} (fine : Granted call next) :
    ∀ id' call' phase, (memory.stand id call next).calls id' = some (call', phase) →
      Granted call' phase := by
  intro id' call' phase standing
  by_cases own : id' = id
  · rw [own, show (memory.stand id call next).calls id = some (call, next) from
      Function.update_self _ _ _] at standing
    cases standing
    exact fine
  · rw [show (memory.stand id call next).calls id' = memory.calls id' from
      Function.update_of_ne own _ _] at standing
    exact granted id' call' phase standing

/-- **No `allocate` fails** in a step that registers no address which is being released. -/
theorem granted_step (label : HipLabel) (sound : memory.Sound)
    (granted : ∀ id call phase, memory.calls id = some (call, phase) → Granted call phase)
    (allowed : Allowed label memory) (unhindered : Unhindered label memory) :
    ∀ id call phase, (step label memory).calls id = some (call, phase) → Granted call phase := by
  cases label with
  | begin id call =>
      unfold step
      dsimp only
      split
      case h_1 => exact granted
      case h_2 idle =>
        refine granted_stand granted ?_
        cases call with
        | allocate len =>
            unfold HipCall.start
            dsimp only
            split
            case isTrue empty => exact congrArg HipCall.allocate empty
            case isFalse => trivial
        | free buffer => trivial
  | advance id answer =>
      unfold step
      dsimp only
      split
      case h_1 => exact granted
      case h_2 call phase standing =>
        have answers := allowed call phase standing
        cases phase with
        | malloc len =>
            obtain ⟨pointer, rfl, address, _⟩ := answers
            unfold advance
            simp only [address, if_false]
            exact granted_stand granted trivial
        | register buffer =>
            have absent := (collision_iff sound standing).not.mpr (unhindered call buffer standing)
            unfold advance
            simp only [absent]
            exact granted_stand granted trivial
        | reject buffer => exact absurd (granted id call _ standing) not_false
        | validate buffer =>
            unfold advance
            dsimp only
            split
            · exact granted_stand granted trivial
            · exact granted_stand granted trivial
        | release buffer =>
            obtain ⟨pointer, rfl⟩ := answers
            exact granted_stand granted trivial
        | unregister buffer => exact granted_stand granted trivial
        | allocated result => exact granted_stand granted (granted id call _ standing)
        | freed result => exact granted_stand granted trivial

end HipDeviceMemory

open HipDeviceMemory in
/-- **The registry of a HIP device.** In every run of a driver that does not fail, and of callers that free a
buffer once: no address is released twice without an allocation in between; where no call is in progress, the
registry holds the live allocations and their lengths; an address that is registered gives its caller a buffer
exactly where no other call is still releasing it. In a run where none ever is, every `allocate` of a byte at
least returns a buffer. -/
theorem hip_registry {memory : HipDeviceMemory} (reached : Reaches step Allowed load memory) :
    (∀ later between earlier handle, memory.driver =
        later ++ .released handle :: (between ++ .released handle :: earlier) →
      ∃ buffer : DeviceBuffer, buffer.handle = handle ∧ .allocated buffer ∈ between) ∧
    (memory.Idle → ∀ handle len, memory.allocations.lookup handle = some len ↔
      ⟨handle, len⟩ ∈ memory.driver.liveBuffers) ∧
    (∀ id call buffer answer, memory.calls id = some (call, .register buffer) →
      ((step (.advance id answer) memory).calls id = some (call, .allocated (.ok buffer)) ↔
        ¬ memory.Releasing buffer.handle)) ∧
    (Reaches step (fun label memory => Allowed label memory ∧ Unhindered label memory) load memory →
      ∀ id len result, memory.calls id = some (.allocate len, .allocated result) → len ≠ 0 →
        ∃ buffer, result = .ok buffer) := by
  have sound := reached.invariant HipDeviceMemory.Sound sound_load
    fun label memory sound allowed => hip_step label sound allowed
  refine ⟨?_, sound.idle_lookup_iff, ?_, ?_⟩
  · intro later between earlier handle split
    exact (split ▸ sound.accounts.proper : ReleasesLive _ _).between
  · intro id call buffer answer standing
    exact register_ok_iff sound standing answer
  · intro unhindered id len result standing some_bytes
    have granted := (unhindered.invariant (fun memory => memory.Sound ∧
      ∀ id call phase, memory.calls id = some (call, phase) → Granted call phase)
      ⟨sound_load, fun id call phase standing => by cases standing⟩
      fun label memory fine allowed => ⟨hip_step label fine.1 allowed.1,
        granted_step label fine.1 fine.2 allowed.1 allowed.2⟩).2 id _ _ standing
    cases result with
    | ok buffer => exact ⟨buffer, rfl⟩
    | error error => exact absurd (HipCall.allocate.inj granted) some_bytes

/-! ### An address that is handed out again -/

namespace HipDeviceMemory

/-- An `allocate`, the call `0`, and the first two steps of a `free` of its buffer, the call `1`. -/
def releaseSteps : List HipLabel :=
  [.begin 0 (.allocate 8), .advance 0 (.ok 1), .advance 0 (.ok 0), .begin 1 (.free ⟨1, 8⟩),
    .advance 1 (.ok 0), .advance 1 (.ok 0)]

/-- An `allocate`, the call `2`, to which the driver hands out the address again. -/
def reuseSteps : List HipLabel :=
  [.begin 2 (.allocate 8), .advance 2 (.ok 1), .advance 2 (.ok 0), .advance 2 (.ok 0)]

/-- The address is handed out again before it is out of the registry. -/
def collided : HipDeviceMemory :=
  (releaseSteps ++ reuseSteps).foldl (fun memory label => step label memory) load

/-- The address is out of the registry when it is handed out again. -/
def reused : HipDeviceMemory :=
  (releaseSteps ++ .advance 1 (.ok 0) :: reuseSteps).foldl (fun memory label => step label memory) load

theorem allowed_advance {memory : HipDeviceMemory} {id : Nat} {call : HipCall} {phase : HipPhase}
    {answer : Except IoError UInt64} (standing : memory.calls id = some (call, phase))
    (answers : memory.DriverAnswers answer phase) : Allowed (.advance id answer) memory := by
  intro call' phase' there
  rw [standing] at there
  cases there
  exact answers

/-- An address is registered that is not in the registry. -/
def Vacant : HipLabel → HipDeviceMemory → Prop
  | .begin _ _, _ => True
  | .advance id _, memory => ∀ call buffer, memory.calls id = some (call, .register buffer) →
      memory.allocations.lookup buffer.handle = none

/-- **A run** that registers no address twice is one that registers none which is being released. -/
theorem unhindered_of_vacant {memory : HipDeviceMemory}
    (reached : Reaches step (fun label memory => Allowed label memory ∧ Vacant label memory) load
      memory) :
    Reaches step (fun label memory => Allowed label memory ∧ Unhindered label memory) load memory := by
  refine (reached.restrict (I := HipDeviceMemory.Sound) sound_load ?_).1
  rintro label memory sound ⟨allowed, vacant⟩
  refine ⟨⟨allowed, ?_⟩, hip_step label sound allowed⟩
  cases label with
  | begin id call => trivial
  | advance id answer =>
      intro call buffer standing releasing
      have collides := (collision_iff sound standing).mpr releasing
      rw [vacant call buffer standing] at collides
      cases collides

theorem vacant_advance {memory : HipDeviceMemory} {id : Nat} {call : HipCall} {phase : HipPhase}
    {answer : Except IoError UInt64} (standing : memory.calls id = some (call, phase))
    (absent : ∀ buffer, phase = .register buffer → memory.allocations.lookup buffer.handle = none) :
    Vacant (.advance id answer) memory := by
  intro call' buffer there
  rw [standing] at there
  cases there
  exact absent buffer rfl

end HipDeviceMemory

open HipDeviceMemory in
/-- **An `allocate` fails** although the driver has allocated: its address is still in the registry. -/
theorem hip_allocate_collides :
    Reaches step Allowed load collided ∧
    collided.calls 2 = some (.allocate 8, .allocated (.error ⟨.other,
      "HIP returned a device pointer already present in the allocation registry"⟩)) := by
  refine ⟨Reaches.ofList ⟨trivial, allowed_advance rfl ⟨1, rfl, by decide, by decide⟩,
    allowed_advance rfl trivial, Finset.mem_insert_self _ _, allowed_advance rfl trivial,
    allowed_advance rfl ⟨0, rfl⟩, trivial, allowed_advance rfl ⟨1, rfl, by decide, by decide⟩,
    allowed_advance rfl trivial, allowed_advance rfl ⟨0, rfl⟩, trivial⟩, rfl⟩

open HipDeviceMemory in
/-- **The same calls**, where the address is out of the registry in time. -/
theorem hip_registry_reused :
    (reused.Idle → ∀ handle len, reused.allocations.lookup handle = some len ↔
      ⟨handle, len⟩ ∈ reused.driver.liveBuffers) ∧
    ∃ buffer, (.ok ⟨1, 8⟩ : Except IoError DeviceBuffer) = .ok buffer := by
  have vacant : Reaches step (fun label memory => Allowed label memory ∧ Vacant label memory) load
      reused := by
    refine Reaches.ofList ⟨⟨trivial, trivial⟩,
      ⟨allowed_advance rfl ⟨1, rfl, by decide, by decide⟩, vacant_advance rfl ?_⟩,
      ⟨allowed_advance rfl trivial, vacant_advance rfl fun buffer same => by cases same; rfl⟩,
      ⟨Finset.mem_insert_self _ _, trivial⟩,
      ⟨allowed_advance rfl trivial, vacant_advance rfl ?_⟩,
      ⟨allowed_advance rfl ⟨0, rfl⟩, vacant_advance rfl ?_⟩,
      ⟨allowed_advance rfl trivial, vacant_advance rfl ?_⟩,
      ⟨trivial, trivial⟩,
      ⟨allowed_advance rfl ⟨1, rfl, by decide, by decide⟩, vacant_advance rfl ?_⟩,
      ⟨allowed_advance rfl trivial, vacant_advance rfl fun buffer same => by cases same; rfl⟩,
      ⟨allowed_advance rfl trivial, vacant_advance rfl ?_⟩, trivial⟩
    all_goals
      intro buffer same
      cases same
  have reached := unhindered_of_vacant vacant
  obtain ⟨_, registry, _, allocates⟩ :=
    hip_registry (reached.mono fun label memory allowed => allowed.1)
  exact ⟨registry, allocates reached 2 8 _ rfl (by decide)⟩

end RivetCache
