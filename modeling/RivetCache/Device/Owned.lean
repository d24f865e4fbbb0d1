/-
**Who holds which buffer.**

A buffer of the tier is held by one entry or by one call: by a `put` that fills it, by a call that is
going to free it, by a `clear` that has drained it. No two of them hold buffers of one handle, and a
buffer that is held is live (`Sound`); the entries carry what was put.

* `DeviceMemory.Documented`: what a device does, where it keeps to its contract;
* `next_held`: what a step leaves in the device.
-/

import RivetCache.Device.Model
import RivetCache.Library.Ownership

set_option linter.unusedSectionVars false

namespace RivetCache

open Library

variable {δ : Type}

/-! ### What a device does -/

/-- A buffer that is allocated, with the length it says. -/
def LiveBuffer (held : δ → UInt64 → Option Payload) (device : δ) (buffer : DeviceBuffer) : Prop :=
  ∃ bytes, held device buffer.handle = some bytes ∧ bytes.bytes.length = buffer.len.toNat

/-- **The contract of a device.** `held` reads what the live buffers hold. No call fails on a live
buffer. -/
structure DeviceMemory.Documented (memory : DeviceMemory δ)
    (held : δ → UInt64 → Option Payload) : Prop where
  allocates : ∀ len device buffer, (memory.allocate len device).1 = .ok buffer →
    buffer.len = len ∧ ∃ bytes : Payload, bytes.bytes.length = len.toNat ∧
      held (memory.allocate len device).2 =
        Function.update (held device) buffer.handle (some bytes)
  refuses : ∀ len device fault, (memory.allocate len device).1 = .error fault →
    held (memory.allocate len device).2 = held device
  uploads : ∀ buffer bytes device, LiveBuffer held device buffer →
    bytes.bytes.length = buffer.len.toNat →
      (memory.upload buffer bytes device).1 = .ok () ∧
        held (memory.upload buffer bytes device).2 =
          Function.update (held device) buffer.handle (some bytes)
  downloads : ∀ buffer device bytes, held device buffer.handle = some bytes →
    bytes.bytes.length = buffer.len.toNat → (memory.download buffer device).1 = .ok bytes
  reads : ∀ buffer device, held (memory.download buffer device).2 = held device
  frees : ∀ buffer device, LiveBuffer held device buffer →
    (memory.free buffer device).1 = .ok () ∧
      held (memory.free buffer device).2 = Function.update (held device) buffer.handle none

/-- What the buffers of a host device hold. -/
def HostBuffers.held (device : HostBuffers) (handle : UInt64) : Option Payload :=
  device.buffers.lookup handle

/-- **A host device** keeps the contract. -/
theorem hostDeviceMemory_documented (name : String) :
    (hostDeviceMemory name).Documented HostBuffers.held where
  allocates len device buffer allocated := by
    change (HostDeviceMemory.allocate len device).1 = .ok buffer at allocated
    show buffer.len = len ∧ ∃ bytes : Payload, bytes.bytes.length = len.toNat ∧
      (HostDeviceMemory.allocate len device).2.held = _
    unfold HostDeviceMemory.allocate at allocated ⊢
    split at allocated
    · cases allocated
    · split at allocated
      · cases allocated
      · rename_i some_bytes small
        cases allocated
        rw [if_neg some_bytes, if_neg small]
        refine ⟨rfl, HostDeviceMemory.zeros len, List.length_replicate, funext fun handle => ?_⟩
        rw [Function.update_apply]
        exact lookup_insert_eq _ _ _ _
  refuses len device fault refused := by
    change (HostDeviceMemory.allocate len device).1 = .error fault at refused
    show (HostDeviceMemory.allocate len device).2.held = _
    unfold HostDeviceMemory.allocate at refused ⊢
    split at refused
    case isTrue empty => rw [if_pos empty]
    case isFalse some_bytes =>
      split at refused
      case isTrue large =>
        rw [if_neg some_bytes, if_pos large]
        rfl
      case isFalse => cases refused
  uploads buffer bytes device live same := by
    obtain ⟨slot, there, size⟩ := live
    have uploaded : HostDeviceMemory.upload buffer bytes device =
        (.ok (), { device with buffers := device.buffers.insert buffer.handle bytes }) := by
      unfold HostDeviceMemory.upload
      rw [if_neg (not_not.mpr same), show device.buffers.lookup buffer.handle = some slot from there]
      exact if_neg (not_not.mpr (size.trans same.symm))
    show (HostDeviceMemory.upload buffer bytes device).1 = _ ∧
      (HostDeviceMemory.upload buffer bytes device).2.held = _
    rw [uploaded]
    refine ⟨rfl, funext fun handle => ?_⟩
    rw [Function.update_apply]
    exact lookup_insert_eq _ _ _ _
  downloads buffer device bytes there size := by
    show (HostDeviceMemory.download buffer device).1 = _
    unfold HostDeviceMemory.download
    rw [show device.buffers.lookup buffer.handle = some bytes from there]
    dsimp only
    rw [if_neg (not_not.mpr size)]
  reads buffer device := by
    show (HostDeviceMemory.download buffer device).2.held = _
    unfold HostDeviceMemory.download
    split
    · rfl
    · split <;> rfl
  frees buffer device _ := by
    refine ⟨rfl, funext fun handle => ?_⟩
    rw [Function.update_apply]
    exact lookup_erase_eq _ _ _

/-! ### Owners -/

/-- An owner of a buffer: an entry, or a call. A `clear` holds what it drained, each under its name;
the other calls hold one buffer, under the empty name. -/
inductive DeviceOwner where
  | tier (name : List UInt8)
  | call (id : Nat) (slot : List UInt8)

/-- One value for each name of the tier, and one for each slot of a call. -/
def DeviceOwner.elim {α : Type} (tier : List UInt8 → α) (call : Nat → List UInt8 → α) :
    DeviceOwner → α
  | .tier name => tier name
  | .call id slot => call id slot

/-- The buffers a call holds. -/
def DevicePhase.holding : DevicePhase → List UInt8 → Option DeviceBuffer
  | .putUpload _ buffer, [] => some buffer
  | .putInsert _ buffer, [] => some buffer
  | .putFailed buffer _, [] => some buffer
  | .freeing old, [] => some old
  | .clearing drained _, slot => (drained.lookup slot).map DeviceEntry.buffer
  | _, _ => none

/-- The buffer that the next step of a call frees. -/
def DevicePhase.frees (pick : List UInt8) : DevicePhase → Option DeviceBuffer
  | .putFailed buffer _ => some buffer
  | .freeing old => some old
  | .clearing drained _ => (drained.lookup pick).map DeviceEntry.buffer
  | _ => none

@[simp] theorem holding_clearing (drained : DeviceEntries) (firstError : Option IoError)
    (slot : List UInt8) :
    (DevicePhase.clearing drained firstError).holding slot =
      (drained.lookup slot).map DeviceEntry.buffer := by
  cases slot <;> rfl

namespace DeviceKvTier

/-- The buffer an owner holds. -/
def owned (state : DeviceKvTier δ) : DeviceOwner → Option DeviceBuffer
  | .tier name => (state.entries.lookup name).map DeviceEntry.buffer
  | .call id slot => (state.calls id).bind fun call => call.2.holding slot

/-- An entry that a `put` was called with. -/
def Put (state : DeviceKvTier δ) (written : KvTierEntry) : Prop :=
  ∃ id phase, state.calls id = some (.put written, phase)

end DeviceKvTier

/-- **An entry carries** what was put: the bytes in its buffer, the expiry, the pin flag. -/
structure EntryCarries (held : δ → UInt64 → Option Payload) (device : δ) (entry : DeviceEntry)
    (written : KvTierEntry) : Prop where
  bytes : held device entry.buffer.handle = some written.block.bytes
  size : written.block.bytes.bytes.length = entry.buffer.len.toNat
  expiresAt : entry.expiresAt = written.expiresAt
  pinned : entry.pinned = written.pinned

/-- What a `put` knows of its buffer. -/
def PhaseFits (held : δ → UInt64 → Option Payload) (device : δ) (call : DeviceCall) :
    DevicePhase → Prop
  | .putAllocate entry => call = .put entry
  | .putUpload entry buffer =>
      call = .put entry ∧ entry.block.bytes.bytes.length = buffer.len.toNat
  | .putInsert entry buffer =>
      call = .put entry ∧ EntryCarries held device ⟨buffer, entry.expiresAt, entry.pinned⟩ entry
  | _ => True

/-- **The invariant.** -/
structure Sound (held : δ → UInt64 → Option Payload) (digest : Digest)
    (state : DeviceKvTier δ) : Prop where
  sole : Sole DeviceBuffer.handle state.owned
  live : ∀ owner buffer, state.owned owner = some buffer → LiveBuffer held state.device buffer
  stored : ∀ name entry, state.entries.lookup name = some entry → ∃ written,
    state.Put written ∧ written.block.key.cacheKey digest = name ∧
      EntryCarries held state.device entry written
  fits : ∀ id call phase, state.calls id = some (call, phase) →
    PhaseFits held state.device call phase

/-- A device hands out a handle that is not in use. -/
def FreshHandle (memory : DeviceMemory δ) (held : δ → UInt64 → Option Payload) (device : δ)
    (phase : DevicePhase) : Prop :=
  ∀ entry buffer, phase = .putAllocate entry →
    (memory.allocate (UInt64.ofNat entry.block.bytes.bytes.length) device).1 = .ok buffer →
      held device buffer.handle = none

/-! ### What a step leaves in the device -/

section

variable {memory : DeviceMemory δ} {held : δ → UInt64 → Option Payload} {digest : Digest}
  {state : DeviceKvTier δ} {id : Nat} {call : DeviceCall} {phase : DevicePhase}

theorem owned_call (standing : state.calls id = some (call, phase)) (slot : List UInt8) :
    state.owned (.call id slot) = phase.holding slot := by
  show (state.calls id).bind (fun call => call.2.holding slot) = _
  rw [standing]
  rfl

/-- What is freed is held. -/
theorem holding_of_frees {pick : List UInt8} {buffer : DeviceBuffer}
    (freed : phase.frees pick = some buffer) : ∃ slot, phase.holding slot = some buffer := by
  cases phase with
  | putFailed failed error => exact ⟨[], freed⟩
  | freeing old => exact ⟨[], freed⟩
  | clearing drained firstError => exact ⟨pick, (holding_clearing _ _ _).trans freed⟩
  | _ => cases freed

variable (documented : memory.Documented held) (sound : Sound held digest state)
  (standing : state.calls id = some (call, phase)) (pick : List UInt8)

include documented sound standing

/-- A buffer the call frees is live. -/
theorem live_of_frees {buffer : DeviceBuffer} (freed : phase.frees pick = some buffer) :
    LiveBuffer held state.device buffer := by
  obtain ⟨slot, holds⟩ := holding_of_frees freed
  exact sound.live (.call id slot) buffer ((owned_call standing slot).trans holds)

/-- **A step leaves a live buffer alone**, unless it fills it or frees it. -/
theorem next_held (fresh : FreshHandle memory held state.device phase) {handle : UInt64}
    (there : held state.device handle ≠ none)
    (unfilled : ∀ entry buffer, phase = .putUpload entry buffer → buffer.handle ≠ handle)
    (unfreed : ∀ buffer, phase.frees pick = some buffer → buffer.handle ≠ handle) :
    held (phase.next memory digest pick state.entries state.device).device handle =
      held state.device handle := by
  have freed : ∀ buffer, phase.frees pick = some buffer →
      held (memory.free buffer state.device).2 handle = held state.device handle := by
    intro buffer freeing
    rw [(documented.frees buffer state.device
      (live_of_frees documented sound standing pick freeing)).2]
    exact Function.update_of_ne (unfreed buffer freeing).symm _ _
  cases phase with
  | getDownload key entry => exact congrFun (documented.reads _ _) handle
  | putAllocate entry =>
      show held (memory.allocate _ state.device).2 handle = _
      cases answered : (memory.allocate (UInt64.ofNat entry.block.bytes.bytes.length)
          state.device).1 with
      | error fault => exact congrFun (documented.refuses _ _ _ answered) handle
      | ok buffer =>
          obtain ⟨_, bytes, _, filled⟩ := documented.allocates _ _ _ answered
          rw [filled]
          refine Function.update_of_ne ?_ _ _
          rintro rfl
          exact there (fresh entry buffer rfl answered)
  | putUpload entry buffer =>
      obtain ⟨_, size⟩ := sound.fits id call _ standing
      have live := sound.live (.call id []) buffer (owned_call standing [])
      show held (memory.upload _ _ state.device).2 handle = _
      rw [(documented.uploads buffer entry.block.bytes state.device live size).2]
      exact Function.update_of_ne (unfilled entry buffer rfl).symm _ _
  | putFailed buffer error => exact freed buffer rfl
  | freeing old => exact freed old rfl
  | clearing drained firstError =>
      unfold DevicePhase.next
      dsimp only
      split
      case h_1 entry found => exact freed entry.buffer (by simp [DevicePhase.frees, found])
      case h_2 => split <;> rfl
  | _ => rfl

end

end RivetCache
