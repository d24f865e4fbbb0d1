/-
**`hip_native.rs`: the allocation registry of a HIP device.**

`allocate` calls the driver and then writes the registry under its lock; `free` looks the buffer up under the
lock, calls the driver, and takes the buffer out of the registry under the lock. Each of these is one step of a
call, and calls take their steps in any order. `HipPhase` says where a call stands.

The driver hands out any address that is not allocated. Its calls are logged (`DeviceLog`); the status of a
call that fails is the error that `check` makes of it. A lock is never poisoned. `given` are the buffers that
callers were given and have not passed to `free`.
-/

import RivetCache.Device.Balance

set_option linter.unusedSectionVars false

namespace RivetCache

open Library

/-! ### Calls -/

/-- A call of the allocator. -/
inductive HipCall where
  | allocate (len : UInt64)
  | free (buffer : DeviceBuffer)
  deriving DecidableEq

/-- **Where a call stands**: before the step named, or at its end. -/
inductive HipPhase where
  | malloc (len : UInt64)
  | register (buffer : DeviceBuffer)
  | reject (buffer : DeviceBuffer)
  | allocated (result : Except IoError DeviceBuffer)
  | validate (buffer : DeviceBuffer)
  | release (buffer : DeviceBuffer)
  | unregister (buffer : DeviceBuffer)
  | freed (result : Except IoError Unit)

/-- An allocator: the registry, the calls of the driver, and the calls that were begun. -/
structure HipDeviceMemory where
  allocations : Table UInt64 UInt64
  driver : DeviceLog
  calls : Nat → Option (HipCall × HipPhase)
  given : Finset DeviceBuffer

/-- A step: a call begins, or goes on. The driver answers with an address, or with an error. -/
inductive HipLabel where
  | begin (id : Nat) (call : HipCall)
  | advance (id : Nat) (answer : Except IoError UInt64)

/-- A call at its beginning. -/
def HipCall.start : HipCall → HipPhase
  | .allocate len =>
      if len = 0 then
        .allocated (.error ⟨.invalidInput, "HIP allocation length must be greater than zero"⟩)
      else .malloc len
  | .free buffer => .validate buffer

namespace HipDeviceMemory

/-- `HipDeviceMemory::load`. -/
def load : HipDeviceMemory := ⟨∅, [], fun _ => none, ∅⟩

/-- `validate_buffer`. -/
def validateBuffer (allocations : Table UInt64 UInt64) (buffer : DeviceBuffer) :
    Except IoError Unit :=
  match allocations.lookup buffer.handle with
  | some len =>
      if len = buffer.len then .ok ()
      else .error ⟨.invalidData, "HIP device buffer length does not match allocation registry"⟩
  | none => .error ⟨.notFound, "HIP device buffer is not owned by this allocator"⟩

/-- A call that stands at a phase. -/
def stand (memory : HipDeviceMemory) (id : Nat) (call : HipCall) (phase : HipPhase) :
    HipDeviceMemory :=
  { memory with calls := Function.update memory.calls id (some (call, phase)) }

/-- **The next step of a call.** -/
def advance (memory : HipDeviceMemory) (id : Nat) (call : HipCall)
    (answer : Except IoError UInt64) : HipPhase → HipDeviceMemory
  | .malloc len =>
      match answer with
      | .error error => memory.stand id call (.allocated (.error error))
      | .ok pointer =>
          if pointer = 0 then
            memory.stand id call (.allocated
              (.error ⟨.other, "hipMalloc succeeded but returned a null device pointer"⟩))
          else
            { memory.stand id call (.register ⟨pointer, len⟩) with
              driver := .allocated ⟨pointer, len⟩ :: memory.driver }
  | .register buffer =>
      let replaced := memory.allocations.lookup buffer.handle
      let memory :=
        { memory with allocations := memory.allocations.insert buffer.handle buffer.len }
      if replaced.isSome then memory.stand id call (.reject buffer)
      else
        { memory.stand id call (.allocated (.ok buffer)) with given := insert buffer memory.given }
  | .reject buffer =>
      -- `let _ = free(pointer)`
      { memory.stand id call (.allocated (.error ⟨.other,
          "HIP returned a device pointer already present in the allocation registry"⟩)) with
        driver := if answer.isOk then .released buffer.handle :: memory.driver else memory.driver }
  | .validate buffer =>
      match validateBuffer memory.allocations buffer with
      | .error error => memory.stand id call (.freed (.error error))
      | .ok () => memory.stand id call (.release buffer)
  | .release buffer =>
      match answer with
      | .error error => memory.stand id call (.freed (.error error))
      | .ok _ =>
          { memory.stand id call (.unregister buffer) with
            driver := .released buffer.handle :: memory.driver }
  | .unregister buffer =>
      { memory.stand id call (.freed (.ok ())) with
        allocations := memory.allocations.erase buffer.handle }
  | .allocated result => memory.stand id call (.allocated result)
  | .freed result => memory.stand id call (.freed result)

/-- The buffers that a call leaves with the callers when it begins: `free` is given one. -/
def passed (memory : HipDeviceMemory) : HipCall → Finset DeviceBuffer
  | .allocate _ => memory.given
  | .free buffer => memory.given.erase buffer

/-- **One step of one call.** A call is begun once. -/
def step : HipLabel → HipDeviceMemory → HipDeviceMemory
  | .begin id call, memory =>
      match memory.calls id with
      | some _ => memory
      | none => { memory.stand id call call.start with given := memory.passed call }
  | .advance id answer, memory =>
      match memory.calls id with
      | none => memory
      | some (call, phase) => memory.advance id call answer phase

/-! ### What the driver and the callers do -/

/-- **The driver**: no call fails, and an address that it hands out is not allocated. -/
def DriverAnswers (memory : HipDeviceMemory) (answer : Except IoError UInt64) : HipPhase → Prop
  | .malloc _ => ∃ pointer, answer = .ok pointer ∧ pointer ≠ 0 ∧
      ∀ buffer ∈ memory.driver.liveBuffers, buffer.handle ≠ pointer
  | .reject _ => ∃ pointer, answer = .ok pointer
  | .release _ => ∃ pointer, answer = .ok pointer
  | _ => True

/-- **The callers**: a buffer that was given out is freed by one of them at most. -/
def CallersFree (memory : HipDeviceMemory) : HipCall → Prop
  | .allocate _ => True
  | .free buffer => buffer ∈ memory.given

/-- **A run** of the driver and the callers. -/
def Allowed : HipLabel → HipDeviceMemory → Prop
  | .begin _ call, memory => memory.CallersFree call
  | .advance id answer, memory => ∀ call phase, memory.calls id = some (call, phase) →
      memory.DriverAnswers answer phase

/-- A call of `free` has released the address and has not yet taken it out of the registry. -/
def Releasing (memory : HipDeviceMemory) (handle : UInt64) : Prop :=
  ∃ id call buffer, memory.calls id = some (call, .unregister buffer) ∧ buffer.handle = handle

/-- **No address is registered** while a call is still releasing it. -/
def Unhindered : HipLabel → HipDeviceMemory → Prop
  | .begin _ _, _ => True
  | .advance id _, memory => ∀ call buffer, memory.calls id = some (call, .register buffer) →
      ¬ memory.Releasing buffer.handle

/-- The call has returned. -/
def hasReturned : HipPhase → Bool
  | .allocated _ => true
  | .freed _ => true
  | _ => false

/-- No call is in progress. -/
def Idle (memory : HipDeviceMemory) : Prop :=
  ∀ id call phase, memory.calls id = some (call, phase) → hasReturned phase = true

end HipDeviceMemory

end RivetCache
