/-
**`hip_native.rs`: the bytes of a HIP device.**

The allocator and the direct transfers work on the addresses of one flat memory, through the driver. The driver is
what it is documented to be: `hipMalloc` gives a region that no live allocation overlaps, `hipMemcpy` between
regions that do not overlap copies, and a copy that fails, or overlaps, leaves anything in its destination. What
the driver replies, and what it leaves there, comes with each call (`HipReplies`).

Every access is compared with the live allocations: one that is not within one of them is noted in `strayed`.
-/

import RivetCache.Device.Hip
import RivetCache.Library.FlatMemory

set_option linter.unusedSectionVars false

namespace RivetCache

open Library

/-! ### The driver -/

/-- What the driver touches. -/
structure DriverAccess where
  address : Nat
  size : Nat

/-- The device: its memory, what `hipMalloc` gave and `hipFree` did not take back, and the accesses elsewhere. -/
structure HipDevice where
  memory : FlatMemory
  live : Table UInt64 UInt64
  strayed : List DriverAccess

/-- The replies of the driver to the calls of a request, and what it leaves where it does not say. -/
structure HipReplies where
  malloc : Except IoError UInt64
  copy : Except IoError Unit
  synchronize : Except IoError Unit
  free : Except IoError Unit
  junk : FlatMemory

namespace HipDevice

/-- Some addresses are within a live allocation. -/
def covers (device : HipDevice) (address size : Nat) : Bool :=
  device.live.entries.any fun entry =>
    decide (entry.1.toNat ≤ address) && decide (address + size ≤ entry.1.toNat + entry.2.toNat)

/-- An access, compared with the live allocations. -/
def access (device : HipDevice) (address size : Nat) : HipDevice :=
  if device.covers address size then device
  else { device with strayed := ⟨address, size⟩ :: device.strayed }

/-- `hipMemcpy` to the device. -/
def copyIn (replies : HipReplies) (device : HipDevice) (destination : Nat) (bytes : List UInt8) : HipDevice :=
  let written := if replies.copy.isOk then bytes else replies.junk.read destination bytes.length
  { device.access destination bytes.length with memory := device.memory.write destination written }

/-- Regions that do not overlap. -/
def apart (left right size : Nat) : Bool := decide (left + size ≤ right) || decide (right + size ≤ left)

/-- `hipMemcpy` on the device. -/
def copyWithin (replies : HipReplies) (device : HipDevice) (destination source size : Nat) : HipDevice :=
  let written := if replies.copy.isOk && apart destination source size then device.memory.read source size
    else replies.junk.read destination size
  { (device.access source size).access destination size with
    memory := device.memory.write destination written }

/-- `hipMalloc` gave a region: its bytes are anything. -/
def malloc (replies : HipReplies) (device : HipDevice) (pointer len : UInt64) : HipDevice :=
  { device with
    memory := device.memory.write pointer.toNat (replies.junk.read pointer.toNat len.toNat)
    live := device.live.insert pointer len }

/-- `hipFree`, where it takes the region back. -/
def release (device : HipDevice) (pointer : UInt64) : HipDevice :=
  { device.access pointer.toNat 0 with live := device.live.erase pointer }

end HipDevice

/-! ### Calls -/

/-- `DirectTransferRequest`. -/
structure DirectTransferRequest where
  sourceHandle : UInt64
  destinationHandle : UInt64
  bytes : UInt64
  sourceOffset : UInt64
  destinationOffset : UInt64

/-- A call of the allocator, of the direct transfers, or of the transfer provider over them. -/
inductive HipRequest where
  | allocate (len : UInt64)
  | upload (buffer : DeviceBuffer) (bytes : Payload)
  | download (buffer : DeviceBuffer)
  | free (buffer : DeviceBuffer)
  | copyDeviceRange (source : DeviceBuffer) (sourceOffset : UInt64) (destination : DeviceBuffer)
      (destinationOffset : UInt64) (bytes : UInt64)
  | copyDevice (source destination : DeviceBuffer) (bytes : UInt64)
  | transfer (request : DirectTransferRequest)

/-- What a call answers. -/
inductive HipAnswer where
  | allocated (result : Except IoError DeviceBuffer)
  | done (result : Except IoError Unit)
  | downloaded (result : Except Fault (List UInt8))

/-- `HipDeviceMemory` and `HipDirectIo`, which share the registry, over their device. -/
structure HipHost where
  allocations : Table UInt64 UInt64
  device : HipDevice

/-- `usize::checked_add`. -/
def checkedAdd (error : IoError) (left right : UInt64) : Except IoError UInt64 :=
  if left.toNat + right.toNat < 2 ^ 64 then .ok (left + right) else .error error

/-- `handle_to_pointer`. -/
def handleToPointer (handle : UInt64) : Except IoError UInt64 :=
  if handle = 0 then .error ⟨.invalidInput, "HIP device handle must not be zero"⟩ else .ok handle

/-- `pointer_with_offset`. -/
def pointerWithOffset (handle offset : UInt64) : Except IoError UInt64 := do
  let pointer ← handleToPointer handle
  checkedAdd ⟨.invalidInput, "HIP pointer offset overflow"⟩ pointer offset

namespace HipHost

/-- `HipDeviceMemory::load`, over a device whose memory holds anything. -/
def load (memory : FlatMemory) : HipHost := ⟨∅, ⟨memory, ∅, []⟩⟩

variable (replies : HipReplies)

/-- `allocate`. -/
def allocate (len : UInt64) (host : HipHost) : Except IoError DeviceBuffer × HipHost :=
  if len = 0 then (.error ⟨.invalidInput, "HIP allocation length must be greater than zero"⟩, host)
  else
    match replies.malloc with
    | .error error => (.error error, host)
    | .ok pointer =>
        if pointer = 0 then
          (.error ⟨.other, "hipMalloc succeeded but returned a null device pointer"⟩, host)
        else
          let device := host.device.malloc replies pointer len
          let replaced := host.allocations.lookup pointer
          let allocations := host.allocations.insert pointer len
          if replaced.isSome then
            (.error ⟨.other, "HIP returned a device pointer already present in the allocation registry"⟩,
              ⟨allocations, if replies.free.isOk then device.release pointer else device⟩)
          else (.ok ⟨pointer, len⟩, ⟨allocations, device⟩)

/-- `upload`. -/
def upload (buffer : DeviceBuffer) (bytes : Payload) (host : HipHost) : Except IoError Unit × HipHost :=
  match HipDeviceMemory.validateBuffer host.allocations buffer with
  | .error error => (.error error, host)
  | .ok () =>
      if bytes.bytes.length ≠ buffer.len.toNat then
        (.error ⟨.invalidInput, "HIP upload length does not match allocation"⟩, host)
      else
        match handleToPointer buffer.handle with
        | .error error => (.error error, host)
        | .ok pointer =>
            (replies.copy.bind fun _ => replies.synchronize,
              { host with device := host.device.copyIn replies pointer.toNat bytes.bytes })

/-- `download`: a buffer that a vector cannot hold is a panic. -/
def download (buffer : DeviceBuffer) (host : HipHost) : Except Fault (List UInt8) × HipHost :=
  match HipDeviceMemory.validateBuffer host.allocations buffer with
  | .error error => (.error (.error error), host)
  | .ok () =>
      match handleToPointer buffer.handle with
      | .error error => (.error (.error error), host)
      | .ok pointer =>
          if buffer.len.toNat > isizeMax then (.error .panic, host)
          else
            let after := { host with device := host.device.access pointer.toNat buffer.len.toNat }
            match replies.copy.bind fun _ => replies.synchronize with
            | .error error => (.error (.error error), after)
            | .ok () => (.ok (host.device.memory.read pointer.toNat buffer.len.toNat), after)

/-- `free`. -/
def free (buffer : DeviceBuffer) (host : HipHost) : Except IoError Unit × HipHost :=
  match HipDeviceMemory.validateBuffer host.allocations buffer with
  | .error error => (.error error, host)
  | .ok () =>
      match handleToPointer buffer.handle with
      | .error error => (.error error, host)
      | .ok pointer =>
          match replies.free with
          | .error error => (.error error, host)
          | .ok () => (.ok (), ⟨host.allocations.erase buffer.handle, host.device.release pointer⟩)

/-- `validate_range`. -/
def validateRange (host : HipHost) (buffer : DeviceBuffer) (offset bytes : UInt64) : Except IoError Unit :=
  if bytes = 0 then .error ⟨.invalidInput, "HIP direct-I/O size must be greater than zero"⟩
  else
    match host.allocations.lookup buffer.handle with
    | none => .error ⟨.notFound, "HIP direct-I/O buffer is not owned by the paired allocator"⟩
    | some actual =>
        if buffer.len > actual then
          .error ⟨.invalidData, "HIP direct-I/O buffer metadata exceeds allocation registry length"⟩
        else
          match checkedAdd ⟨.invalidInput, "HIP direct-I/O range overflow"⟩ offset bytes with
          | .error error => .error error
          | .ok stop =>
              if stop > actual then
                .error ⟨.invalidInput, "HIP direct-I/O range exceeds device allocation"⟩
              else .ok ()

/-- `copy_device_range`, its tests: the two pointers. -/
def copyPointers (host : HipHost) (source : DeviceBuffer) (sourceOffset : UInt64) (destination : DeviceBuffer)
    (destinationOffset bytes : UInt64) : Except IoError (UInt64 × UInt64) := do
  host.validateRange source sourceOffset bytes
  host.validateRange destination destinationOffset bytes
  let source ← pointerWithOffset source.handle sourceOffset
  let destination ← pointerWithOffset destination.handle destinationOffset
  return (source, destination)

/-- `copy_device_range`. -/
def copyDeviceRange (source : DeviceBuffer) (sourceOffset : UInt64) (destination : DeviceBuffer)
    (destinationOffset bytes : UInt64) (host : HipHost) : Except IoError Unit × HipHost :=
  match host.copyPointers source sourceOffset destination destinationOffset bytes with
  | .error error => (.error error, host)
  | .ok pointers =>
      (replies.copy.bind fun _ => replies.synchronize,
        { host with
          device := host.device.copyWithin replies pointers.2.toNat pointers.1.toNat bytes.toNat })

/-- `GpuDirectTransferProvider::transfer`: the lengths of its buffers are those that the ranges need. -/
def transfer (request : DirectTransferRequest) (host : HipHost) : Except IoError Unit × HipHost :=
  if request.bytes = 0 then
    (.error ⟨.invalidInput, "GPU worker transfer size must be greater than zero"⟩, host)
  else
    match checkedAdd ⟨.invalidInput, "source range overflow"⟩ request.sourceOffset request.bytes with
    | .error error => (.error error, host)
    | .ok sourceLen =>
        match checkedAdd ⟨.invalidInput, "destination range overflow"⟩ request.destinationOffset
            request.bytes with
        | .error error => (.error error, host)
        | .ok destinationLen =>
            host.copyDeviceRange replies ⟨request.sourceHandle, sourceLen⟩ request.sourceOffset
              ⟨request.destinationHandle, destinationLen⟩ request.destinationOffset request.bytes

/-- **One call.** -/
def call : HipRequest → HipHost → HipAnswer × HipHost
  | .allocate len, host => let called := host.allocate replies len; (.allocated called.1, called.2)
  | .upload buffer bytes, host => let called := host.upload replies buffer bytes; (.done called.1, called.2)
  | .download buffer, host => let called := host.download replies buffer; (.downloaded called.1, called.2)
  | .free buffer, host => let called := host.free replies buffer; (.done called.1, called.2)
  | .copyDeviceRange source sourceOffset destination destinationOffset bytes, host =>
      let called := host.copyDeviceRange replies source sourceOffset destination destinationOffset bytes
      (.done called.1, called.2)
  | .copyDevice source destination bytes, host =>
      let called := host.copyDeviceRange replies source 0 destination 0 bytes
      (.done called.1, called.2)
  | .transfer request, host => let called := host.transfer replies request; (.done called.1, called.2)

/-- **The driver as it is documented**: a region that it gives is in the address space, and apart from the live
ones. -/
def DriverGives (replies : HipReplies) (len : UInt64) (device : HipDevice) : Prop :=
  ∀ pointer, replies.malloc = .ok pointer → pointer ≠ 0 →
    pointer.toNat + len.toNat ≤ 2 ^ 64 ∧
      ∀ other size, device.live.lookup other = some size →
        pointer.toNat + len.toNat ≤ other.toNat ∨ other.toNat + size.toNat ≤ pointer.toNat

/-- What a step may be: the driver keeps to its documentation where a region is asked for. -/
def Documented (label : HipRequest × HipReplies) (host : HipHost) : Prop :=
  ∀ len, label.1 = .allocate len → DriverGives label.2 len host.device

end HipHost

end RivetCache
