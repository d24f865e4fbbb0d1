/-
**`device.rs`: a tier in the memory of a device.**

An entry of the tier is a buffer of the device with an expiry and a pin flag. The tier keeps its entries
under a lock; the calls to the device are made outside of it. A call stands before its next section
under the lock or its next call to the device (`DevicePhase`), and `DeviceKvTier.step` lets one call
take one such step.

`clear` frees the buffers it has drained in the order of a hash map, which is any order: the label of a
step names the one that is freed next. A lock is never poisoned.
-/

import RivetCache.Kv.Key
import RivetCache.Library.Table

set_option linter.unusedSectionVars false

namespace RivetCache

open Library

/-! ### Devices -/

/-- `DeviceBuffer`. -/
structure DeviceBuffer where
  handle : UInt64
  len : UInt64
  deriving DecidableEq

/-- `DeviceMemory`, over the state of an implementation. -/
structure DeviceMemory (δ : Type) where
  name : String
  allocate : UInt64 → δ → Except Fault DeviceBuffer × δ
  upload : DeviceBuffer → Payload → δ → Except Fault Unit × δ
  download : DeviceBuffer → δ → Except Fault Payload × δ
  free : DeviceBuffer → δ → Except Fault Unit × δ
  health : δ → Except Fault Unit × δ

/-- The state of a `HostDeviceMemory`. -/
structure HostBuffers where
  next : UInt64
  buffers : Table UInt64 Payload

namespace HostDeviceMemory

/-- `HostDeviceMemory::new`, the buffers. -/
def empty : HostBuffers := ⟨1, ∅⟩

/-- `vec![0; len]`. -/
def zeros (len : UInt64) : Payload where
  bytes := List.replicate len.toNat 0
  short := by
    rw [List.length_replicate]
    exact len.toNat_lt

/-- `allocate`. -/
def allocate (len : UInt64) (state : HostBuffers) : Except Fault DeviceBuffer × HostBuffers :=
  if len = 0 then
    (.error (.error ⟨.invalidInput, "device allocation length must be greater than zero"⟩), state)
  else if len.toNat > isizeMax then (.error .panic, { state with next := state.next + 1 })
  else
    (.ok ⟨state.next, len⟩, ⟨state.next + 1, state.buffers.insert state.next (zeros len)⟩)

/-- `upload`: a buffer of another length is a panic of `copy_from_slice`. -/
def upload (buffer : DeviceBuffer) (bytes : Payload) (state : HostBuffers) :
    Except Fault Unit × HostBuffers :=
  if bytes.bytes.length ≠ buffer.len.toNat then
    (.error (.error ⟨.invalidInput, "device upload length does not match allocation"⟩), state)
  else
    match state.buffers.lookup buffer.handle with
    | none => (.error (.error ⟨.notFound, "device buffer not found"⟩), state)
    | some slot =>
        if slot.bytes.length ≠ bytes.bytes.length then (.error .panic, state)
        else (.ok (), { state with buffers := state.buffers.insert buffer.handle bytes })

/-- `download`. -/
def download (buffer : DeviceBuffer) (state : HostBuffers) : Except Fault Payload × HostBuffers :=
  match state.buffers.lookup buffer.handle with
  | none => (.error (.error ⟨.notFound, "device buffer not found"⟩), state)
  | some bytes =>
      if bytes.bytes.length ≠ buffer.len.toNat then
        (.error (.error ⟨.invalidData, "device allocation metadata length mismatch"⟩), state)
      else (.ok bytes, state)

/-- `free`. -/
def free (buffer : DeviceBuffer) (state : HostBuffers) : Except Fault Unit × HostBuffers :=
  (.ok (), { state with buffers := state.buffers.erase buffer.handle })

end HostDeviceMemory

/-- `HostDeviceMemory`. -/
def hostDeviceMemory (name : String) : DeviceMemory HostBuffers where
  name := name
  allocate := HostDeviceMemory.allocate
  upload := HostDeviceMemory.upload
  download := HostDeviceMemory.download
  free := HostDeviceMemory.free
  health state := (.ok (), state)

/-! ### Calls -/

/-- `DeviceEntry`. -/
structure DeviceEntry where
  buffer : DeviceBuffer
  expiresAt : UInt64
  pinned : Bool
  deriving DecidableEq

/-- The entries of a tier. -/
abbrev DeviceEntries := Table (List UInt8) DeviceEntry

/-- A call of a tier. -/
inductive DeviceCall where
  | get (key : KvBlockKey)
  | put (entry : KvTierEntry)
  | remove (key : KvBlockKey)
  | clear

/-- **Where a call stands**: before the step named, or at its end. -/
inductive DevicePhase where
  | getLookup (key : KvBlockKey)
  | getDownload (key : KvBlockKey) (entry : DeviceEntry)
  | got (result : Except Fault (Option KvTierEntry))
  | putAllocate (entry : KvTierEntry)
  | putUpload (entry : KvTierEntry) (buffer : DeviceBuffer)
  | putInsert (entry : KvTierEntry) (buffer : DeviceBuffer)
  | putFailed (buffer : DeviceBuffer) (error : IoError)
  | removeTake (key : KvBlockKey)
  | freeing (old : DeviceBuffer)
  | clearDrain
  | clearing (drained : DeviceEntries) (firstError : Option IoError)
  | ended (result : Except Fault Unit)

/-- A call at its beginning. -/
def DeviceCall.start : DeviceCall → DevicePhase
  | .get key => .getLookup key
  | .put entry => .putAllocate entry
  | .remove key => .removeTake key
  | .clear => .clearDrain

/-- A tier, its device, and the calls that were begun. -/
structure DeviceKvTier (δ : Type) where
  entries : DeviceEntries
  device : δ
  calls : Nat → Option (DeviceCall × DevicePhase)

/-- What a step of a call leaves: where the call stands, the entries, the device. -/
structure DeviceMove (δ : Type) where
  phase : DevicePhase
  entries : DeviceEntries
  device : δ

/-- A step: a call begins, or goes on. -/
inductive DeviceLabel where
  | begin (id : Nat) (call : DeviceCall)
  | advance (id : Nat) (pick : List UInt8)

section

variable {δ : Type} (memory : DeviceMemory δ) (digest : Digest)

namespace DevicePhase

/-- `get`, the lookup under the lock. -/
def lookUp (key : KvBlockKey) (entries : DeviceEntries) : DevicePhase :=
  match entries.lookup (key.cacheKey digest) with
  | none => .got (.ok none)
  | some entry => .getDownload key entry

/-- `get`, the download. -/
def downloaded (key : KvBlockKey) (entry : DeviceEntry) : Except Fault Payload → DevicePhase
  | .error fault => .got (.error fault)
  | .ok bytes => .got (.ok (some ⟨⟨key, bytes⟩, entry.expiresAt, entry.pinned⟩))

/-- `put`, the allocation. -/
def allocated (entry : KvTierEntry) : Except Fault DeviceBuffer → DevicePhase
  | .error fault => .ended (.error fault)
  | .ok buffer => .putUpload entry buffer

/-- `put`, the upload. -/
def uploaded (entry : KvTierEntry) (buffer : DeviceBuffer) : Except Fault Unit → DevicePhase
  | .error (.error error) => .putFailed buffer error
  | .error .panic => .ended (.error .panic)
  | .ok () => .putInsert entry buffer

/-- `put`, the release of a buffer that was not filled; an error of it is ignored. -/
def released (error : IoError) : Except Fault Unit → DevicePhase
  | .error .panic => .ended (.error .panic)
  | _ => .ended (.error (.error error))

/-- `put` and `remove`, after the lock: the entry that was there is freed. -/
def afterReplaced : Option DeviceEntry → DevicePhase
  | none => .ended (.ok ())
  | some old => .freeing old.buffer

/-- `clear`, one buffer freed. -/
def cleared (drained : DeviceEntries) (firstError : Option IoError) :
    Except Fault Unit → DevicePhase
  | .error .panic => .ended (.error .panic)
  | .error (.error error) => .clearing drained (firstError <|> some error)
  | .ok () => .clearing drained firstError

/-- `clear`, the result. -/
def clearResult : Option IoError → Except Fault Unit
  | some error => .error (.error error)
  | none => .ok ()

/-- **The next step of a call.** -/
def next (pick : List UInt8) (entries : DeviceEntries) (device : δ) : DevicePhase → DeviceMove δ
  | .getLookup key => ⟨lookUp digest key entries, entries, device⟩
  | .getDownload key entry =>
      let (answer, device) := memory.download entry.buffer device
      ⟨downloaded key entry answer, entries, device⟩
  | .got result => ⟨.got result, entries, device⟩
  | .putAllocate entry =>
      let (answer, device) := memory.allocate (UInt64.ofNat entry.block.bytes.bytes.length) device
      ⟨allocated entry answer, entries, device⟩
  | .putUpload entry buffer =>
      let (answer, device) := memory.upload buffer entry.block.bytes device
      ⟨uploaded entry buffer answer, entries, device⟩
  | .putInsert entry buffer =>
      let key := entry.block.key.cacheKey digest
      ⟨afterReplaced (entries.lookup key),
        entries.insert key ⟨buffer, entry.expiresAt, entry.pinned⟩, device⟩
  | .putFailed buffer error =>
      let (answer, device) := memory.free buffer device
      ⟨released error answer, entries, device⟩
  | .removeTake key =>
      ⟨afterReplaced (entries.lookup (key.cacheKey digest)), entries.erase (key.cacheKey digest),
        device⟩
  | .freeing old =>
      let (answer, device) := memory.free old device
      ⟨.ended answer, entries, device⟩
  | .clearDrain => ⟨.clearing entries none, ∅, device⟩
  | .clearing drained firstError =>
      match drained.lookup pick with
      | some entry =>
          let (answer, device) := memory.free entry.buffer device
          ⟨cleared (drained.erase pick) firstError answer, entries, device⟩
      | none =>
          if drained.entries.isEmpty then ⟨.ended (clearResult firstError), entries, device⟩
          else ⟨.clearing drained firstError, entries, device⟩
  | .ended result => ⟨.ended result, entries, device⟩

end DevicePhase

namespace DeviceKvTier

/-- `DeviceKvTier::new`, on a device in some state. -/
def new (device : δ) : DeviceKvTier δ := ⟨∅, device, fun _ => none⟩

/-- A call takes its next step. -/
def move (state : DeviceKvTier δ) (id : Nat) (call : DeviceCall) (moved : DeviceMove δ) :
    DeviceKvTier δ :=
  ⟨moved.entries, moved.device, Function.update state.calls id (some (call, moved.phase))⟩

/-- **One step of one call.** A call is begun once. -/
def step : DeviceLabel → DeviceKvTier δ → DeviceKvTier δ
  | .begin id call, state =>
      match state.calls id with
      | some _ => state
      | none => { state with calls := Function.update state.calls id (some (call, call.start)) }
  | .advance id pick, state =>
      match state.calls id with
      | none => state
      | some (call, phase) =>
          state.move id call (phase.next memory digest pick state.entries state.device)

end DeviceKvTier

end

end RivetCache
