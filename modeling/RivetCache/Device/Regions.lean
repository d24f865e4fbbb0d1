/-
**What a device is for: buffers of bytes.**

The abstract device knows nothing of addresses: a handle has some bytes, or none (`Regions`). A call of the
allocator or of a direct transfer is answered as `Regions.Step` says, and what it leaves is told by the bytes of
the handles it names.

* `HipHost.Mirrors`: the registry is what the driver has given out, the live allocations lie apart in the address
  space, and the bytes of a handle are those at its address;
* `mirrors_call`: one call, on both sides;
* `hip_refines`: every run of calls, with any arguments and any failures of the driver, is one of the abstract
  device, no access of the driver is outside a live allocation, and a call fails only where the driver does or where
  it is not valid for the buffers there are.
-/

import RivetCache.Device.Flat

set_option linter.unusedSectionVars false

namespace RivetCache

open Library

/-! ### The abstract device -/

/-- The bytes of the handles. -/
abbrev Regions := UInt64 → Option (List UInt8)

/-- A copy: where from, where to, and how much. -/
structure RegionCopy where
  source : UInt64
  sourceOffset : UInt64
  destination : UInt64
  destinationOffset : UInt64
  bytes : UInt64

/-- The copy that a request is for. -/
def HipRequest.copy? : HipRequest → Option RegionCopy
  | .copyDeviceRange source sourceOffset destination destinationOffset bytes =>
      some ⟨source.handle, sourceOffset, destination.handle, destinationOffset, bytes⟩
  | .copyDevice source destination bytes => some ⟨source.handle, 0, destination.handle, 0, bytes⟩
  | .transfer request =>
      some ⟨request.sourceHandle, request.sourceOffset, request.destinationHandle, request.destinationOffset,
        request.bytes⟩
  | _ => none

/-- The copy is within the buffers. -/
structure RegionCopy.Within (copy : RegionCopy) (source destination : List UInt8) : Prop where
  some : copy.bytes ≠ 0
  source : copy.sourceOffset.toNat + copy.bytes.toNat ≤ source.length
  destination : copy.destinationOffset.toNat + copy.bytes.toNat ≤ destination.length

/-- The copy does not overlap itself. -/
def RegionCopy.Apart (copy : RegionCopy) : Prop :=
  copy.source ≠ copy.destination ∨ copy.destinationOffset.toNat + copy.bytes.toNat ≤ copy.sourceOffset.toNat ∨
    copy.sourceOffset.toNat + copy.bytes.toNat ≤ copy.destinationOffset.toNat

/-- The bytes that a copy takes. -/
def RegionCopy.piece (copy : RegionCopy) (source : List UInt8) : List UInt8 :=
  (source.drop copy.sourceOffset.toNat).take copy.bytes.toNat

/-- **One call of the abstract device.** -/
inductive Regions.Step (regions : Regions) : HipRequest → HipAnswer → Regions → Prop where
  | allocated (buffer : DeviceBuffer) {bytes : List UInt8} (unused : regions buffer.handle = none)
      (length : bytes.length = buffer.len.toNat) :
      Step regions (.allocate buffer.len) (.allocated (.ok buffer))
        (Function.update regions buffer.handle (some bytes))
  | notAllocated {len : UInt64} {error : IoError} :
      Step regions (.allocate len) (.allocated (.error error)) regions
  | uploaded {buffer : DeviceBuffer} {bytes : Payload} {old : List UInt8}
      (held : regions buffer.handle = some old) (length : old.length = buffer.len.toNat)
      (fits : bytes.bytes.length = buffer.len.toNat) :
      Step regions (.upload buffer bytes) (.done (.ok ()))
        (Function.update regions buffer.handle (some bytes.bytes))
  /-- The driver failed in between: the buffer holds anything. -/
  | uploadBroken {buffer : DeviceBuffer} {bytes : Payload} {old left : List UInt8} {error : IoError}
      (held : regions buffer.handle = some old) (length : left.length = old.length) :
      Step regions (.upload buffer bytes) (.done (.error error))
        (Function.update regions buffer.handle (some left))
  | notUploaded {buffer : DeviceBuffer} {bytes : Payload} {error : IoError} :
      Step regions (.upload buffer bytes) (.done (.error error)) regions
  | downloaded {buffer : DeviceBuffer} {bytes : List UInt8} (held : regions buffer.handle = some bytes)
      (length : bytes.length = buffer.len.toNat) :
      Step regions (.download buffer) (.downloaded (.ok bytes)) regions
  | notDownloaded {buffer : DeviceBuffer} {fault : Fault} :
      Step regions (.download buffer) (.downloaded (.error fault)) regions
  | freed {buffer : DeviceBuffer} {bytes : List UInt8} (held : regions buffer.handle = some bytes)
      (length : bytes.length = buffer.len.toNat) :
      Step regions (.free buffer) (.done (.ok ())) (Function.update regions buffer.handle none)
  | notFreed {buffer : DeviceBuffer} {error : IoError} :
      Step regions (.free buffer) (.done (.error error)) regions
  | copied {request : HipRequest} {copy : RegionCopy} {source destination piece : List UInt8}
      (asked : request.copy? = some copy) (from_ : regions copy.source = some source)
      (into : regions copy.destination = some destination) (within : copy.Within source destination)
      (length : piece.length = copy.bytes.toNat) (exact_ : copy.Apart → piece = copy.piece source) :
      Step regions request (.done (.ok ())) (Function.update regions copy.destination
        (some (FlatMemory.splice destination copy.destinationOffset.toNat piece)))
  | copyBroken {request : HipRequest} {copy : RegionCopy} {source destination piece : List UInt8}
      {error : IoError} (asked : request.copy? = some copy) (from_ : regions copy.source = some source)
      (into : regions copy.destination = some destination) (within : copy.Within source destination)
      (length : piece.length = copy.bytes.toNat) :
      Step regions request (.done (.error error)) (Function.update regions copy.destination
        (some (FlatMemory.splice destination copy.destinationOffset.toNat piece)))
  | notCopied {request : HipRequest} {copy : RegionCopy} {error : IoError}
      (asked : request.copy? = some copy) : Step regions request (.done (.error error)) regions

/-- A trace that the abstract device can make, and the bytes it leaves. -/
inductive Regions.Explains : List (HipRequest × HipAnswer) → Regions → Prop where
  | begin : Explains [] fun _ => none
  | step {trace : List (HipRequest × HipAnswer)} {regions after : Regions} {request : HipRequest}
      {answer : HipAnswer} (before : Explains trace regions) (next : Regions.Step regions request answer after) :
      Explains (trace ++ [(request, answer)]) after

/-! ### The mirror -/

/-- **The device and its regions.** -/
structure HipHost.Mirrors (host : HipHost) (regions : Regions) : Prop where
  registry : ∀ handle, host.device.live.lookup handle = host.allocations.lookup handle
  bytes : ∀ handle, regions handle = (host.allocations.lookup handle).map fun len =>
    host.device.memory.read handle.toNat len.toNat
  placed : ∀ handle len, host.allocations.lookup handle = some len →
    handle ≠ 0 ∧ len ≠ 0 ∧ handle.toNat + len.toNat ≤ 2 ^ 64
  apart : ∀ handle other len size, handle ≠ other → host.allocations.lookup handle = some len →
    host.allocations.lookup other = some size →
    handle.toNat + len.toNat ≤ other.toNat ∨ other.toNat + size.toNat ≤ handle.toNat
  sound : host.device.strayed = []

namespace HipHost.Mirrors

variable {host : HipHost} {regions : Regions} {handle len : UInt64}

theorem load (memory : FlatMemory) : (HipHost.load memory).Mirrors fun _ => none where
  registry _ := rfl
  bytes _ := rfl
  placed handle len held := by cases held
  apart handle other len size _ held := by cases held
  sound := rfl

/-- An access in a buffer is in a live allocation. -/
theorem covers (mirrors : host.Mirrors regions) (held : host.allocations.lookup handle = some len)
    {address size : Nat} (above : handle.toNat ≤ address) (below : address + size ≤ handle.toNat + len.toNat) :
    host.device.covers address size = true := by
  have live : host.device.live.lookup handle = some len := (mirrors.registry handle).trans held
  refine List.any_eq_true.mpr ⟨⟨handle, len⟩, mem_of_lookup live, ?_⟩
  simp [above, below]

theorem access (mirrors : host.Mirrors regions) (held : host.allocations.lookup handle = some len)
    {address size : Nat} (above : handle.toNat ≤ address) (below : address + size ≤ handle.toNat + len.toNat) :
    host.device.access address size = host.device :=
  if_pos (mirrors.covers held above below)

/-- **A write in a buffer** replaces a piece of it, and nothing of the others. -/
theorem write (mirrors : host.Mirrors regions) (held : host.allocations.lookup handle = some len)
    {offset : Nat} {bytes : List UInt8} (inside : offset + bytes.length ≤ len.toNat) :
    HipHost.Mirrors { host with device :=
        { host.device with memory := host.device.memory.write (handle.toNat + offset) bytes } }
      (Function.update regions handle (some (FlatMemory.splice
        (host.device.memory.read handle.toNat len.toNat) offset bytes))) where
  registry := mirrors.registry
  bytes other := by
    by_cases same : other = handle
    · subst same
      rw [Function.update_self, held, Option.map_some, FlatMemory.read_write_inside _ inside]
    · rw [Function.update_of_ne same, mirrors.bytes other]
      show _ = (host.allocations.lookup other).map _
      cases there : host.allocations.lookup other with
      | none => rfl
      | some size =>
          have far := mirrors.apart other handle size len same there held
          rw [Option.map_some, Option.map_some, FlatMemory.read_write_apart _ (by omega)]
  placed := mirrors.placed
  apart := mirrors.apart
  sound := mirrors.sound

/-- A region of the driver is a new buffer. -/
theorem malloc (mirrors : host.Mirrors regions) {replies : HipReplies} {pointer : UInt64}
    (given : replies.malloc = .ok pointer) (real : pointer ≠ 0) (some_ : len ≠ 0)
    (documented : HipHost.DriverGives replies len host.device) :
    host.allocations.lookup pointer = none ∧
      HipHost.Mirrors ⟨host.allocations.insert pointer len, host.device.malloc replies pointer len⟩
        (Function.update regions pointer (some (replies.junk.read pointer.toNat len.toNat))) := by
  obtain ⟨bounded, far⟩ := documented pointer given real
  have far : ∀ other size, host.allocations.lookup other = some size →
      pointer.toNat + len.toNat ≤ other.toNat ∨ other.toNat + size.toNat ≤ pointer.toNat :=
    fun other size held => far other size ((mirrors.registry other).trans held)
  have positive : ∀ size : UInt64, size ≠ 0 → 0 < size.toNat := by
    intro size nonzero
    by_contra zero
    exact nonzero (UInt64.toNat_inj.mp (by simpa using zero))
  have fresh : host.allocations.lookup pointer = none := by
    cases held : host.allocations.lookup pointer with
    | none => rfl
    | some size =>
        have one := positive len some_
        have two := positive size (mirrors.placed pointer size held).2.1
        have apart := far pointer size held
        omega
  refine ⟨fresh, ⟨fun handle => ?_, fun handle => ?_, fun handle size held => ?_,
    fun handle other size size' different held held' => ?_, mirrors.sound⟩⟩
  · show (host.device.live.insert pointer len).lookup handle = (host.allocations.insert pointer len).lookup handle
    rw [lookup_insert_eq, lookup_insert_eq, mirrors.registry handle]
  · show _ = ((host.allocations.insert pointer len).lookup handle).map fun size =>
      (host.device.memory.write pointer.toNat (replies.junk.read pointer.toNat len.toNat)).read handle.toNat
        size.toNat
    rw [lookup_insert_eq]
    by_cases same : handle = pointer
    · subst same
      have whole := host.device.memory.read_write_same handle.toNat (replies.junk.read handle.toNat len.toNat)
      rw [FlatMemory.length_read] at whole
      rw [if_pos rfl, Function.update_self, Option.map_some, whole]
    · rw [if_neg same, Function.update_of_ne same, mirrors.bytes handle]
      cases there : host.allocations.lookup handle with
      | none => rfl
      | some size =>
          have apart := far handle size there
          rw [Option.map_some, Option.map_some, FlatMemory.read_write_apart]
          rw [FlatMemory.length_read]
          omega
  · replace held : (host.allocations.insert pointer len).lookup handle = some size := held
    rw [lookup_insert_eq] at held
    split at held
    · next same =>
        cases held
        exact same ▸ ⟨real, some_, bounded⟩
    · exact mirrors.placed handle size held
  · replace held : (host.allocations.insert pointer len).lookup handle = some size := held
    replace held' : (host.allocations.insert pointer len).lookup other = some size' := held'
    rw [lookup_insert_eq] at held held'
    split at held
    · next here =>
        subst here
        cases held
        rw [if_neg different.symm] at held'
        exact far other size' held'
    · split at held'
      · next there =>
          subst there
          cases held'
          exact (far handle size held).symm
      · exact mirrors.apart handle other size size' different held held'

/-- A region that is given back is no buffer. -/
theorem release (mirrors : host.Mirrors regions) (held : host.allocations.lookup handle = some len) :
    HipHost.Mirrors ⟨host.allocations.erase handle, host.device.release handle⟩
      (Function.update regions handle none) := by
  have live : (host.device.release handle).live = host.device.live.erase handle := rfl
  have quiet : (host.device.release handle).strayed = [] := by
    show (host.device.access handle.toNat 0).strayed = []
    rw [mirrors.access held le_rfl (by omega)]
    exact mirrors.sound
  have memory : (host.device.release handle).memory = host.device.memory := by
    show (host.device.access handle.toNat 0).memory = _
    rw [mirrors.access held le_rfl (by omega)]
  refine ⟨fun other => ?_, fun other => ?_, fun other size present => ?_,
    fun other third size size' different present present' => ?_, quiet⟩
  · rw [live, lookup_erase_eq, lookup_erase_eq, mirrors.registry other]
  · rw [memory, lookup_erase_eq]
    by_cases same : other = handle
    · rw [if_pos same, same, Function.update_self]
      rfl
    · rw [if_neg same, Function.update_of_ne same, mirrors.bytes other]
  · replace present : (host.allocations.erase handle).lookup other = some size := present
    rw [lookup_erase_eq] at present
    split at present
    · cases present
    · exact mirrors.placed other size present
  · replace present : (host.allocations.erase handle).lookup other = some size := present
    replace present' : (host.allocations.erase handle).lookup third = some size' := present'
    rw [lookup_erase_eq] at present present'
    split at present
    · cases present
    · split at present'
      · cases present'
      · exact mirrors.apart other third size size' different present present'

end HipHost.Mirrors

/-! ### The tests of a call -/

/-- **A call that the buffers there are allow.** -/
def Regions.Valid (regions : Regions) : HipRequest → Prop
  | .allocate len => len ≠ 0
  | .upload buffer bytes => ∃ old, regions buffer.handle = some old ∧ old.length = buffer.len.toNat ∧
      bytes.bytes.length = buffer.len.toNat
  | .download buffer => ∃ old, regions buffer.handle = some old ∧ old.length = buffer.len.toNat ∧
      buffer.len.toNat ≤ isizeMax
  | .free buffer => ∃ old, regions buffer.handle = some old ∧ old.length = buffer.len.toNat
  | .copyDeviceRange source sourceOffset destination destinationOffset bytes => ∃ old new,
      regions source.handle = some old ∧ regions destination.handle = some new ∧
        source.len.toNat ≤ old.length ∧ destination.len.toNat ≤ new.length ∧
        RegionCopy.Within ⟨source.handle, sourceOffset, destination.handle, destinationOffset, bytes⟩ old new
  | .copyDevice source destination bytes => ∃ old new,
      regions source.handle = some old ∧ regions destination.handle = some new ∧
        source.len.toNat ≤ old.length ∧ destination.len.toNat ≤ new.length ∧
        RegionCopy.Within ⟨source.handle, 0, destination.handle, 0, bytes⟩ old new
  | .transfer request => ∃ old new,
      regions request.sourceHandle = some old ∧ regions request.destinationHandle = some new ∧
        RegionCopy.Within ⟨request.sourceHandle, request.sourceOffset, request.destinationHandle,
          request.destinationOffset, request.bytes⟩ old new

/-- The driver does not fail. -/
structure HipReplies.Succeed (replies : HipReplies) : Prop where
  malloc : ∃ pointer, replies.malloc = .ok pointer ∧ pointer ≠ 0
  copy : replies.copy = .ok ()
  synchronize : replies.synchronize = .ok ()
  free : replies.free = .ok ()

def HipAnswer.isOk : HipAnswer → Bool
  | .allocated result => result.isOk
  | .done result => result.isOk
  | .downloaded result => result.isOk

theorem validateBuffer_iff {allocations : Table UInt64 UInt64} {buffer : DeviceBuffer} :
    HipDeviceMemory.validateBuffer allocations buffer = .ok () ↔
      allocations.lookup buffer.handle = some buffer.len := by
  unfold HipDeviceMemory.validateBuffer
  cases allocations.lookup buffer.handle with
  | none => simp
  | some len =>
      by_cases same : len = buffer.len
      · simp [same]
      · simp [same]

namespace HipHost

variable {host : HipHost} {regions : Regions} {buffer : DeviceBuffer} {handle offset bytes : UInt64}

/-- A buffer of the registry, by its bytes. -/
theorem Mirrors.held_iff (mirrors : host.Mirrors regions) :
    host.allocations.lookup buffer.handle = some buffer.len ↔
      ∃ old, regions buffer.handle = some old ∧ old.length = buffer.len.toNat := by
  rw [mirrors.bytes buffer.handle]
  cases host.allocations.lookup buffer.handle with
  | none => simp
  | some len =>
      constructor
      · intro same
        cases same
        exact ⟨_, rfl, FlatMemory.length_read _ _ _⟩
      · rintro ⟨old, same, length⟩
        cases same
        rw [FlatMemory.length_read] at length
        rw [UInt64.toNat_inj.mp length]

theorem handleToPointer_ok (real : handle ≠ 0) : handleToPointer handle = .ok handle := if_neg real

/-- The test of a range. -/
theorem validateRange_iff : host.validateRange buffer offset bytes = .ok () ↔
    ∃ actual, host.allocations.lookup buffer.handle = some actual ∧ bytes ≠ 0 ∧
      buffer.len.toNat ≤ actual.toNat ∧ offset.toNat + bytes.toNat ≤ actual.toNat := by
  unfold validateRange checkedAdd
  by_cases none : bytes = 0
  · simp [none]
  rw [if_neg none]
  cases held : host.allocations.lookup buffer.handle with
  | none => simp
  | some actual =>
      have below := actual.toNat_lt
      by_cases longer : buffer.len > actual
      · have longer' : actual.toNat < buffer.len.toNat := longer
        simp only [if_pos longer, reduceCtorEq, false_iff, not_exists]
        rintro other ⟨same, _, fits, _⟩
        cases same
        omega
      · have shorter : buffer.len.toNat ≤ actual.toNat := Nat.not_lt.mp longer
        simp only [if_neg longer]
        by_cases room : offset.toNat + bytes.toNat < 2 ^ 64
        · have sum : (offset + bytes).toNat = offset.toNat + bytes.toNat := by
            rw [UInt64.toNat_add, Nat.mod_eq_of_lt room]
          simp only [if_pos room]
          by_cases beyond : offset + bytes > actual
          · have beyond' : actual.toNat < (offset + bytes).toNat := beyond
            simp only [if_pos beyond, reduceCtorEq, false_iff, not_exists]
            rintro other ⟨same, _, _, fits⟩
            cases same
            omega
          · have within : (offset + bytes).toNat ≤ actual.toNat := Nat.not_lt.mp beyond
            simp only [if_neg beyond, true_iff]
            exact ⟨actual, rfl, none, shorter, by omega⟩
        · simp only [if_neg room, reduceCtorEq, false_iff, not_exists]
          rintro other ⟨same, _, _, fits⟩
          cases same
          omega

/-- The address of a place in a buffer. -/
theorem Mirrors.pointerWithOffset_ok (mirrors : host.Mirrors regions) {actual : UInt64}
    (held : host.allocations.lookup handle = some actual) (offset : UInt64) (inside : offset.toNat < actual.toNat) :
    pointerWithOffset handle offset = .ok (handle + offset) ∧
      (handle + offset).toNat = handle.toNat + offset.toNat := by
  obtain ⟨real, _, bounded⟩ := mirrors.placed handle actual held
  have room : handle.toNat + offset.toNat < 2 ^ 64 := by omega
  constructor
  · unfold pointerWithOffset checkedAdd
    rw [handleToPointer_ok real]
    exact if_pos room
  · rw [UInt64.toNat_add, Nat.mod_eq_of_lt room]

/-! ### Each call -/

/-- **A call on both sides.** -/
def Simulates (host : HipHost) (replies : HipReplies) (regions : Regions) (request : HipRequest) : Prop :=
  ∃ after, Regions.Step regions request (host.call replies request).1 after ∧
    (host.call replies request).2.Mirrors after ∧
    (replies.Succeed → ((host.call replies request).1.isOk = true ↔ regions.Valid request))

variable {replies : HipReplies}

/-- What `allocate` does. -/
theorem allocate_cases (replies : HipReplies) (mirrors : host.Mirrors regions) {len : UInt64}
    (documented : DriverGives replies len host.device) :
    (∃ error, host.allocate replies len = (.error error, host) ∧ (replies.Succeed → len = 0)) ∨
      ∃ pointer, host.allocate replies len =
          (.ok ⟨pointer, len⟩, ⟨host.allocations.insert pointer len, host.device.malloc replies pointer len⟩) ∧
        replies.malloc = .ok pointer ∧ pointer ≠ 0 ∧ len ≠ 0 := by
  unfold allocate
  split
  · next none => exact Or.inl ⟨_, rfl, fun _ => none⟩
  · next some_ =>
      split
      · next error given =>
          refine Or.inl ⟨_, rfl, fun succeed => ?_⟩
          obtain ⟨pointer, same, _⟩ := succeed.malloc
          rw [given] at same
          cases same
      · next pointer given =>
          split
          · next null =>
              refine Or.inl ⟨_, rfl, fun succeed => ?_⟩
              obtain ⟨other, same, real⟩ := succeed.malloc
              rw [given] at same
              cases same
              exact absurd null real
          · next real =>
              have fresh := (mirrors.malloc given real some_ documented).1
              refine Or.inr ⟨pointer, ?_, given, real, some_⟩
              rw [fresh]
              rfl

/-- What `upload` does. -/
theorem upload_cases (replies : HipReplies) (mirrors : host.Mirrors regions) (buffer : DeviceBuffer) (bytes : Payload) :
    (∃ error, host.upload replies buffer bytes = (.error error, host) ∧
        ¬ regions.Valid (.upload buffer bytes)) ∨
      (host.allocations.lookup buffer.handle = some buffer.len ∧ bytes.bytes.length = buffer.len.toNat ∧
        host.upload replies buffer bytes = (replies.copy.bind fun _ => replies.synchronize,
          { host with device := host.device.copyIn replies buffer.handle.toNat bytes.bytes })) := by
  unfold upload
  split
  · next error refused =>
      refine Or.inl ⟨_, rfl, ?_⟩
      rintro ⟨old, held, length, _⟩
      rw [validateBuffer_iff.mpr (mirrors.held_iff.mpr ⟨old, held, length⟩)] at refused
      cases refused
  · next valid =>
      have held := validateBuffer_iff.mp valid
      split
      · next misfit =>
          refine Or.inl ⟨_, rfl, ?_⟩
          rintro ⟨_, _, _, fits⟩
          exact misfit fits
      · next fits =>
          rw [handleToPointer_ok (mirrors.placed _ _ held).1]
          exact Or.inr ⟨held, not_not.mp fits, rfl⟩

/-- What `download` does. -/
theorem download_cases (replies : HipReplies) (mirrors : host.Mirrors regions) (buffer : DeviceBuffer) :
    (∃ fault, host.download replies buffer = (.error fault, host) ∧
        (replies.Succeed → ¬ regions.Valid (.download buffer))) ∨
      (host.allocations.lookup buffer.handle = some buffer.len ∧ buffer.len.toNat ≤ isizeMax ∧
        host.download replies buffer =
          (.ok (host.device.memory.read buffer.handle.toNat buffer.len.toNat), host)) := by
  unfold download
  split
  · next error refused =>
      refine Or.inl ⟨_, rfl, fun _ => ?_⟩
      rintro ⟨old, held, length, _⟩
      rw [validateBuffer_iff.mpr (mirrors.held_iff.mpr ⟨old, held, length⟩)] at refused
      cases refused
  · next valid =>
      have held := validateBuffer_iff.mp valid
      rw [handleToPointer_ok (mirrors.placed _ _ held).1]
      simp only
      split
      · next long =>
          refine Or.inl ⟨_, rfl, fun _ => ?_⟩
          rintro ⟨_, _, _, short⟩
          omega
      · next short =>
          rw [mirrors.access held le_rfl le_rfl]
          split
          · next error failed =>
              refine Or.inl ⟨_, rfl, fun succeed => ?_⟩
              rw [succeed.copy, succeed.synchronize] at failed
              cases failed
          · exact Or.inr ⟨held, by omega, rfl⟩

/-- What `free` does. -/
theorem free_cases (replies : HipReplies) (mirrors : host.Mirrors regions) (buffer : DeviceBuffer) :
    (∃ error, host.free replies buffer = (.error error, host) ∧
        (replies.Succeed → ¬ regions.Valid (.free buffer))) ∨
      (host.allocations.lookup buffer.handle = some buffer.len ∧ host.free replies buffer =
        (.ok (), ⟨host.allocations.erase buffer.handle, host.device.release buffer.handle⟩)) := by
  unfold free
  split
  · next error refused =>
      refine Or.inl ⟨_, rfl, fun _ => ?_⟩
      rintro ⟨old, held, length⟩
      rw [validateBuffer_iff.mpr (mirrors.held_iff.mpr ⟨old, held, length⟩)] at refused
      cases refused
  · next valid =>
      have held := validateBuffer_iff.mp valid
      rw [handleToPointer_ok (mirrors.placed _ _ held).1]
      simp only
      split
      · next error failed =>
          refine Or.inl ⟨_, rfl, fun succeed => ?_⟩
          rw [succeed.free] at failed
          cases failed
      · exact Or.inr ⟨held, rfl⟩

/-- **The tests of `copy_device_range`.** -/
theorem copyPointers_iff (mirrors : host.Mirrors regions) {source destination : DeviceBuffer}
    {sourceOffset destinationOffset bytes : UInt64} {pointers : UInt64 × UInt64} :
    host.copyPointers source sourceOffset destination destinationOffset bytes = .ok pointers ↔
      ∃ old new, host.allocations.lookup source.handle = some old ∧
        host.allocations.lookup destination.handle = some new ∧ bytes ≠ 0 ∧
        source.len.toNat ≤ old.toNat ∧ destination.len.toNat ≤ new.toNat ∧
        sourceOffset.toNat + bytes.toNat ≤ old.toNat ∧ destinationOffset.toNat + bytes.toNat ≤ new.toNat ∧
        pointers = (source.handle + sourceOffset, destination.handle + destinationOffset) := by
  have positive : bytes ≠ 0 → 0 < bytes.toNat := fun some_ => by
    by_contra zero
    exact some_ (UInt64.toNat_inj.mp (by simpa using zero))
  unfold copyPointers
  constructor
  · intro passed
    cases from_ : host.validateRange source sourceOffset bytes with
    | error error =>
        rw [from_] at passed
        cases passed
    | ok one =>
        cases into : host.validateRange destination destinationOffset bytes with
        | error error =>
            rw [from_, into] at passed
            cases passed
        | ok two =>
            obtain ⟨old, held, some_, fits, inside⟩ := validateRange_iff.mp from_
            obtain ⟨new, held', _, fits', inside'⟩ := validateRange_iff.mp into
            have one := positive some_
            have first := (mirrors.pointerWithOffset_ok held sourceOffset (by omega)).1
            have second := (mirrors.pointerWithOffset_ok held' destinationOffset (by omega)).1
            rw [from_, into, first, second] at passed
            exact ⟨old, new, held, held', some_, fits, fits', inside, inside', (Except.ok.inj passed).symm⟩
  · rintro ⟨old, new, held, held', some_, fits, fits', inside, inside', rfl⟩
    have one := positive some_
    have first := (mirrors.pointerWithOffset_ok held sourceOffset (by omega)).1
    have second := (mirrors.pointerWithOffset_ok held' destinationOffset (by omega)).1
    rw [validateRange_iff.mpr ⟨old, held, some_, fits, inside⟩,
      validateRange_iff.mpr ⟨new, held', some_, fits', inside'⟩, first, second]
    rfl

/-- A copy and its synchronization. -/
theorem bind_cases (copied synchronized : Except IoError Unit) :
    (∃ error, (copied.bind fun _ => synchronized) = .error error) ∨
      (copied.bind fun _ => synchronized) = .ok () ∧ copied = .ok () := by
  cases copied with
  | error error => exact Or.inl ⟨error, rfl⟩
  | ok one =>
      cases synchronized with
      | error error => exact Or.inl ⟨error, rfl⟩
      | ok two => exact Or.inr ⟨rfl, rfl⟩

theorem simulates_allocate (mirrors : host.Mirrors regions) (len : UInt64)
    (documented : DriverGives replies len host.device) : host.Simulates replies regions (.allocate len) := by
  unfold Simulates call
  rcases allocate_cases replies mirrors documented with ⟨error, refused, none⟩ | ⟨pointer, given, malloc, real, some_⟩
  · simp only [refused]
    exact ⟨regions, .notAllocated, mirrors, fun succeed =>
      ⟨fun ok => (by cases ok), fun valid => absurd (none succeed) valid⟩⟩
  · obtain ⟨fresh, mirrored⟩ := mirrors.malloc malloc real some_ documented
    simp only [given]
    have unused : regions pointer = none := by
      rw [mirrors.bytes pointer, fresh]
      rfl
    exact ⟨_, .allocated ⟨pointer, len⟩ unused (FlatMemory.length_read _ _ _), mirrored,
      fun _ => ⟨fun _ => some_, fun _ => rfl⟩⟩

theorem simulates_upload (mirrors : host.Mirrors regions) (buffer : DeviceBuffer) (bytes : Payload) :
    host.Simulates replies regions (.upload buffer bytes) := by
  unfold Simulates call
  rcases upload_cases replies mirrors buffer bytes with ⟨error, refused, invalid⟩ | ⟨held, fits, result⟩
  · simp only [refused]
    exact ⟨regions, .notUploaded, mirrors, fun _ =>
      ⟨fun ok => (by cases ok), fun valid => absurd valid invalid⟩⟩
  · obtain ⟨old, was, length⟩ := mirrors.held_iff.mp held
    have valid : regions.Valid (.upload buffer bytes) := ⟨old, was, length, fits⟩
    -- what the driver writes is as long as the buffer
    have written : ∀ left : List UInt8, left.length = buffer.len.toNat →
        HipHost.Mirrors { host with device :=
          { host.device with memory := host.device.memory.write buffer.handle.toNat left } }
          (Function.update regions buffer.handle (some left)) := by
      intro left same
      have inside : 0 + left.length ≤ buffer.len.toNat := by omega
      have moved := mirrors.write held inside
      rwa [FlatMemory.splice_whole (by rw [same, FlatMemory.length_read])] at moved
    simp only [result, HipDevice.copyIn]
    rw [mirrors.access held le_rfl (by omega)]
    rcases bind_cases replies.copy replies.synchronize with ⟨error, failed⟩ | ⟨succeeded, copied⟩
    · rw [failed]
      refine ⟨_, .uploadBroken was ?_, written _ ?_, fun succeed => ?_⟩
      · split
        · rw [fits, length]
        · rw [FlatMemory.length_read, fits, length]
      · split
        · exact fits
        · rw [FlatMemory.length_read, fits]
      · rw [succeed.copy, succeed.synchronize] at failed
        cases failed
    · rw [succeeded, copied]
      exact ⟨_, .uploaded was length fits, written _ fits, fun _ => ⟨fun _ => valid, fun _ => rfl⟩⟩

theorem simulates_download (mirrors : host.Mirrors regions) (buffer : DeviceBuffer) :
    host.Simulates replies regions (.download buffer) := by
  unfold Simulates call
  rcases download_cases replies mirrors buffer with ⟨fault, refused, invalid⟩ | ⟨held, short, result⟩
  · simp only [refused]
    exact ⟨regions, .notDownloaded, mirrors, fun succeed =>
      ⟨fun ok => (by cases ok), fun valid => absurd valid (invalid succeed)⟩⟩
  · obtain ⟨old, was, length⟩ := mirrors.held_iff.mp held
    have same : host.device.memory.read buffer.handle.toNat buffer.len.toNat = old := by
      have here := mirrors.bytes buffer.handle
      rw [was, held] at here
      exact (Option.some.inj here).symm
    simp only [result, same]
    exact ⟨regions, .downloaded was length, mirrors, fun _ => ⟨fun _ => ⟨old, was, length, short⟩, fun _ => rfl⟩⟩

theorem simulates_free (mirrors : host.Mirrors regions) (buffer : DeviceBuffer) :
    host.Simulates replies regions (.free buffer) := by
  unfold Simulates call
  rcases free_cases replies mirrors buffer with ⟨error, refused, invalid⟩ | ⟨held, result⟩
  · simp only [refused]
    exact ⟨regions, .notFreed, mirrors, fun succeed =>
      ⟨fun ok => (by cases ok), fun valid => absurd valid (invalid succeed)⟩⟩
  · obtain ⟨old, was, length⟩ := mirrors.held_iff.mp held
    simp only [result]
    exact ⟨_, .freed was length, mirrors.release held, fun _ => ⟨fun _ => ⟨old, was, length⟩, fun _ => rfl⟩⟩

/-- **A copy on both sides**, where its tests are passed. -/
theorem simulates_copied (mirrors : host.Mirrors regions) {request : HipRequest} {copy : RegionCopy}
    (asked : request.copy? = some copy) {old new : UInt64}
    (held : host.allocations.lookup copy.source = some old)
    (held' : host.allocations.lookup copy.destination = some new) (some_ : copy.bytes ≠ 0)
    (inside : copy.sourceOffset.toNat + copy.bytes.toNat ≤ old.toNat)
    (inside' : copy.destinationOffset.toNat + copy.bytes.toNat ≤ new.toNat) (replies : HipReplies) :
    ∃ after, Regions.Step regions request (.done (replies.copy.bind fun _ => replies.synchronize)) after ∧
      HipHost.Mirrors ⟨host.allocations, host.device.copyWithin replies
        (copy.destination + copy.destinationOffset).toNat (copy.source + copy.sourceOffset).toNat
        copy.bytes.toNat⟩ after := by
  have positive : 0 < copy.bytes.toNat := by
    by_contra zero
    exact some_ (UInt64.toNat_inj.mp (by simpa using zero))
  have from_ := (mirrors.pointerWithOffset_ok held copy.sourceOffset (by omega)).2
  have into := (mirrors.pointerWithOffset_ok held' copy.destinationOffset (by omega)).2
  set source := host.device.memory.read copy.source.toNat old.toNat with source_eq
  set destination := host.device.memory.read copy.destination.toNat new.toNat with destination_eq
  have was : regions copy.source = some source := by rw [mirrors.bytes, held]; rfl
  have was' : regions copy.destination = some destination := by rw [mirrors.bytes, held']; rfl
  have within : copy.Within source destination := ⟨some_, by rw [source_eq, FlatMemory.length_read]; exact inside,
    by rw [destination_eq, FlatMemory.length_read]; exact inside'⟩
  have quiet : (host.device.access (copy.source.toNat + copy.sourceOffset.toNat) copy.bytes.toNat).access
      (copy.destination.toNat + copy.destinationOffset.toNat) copy.bytes.toNat = host.device := by
    rw [mirrors.access held (by omega) (by omega), mirrors.access held' (by omega) (by omega)]
  have written : ∀ piece : List UInt8, piece.length = copy.bytes.toNat →
      HipHost.Mirrors ⟨host.allocations, ⟨host.device.memory.write
          (copy.destination.toNat + copy.destinationOffset.toNat) piece, host.device.live, host.device.strayed⟩⟩
        (Function.update regions copy.destination
          (some (FlatMemory.splice destination copy.destinationOffset.toNat piece))) :=
    fun piece same => mirrors.write held' (by omega)
  have taken : host.device.memory.read (copy.source.toNat + copy.sourceOffset.toNat) copy.bytes.toNat =
      copy.piece source := FlatMemory.read_inside _ inside
  rw [from_, into, HipDevice.copyWithin, quiet, taken]
  set piece := if (replies.copy.isOk && HipDevice.apart (copy.destination.toNat + copy.destinationOffset.toNat)
      (copy.source.toNat + copy.sourceOffset.toNat) copy.bytes.toNat) = true then copy.piece source
    else replies.junk.read (copy.destination.toNat + copy.destinationOffset.toNat) copy.bytes.toNat with piece_eq
  have length : piece.length = copy.bytes.toNat := by
    rw [piece_eq]
    split
    · rw [← taken, FlatMemory.length_read]
    · rw [FlatMemory.length_read]
  rcases bind_cases replies.copy replies.synchronize with ⟨error, failed⟩ | ⟨succeeded, copied⟩
  · rw [failed]
    exact ⟨_, .copyBroken asked was was' within length, written piece length⟩
  · rw [succeeded]
    refine ⟨_, .copied asked was was' within length fun apart => ?_, written piece length⟩
    have far : HipDevice.apart (copy.destination.toNat + copy.destinationOffset.toNat)
        (copy.source.toNat + copy.sourceOffset.toNat) copy.bytes.toNat = true := by
      unfold HipDevice.apart
      rw [Bool.or_eq_true, decide_eq_true_eq, decide_eq_true_eq]
      rcases apart with different | before | behind
      · have gap := mirrors.apart _ _ _ _ different held held'
        omega
      · by_cases different : copy.source = copy.destination
        · rw [different]
          omega
        · have gap := mirrors.apart _ _ _ _ different held held'
          omega
      · by_cases different : copy.source = copy.destination
        · rw [different]
          omega
        · have gap := mirrors.apart _ _ _ _ different held held'
          omega
    rw [piece_eq, copied, far]
    rfl

/-- The lengths of two buffers, by their bytes. -/
theorem Mirrors.lengths (mirrors : host.Mirrors regions) {other : UInt64} {old new : List UInt8}
    (was : regions handle = some old) (was' : regions other = some new) :
    ∃ len size, host.allocations.lookup handle = some len ∧ host.allocations.lookup other = some size ∧
      len.toNat = old.length ∧ size.toNat = new.length := by
  have each : ∀ {handle : UInt64} {old : List UInt8}, regions handle = some old →
      ∃ len, host.allocations.lookup handle = some len ∧ len.toNat = old.length := by
    intro handle old was
    rw [mirrors.bytes handle] at was
    cases held : host.allocations.lookup handle with
    | none =>
        rw [held] at was
        cases was
    | some len =>
        rw [held] at was
        cases was
        exact ⟨len, rfl, (FlatMemory.length_read _ _ _).symm⟩
  obtain ⟨len, held, length⟩ := each was
  obtain ⟨size, held', length'⟩ := each was'
  exact ⟨len, size, held, held', length, length'⟩

/-- The bytes of a buffer are as many as the registry says. -/
theorem Mirrors.region (mirrors : host.Mirrors regions) {len : UInt64}
    (held : host.allocations.lookup handle = some len) :
    ∃ old, regions handle = some old ∧ old.length = len.toNat := by
  have named : host.allocations.lookup (DeviceBuffer.mk handle len).handle = some (DeviceBuffer.mk handle len).len :=
    held
  exact mirrors.held_iff.mp named

/-- **A copy of a range**, whichever call it comes from. -/
theorem simulates_range (mirrors : host.Mirrors regions) {request : HipRequest} {source destination : DeviceBuffer}
    {sourceOffset destinationOffset bytes : UInt64}
    (asked : request.copy? =
      some ⟨source.handle, sourceOffset, destination.handle, destinationOffset, bytes⟩)
    (called : host.call replies request =
      (.done (host.copyDeviceRange replies source sourceOffset destination destinationOffset bytes).1,
        (host.copyDeviceRange replies source sourceOffset destination destinationOffset bytes).2))
    (valid : regions.Valid request ↔ ∃ old new, regions source.handle = some old ∧
      regions destination.handle = some new ∧ source.len.toNat ≤ old.length ∧
      destination.len.toNat ≤ new.length ∧
      RegionCopy.Within ⟨source.handle, sourceOffset, destination.handle, destinationOffset, bytes⟩ old new) :
    host.Simulates replies regions request := by
  unfold Simulates
  rw [called]
  unfold copyDeviceRange
  cases passed : host.copyPointers source sourceOffset destination destinationOffset bytes with
  | error error =>
      refine ⟨regions, .notCopied asked, mirrors, fun _ => ⟨fun ok => (by cases ok), fun valid' => ?_⟩⟩
      obtain ⟨old, new, was, was', fits, fits', some_, inside, inside'⟩ := valid.mp valid'
      obtain ⟨len, size, held, held', length, length'⟩ := mirrors.lengths was was'
      rw [(copyPointers_iff mirrors).mpr ⟨len, size, held, held', some_, by omega, by omega,
        length ▸ inside, length' ▸ inside', rfl⟩] at passed
      cases passed
  | ok pointers =>
      obtain ⟨len, size, held, held', some_, fits, fits', inside, inside', rfl⟩ :=
        (copyPointers_iff mirrors).mp passed
      obtain ⟨after, step, mirrored⟩ := simulates_copied mirrors asked held held' some_ inside inside' replies
      refine ⟨after, step, mirrored, fun succeed => ?_⟩
      obtain ⟨old, was, length⟩ := mirrors.region held
      obtain ⟨new, was', length'⟩ := mirrors.region held'
      refine ⟨fun _ => valid.mpr ⟨old, new, was, was', by omega, by omega, some_, ?_, ?_⟩, fun _ => ?_⟩
      · rw [length]
        exact inside
      · rw [length']
        exact inside'
      · rw [succeed.copy, succeed.synchronize]
        rfl

theorem simulates_transfer (mirrors : host.Mirrors regions) (request : DirectTransferRequest) :
    host.Simulates replies regions (.transfer request) := by
  have refused : ∀ error, host.transfer replies request = (.error error, host) →
      ¬ regions.Valid (.transfer request) → host.Simulates replies regions (.transfer request) := by
    intro error result invalid
    unfold Simulates call
    simp only [result]
    exact ⟨regions, .notCopied rfl, mirrors, fun _ =>
      ⟨fun ok => (by cases ok), fun valid => absurd valid invalid⟩⟩
  by_cases none : request.bytes = 0
  · refine refused _ (if_pos none) ?_
    rintro ⟨_, _, _, _, some_, _, _⟩
    exact some_ none
  by_cases room : request.sourceOffset.toNat + request.bytes.toNat < 2 ^ 64
  · by_cases room' : request.destinationOffset.toNat + request.bytes.toNat < 2 ^ 64
    · have result : host.transfer replies request = host.copyDeviceRange replies
          ⟨request.sourceHandle, request.sourceOffset + request.bytes⟩ request.sourceOffset
          ⟨request.destinationHandle, request.destinationOffset + request.bytes⟩ request.destinationOffset
          request.bytes := by
        unfold transfer checkedAdd
        rw [if_neg none, if_pos room, if_pos room']
      have sum : (request.sourceOffset + request.bytes).toNat =
          request.sourceOffset.toNat + request.bytes.toNat := by
        rw [UInt64.toNat_add, Nat.mod_eq_of_lt room]
      have sum' : (request.destinationOffset + request.bytes).toNat =
          request.destinationOffset.toNat + request.bytes.toNat := by
        rw [UInt64.toNat_add, Nat.mod_eq_of_lt room']
      refine simulates_range mirrors rfl (by unfold call; simp only [result]; rfl) ?_
      constructor
      · rintro ⟨old, new, was, was', within⟩
        exact ⟨old, new, was, was', sum ▸ within.source, sum' ▸ within.destination, within⟩
      · rintro ⟨old, new, was, was', _, _, within⟩
        exact ⟨old, new, was, was', within⟩
    · refine refused ⟨.invalidInput, "destination range overflow"⟩ ?_ ?_
      · unfold transfer checkedAdd
        rw [if_neg none, if_pos room, if_neg room']
      · rintro ⟨old, new, was, was', within⟩
        obtain ⟨_, size, _, _, _, length⟩ := mirrors.lengths was was'
        have below := size.toNat_lt
        have inside := within.destination
        simp only at inside
        omega
  · refine refused ⟨.invalidInput, "source range overflow"⟩ ?_ ?_
    · unfold transfer checkedAdd
      rw [if_neg none, if_neg room]
    · rintro ⟨old, new, was, was', within⟩
      obtain ⟨len, _, _, _, length, _⟩ := mirrors.lengths was was'
      have below := len.toNat_lt
      have inside := within.source
      simp only at inside
      omega

/-- **One call, on both sides.** -/
theorem mirrors_call (mirrors : host.Mirrors regions) (label : HipRequest × HipReplies)
    (documented : Documented label host) : host.Simulates label.2 regions label.1 := by
  obtain ⟨request, replies⟩ := label
  cases request with
  | allocate len => exact simulates_allocate mirrors len (documented len rfl)
  | upload buffer bytes => exact simulates_upload mirrors buffer bytes
  | download buffer => exact simulates_download mirrors buffer
  | free buffer => exact simulates_free mirrors buffer
  | copyDeviceRange source sourceOffset destination destinationOffset bytes =>
      exact simulates_range mirrors rfl rfl Iff.rfl
  | copyDevice source destination bytes => exact simulates_range mirrors rfl rfl Iff.rfl
  | transfer request => exact simulates_transfer mirrors request

/-! ### Runs -/

/-- A call, and its place in the trace. -/
def trace (label : HipRequest × HipReplies) (run : HipHost × List (HipRequest × HipAnswer)) :
    HipHost × List (HipRequest × HipAnswer) :=
  ((run.1.call label.2 label.1).2, run.2 ++ [(label.1, (run.1.call label.2 label.1).1)])

end HipHost

/-- **A HIP device is a device.** Over a driver that does as documented, or fails, every run of calls from `load`, with
any arguments, is one of the abstract device: there are bytes of the handles that its trace explains and the memory
mirrors, so that no access was outside a live allocation; and the next call, where the driver does not fail, succeeds
exactly where these bytes allow it. -/
theorem hip_refines {memory : FlatMemory} {run : HipHost × List (HipRequest × HipAnswer)}
    (reached : Reaches HipHost.trace (fun label run => HipHost.Documented label run.1) (HipHost.load memory, []) run) :
    ∃ regions, Regions.Explains run.2 regions ∧ run.1.Mirrors regions ∧
      ∀ label, HipHost.Documented label run.1 → label.2.Succeed →
        ((run.1.call label.2 label.1).1.isOk = true ↔ regions.Valid label.1) := by
  have explained : ∃ regions, Regions.Explains run.2 regions ∧ run.1.Mirrors regions := by
    refine reached.invariant (fun run => ∃ regions, Regions.Explains run.2 regions ∧ run.1.Mirrors regions)
      ⟨_, .begin, HipHost.Mirrors.load memory⟩ ?_
    rintro label run ⟨regions, explains, mirrors⟩ documented
    obtain ⟨after, step, mirrored, _⟩ := HipHost.mirrors_call mirrors label documented
    exact ⟨after, explains.step step, mirrored⟩
  obtain ⟨regions, explains, mirrors⟩ := explained
  refine ⟨regions, explains, mirrors, fun label documented succeed => ?_⟩
  obtain ⟨_, _, _, answered⟩ := HipHost.mirrors_call mirrors label documented
  exact answered succeed

/-- A driver that gives one address and does not fail. -/
def giving (pointer : UInt64) : HipReplies := ⟨.ok pointer, .ok (), .ok (), .ok (), fun _ => 0⟩

theorem threeBytes_short : ([1, 2, 3] : List UInt8).length < 2 ^ 64 := by
  decide

/-- Two buffers; the second is filled, two bytes of it go to the first, and that is read. -/
def hipCalls : List (HipRequest × HipReplies) :=
  [(.allocate 4, giving 4096), (.allocate 3, giving 8192), (.upload ⟨8192, 3⟩ ⟨[1, 2, 3], threeBytes_short⟩, giving 1),
    (.transfer ⟨8192, 4096, 2, 1, 2⟩, giving 1), (.download ⟨4096, 4⟩, giving 1)]

def hipRun : HipHost × List (HipRequest × HipAnswer) :=
  hipCalls.foldl (fun run label => HipHost.trace label run) (HipHost.load fun _ => 7, [])

theorem hip_refines_transfer :
    hipRun.2.getLast?.map Prod.snd = some (.downloaded (.ok [0, 0, 2, 3])) ∧
      ∃ regions, Regions.Explains hipRun.2 regions ∧ hipRun.1.Mirrors regions := by
  have reached : Reaches HipHost.trace (fun label run => HipHost.Documented label run.1)
      (HipHost.load fun _ => 7, []) hipRun := by
    refine Reaches.ofList ⟨?_, ?_, ?_, ?_, ?_, trivial⟩
    · rintro len asked pointer given real
      cases asked
      cases given
      exact ⟨by decide, fun other size held => by cases held⟩
    · rintro len asked pointer given real
      cases asked
      cases given
      refine ⟨by decide, fun other size held => ?_⟩
      replace held : ((∅ : Table UInt64 UInt64).insert 4096 4).lookup other = some size := held
      rw [lookup_insert_eq] at held
      split at held
      · next here =>
          subst here
          cases held
          exact Or.inr (by decide)
      · cases held
    all_goals
      rintro len asked
      cases asked
  obtain ⟨regions, explains, mirrors, _⟩ := hip_refines reached
  exact ⟨rfl, regions, explains, mirrors⟩

end RivetCache
