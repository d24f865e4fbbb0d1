/-
**A `put` that fails.**

`put` and `get` of a device tier, each as one call alone (`put_alone`, `get_alone`). A `put` publishes the new
entry before it frees the buffer of the entry that was there. Where that buffer cannot be freed, the `put`
returns an error and the block has been replaced all the same; a `put` that fails for another reason leaves
what every `get` answers (`put_error_unchanged_iff`).
-/

import RivetCache.Device.Linear

set_option linter.unusedSectionVars false

namespace RivetCache

open Library

variable {δ : Type}

/-! ### One call alone -/

section

variable (memory : DeviceMemory δ) (digest : Digest)

/-- `get`. -/
def DeviceMemory.get (key : KvBlockKey) (entries : DeviceEntries) (device : δ) :
    Except Fault (Option KvTierEntry) × δ :=
  match entries.lookup (key.cacheKey digest) with
  | none => (.ok none, device)
  | some entry =>
      let (answer, device) := memory.download entry.buffer device
      match answer with
      | .error fault => (.error fault, device)
      | .ok bytes => (.ok (some ⟨⟨key, bytes⟩, entry.expiresAt, entry.pinned⟩), device)

/-- `put`, after the upload. -/
def DeviceMemory.publish (entry : KvTierEntry) (buffer : DeviceBuffer) (entries : DeviceEntries)
    (device : δ) : Except Fault Unit × DeviceEntries × δ :=
  let key := entry.block.key.cacheKey digest
  let replaced := entries.lookup key
  let entries := entries.insert key ⟨buffer, entry.expiresAt, entry.pinned⟩
  match replaced with
  | none => (.ok (), entries, device)
  | some old =>
      let (freed, device) := memory.free old.buffer device
      (freed, entries, device)

/-- `put`. -/
def DeviceMemory.put (entry : KvTierEntry) (entries : DeviceEntries) (device : δ) :
    Except Fault Unit × DeviceEntries × δ :=
  let (allocated, device) :=
    memory.allocate (UInt64.ofNat entry.block.bytes.bytes.length) device
  match allocated with
  | .error fault => (.error fault, entries, device)
  | .ok buffer =>
      let (uploaded, device) := memory.upload buffer entry.block.bytes device
      match uploaded with
      | .error .panic => (.error .panic, entries, device)
      | .error (.error error) =>
          let (freed, device) := memory.free buffer device
          match freed with
          | .error .panic => (.error .panic, entries, device)
          | _ => (.error (.error error), entries, device)
      | .ok () => memory.publish digest entry buffer entries device

/-- The steps of one call, one after the other. -/
def DevicePhase.run (picks : List (List UInt8)) (start : DeviceMove δ) : DeviceMove δ :=
  picks.foldl (fun move pick => move.phase.next memory digest pick move.entries move.device) start

variable (entries : DeviceEntries) (device : δ)

/-- **`get` is its two steps.** -/
theorem get_alone (key : KvBlockKey) (first second : List UInt8) :
    DevicePhase.run memory digest [first, second] ⟨.getLookup key, entries, device⟩ =
      ⟨.got (memory.get digest key entries device).1, entries,
        (memory.get digest key entries device).2⟩ := by
  unfold DeviceMemory.get
  simp only [DevicePhase.run, List.foldl_cons, List.foldl_nil, DevicePhase.next]
  unfold DevicePhase.lookUp
  cases entries.lookup (key.cacheKey digest) with
  | none => rfl
  | some entry =>
      dsimp only [DevicePhase.next]
      cases (memory.download entry.buffer device).1 <;> rfl

/-- **`put` is its four steps.** -/
theorem put_alone (entry : KvTierEntry) (first second third fourth : List UInt8) :
    DevicePhase.run memory digest [first, second, third, fourth]
        ⟨.putAllocate entry, entries, device⟩ =
      ⟨.ended (memory.put digest entry entries device).1,
        (memory.put digest entry entries device).2.1,
        (memory.put digest entry entries device).2.2⟩ := by
  unfold DeviceMemory.put DeviceMemory.publish
  simp only [DevicePhase.run, List.foldl_cons, List.foldl_nil]
  dsimp only [DevicePhase.next]
  rcases (memory.allocate (UInt64.ofNat entry.block.bytes.bytes.length) device).1 with fault | buffer
  · rfl
  · dsimp only [DevicePhase.allocated, DevicePhase.next]
    generalize (memory.allocate (UInt64.ofNat entry.block.bytes.bytes.length) device).2 = device
    rcases (memory.upload buffer entry.block.bytes device).1 with (error | _) | _
    · dsimp only [DevicePhase.uploaded, DevicePhase.next]
      rcases (memory.free buffer (memory.upload buffer entry.block.bytes device).2).1 with
        (_ | _) | _ <;> rfl
    · rfl
    · dsimp only [DevicePhase.uploaded, DevicePhase.next]
      cases entries.lookup (entry.block.key.cacheKey digest) <;> rfl

end

/-! ### What other calls read -/

/-- What a download of a buffer answers. -/
def DeviceMemory.reads (memory : DeviceMemory δ) (device : δ) (buffer : DeviceBuffer) :
    Except Fault Payload :=
  (memory.download buffer device).1

/-- **A device keeps its buffers apart**: a call, whether it fails or not, changes no buffer of another handle,
and what was uploaded is downloaded. -/
structure DeviceMemory.Separates (memory : DeviceMemory δ) : Prop where
  allocates : ∀ len device other,
    (∀ buffer, (memory.allocate len device).1 = .ok buffer → other.handle ≠ buffer.handle) →
      memory.reads (memory.allocate len device).2 other = memory.reads device other
  uploads : ∀ buffer bytes device other, other.handle ≠ buffer.handle →
    memory.reads (memory.upload buffer bytes device).2 other = memory.reads device other
  fills : ∀ buffer bytes device, (memory.upload buffer bytes device).1 = .ok () →
    memory.reads (memory.upload buffer bytes device).2 buffer = .ok bytes
  frees : ∀ buffer device other, other.handle ≠ buffer.handle →
    memory.reads (memory.free buffer device).2 other = memory.reads device other

/-- What `put` allocates has a handle that no entry and no call holds. -/
def DeviceKvTier.Unused (state : DeviceKvTier δ) (memory : DeviceMemory δ) (entry : KvTierEntry) :
    Prop :=
  ∀ buffer, (memory.allocate (UInt64.ofNat entry.block.bytes.bytes.length) state.device).1 =
      .ok buffer →
    ∀ owner held, state.owned owner = some held → held.handle ≠ buffer.handle

/-- **A run** whose device hands out handles that are not in use. -/
def DeviceMemory.HandsOutUnused (memory : DeviceMemory δ) : DeviceLabel → DeviceKvTier δ → Prop
  | .begin _ _, _ => True
  | .advance id _, state => ∀ call entry, state.calls id = some (call, .putAllocate entry) →
      state.Unused memory entry

section

variable {memory : DeviceMemory δ} {digest : Digest} {state : DeviceKvTier δ}
  {entries after : DeviceEntries} {device changed : δ}

/-- **No two owners** hold buffers of one handle, in any run. -/
theorem sole_reached {start : δ}
    (reached : Reaches (DeviceKvTier.step memory digest) memory.HandsOutUnused (.new start) state) :
    Sole DeviceBuffer.handle state.owned := by
  refine reached.invariant (fun state => Sole DeviceBuffer.handle state.owned) ?_
    fun label state sole unused => ?_
  · intro owner other mine theirs owns
    cases owner <;> cases owns
  · cases label with
    | begin id call =>
        unfold DeviceKvTier.step
        dsimp only
        split
        case h_1 => exact sole
        case h_2 idle =>
          rw [owned_begin idle]
          exact sole
    | advance id pick =>
        unfold DeviceKvTier.step
        dsimp only
        split
        case h_1 => exact sole
        case h_2 call phase standing =>
          refine (passed_next standing pick).sole sole fun entry buffer here answered => ?_
          exact unused call entry (here ▸ standing) buffer answered

/-- What `get` answers is read off the entry and its buffer. -/
theorem get_congr {key : KvBlockKey}
    (same : after.lookup (key.cacheKey digest) = entries.lookup (key.cacheKey digest))
    (kept : ∀ entry, entries.lookup (key.cacheKey digest) = some entry →
      memory.reads changed entry.buffer = memory.reads device entry.buffer) :
    (memory.get digest key after changed).1 = (memory.get digest key entries device).1 := by
  unfold DeviceMemory.get
  rw [same]
  cases found : entries.lookup (key.cacheKey digest) with
  | none => rfl
  | some entry =>
      have read : (memory.download entry.buffer changed).1 = (memory.download entry.buffer device).1 :=
        kept entry found
      dsimp only
      rw [read]
      cases (memory.download entry.buffer device).1 <;> rfl

/-- What `get` answers where there is an entry. -/
theorem get_of_lookup {key : KvBlockKey} {entry : DeviceEntry} {bytes : Payload}
    (found : entries.lookup (key.cacheKey digest) = some entry)
    (read : memory.reads device entry.buffer = .ok bytes) :
    (memory.get digest key entries device).1 =
      .ok (some ⟨⟨key, bytes⟩, entry.expiresAt, entry.pinned⟩) := by
  have downloaded : (memory.download entry.buffer device).1 = .ok bytes := read
  unfold DeviceMemory.get
  simp only [found, downloaded]

/-- An entry that `get` answers with. -/
theorem lookup_of_get {key : KvBlockKey} {stored : KvTierEntry}
    (answered : (memory.get digest key entries device).1 = .ok (some stored)) :
    ∃ entry bytes, entries.lookup (key.cacheKey digest) = some entry ∧
      memory.reads device entry.buffer = .ok bytes ∧
      stored = ⟨⟨key, bytes⟩, entry.expiresAt, entry.pinned⟩ := by
  unfold DeviceMemory.get at answered
  cases found : entries.lookup (key.cacheKey digest) with
  | none => simp [found] at answered
  | some entry =>
      rw [found] at answered
      dsimp only at answered
      cases read : (memory.download entry.buffer device).1 with
      | error fault => simp [read] at answered
      | ok bytes =>
          rw [read] at answered
          cases answered
          exact ⟨entry, bytes, rfl, read, rfl⟩

end

/-! ### What a `put` that fails leaves -/

section

variable (memory : DeviceMemory δ) (digest : Digest)

/-- **The entry is published, and the buffer it replaces cannot be freed.** -/
def DeviceMemory.ReplacesUnfreed (entry : KvTierEntry) (entries : DeviceEntries) (device : δ) : Prop :=
  let allocated := memory.allocate (UInt64.ofNat entry.block.bytes.bytes.length) device
  ∃ buffer old error, allocated.1 = .ok buffer ∧
    (memory.upload buffer entry.block.bytes allocated.2).1 = .ok () ∧
    entries.lookup (entry.block.key.cacheKey digest) = some old ∧
    (memory.free old.buffer (memory.upload buffer entry.block.bytes allocated.2).2).1 =
      .error (.error error)

variable {memory digest} {entry : KvTierEntry} {entries : DeviceEntries} {device filled : δ}
  {buffer : DeviceBuffer}

/-- An allocation that fails ends the `put`. -/
theorem put_refused {fault : Fault}
    (allocated : memory.allocate (UInt64.ofNat entry.block.bytes.bytes.length) device =
      (.error fault, filled)) :
    memory.put digest entry entries device = (.error fault, entries, filled) := by
  unfold DeviceMemory.put
  simp only [allocated]

/-- An upload that fails leaves the entries; the new buffer is freed. -/
theorem put_unfilled {error : IoError} {taken : δ}
    (allocated : memory.allocate (UInt64.ofNat entry.block.bytes.bytes.length) device =
      (.ok buffer, taken))
    (uploaded : memory.upload buffer entry.block.bytes taken = (.error (.error error), filled)) :
    (memory.put digest entry entries device).2 = (entries, (memory.free buffer filled).2) := by
  unfold DeviceMemory.put
  simp only [allocated, uploaded]
  rcases (memory.free buffer filled).1 with (_ | _) | _ <;> rfl

/-- An upload that succeeds is published. -/
theorem put_filled {taken : δ}
    (allocated : memory.allocate (UInt64.ofNat entry.block.bytes.bytes.length) device =
      (.ok buffer, taken))
    (uploaded : memory.upload buffer entry.block.bytes taken = (.ok (), filled)) :
    memory.put digest entry entries device = memory.publish digest entry buffer entries filled := by
  unfold DeviceMemory.put
  simp only [allocated, uploaded]

/-- What is published fails with the release of the entry that was there, if at all. -/
theorem publish_replaces {old : DeviceEntry}
    (found : entries.lookup (entry.block.key.cacheKey digest) = some old) :
    memory.publish digest entry buffer entries filled =
      ((memory.free old.buffer filled).1,
        entries.insert (entry.block.key.cacheKey digest) ⟨buffer, entry.expiresAt, entry.pinned⟩,
        (memory.free old.buffer filled).2) := by
  unfold DeviceMemory.publish
  simp only [found]

theorem publish_new (absent : entries.lookup (entry.block.key.cacheKey digest) = none) :
    (memory.publish digest entry buffer entries filled).1 = .ok () := by
  unfold DeviceMemory.publish
  simp only [absent]

/-- **Where the release fails**, the answer is an error, and the new entry is there. -/
theorem put_replacesUnfreed (replaces : memory.ReplacesUnfreed digest entry entries device) :
    ∃ buffer old error,
      (memory.allocate (UInt64.ofNat entry.block.bytes.bytes.length) device).1 = .ok buffer ∧
      entries.lookup (entry.block.key.cacheKey digest) = some old ∧
      memory.put digest entry entries device =
        (.error (.error error),
          entries.insert (entry.block.key.cacheKey digest) ⟨buffer, entry.expiresAt, entry.pinned⟩,
          (memory.put digest entry entries device).2.2) ∧
      (memory.Separates →
        (old.buffer.handle ≠ buffer.handle →
          memory.reads (memory.put digest entry entries device).2.2 buffer =
            .ok entry.block.bytes) ∧
        ∀ other : DeviceBuffer, other.handle ≠ buffer.handle → other.handle ≠ old.buffer.handle →
          memory.reads (memory.put digest entry entries device).2.2 other =
            memory.reads device other) := by
  obtain ⟨buffer, old, error, allocated, uploaded, found, freed⟩ := replaces
  have put_eq := (put_filled (Prod.ext allocated rfl) (Prod.ext uploaded rfl)).trans
    (publish_replaces found)
  refine ⟨buffer, old, error, allocated, found, ?_, fun separate => ⟨fun apart => ?_, ?_⟩⟩
  · rw [put_eq, freed]
  · rw [put_eq]
    exact (separate.frees _ _ _ apart.symm).trans (separate.fills _ _ _ uploaded)
  · intro other new replaced
    rw [put_eq]
    refine (separate.frees _ _ _ replaced).trans ((separate.uploads _ _ _ _ new).trans
      (separate.allocates _ _ _ fun taken same => ?_))
    rw [allocated] at same
    cases same
    exact new

/-- **Where it fails for another reason**, the entries are as they were, and so are their buffers. -/
theorem put_error_kept {error : IoError}
    (failed : (memory.put digest entry entries device).1 = .error (.error error))
    (unreplaced : ¬ memory.ReplacesUnfreed digest entry entries device) :
    (memory.put digest entry entries device).2.1 = entries ∧
      (memory.Separates → ∀ other,
        (∀ buffer, (memory.allocate (UInt64.ofNat entry.block.bytes.bytes.length) device).1 =
          .ok buffer → other.handle ≠ buffer.handle) →
        memory.reads (memory.put digest entry entries device).2.2 other =
          memory.reads device other) := by
  cases allocated : (memory.allocate (UInt64.ofNat entry.block.bytes.bytes.length) device).1 with
  | error fault =>
      rw [put_refused (Prod.ext allocated rfl)]
      refine ⟨rfl, fun separate other apart => separate.allocates _ _ _ fun buffer same => ?_⟩
      rw [allocated] at same
      cases same
  | ok buffer =>
      rcases uploaded : (memory.upload buffer entry.block.bytes
        (memory.allocate (UInt64.ofNat entry.block.bytes.bytes.length) device).2).1 with
        (fault | _) | _
      · rw [put_unfilled (Prod.ext allocated rfl) (Prod.ext uploaded rfl)]
        refine ⟨rfl, fun separate other apart => ?_⟩
        exact (separate.frees _ _ _ (apart buffer rfl)).trans
          ((separate.uploads _ _ _ _ (apart buffer rfl)).trans
            (separate.allocates _ _ _ fun taken same => apart taken (allocated.symm.trans same)))
      · exfalso
        unfold DeviceMemory.put at failed
        simp only [allocated, uploaded] at failed
        cases failed
      · rw [put_filled (Prod.ext allocated rfl) (Prod.ext uploaded rfl)] at failed
        cases found : entries.lookup (entry.block.key.cacheKey digest) with
        | none =>
            rw [publish_new found] at failed
            cases failed
        | some old =>
            rw [publish_replaces found] at failed
            exact absurd ⟨buffer, old, error, allocated, uploaded, found, failed⟩ unreplaced

end

/-- **A `put` that fails.** In every state that a run reaches, a `put` that returns an error leaves what every
`get` answers, unless it fails because it cannot free the buffer of the entry it has replaced, and that entry
was not the same. -/
theorem put_error_unchanged_iff (memory : DeviceMemory δ) (digest : Digest)
    (separate : memory.Separates) {start : δ} {state : DeviceKvTier δ}
    (reached : Reaches (DeviceKvTier.step memory digest) memory.HandsOutUnused (.new start) state)
    (entry : KvTierEntry) (unused : state.Unused memory entry) :
    ((∃ error, (memory.put digest entry state.entries state.device).1 = .error (.error error)) →
      ∀ key, (memory.get digest key (memory.put digest entry state.entries state.device).2.1
          (memory.put digest entry state.entries state.device).2.2).1 =
        (memory.get digest key state.entries state.device).1) ↔
    (memory.ReplacesUnfreed digest entry state.entries state.device →
      (memory.get digest entry.block.key state.entries state.device).1 = .ok (some entry)) := by
  have tier_owns : ∀ name stored, state.entries.lookup name = some stored →
      state.owned (.tier name) = some stored.buffer :=
    fun name stored found => congrArg (Option.map DeviceEntry.buffer) found
  -- what `get` answers under the cache key of the entry, once it is published
  have published : ∀ {buffer device}, memory.reads device buffer = .ok entry.block.bytes →
      ∀ key, key.cacheKey digest = entry.block.key.cacheKey digest →
        (memory.get digest key (state.entries.insert (entry.block.key.cacheKey digest)
          ⟨buffer, entry.expiresAt, entry.pinned⟩) device).1 =
            .ok (some ⟨⟨key, entry.block.bytes⟩, entry.expiresAt, entry.pinned⟩) := by
    intro buffer device read key named
    have there : (state.entries.insert (entry.block.key.cacheKey digest)
        ⟨buffer, entry.expiresAt, entry.pinned⟩).lookup (key.cacheKey digest) =
          some ⟨buffer, entry.expiresAt, entry.pinned⟩ := by
      rw [named]
      exact AList.lookup_insert _
    exact get_of_lookup there read
  constructor
  · intro unchanged replaces
    obtain ⟨buffer, old, error, allocated, found, put_eq, reads⟩ := put_replacesUnfreed replaces
    have filled := (reads separate).1 (unused buffer allocated _ _ (tier_owns _ old found))
    rw [← unchanged ⟨error, by rw [put_eq]⟩, congrArg (fun left => left.2.1) put_eq]
    exact published filled _ rfl
  · rintro same ⟨error, failed⟩ key
    by_cases replaces : memory.ReplacesUnfreed digest entry state.entries state.device
    · obtain ⟨buffer, old, error, allocated, found, put_eq, reads⟩ := put_replacesUnfreed replaces
      obtain ⟨filled, apart⟩ := reads separate
      rw [congrArg (fun left => left.2.1) put_eq]
      by_cases named : key.cacheKey digest = entry.block.key.cacheKey digest
      · -- the entry that was there is the one that was put
        obtain ⟨stored, bytes, there, read, stored_eq⟩ := lookup_of_get (same replaces)
        have put_bytes : entry.block.bytes = bytes := congrArg (fun put => put.block.bytes) stored_eq
        rw [published (filled (unused buffer allocated _ _ (tier_owns _ old found))) key named,
          get_of_lookup (named ▸ there) read, put_bytes,
          congrArg KvTierEntry.expiresAt stored_eq, congrArg KvTierEntry.pinned stored_eq]
      · refine get_congr (AList.lookup_insert_ne named) fun stored there => apart _ ?_ ?_
        · exact unused buffer allocated _ _ (tier_owns _ stored there)
        · exact (sole_reached reached).apart (fun equal => named (DeviceOwner.tier.inj equal))
            (tier_owns _ stored there) (tier_owns _ old found)
    · obtain ⟨entries_eq, reads⟩ := put_error_kept failed replaces
      refine get_congr (congrArg _ entries_eq) fun stored found => ?_
      exact reads separate _ fun buffer allocated =>
        unused buffer allocated _ _ (tier_owns _ stored found)

/-! ### A device that frees nothing -/

/-- A host device that refuses to free. -/
def unfreeingMemory : DeviceMemory HostBuffers :=
  { hostDeviceMemory "host" with
    free := fun _ device => (.error (.error ⟨.other, "device is busy"⟩), device) }

theorem download_congr {device after : HostBuffers} {buffer : DeviceBuffer}
    (same : after.buffers.lookup buffer.handle = device.buffers.lookup buffer.handle) :
    unfreeingMemory.reads after buffer = unfreeingMemory.reads device buffer := by
  show (HostDeviceMemory.download buffer after).1 = (HostDeviceMemory.download buffer device).1
  unfold HostDeviceMemory.download
  rw [same]
  cases device.buffers.lookup buffer.handle with
  | none => rfl
  | some bytes => dsimp only; split <;> rfl

/-- It keeps its buffers apart. -/
theorem unfreeingMemory_separates : unfreeingMemory.Separates where
  allocates len device other apart := by
    refine download_congr ?_
    change (∀ buffer, (HostDeviceMemory.allocate len device).1 = .ok buffer → _) at apart
    show (HostDeviceMemory.allocate len device).2.buffers.lookup other.handle = _
    unfold HostDeviceMemory.allocate at apart ⊢
    split at apart
    case isTrue empty => rw [if_pos empty]
    case isFalse some_bytes =>
      split at apart
      case isTrue large => rw [if_neg some_bytes, if_pos large]
      case isFalse small =>
        rw [if_neg some_bytes, if_neg small]
        exact AList.lookup_insert_ne (apart _ rfl)
  uploads buffer bytes device other apart := by
    refine download_congr ?_
    show (HostDeviceMemory.upload buffer bytes device).2.buffers.lookup other.handle = _
    unfold HostDeviceMemory.upload
    split
    · rfl
    · split
      · rfl
      · split
        · rfl
        · exact AList.lookup_insert_ne apart
  fills buffer bytes device uploaded := by
    change (HostDeviceMemory.upload buffer bytes device).1 = .ok () at uploaded
    show (HostDeviceMemory.download buffer (HostDeviceMemory.upload buffer bytes device).2).1 = _
    unfold HostDeviceMemory.upload at uploaded ⊢
    split at uploaded
    case isTrue => cases uploaded
    case isFalse size =>
      rw [if_neg size]
      cases found : device.buffers.lookup buffer.handle with
      | none => simp [found] at uploaded
      | some slot =>
          by_cases long : slot.bytes.length ≠ bytes.bytes.length
          · simp [found, long] at uploaded
          · dsimp only
            rw [if_neg long]
            unfold HostDeviceMemory.download
            dsimp only
            rw [AList.lookup_insert]
            dsimp only
            rw [if_neg size]
  frees buffer device other apart := rfl

/-- A block that was put, and another one of the same key. -/
def replacingEntry : KvTierEntry := ⟨⟨KvBlockKey.sample, ⟨[8], by decide⟩⟩, 0, false⟩

/-- A tier on it, with a block that was put. -/
def unfreeingTier : DeviceKvTier HostBuffers :=
  putSteps.foldl (fun state label => DeviceKvTier.step unfreeingMemory zeroDigest label state)
    (.new HostDeviceMemory.empty)

/-- **A `put` returns an error and has replaced the block**: a `get` returned the first one before and returns
the second one afterwards. -/
theorem put_error_replaces :
    let after := unfreeingMemory.put zeroDigest replacingEntry unfreeingTier.entries
      unfreeingTier.device
    after.1 = .error (.error ⟨.other, "device is busy"⟩) ∧
    (unfreeingMemory.get zeroDigest KvBlockKey.sample unfreeingTier.entries
      unfreeingTier.device).1 = .ok (some deviceEntry) ∧
    (unfreeingMemory.get zeroDigest KvBlockKey.sample after.2.1 after.2.2).1 =
      .ok (some replacingEntry) ∧
    deviceEntry ≠ replacingEntry :=
  ⟨rfl, rfl, rfl, fun same => by
    have bytes := congrArg (fun entry => entry.block.bytes.bytes) same
    exact absurd bytes (by decide)⟩

/-- The tier is reached, with a device that hands out handles which are not in use. -/
theorem unfreeingTier_reached : Reaches (DeviceKvTier.step unfreeingMemory zeroDigest)
    unfreeingMemory.HandsOutUnused (.new HostDeviceMemory.empty) unfreeingTier := by
  refine Reaches.ofList ⟨trivial, ?_, ?_, ?_, trivial⟩
  · intro call entry standing buffer allocated owner held owns
    cases owner with
    | tier name => cases owns
    | call id slot =>
        by_cases putting : id = 0
        · subst putting
          cases slot <;> cases owns
        · have begun : (DeviceKvTier.step unfreeingMemory zeroDigest (.begin 0 (.put deviceEntry))
              (.new HostDeviceMemory.empty)).calls id = none := Function.update_of_ne putting _ _
          rw [owned_uncalled begun] at owns
          cases owns
  · intro call entry standing
    cases standing
  · intro call entry standing
    cases standing

/-- The second `put` is given a handle of its own. -/
theorem unfreeingTier_unused : unfreeingTier.Unused unfreeingMemory replacingEntry := by
  intro buffer allocated owner held owns
  cases allocated
  have first : held = ⟨1, 1⟩ := by
    cases owner with
    | tier name =>
        have entries : unfreeingTier.entries =
            (∅ : DeviceEntries).insert (KvBlockKey.sample.cacheKey zeroDigest)
              ⟨⟨1, 1⟩, 0, false⟩ := rfl
        rw [DeviceKvTier.owned, entries, lookup_insert_eq] at owns
        split at owns <;> cases owns
        rfl
    | call id slot =>
        by_cases putting : id = 0
        · subst putting
          cases owns
        · rw [owned_uncalled (calls_foldl_other putSteps
            (by simp [putSteps, DeviceLabel.caller, Ne.symm putting]))] at owns
          cases owns
  rw [first]
  decide

/-- **The second `put`**, which fails because the first buffer is not freed. -/
theorem put_error_unchanged_replacing :
    ((∃ error, (unfreeingMemory.put zeroDigest replacingEntry unfreeingTier.entries
        unfreeingTier.device).1 = .error (.error error)) →
      ∀ key, (unfreeingMemory.get zeroDigest key
          (unfreeingMemory.put zeroDigest replacingEntry unfreeingTier.entries
            unfreeingTier.device).2.1
          (unfreeingMemory.put zeroDigest replacingEntry unfreeingTier.entries
            unfreeingTier.device).2.2).1 =
        (unfreeingMemory.get zeroDigest key unfreeingTier.entries unfreeingTier.device).1) ↔
    (unfreeingMemory.ReplacesUnfreed zeroDigest replacingEntry unfreeingTier.entries
        unfreeingTier.device →
      (unfreeingMemory.get zeroDigest KvBlockKey.sample unfreeingTier.entries
        unfreeingTier.device).1 = .ok (some replacingEntry)) :=
  put_error_unchanged_iff unfreeingMemory zeroDigest unfreeingMemory_separates unfreeingTier_reached
    replacingEntry unfreeingTier_unused

end RivetCache
