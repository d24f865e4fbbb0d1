/-
**What a `get` of a device tier returns.**

`get` copies an entry under the lock and downloads its buffer afterwards. Where no call frees that buffer
in between, the answer is what the tier held at the lookup (`get_linearizable`). A `put`, a `remove` or a
`clear` in between frees it (`freed_under_get`).
-/

import RivetCache.Device.Sound
import RivetCache.Kv.Tier

set_option linter.unusedSectionVars false

namespace RivetCache

open Library

variable {δ : Type} {memory : DeviceMemory δ} {held : δ → UInt64 → Option Payload}
  {digest : Digest} {state : DeviceKvTier δ} {id : Nat} {key : KvBlockKey}

/-! ### Runs -/

/-- The call has copied an entry with this buffer, and has not yet downloaded it. -/
def DeviceKvTier.Copied (state : DeviceKvTier δ) (id : Nat) (buffer : DeviceBuffer) : Prop :=
  ∃ call key entry, state.calls id = some (call, .getDownload key entry) ∧
    entry.buffer.handle = buffer.handle

/-- **The steps of a run** around a `get` of `key`, the call `id`. No step frees the buffer that the call
has copied. The rest is what the device and the digest promise: a handle that is handed out is not in
use, and what is put under the cache key of `key` has that key. -/
def Undisturbed (memory : DeviceMemory δ) (held : δ → UInt64 → Option Payload) (digest : Digest)
    (id : Nat) (key : KvBlockKey) : DeviceLabel → DeviceKvTier δ → Prop
  | .begin _ (.put entry), _ =>
      entry.block.key.cacheKey digest = key.cacheKey digest → entry.block.key = key
  | .begin _ _, _ => True
  | .advance other pick, state => ∀ call phase, state.calls other = some (call, phase) →
      FreshHandle memory held state.device phase ∧
        ∀ buffer, phase.frees pick = some buffer → ¬ state.Copied id buffer

/-- **What a tier holds** for a key: no entry, or one that carries what a `put` of the key gave it. -/
def DeviceKvTier.Holds (held : δ → UInt64 → Option Payload) (digest : Digest)
    (state : DeviceKvTier δ) (key : KvBlockKey) : Option KvTierEntry → Prop
  | none => state.entries.lookup (key.cacheKey digest) = none
  | some written => state.Put written ∧ written.block.key = key ∧
      ∃ entry, state.entries.lookup (key.cacheKey digest) = some entry ∧
        EntryCarries held state.device entry written

/-- What is put under the cache key has the key. -/
def NamedApart (digest : Digest) (key : KvBlockKey) (state : DeviceKvTier δ) : Prop :=
  ∀ written, state.Put written → written.block.key.cacheKey digest = key.cacheKey digest →
    written.block.key = key

/-! ### The invariants along a run -/

theorem put_of_move {call : DeviceCall} {phase : DevicePhase} {moved : DeviceMove δ}
    (standing : state.calls id = some (call, phase)) {written : KvTierEntry}
    (put : (state.move id call moved).Put written) : state.Put written := by
  obtain ⟨other, stands, there⟩ := put
  by_cases own : other = id
  · subst own
    rw [calls_move_self] at there
    cases there
    exact ⟨other, phase, standing⟩
  · rw [calls_move_other own] at there
    exact ⟨other, stands, there⟩

/-- **The invariants of a run.** -/
theorem undisturbed_sound (documented : memory.Documented held) {start : DeviceKvTier δ}
    (sound : Sound held digest start) (named : NamedApart digest key start)
    (reached : Reaches (DeviceKvTier.step memory digest) (Undisturbed memory held digest id key)
      start state) : Sound held digest state ∧ NamedApart digest key state := by
  refine reached.invariant (fun state => Sound held digest state ∧ NamedApart digest key state)
    ⟨sound, named⟩ (fun label state holds permitted => ⟨?_, ?_⟩)
  · refine sound_step documented holds.1 label fun other pick call phase same standing => ?_
    subst same
    exact (permitted call phase standing).1
  · intro written put
    cases label with
    | begin other call =>
        unfold DeviceKvTier.step at put
        dsimp only at put
        split at put
        · exact holds.2 written put
        · obtain ⟨caller, stands, there⟩ := put
          change Function.update _ _ _ caller = _ at there
          by_cases own : caller = other
          · rw [own, Function.update_self] at there
            cases there
            exact permitted
          · rw [Function.update_of_ne own] at there
            exact holds.2 written ⟨caller, stands, there⟩
    | advance other pick =>
        unfold DeviceKvTier.step at put
        dsimp only at put
        split at put
        · exact holds.2 written put
        · exact holds.2 written (put_of_move ‹_› put)

/-! ### The call -/

/-- A `put` before its upload has a buffer that was just allocated. -/
theorem next_putUpload {phase : DevicePhase} {pick : List UInt8} {filled : KvTierEntry}
    {buffer : DeviceBuffer}
    (after : (phase.next memory digest pick state.entries state.device).phase =
      .putUpload filled buffer) :
    phase = .putAllocate filled ∧
      (memory.allocate (UInt64.ofNat filled.block.bytes.bytes.length) state.device).1 =
        .ok buffer := by
  cases phase with
  | putAllocate entry =>
      change DevicePhase.allocated entry _ = _ at after
      cases answered : (memory.allocate (UInt64.ofNat entry.block.bytes.bytes.length)
          state.device).1 with
      | error fault =>
          rw [answered] at after
          cases after
      | ok made =>
          rw [answered] at after
          cases after
          exact ⟨rfl, answered⟩
  | getLookup key =>
      change DevicePhase.lookUp digest key state.entries = _ at after
      unfold DevicePhase.lookUp at after
      split at after <;> cases after
  | getDownload key entry =>
      change DevicePhase.downloaded key entry _ = _ at after
      unfold DevicePhase.downloaded at after
      split at after <;> cases after
  | putUpload entry old =>
      change DevicePhase.uploaded entry old _ = _ at after
      unfold DevicePhase.uploaded at after
      split at after <;> cases after
  | putInsert entry old =>
      change DevicePhase.afterReplaced _ = _ at after
      unfold DevicePhase.afterReplaced at after
      split at after <;> cases after
  | putFailed old error =>
      change DevicePhase.released error _ = _ at after
      unfold DevicePhase.released at after
      split at after <;> cases after
  | removeTake key =>
      change DevicePhase.afterReplaced _ = _ at after
      unfold DevicePhase.afterReplaced at after
      split at after <;> cases after
  | clearing drained firstError =>
      unfold DevicePhase.next at after
      dsimp only at after
      split at after
      · unfold DevicePhase.cleared at after
        dsimp only at after
        split at after <;> cases after
      · split at after <;> cases after
  | got result => cases after
  | freeing old => cases after
  | clearDrain => cases after
  | ended result => cases after

/-- **Where a `get` stands** that began in `before`, and what it has seen. -/
inductive GetStands (memory : DeviceMemory δ) (held : δ → UInt64 → Option Payload)
    (digest : Digest) (id : Nat) (key : KvBlockKey) (before state : DeviceKvTier δ) : Prop
  | looking (standing : state.calls id = some (.get key, .getLookup key))
  | downloading (entry : DeviceEntry) (written : KvTierEntry) (middle : DeviceKvTier δ)
      (standing : state.calls id = some (.get key, .getDownload key entry))
      (earlier : Reaches (DeviceKvTier.step memory digest)
        (Undisturbed memory held digest id key) before middle)
      (later : Reaches (DeviceKvTier.step memory digest)
        (Undisturbed memory held digest id key) middle state)
      (seen : middle.Holds held digest key (some written))
      (carries : EntryCarries held state.device entry written)
      (unfilled : ∀ other call filled buffer,
        state.calls other = some (call, .putUpload filled buffer) →
          buffer.handle ≠ entry.buffer.handle)
  | ended (answer : Option KvTierEntry) (middle : DeviceKvTier δ)
      (standing : state.calls id = some (.get key, .got (.ok answer)))
      (earlier : Reaches (DeviceKvTier.step memory digest)
        (Undisturbed memory held digest id key) before middle)
      (later : Reaches (DeviceKvTier.step memory digest)
        (Undisturbed memory held digest id key) middle state)
      (seen : middle.Holds held digest key answer)

section

variable (documented : memory.Documented held) {before : DeviceKvTier δ}
  (sound : Sound held digest state) (named : NamedApart digest key state)
  (reached : Reaches (DeviceKvTier.step memory digest) (Undisturbed memory held digest id key)
    before state) (stands : GetStands memory held digest id key before state)

include documented sound named reached stands

/-- **A step of the `get`.** -/
theorem getStands_own (pick : List UInt8)
    (permitted : Undisturbed memory held digest id key (.advance id pick) state) :
    GetStands memory held digest id key before
      (DeviceKvTier.step memory digest (.advance id pick) state) := by
  have one : Reaches (DeviceKvTier.step memory digest) (Undisturbed memory held digest id key)
      state (DeviceKvTier.step memory digest (.advance id pick) state) :=
    Reaches.refl.next _ permitted
  have moves : ∀ phase, state.calls id = some (.get key, phase) →
      DeviceKvTier.step memory digest (.advance id pick) state =
        state.move id (.get key)
          (phase.next memory digest pick state.entries state.device) := by
    intro phase standing
    unfold DeviceKvTier.step
    dsimp only
    rw [standing]
  cases stands with
  | looking standing =>
      cases found : state.entries.lookup (key.cacheKey digest) with
      | none =>
          refine .ended none state ?_ reached one found
          rw [moves _ standing, calls_move_self]
          show some (_, DevicePhase.lookUp digest key state.entries) = _
          unfold DevicePhase.lookUp
          rw [found]
      | some entry =>
          obtain ⟨written, put, same, carries⟩ := sound.stored _ entry found
          have calls_eq : (DeviceKvTier.step memory digest (.advance id pick) state).calls id =
              some (.get key, .getDownload key entry) := by
            rw [moves _ standing, calls_move_self]
            show some (_, DevicePhase.lookUp digest key state.entries) = _
            unfold DevicePhase.lookUp
            rw [found]
          refine .downloading entry written state calls_eq reached one
            ⟨put, named written put same, entry, found, carries⟩ ?_ ?_
          · rw [moves _ standing]
            exact carries
          · intro other call filled buffer there
            -- the entry and the call that fills a buffer are two owners
            by_cases own : other = id
            · rw [own, calls_eq] at there
              cases there
            · rw [moves _ standing, calls_move_other own] at there
              have owns : state.owned (.tier (key.cacheKey digest)) = some entry.buffer :=
                congrArg (Option.map DeviceEntry.buffer) found
              exact sound.sole.apart (notOf_tier _ _).symm (owned_call there []) owns
  | downloading entry written middle standing earlier later seen carries unfilled =>
      refine .ended (some written) middle ?_ earlier (later.trans one) seen
      rw [moves _ standing, calls_move_self]
      show some (_, DevicePhase.downloaded key entry
        (memory.download entry.buffer state.device).1) = _
      rw [documented.downloads _ _ _ carries.bytes carries.size]
      unfold DevicePhase.downloaded
      dsimp only
      rw [carries.expiresAt, carries.pinned, ← seen.2.1]
  | ended answer middle standing earlier later seen =>
      refine .ended answer middle ?_ earlier (later.trans one) seen
      rw [moves _ standing, calls_move_self]
      rfl

omit named reached in
/-- **A step of another call.** The buffer that was copied keeps its bytes: it is not freed, what is
filled is another one, and what is handed out is not in use. -/
theorem getStands_other {other : Nat} (different : other ≠ id) (pick : List UInt8)
    (permitted : Undisturbed memory held digest id key (.advance other pick) state) :
    GetStands memory held digest id key before
      (DeviceKvTier.step memory digest (.advance other pick) state) := by
  have one : Reaches (DeviceKvTier.step memory digest) (Undisturbed memory held digest id key)
      state (DeviceKvTier.step memory digest (.advance other pick) state) :=
    Reaches.refl.next _ permitted
  cases standing_other : state.calls other with
  | none =>
      have same : DeviceKvTier.step memory digest (.advance other pick) state = state := by
        unfold DeviceKvTier.step
        dsimp only
        rw [standing_other]
      rw [same]
      exact stands
  | some standing_call =>
      obtain ⟨call, phase⟩ := standing_call
      obtain ⟨fresh, unfreed⟩ := permitted call phase standing_other
      have moves : DeviceKvTier.step memory digest (.advance other pick) state =
          state.move other call
            (phase.next memory digest pick state.entries state.device) := by
        unfold DeviceKvTier.step
        dsimp only
        rw [standing_other]
      rw [moves] at one ⊢
      have still : (state.move other call
          (phase.next memory digest pick state.entries state.device)).calls id = state.calls id :=
        calls_move_other different.symm
      cases stands with
      | looking standing => exact .looking (still.trans standing)
      | ended answer middle standing earlier later seen =>
          exact .ended answer middle (still.trans standing) earlier (later.trans one) seen
      | downloading entry written middle standing earlier later seen carries unfilled =>
          refine .downloading entry written middle (still.trans standing) earlier (later.trans one)
            seen (carries.congr ?_) ?_
          · refine next_held documented sound standing_other pick fresh
              (by rw [carries.bytes]; exact Option.some_ne_none _) ?_ ?_
            · rintro filled buffer rfl
              exact unfilled other call filled buffer standing_other
            · intro buffer freed same
              exact unfreed buffer freed ⟨_, key, entry, standing, same.symm⟩
          · intro caller call' filled buffer there
            by_cases own : caller = other
            · subst own
              rw [calls_move_self] at there
              obtain ⟨rfl, allocated⟩ := next_putUpload (Prod.mk.inj (Option.some.inj there)).2
              have unused := fresh filled buffer rfl allocated
              intro same
              rw [same, carries.bytes] at unused
              cases unused
            · rw [calls_move_other own] at there
              exact unfilled caller call' filled buffer there

omit documented sound named reached in
/-- Another call begins. -/
theorem getStands_begin (other : Nat) (call : DeviceCall)
    (permitted : Undisturbed memory held digest id key (.begin other call) state) :
    GetStands memory held digest id key before
      (DeviceKvTier.step memory digest (.begin other call) state) := by
  have one : Reaches (DeviceKvTier.step memory digest) (Undisturbed memory held digest id key)
      state (DeviceKvTier.step memory digest (.begin other call) state) :=
    Reaches.refl.next _ permitted
  cases idle : state.calls other with
  | some standing_call =>
      have same : DeviceKvTier.step memory digest (.begin other call) state = state := by
        unfold DeviceKvTier.step
        dsimp only
        rw [idle]
      rw [same]
      exact stands
  | none =>
      have begins : DeviceKvTier.step memory digest (.begin other call) state =
          { state with calls := Function.update state.calls other (some (call, call.start)) } := by
        unfold DeviceKvTier.step
        dsimp only
        rw [idle]
      rw [begins] at one ⊢
      have still : ∀ {standing}, state.calls id = some standing →
          Function.update state.calls other (some (call, call.start)) id = some standing := by
        intro standing there
        rw [Function.update_of_ne (fun own => by rw [own, idle] at there; cases there)]
        exact there
      cases stands with
      | looking standing => exact .looking (still standing)
      | ended answer middle standing earlier later seen =>
          exact .ended answer middle (still standing) earlier (later.trans one) seen
      | downloading entry written middle standing earlier later seen carries unfilled =>
          refine .downloading entry written middle (still standing) earlier (later.trans one)
            seen carries ?_
          intro caller call' filled buffer there
          change Function.update _ _ _ caller = _ at there
          by_cases own : caller = other
          · rw [own, Function.update_self] at there
            cases call <;> cases there
          · rw [Function.update_of_ne own] at there
            exact unfilled caller call' filled buffer there

end

theorem calls_advance (memory : DeviceMemory δ) (digest : Digest) {call : DeviceCall}
    {phase : DevicePhase} (standing : state.calls id = some (call, phase)) (pick : List UInt8) :
    (DeviceKvTier.step memory digest (.advance id pick) state).calls id =
      some (call, (phase.next memory digest pick state.entries state.device).phase) := by
  unfold DeviceKvTier.step
  dsimp only
  rw [standing]
  exact calls_move_self

theorem downloaded_got (key : KvBlockKey) (entry : DeviceEntry) (answer : Except Fault Payload) :
    ∃ result, DevicePhase.downloaded key entry answer = .got result := by
  cases answer with
  | error fault => exact ⟨_, rfl⟩
  | ok bytes => exact ⟨_, rfl⟩

/-- **A `get` takes two steps**: the call has ended after them. -/
theorem get_ends {before : DeviceKvTier δ} (stands : GetStands memory held digest id key before state)
    (first second : List UInt8) :
    ∃ result, (DeviceKvTier.step memory digest (.advance id second)
      (DeviceKvTier.step memory digest (.advance id first) state)).calls id =
        some (.get key, .got result) := by
  have after_got : ∀ {result}, (DeviceKvTier.step memory digest (.advance id first) state).calls id =
      some (.get key, .got result) →
      (DeviceKvTier.step memory digest (.advance id second)
        (DeviceKvTier.step memory digest (.advance id first) state)).calls id =
          some (.get key, .got result) := fun standing => calls_advance memory digest standing second
  cases stands with
  | looking standing =>
      have one := calls_advance memory digest standing first
      change _ = some (_, DevicePhase.lookUp digest key state.entries) at one
      unfold DevicePhase.lookUp at one
      cases found : state.entries.lookup (key.cacheKey digest) with
      | none =>
          rw [found] at one
          exact ⟨_, after_got one⟩
      | some entry =>
          rw [found] at one
          obtain ⟨result, same⟩ := downloaded_got key entry (memory.download entry.buffer
            (DeviceKvTier.step memory digest (.advance id first) state).device).1
          exact ⟨result, (calls_advance memory digest one second).trans (congrArg (fun phase =>
            some (DeviceCall.get key, phase)) same)⟩
  | downloading entry written middle standing earlier later seen carries unfilled =>
      have one := calls_advance memory digest standing first
      obtain ⟨result, same⟩ := downloaded_got key entry
        (memory.download entry.buffer state.device).1
      exact ⟨result, after_got (one.trans (congrArg (fun phase =>
        some (DeviceCall.get key, phase)) same))⟩
  | ended answer middle standing earlier later seen =>
      exact ⟨.ok answer, after_got (calls_advance memory digest standing first)⟩

/-! ### Linearizability -/

/-- **When a `get` is linearizable.** In every run in which no call frees the buffer that the `get` has
copied before the `get` has downloaded it, the `get` returns `Ok`, and its answer is what the tier held
for the key at some moment of the call; two steps of its own end it. -/
theorem get_linearizable (documented : memory.Documented held) {device : δ}
    {before after : DeviceKvTier δ}
    (started : Reaches (DeviceKvTier.step memory digest) (Undisturbed memory held digest id key)
      (.new device) before)
    (begun : before.calls id = some (.get key, .getLookup key))
    (run : Reaches (DeviceKvTier.step memory digest) (Undisturbed memory held digest id key)
      before after) :
    (∀ result, after.calls id = some (.get key, .got result) →
      ∃ answer middle, result = .ok answer ∧
        Reaches (DeviceKvTier.step memory digest) (Undisturbed memory held digest id key)
          before middle ∧
        Reaches (DeviceKvTier.step memory digest) (Undisturbed memory held digest id key)
          middle after ∧
        middle.Holds held digest key answer) ∧
    ∀ first second, ∃ result, (DeviceKvTier.step memory digest (.advance id second)
      (DeviceKvTier.step memory digest (.advance id first) after)).calls id =
        some (.get key, .got result) := by
  have unnamed : NamedApart digest key (DeviceKvTier.new device) := by
    rintro written ⟨other, phase, there⟩
    cases there
  obtain ⟨sound, named⟩ := undisturbed_sound documented (sound_new device) unnamed started
  have stands : GetStands memory held digest id key before after := by
    induction run with
    | refl => exact .looking begun
    | @step state label reached permitted ih =>
        obtain ⟨sound_here, named_here⟩ := undisturbed_sound documented sound named reached
        cases label with
        | begin other call => exact getStands_begin ih other call permitted
        | advance other pick =>
            by_cases own : other = id
            · subst own
              exact getStands_own documented sound_here named_here reached ih pick permitted
            · exact getStands_other documented sound_here ih own pick permitted
  refine ⟨fun result ended => ?_, get_ends stands⟩
  cases stands with
  | looking standing =>
      rw [standing] at ended
      cases ended
  | downloading entry written middle standing earlier later seen carries unfilled =>
      rw [standing] at ended
      cases ended
  | ended answer middle standing earlier later seen =>
      rw [standing] at ended
      cases ended
      exact ⟨answer, middle, rfl, earlier, later, seen⟩

/-! ### A buffer that is freed in between -/

/-- A block that was put. -/
def deviceEntry : KvTierEntry := ⟨⟨KvBlockKey.sample, ⟨[7], by decide⟩⟩, 0, false⟩

/-- A tier on a host device. -/
def deviceStep : DeviceLabel → DeviceKvTier HostBuffers → DeviceKvTier HostBuffers :=
  DeviceKvTier.step (hostDeviceMemory "host") zeroDigest

/-- The steps of a `put`, the call `0`. -/
def putSteps : List DeviceLabel :=
  [.begin 0 (.put deviceEntry), .advance 0 [], .advance 0 [], .advance 0 []]

/-- A `remove` between the lookup and the download of a `get`. -/
def removeUnderGet : List DeviceLabel :=
  [.begin 1 (.get KvBlockKey.sample), .advance 1 [], .begin 2 (.remove KvBlockKey.sample),
    .advance 2 [], .advance 2 [], .advance 1 []]

/-- **The buffer is freed underneath a `get`**, which fails. -/
theorem freed_under_get :
    Reaches deviceStep (fun _ _ => True) (.new HostDeviceMemory.empty)
      ((putSteps ++ removeUnderGet).foldl (fun state label => deviceStep label state)
        (.new HostDeviceMemory.empty)) ∧
    ((putSteps ++ removeUnderGet).foldl (fun state label => deviceStep label state)
        (.new HostDeviceMemory.empty)).calls 1 =
      some (.get KvBlockKey.sample,
        .got (.error (.error ⟨.notFound, "device buffer not found"⟩))) :=
  ⟨Reaches.foldl (fun _ _ => trivial) _ _, rfl⟩

/-- A step that allocates and frees nothing. -/
theorem undisturbed_advance {other : Nat} {call : DeviceCall} {phase : DevicePhase}
    {pick : List UInt8} (standing : state.calls other = some (call, phase))
    (fresh : FreshHandle memory held state.device phase) (kept : phase.frees pick = none) :
    Undisturbed memory held digest id key (.advance other pick) state := by
  intro call' phase' there
  rw [standing] at there
  cases there
  refine ⟨fresh, fun buffer freed => ?_⟩
  rw [kept] at freed
  cases freed

/-- The steps of a `get`, the call `1`. -/
def getSteps : List DeviceLabel := [.advance 1 [], .advance 1 []]

/-- The tier when the `get` begins. -/
def getBegins : DeviceKvTier HostBuffers :=
  (putSteps ++ [DeviceLabel.begin 1 (.get KvBlockKey.sample)]).foldl
    (fun state label => deviceStep label state) (.new HostDeviceMemory.empty)

/-- **A `get` that nothing disturbs** returns what was put. -/
theorem get_linearizable_alone :
    ∃ answer middle, (.ok (some deviceEntry) : Except Fault (Option KvTierEntry)) = .ok answer ∧
      Reaches deviceStep
        (Undisturbed (hostDeviceMemory "host") HostBuffers.held zeroDigest 1 KvBlockKey.sample)
        getBegins middle ∧
      Reaches deviceStep
        (Undisturbed (hostDeviceMemory "host") HostBuffers.held zeroDigest 1 KvBlockKey.sample)
        middle (getSteps.foldl (fun state label => deviceStep label state) getBegins) ∧
      middle.Holds HostBuffers.held zeroDigest KvBlockKey.sample answer := by
  have idle : ∀ {phase : DevicePhase} {device : HostBuffers},
      (∀ entry, phase ≠ .putAllocate entry) →
        FreshHandle (hostDeviceMemory "host") HostBuffers.held device phase :=
    fun other entry buffer same => absurd same (other entry)
  have started : Reaches deviceStep
      (Undisturbed (hostDeviceMemory "host") HostBuffers.held zeroDigest 1 KvBlockKey.sample)
      (.new HostDeviceMemory.empty) getBegins := by
    refine ((((Reaches.refl.next (DeviceLabel.begin 0 (.put deviceEntry)) fun _ => rfl).next
      (DeviceLabel.advance 0 []) ?_).next (DeviceLabel.advance 0 []) ?_).next
        (DeviceLabel.advance 0 []) ?_).next
          (DeviceLabel.begin 1 (.get KvBlockKey.sample)) trivial
    · exact undisturbed_advance rfl (fun entry buffer same allocated => rfl) rfl
    · exact undisturbed_advance rfl (idle fun entry same => by cases same) rfl
    · exact undisturbed_advance rfl (idle fun entry same => by cases same) rfl
  have run : Reaches deviceStep
      (Undisturbed (hostDeviceMemory "host") HostBuffers.held zeroDigest 1 KvBlockKey.sample)
      getBegins (getSteps.foldl (fun state label => deviceStep label state) getBegins) := by
    refine (Reaches.refl.next (DeviceLabel.advance 1 []) ?_).next (DeviceLabel.advance 1 []) ?_
    · exact undisturbed_advance rfl (idle fun entry same => by cases same) rfl
    · exact undisturbed_advance rfl (idle fun entry same => by cases same) rfl
  have ended : (getSteps.foldl (fun state label => deviceStep label state) getBegins).calls 1 =
      some (.get KvBlockKey.sample, .got (.ok (some deviceEntry))) := rfl
  exact (get_linearizable (hostDeviceMemory_documented "host") started rfl run).1 _ ended

end RivetCache
