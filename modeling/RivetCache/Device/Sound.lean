/-
**Buffers change hands.**

Each step of a call keeps the invariant of `Owned.lean`: a `put` takes a new buffer and hands it to the
entry, the entry that was there hands its buffer to the call, `remove` and `clear` take what the entries
hold, and a buffer that is freed has no owner afterwards (`sound_step`).
-/

import RivetCache.Device.Hands
import RivetCache.Library.Run

set_option linter.unusedSectionVars false

namespace RivetCache

open Library

variable {δ : Type} {memory : DeviceMemory δ} {held : δ → UInt64 → Option Payload}
  {digest : Digest} {state : DeviceKvTier δ} {id : Nat} {call : DeviceCall} {phase : DevicePhase}
  {moved : DeviceMove δ}

/-! ### What is owned after a step -/

theorem put_move (standing : state.calls id = some (call, phase)) {written : KvTierEntry}
    (put : state.Put written) : (state.move id call moved).Put written := by
  obtain ⟨other, stands, there⟩ := put
  by_cases same : other = id
  · subst same
    rw [standing] at there
    cases there
    exact ⟨other, moved.phase, calls_move_self⟩
  · exact ⟨other, stands, (calls_move_other same).trans there⟩

theorem EntryCarries.congr {device after : δ} {entry : DeviceEntry} {written : KvTierEntry}
    (carries : EntryCarries held device entry written)
    (same : held after entry.buffer.handle = held device entry.buffer.handle) :
    EntryCarries held after entry written :=
  { carries with bytes := same.trans carries.bytes }

theorem EntryCarries.live {device : δ} {entry : DeviceEntry} {written : KvTierEntry}
    (carries : EntryCarries held device entry written) : LiveBuffer held device entry.buffer :=
  ⟨_, carries.bytes, carries.size⟩

theorem LiveBuffer.congr {device after : δ} {buffer : DeviceBuffer}
    (live : LiveBuffer held device buffer)
    (same : held after buffer.handle = held device buffer.handle) :
    LiveBuffer held after buffer := by
  obtain ⟨bytes, there, size⟩ := live
  exact ⟨bytes, same.trans there, size⟩

/-! ### The invariant after a step -/

/-- An owner that is not this call. -/
def DeviceOwner.NotOf (id : Nat) (owner : DeviceOwner) : Prop := ∀ slot, owner ≠ .call id slot

/-- The buffers of the other owners hold what they held. -/
def KeepsOthers (held : δ → UInt64 → Option Payload) (state : DeviceKvTier δ) (id : Nat)
    (device : δ) : Prop :=
  ∀ owner buffer, state.owned owner = some buffer → owner.NotOf id →
    held device buffer.handle = held state.device buffer.handle

theorem notOf_tier (name : List UInt8) : (DeviceOwner.tier name).NotOf id := fun _ same => by
  cases same

theorem notOf_call {other : Nat} (different : other ≠ id) (slot : List UInt8) :
    (DeviceOwner.call other slot).NotOf id := fun _ same => by
  cases same
  exact different rfl

/-- **The rule for a step**: sole ownership, what the call holds, what the entries carry. -/
theorem Sound.move (sound : Sound held digest state)
    (standing : state.calls id = some (call, phase))
    (keeps : KeepsOthers held state id moved.device)
    (sole : Sole DeviceBuffer.handle (state.move id call moved).owned)
    (mine : ∀ slot buffer, moved.phase.holding slot = some buffer →
      LiveBuffer held moved.device buffer)
    (stored : ∀ name entry, moved.entries.lookup name = some entry → ∃ written,
      state.Put written ∧ written.block.key.cacheKey digest = name ∧
        EntryCarries held moved.device entry written)
    (fits : PhaseFits held moved.device call moved.phase) :
    Sound held digest (state.move id call moved) where
  sole := sole
  live := by
    intro owner buffer owns
    cases owner with
    | tier name =>
        rw [owned_move_tier, Option.map_eq_some_iff] at owns
        obtain ⟨entry, found, rfl⟩ := owns
        obtain ⟨written, _, _, carries⟩ := stored name entry found
        exact carries.live
    | call other slot =>
        by_cases same : other = id
        · subst same
          rw [owned_move_self] at owns
          exact mine slot buffer owns
        · rw [owned_move_other same] at owns
          exact (sound.live _ buffer owns).congr (keeps _ buffer owns (notOf_call same slot))
  stored := by
    intro name entry found
    obtain ⟨written, put, named, carries⟩ := stored name entry found
    exact ⟨written, put_move standing put, named, carries⟩
  fits := by
    intro other call' phase' there
    by_cases same : other = id
    · subst same
      rw [calls_move_self] at there
      cases there
      exact fits
    · rw [calls_move_other same] at there
      have before := sound.fits other call' phase' there
      cases phase' with
      | putInsert entry buffer =>
          have owns := (owned_call there []).trans rfl
          exact ⟨before.1, before.2.congr (keeps _ buffer owns (notOf_call same []))⟩
      | _ => exact before

/-- What the entries carry, where they are as before. -/
theorem stored_kept (sound : Sound held digest state)
    (keeps : KeepsOthers held state id moved.device) {name : List UInt8} {entry : DeviceEntry}
    (found : state.entries.lookup name = some entry) :
    ∃ written, state.Put written ∧ written.block.key.cacheKey digest = name ∧
      EntryCarries held moved.device entry written := by
  obtain ⟨written, put, named, carries⟩ := sound.stored name entry found
  have owns : state.owned (.tier name) = some entry.buffer :=
    congrArg (Option.map DeviceEntry.buffer) found
  exact ⟨written, put, named, carries.congr (keeps _ _ owns (notOf_tier name))⟩

/-- **A step that leaves the entries** as they are. -/
theorem sound_kept (sound : Sound held digest state)
    (standing : state.calls id = some (call, phase))
    (sole : Sole DeviceBuffer.handle (state.move id call moved).owned)
    (keeps : KeepsOthers held state id moved.device) (same : moved.entries = state.entries)
    (mine : ∀ slot buffer, moved.phase.holding slot = some buffer →
      LiveBuffer held moved.device buffer)
    (fits : PhaseFits held moved.device call moved.phase) :
    Sound held digest (state.move id call moved) := by
  refine sound.move standing keeps sole mine (fun name entry found => ?_) fits
  rw [same] at found
  exact stored_kept sound keeps found

section

variable (documented : memory.Documented held) (sound : Sound held digest state)
  (standing : state.calls id = some (call, phase)) (pick : List UInt8)

include documented sound standing

/-- **The other owners' buffers** hold what they held. -/
theorem next_keeps (fresh : FreshHandle memory held state.device phase) :
    KeepsOthers held state id
      (phase.next memory digest pick state.entries state.device).device := by
  intro owner buffer owns apart
  obtain ⟨bytes, there, _⟩ := sound.live owner buffer owns
  refine next_held documented sound standing pick fresh (by rw [there]; exact Option.some_ne_none _)
    (fun entry filled same => ?_) (fun freed freeing => ?_)
  · subst same
    have mine : state.owned (.call id []) = some filled := owned_call standing []
    exact sound.sole.apart (apart []).symm mine owns
  · obtain ⟨slot, holds⟩ := holding_of_frees freeing
    have mine := (owned_call standing slot).trans holds
    exact sound.sole.apart (apart slot).symm mine owns

/-- A step after which the call holds nothing. -/
theorem sound_quiet (sole : Sole DeviceBuffer.handle (state.move id call moved).owned)
    (keeps : KeepsOthers held state id moved.device) (same : moved.entries = state.entries)
    (nothing : ∀ slot, moved.phase.holding slot = none)
    (fits : PhaseFits held moved.device call moved.phase) :
    Sound held digest (state.move id call moved) := by
  refine sound_kept sound standing sole keeps same (fun slot buffer holds => ?_) fits
  rw [nothing] at holds
  cases holds

omit documented in
/-- **`put` takes a new buffer.** -/
theorem sound_allocated {entry : KvTierEntry} {buffer : DeviceBuffer}
    (sole : Sole DeviceBuffer.handle (state.move id call moved).owned)
    (keeps : KeepsOthers held state id moved.device) (begun : call = .put entry)
    (same : moved.entries = state.entries) (takes : moved.phase = .putUpload entry buffer)
    (live : LiveBuffer held moved.device buffer)
    (size : entry.block.bytes.bytes.length = buffer.len.toNat) :
    Sound held digest (state.move id call moved) := by
  refine sound_kept sound standing sole keeps same (fun slot other holds => ?_) ?_
  · rw [takes] at holds
    cases slot with
    | nil =>
        cases holds
        exact live
    | cons _ _ => cases holds
  · rw [takes]
    exact ⟨begun, size⟩

omit documented in
/-- **What was taken out of the entries**: a call holds it, and is going to free it. -/
theorem live_replaced {name : List UInt8} {slot : List UInt8} {buffer : DeviceBuffer}
    (holds : (DevicePhase.afterReplaced (state.entries.lookup name)).holding slot = some buffer) :
    slot = [] ∧ state.owned (.tier name) = some buffer := by
  rw [holding_afterReplaced] at holds
  split at holds
  case isTrue first => exact ⟨first, holds⟩
  case isFalse => cases holds

omit documented in
/-- **`put` hands its buffer to the entry**, and takes the one that was there. -/
theorem sound_inserted {entry : KvTierEntry} {buffer : DeviceBuffer}
    (here : phase = .putInsert entry buffer) :
    Sound held digest (state.move id call
      ⟨.afterReplaced (state.entries.lookup (entry.block.key.cacheKey digest)),
        state.entries.insert (entry.block.key.cacheKey digest)
          ⟨buffer, entry.expiresAt, entry.pinned⟩, state.device⟩) := by
  subst here
  obtain ⟨begun, carries⟩ := sound.fits id call _ standing
  refine sound.move standing (fun _ _ _ _ => rfl) ?_ ?_ ?_ ?_
  · rw [owned_inserted _ standing]
    exact sound.sole.permuted _
  · intro slot other holds
    obtain ⟨_, there⟩ := live_replaced sound standing holds
    exact sound.live _ other there
  · intro name stored found
    rw [lookup_insert_eq] at found
    by_cases own : name = entry.block.key.cacheKey digest
    · rw [if_pos own] at found
      cases found
      exact ⟨entry, ⟨id, _, begun ▸ standing⟩, own.symm, carries⟩
    · rw [if_neg own] at found
      exact sound.stored name stored found
  · cases state.entries.lookup (entry.block.key.cacheKey digest) <;> trivial

omit documented in
/-- **`remove` takes the buffer** of an entry. -/
theorem sound_taken (name : List UInt8) {key : KvBlockKey} (here : phase = .removeTake key) :
    Sound held digest (state.move id call
      ⟨.afterReplaced (state.entries.lookup name), state.entries.erase name, state.device⟩) := by
  subst here
  refine sound.move standing (fun _ _ _ _ => rfl) ?_ ?_ ?_ ?_
  · rw [owned_taken name standing]
    exact sound.sole.permuted _
  · intro slot other holds
    obtain ⟨_, there⟩ := live_replaced sound standing holds
    exact sound.live _ other there
  · intro asked stored found
    rw [lookup_erase_eq] at found
    split at found
    · cases found
    · exact sound.stored asked stored found
  · cases state.entries.lookup name <;> trivial

omit documented in
/-- **`clear` takes the buffers** of all entries. -/
theorem sound_drained (here : phase = .clearDrain) :
    Sound held digest (state.move id call ⟨.clearing state.entries none, ∅, state.device⟩) := by
  subst here
  refine sound.move standing (fun _ _ _ _ => rfl) ?_ ?_ ?_ trivial
  · rw [owned_drained standing]
    exact sound.sole.permuted _
  · intro slot other holds
    rw [holding_clearing] at holds
    exact sound.live (.tier slot) other holds
  · intro name stored found
    cases found

/-- **A buffer is freed**: the call no longer holds it. -/
theorem sound_freed {buffer : DeviceBuffer} (slot : List UInt8)
    (sole : Sole DeviceBuffer.handle (state.move id call moved).owned)
    (holds : phase.holding slot = some buffer)
    (keeps : KeepsOthers held state id moved.device) (same : moved.entries = state.entries)
    (after : held moved.device = Function.update (held state.device) buffer.handle none)
    (rest : ∀ other kept, moved.phase.holding other = some kept →
      other ≠ slot ∧ phase.holding other = some kept)
    (fits : PhaseFits held moved.device call moved.phase) :
    Sound held digest (state.move id call moved) := by
  refine sound_kept sound standing sole keeps same (fun other kept mine => ?_) fits
  obtain ⟨different, before⟩ := rest other kept mine
  have owns := (owned_call standing other).trans before
  have freed := (owned_call standing slot).trans holds
  have apart : kept.handle ≠ buffer.handle :=
    sound.sole.apart (fun equal => different (DeviceOwner.call.inj equal).2) owns freed
  refine (sound.live _ kept owns).congr ?_
  rw [after]
  exact Function.update_of_ne apart _ _

/-- **`put` allocates.** -/
theorem sound_putAllocate {entry : KvTierEntry} (here : phase = .putAllocate entry)
    (sole : Sole DeviceBuffer.handle
      (state.move id call (phase.next memory digest pick state.entries state.device)).owned)
    (keeps : KeepsOthers held state id (phase.next memory digest pick state.entries state.device).device) :
    Sound held digest
      (state.move id call (phase.next memory digest pick state.entries state.device)) := by
  subst here
  have begun := sound.fits id call _ standing
  cases answered : (memory.allocate (UInt64.ofNat entry.block.bytes.bytes.length)
      state.device).1 with
  | error fault =>
      have phase_eq : (DevicePhase.next memory digest pick state.entries state.device
          (.putAllocate entry)).phase = .ended (.error fault) := by
        show DevicePhase.allocated entry _ = _
        rw [answered]
        rfl
      refine sound_quiet documented sound standing sole keeps rfl (fun slot => ?_) ?_
      · rw [phase_eq]
        rfl
      · rw [phase_eq]
        trivial
  | ok buffer =>
      obtain ⟨len, bytes, size, filled⟩ := documented.allocates _ _ _ answered
      refine sound_allocated sound standing sole keeps begun rfl ?_
        ⟨bytes, ?_, size.trans (congrArg _ len.symm)⟩ ?_
      · show DevicePhase.allocated entry _ = _
        rw [answered]
        rfl
      · show held (memory.allocate _ _).2 _ = _
        rw [filled]
        exact Function.update_self _ _ _
      · rw [len, UInt64.toNat_ofNat', Nat.mod_eq_of_lt entry.block.bytes.short]

/-- **`put` uploads** the bytes of its block. -/
theorem sound_putUpload {entry : KvTierEntry} {buffer : DeviceBuffer}
    (here : phase = .putUpload entry buffer)
    (sole : Sole DeviceBuffer.handle
      (state.move id call (phase.next memory digest pick state.entries state.device)).owned)
    (keeps : KeepsOthers held state id (phase.next memory digest pick state.entries state.device).device) :
    Sound held digest
      (state.move id call (phase.next memory digest pick state.entries state.device)) := by
  subst here
  obtain ⟨begun, size⟩ := sound.fits id call _ standing
  have live := sound.live (.call id []) buffer (owned_call standing [])
  obtain ⟨answered, filled⟩ :=
    documented.uploads buffer entry.block.bytes state.device live size
  have phase_eq : (DevicePhase.next memory digest pick state.entries state.device
      (.putUpload entry buffer)).phase = .putInsert entry buffer := by
    show DevicePhase.uploaded entry buffer _ = _
    rw [answered]
    rfl
  have there : held (DevicePhase.next memory digest pick state.entries state.device
      (.putUpload entry buffer)).device buffer.handle = some entry.block.bytes := by
    show held (memory.upload _ _ _).2 _ = _
    rw [filled]
    exact Function.update_self _ _ _
  refine sound_kept sound standing sole keeps rfl (fun slot other holds => ?_) ?_
  · rw [phase_eq] at holds
    cases slot with
    | nil =>
        cases holds
        exact ⟨_, there, size⟩
    | cons _ _ => cases holds
  · rw [phase_eq]
    exact ⟨begun, there, size, rfl, rfl⟩

/-- **`put` frees** what it could not upload to. -/
theorem sound_putFailed {buffer : DeviceBuffer} {error : IoError} (here : phase = .putFailed buffer error)
    (sole : Sole DeviceBuffer.handle
      (state.move id call (phase.next memory digest pick state.entries state.device)).owned)
    (keeps : KeepsOthers held state id (phase.next memory digest pick state.entries state.device).device) :
    Sound held digest
      (state.move id call (phase.next memory digest pick state.entries state.device)) := by
  subst here
  have live := sound.live (.call id []) buffer (owned_call standing [])
  obtain ⟨answered, gone⟩ := documented.frees buffer state.device live
  have phase_eq : (DevicePhase.next memory digest pick state.entries state.device
      (.putFailed buffer error)).phase = .ended (.error (.error error)) := by
    show DevicePhase.released error _ = _
    rw [answered]
    rfl
  refine sound_freed documented sound standing [] sole rfl keeps rfl gone
    (fun other kept mine => ?_) ?_
  · rw [phase_eq] at mine
    cases mine
  · rw [phase_eq]
    trivial

/-- **`clear` frees** a buffer that it has taken, or ends. -/
theorem sound_clearing {drained : DeviceEntries} {firstError : Option IoError}
    (here : phase = .clearing drained firstError)
    (sole : Sole DeviceBuffer.handle
      (state.move id call (phase.next memory digest pick state.entries state.device)).owned)
    (keeps : KeepsOthers held state id (phase.next memory digest pick state.entries state.device).device) :
    Sound held digest
      (state.move id call (phase.next memory digest pick state.entries state.device)) := by
  subst here
  cases found : drained.lookup pick with
  | some entry =>
      have holds : (DevicePhase.clearing drained firstError).holding pick =
          some entry.buffer := by rw [holding_clearing, found]; rfl
      have live := sound.live (.call id pick) entry.buffer
        ((owned_call standing pick).trans holds)
      obtain ⟨answered, gone⟩ := documented.frees entry.buffer state.device live
      have step_eq : DevicePhase.next memory digest pick state.entries state.device
          (.clearing drained firstError) =
          ⟨.clearing (drained.erase pick) firstError, state.entries,
            (memory.free entry.buffer state.device).2⟩ := by
        unfold DevicePhase.next
        dsimp only
        rw [found]
        dsimp only
        rw [answered]
        rfl
      rw [step_eq] at sole keeps ⊢
      refine sound_freed documented sound standing pick sole holds keeps rfl gone
        (fun other kept mine => ?_) trivial
      rw [holding_clearing, lookup_erase_eq] at mine
      split at mine
      · cases mine
      · exact ⟨‹_›, (holding_clearing _ _ _).trans mine⟩
  | none =>
      by_cases empty : drained.entries.isEmpty = true
      · have step_eq : DevicePhase.next memory digest pick state.entries state.device
            (.clearing drained firstError) =
            ⟨.ended (DevicePhase.clearResult firstError), state.entries, state.device⟩ := by
          unfold DevicePhase.next
          dsimp only
          rw [found]
          exact if_pos empty
        rw [step_eq] at sole keeps ⊢
        exact sound_quiet documented sound standing sole keeps rfl (fun _ => rfl) trivial
      · have step_eq : DevicePhase.next memory digest pick state.entries state.device
            (.clearing drained firstError) =
            ⟨.clearing drained firstError, state.entries, state.device⟩ := by
          unfold DevicePhase.next
          dsimp only
          rw [found]
          exact if_neg empty
        rw [step_eq] at sole keeps ⊢
        refine sound_kept sound standing sole keeps rfl (fun slot kept mine => ?_) trivial
        exact sound.live _ kept ((owned_call standing slot).trans mine)

/-- **The invariant, for a step** of a call. -/
theorem sound_next (fresh : FreshHandle memory held state.device phase) :
    Sound held digest
      (state.move id call (phase.next memory digest pick state.entries state.device)) := by
  have keeps := next_keeps documented sound standing pick fresh
  have sole : Sole DeviceBuffer.handle
      (state.move id call (phase.next memory digest pick state.entries state.device)).owned := by
    refine (passed_next standing pick).sole sound.sole ?_
    intro entry buffer here answered owner other owns same
    obtain ⟨bytes, there, _⟩ := sound.live owner other owns
    rw [same, fresh entry buffer here answered] at there
    cases there
  cases phase with
  | getLookup key =>
      refine sound_quiet documented sound standing sole keeps rfl (fun slot => ?_) ?_ <;>
        · show _
          unfold DevicePhase.next DevicePhase.lookUp
          dsimp only
          split <;> trivial
  | getDownload key entry =>
      refine sound_quiet documented sound standing sole keeps rfl (fun slot => ?_) ?_
      · show (DevicePhase.downloaded key entry _).holding slot = none
        cases (memory.download entry.buffer state.device).1 <;> rfl
      · show PhaseFits _ _ _ (DevicePhase.downloaded key entry _)
        cases (memory.download entry.buffer state.device).1 <;> trivial
  | got result => exact sound_quiet documented sound standing sole keeps rfl (fun _ => rfl) trivial
  | putAllocate entry => exact sound_putAllocate documented sound standing pick rfl sole keeps
  | putUpload entry buffer => exact sound_putUpload documented sound standing pick rfl sole keeps
  | putInsert entry buffer => exact sound_inserted sound standing rfl
  | putFailed buffer error => exact sound_putFailed documented sound standing pick rfl sole keeps
  | removeTake key => exact sound_taken sound standing _ rfl
  | freeing old =>
      have live := sound.live (.call id []) old (owned_call standing [])
      obtain ⟨_, gone⟩ := documented.frees old state.device live
      refine sound_freed documented sound standing [] sole rfl keeps rfl gone
        (fun other kept mine => by cases mine) trivial
  | clearDrain => exact sound_drained sound standing rfl
  | clearing drained firstError => exact sound_clearing documented sound standing pick rfl sole keeps
  | ended result => exact sound_quiet documented sound standing sole keeps rfl (fun _ => rfl) trivial

end

/-! ### The steps of a tier -/

/-- A tier without calls. -/
theorem sound_new (device : δ) : Sound held digest (DeviceKvTier.new device) where
  sole := by
    intro owner other mine theirs owns
    cases owner <;> cases owns
  live := by
    intro owner buffer owns
    cases owner <;> cases owns
  stored := by
    intro name entry found
    cases found
  fits := by
    intro other call' phase' there
    cases there

/-- **The invariant, where a call begins.** -/
theorem sound_begin (sound : Sound held digest state) (idle : state.calls id = none) :
    Sound held digest
      { state with calls := Function.update state.calls id (some (call, call.start)) } := by
  have put : ∀ written, state.Put written → DeviceKvTier.Put
      { state with calls := Function.update state.calls id (some (call, call.start)) } written := by
    rintro written ⟨other, stands, there⟩
    refine ⟨other, stands, ?_⟩
    show Function.update _ _ _ other = _
    rw [Function.update_of_ne (fun own => by rw [own, idle] at there; cases there)]
    exact there
  constructor
  · rw [owned_begin idle]
    exact sound.sole
  · rw [owned_begin idle]
    exact sound.live
  · intro name entry found
    obtain ⟨written, before, named, carries⟩ := sound.stored name entry found
    exact ⟨written, put written before, named, carries⟩
  · intro other call' phase' there
    change Function.update _ _ _ other = _ at there
    by_cases own : other = id
    · rw [own, Function.update_self] at there
      cases there
      cases call <;> trivial
    · rw [Function.update_of_ne own] at there
      exact sound.fits other call' phase' there

/-- **The invariant, for one step.** -/
theorem sound_step (documented : memory.Documented held) (sound : Sound held digest state)
    (label : DeviceLabel)
    (fresh : ∀ other pick call phase, label = .advance other pick →
      state.calls other = some (call, phase) → FreshHandle memory held state.device phase) :
    Sound held digest (DeviceKvTier.step memory digest label state) := by
  cases label with
  | begin other call =>
      unfold DeviceKvTier.step
      dsimp only
      split
      · exact sound
      · exact sound_begin sound ‹_›
  | advance other pick =>
      unfold DeviceKvTier.step
      dsimp only
      split
      case h_1 => exact sound
      case h_2 call phase standing =>
        exact sound_next documented sound standing pick (fresh other pick call phase rfl standing)

end RivetCache
