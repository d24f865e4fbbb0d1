/-
**Buffers change hands.**

What every owner holds after a step (`Owned.lean`), from what the owners held before it. A `put` takes a new
buffer (`owned_allocated`); then it exchanges its buffer for the one of the entry (`owned_inserted`). A
`remove` exchanges nothing for the buffer of an entry (`owned_taken`), a `clear` for all of them
(`owned_drained`). A buffer that is freed has no owner any more (`owned_freed`). No other step moves a buffer
(`owned_quiet`, `owned_begin`), unless the device panics.

* `Passed`, `passed_next`: these are all the cases;
* `Passed.sole`: no two owners hold buffers of one handle afterwards.
-/

import RivetCache.Device.Owned

set_option linter.unusedSectionVars false

namespace RivetCache

open Library

variable {δ : Type} {state : DeviceKvTier δ} {id : Nat} {call : DeviceCall} {phase : DevicePhase}
  {moved : DeviceMove δ}

deriving instance DecidableEq for DeviceOwner

/-! ### What is owned after a step -/

theorem calls_move_self : (state.move id call moved).calls id = some (call, moved.phase) :=
  Function.update_self _ _ _

theorem calls_move_other {other : Nat} (different : other ≠ id) :
    (state.move id call moved).calls other = state.calls other :=
  Function.update_of_ne different _ _

theorem owned_move_tier (name : List UInt8) :
    (state.move id call moved).owned (.tier name) =
      (moved.entries.lookup name).map DeviceEntry.buffer := rfl

theorem owned_move_self (slot : List UInt8) :
    (state.move id call moved).owned (.call id slot) = moved.phase.holding slot :=
  owned_call calls_move_self slot

theorem owned_move_other {other : Nat} (different : other ≠ id) (slot : List UInt8) :
    (state.move id call moved).owned (.call other slot) = state.owned (.call other slot) := by
  show ((state.move id call moved).calls other).bind _ = (state.calls other).bind _
  rw [calls_move_other different]

/-- A call that was not begun holds nothing. -/
theorem owned_uncalled (idle : state.calls id = none) (slot : List UInt8) :
    state.owned (.call id slot) = none := by
  show (state.calls id).bind (fun call => call.2.holding slot) = none
  rw [idle]
  rfl

/-- A call at its beginning holds nothing. -/
theorem holding_start (call : DeviceCall) (slot : List UInt8) : call.start.holding slot = none := by
  cases call <;> rfl

/-- **A call begins.** -/
theorem owned_begin (idle : state.calls id = none) :
    DeviceKvTier.owned
      { state with calls := Function.update state.calls id (some (call, call.start)) } =
        state.owned := by
  funext owner
  cases owner with
  | tier name => rfl
  | call other slot =>
      show (Function.update state.calls id (some (call, call.start)) other).bind _ =
        (state.calls other).bind _
      by_cases own : other = id
      · rw [own, Function.update_self, idle]
        exact holding_start call slot
      · rw [Function.update_of_ne own]

/-- The call a step is of. -/
def DeviceLabel.caller : DeviceLabel → Nat
  | .begin id _ => id
  | .advance id _ => id

/-- The steps of other calls leave a call where it stands. -/
theorem calls_foldl_other {memory : DeviceMemory δ} {digest : Digest} (labels : List DeviceLabel)
    (others : ∀ label ∈ labels, label.caller ≠ id) {state : DeviceKvTier δ} :
    (labels.foldl (fun state label => DeviceKvTier.step memory digest label state) state).calls id =
      state.calls id := by
  induction labels generalizing state with
  | nil => rfl
  | cons label rest ih =>
      refine (ih fun other inside => others other (List.mem_cons_of_mem _ inside)).trans ?_
      have different := (others label List.mem_cons_self).symm
      unfold DeviceKvTier.step
      cases label <;> dsimp only <;> split
      · rfl
      · exact Function.update_of_ne different _ _
      · rfl
      · exact Function.update_of_ne different _ _

section

variable (standing : state.calls id = some (call, phase))

include standing

/-- **No buffer is moved.** -/
theorem owned_quiet (same : moved.entries = state.entries)
    (kept : ∀ slot, moved.phase.holding slot = phase.holding slot) :
    (state.move id call moved).owned = state.owned := by
  funext owner
  cases owner with
  | tier name =>
      rw [owned_move_tier, same]
      rfl
  | call other slot =>
      by_cases own : other = id
      · rw [own, owned_move_self, kept, owned_call standing]
      · exact owned_move_other own slot

/-- **A new buffer**, under the empty name. -/
theorem owned_allocated {entry : KvTierEntry} {buffer : DeviceBuffer}
    (nothing : ∀ slot, phase.holding slot = none) (same : moved.entries = state.entries)
    (takes : moved.phase = .putUpload entry buffer) :
    (state.move id call moved).owned =
      Function.update state.owned (.call id []) (some buffer) := by
  funext owner
  rw [Function.update_apply]
  cases owner with
  | tier name =>
      rw [owned_move_tier, same, if_neg DeviceOwner.noConfusion]
      rfl
  | call other slot =>
      by_cases own : other = id
      · rw [own, owned_move_self, takes, owned_call standing, nothing]
        cases slot with
        | nil => exact (if_pos rfl).symm
        | cons _ _ => exact (if_neg (by simp)).symm
      · rw [owned_move_other own, if_neg (fun equal => own (DeviceOwner.call.inj equal).1)]

/-- **A buffer is freed.** -/
theorem owned_freed (slot : List UInt8) (same : moved.entries = state.entries)
    (gone : moved.phase.holding slot = none)
    (rest : ∀ other, other ≠ slot → moved.phase.holding other = phase.holding other) :
    (state.move id call moved).owned = Function.update state.owned (.call id slot) none := by
  funext owner
  rw [Function.update_apply]
  cases owner with
  | tier name =>
      rw [owned_move_tier, same, if_neg DeviceOwner.noConfusion]
      rfl
  | call other place =>
      by_cases own : other = id
      · rw [own, owned_move_self, owned_call standing]
        by_cases here : place = slot
        · rw [here, gone, if_pos rfl]
        · rw [rest place here, if_neg (fun equal => here (DeviceOwner.call.inj equal).2)]
      · rw [owned_move_other own, if_neg (fun equal => own (DeviceOwner.call.inj equal).1)]

end

/-! ### Exchanges -/

/-- What was taken out of the entries is held under the empty name. -/
theorem holding_afterReplaced (name slot : List UInt8) :
    (DevicePhase.afterReplaced (state.entries.lookup name)).holding slot =
      if slot = [] then state.owned (.tier name) else none := by
  show _ = if slot = [] then (state.entries.lookup name).map DeviceEntry.buffer else none
  cases state.entries.lookup name <;> cases slot <;> rfl

section

variable (standing : state.calls id = some (call, phase)) (name : List UInt8)

include standing

/-- A call that holds one buffer at most exchanges it for the one of an entry. -/
theorem owned_exchanged (alone : ∀ slot, slot ≠ [] → phase.holding slot = none)
    (entries : ∀ other, (moved.entries.lookup other).map DeviceEntry.buffer =
      if other = name then phase.holding [] else state.owned (.tier other))
    (takes : moved.phase = .afterReplaced (state.entries.lookup name)) :
    (state.move id call moved).owned =
      fun owner => state.owned (Equiv.swap (DeviceOwner.tier name) (.call id []) owner) := by
  funext owner
  rw [Equiv.swap_apply_def]
  cases owner with
  | tier other =>
      rw [owned_move_tier, entries]
      by_cases own : other = name
      · rw [if_pos own, own, if_pos rfl, owned_call standing]
      · rw [if_neg own, if_neg (fun equal => own (DeviceOwner.tier.inj equal)),
          if_neg DeviceOwner.noConfusion]
  | call other slot =>
      rw [if_neg DeviceOwner.noConfusion]
      by_cases own : other = id
      · rw [own, owned_move_self, takes, holding_afterReplaced]
        by_cases first : slot = []
        · rw [if_pos first, first, if_pos rfl]
        · rw [if_neg first, if_neg (fun equal => first (DeviceOwner.call.inj equal).2),
            owned_call standing, alone slot first]
      · rw [owned_move_other own, if_neg (fun equal => own (DeviceOwner.call.inj equal).1)]

end

/-- **`put` hands its buffer to the entry**, and takes the one that was there. -/
theorem owned_inserted {entry : KvTierEntry} {buffer : DeviceBuffer} (name : List UInt8)
    (standing : state.calls id = some (call, .putInsert entry buffer)) {device : δ} :
    (state.move id call ⟨.afterReplaced (state.entries.lookup name),
      state.entries.insert name ⟨buffer, entry.expiresAt, entry.pinned⟩, device⟩).owned =
      fun owner => state.owned (Equiv.swap (DeviceOwner.tier name) (.call id []) owner) := by
  refine owned_exchanged standing name (fun slot rest => ?_) (fun other => ?_) rfl
  · cases slot with
    | nil => exact absurd rfl rest
    | cons _ _ => rfl
  · rw [lookup_insert_eq]
    split <;> rfl

/-- **`remove` takes the buffer** of an entry. -/
theorem owned_taken (name : List UInt8) {key : KvBlockKey}
    (standing : state.calls id = some (call, .removeTake key)) {device : δ} :
    (state.move id call ⟨.afterReplaced (state.entries.lookup name), state.entries.erase name,
      device⟩).owned =
      fun owner => state.owned (Equiv.swap (DeviceOwner.tier name) (.call id []) owner) := by
  refine owned_exchanged standing name (fun slot _ => by cases slot <;> rfl) (fun other => ?_) rfl
  rw [lookup_erase_eq]
  split <;> rfl

/-- The exchange of a `clear`: the entry of a name for the slot of the name. -/
def DeviceOwner.drained (id : Nat) : DeviceOwner → DeviceOwner :=
  DeviceOwner.elim (.call id) fun other slot => if other = id then .tier slot else .call other slot

theorem drained_involutive (id : Nat) : Function.Involutive (DeviceOwner.drained id) := by
  intro owner
  cases owner with
  | tier name => exact if_pos rfl
  | call other slot =>
      by_cases own : other = id
      · simp [DeviceOwner.drained, DeviceOwner.elim, own]
      · simp [DeviceOwner.drained, DeviceOwner.elim, own]

/-- **`clear` takes the buffers** of all entries. -/
theorem owned_drained (standing : state.calls id = some (call, .clearDrain)) {device : δ} :
    (state.move id call ⟨.clearing state.entries none, ∅, device⟩).owned =
      fun owner => state.owned ((drained_involutive id).toPerm _ owner) := by
  funext owner
  cases owner with
  | tier name =>
      show none = state.owned (.call id name)
      rw [owned_call standing]
      cases name <;> rfl
  | call other slot =>
      show _ = state.owned (if other = id then .tier slot else .call other slot)
      by_cases own : other = id
      · rw [own, owned_move_self, holding_clearing, if_pos rfl]
        rfl
      · rw [owned_move_other own, if_neg own]

/-! ### All the cases -/

/-- **What a step does to what is owned.** -/
inductive Passed (memory : DeviceMemory δ) (state : DeviceKvTier δ) (id : Nat) (phase : DevicePhase)
    (pick : List UInt8) : (DeviceOwner → Option DeviceBuffer) → Prop where
  | exchanged (hands : Equiv.Perm DeviceOwner) (unfreed : phase.frees pick = none)
      (unallocated : ∀ entry buffer, phase = .putAllocate entry →
        (memory.allocate (UInt64.ofNat entry.block.bytes.bytes.length) state.device).1 ≠ .ok buffer) :
      Passed memory state id phase pick fun owner => state.owned (hands owner)
  | allocated (entry : KvTierEntry) (buffer : DeviceBuffer) (here : phase = .putAllocate entry)
      (answered : (memory.allocate (UInt64.ofNat entry.block.bytes.bytes.length) state.device).1 =
        .ok buffer) :
      Passed memory state id phase pick (Function.update state.owned (.call id []) (some buffer))
  | freed (slot : List UInt8) (buffer : DeviceBuffer) (releases : phase.frees pick = some buffer)
      (holds : phase.holding slot = some buffer) :
      Passed memory state id phase pick (Function.update state.owned (.call id slot) none)
  | lost (after : DeviceOwner → Option DeviceBuffer)
      (sub : ∀ owner buffer, after owner = some buffer → state.owned owner = some buffer)
      (panicked :
        (∃ entry buffer, phase = .putUpload entry buffer ∧
          (memory.upload buffer entry.block.bytes state.device).1 = .error .panic) ∨
        ∃ buffer, phase.frees pick = some buffer ∧
          (memory.free buffer state.device).1 = .error .panic) :
      Passed memory state id phase pick after

section

variable {memory : DeviceMemory δ} {digest : Digest} {pick : List UInt8}

/-- **No two owners** hold buffers of one handle, where a new buffer has a handle of its own. -/
theorem Passed.sole {after : DeviceOwner → Option DeviceBuffer}
    (passed : Passed memory state id phase pick after) (sole : Sole DeviceBuffer.handle state.owned)
    (fresh : ∀ entry buffer, phase = .putAllocate entry →
      (memory.allocate (UInt64.ofNat entry.block.bytes.bytes.length) state.device).1 = .ok buffer →
      ∀ owner held, state.owned owner = some held → held.handle ≠ buffer.handle) :
    Sole DeviceBuffer.handle after := by
  cases passed with
  | exchanged hands => exact sole.permuted hands
  | allocated entry buffer here answered =>
      exact sole.update_some _ buffer (fresh entry buffer here answered)
  | freed slot buffer => exact sole.update_none _
  | lost _ sub => exact sole.moved (fun owner => owner) fun owner held owns =>
      ⟨owner, sub owner held owns, rfl⟩

variable (standing : state.calls id = some (call, phase))

include standing

theorem passed_quiet (same : moved.entries = state.entries)
    (kept : ∀ slot, moved.phase.holding slot = phase.holding slot)
    (unfreed : phase.frees pick = none)
    (unallocated : ∀ entry buffer, phase = .putAllocate entry →
      (memory.allocate (UInt64.ofNat entry.block.bytes.bytes.length) state.device).1 ≠ .ok buffer) :
    Passed memory state id phase pick (state.move id call moved).owned := by
  rw [owned_quiet standing same kept]
  exact .exchanged (Equiv.refl _) unfreed unallocated

theorem passed_freed (slot : List UInt8) {buffer : DeviceBuffer}
    (releases : phase.frees pick = some buffer) (holds : phase.holding slot = some buffer)
    (same : moved.entries = state.entries) (gone : moved.phase.holding slot = none)
    (rest : ∀ other, other ≠ slot → moved.phase.holding other = phase.holding other) :
    Passed memory state id phase pick (state.move id call moved).owned := by
  rw [owned_freed standing slot same gone rest]
  exact .freed slot buffer releases holds

/-- A call that ends in a panic of the device holds nothing any more. -/
theorem owned_lost (same : moved.entries = state.entries)
    (nothing : ∀ slot, moved.phase.holding slot = none) (owner : DeviceOwner) (buffer : DeviceBuffer)
    (owns : (state.move id call moved).owned owner = some buffer) :
    state.owned owner = some buffer := by
  cases owner with
  | tier name => rwa [owned_move_tier, same] at owns
  | call other slot =>
      by_cases own : other = id
      · rw [own, owned_move_self, nothing] at owns
        cases owns
      · rwa [owned_move_other own] at owns

/-- `put` takes the buffer that it allocates. -/
theorem passed_putAllocate (pick : List UInt8) {entry : KvTierEntry} (here : phase = .putAllocate entry) :
    Passed memory state id phase pick
      (state.move id call (phase.next memory digest pick state.entries state.device)).owned := by
  subst here
  cases answered : (memory.allocate (UInt64.ofNat entry.block.bytes.bytes.length)
      state.device).1 with
  | error fault =>
      refine passed_quiet standing rfl (fun slot => ?_) rfl fun _ _ same allocated => ?_
      · show (DevicePhase.allocated entry (memory.allocate _ _).1).holding slot = none
        rw [answered]
        rfl
      · cases same
        rw [answered] at allocated
        cases allocated
  | ok buffer =>
      rw [owned_allocated standing (fun _ => rfl) rfl
        (congrArg (DevicePhase.allocated entry) answered)]
      exact .allocated entry buffer rfl answered

/-- `put` keeps the buffer that it uploads to, but where the upload panics. -/
theorem passed_putUpload (pick : List UInt8) {entry : KvTierEntry} {buffer : DeviceBuffer}
    (here : phase = .putUpload entry buffer) :
    Passed memory state id phase pick
      (state.move id call (phase.next memory digest pick state.entries state.device)).owned := by
  subst here
  cases answered : (memory.upload buffer entry.block.bytes state.device).1 with
  | ok =>
      refine passed_quiet standing rfl (fun slot => ?_) rfl (fun _ _ other => by cases other)
      show (DevicePhase.uploaded entry buffer (memory.upload _ _ _).1).holding slot = _
      rw [answered]
      cases slot <;> rfl
  | error fault =>
      cases fault with
      | error error =>
          refine passed_quiet standing rfl (fun slot => ?_) rfl (fun _ _ other => by cases other)
          show (DevicePhase.uploaded entry buffer (memory.upload _ _ _).1).holding slot = _
          rw [answered]
          cases slot <;> rfl
      | panic =>
          refine .lost _ (owned_lost standing rfl fun slot => ?_)
            (Or.inl ⟨entry, buffer, rfl, answered⟩)
          show (DevicePhase.uploaded entry buffer (memory.upload _ _ _).1).holding slot = none
          rw [answered]
          rfl

/-- `clear` frees one of the buffers that it has taken, or ends. -/
theorem passed_clearing (pick : List UInt8) {drained : DeviceEntries} {firstError : Option IoError}
    (here : phase = .clearing drained firstError) :
    Passed memory state id phase pick
      (state.move id call (phase.next memory digest pick state.entries state.device)).owned := by
  subst here
  unfold DevicePhase.next
  dsimp only
  split
  case h_1 entry found =>
    have releases : (DevicePhase.clearing drained firstError).frees pick = some entry.buffer :=
      congrArg (Option.map DeviceEntry.buffer) found
    have panics : ∀ answer, answer = .error .panic ∨ ∃ error,
        DevicePhase.cleared (drained.erase pick) firstError answer =
          .clearing (drained.erase pick) error := by
      intro answer
      rcases answer with (error | _) | _
      · exact Or.inr ⟨_, rfl⟩
      · exact Or.inl rfl
      · exact Or.inr ⟨_, rfl⟩
    rcases panics (memory.free entry.buffer state.device).1 with panicked | ⟨error, goes⟩
    · refine .lost _ (owned_lost standing rfl fun slot => ?_)
        (Or.inr ⟨entry.buffer, releases, panicked⟩)
      rw [panicked]
      rfl
    · rw [goes]
      refine passed_freed standing pick releases ((holding_clearing _ _ _).trans releases) rfl ?_ ?_
      · rw [holding_clearing, AList.lookup_erase]
        rfl
      · intro slot rest
        rw [holding_clearing, holding_clearing, AList.lookup_erase_ne rest]
  case h_2 absent =>
    have unfreed : (DevicePhase.clearing drained firstError).frees pick = none :=
      congrArg (Option.map DeviceEntry.buffer) absent
    split
    case isTrue empty =>
      refine passed_quiet standing rfl (fun slot => ?_) unfreed (fun _ _ other => by cases other)
      rw [holding_clearing, lookup_of_isEmpty empty slot]
      rfl
    case isFalse =>
      exact passed_quiet standing rfl (fun _ => rfl) unfreed fun _ _ other => by cases other


/-- **The cases of a step.** -/
theorem passed_next (pick : List UInt8) : Passed memory state id phase pick
    (state.move id call (phase.next memory digest pick state.entries state.device)).owned := by
  cases phase with
  | getLookup key =>
      refine passed_quiet standing rfl (fun slot => ?_) rfl (fun _ _ other => by cases other)
      show (DevicePhase.lookUp digest key state.entries).holding slot = none
      unfold DevicePhase.lookUp
      split <;> rfl
  | getDownload key entry =>
      refine passed_quiet standing rfl (fun slot => ?_) rfl (fun _ _ other => by cases other)
      show (DevicePhase.downloaded key entry
        (memory.download entry.buffer state.device).1).holding slot = none
      cases (memory.download entry.buffer state.device).1 <;> rfl
  | got result => exact passed_quiet standing rfl (fun _ => rfl) rfl fun _ _ other => by cases other
  | ended result => exact passed_quiet standing rfl (fun _ => rfl) rfl fun _ _ other => by cases other
  | putAllocate entry => exact passed_putAllocate standing pick rfl
  | putUpload entry buffer => exact passed_putUpload standing pick rfl
  | putInsert entry buffer =>
      exact owned_inserted _ standing ▸ .exchanged _ rfl fun _ _ other => by cases other
  | putFailed buffer error =>
      have nothing : ∀ slot, (DevicePhase.released error
          (memory.free buffer state.device).1).holding slot = none := by
        intro slot
        unfold DevicePhase.released
        split <;> rfl
      refine passed_freed standing [] rfl rfl rfl (nothing []) fun slot rest => ?_
      exact (nothing slot).trans (by cases slot <;> [exact absurd rfl rest; rfl])
  | removeTake key =>
      exact owned_taken _ standing ▸ .exchanged _ rfl fun _ _ other => by cases other
  | freeing old =>
      refine passed_freed standing [] rfl rfl rfl rfl (fun slot rest => ?_)
      cases slot with
      | nil => exact absurd rfl rest
      | cons _ _ => rfl
  | clearDrain =>
      exact owned_drained standing ▸ .exchanged _ rfl fun _ _ other => by cases other
  | clearing drained firstError => exact passed_clearing standing pick rfl
end

end RivetCache
