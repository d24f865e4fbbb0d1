/-
**`set_pinned` beside a `put`.**

`set_pinned` reads an entry from a tier and writes it back with another pin flag, in two calls. Alone it
changes pin flags and nothing else (`setPinned_alone`). Beside a `put` of the same key, whose tier calls
interleave with its own, it may write back what the `put` has replaced (`Overwritten`); nothing else
undoes the `put`.

* `lawful_setPinned`, `lawful_put`: which calls the two make, given what they have read;
* `written_or_overwritten`: every tier that the `put` wrote holds its bytes and expiry, or was
  overwritten;
* `pin_overwrites_put`: a run in which it is.
-/

import RivetCache.Kv.Deletion
import RivetCache.Kv.Lookup
import RivetCache.Library.History

set_option linter.unusedSectionVars false

namespace RivetCache

open Library

variable {τ : Nat → Type} {engine : KvEngine τ}
  {contents : (index : Nat) → τ index → KvBlockKey → Option KvTierEntry}

/-- A call of a tier, and its answer. -/
abbrev KvExchange := Exchange KvOp KvOp.Answer

namespace KvEngine

/-! ### `set_pinned` alone -/

/-- What `set_pinned` leaves of an entry: nothing of an expired one. -/
def repinned (now : Nat) (pinned : Bool) (held : Option KvTierEntry) : Option KvTierEntry :=
  (held.filter fun entry => !entry.expired now).map fun entry => { entry with pinned := pinned }

theorem repinned_live {now : Nat} {held : Option KvTierEntry} {entry : KvTierEntry}
    (live : Live now held entry) (pinned : Bool) :
    repinned now pinned held = some { entry with pinned := pinned } := by
  unfold repinned
  rw [live.held, Option.filter_some, live.unexpired]
  rfl

theorem repinned_stale {now : Nat} {held : Option KvTierEntry} (stale : Stale now held) (pinned : Bool) :
    repinned now pinned held = none := by
  cases held with
  | none => rfl
  | some entry =>
      unfold repinned
      rw [Option.filter_some, stale entry rfl]
      rfl

theorem pinEach_cons (key : KvBlockKey) (pinned : Bool) (now : Nat) (found : Bool) (index : Nat)
    (rest : List Nat) :
    pinEach key pinned now found (index :: rest) = probe index key now
      (fun entry => do
        tierPut index { entry with pinned := pinned }
        pinEach key pinned now true rest)
      (pinEach key pinned now found rest) := rfl

/-- A change of one tier does not show in the others. -/
theorem heldWith_apart {held : Nat → KvBlockKey → Option KvTierEntry} {index tier : Nat} {rest : List Nat}
    {key : KvBlockKey} {value : Option KvTierEntry} (fresh : index ∉ rest) (member : tier ∈ rest) :
    heldWith held index key value tier key = held tier key := by
  rw [heldWith_apply, if_neg]
  rintro ⟨rfl, _⟩
  exact fresh member

/-- **A loop over tiers** that changes what each holds under one key, its first round split off. -/
theorem heldWith_loop {held middle after : Nat → KvBlockKey → Option KvTierEntry} {index : Nat}
    {rest : List Nat} {key : KvBlockKey} (fresh : index ∉ rest)
    (change : Option KvTierEntry → Option KvTierEntry)
    (first : middle = heldWith held index key (change (held index key)))
    (later : ∀ tier asked, after tier asked =
      if tier ∈ rest ∧ asked = key then change (middle tier key) else middle tier asked)
    (tier : Nat) (asked : KvBlockKey) :
    after tier asked =
      if tier ∈ index :: rest ∧ asked = key then change (held tier key) else held tier asked := by
  rw [later]
  by_cases member : tier ∈ rest
  · rw [first, heldWith_apart fresh member, heldWith_apply,
      if_neg (show ¬ (tier = index ∧ asked = key) from fun both => fresh (both.1 ▸ member))]
    simp only [member, true_and, List.mem_cons, or_true]
  · rw [if_neg fun both => member both.1, first, heldWith_apply]
    by_cases here : tier = index
    · subst here
      simp only [true_and, List.mem_cons, true_or]
    · simp only [here, false_and, if_false, List.mem_cons, member, or_self]

/-- **The loop of `set_pinned`**: an entry gets the pin flag, or is removed where it has expired. -/
theorem run_pinEach (mapLike : engine.MapTiers contents) (succeed : engine.TiersSucceed)
    {tiers : List Nat} (distinct : tiers.Nodup) (inside : ∀ index ∈ tiers, index < engine.count)
    (key : KvBlockKey) (pinned : Bool) (now : Nat) (found : Bool) (s : KvState τ) :
    ∃ answer after, engine.run (pinEach key pinned now found tiers) s = (.ok answer, after) ∧
      (answer = true ↔ found = true ∨ ∃ tier ∈ tiers, ∃ entry, Live now (s.held contents tier key) entry) ∧
      ∀ tier asked, after.held contents tier asked =
        if tier ∈ tiers ∧ asked = key then repinned now pinned (s.held contents tier key)
        else s.held contents tier asked := by
  induction tiers generalizing found s with
  | nil =>
      refine ⟨found, s, rfl, ⟨Or.inl, ?_⟩, fun tier asked => ?_⟩
      · rintro (found | ⟨_, member, _⟩)
        · exact found
        · cases member
      · rw [if_neg fun both => List.not_mem_nil both.1]
  | cons index rest ih =>
      obtain ⟨fresh, distinct⟩ := List.nodup_cons.mp distinct
      have here := inside index List.mem_cons_self
      have rest_inside : ∀ tier ∈ rest, tier < engine.count := fun tier member =>
        inside tier (List.mem_cons_of_mem _ member)
      have live_later {middle : KvState τ} {value : Option KvTierEntry}
          (maps : middle.held contents = heldWith (s.held contents) index key value) :
          (∃ tier ∈ rest, ∃ entry, Live now (middle.held contents tier key) entry) ↔
            ∃ tier ∈ rest, ∃ entry, Live now (s.held contents tier key) entry := by
        refine exists_congr fun tier => and_congr_right fun member => ?_
        rw [maps, heldWith_apart fresh member]
      rw [pinEach_cons]
      rcases run_probe mapLike succeed here key now (fun entry => do
          tierPut index { entry with pinned := pinned }
          pinEach key pinned now true rest) (pinEach key pinned now found rest) s with
        ⟨entry, middle, live, maps, _, ran⟩ | ⟨middle, stale, maps, _, ran⟩
      · have own : entry.block.key = key := (mapLike index here).keyed _ _ _ live.held
        obtain ⟨stored, put, storedMaps, _⟩ :=
          run_tierPut mapLike succeed here { entry with pinned := pinned } middle
        have written : stored.held contents = heldWith (s.held contents) index key
            (repinned now pinned (s.held contents index key)) := by
          rw [storedMaps, maps, repinned_live live]
          exact congrArg (fun own => heldWith _ index own _) own
        obtain ⟨answer, after, looped, answered, left⟩ := ih distinct rest_inside true stored
        refine ⟨answer, after, ?_, ?_, heldWith_loop fresh (repinned now pinned) written left⟩
        · rw [ran]
          unfold run at put looped ⊢
          rw [Program.run_bind, put, andThen_ok]
          exact looped
        · rw [answered]
          exact ⟨fun _ => Or.inr ⟨index, List.mem_cons_self, entry, live⟩, fun _ => Or.inl rfl⟩
      · obtain ⟨answer, after, looped, answered, left⟩ := ih distinct rest_inside found middle
        rw [← repinned_stale stale pinned] at maps
        refine ⟨answer, after, ran.trans looped, ?_, heldWith_loop fresh (repinned now pinned) maps left⟩
        rw [answered, live_later maps]
        refine or_congr_right ⟨?_, ?_⟩
        · rintro ⟨tier, member, live⟩
          exact ⟨tier, List.mem_cons_of_mem _ member, live⟩
        · rintro ⟨tier, member, entry, live⟩
          rcases List.mem_cons.mp member with rfl | member
          · exact absurd stale live.not_stale
          · exact ⟨tier, member, entry, live⟩

/-- **`set_pinned` alone** changes pin flags, removes what has expired, and says whether it found the
key. -/
theorem setPinned_alone (mapLike : engine.MapTiers contents) (succeed : engine.TiersSucceed)
    (key : KvBlockKey) (pinned : Bool) (s : KvState τ) :
    ∃ answer after, engine.run (engine.setPinned key pinned) s = (.ok answer, after) ∧
      (answer = true ↔ ∃ tier < engine.count, ∃ entry,
        Live (engine.clock s.reads) (s.held contents tier key) entry) ∧
      ∀ tier < engine.count, ∀ asked, after.held contents tier asked =
        if asked = key then repinned (engine.clock s.reads) pinned (s.held contents tier key)
        else s.held contents tier asked := by
  obtain ⟨answer, after, looped, answered, left⟩ := run_pinEach mapLike succeed List.nodup_range
    (fun index member => List.mem_range.mp member) key pinned (engine.clock s.reads) false
    (engine.handle .now s).2
  refine ⟨answer, after, looped, ?_, fun tier inside asked => ?_⟩
  · rw [answered]
    simp only [Bool.false_eq_true, false_or, List.mem_range]
    rfl
  · rw [left]
    simp only [List.mem_range, inside, true_and]
    rfl

end KvEngine

/-! ### The calls of the two operations -/

namespace KvOp

/-- The call read the clock. -/
def Times (now : Nat) : (op : KvOp) → op.Answer → Prop
  | .now, answer => answer = now
  | _, _ => False

/-- The call was a put that failed. -/
def Refused : (op : KvOp) → op.Answer → Prop
  | .put _ _, answer => ∃ error, answer = .error error
  | _, _ => False

end KvOp

namespace KvEngine

/-- **What `set_pinned` may call**: it writes back what it has read from a tier, with the pin flag, and
removes what it has read and found expired. -/
def pinRule (engine : KvEngine τ) (key : KvBlockKey) (pinned : Bool) (history : List KvExchange) :
    KvOp → Prop
  | .now => True
  | .count _ => True
  | .get tier asked => tier < engine.count ∧ asked = key
  | .put tier entry => tier < engine.count ∧ ∃ read,
      (∃ exchange ∈ history, exchange.op.Reads tier key read exchange.answer) ∧
        entry = { read with pinned := pinned }
  | .remove tier asked => tier < engine.count ∧ asked = key ∧ ∃ read now,
      (∃ exchange ∈ history, exchange.op.Reads tier key read exchange.answer) ∧
        (∃ exchange ∈ history, exchange.op.Times now exchange.answer) ∧ read.expired now = true
  | _ => False

/-- The expiry of a `put`, after it has read the clock where it must. -/
def Expires (ttl : Option Duration) (history : List KvExchange) (expiresAt : UInt64) : Prop :=
  expiresAt = 0 ∨ ∃ duration now, ttl = some duration ∧
    (∃ exchange ∈ history, exchange.op.Times now exchange.answer) ∧
      expiresAt = UInt64.ofNat (expiryAt now duration)

/-- **What `put` may call**: it writes one entry of its block, and removes after a refusal only. -/
def putRule (engine : KvEngine τ) (block : KvBlock) (ttl : Option Duration) (pinned : Bool)
    (history : List KvExchange) : KvOp → Prop
  | .now => True
  | .count _ => True
  | .put tier entry => tier < engine.count ∧ entry.block = block ∧ entry.pinned = pinned ∧
      Expires ttl history entry.expiresAt ∧
      ∀ exchange ∈ history, ∀ other earlier, exchange.op = .put other earlier → earlier = entry
  | .remove _ _ => ∃ exchange ∈ history, exchange.op.Refused exchange.answer
  | _ => False

variable {rule : List KvExchange → KvOp → Prop} {history : List KvExchange}

/-- One call, and nothing forgotten. -/
theorem lawful_tierPut {index : Nat} {entry : KvTierEntry} (allowed : rule history (.put index entry)) :
    (tierPut index entry).Lawful rule (fun _ after => history ⊆ after) history := by
  refine ⟨allowed, fun answer => ?_⟩
  cases answer with
  | error error => trivial
  | ok _ => exact List.subset_cons_self _ _

theorem lawful_tierRemove {index : Nat} {key : KvBlockKey} (allowed : rule history (.remove index key)) :
    (tierRemove index key).Lawful rule (fun _ after => history ⊆ after) history := by
  refine ⟨allowed, fun answer => ?_⟩
  cases answer with
  | error error => trivial
  | ok _ => exact List.subset_cons_self _ _

theorem lawful_countStats {update : KvEngineStats → KvEngineStats} (allowed : rule history (.count update)) :
    (countStats update).Lawful rule (fun _ after => history ⊆ after) history :=
  ⟨allowed, fun _ => List.subset_cons_self _ _⟩

/-- A reading of the clock is known. -/
theorem lawful_now (allowed : rule history .now) :
    now.Lawful rule (fun now after => (∃ exchange ∈ after, exchange.op.Times now exchange.answer) ∧
      ∀ exchange ∈ after, exchange ∈ history ∨ exchange.op = .now) history := by
  refine ⟨allowed, fun answer => ⟨⟨_, List.mem_cons_self, rfl⟩, fun exchange member => ?_⟩⟩
  rcases List.mem_cons.mp member with rfl | before
  · exact Or.inr rfl
  · exact Or.inl before

/-- An entry that was read is known. -/
theorem lawful_tierGet {index : Nat} {key : KvBlockKey} (allowed : rule history (.get index key)) :
    (tierGet index key).Lawful rule (fun answer after => history ⊆ after ∧ ∀ entry, answer = some entry →
      ∃ exchange ∈ after, exchange.op.Reads index key entry exchange.answer) history := by
  refine ⟨allowed, fun answer => ?_⟩
  cases answer with
  | error error => trivial
  | ok answer =>
      refine ⟨List.subset_cons_self _ _, ?_⟩
      rintro entry rfl
      exact ⟨_, List.mem_cons_self, rfl, rfl, rfl⟩

theorem lawful_pinEach {key : KvBlockKey} {pinned : Bool} {now : Nat} (found : Bool) {tiers : List Nat}
    (inside : ∀ index ∈ tiers, index < engine.count)
    (time : ∃ exchange ∈ history, exchange.op.Times now exchange.answer) :
    (pinEach key pinned now found tiers).Lawful (engine.pinRule key pinned) (fun _ _ => True) history := by
  induction tiers generalizing found history with
  | nil => trivial
  | cons index rest ih =>
      have here := inside index List.mem_cons_self
      have others : ∀ tier ∈ rest, tier < engine.count := fun tier member =>
        inside tier (List.mem_cons_of_mem _ member)
      have later {after : List KvExchange} (grows : history ⊆ after) :
          ∃ exchange ∈ after, exchange.op.Times now exchange.answer := by
        obtain ⟨exchange, member, reading⟩ := time
        exact ⟨exchange, grows member, reading⟩
      rw [pinEach_cons]
      unfold probe
      refine Program.lawful_bind (lawful_tierGet ⟨here, rfl⟩) fun answer after known => ?_
      cases answer with
      | none => exact ih found others (later known.1)
      | some entry =>
          have read := known.2 entry rfl
          dsimp only
          split
          case isTrue expired =>
            have discarded : (discardExpired index key).Lawful (engine.pinRule key pinned)
                (fun _ last => after ⊆ last) after := by
              unfold discardExpired
              refine Program.lawful_bind
                (lawful_tierRemove ⟨here, rfl, entry, now, read, later known.1, expired⟩)
                fun _ middle grows => ?_
              have counted : countExpiration.Lawful (engine.pinRule key pinned)
                  (fun _ last => middle ⊆ last) middle := lawful_countStats trivial
              exact counted.weaken fun _ _ more => List.Subset.trans grows more
            exact Program.lawful_bind discarded fun _ last grows =>
              ih found others (later (List.Subset.trans known.1 grows))
          case isFalse =>
            exact Program.lawful_bind (lawful_tierPut ⟨here, entry, read, rfl⟩) fun _ last grows =>
              ih true others (later (List.Subset.trans known.1 grows))

/-- **The calls of `set_pinned`.** -/
theorem lawful_setPinned (key : KvBlockKey) (pinned : Bool) :
    (engine.setPinned key pinned).Lawful (engine.pinRule key pinned) (fun _ _ => True) [] := by
  unfold setPinned
  exact Program.lawful_bind (lawful_now trivial) fun _ _ known =>
    lawful_pinEach false (fun _ member => List.mem_range.mp member) known.1

/-- Every put so far was of one entry. -/
def OnePut (entry : KvTierEntry) (history : List KvExchange) : Prop :=
  ∀ exchange ∈ history, ∀ tier earlier, exchange.op = .put tier earlier → earlier = entry

theorem lawful_rollBack {block : KvBlock} {ttl : Option Duration} {pinned : Bool} {key : KvBlockKey}
    {tiers : List Nat} (refused : ∃ exchange ∈ history, exchange.op.Refused exchange.answer) :
    (rollBack key tiers).Lawful (engine.putRule block ttl pinned) (fun _ _ => True) history := by
  induction tiers generalizing history with
  | nil => trivial
  | cons index rest ih =>
      refine ⟨refused, fun answer => ?_⟩
      obtain ⟨exchange, member, failed⟩ := refused
      cases answer <;> exact ih ⟨exchange, List.mem_cons_of_mem _ member, failed⟩

theorem lawful_putEach {entry : KvTierEntry} {ttl : Option Duration} {tiers written : List Nat}
    (inside : ∀ index ∈ tiers, index < engine.count) (expires : Expires ttl history entry.expiresAt)
    (one : OnePut entry history) :
    (engine.putEach entry tiers written).Lawful (engine.putRule entry.block ttl entry.pinned)
      (fun _ _ => True) history := by
  induction tiers generalizing history written with
  | nil => trivial
  | cons index rest ih =>
      have here := inside index List.mem_cons_self
      unfold putEach putEntryTo
      rw [requireTier_ok here]
      refine ⟨⟨here, rfl, rfl, expires, one⟩, fun answer => ?_⟩
      cases answer with
      | error error =>
          show (rollBack entry.block.key written >>= fun _ => Program.fail error).Lawful _ _ _
          refine Program.lawful_bind (lawful_rollBack ?_) fun _ _ _ => trivial
          exact ⟨_, List.mem_cons_self, error, rfl⟩
      | ok _ =>
          refine ih (fun tier member => inside tier (List.mem_cons_of_mem _ member)) ?_ ?_
          · rcases expires with zero | ⟨duration, now, given, ⟨exchange, member, time⟩, value⟩
            · exact Or.inl zero
            · exact Or.inr ⟨duration, now, given, ⟨exchange, List.mem_cons_of_mem _ member, time⟩, value⟩
          · intro exchange member tier earlier put
            rcases List.mem_cons.mp member with rfl | before
            · cases put
              rfl
            · exact one exchange before tier earlier put

/-- **The calls of `put`.** -/
theorem lawful_put (block : KvBlock) (ttl : Option Duration) (pinned : Bool) :
    (engine.put block ttl pinned).Lawful (engine.putRule block ttl pinned) (fun _ _ => True) [] := by
  have expiry : (writeExpiry ttl).Lawful (engine.putRule block ttl pinned)
      (fun expiresAt after => Expires ttl after expiresAt ∧ ∀ entry, OnePut entry after) [] := by
    have none_yet : ∀ entry, OnePut entry [] := fun _ _ member => absurd member List.not_mem_nil
    unfold writeExpiry
    cases ttl with
    | none => exact ⟨Or.inl rfl, none_yet⟩
    | some duration =>
        dsimp only
        split
        case isTrue zero => exact ⟨Or.inl rfl, none_yet⟩
        case isFalse positive =>
          refine Program.lawful_bind (lawful_now trivial) fun now after known => ⟨Or.inr ⟨duration, now, rfl,
            known.1, ?_⟩, fun entry exchange member tier earlier put => ?_⟩
          · unfold expiryAt
            rw [if_neg positive]
          · rcases known.2 exchange member with before | time
            · cases before
            · rw [put] at time
              cases time
  unfold put
  refine Program.lawful_bind expiry fun expiresAt after known => ?_
  have writing : (engine.putEntry ⟨block, expiresAt, pinned⟩).Lawful (engine.putRule block ttl pinned)
      (fun _ _ => True) after := by
    unfold putEntry
    split
    · refine Program.lawful_done_bind fun _ checked => ?_
      have allowed : engine.putRule block ttl pinned after (.put 0 ⟨block, expiresAt, pinned⟩) :=
        ⟨of_requireTier checked, rfl, rfl, known.1, known.2 _⟩
      exact (lawful_tierPut allowed).weaken fun _ _ _ => trivial
    · have expires : Expires ttl after (KvTierEntry.mk block expiresAt pinned).expiresAt := known.1
      exact lawful_putEach (fun _ member => List.mem_range.mp member) expires (known.2 _)
  exact Program.lawful_bind writing fun _ _ _ => ⟨trivial, fun _ => trivial⟩

end KvEngine

/-! ### Beside each other -/

/-- The block and the expiry are the same, whatever the pin flag. -/
def SameData (left right : KvTierEntry) : Prop :=
  left.block = right.block ∧ left.expiresAt = right.expiresAt

/-- A thread's call stored an entry in a tier. -/
def StoredBy (thread tier : Nat) (entry : KvTierEntry) (event : KvEvent) : Prop :=
  event.thread = thread ∧ event.op.Stores tier entry event.answer

/-- A thread's call read an entry from a tier. -/
def ReadBy (thread tier : Nat) (key : KvBlockKey) (entry : KvTierEntry) (event : KvEvent) : Prop :=
  event.thread = thread ∧ event.op.Reads tier key entry event.answer

/-- **A put that is overwritten**: a thread read an entry from a tier, the put stored its own there, and
the thread stored what it had read, with another pin flag. -/
def Overwritten (pinner writer : Nat) (key : KvBlockKey) (pinned : Bool) (tier : Nat)
    (log : List KvEvent) : Prop :=
  ∃ newer stored middle read older, log = newer ++ stored :: (middle ++ read :: older) ∧
    (∃ entry, ReadBy pinner tier key entry read ∧
      StoredBy pinner tier { entry with pinned := pinned } stored) ∧
    ∃ event ∈ middle, ∃ entry, StoredBy writer tier entry event

theorem Overwritten.append {pinner writer : Nat} {key : KvBlockKey} {pinned : Bool} {tier : Nat}
    {log : List KvEvent} (overwritten : Overwritten pinner writer key pinned tier log)
    (more : List KvEvent) : Overwritten pinner writer key pinned tier (more ++ log) := by
  obtain ⟨newer, stored, middle, read, older, rfl, rest⟩ := overwritten
  exact ⟨more ++ newer, stored, middle, read, older, by rw [List.append_assoc], rest⟩

namespace KvEngine

/-- **No expiry**: what the tiers hold for the key, and what the put writes, is never expired. -/
structure NeverExpires (engine : KvEngine τ)
    (contents : (index : Nat) → τ index → KvBlockKey → Option KvTierEntry) (key : KvBlockKey)
    (ttl : Option Duration) (s : KvState τ) : Prop where
  held : ∀ tier < engine.count, ∀ entry, s.held contents tier key = some entry →
    ∀ reading, entry.expired (engine.clock reading) = false
  written : ∀ duration, ttl = some duration → ∀ reading later,
    isExpired (UInt64.ofNat (expiryAt (engine.clock reading) duration)).toNat (engine.clock later) = false

/-- **The invariant of a run**: what `set_pinned` has read is what the tier held, and a tier that the
put has written holds its data unless it was overwritten. -/
structure Beside (engine : KvEngine τ)
    (contents : (index : Nat) → τ index → KvBlockKey → Option KvTierEntry) (pinner writer : Nat)
    (key : KvBlockKey) (pinned : Bool) (s : KvState τ) (log : List KvEvent) : Prop where
  unexpired : ∀ tier < engine.count, ∀ entry, s.held contents tier key = some entry →
    ∀ reading, entry.expired (engine.clock reading) = false
  seen : ∀ event ∈ log, ∀ tier < engine.count, ∀ entry, ReadBy pinner tier key entry event →
    entry.block.key = key ∧ ∀ reading, entry.expired (engine.clock reading) = false
  times : ∀ event ∈ log, ∀ now, event.op.Times now event.answer → ∃ reading, now = engine.clock reading
  accepted : ∀ event ∈ log, ¬ event.op.Refused event.answer
  kept : ∀ event ∈ log, ∀ tier < engine.count, ∀ entry, StoredBy writer tier entry event →
    (∃ there, s.held contents tier key = some there ∧ SameData there entry) ∨
      Overwritten pinner writer key pinned tier log
  read : ∀ newer event older, log = newer ++ event :: older → ∀ tier < engine.count, ∀ found,
    ReadBy pinner tier key found event → ∀ earlier ∈ older, ∀ entry, StoredBy writer tier entry earlier →
      SameData found entry ∨ Overwritten pinner writer key pinned tier older

variable {pinner writer : Nat} {key : KvBlockKey} {pinned : Bool} {s : KvState τ} {log : List KvEvent}

/-- What a call must have done. -/
theorem Beside.next (beside : engine.Beside contents pinner writer key pinned s log)
    (mapLike : engine.MapTiers contents) {after : KvState τ} {event : KvEvent}
    (unexpired : ∀ tier < engine.count, ∀ entry, after.held contents tier key = some entry →
      ∀ reading, entry.expired (engine.clock reading) = false)
    (reads : ∀ tier < engine.count, ∀ entry, ReadBy pinner tier key entry event →
      s.held contents tier key = some entry)
    (times : ∀ now, event.op.Times now event.answer → ∃ reading, now = engine.clock reading)
    (accepted : ¬ event.op.Refused event.answer)
    (kept : ∀ stored ∈ event :: log, ∀ tier < engine.count, ∀ entry, StoredBy writer tier entry stored →
      (∃ there, after.held contents tier key = some there ∧ SameData there entry) ∨
        Overwritten pinner writer key pinned tier (event :: log)) :
    engine.Beside contents pinner writer key pinned after (event :: log) where
  unexpired := unexpired
  seen other member tier inside entry readBy := by
    rcases List.mem_cons.mp member with rfl | before
    · have held := reads tier inside entry readBy
      exact ⟨(mapLike tier inside).keyed _ _ _ held, beside.unexpired tier inside entry held⟩
    · exact beside.seen other before tier inside entry readBy
  times other member := by
    rcases List.mem_cons.mp member with rfl | before
    · exact times
    · exact beside.times other before
  accepted other member := by
    rcases List.mem_cons.mp member with rfl | before
    · exact accepted
    · exact beside.accepted other before
  kept := kept
  read newer other older split tier inside found readBy earlier member entry stored := by
    cases newer with
    | nil =>
        cases split
        have held := reads tier inside found readBy
        refine (beside.kept earlier member tier inside entry stored).imp_left ?_
        rintro ⟨there, present, same⟩
        rw [held] at present
        cases present
        exact same
    | cons first rest =>
        cases split
        exact beside.read rest other older rfl tier inside found readBy earlier member entry stored

/-- **A call that changes no map.** -/
theorem Beside.quiet (beside : engine.Beside contents pinner writer key pinned s log)
    (mapLike : engine.MapTiers contents) {after : KvState τ} {event : KvEvent}
    (maps : after.held contents = s.held contents)
    (reads : ∀ tier < engine.count, ∀ entry, ReadBy pinner tier key entry event →
      s.held contents tier key = some entry)
    (times : ∀ now, event.op.Times now event.answer → ∃ reading, now = engine.clock reading)
    (accepted : ¬ event.op.Refused event.answer) (stores : ∀ tier entry, ¬ StoredBy writer tier entry event) :
    engine.Beside contents pinner writer key pinned after (event :: log) := by
  refine beside.next mapLike (by rw [maps]; exact beside.unexpired) reads times accepted ?_
  intro stored member tier inside entry storedBy
  rcases List.mem_cons.mp member with rfl | before
  · exact absurd storedBy (stores tier entry)
  · rw [maps]
    exact (beside.kept stored before tier inside entry storedBy).imp_right fun overwritten =>
      overwritten.append [event]

/-- A reading of the clock, or an update of the statistics, by any thread. -/
theorem Beside.idle (beside : engine.Beside contents pinner writer key pinned s log)
    (mapLike : engine.MapTiers contents) (thread : Nat) {op : KvOp}
    (tierless : op = .now ∨ ∃ update, op = .count update) :
    engine.Beside contents pinner writer key pinned (engine.handle op s).2
      (⟨thread, op, (engine.handle op s).1⟩ :: log) := by
  rcases tierless with rfl | ⟨update, rfl⟩
  · refine beside.quiet mapLike rfl (fun _ _ _ read => read.2.elim) ?_ id fun _ _ stored => stored.2
    rintro _ rfl
    exact ⟨s.reads, rfl⟩
  · exact beside.quiet mapLike rfl (fun _ _ _ read => read.2.elim) (fun _ time => time.elim) id
      fun _ _ stored => stored.2

/-- **A call of `set_pinned`.** -/
theorem Beside.pinner_step (beside : engine.Beside contents pinner writer key pinned s log)
    (mapLike : engine.MapTiers contents) (succeed : engine.TiersSucceed) (different : pinner ≠ writer)
    {op : KvOp} (allowed : engine.pinRule key pinned (Pool.own log pinner) op) :
    engine.Beside contents pinner writer key pinned (engine.handle op s).2
      (⟨pinner, op, (engine.handle op s).1⟩ :: log) := by
  cases op with
  | now => exact beside.idle mapLike pinner (Or.inl rfl)
  | count update => exact beside.idle mapLike pinner (Or.inr ⟨update, rfl⟩)
  | get tier asked =>
      obtain ⟨inside, rfl⟩ := allowed
      refine beside.quiet mapLike (held_get (mapLike tier inside) s asked) ?_ (fun _ time => time.elim) id
        fun _ _ stored => stored.2
      rintro _ _ entry ⟨_, rfl, _, answered⟩
      exact (got_held (mapLike tier inside) s answered).symm
  | put tier entry =>
      obtain ⟨inside, read, ⟨exchange, member, reads⟩, rfl⟩ := allowed
      obtain ⟨event, inLog, mine, rfl⟩ := Pool.mem_own.mp member
      obtain ⟨own, fresh⟩ := beside.seen event inLog tier inside read ⟨mine, reads⟩
      have ok := succeed.puts tier inside { read with pinned := pinned } (s.tiers tier)
      have maps := held_put (mapLike tier inside) s ok
      refine beside.next mapLike ?_ (fun _ _ _ read => read.2.elim) (fun _ time => time.elim) ?_ ?_
      · intro other otherInside stored present
        rw [maps, heldWith_apply] at present
        split at present
        case isTrue =>
          cases present
          exact fresh
        case isFalse => exact beside.unexpired other otherInside stored present
      · rintro ⟨error, refused⟩
        have both := ok.symm.trans refused
        cases both
      · intro stored there other otherInside put storedBy
        rcases List.mem_cons.mp there with rfl | before
        · exact absurd storedBy.1 different
        · by_cases here : other = tier
          · subst here
            obtain ⟨middle, older, rfl⟩ := List.append_of_mem inLog
            rcases List.mem_append.mp before with newer | behind
            · exact Or.inr ⟨[], _, middle, event, older, rfl, ⟨read, ⟨mine, reads⟩, rfl, rfl, rfl, ok⟩,
                stored, newer, put, storedBy⟩
            · rcases List.mem_cons.mp behind with rfl | earlier
              · exact absurd (mine.symm.trans storedBy.1) different
              · rcases beside.read middle event older rfl other inside read ⟨mine, reads⟩ stored earlier put
                  storedBy with same | overwritten
                · refine Or.inl ⟨{ read with pinned := pinned }, ?_, same⟩
                  rw [maps, heldWith_apply, if_pos ⟨rfl, own.symm⟩]
                · refine Or.inr ?_
                  have longer := overwritten.append (⟨pinner, .put other { read with pinned := pinned },
                    (engine.handle (.put other { read with pinned := pinned }) s).1⟩ :: (middle ++ [event]))
                  rwa [List.cons_append, List.append_assoc] at longer
          · have unchanged : (engine.handle (.put tier { read with pinned := pinned }) s).2.held contents
                other key = s.held contents other key := by
              rw [maps, heldWith_apply, if_neg fun both => here both.1]
            rw [unchanged]
            exact (beside.kept stored before other otherInside put storedBy).imp_right fun overwritten =>
              overwritten.append [_]
  | remove tier asked =>
      obtain ⟨inside, rfl, read, now, ⟨exchange, member, reads⟩, ⟨clocked, timed, time⟩, expired⟩ := allowed
      obtain ⟨event, inLog, mine, rfl⟩ := Pool.mem_own.mp member
      obtain ⟨reading, inLog', _, rfl⟩ := Pool.mem_own.mp timed
      obtain ⟨reading, rfl⟩ := beside.times reading inLog' now time
      have unexpired := (beside.seen event inLog tier inside read ⟨mine, reads⟩).2 reading
      rw [unexpired] at expired
      cases expired
  | clear tier => exact allowed.elim
  | health tier => exact allowed.elim
  | stats => exact allowed.elim

/-- **A call of `put`.** -/
theorem Beside.writer_step (beside : engine.Beside contents pinner writer key pinned s log)
    (mapLike : engine.MapTiers contents) (succeed : engine.TiersSucceed)
    {block : KvBlock} {ttl : Option Duration} {flag : Bool} {start : KvState τ}
    (never : engine.NeverExpires contents key ttl start) (own : block.key = key)
    {op : KvOp} (allowed : engine.putRule block ttl flag (Pool.own log writer) op) :
    engine.Beside contents pinner writer key pinned (engine.handle op s).2
      (⟨writer, op, (engine.handle op s).1⟩ :: log) := by
  cases op with
  | now => exact beside.idle mapLike writer (Or.inl rfl)
  | count update => exact beside.idle mapLike writer (Or.inr ⟨update, rfl⟩)
  | put tier entry =>
      obtain ⟨inside, rfl, rfl, expires, one⟩ := allowed
      have ok := succeed.puts tier inside entry (s.tiers tier)
      have maps := held_put (mapLike tier inside) s ok
      have fresh : ∀ reading, entry.expired (engine.clock reading) = false := by
        intro reading
        rcases expires with zero | ⟨duration, now, given, ⟨clocked, timed, time⟩, value⟩
        · unfold KvTierEntry.expired
          rw [zero]
          rfl
        · obtain ⟨event, inLog, _, rfl⟩ := Pool.mem_own.mp timed
          obtain ⟨earlier, rfl⟩ := beside.times event inLog now time
          unfold KvTierEntry.expired
          rw [value]
          exact never.written duration given earlier reading
      refine beside.next mapLike ?_ (fun _ _ _ read => read.2.elim) (fun _ time => time.elim) ?_ ?_
      · intro other otherInside stored present
        rw [maps, heldWith_apply] at present
        split at present
        case isTrue =>
          cases present
          exact fresh
        case isFalse => exact beside.unexpired other otherInside stored present
      · rintro ⟨error, refused⟩
        have both := ok.symm.trans refused
        cases both
      · intro stored there other otherInside put storedBy
        by_cases here : other = tier
        · subst here
          have same : put = entry := by
            rcases List.mem_cons.mp there with rfl | before
            · exact storedBy.2.2.1.symm
            · obtain ⟨thread, op, answer⟩ := stored
              obtain ⟨mine, stores⟩ := storedBy
              cases op with
              | put called given =>
                  obtain ⟨rfl, rfl, _⟩ := stores
                  exact one _ (Pool.mem_own.mpr ⟨_, before, mine, rfl⟩) called given rfl
              | _ => exact stores.elim
          rw [same]
          refine Or.inl ⟨entry, ?_, rfl, rfl⟩
          rw [maps, heldWith_apply, if_pos ⟨rfl, own.symm⟩]
        · rcases List.mem_cons.mp there with rfl | before
          · exact absurd storedBy.2.1.symm here
          · rw [maps, heldWith_apply, if_neg fun both => here both.1]
            exact (beside.kept stored before other otherInside put storedBy).imp_right fun overwritten =>
              overwritten.append [_]
  | remove tier asked =>
      obtain ⟨exchange, member, refused⟩ := allowed
      obtain ⟨event, inLog, _, rfl⟩ := Pool.mem_own.mp member
      exact absurd refused (beside.accepted event inLog)
  | get tier asked => exact allowed.elim
  | clear tier => exact allowed.elim
  | health tier => exact allowed.elim
  | stats => exact allowed.elim

section Runs

variable {calls : Nat → Option KvCall} {block : KvBlock} {ttl : Option Duration} {flag : Bool}
  {start : KvState τ} {allowed : Nat → Pool KvOp KvOp.Answer IoError (KvState τ) → Prop}
  {pool : Pool KvOp KvOp.Answer IoError (KvState τ)}

/-- The thread of a `set_pinned` is lawful. -/
theorem lawful_pinner (pinning : calls pinner = some (.setPinned key pinned)) :
    ((engine.spawn calls start).threads pinner).Lawful
      (engine.pinRule key pinned) (fun _ _ => True) [] := by
  unfold spawn
  simp only [pinning]
  exact Program.lawful_bind (lawful_setPinned key pinned) fun _ _ _ => trivial

/-- The thread of a `put` is lawful. -/
theorem lawful_writer (putting : calls writer = some (.put block ttl flag)) :
    ((engine.spawn calls start).threads writer).Lawful
      (engine.putRule block ttl flag) (fun _ _ => True) [] := by
  unfold spawn
  simp only [putting]
  exact lawful_put block ttl flag

/-- **Along a run** of the two, in any order. -/
theorem beside (mapLike : engine.MapTiers contents) (succeed : engine.TiersSucceed)
    (different : pinner ≠ writer) (pinning : calls pinner = some (.setPinned key pinned))
    (putting : calls writer = some (.put block ttl flag)) (own : block.key = key)
    (alone : ∀ thread, thread ≠ pinner → thread ≠ writer → calls thread = none)
    (never : engine.NeverExpires contents key ttl start)
    (reached : Reaches (Pool.advance engine.handle) allowed (engine.spawn calls start) pool) :
    engine.Beside contents pinner writer key pinned pool.state pool.log := by
  induction reached with
  | refl =>
      refine ⟨never.held, ?_, ?_, ?_, ?_, ?_⟩
      · exact fun _ member => absurd member List.not_mem_nil
      · exact fun _ member => absurd member List.not_mem_nil
      · exact fun _ member => absurd member List.not_mem_nil
      · exact fun _ member => absurd member List.not_mem_nil
      · intro newer event older split
        change [] = _ at split
        simp at split
  | @step pool thread before permitted ih =>
      rcases Pool.advance_cases engine.handle thread pool with same | ⟨op, next, head, moved⟩
      · rw [same]
        exact ih
      rw [moved]
      by_cases pins : thread = pinner
      · subst pins
        have lawful := Pool.lawful engine.handle rfl (lawful_pinner pinning) before
        rw [head] at lawful
        exact ih.pinner_step mapLike succeed different lawful.1
      by_cases puts : thread = writer
      · subst puts
        have lawful := Pool.lawful engine.handle rfl (lawful_writer putting) before
        rw [head] at lawful
        exact ih.writer_step mapLike succeed never own lawful.1
      have idle : ((engine.spawn calls start).threads thread).Lawful
          (fun _ _ => False) (fun _ _ => True) [] := by
        unfold spawn
        simp only [alone thread pins puts]
        trivial
      have lawful := Pool.lawful engine.handle rfl idle before
      rw [head] at lawful
      exact lawful.1.elim

/-- **`set_pinned` beside a `put`.** A tier that the put has written holds its block and expiry, or
`set_pinned` had read the tier before and wrote it back after. What `set_pinned` writes it has read from
the same tier, but for the pin flag; it removes nothing. -/
theorem written_or_overwritten (mapLike : engine.MapTiers contents) (succeed : engine.TiersSucceed)
    (different : pinner ≠ writer) (pinning : calls pinner = some (.setPinned key pinned))
    (putting : calls writer = some (.put block ttl flag)) (own : block.key = key)
    (alone : ∀ thread, thread ≠ pinner → thread ≠ writer → calls thread = none)
    (never : engine.NeverExpires contents key ttl start)
    (reached : Reaches (Pool.advance engine.handle) allowed (engine.spawn calls start) pool) :
    (∀ event ∈ pool.log, ∀ tier < engine.count, ∀ entry, StoredBy writer tier entry event →
      entry.block = block ∧
        ((∃ there, pool.state.held contents tier key = some there ∧ SameData there entry) ∨
          Overwritten pinner writer key pinned tier pool.log)) ∧
    (∀ newer event older, pool.log = newer ++ event :: older → ∀ tier entry,
      StoredBy pinner tier entry event → ∃ read ∈ older, ∃ found,
        ReadBy pinner tier key found read ∧ entry = { found with pinned := pinned }) ∧
    ∀ event ∈ pool.log, event.thread = pinner → ∀ tier asked, ¬ event.op.Removes tier asked event.answer := by
  have along := beside mapLike succeed different pinning putting own alone never reached
  refine ⟨fun event member tier inside entry stored =>
    ⟨?_, along.kept event member tier inside entry stored⟩, ?_, ?_⟩
  · obtain ⟨newer, older, split⟩ := List.append_of_mem member
    have rule := Pool.lawful_event engine.handle rfl (lawful_writer putting) reached split stored.1
    obtain ⟨thread, op, answer⟩ := event
    obtain ⟨_, stores⟩ := stored
    cases op with
    | put called given =>
        obtain ⟨rfl, rfl, _⟩ := stores
        exact rule.2.1
    | _ => exact stores.elim
  · intro newer event older split tier entry stored
    have rule := Pool.lawful_event engine.handle rfl (lawful_pinner pinning) reached split stored.1
    obtain ⟨thread, op, answer⟩ := event
    obtain ⟨_, stores⟩ := stored
    cases op with
    | put called given =>
        obtain ⟨rfl, rfl, _⟩ := stores
        obtain ⟨_, found, ⟨exchange, there, reads⟩, same⟩ := rule
        obtain ⟨read, inside, mine, rfl⟩ := Pool.mem_own.mp there
        exact ⟨read, inside, found, ⟨mine, reads⟩, same⟩
    | _ => exact stores.elim
  · intro event member mine tier asked removes
    obtain ⟨newer, older, split⟩ := List.append_of_mem member
    have rule := Pool.lawful_event engine.handle rfl (lawful_pinner pinning) reached split mine
    obtain ⟨thread, op, answer⟩ := event
    cases op with
    | remove called given =>
        obtain ⟨inside, _, read, now, ⟨exchange, there, reads⟩, ⟨clocked, timed, time⟩, expired⟩ := rule
        obtain ⟨found, inOlder, own, rfl⟩ := Pool.mem_own.mp there
        obtain ⟨clocked, alsoOlder, _, rfl⟩ := Pool.mem_own.mp timed
        have inLog {event : KvEvent} (there : event ∈ older) : event ∈ pool.log :=
          split ▸ List.mem_append_right _ (List.mem_cons_of_mem _ there)
        obtain ⟨reading, rfl⟩ := along.times clocked (inLog alsoOlder) now time
        have unexpired := (along.seen found (inLog inOlder) called inside read ⟨own, reads⟩).2 reading
        rw [unexpired] at expired
        cases expired
    | _ => exact removes.elim

end Runs

/-! ### Two runs -/

/-- Thread `0` pins the key and thread `1` puts a new block for it. -/
def pinningCalls : Nat → Option KvCall
  | 0 => some (.setPinned KvBlockKey.sample true)
  | 1 => some (.put (KvBlock.sample 2) none false)
  | _ => none

/-- The faster of two memory tiers holds a block; the threads take steps as listed. -/
def pinRace (schedule : List Nat) :
    Pool KvOp KvOp.Answer IoError (KvState (Pair MemoryTier MemoryTier)) :=
  schedule.foldl (fun pool thread => pool.advance twoMemoryTiers.handle thread)
    (twoMemoryTiers.spawn pinningCalls
      (twoMemoryTiers.run (twoMemoryTiers.putTo 0 (KvBlock.sample 1) none false)
        (KvState.pair MemoryTier.empty MemoryTier.empty)).2)

theorem pinRace_reached (schedule : List Nat) :
    Reaches (Pool.advance twoMemoryTiers.handle) (fun _ _ => True) (pinRace []) (pinRace schedule) :=
  .foldl (fun _ _ => trivial) schedule _

theorem pinRace_alone : ∀ thread, thread ≠ 0 → thread ≠ 1 → pinningCalls thread = none
  | 0, other, _ => absurd rfl other
  | 1, _, other => absurd rfl other
  | _ + 2, _, _ => rfl

/-- The block that is held has no TTL, and neither has the new one. -/
theorem pinRace_never :
    twoMemoryTiers.NeverExpires twoMemoryMaps KvBlockKey.sample none (pinRace []).state where
  held tier inside entry present reading := by
    match tier with
    | 0 =>
        have held : (pinRace []).state.held twoMemoryMaps 0 KvBlockKey.sample =
            some ⟨KvBlock.sample 1, 0, false⟩ := rfl
        rw [held] at present
        cases present
        rfl
    | other + 1 =>
        have held : (pinRace []).state.held twoMemoryMaps (other + 1) KvBlockKey.sample = none := rfl
        rw [held] at present
        cases present
  written duration given := by cases given

/-- A `set_pinned` that comes after the put pins the new block. -/
theorem written_or_overwritten_in_order :
    ∃ event ∈ (pinRace [1, 1, 0, 0, 0, 0]).log, StoredBy 1 0 ⟨KvBlock.sample 2, 0, false⟩ event ∧
      ((∃ there, (pinRace [1, 1, 0, 0, 0, 0]).state.held twoMemoryMaps 0 KvBlockKey.sample = some there ∧
        SameData there ⟨KvBlock.sample 2, 0, false⟩) ∨
        Overwritten 0 1 KvBlockKey.sample true 0 (pinRace [1, 1, 0, 0, 0, 0]).log) := by
  have all := written_or_overwritten twoMemoryTiers_mapTiers twoMemoryTiers_succeed Nat.zero_ne_one
    (show pinningCalls 0 = some (.setPinned KvBlockKey.sample true) from rfl)
    (show pinningCalls 1 = some (.put (KvBlock.sample 2) none false) from rfl) rfl pinRace_alone pinRace_never
    (pinRace_reached [1, 1, 0, 0, 0, 0])
  have stored : ∃ event ∈ (pinRace [1, 1, 0, 0, 0, 0]).log,
      StoredBy 1 0 ⟨KvBlock.sample 2, 0, false⟩ event :=
    ⟨_, List.mem_of_getElem? (show (pinRace [1, 1, 0, 0, 0, 0]).log[5]? = some _ from rfl),
      rfl, rfl, rfl, rfl⟩
  obtain ⟨event, member, storedBy⟩ := stored
  exact ⟨event, member, storedBy, (all.1 event member 0 (by decide) _ storedBy).2⟩

/-- **A change of pin undoes a put**: `set_pinned` reads the old block, the put replaces it, and
`set_pinned` writes the old block back. Both have finished. -/
theorem pin_overwrites_put :
    let pool := pinRace [0, 0, 1, 0, 1, 0]
    twoMemoryTiers.MapTiers twoMemoryMaps ∧ twoMemoryTiers.TiersSucceed ∧
      twoMemoryTiers.NeverExpires twoMemoryMaps KvBlockKey.sample none (pinRace []).state ∧
      Reaches (Pool.advance twoMemoryTiers.handle) (fun _ _ => True) (pinRace []) pool ∧ pool.Finished ∧
      (∃ event ∈ pool.log, StoredBy 1 0 ⟨KvBlock.sample 2, 0, false⟩ event) ∧
      pool.state.held twoMemoryMaps 0 KvBlockKey.sample = some ⟨KvBlock.sample 1, 0, true⟩ := by
  refine ⟨twoMemoryTiers_mapTiers, twoMemoryTiers_succeed, pinRace_never, pinRace_reached _, ?_, ?_, rfl⟩
  · intro thread
    match thread with
    | 0 => exact ⟨_, rfl⟩
    | 1 => exact ⟨_, rfl⟩
    | _ + 2 => exact ⟨_, rfl⟩
  · exact ⟨_, List.mem_of_getElem? (show (pinRace [0, 0, 1, 0, 1, 0]).log[3]? = some _ from rfl),
      rfl, rfl, rfl, rfl⟩

end KvEngine

end RivetCache
