/-
**Tiers that may lose an entry, and never alter one.**

A wrapper around a map-like tier need not be one: what it stores it may be unable to read. It still answers
either what was put last, or nothing (`LossyTier`); and of the entries that fit it, it loses none.

* `MapTier.lossy`, `LossyTier.mapTier`: a map-like tier is one that every entry fits;
* `LossyTier.answers_last_put`: over any run of calls that starts empty, an entry that is answered is the last
  one put under its key, and no successful `remove` or `clear` came after; and where that one fits, it is
  answered.
-/

import RivetCache.Kv.Tier
import RivetCache.Library.Run
import RivetCache.Library.WriteLog

set_option linter.unusedSectionVars false

namespace RivetCache

open Library

variable {τ : Type} {tier : KvTier τ} {contents : τ → KvBlockKey → Option KvTierEntry}
  {fits : KvTierEntry → Prop}

/-! ### The laws -/

/-- **A tier that may lose what it is given.** `contents` reads what a state can still answer. -/
structure LossyTier (tier : KvTier τ) (contents : τ → KvBlockKey → Option KvTierEntry)
    (fits : KvTierEntry → Prop) : Prop where
  keyed : ∀ state key entry, contents state key = some entry → entry.block.key = key
  got : ∀ state key answer, (tier.get key state).1 = .ok answer → answer = contents state key
  get : ∀ state key, contents (tier.get key state).2 = contents state
  put : ∀ state entry, (tier.put entry state).1 = .ok () →
    ∃ kept, (kept = none ∨ kept = some entry) ∧
      contents (tier.put entry state).2 = Function.update (contents state) entry.block.key kept
  putFits : ∀ state entry, fits entry → (tier.put entry state).1 = .ok () →
    contents (tier.put entry state).2 = Function.update (contents state) entry.block.key (some entry)
  putFailed : ∀ state entry error, (tier.put entry state).1 = .error error →
    contents (tier.put entry state).2 = contents state
  remove : ∀ state key, (tier.remove key state).1 = .ok () →
    contents (tier.remove key state).2 = Function.update (contents state) key none
  removeFailed : ∀ state key error, (tier.remove key state).1 = .error error →
    contents (tier.remove key state).2 = contents state
  clear : ∀ state, (tier.clear state).1 = .ok () → contents (tier.clear state).2 = fun _ => none
  clearFailed : ∀ state error, (tier.clear state).1 = .error error →
    contents (tier.clear state).2 = contents state
  health : ∀ state, contents (tier.health state).2 = contents state

/-- A map-like tier loses nothing. -/
theorem MapTier.lossy (laws : MapTier tier contents) : LossyTier tier contents fun _ => True where
  keyed := laws.keyed
  got := laws.got
  get := laws.get
  put state entry accepted := ⟨some entry, Or.inr rfl, laws.put state entry accepted⟩
  putFits state entry _ := laws.put state entry
  putFailed := laws.putFailed
  remove := laws.remove
  removeFailed := laws.removeFailed
  clear := laws.clear
  clearFailed := laws.clearFailed
  health := laws.health

/-- **A tier that every accepted entry fits is map-like.** -/
theorem LossyTier.mapTier (laws : LossyTier tier contents fits) (all : ∀ entry, fits entry) :
    MapTier tier contents where
  keyed := laws.keyed
  got := laws.got
  get := laws.get
  put state entry := laws.putFits state entry (all entry)
  putFailed := laws.putFailed
  remove := laws.remove
  removeFailed := laws.removeFailed
  clear := laws.clear
  clearFailed := laws.clearFailed
  health := laws.health

/-! ### Runs -/

/-- A call of a tier. -/
inductive TierCall where
  | get (key : KvBlockKey)
  | put (entry : KvTierEntry)
  | remove (key : KvBlockKey)
  | clear
  | health

/-- What was put, removed and cleared with success, newest first. -/
abbrev TierLog := List (LogEntry KvBlockKey KvTierEntry)

/-- A call that succeeded is logged. -/
def logged (entry : LogEntry KvBlockKey KvTierEntry) : Except IoError Unit → TierLog → TierLog
  | .ok (), log => entry :: log
  | .error _, log => log

/-- A call, on the tier and on the log. -/
def KvTier.traced (tier : KvTier τ) : TierCall → τ × TierLog → τ × TierLog
  | .get key, (state, log) => ((tier.get key state).2, log)
  | .put entry, (state, log) =>
      ((tier.put entry state).2,
        logged (.write entry.block.key entry true) (tier.put entry state).1 log)
  | .remove key, (state, log) =>
      ((tier.remove key state).2, logged (.erase key) (tier.remove key state).1 log)
  | .clear, (state, log) => ((tier.clear state).2, logged .eraseAll (tier.clear state).1 log)
  | .health, (state, log) => ((tier.health state).2, log)

/-- **A tier and the log agree**: an entry held is the latest, and a latest entry that fits is held. -/
structure Recalls (contents : τ → KvBlockKey → Option KvTierEntry) (fits : KvTierEntry → Prop)
    (traced : τ × TierLog) : Prop where
  held : ∀ key entry, contents traced.1 key = some entry → latest key traced.2 = some entry
  kept : ∀ key entry, latest key traced.2 = some entry → fits entry →
    contents traced.1 key = some entry

namespace Recalls

variable {state after : τ} {log : TierLog}

/-- What is held and what is logged are unchanged. -/
theorem same (recalls : Recalls contents fits (state, log))
    (unchanged : contents after = contents state) : Recalls contents fits (after, log) where
  held key entry present := recalls.held key entry (by rwa [← unchanged])
  kept key entry last fit := by
    show contents after key = some entry
    rw [unchanged]
    exact recalls.kept key entry last fit

/-- One key is written, and its entry held or lost. -/
theorem written (recalls : Recalls contents fits (state, log)) {entry : KvTierEntry}
    {kept : Option KvTierEntry} (possible : kept = none ∨ kept = some entry)
    (fitted : fits entry → kept = some entry)
    (updated : contents after = Function.update (contents state) entry.block.key kept) :
    Recalls contents fits (after, .write entry.block.key entry true :: log) where
  held key other present := by
    change contents after key = some other at present
    rw [updated, Function.update_apply] at present
    by_cases here : key = entry.block.key
    · rw [if_pos here] at present
      rcases possible with rfl | rfl
      · cases present
      · simp [latest, here, Option.some.inj present]
    · rw [if_neg here] at present
      simp [latest, Ne.symm here, recalls.held key other present]
  kept key other last fit := by
    show contents after key = some other
    rw [updated, Function.update_apply]
    by_cases here : key = entry.block.key
    · simp only [latest, here, if_true, Option.some.injEq] at last
      subst last
      rw [if_pos here]
      exact fitted fit
    · simp only [latest, Ne.symm here, if_false] at last
      rw [if_neg here]
      exact recalls.kept key other last fit

/-- One key is removed. -/
theorem erased (recalls : Recalls contents fits (state, log)) {key : KvBlockKey}
    (updated : contents after = Function.update (contents state) key none) :
    Recalls contents fits (after, .erase key :: log) where
  held asked entry present := by
    change contents after asked = some entry at present
    rw [updated, Function.update_apply] at present
    by_cases here : asked = key
    · rw [if_pos here] at present
      cases present
    · rw [if_neg here] at present
      simp [latest, Ne.symm here, recalls.held asked entry present]
  kept asked entry last fit := by
    show contents after asked = some entry
    rw [updated, Function.update_apply]
    by_cases here : asked = key
    · simp [latest, here] at last
    · simp only [latest, Ne.symm here, if_false] at last
      rw [if_neg here]
      exact recalls.kept asked entry last fit

/-- All keys are removed. -/
theorem emptied (updated : contents after = fun _ => none) (log : TierLog) :
    Recalls contents fits (after, .eraseAll :: log) where
  held key entry present := by
    change contents after key = some entry at present
    rw [updated] at present
    cases present
  kept key entry last := by simp [latest] at last

end Recalls

namespace LossyTier

/-- **A call keeps the agreement.** -/
theorem recalls_traced (laws : LossyTier tier contents fits) (call : TierCall) (traced : τ × TierLog)
    (recalls : Recalls contents fits traced) :
    Recalls contents fits (tier.traced call traced) := by
  obtain ⟨state, log⟩ := traced
  cases call with
  | get key => exact recalls.same (laws.get state key)
  | health => exact recalls.same (laws.health state)
  | put entry =>
      show Recalls contents fits (_, logged _ (tier.put entry state).1 log)
      cases outcome : (tier.put entry state).1 with
      | error error => exact recalls.same (laws.putFailed state entry error outcome)
      | ok _ =>
          obtain ⟨kept, possible, updated⟩ := laws.put state entry outcome
          refine recalls.written possible (fun fit => ?_) updated
          have full := laws.putFits state entry fit outcome
          have here := congrFun (updated.symm.trans full) entry.block.key
          simpa using here
  | remove key =>
      show Recalls contents fits (_, logged _ (tier.remove key state).1 log)
      cases outcome : (tier.remove key state).1 with
      | error error => exact recalls.same (laws.removeFailed state key error outcome)
      | ok _ => exact recalls.erased (laws.remove state key outcome)
  | clear =>
      show Recalls contents fits (_, logged _ (tier.clear state).1 log)
      cases outcome : (tier.clear state).1 with
      | error error => exact recalls.same (laws.clearFailed state error outcome)
      | ok _ => exact Recalls.emptied (laws.clear state outcome) log

/-- An empty tier, and nothing logged. -/
theorem recalls_empty {start : τ} (empty : contents start = fun _ => none) :
    Recalls contents fits (start, []) where
  held key entry present := by
    change contents start key = some entry at present
    rw [empty] at present
    cases present
  kept key entry last := by simp [latest] at last

/-- **Every answer is the last put.** Over a run that starts empty, an entry that `get` answers is the last
one put under its key, with no `remove` of the key and no `clear` after it; and where the last one put fits,
an answer is that one. -/
theorem answers_last_put (laws : LossyTier tier contents fits) {start state : τ} {log : TierLog}
    (empty : contents start = fun _ => none)
    (reached : Reaches tier.traced (fun _ _ => True) (start, []) (state, log)) {key : KvBlockKey}
    {answer : Option KvTierEntry} (answered : (tier.get key state).1 = .ok answer) :
    (∀ entry, answer = some entry → latest key log = some entry) ∧
      (∀ entry, latest key log = some entry → fits entry → answer = some entry) := by
  have recalls : Recalls contents fits (state, log) :=
    reached.invariant (Recalls contents fits) (recalls_empty empty) fun call traced before _ =>
      recalls_traced laws call traced before
  rw [laws.got state key answer answered]
  exact ⟨recalls.held key, recalls.kept key⟩

end LossyTier

end RivetCache
