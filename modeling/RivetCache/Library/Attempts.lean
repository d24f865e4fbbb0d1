/-
**Writes that may have failed.**

A client that gets no answer does not know whether what it asked for was done. A log lists such attempts, newest
first, each with what its client was told; an attempt that was not confirmed may have been carried out, or not
(`Attempt.Moves`). `Possible key log held` says that the log allows `held` under a key.

* `possible_written`: a value that may be held was written, and nothing confirmed came after it;
* `possible_latest`: after a confirmed write that no attempt follows, only its value may be held.
-/

import Mathlib.Logic.Basic
import Mathlib.Tactic.Common

set_option linter.unusedSectionVars false

namespace Library

/-- An attempt to change a map, and whether it was confirmed. -/
inductive Attempt (K V : Type) where
  | write (key : K) (value : V) (confirmed : Bool)
  | erase (key : K) (confirmed : Bool)
  | eraseAll (confirmed : Bool)

namespace Attempt

variable {K V : Type}

def confirmed : Attempt K V → Bool
  | write _ _ confirmed => confirmed
  | erase _ confirmed => confirmed
  | eraseAll confirmed => confirmed

/-- The attempt is about the key. -/
def Touches (key : K) : Attempt K V → Prop
  | write written _ _ => written = key
  | erase erased _ => erased = key
  | eraseAll _ => True

/-- What is held under the key it is about, where it is carried out. -/
def result : Attempt K V → Option V
  | write _ value _ => some value
  | erase _ _ => none
  | eraseAll _ => none

/-- **What an attempt does** to what is held under a key. -/
def Moves (key : K) (attempt : Attempt K V) (before after : Option V) : Prop :=
  attempt.Touches key ∧ after = attempt.result ∨
    ¬ (attempt.Touches key ∧ attempt.confirmed = true) ∧ after = before

variable {key : K} {attempt : Attempt K V} {before after : Option V}

/-- An attempt about other keys. -/
theorem moves_other (apart : ¬ attempt.Touches key) : attempt.Moves key before after ↔ after = before := by
  constructor
  · rintro (⟨about, _⟩ | ⟨_, same⟩)
    · exact absurd about apart
    · exact same
  · exact fun same => Or.inr ⟨fun both => apart both.1, same⟩

/-- A confirmed attempt was carried out. -/
theorem moves_confirmed (about : attempt.Touches key) (confirmed : attempt.confirmed = true) :
    attempt.Moves key before after ↔ after = attempt.result := by
  constructor
  · rintro (⟨_, done⟩ | ⟨unconfirmed, _⟩)
    · exact done
    · exact absurd ⟨about, confirmed⟩ unconfirmed
  · exact fun done => Or.inl ⟨about, done⟩

/-- One that was not is allowed to do nothing. -/
theorem moves_same (unconfirmed : attempt.confirmed = false) : attempt.Moves key before before :=
  Or.inr ⟨fun both => absurd both.2 (Bool.eq_false_iff.mp unconfirmed), rfl⟩

/-- Any attempt may be carried out. -/
theorem moves_result (about : attempt.Touches key) : attempt.Moves key before attempt.result :=
  Or.inl ⟨about, rfl⟩

end Attempt

section

variable {K V : Type} {key : K} {log later : List (Attempt K V)} {attempt : Attempt K V} {held : Option V}

/-- **What may be held** under a key after some attempts, newest first. -/
def Possible (key : K) : List (Attempt K V) → Option V → Prop
  | [], held => held = none
  | attempt :: earlier, held => ∃ before, Possible key earlier before ∧ attempt.Moves key before held

/-- Attempts about other keys change nothing. -/
theorem possible_skip (apart : ∀ attempt ∈ later, ¬ attempt.Touches key) :
    Possible key (later ++ log) held ↔ Possible key log held := by
  induction later with
  | nil => exact Iff.rfl
  | cons attempt later ih =>
      have others := ih fun other inside => apart other (List.mem_cons_of_mem _ inside)
      have alone := apart attempt List.mem_cons_self
      constructor
      · rintro ⟨before, possible, moves⟩
        rw [Attempt.moves_other alone] at moves
        exact others.mp (moves ▸ possible)
      · exact fun possible => ⟨held, others.mpr possible, (Attempt.moves_other alone).mpr rfl⟩

/-- **A value that may be held was written**, and no confirmed attempt about its key came after. -/
theorem possible_written {value : V} (possible : Possible key log (some value)) :
    ∃ later earlier confirmed, log = later ++ .write key value confirmed :: earlier ∧
      ∀ attempt ∈ later, attempt.Touches key → attempt.confirmed = false := by
  induction log with
  | nil => cases possible
  | cons attempt log ih =>
      obtain ⟨before, possible, moves⟩ := possible
      rcases moves with ⟨about, done⟩ | ⟨unconfirmed, same⟩
      · -- it is the attempt itself, a write
        cases attempt with
        | write written stored confirmed =>
            cases done
            cases (show written = key from about)
            exact ⟨[], log, confirmed, rfl, fun other inside => by cases inside⟩
        | erase erased confirmed => cases done
        | eraseAll confirmed => cases done
      · subst same
        obtain ⟨later, earlier, confirmed, rfl, unsure⟩ := ih possible
        refine ⟨attempt :: later, earlier, confirmed, rfl, fun other inside about => ?_⟩
        rcases List.mem_cons.mp inside with rfl | inside
        · exact Bool.eq_false_iff.mpr fun confirmed => unconfirmed ⟨about, confirmed⟩
        · exact unsure other inside about

/-- **After a confirmed attempt** about a key that no other follows, what it tells is held. -/
theorem possible_latest (about : attempt.Touches key) (confirmed : attempt.confirmed = true)
    (last : ∀ other ∈ later, ¬ other.Touches key) (possible : Possible key (later ++ attempt :: log) held) :
    held = attempt.result := by
  obtain ⟨before, _, moves⟩ := (possible_skip last).mp possible
  exact (Attempt.moves_confirmed about confirmed).mp moves

end

end Library
