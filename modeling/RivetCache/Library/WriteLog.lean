/-
**Logs of keyed writes, and the writes that may still be read.**

A log lists operations, newest first. A write either *replaces* every older value of its key or
leaves older values behind it. `Visible key value log`: some write of `value` under `key` is not
followed by a replacing write of the key or by its erasure.

* `visible_cons`: what one more operation does to visibility;
* `visible_replacing`: after a replacing write the written value is the only visible one;
* `visible_iff_latest`: when every write of a key replaces, the only visible value is the latest.
-/

import Mathlib.Tactic

set_option linter.unusedSectionVars false

namespace Library

/-- One operation on keyed values. -/
inductive LogEntry (K V : Type) where
  | write (key : K) (value : V) (replaces : Bool)
  | erase (key : K)
  | eraseAll
  | other

variable {K V : Type} [DecidableEq K]

/-- An operation after which no older value of the key may be read. -/
def LogEntry.Hides (key : K) : LogEntry K V → Prop
  | .write written _ replaces => written = key ∧ replaces = true
  | .erase erased => erased = key
  | .eraseAll => True
  | .other => False

/-- **A value that may still be read**: it was written, and nothing newer hides it. -/
def Visible (key : K) (value : V) (log : List (LogEntry K V)) : Prop :=
  ∃ newer older replaces, log = newer ++ .write key value replaces :: older ∧
    ∀ entry ∈ newer, ¬ entry.Hides key

theorem not_visible_nil (key : K) (value : V) : ¬ Visible key value [] := by
  rintro ⟨newer, older, replaces, split, _⟩
  simp at split

/-- **One more operation.** -/
theorem visible_cons {key : K} {value : V} {entry : LogEntry K V} {log : List (LogEntry K V)} :
    Visible key value (entry :: log) ↔
      (∃ replaces, entry = .write key value replaces) ∨
        (¬ entry.Hides key ∧ Visible key value log) := by
  constructor
  · rintro ⟨newer, older, replaces, split, clear⟩
    cases newer with
    | nil =>
        simp only [List.nil_append, List.cons.injEq] at split
        exact Or.inl ⟨replaces, split.1⟩
    | cons first rest =>
        simp only [List.cons_append, List.cons.injEq] at split
        obtain ⟨rfl, split⟩ := split
        exact Or.inr ⟨clear _ List.mem_cons_self,
          rest, older, replaces, split, fun e inside => clear e (List.mem_cons_of_mem _ inside)⟩
  · rintro (⟨replaces, rfl⟩ | ⟨shows, newer, older, replaces, rfl, clear⟩)
    · exact ⟨[], log, replaces, rfl, by simp⟩
    · refine ⟨entry :: newer, older, replaces, rfl, fun e inside => ?_⟩
      rcases List.mem_cons.mp inside with rfl | inside
      · exact shows
      · exact clear e inside

/-- A write makes its value visible. -/
theorem visible_write (key : K) (value : V) (replaces : Bool) (log : List (LogEntry K V)) :
    Visible key value (.write key value replaces :: log) :=
  visible_cons.mpr (Or.inl ⟨replaces, rfl⟩)

/-- What does not hide the key keeps its visible values. -/
theorem Visible.cons {key : K} {value : V} {entry : LogEntry K V} {log : List (LogEntry K V)}
    (shows : ¬ entry.Hides key) (visible : Visible key value log) :
    Visible key value (entry :: log) :=
  visible_cons.mpr (Or.inr ⟨shows, visible⟩)

/-- What does not hide the key, prepended. -/
theorem Visible.append {key : K} {value : V} {newer log : List (LogEntry K V)}
    (shows : ∀ entry ∈ newer, ¬ entry.Hides key) (visible : Visible key value log) :
    Visible key value (newer ++ log) := by
  induction newer with
  | nil => exact visible
  | cons entry rest ih =>
      have later := ih fun e inside => shows e (List.mem_cons_of_mem _ inside)
      exact later.cons (shows entry List.mem_cons_self)

/-- **After a replacing write** only its value is visible. -/
theorem visible_replacing {key : K} {value written : V} {log : List (LogEntry K V)} :
    Visible key value (.write key written true :: log) ↔ value = written := by
  rw [visible_cons]
  constructor
  · rintro (⟨replaces, same⟩ | ⟨shows, _⟩)
    · injection same with _ same
      exact same.symm
    · exact (shows ⟨rfl, rfl⟩).elim
  · rintro rfl
    exact Or.inl ⟨true, rfl⟩

/-- The value of the most recent write of the key that no erasure follows. -/
def latest (key : K) : List (LogEntry K V) → Option V
  | [] => none
  | .write written value _ :: log => if written = key then some value else latest key log
  | .erase erased :: log => if erased = key then none else latest key log
  | .eraseAll :: _ => none
  | .other :: log => latest key log

/-- Every write of the key replaces what is older. -/
def AllReplace (key : K) (log : List (LogEntry K V)) : Prop :=
  ∀ value replaces, LogEntry.write key value replaces ∈ log → replaces = true

/-- **With replacing writes only the latest value is visible.** -/
theorem visible_iff_latest {key : K} {value : V} {log : List (LogEntry K V)}
    (replacing : AllReplace key log) : Visible key value log ↔ latest key log = some value := by
  induction log with
  | nil => simp [latest, not_visible_nil]
  | cons entry log ih =>
      have rest := ih fun v r inside => replacing v r (List.mem_cons_of_mem _ inside)
      cases entry with
      | write written stored replaces =>
          by_cases same : written = key
          · subst same
            have replaced := replacing stored replaces List.mem_cons_self
            subst replaced
            rw [visible_replacing]
            simp [latest, eq_comm]
          · simp [visible_cons, LogEntry.Hides, latest, same, rest]
      | erase erased =>
          by_cases same : erased = key <;> simp [visible_cons, LogEntry.Hides, latest, same, rest]
      | eraseAll => simp [visible_cons, LogEntry.Hides, latest]
      | other => simp [visible_cons, LogEntry.Hides, latest, rest]

end Library
