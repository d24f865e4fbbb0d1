/-
**Logs of parties.**

A log is the list of what the parties noted, oldest first, each note under the number of its party. What one
party noted is `Log.own`; where its notes fall apart, the log does (`Log.split_own`).
-/

import Mathlib.Tactic

set_option linter.unusedSectionVars false

namespace Library.Log

variable {N : Type} {party other : Nat} {note : N} {log : List (Nat × N)}

/-- The notes of one party. -/
def own (party : Nat) (log : List (Nat × N)) : List N :=
  (log.filter fun entry => entry.1 == party).map Prod.snd

@[simp] theorem own_nil (party : Nat) : own party ([] : List (Nat × N)) = [] := rfl

@[simp] theorem own_append (party : Nat) (earlier later : List (Nat × N)) :
    own party (earlier ++ later) = own party earlier ++ own party later := by
  unfold own
  rw [List.filter_append, List.map_append]

@[simp] theorem own_cons (party : Nat) (note : N) (log : List (Nat × N)) :
    own party ((party, note) :: log) = note :: own party log := by
  simp [own]

/-- Some notes of one party. -/
def noted (party : Nat) (notes : List N) : List (Nat × N) := notes.map fun note => (party, note)

@[simp] theorem own_noted (party : Nat) (notes : List N) : own party (noted party notes) = notes := by
  induction notes with
  | nil => rfl
  | cons note rest ih => simpa [own, noted] using ih

theorem own_noted_other (different : other ≠ party) (notes : List N) : own other (noted party notes) = [] := by
  induction notes with
  | nil => rfl
  | cons note rest ih => simpa [own, noted, Ne.symm different] using ih

theorem mem_own : note ∈ own party log ↔ (party, note) ∈ log := by
  simp [own]

/-- **Where the notes of a party fall apart, the log does.** -/
theorem split_own (early : List N) {late : List N} (notes : own party log = early ++ note :: late) :
    ∃ before after, log = before ++ (party, note) :: after ∧ own party before = early ∧
      own party after = late := by
  induction log generalizing early with
  | nil => simp at notes
  | cons entry rest ih =>
      have first : own party (entry :: rest) = own party [entry] ++ own party rest := own_append party [entry] rest
      by_cases mine : entry.1 = party
      · obtain ⟨number, here⟩ := entry
        obtain rfl : number = party := mine
        have alone : own number [(number, here)] = [here] := own_noted number [here]
        rw [first, alone] at notes
        cases early with
        | nil =>
            obtain ⟨rfl, rfl⟩ := List.cons.inj notes
            exact ⟨[], rest, rfl, rfl, rfl⟩
        | cons head early =>
            obtain ⟨rfl, remaining⟩ := List.cons.inj notes
            obtain ⟨before, after, split, own_before, own_after⟩ := ih early remaining
            refine ⟨(number, here) :: before, after, by rw [split]; rfl, ?_, own_after⟩
            calc own number ((number, here) :: before) = own number [(number, here)] ++ own number before :=
                  own_append number [(number, here)] before
              _ = here :: early := by rw [alone, own_before]; rfl
      · have none : own party [entry] = [] := by simp [own, mine]
        rw [first, none, List.nil_append] at notes
        obtain ⟨before, after, split, own_before, own_after⟩ := ih early notes
        refine ⟨entry :: before, after, by rw [split]; rfl, ?_, own_after⟩
        calc own party (entry :: before) = own party [entry] ++ own party before := own_append party [entry] before
          _ = early := by rw [none, List.nil_append, own_before]

/-- The place of an entry in a log that got one more. -/
theorem split_last {last entry : Nat × N} {before after : List (Nat × N)}
    (split : log ++ [last] = before ++ entry :: after) :
    (log = before ∧ last = entry) ∨ ∃ middle, log = before ++ entry :: middle := by
  rcases List.eq_nil_or_concat after with rfl | ⟨middle, final, rfl⟩
  · have parts := List.append_inj' split rfl
    exact Or.inl ⟨parts.1, List.singleton_inj.mp parts.2⟩
  · have longer : log ++ [last] = (before ++ entry :: middle) ++ [final] := by
      rw [split]
      simp
    exact Or.inr ⟨middle, (List.append_inj' longer rfl).1⟩

end Library.Log
