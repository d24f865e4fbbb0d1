/-
**Runs of a labelled step function.**

`Reaches step allowed start state`: a finite run of labels, each allowed in the state it is taken
from, leads from `start` to `state`. An invariant of every allowed step holds of every state reached
(`Reaches.invariant`).
-/

import Mathlib.Tactic

namespace Library

variable {L S : Type}

/-- A finite run of allowed steps. -/
inductive Reaches (step : L → S → S) (allowed : L → S → Prop) (start : S) : S → Prop where
  | refl : Reaches step allowed start start
  | step {state : S} {label : L} (before : Reaches step allowed start state)
      (permitted : allowed label state) : Reaches step allowed start (step label state)

namespace Reaches

variable {step : L → S → S} {allowed : L → S → Prop} {start state : S}

/-- **The invariant rule.** -/
theorem invariant (I : S → Prop) (initial : I start)
    (preserved : ∀ label state, I state → allowed label state → I (step label state))
    (reached : Reaches step allowed start state) : I state := by
  induction reached with
  | refl => exact initial
  | step _ permitted ih => exact preserved _ _ ih permitted

/-- One more step, by its label. -/
theorem next (before : Reaches step allowed start state) (label : L)
    (permitted : allowed label state) : Reaches step allowed start (step label state) :=
  before.step permitted

/-- Runs compose. -/
theorem trans {middle : S} (first : Reaches step allowed start middle)
    (second : Reaches step allowed middle state) : Reaches step allowed start state := by
  induction second with
  | refl => exact first
  | step _ permitted ih => exact ih.step permitted

/-- A run under a stronger permission. -/
theorem mono {weaker : L → S → Prop} (weaken : ∀ label state, allowed label state →
    weaker label state) (reached : Reaches step allowed start state) :
    Reaches step weaker start state := by
  induction reached with
  | refl => exact .refl
  | step _ permitted ih => exact ih.step (weaken _ _ permitted)

/-- A run whose states have what a stronger permission asks for. -/
theorem restrict {I : S → Prop} {stronger : L → S → Prop} (initial : I start)
    (preserved : ∀ label state, I state → allowed label state →
      stronger label state ∧ I (step label state))
    (reached : Reaches step allowed start state) : Reaches step stronger start state ∧ I state := by
  induction reached with
  | refl => exact ⟨.refl, initial⟩
  | step _ permitted ih =>
      obtain ⟨permission, kept⟩ := preserved _ _ ih.2 permitted
      exact ⟨ih.1.step permission, kept⟩

/-- A list of labels, where every label is allowed, is a run. -/
theorem foldl (free : ∀ label state, allowed label state) (labels : List L) (start : S) :
    Reaches step allowed start (labels.foldl (fun state label => step label state) start) := by
  induction labels using List.reverseRecOn with
  | nil => exact .refl
  | append_singleton earlier label ih =>
      rw [List.foldl_append]
      exact ih.step (free label _)

/-- Every label of a list is allowed in the state it is taken in. -/
def Admits (step : L → S → S) (allowed : L → S → Prop) : List L → S → Prop
  | [], _ => True
  | label :: rest, state => allowed label state ∧ Admits step allowed rest (step label state)

/-- A list of labels, where each is allowed in its turn, is a run. -/
theorem ofList {labels : List L} (admits : Admits step allowed labels start) :
    Reaches step allowed start (labels.foldl (fun state label => step label state) start) := by
  induction labels generalizing start with
  | nil => exact .refl
  | cons label rest ih => exact (Reaches.refl.step admits.1).trans (ih admits.2)

end Reaches

/-! ### Answers -/

/-- The answers of a sequence of calls, and the state that they leave. -/
def answers {R : Type} (step : L → S → R × S) : List L → S → List R × S
  | [], state => ([], state)
  | label :: rest, state =>
      ((step label state).1 :: (answers step rest (step label state).2).1,
        (answers step rest (step label state).2).2)

end Library
