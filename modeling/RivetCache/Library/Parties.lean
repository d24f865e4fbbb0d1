/-
**Parties over a shared state.**

Each party is in a phase of its own. A step of a party reads and writes the state that all of them share,
and takes the party to its next phase; the steps of the parties interleave in any order.

* `forall_advance`: what holds of every party after a step: the party that moved guarantees it of itself,
  the others rely on what is left;
* `alone_reaches`: what a party does alone, it does among the others.
-/

import RivetCache.Library.Run

set_option linter.unusedSectionVars false

namespace Library

/-- The phases of the parties, and the state they share. -/
structure Parties (ι P S : Type) where
  phase : ι → P
  state : S

/-- The steps of one party, nobody else moving. -/
def Alone {P S : Type} (move : P → S → P × S) : P × S → P × S → Prop :=
  Relation.ReflTransGen fun before after => after = move before.1 before.2

theorem Alone.head {P S : Type} {move : P → S → P × S} {phase : P} {state : S} {last : P × S}
    (rest : Alone move (move phase state) last) : Alone move (phase, state) last :=
  Relation.ReflTransGen.head rfl rest

/-- One step, by what it does. -/
theorem Alone.next {P S : Type} {move : P → S → P × S} {phase phase' : P} {state state' : S}
    {last : P × S} (moved : move phase state = (phase', state'))
    (rest : Alone move (phase', state') last) : Alone move (phase, state) last :=
  Relation.ReflTransGen.head moved.symm rest

namespace Parties

variable {ι P S : Type} [DecidableEq ι]

/-- The parties with one of them in another phase, at another state. -/
def become (all : Parties ι P S) (party : ι) (phase : P) (state : S) : Parties ι P S :=
  ⟨Function.update all.phase party phase, state⟩

/-- One step of one party. -/
def advance (move : ι → P → S → P × S) (party : ι) (all : Parties ι P S) : Parties ι P S :=
  all.become party (move party (all.phase party) all.state).1
    (move party (all.phase party) all.state).2

variable {move : ι → P → S → P × S} {party other : ι} {all : Parties ι P S}

@[simp] theorem become_state (phase : P) (state : S) : (all.become party phase state).state = state :=
  rfl

@[simp] theorem become_own (phase : P) (state : S) :
    (all.become party phase state).phase party = phase := Function.update_self _ _ _

theorem become_other (different : other ≠ party) (phase : P) (state : S) :
    (all.become party phase state).phase other = all.phase other :=
  Function.update_of_ne different _ _

@[simp] theorem advance_state :
    (advance move party all).state = (move party (all.phase party) all.state).2 := rfl

@[simp] theorem phase_own :
    (advance move party all).phase party = (move party (all.phase party) all.state).1 :=
  become_own _ _

theorem phase_other (different : other ≠ party) :
    (advance move party all).phase other = all.phase other :=
  become_other different _ _

/-- A step, by what it does. -/
theorem advance_eq {before phase : P} {state : S} (head : all.phase party = before)
    (moved : move party before all.state = (phase, state)) :
    advance move party all = all.become party phase state := by
  unfold advance
  rw [head, moved]

/-- **After a step**: the party that moved guarantees, the others rely. -/
theorem forall_advance (Holds : ι → P → S → Prop)
    (guarantee : Holds party (move party (all.phase party) all.state).1
      (move party (all.phase party) all.state).2)
    (rely : ∀ other, other ≠ party → Holds other (all.phase other) all.state →
      Holds other (all.phase other) (move party (all.phase party) all.state).2)
    (before : ∀ other, Holds other (all.phase other) all.state) (other : ι) :
    Holds other ((advance move party all).phase other) (advance move party all).state := by
  by_cases own : other = party
  · subst own
    rw [phase_own]
    exact guarantee
  · rw [phase_other own]
    exact rely other own (before other)

/-- **What a party does alone, it does among the others.** -/
theorem alone_reaches {before phase : P} {here state : S} (head : all.phase party = before)
    (standing : all.state = here) (alone : Alone (move party) (before, here) (phase, state)) :
    Reaches (advance move) (fun mover _ => mover = party) all (all.become party phase state) := by
  subst head standing
  generalize last : (phase, state) = reached at alone
  induction alone generalizing phase state with
  | refl =>
      cases last
      unfold become
      rw [Function.update_eq_self]
      exact .refl
  | tail _ moved ih =>
      rename_i middle _ _
      obtain ⟨before, left⟩ := middle
      have next := (ih rfl).next party rfl
      rw [← last] at moved
      have result : move party before left = (phase, state) := moved.symm
      have same : advance move party (all.become party before left) = all.become party phase state := by
        rw [advance_eq (become_own before left) result]
        unfold become
        rw [Function.update_idem]
      rw [same] at next
      exact next

end Parties

end Library
