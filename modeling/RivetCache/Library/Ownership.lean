/-
**Sole ownership.**

Owners hold resources, which are known by their handles. Ownership is sole where no two owners hold
resources of one handle (`Sole`): then what one owner does to its resource touches no other's.

* `Sole.moved`: resources that change hands, or are given up;
* `Sole.permuted`: owners that exchange what they hold;
* `Sole.gained`: a resource of a new handle.
-/

import Mathlib.Tactic

namespace Library

variable {Owner Resource Handle : Type} {handle : Resource → Handle}
  {owned after : Owner → Option Resource}

/-- **No two owners** hold resources of one handle. -/
def Sole (handle : Resource → Handle) (owned : Owner → Option Resource) : Prop :=
  ∀ owner other mine theirs, owned owner = some mine → owned other = some theirs →
    handle mine = handle theirs → owner = other

namespace Sole

theorem apart (sole : Sole handle owned) {owner other : Owner} {mine theirs : Resource}
    (different : owner ≠ other) (held : owned owner = some mine)
    (held_there : owned other = some theirs) : handle mine ≠ handle theirs :=
  fun same => different (sole owner other mine theirs held held_there same)

/-- **Resources change hands**: what an owner holds afterwards, one owner held before, and where it
went is a function of where it was. -/
theorem moved (sole : Sole handle owned) (goes : Owner → Owner)
    (came : ∀ owner resource, after owner = some resource →
      ∃ from_owner, owned from_owner = some resource ∧ owner = goes from_owner) :
    Sole handle after := by
  intro owner other mine theirs held held_there same
  obtain ⟨source, before, rfl⟩ := came owner mine held
  obtain ⟨source', before', rfl⟩ := came other theirs held_there
  rw [sole source source' mine theirs before before' same]

/-- **Owners exchange** what they hold. -/
theorem permuted (sole : Sole handle owned) (hands : Equiv.Perm Owner) :
    Sole handle fun owner => owned (hands owner) :=
  fun _ _ mine theirs held held_there same =>
    hands.injective (sole _ _ mine theirs held held_there same)

/-- **A new resource**, of a handle that no owner holds. -/
theorem gained (sole : Sole handle owned) (gainer : Owner) (resource : Resource)
    (fresh : ∀ owner held, owned owner = some held → handle held ≠ handle resource)
    (came : ∀ owner held, after owner = some held →
      owned owner = some held ∨ owner = gainer ∧ held = resource) : Sole handle after := by
  intro owner other mine theirs held held_there same
  rcases came owner mine held with before | ⟨rfl, rfl⟩
  · rcases came other theirs held_there with before' | ⟨rfl, rfl⟩
    · exact sole owner other mine theirs before before' same
    · exact absurd same (fresh owner mine before)
  · rcases came other theirs held_there with before' | ⟨rfl, rfl⟩
    · exact absurd same.symm (fresh other theirs before')
    · rfl

variable [DecidableEq Owner]

/-- **An owner takes** a resource of a handle that no owner holds. -/
theorem update_some (sole : Sole handle owned) (gainer : Owner) (resource : Resource)
    (fresh : ∀ owner held, owned owner = some held → handle held ≠ handle resource) :
    Sole handle (Function.update owned gainer (some resource)) := by
  refine sole.gained gainer resource fresh fun owner held owns => ?_
  by_cases own : owner = gainer
  · rw [own, Function.update_self] at owns
    exact Or.inr ⟨own, (Option.some.inj owns).symm⟩
  · rw [Function.update_of_ne own] at owns
    exact Or.inl owns

/-- **An owner gives up** what it holds. -/
theorem update_none (sole : Sole handle owned) (owner : Owner) :
    Sole handle (Function.update owned owner none) := by
  refine sole.moved (fun other => other) fun other held owns => ⟨other, ?_, rfl⟩
  by_cases own : other = owner
  · rw [own, Function.update_self] at owns
    cases owns
  · rwa [Function.update_of_ne own] at owns

end Sole

/-- **A resource that is handed on** is an exchange: its owner holds nothing afterwards, as the other one
did. -/
theorem update_handed [DecidableEq Owner] {giver gainer : Owner} {resource : Resource}
    (holds : owned giver = some resource) (idle : owned gainer = none) :
    Function.update (Function.update owned giver none) gainer (some resource) =
      fun owner => owned (Equiv.swap giver gainer owner) := by
  have different : gainer ≠ giver := fun same => by
    rw [same, holds] at idle
    cases idle
  funext owner
  rw [Equiv.swap_apply_def]
  by_cases gains : owner = gainer
  · rw [gains, Function.update_self, if_neg different, if_pos rfl, holds]
  · rw [Function.update_of_ne gains]
    by_cases gives : owner = giver
    · rw [gives, Function.update_self, if_pos rfl, idle]
    · rw [Function.update_of_ne gives, if_neg gives, if_neg gains]

end Library
