/-
**What a program did.**

`program.Makes calls result`: fed with these answers, the program makes these calls and ends so. A
sequence that succeeds makes the calls of its parts, one part after the other (`makes_bind_ok`). A
program that is run call by call is described by what is left of it (`Continues`): whatever the rest
does, the whole did, after the calls already made.
-/

import RivetCache.Library.Program

set_option linter.unusedSectionVars false

namespace Library

/-- A call and its answer. -/
structure Call (Op : Type) (Answer : Op → Type) where
  op : Op
  answer : Answer op

namespace Program

variable {Op : Type} {Answer : Op → Type} {ε α β : Type}

/-- Fed with these answers, the program makes these calls and ends with this result. -/
def Makes : Program Op Answer ε α → List (Call Op Answer) → Except ε α → Prop
  | .done outcome, calls, result => calls = [] ∧ outcome = result
  | .call op next, calls, result =>
      ∃ answer rest, calls = ⟨op, answer⟩ :: rest ∧ (next answer).Makes rest result

/-- **A run makes the calls** that its handler answers. -/
theorem makes_run {S : Type} (handle : (op : Op) → S → Answer op × S) (program : Program Op Answer ε α)
    (state : S) : ∃ calls, program.Makes calls (program.run handle state).1 := by
  induction program generalizing state with
  | done outcome => exact ⟨[], rfl, rfl⟩
  | call op next ih =>
      obtain ⟨calls, made⟩ := ih (handle op state).1 (handle op state).2
      exact ⟨_, (handle op state).1, calls, rfl, made⟩

/-- **A sequence that succeeds** makes the calls of its first program, then those of the rest. -/
theorem makes_bind_ok {program : Program Op Answer ε α} {rest : α → Program Op Answer ε β}
    {calls : List (Call Op Answer)} {value : β} (made : (program >>= rest).Makes calls (.ok value)) :
    ∃ first earlier later, calls = earlier ++ later ∧ program.Makes earlier (.ok first) ∧
      (rest first).Makes later (.ok value) := by
  induction program generalizing calls with
  | done outcome =>
      cases outcome with
      | error error => cases made.2
      | ok first => exact ⟨first, [], calls, rfl, ⟨rfl, rfl⟩, made⟩
  | call op next ih =>
      obtain ⟨answer, tail, rfl, after⟩ := made
      obtain ⟨first, earlier, later, rfl, before, rest⟩ := ih answer after
      exact ⟨first, ⟨op, answer⟩ :: earlier, later, rfl, ⟨answer, earlier, rfl, before⟩, rest⟩

/-- `rest` is what is left of `whole` after these calls. -/
def Continues (whole : Program Op Answer ε α) (calls : List (Call Op Answer))
    (rest : Program Op Answer ε α) : Prop :=
  ∀ later result, rest.Makes later result → whole.Makes (calls ++ later) result

theorem continues_start (whole : Program Op Answer ε α) : whole.Continues [] whole :=
  fun _ _ made => made

/-- One more call. -/
theorem Continues.call {whole : Program Op Answer ε α} {calls : List (Call Op Answer)} {op : Op}
    {next : Answer op → Program Op Answer ε α} (so_far : whole.Continues calls (.call op next))
    (answer : Answer op) : whole.Continues (calls ++ [⟨op, answer⟩]) (next answer) := by
  intro later result made
  rw [List.append_assoc]
  exact so_far _ _ ⟨answer, later, rfl, made⟩

/-- The program has ended. -/
theorem Continues.ended {whole : Program Op Answer ε α} {calls : List (Call Op Answer)}
    {outcome : Except ε α} (so_far : whole.Continues calls (.done outcome)) :
    whole.Makes calls outcome := by
  have made := so_far [] outcome ⟨rfl, rfl⟩
  rwa [List.append_nil] at made

end Program

end Library
