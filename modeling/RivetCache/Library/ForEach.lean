/-
**Loops over a list of items.**

A loop runs one program for each item, in order, and folds the answers into an accumulator (`forEach`).
When it succeeds, every program succeeded, and its calls are theirs, one after the other (`EachMakes`);
what the loop returns is a fold over the items and their answers, with no program in it
(`forEach_makes`). A loop that is written out is of this form by `eq_forEach`.
-/

import RivetCache.Library.Transcript

set_option linter.unusedSectionVars false

namespace Library

namespace Program

variable {Op : Type} {Answer : Op → Type} {ε α ι σ : Type}

/-- Run the program of each item, and fold the answers. -/
def forEach (program : ι → Program Op Answer ε α) (fold : σ → ι → α → σ) :
    List ι → σ → Program Op Answer ε σ
  | [], out => pure out
  | item :: rest, out => do
      let value ← program item
      forEach program fold rest (fold out item value)

/-- **A loop is `forEach`** if it returns the accumulator in the end, and takes its turns in this way. -/
theorem eq_forEach (loop : List ι → σ → Program Op Answer ε σ) {program : ι → Program Op Answer ε α}
    {fold : σ → ι → α → σ} (ends : ∀ out, loop [] out = pure out)
    (turns : ∀ item rest out, loop (item :: rest) out =
      program item >>= fun value => loop rest (fold out item value)) (items : List ι) (out : σ) :
    loop items out = forEach program fold items out := by
  induction items generalizing out with
  | nil => exact ends out
  | cons item rest ih =>
      rw [turns, forEach]
      congr 1
      funext value
      exact ih _

/-- **One program for each item**: fed with the answers in these calls, the programs of the items make
them, in order, and all succeed, with these values. -/
inductive EachMakes (program : ι → Program Op Answer ε α) :
    List ι → List (Call Op Answer) → List α → Prop
  | nil : EachMakes program [] [] []
  | cons {item : ι} {items : List ι} {own later : List (Call Op Answer)} {value : α} {values : List α}
      (first : (program item).Makes own (.ok value)) (rest : EachMakes program items later values) :
      EachMakes program (item :: items) (own ++ later) (value :: values)

variable {program : ι → Program Op Answer ε α} {items : List ι} {calls : List (Call Op Answer)}
  {values : List α}

namespace EachMakes

theorem length (each : EachMakes program items calls values) : values.length = items.length := by
  induction each with
  | nil => rfl
  | cons _ _ ih => rw [List.length_cons, List.length_cons, ih]

/-- The calls of one item stand together. -/
theorem of_mem (each : EachMakes program items calls values) {item : ι} (inside : item ∈ items) :
    ∃ earlier own later value, calls = earlier ++ own ++ later ∧
      (program item).Makes own (.ok value) := by
  induction each with
  | nil => cases inside
  | @cons first items own later value values made _ ih =>
      rcases List.mem_cons.mp inside with rfl | member
      · exact ⟨[], own, later, value, rfl, made⟩
      · obtain ⟨earlier, mine, after, answer, rfl, makes⟩ := ih member
        exact ⟨own ++ earlier, mine, after, answer, by simp only [List.append_assoc], makes⟩

/-- **A fold that looks at the answers only.** -/
theorem foldl_answers (each : EachMakes program items calls values) {σ : Type} (fold : σ → α → σ)
    (out : σ) :
    (items.zip values).foldl (fun out turn => fold out turn.2) out = values.foldl fold out := by
  have answers : (items.zip values).map Prod.snd = values :=
    List.map_snd_zip (Nat.le_of_eq each.length)
  calc (items.zip values).foldl (fun out turn => fold out turn.2) out
      = ((items.zip values).map Prod.snd).foldl fold out := List.foldl_map.symm
    _ = values.foldl fold out := by rw [answers]

/-- **A fold that looks at the items only.** -/
theorem foldl_items (each : EachMakes program items calls values) {σ : Type} (fold : σ → ι → σ)
    (out : σ) :
    (items.zip values).foldl (fun out turn => fold out turn.1) out = items.foldl fold out := by
  have inputs : (items.zip values).map Prod.fst = items :=
    List.map_fst_zip (Nat.le_of_eq each.length.symm)
  calc (items.zip values).foldl (fun out turn => fold out turn.1) out
      = ((items.zip values).map Prod.fst).foldl fold out := List.foldl_map.symm
    _ = items.foldl fold out := by rw [inputs]

end EachMakes

/-- **A loop that succeeds** has run the program of each item, and returns the fold of the answers. -/
theorem forEach_makes {fold : σ → ι → α → σ} {out result : σ}
    (made : (forEach program fold items out).Makes calls (.ok result)) :
    ∃ values, EachMakes program items calls values ∧
      result = (items.zip values).foldl (fun out turn => fold out turn.1 turn.2) out := by
  induction items generalizing out calls with
  | nil =>
      obtain ⟨rfl, same⟩ := made
      cases same
      exact ⟨[], .nil, rfl⟩
  | cons item rest ih =>
      obtain ⟨value, own, later, rfl, first, others⟩ := makes_bind_ok made
      obtain ⟨values, each, folded⟩ := ih others
      exact ⟨value :: values, .cons first each, folded⟩

end Program

end Library
