/-
**Run-length coding.**

A list is cut into runs of one item, each of at most `limit + 1` items: `runs` takes the longest run
at the front, then goes on with the rest. `expand` writes the runs out again.

* `expand_runs`: what is cut is put together again;
* `runs_bounded`: a run has at least one item and at most `limit + 1`.
-/

import Mathlib.Tactic

namespace Library

variable {α : Type} [DecidableEq α]

/-- How often an item stands at the front, up to a limit. -/
def leading (item : α) : Nat → List α → Nat
  | 0, _ => 0
  | _ + 1, [] => 0
  | limit + 1, first :: rest => if first = item then leading item limit rest + 1 else 0

/-- The runs of a list. There are no more of them than items, which is the fuel. -/
def runs (limit : Nat) : Nat → List α → List (Nat × α)
  | 0, _ => []
  | _ + 1, [] => []
  | fuel + 1, item :: rest =>
      (leading item limit rest + 1, item) :: runs limit fuel (rest.drop (leading item limit rest))

omit [DecidableEq α] in
/-- The items of some runs. -/
def expand (cut : List (Nat × α)) : List α := cut.flatMap fun run => List.replicate run.1 run.2

omit [DecidableEq α] in
theorem expand_cons (run : Nat × α) (rest : List (Nat × α)) :
    expand (run :: rest) = List.replicate run.1 run.2 ++ expand rest := List.flatMap_cons

theorem leading_le (item : α) (limit : Nat) (items : List α) : leading item limit items ≤ limit := by
  induction limit generalizing items with
  | zero => exact Nat.le_refl 0
  | succ limit ih =>
      cases items with
      | nil => exact Nat.zero_le _
      | cons first rest =>
          unfold leading
          split
          · exact Nat.succ_le_succ (ih rest)
          · exact Nat.zero_le _

/-- The run at the front, and what follows it. -/
theorem leading_append (item : α) (limit : Nat) (items : List α) :
    List.replicate (leading item limit items) item ++ items.drop (leading item limit items) =
      items := by
  induction limit generalizing items with
  | zero => rfl
  | succ limit ih =>
      cases items with
      | nil => rfl
      | cons first rest =>
          unfold leading
          split
          case isTrue same =>
            rw [List.replicate_succ, List.drop_succ_cons, List.cons_append, ih rest, same]
          case isFalse => rfl

/-- **What is cut is put together again.** The induction is on the fuel. -/
theorem expand_runs {limit fuel : Nat} {items : List α} (enough : items.length ≤ fuel) :
    expand (runs limit fuel items) = items := by
  induction fuel generalizing items with
  | zero =>
      rw [List.length_eq_zero_iff.mp (Nat.le_zero.mp enough)]
      rfl
  | succ fuel ih =>
      cases items with
      | nil => rfl
      | cons item rest =>
          have shorter : (rest.drop (leading item limit rest)).length ≤ fuel := by
            rw [List.length_drop]
            rw [List.length_cons] at enough
            omega
          show expand ((leading item limit rest + 1, item) :: runs limit fuel _) = _
          rw [expand_cons, ih shorter, List.replicate_succ, List.cons_append, leading_append]

/-- **A run is not empty**, and no longer than the limit allows. -/
theorem runs_bounded {limit fuel : Nat} {items : List α} {run : Nat × α}
    (listed : run ∈ runs limit fuel items) : 0 < run.1 ∧ run.1 ≤ limit + 1 := by
  induction fuel generalizing items with
  | zero => cases listed
  | succ fuel ih =>
      cases items with
      | nil => cases listed
      | cons item rest =>
          rcases List.mem_cons.mp listed with rfl | later
          · exact ⟨Nat.succ_pos _, Nat.succ_le_succ (leading_le item limit rest)⟩
          · exact ih later

/-- There are no more runs than items. -/
theorem runs_length_le (limit fuel : Nat) (items : List α) :
    (runs limit fuel items).length ≤ fuel := by
  induction fuel generalizing items with
  | zero => exact Nat.le_refl 0
  | succ fuel ih =>
      cases items with
      | nil => exact Nat.zero_le _
      | cons item rest => exact Nat.succ_le_succ (ih _)

end Library
