/-
**Vectors.**

`swapRemove` takes an item out of a vector and puts the last one in its place; `minByKey` is the first of the
items whose key is least.

* `swapRemove_perm`: the item and the rest are the vector, in another order;
* `minByKey_least`: no item has a smaller key.
-/

import Mathlib.Tactic

namespace Library

variable {α : Type} {list : List α} {item : α} {index : Nat}

/-- `Vec::swap_remove`: the item, and the vector it leaves; nothing where the index is out of range. -/
def swapRemove (index : Nat) (list : List α) : Option (α × List α) :=
  (list[index]?).bind fun item => list.getLast?.map fun last => (item, (list.set index last).dropLast)

/-- `Iterator::min_by_key`: the first item of the least key. -/
def minByKey (key : α → Nat) : List α → Option α
  | [] => none
  | item :: rest =>
      (minByKey key rest).elim (some item) fun least =>
        if key item ≤ key least then some item else some least

/-! ### Removing -/

theorem swapRemove_last (front : List α) (item : α) :
    swapRemove front.length (front ++ [item]) = some (item, front) := by
  unfold swapRemove
  simp

theorem swapRemove_inner (front back : List α) (item last : α) :
    swapRemove front.length (front ++ item :: back ++ [last]) =
      some (item, front ++ last :: back) := by
  unfold swapRemove
  have here : (front ++ item :: back ++ [last])[front.length]? = some item := by simp
  have final : (front ++ item :: back ++ [last]).getLast? = some last := List.getLast?_concat
  have placed : (front ++ item :: back ++ [last]).set front.length last =
      front ++ last :: back ++ [last] := by simp
  rw [here, final]
  show some (item, List.dropLast (List.set _ _ _)) = _
  rw [placed, List.dropLast_concat]

/-- **What is left is the rest**, in another order. -/
theorem swapRemove_perm (there : list[index]? = some item) :
    ∃ rest, swapRemove index list = some (item, rest) ∧ (item :: rest).Perm list := by
  obtain ⟨inside, same⟩ := List.getElem?_eq_some_iff.mp there
  obtain ⟨front, back, split, size⟩ : ∃ front back, list = front ++ item :: back ∧
      front.length = index := by
    refine ⟨list.take index, list.drop (index + 1), ?_, by simp; omega⟩
    rw [← same, List.cons_getElem_drop_succ, List.take_append_drop]
  subst size
  rcases List.eq_nil_or_concat back with rfl | ⟨middle, last, rfl⟩
  · refine ⟨front, by rw [split]; exact swapRemove_last front item, ?_⟩
    rw [split]
    exact (List.perm_append_singleton item front).symm
  · refine ⟨front ++ last :: middle, ?_, ?_⟩
    · rw [split]
      have removed := swapRemove_inner front middle item last
      simpa using removed
    · rw [split]
      have moved : (last :: middle).Perm (middle.concat last) := by
        rw [List.concat_eq_append]
        exact (List.perm_append_singleton last middle).symm
      exact List.perm_middle.symm.trans (.append_left front (.cons item moved))

/-! ### The least -/

theorem minByKey_some (key : α → Nat) (some_ : list ≠ []) : ∃ least, minByKey key list = some least := by
  cases list with
  | nil => exact absurd rfl some_
  | cons item rest =>
      unfold minByKey
      cases minByKey key rest with
      | none => exact ⟨item, rfl⟩
      | some least =>
          by_cases before : key item ≤ key least
          · exact ⟨item, if_pos before⟩
          · exact ⟨least, if_neg before⟩

theorem minByKey_none {key : α → Nat} (nothing : minByKey key list = none) : list = [] := by
  by_contra some_
  obtain ⟨least, found⟩ := minByKey_some key some_
  rw [nothing] at found
  cases found

/-- **The least**: it is one of the items, and no item has a smaller key. -/
theorem minByKey_least {key : α → Nat} {least : α} (found : minByKey key list = some least) :
    least ∈ list ∧ ∀ other ∈ list, key least ≤ key other := by
  induction list generalizing least with
  | nil => cases found
  | cons item rest ih =>
      unfold minByKey at found
      cases later : minByKey key rest with
      | none =>
          rw [later] at found
          cases found
          rw [minByKey_none later]
          exact ⟨List.mem_cons_self, fun other among => List.mem_singleton.mp among ▸ le_rfl⟩
      | some best =>
          rw [later] at found
          obtain ⟨among, smallest⟩ := ih later
          by_cases before : key item ≤ key best
          · have same : some item = some least := (if_pos before).symm.trans found
            cases same
            refine ⟨List.mem_cons_self, fun other there => ?_⟩
            rcases List.mem_cons.mp there with rfl | there
            · exact le_rfl
            · exact before.trans (smallest other there)
          · have same : some best = some least := (if_neg before).symm.trans found
            cases same
            refine ⟨List.mem_cons_of_mem _ among, fun other there => ?_⟩
            rcases List.mem_cons.mp there with rfl | there
            · omega
            · exact smallest other there

end Library
