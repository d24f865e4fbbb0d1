/-
**Prefix codes.**

A code of symbols is a prefix code where no code word begins another (`PrefixCode`): then a text of code words,
one after the other, is decoded in one way only, up to its end (`PrefixCode.flatMap_inj`) or up to an item that
begins no code word (`PrefixCode.flatMap_stop_inj`).
-/

import Mathlib.Tactic

set_option linter.unusedSectionVars false

namespace Library

variable {A B : Type}

/-- **A run of items** of one kind is as long as the first item of another. -/
theorem append_span_inj {kind : B → Prop} {left right : List B} {x y : B} {rest other : List B}
    (left_kind : ∀ item ∈ left, kind item) (right_kind : ∀ item ∈ right, kind item)
    (x_other : ¬ kind x) (y_other : ¬ kind y) (same : left ++ x :: rest = right ++ y :: other) :
    left = right ∧ x = y ∧ rest = other := by
  induction left generalizing right with
  | nil =>
      cases right with
      | nil =>
          obtain ⟨first, later⟩ := List.cons.inj same
          exact ⟨rfl, first, later⟩
      | cons item right =>
          have first : x = item := (List.cons.inj same).1
          exact absurd (first ▸ right_kind item List.mem_cons_self) x_other
  | cons item left ih =>
      cases right with
      | nil =>
          have first : item = y := (List.cons.inj same).1
          exact absurd (first ▸ left_kind item List.mem_cons_self) y_other
      | cons item' right =>
          obtain ⟨rfl, later⟩ := List.cons.inj same
          obtain ⟨rfl, ends⟩ := ih (fun item inside => left_kind item (List.mem_cons_of_mem _ inside))
            (fun item inside => right_kind item (List.mem_cons_of_mem _ inside)) later
          exact ⟨rfl, ends⟩

/-- **A code word is read off** the beginning of a text, for symbols with a property. -/
structure PrefixCode (symbol : A → Prop) (code : A → List B) : Prop where
  nonempty : ∀ a, symbol a → code a ≠ []
  decodes : ∀ a b rest other, symbol a → symbol b → code a ++ rest = code b ++ other →
    a = b ∧ rest = other

namespace PrefixCode

variable {symbol : A → Prop} {code : A → List B} (prefixCode : PrefixCode symbol code)

include prefixCode

/-- **A text is decoded in one way.** -/
theorem flatMap_inj {left right : List A} (left_symbols : ∀ a ∈ left, symbol a)
    (right_symbols : ∀ a ∈ right, symbol a) (same : left.flatMap code = right.flatMap code) :
    left = right := by
  induction left generalizing right with
  | nil =>
      cases right with
      | nil => rfl
      | cons b right =>
          have empty := (List.append_eq_nil_iff.mp same.symm).1
          exact absurd empty (prefixCode.nonempty b (right_symbols b List.mem_cons_self))
  | cons a left ih =>
      cases right with
      | nil =>
          have empty := (List.append_eq_nil_iff.mp same).1
          exact absurd empty (prefixCode.nonempty a (left_symbols a List.mem_cons_self))
      | cons b right =>
          rw [List.flatMap_cons, List.flatMap_cons] at same
          obtain ⟨rfl, later⟩ := prefixCode.decodes a b _ _ (left_symbols a List.mem_cons_self)
            (right_symbols b List.mem_cons_self) same
          rw [ih (fun a inside => left_symbols a (List.mem_cons_of_mem _ inside))
            (fun b inside => right_symbols b (List.mem_cons_of_mem _ inside)) later]

/-- **A text is decoded in one way up to an item** that begins no code word. -/
theorem flatMap_stop_inj {stop : B}
    (stops : ∀ a rest other, symbol a → code a ++ rest ≠ stop :: other) {left right : List A}
    {rest other : List B} (left_symbols : ∀ a ∈ left, symbol a) (right_symbols : ∀ a ∈ right, symbol a)
    (same : left.flatMap code ++ stop :: rest = right.flatMap code ++ stop :: other) :
    left = right ∧ rest = other := by
  induction left generalizing right with
  | nil =>
      cases right with
      | nil => exact ⟨rfl, (List.cons.inj same).2⟩
      | cons b right =>
          rw [List.flatMap_cons, List.append_assoc] at same
          exact absurd same.symm (stops b _ _ (right_symbols b List.mem_cons_self))
  | cons a left ih =>
      cases right with
      | nil =>
          rw [List.flatMap_cons, List.append_assoc] at same
          exact absurd same (stops a _ _ (left_symbols a List.mem_cons_self))
      | cons b right =>
          rw [List.flatMap_cons, List.flatMap_cons, List.append_assoc, List.append_assoc] at same
          obtain ⟨rfl, later⟩ := prefixCode.decodes a b _ _ (left_symbols a List.mem_cons_self)
            (right_symbols b List.mem_cons_self) same
          obtain ⟨rfl, ends⟩ := ih (fun a inside => left_symbols a (List.mem_cons_of_mem _ inside))
            (fun b inside => right_symbols b (List.mem_cons_of_mem _ inside)) later
          exact ⟨rfl, ends⟩

end PrefixCode

end Library
