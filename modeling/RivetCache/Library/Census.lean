/-
**Counting parties by where they stand.**

A system keeps a list of parties; a step replaces one of them. What a counter counts is the number of
parties that stand at certain places.

* `countP_set`: a step moves a count by the party that moves;
* `countP_pos_of_getElem?`: a party that stands there counts;
* `two_le_countP`: two parties that stand there count twice;
* `countP_flag`: parties are counted by a flag on what they point to, and one flag changes;
* `getElem?_set_cases`: who stands where after a step.
-/

import Mathlib.Tactic

namespace Library

variable {A : Type} {p : A → Bool} {parties : List A} {index other : Nat} {old new party : A}

/-- **A step moves a count** by the party that moves. -/
theorem countP_set (stood : parties[index]? = some old) (new : A) :
    (parties.set index new).countP p + (p old).toNat = parties.countP p + (p new).toNat := by
  induction parties generalizing index with
  | nil => simp at stood
  | cons first rest ih =>
      cases index with
      | zero =>
          have same : first = old := by simpa using stood
          subst same
          rw [List.set_cons_zero, List.countP_cons, List.countP_cons]
          cases p first <;> cases p new <;> simp
      | succ index =>
          have later := ih (show rest[index]? = some old by simpa using stood)
          rw [List.set_cons_succ, List.countP_cons, List.countP_cons]
          omega

theorem countP_pos_of_getElem? (stood : parties[index]? = some party) (counts : p party = true) :
    0 < parties.countP p :=
  List.countP_pos_iff.mpr ⟨party, List.mem_of_getElem? stood, counts⟩

/-- Two parties that stand there count twice. -/
theorem two_le_countP {also : A} (apart : index ≠ other) (stood : parties[index]? = some party)
    (stands : parties[other]? = some also) (counts : p party = true) (too : p also = true) :
    2 ≤ parties.countP p := by
  induction parties generalizing index other with
  | nil => simp at stood
  | cons first rest ih =>
      rw [List.countP_cons]
      cases index with
      | zero =>
          cases other with
          | zero => exact absurd rfl apart
          | succ other =>
              have same : first = party := by simpa using stood
              have later : 0 < rest.countP p :=
                countP_pos_of_getElem? (show rest[other]? = some also by simpa using stands) too
              rw [same, if_pos counts]
              omega
      | succ index =>
          cases other with
          | zero =>
              have same : first = also := by simpa using stands
              have later : 0 < rest.countP p :=
                countP_pos_of_getElem? (show rest[index]? = some party by simpa using stood) counts
              rw [same, if_pos too]
              omega
          | succ other =>
              have later := ih (fun same => apart (congrArg Nat.succ same))
                (show rest[index]? = some party by simpa using stood)
                (show rest[other]? = some also by simpa using stands)
              omega

/-- **One flag changes**: the count moves by those who point to it. -/
theorem countP_flag {K : Type} [DecidableEq K] (points : A → Option K) (before after : K → Bool)
    (key : K) (agree : ∀ other, other ≠ key → after other = before other) (parties : List A) :
    (parties.countP fun party => ((points party).map after).getD false) +
        (if before key then parties.countP fun party => decide (points party = some key) else 0) =
      (parties.countP fun party => ((points party).map before).getD false) +
        (if after key then parties.countP fun party => decide (points party = some key) else 0) := by
  induction parties with
  | nil => simp
  | cons first rest ih =>
      simp only [List.countP_cons]
      cases pointed : points first with
      | none => simpa [pointed] using ih
      | some target =>
          by_cases same : target = key
          · subst same
            cases was : before target <;> cases is : after target <;> simp [was, is] at ih ⊢ <;> omega
          · have kept := agree target same
            cases was : before target <;> simp [same, kept, was] <;> omega

theorem getElem?_set_cases (moved : (parties.set index new)[other]? = some party) :
    (other = index ∧ party = new) ∨ (other ≠ index ∧ parties[other]? = some party) := by
  rw [List.getElem?_set] at moved
  split at moved
  case isTrue same =>
    split at moved
    case isTrue => exact Or.inl ⟨same.symm, (Option.some.inj moved).symm⟩
    case isFalse => cases moved
  case isFalse different => exact Or.inr ⟨fun same => different same.symm, moved⟩

theorem getElem?_set_of_ne (different : other ≠ index) (stood : parties[other]? = some party) :
    (parties.set index new)[other]? = some party := by
  rw [List.getElem?_set_ne different.symm]
  exact stood

theorem getElem?_set_of_some (stood : parties[index]? = some old) :
    (parties.set index new)[index]? = some new := by
  obtain ⟨inside, _⟩ := List.getElem?_eq_some_iff.mp stood
  rw [List.getElem?_set_self inside]

/-- A party that joins comes last. -/
theorem getElem?_append_cases (joined : (parties ++ [new])[other]? = some party) :
    parties[other]? = some party ∨ (other = parties.length ∧ party = new) := by
  rcases lt_trichotomy other parties.length with inside | last | outside
  · rw [List.getElem?_append_left inside] at joined
    exact Or.inl joined
  · subst last
    rw [List.getElem?_concat_length] at joined
    exact Or.inr ⟨rfl, (Option.some.inj joined).symm⟩
  · rw [List.getElem?_eq_none (by simp; omega)] at joined
    cases joined

end Library
