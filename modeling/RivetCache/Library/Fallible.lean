/-
**Fallible calls on a state.**

A call returns its result and the state it leaves, also when it fails: an early return keeps what was
changed before it. `andThen` is the early return; the rules say when a sequence succeeds
(`andThen_eq_ok`) and what it preserves (`andThen_preserves`). Results that leave no state are sequenced
by `>>=` (`bind_eq_ok`, `bind_eq_error`).
-/

import Mathlib.Tactic

namespace Library

variable {ε α β S : Type}

/-- Run a fallible call, and the rest unless it failed. -/
def andThen (first : Except ε α × S) (next : α → S → Except ε β × S) : Except ε β × S :=
  match first with
  | (.error error, state) => (.error error, state)
  | (.ok value, state) => next value state

@[simp] theorem andThen_ok (value : α) (state : S) (next : α → S → Except ε β × S) :
    andThen (.ok value, state) next = next value state := rfl

@[simp] theorem andThen_error (error : ε) (state : S) (next : α → S → Except ε β × S) :
    andThen (.error error, state) next = (.error error, state) := rfl

/-- **A sequence succeeds** when its first call does and the rest does from there. -/
theorem andThen_eq_ok {first : Except ε α × S} {next : α → S → Except ε β × S} {result : β}
    {after : S} :
    andThen first next = (.ok result, after) ↔
      ∃ value state, first = (.ok value, state) ∧ next value state = (.ok result, after) := by
  obtain ⟨outcome, state⟩ := first
  cases outcome with
  | error error => simp
  | ok value =>
      constructor
      · exact fun done => ⟨value, state, rfl, done⟩
      · rintro ⟨_, _, same, done⟩
        cases same
        exact done

/-- **A sequence preserves** what its first call establishes and the rest keeps. -/
theorem andThen_preserves {P : S → Prop} {first : Except ε α × S}
    {next : α → S → Except ε β × S} (before : P first.2)
    (after : ∀ value state, first = (.ok value, state) → P state → P (next value state).2) :
    P (andThen first next).2 := by
  obtain ⟨outcome, state⟩ := first
  cases outcome with
  | error error => exact before
  | ok value => exact after value state rfl before

/-! ### Results without a state -/

/-- A sequence of results succeeds when its first does and the rest does from there. -/
theorem bind_eq_ok {first : Except ε α} {next : α → Except ε β} {result : β} :
    (first >>= next) = .ok result ↔ ∃ value, first = .ok value ∧ next value = .ok result := by
  cases first with
  | error error => exact ⟨(fun done => nomatch done), (fun ⟨_, same, _⟩ => nomatch same)⟩
  | ok value =>
      constructor
      · exact fun done => ⟨value, rfl, done⟩
      · rintro ⟨_, same, done⟩
        cases same
        exact done

/-- A sequence of results fails where its first does, or where the rest does from there. -/
theorem bind_eq_error {first : Except ε α} {next : α → Except ε β} {error : ε} :
    (first >>= next) = .error error ↔
      first = .error error ∨ ∃ value, first = .ok value ∧ next value = .error error := by
  cases first with
  | error other =>
      constructor
      · intro failed
        cases failed
        exact .inl rfl
      · rintro (same | ⟨_, same, _⟩)
        · cases same
          rfl
        · exact nomatch same
  | ok value =>
      constructor
      · exact fun failed => .inr ⟨value, rfl, failed⟩
      · rintro (same | ⟨_, same, failed⟩)
        · exact nomatch same
        · cases same
          exact failed

/-- **Sequences that differ in their errors only** have the same results. -/
theorem toOption_bind_congr {ε' : Type} {first : Except ε α} {its : Except ε' α} {next : α → Except ε β}
    {rest : α → Except ε' β} (same : first.toOption = its.toOption)
    (after : ∀ value, (next value).toOption = (rest value).toOption) :
    (first >>= next).toOption = (its >>= rest).toOption := by
  cases first with
  | error error =>
      cases its with
      | error other => rfl
      | ok value => cases same
  | ok value =>
      cases its with
      | error other => cases same
      | ok other =>
          cases same
          exact after value

/-- Equal results, as outcomes. -/
theorem toOption_eq_some {first : Except ε α} {value : α} :
    first.toOption = some value ↔ first = .ok value := by
  cases first with
  | error error => exact ⟨fun same => (by cases same), fun same => (by cases same)⟩
  | ok other =>
      constructor <;> intro same <;> cases same <;> rfl

end Library
