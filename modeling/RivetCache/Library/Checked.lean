/-
**Calls that are checked one after another.**

A loop checks each item, and makes a call for it before it checks the next. Every call may refuse, which
ends the loop. `recorded` lists the calls made, with their answers.

* `checkedCalls_cases`: how such a loop ends;
* `Clean`: an error that no call has answered leaves no call made;
* `clean_iff`: it is not so exactly where a check fails after calls that were accepted.
-/

import RivetCache.Library.Fallible

set_option linter.unusedSectionVars false

namespace Library

variable {ε A B S : Type}

/-- The loop. -/
def checkedCalls (check : A → Except ε B) (call : B → S → Except ε Unit × S) :
    List A → S → Except ε Unit × S
  | [], s => (.ok (), s)
  | item :: rest, s =>
      match check item with
      | .error error => (.error error, s)
      | .ok argument => andThen (call argument s) fun _ s => checkedCalls check call rest s

/-- A call, with the list of what was called and answered. -/
def recorded (call : B → S → Except ε Unit × S) (argument : B)
    (s : S × List (B × Except ε Unit)) : Except ε Unit × (S × List (B × Except ε Unit)) :=
  ((call argument s.1).1, (call argument s.1).2, s.2 ++ [(argument, (call argument s.1).1)])

/-- The calls are made, and none refuses. -/
inductive Accepts (call : B → S → Except ε Unit × S) : List B → S → S → Prop
  | nil (s : S) : Accepts call [] s s
  | cons {argument : B} {rest : List B} {s middle after : S}
      (taken : call argument s = (.ok (), middle)) (others : Accepts call rest middle after) :
      Accepts call (argument :: rest) s after

/-- The records of calls that were accepted. -/
def acceptedRecords (arguments : List B) : List (B × Except ε Unit) :=
  arguments.map fun argument => (argument, .ok ())

/-- **No trace of an error**: an error that no call has answered leaves no call made. -/
def Clean (result : Except ε Unit) (calls : List (B × Except ε Unit)) : Prop :=
  ∀ error, result = .error error → (∀ made ∈ calls, made.2 = .ok ()) → calls = []

section

variable {check : A → Except ε B} {call : B → S → Except ε Unit × S} {items : List A}
  {arguments more : List B} {s after : S}

/-- Calls on what a function makes of the arguments. -/
theorem accepts_map {C : Type} (call : B → S → Except ε Unit × S) (make : C → B)
    {arguments : List C} {s after : S} :
    Accepts (fun argument => call (make argument)) arguments s after ↔
      Accepts call (arguments.map make) s after := by
  induction arguments generalizing s with
  | nil =>
      constructor
      · intro accepts
        cases accepts
        exact .nil after
      · intro accepts
        cases accepts
        exact .nil after
  | cons argument rest ih =>
      constructor
      · rintro (_ | ⟨taken, others⟩)
        exact .cons taken (ih.mp others)
      · rintro (_ | ⟨taken, others⟩)
        exact .cons taken (ih.mpr others)

/-- Calls that are accepted leave one state. -/
theorem Accepts.unique {left right : S} (first : Accepts call arguments s left)
    (second : Accepts call arguments s right) : left = right := by
  induction first with
  | nil => cases second; rfl
  | cons taken _ ih =>
      cases second with
      | cons again others =>
          rw [taken] at again
          cases again
          exact ih others

/-- How the loop ends: every call is accepted; a check fails; or a call refuses. -/
inductive Ends (check : A → Except ε B) (call : B → S → Except ε Unit × S) (items : List A) (s : S) :
    Except ε Unit → S → List (B × Except ε Unit) → Prop
  | finished (arguments : List B) {after : S} (checked : items.map check = arguments.map .ok)
      (accepts : Accepts call arguments s after) :
      Ends check call items s (.ok ()) after (acceptedRecords arguments)
  | stopped (front rest : List A) (item : A) (arguments : List B) {after : S} {error : ε}
      (split : items = front ++ item :: rest) (checked : front.map check = arguments.map .ok)
      (accepts : Accepts call arguments s after) (fails : check item = .error error) :
      Ends check call items s (.error error) after (acceptedRecords arguments)
  | refused (front rest : List A) (item : A) (arguments : List B) {argument : B} {middle after : S}
      {error : ε} (split : items = front ++ item :: rest)
      (checked : front.map check = arguments.map .ok) (accepts : Accepts call arguments s middle)
      (passes : check item = .ok argument) (refuses : call argument middle = (.error error, after)) :
      Ends check call items s (.error error) after
        (acceptedRecords arguments ++ [(argument, .error error)])

/-- One call before the others. -/
theorem Ends.cons {item : A} {argument : B} {middle last : S} {result : Except ε Unit}
    {records : List (B × Except ε Unit)} (passes : check item = .ok argument)
    (taken : call argument s = (.ok (), middle)) (ends : Ends check call items middle result last records) :
    Ends check call (item :: items) s result last ((argument, .ok ()) :: records) := by
  have longer : ∀ {front : List A} {arguments : List B}, front.map check = arguments.map .ok →
      (item :: front).map check = (argument :: arguments).map .ok := fun checked => by
    rw [List.map_cons, List.map_cons, passes, checked]
  cases ends with
  | finished arguments checked accepts =>
      exact .finished (argument :: arguments) (longer checked) (.cons taken accepts)
  | stopped front rest stopping arguments split checked accepts fails =>
      exact .stopped (item :: front) rest stopping (argument :: arguments) (by rw [split]; rfl)
        (longer checked) (.cons taken accepts) fails
  | refused front rest refusing arguments split checked accepts passed refuses =>
      exact .refused (item :: front) rest refusing (argument :: arguments) (by rw [split]; rfl)
        (longer checked) (.cons taken accepts) passed refuses

theorem checkedCalls_fails {item : A} {error : ε} (fails : check item = .error error) (s : S) :
    checkedCalls check call (item :: items) s = (.error error, s) := by
  unfold checkedCalls
  rw [fails]

theorem checkedCalls_passes {item : A} {argument : B} (passes : check item = .ok argument) (s : S) :
    checkedCalls check call (item :: items) s =
      andThen (call argument s) fun _ s => checkedCalls check call items s := by
  conv_lhs => unfold checkedCalls
  rw [passes]

/-- A call on what a function makes of its argument is a check that applies the function. -/
theorem checkedCalls_map {C : Type} (check : A → Except ε C) (make : C → B)
    (call : B → S → Except ε Unit × S) (items : List A) (s : S) :
    checkedCalls check (fun argument => call (make argument)) items s =
      checkedCalls (fun item => (check item).map make) call items s := by
  induction items generalizing s with
  | nil => rfl
  | cons item rest ih =>
      unfold checkedCalls
      rw [funext ih]
      cases check item <;> rfl

/-- Checks that agree on the items make one loop. -/
theorem checkedCalls_congr {other : A → Except ε B} (same : ∀ item ∈ items, check item = other item)
    (s : S) : checkedCalls check call items s = checkedCalls other call items s := by
  induction items generalizing s with
  | nil => rfl
  | cons item rest ih =>
      have here := same item List.mem_cons_self
      have later := ih fun item mem => same item (List.mem_cons_of_mem _ mem)
      unfold checkedCalls
      rw [here, funext later]

theorem recorded_eq {argument : B} {answer : Except ε Unit} (answered : call argument s = (answer, after))
    (earlier : List (B × Except ε Unit)) :
    recorded call argument (s, earlier) = (answer, after, earlier ++ [(argument, answer)]) := by
  unfold recorded
  rw [answered]

/-- **How the loop ends**, with the calls it has made. -/
theorem checkedCalls_cases (check : A → Except ε B) (call : B → S → Except ε Unit × S)
    (items : List A) (s : S) (earlier : List (B × Except ε Unit)) :
    ∃ result after records,
      checkedCalls check (recorded call) items (s, earlier) = (result, after, earlier ++ records) ∧
        Ends check call items s result after records := by
  induction items generalizing s earlier with
  | nil =>
      refine ⟨.ok (), s, [], ?_, .finished [] rfl (.nil s)⟩
      rw [List.append_nil]
      rfl
  | cons item rest ih =>
      cases passes : check item with
      | error error =>
          refine ⟨.error error, s, [], ?_, .stopped [] rest item [] rfl rfl (.nil s) passes⟩
          rw [checkedCalls_fails passes, List.append_nil]
      | ok argument =>
          rw [checkedCalls_passes passes]
          rcases answered : call argument s with ⟨_ | _, middle⟩
          case error error =>
            refine ⟨.error error, middle, [(argument, .error error)], ?_,
              .refused [] rest item [] rfl rfl (.nil s) passes answered⟩
            rw [recorded_eq answered]
            rfl
          case ok =>
            obtain ⟨result, after, records, run, ends⟩ := ih middle (earlier ++ [(argument, .ok ())])
            refine ⟨result, after, (argument, .ok ()) :: records, ?_, ends.cons passes answered⟩
            rw [recorded_eq answered, andThen_ok, run, List.append_assoc]
            rfl

theorem acceptedRecords_eq_nil : (acceptedRecords arguments : List (B × Except ε Unit)) = [] ↔
    arguments = [] := List.map_eq_nil_iff

theorem ok_of_mem_acceptedRecords {made : B × Except ε Unit}
    (mem : made ∈ acceptedRecords arguments) : made.2 = .ok () := by
  obtain ⟨argument, _, rfl⟩ := List.mem_map.mp mem
  rfl

/-- **A check that fails too late**: after calls that were accepted. -/
def FailsLate (check : A → Except ε B) (call : B → S → Except ε Unit × S) (items : List A) (s : S) :
    Prop :=
  ∃ front item rest arguments after error, items = front ++ item :: rest ∧ front ≠ [] ∧
    front.map check = arguments.map .ok ∧ Accepts call arguments s after ∧ check item = .error error

/-- **What was accepted is recorded**, and the loop goes on from there. -/
theorem checkedCalls_append {front : List A} (rest : List A)
    (checked : front.map check = arguments.map .ok) (accepts : Accepts call arguments s after) (earlier : List (B × Except ε Unit)) :
    checkedCalls check (recorded call) (front ++ rest) (s, earlier) =
      checkedCalls check (recorded call) rest (after, earlier ++ acceptedRecords arguments) := by
  induction accepts generalizing front earlier with
  | nil s =>
      rw [List.map_nil, List.map_eq_nil_iff] at checked
      subst checked
      exact congrArg _ (congrArg _ (List.append_nil earlier).symm)
  | @cons argument others s middle after taken _ ih =>
      cases front with
      | nil => cases checked
      | cons item front =>
          rw [List.map_cons, List.map_cons, List.cons.injEq] at checked
          obtain ⟨passes, checked⟩ := checked
          rw [List.cons_append, checkedCalls_passes passes, recorded_eq taken, andThen_ok, ih checked,
            List.append_assoc]
          rfl

/-- **The loop is clean** where no check fails too late. -/
theorem clean_iff (check : A → Except ε B) (call : B → S → Except ε Unit × S) (items : List A) (s : S) :
    Clean (checkedCalls check (recorded call) items (s, [])).1
        (checkedCalls check (recorded call) items (s, [])).2.2 ↔
      ¬FailsLate check call items s := by
  constructor
  · rintro clean ⟨front, item, rest, arguments, after, error, rfl, filled, checked, accepts, fails⟩
    rw [checkedCalls_append (item :: rest) checked accepts, checkedCalls_fails fails] at clean
    have none_made := acceptedRecords_eq_nil.mp (clean error rfl fun _ => ok_of_mem_acceptedRecords)
    rw [none_made, List.map_nil, List.map_eq_nil_iff] at checked
    exact filled checked
  · intro early
    obtain ⟨result, after, records, run, ends⟩ := checkedCalls_cases check call items s []
    rw [run, List.nil_append]
    dsimp only
    cases ends with
    | finished => exact fun _ (failed : Except.ok () = _) => by cases failed
    | refused =>
        intro error _ accepted
        have refusal := accepted _ (List.mem_append_right _ List.mem_cons_self)
        cases refusal
    | stopped front rest item arguments split checked accepts fails =>
        intro error _ _
        rcases List.eq_nil_or_concat front with rfl | ⟨_, _, rfl⟩
        · rw [List.map_nil, eq_comm, List.map_eq_nil_iff] at checked
          rw [checked]
          rfl
        · exact absurd ⟨_, item, rest, arguments, after, _, split, by simp, checked, accepts, fails⟩ early

end

end Library
