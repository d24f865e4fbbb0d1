/-
**Programs over a signature of calls.**

A `Program` makes calls from `Op`, sees their answers, and ends with a value or an error. The same
program is run alone, on a state that handles its calls (`run`), or in a pool of threads whose calls
interleave (`Pool.advance`): one call is one atomic step.

* `run_bind`: running a sequence;
* `run_keeps`: what every call keeps, a run keeps;
* `Informed post known`: whatever a call needs to know, the program knew at the start or learned from an
  earlier answer of its own, and what it returns satisfies `post`. `informed_bind` composes,
  `run_informed` is the rule for a run, `Pool.informed` the one for a thread of a pool.
-/

import RivetCache.Library.Fallible
import RivetCache.Library.Run

set_option linter.unusedSectionVars false

namespace Library

/-- A program with calls from `Op`. -/
inductive Program (Op : Type) (Answer : Op → Type) (ε α : Type) where
  | done (result : Except ε α)
  | call (op : Op) (next : Answer op → Program Op Answer ε α)

namespace Program

variable {Op : Type} {Answer : Op → Type} {ε α β S : Type}

/-- Run a program, and the rest unless it failed. -/
protected def bind : Program Op Answer ε α → (α → Program Op Answer ε β) → Program Op Answer ε β
  | .done (.error error), _ => .done (.error error)
  | .done (.ok value), rest => rest value
  | .call op next, rest => .call op fun answer => (next answer).bind rest

instance : Monad (Program Op Answer ε) where
  pure value := .done (.ok value)
  bind := Program.bind

/-- End with an error. -/
def fail (error : ε) : Program Op Answer ε α := .done (.error error)

/-- A single call. -/
def ask (op : Op) : Program Op Answer ε (Answer op) := .call op fun answer => .done (.ok answer)

/-- The outcome of a program, as a value. -/
def attempt : Program Op Answer ε α → Program Op Answer ε (Except ε α)
  | .done result => .done (.ok result)
  | .call op next => .call op fun answer => (next answer).attempt

@[simp] theorem bind_ok (value : α) (rest : α → Program Op Answer ε β) :
    (.done (.ok value) : Program Op Answer ε α) >>= rest = rest value := rfl

@[simp] theorem bind_error (error : ε) (rest : α → Program Op Answer ε β) :
    (.done (.error error) : Program Op Answer ε α) >>= rest = .done (.error error) := rfl

@[simp] theorem bind_call (op : Op) (next : Answer op → Program Op Answer ε α)
    (rest : α → Program Op Answer ε β) :
    (.call op next : Program Op Answer ε α) >>= rest = .call op fun answer => next answer >>= rest :=
  rfl

/-! ### Running alone -/

/-- Run a program on a state that handles its calls. -/
def run (handle : (op : Op) → S → Answer op × S) : Program Op Answer ε α → S → Except ε α × S
  | .done result, state => (result, state)
  | .call op next, state => (next (handle op state).1).run handle (handle op state).2

variable {handle : (op : Op) → S → Answer op × S}

@[simp] theorem run_done (result : Except ε α) (state : S) :
    run handle (.done result : Program Op Answer ε α) state = (result, state) := rfl

@[simp] theorem run_pure (value : α) (state : S) :
    run handle (pure value : Program Op Answer ε α) state = (.ok value, state) := rfl

@[simp] theorem run_fail (error : ε) (state : S) :
    run handle (fail error : Program Op Answer ε α) state = (.error error, state) := rfl

@[simp] theorem run_ask (op : Op) (state : S) :
    run handle (ask op : Program Op Answer ε (Answer op)) state =
      (.ok (handle op state).1, (handle op state).2) := rfl

/-- **A sequence runs** its first program, then the rest unless that failed. -/
@[simp] theorem run_bind (program : Program Op Answer ε α) (rest : α → Program Op Answer ε β)
    (state : S) :
    run handle (program >>= rest) state =
      andThen (run handle program state) fun value state => run handle (rest value) state := by
  induction program generalizing state with
  | done result => cases result <;> rfl
  | call op next ih => exact ih _ _

/-- A sequence that succeeds after a result that is there already. -/
theorem run_done_bind_ok {result : Except ε α} {rest : α → Program Op Answer ε β} {state after : S}
    {value : β} :
    run handle (.done result >>= rest) state = (.ok value, after) ↔
      ∃ first, result = .ok first ∧ run handle (rest first) state = (.ok value, after) := by
  cases result with
  | error error => simp
  | ok first => simp

/-- A sequence that succeeds. -/
theorem run_bind_ok {program : Program Op Answer ε α} {rest : α → Program Op Answer ε β}
    {state after : S} {value : β} :
    run handle (program >>= rest) state = (.ok value, after) ↔
      ∃ first middle, run handle program state = (.ok first, middle) ∧
        run handle (rest first) middle = (.ok value, after) := by
  rw [run_bind]
  exact andThen_eq_ok

@[simp] theorem run_attempt (program : Program Op Answer ε α) (state : S) :
    run handle program.attempt state =
      (.ok (run handle program state).1, (run handle program state).2) := by
  induction program generalizing state with
  | done result => rfl
  | call op next ih => exact ih _ _

/-- An attempt whose outcome is a value. -/
theorem run_attempt_ok {program : Program Op Answer ε α} {state after : S} {value : α} :
    run handle program.attempt state = (.ok (.ok value), after) ↔
      run handle program state = (.ok value, after) := by
  rw [run_attempt, Prod.mk.injEq, Except.ok.injEq]
  constructor
  · rintro ⟨result, left⟩
    exact Prod.ext result left
  · intro done
    exact ⟨congrArg Prod.fst done, congrArg Prod.snd done⟩

/-- **What every call keeps, a run keeps.** -/
theorem run_keeps {I : S → Prop} (kept : ∀ op state, I state → I (handle op state).2)
    (program : Program Op Answer ε α) (state : S) (holds : I state) :
    I (run handle program state).2 := by
  induction program generalizing state with
  | done result => exact holds
  | call op next ih => exact ih _ _ (kept op state holds)

/-! ### What a program knows -/

section Informed

variable {Fact : Type} (learns : (op : Op) → Answer op → Fact → Prop) (needs : Op → Fact → Prop)

/-- Every fact a call needs is known at the start or learned from an earlier answer; a value returned
satisfies `post`, with what is known in the end. -/
def Informed (post : α → (Fact → Prop) → Prop) : (Fact → Prop) → Program Op Answer ε α → Prop
  | _, .done (.error _) => True
  | known, .done (.ok value) => post value known
  | known, .call op next => (∀ fact, needs op fact → known fact) ∧
      ∀ answer, (next answer).Informed post fun fact => known fact ∨ learns op answer fact

variable {learns needs} {post : α → (Fact → Prop) → Prop} {rule : β → (Fact → Prop) → Prop}
  {known : Fact → Prop}

/-- What is known matters, not how it is put. -/
theorem Informed.congr {program : Program Op Answer ε α} {same : Fact → Prop}
    (iff : ∀ fact, known fact ↔ same fact) (informed : program.Informed learns needs post known) :
    program.Informed learns needs post same := by
  have equal : known = same := funext fun fact => propext (iff fact)
  rwa [equal] at informed

/-- A weaker conclusion. -/
theorem Informed.weaken {program : Program Op Answer ε α} {weaker : α → (Fact → Prop) → Prop}
    (informed : program.Informed learns needs post known)
    (implied : ∀ value more, post value more → weaker value more) :
    program.Informed learns needs weaker known := by
  induction program generalizing known with
  | done result =>
      cases result with
      | error error => trivial
      | ok value => exact implied value known informed
  | call op next ih => exact ⟨informed.1, fun answer => ih answer (informed.2 answer)⟩

/-- What is known at the start is known at the end. -/
theorem Informed.retain {program : Program Op Answer ε α}
    (informed : program.Informed learns needs post known) :
    program.Informed learns needs
      (fun value more => post value more ∧ ∀ fact, known fact → more fact) known := by
  induction program generalizing known with
  | done result =>
      cases result with
      | error error => trivial
      | ok value => exact ⟨informed, fun _ fact => fact⟩
  | call op next ih =>
      refine ⟨informed.1, fun answer => (ih answer (informed.2 answer)).weaken ?_⟩
      rintro value more ⟨holds, grows⟩
      exact ⟨holds, fun fact before => grows fact (Or.inl before)⟩

/-- **A sequence is informed** where its first program is, and the rest is by whatever is known then:
at least what was known at the start. -/
theorem informed_bind {program : Program Op Answer ε α} {rest : α → Program Op Answer ε β}
    (first : program.Informed learns needs post known)
    (after : ∀ value more, (∀ fact, known fact → more fact) → post value more →
      (rest value).Informed learns needs rule more) :
    (program >>= rest).Informed learns needs rule known := by
  induction program generalizing known with
  | done result =>
      cases result with
      | error error => trivial
      | ok value => exact after value known (fun _ fact => fact) first
  | call op next ih =>
      refine ⟨first.1, fun answer => ih answer (first.2 answer) fun value more grows => ?_⟩
      exact after value more fun fact before => grows fact (Or.inl before)

theorem informed_pure {value : α} (holds : post value known) :
    (pure value : Program Op Answer ε α).Informed learns needs post known := holds

/-- A result that is there already. -/
theorem informed_done {result : Except ε α} (holds : ∀ value, result = .ok value → post value known) :
    (.done result : Program Op Answer ε α).Informed learns needs post known := by
  cases result with
  | error error => trivial
  | ok value => exact holds value rfl

/-- A result that is there already, and a rest. -/
theorem informed_done_bind {result : Except ε α} {rest : α → Program Op Answer ε β}
    (after : ∀ value, result = .ok value → (rest value).Informed learns needs rule known) :
    (.done result >>= rest).Informed learns needs rule known := by
  cases result with
  | error error => trivial
  | ok value => exact after value rfl

theorem informed_attempt {program : Program Op Answer ε α}
    (informed : program.Informed learns needs post known) :
    program.attempt.Informed learns needs
      (fun outcome known => ∀ value, outcome = .ok value → post value known) known := by
  induction program generalizing known with
  | done result =>
      rintro value rfl
      exact informed
  | call op next ih => exact ⟨informed.1, fun answer => ih answer (informed.2 answer)⟩

/-- **The rule for an informed run**: an invariant that is kept by calls which need only true facts,
where answers teach only true facts. What is true does not change during the run. -/
theorem run_informed {I : S → Prop} {holds : Fact → Prop}
    (kept : ∀ op state, I state → (∀ fact, needs op fact → holds fact) → I (handle op state).2)
    (sound : ∀ op state, I state → ∀ fact, learns op (handle op state).1 fact → holds fact)
    {program : Program Op Answer ε α} (informed : program.Informed learns needs post known)
    (true_known : ∀ fact, known fact → holds fact) {state : S} (start : I state) :
    I (run handle program state).2 ∧
      ∀ value, (run handle program state).1 = .ok value →
        ∃ known, (∀ fact, known fact → holds fact) ∧ post value known := by
  induction program generalizing known state with
  | done result =>
      refine ⟨start, ?_⟩
      rintro value rfl
      exact ⟨known, true_known, informed⟩
  | call op next ih =>
      refine ih _ (informed.2 _) (fun fact => ?_)
        (kept op state start fun fact needed => true_known fact (informed.1 fact needed))
      rintro (before | learned)
      · exact true_known fact before
      · exact sound op state start fact learned

end Informed

end Program

/-! ### Threads -/

/-- A call that was made, by which thread, and its answer. -/
structure Event (Op : Type) (Answer : Op → Type) where
  thread : Nat
  op : Op
  answer : Answer op

/-- Threads, the state they share, and the calls made so far, newest first. -/
structure Pool (Op : Type) (Answer : Op → Type) (ε S : Type) where
  threads : Nat → Program Op Answer ε Unit
  state : S
  log : List (Event Op Answer)

namespace Pool

variable {Op : Type} {Answer : Op → Type} {ε S : Type}

/-- One call of one thread. -/
def advance (handle : (op : Op) → S → Answer op × S) (thread : Nat) (pool : Pool Op Answer ε S) :
    Pool Op Answer ε S :=
  match pool.threads thread with
  | .done _ => pool
  | .call op next =>
      { threads := Function.update pool.threads thread (next (handle op pool.state).1)
        state := (handle op pool.state).2
        log := ⟨thread, op, (handle op pool.state).1⟩ :: pool.log }

/-- Every thread has ended. -/
def Finished (pool : Pool Op Answer ε S) : Prop :=
  ∀ thread, ∃ result, pool.threads thread = .done result

/-- What a step does, when it does something. -/
theorem advance_cases (handle : (op : Op) → S → Answer op × S) (thread : Nat)
    (pool : Pool Op Answer ε S) :
    pool.advance handle thread = pool ∨
      ∃ op next, pool.threads thread = .call op next ∧
        pool.advance handle thread =
          { threads := Function.update pool.threads thread (next (handle op pool.state).1)
            state := (handle op pool.state).2
            log := ⟨thread, op, (handle op pool.state).1⟩ :: pool.log } := by
  unfold advance
  cases head : pool.threads thread with
  | done result => exact Or.inl rfl
  | call op next => exact Or.inr ⟨op, next, rfl, rfl⟩

section Informed

variable {Fact : Type} {learns : (op : Op) → Answer op → Fact → Prop} {needs : Op → Fact → Prop}
  {post : Unit → (Fact → Prop) → Prop} {known : Fact → Prop}

/-- What a thread has learned from the calls of a log. -/
def Learned (learns : (op : Op) → Answer op → Fact → Prop) (log : List (Event Op Answer))
    (thread : Nat) (fact : Fact) : Prop :=
  ∃ event ∈ log, event.thread = thread ∧ learns event.op event.answer fact

theorem learned_cons {event : Event Op Answer} {log : List (Event Op Answer)} {thread : Nat}
    {fact : Fact} : Learned learns (event :: log) thread fact ↔
      (event.thread = thread ∧ learns event.op event.answer fact) ∨ Learned learns log thread fact := by
  unfold Learned
  simp only [List.mem_cons, exists_eq_or_imp]

/-- **A thread stays informed** by what it knew at the start and has learned so far. -/
theorem informed (handle : (op : Op) → S → Answer op × S) {allowed : Nat → Pool Op Answer ε S → Prop}
    {start pool : Pool Op Answer ε S} {thread : Nat} (fresh : start.log = [])
    (begun : (start.threads thread).Informed learns needs post known)
    (reached : Reaches (advance handle) allowed start pool) :
    (pool.threads thread).Informed learns needs post fun fact =>
      known fact ∨ Learned learns pool.log thread fact := by
  refine reached.invariant (fun pool => (pool.threads thread).Informed learns needs post fun fact =>
    known fact ∨ Learned learns pool.log thread fact) ?_ (fun mover pool held _ => ?_)
  · refine begun.congr fun fact => ⟨Or.inl, ?_⟩
    rintro (start | ⟨event, inside, _⟩)
    · exact start
    · rw [fresh] at inside
      exact absurd inside List.not_mem_nil
  · rcases advance_cases handle mover pool with same | ⟨op, next, head, moved⟩
    · rw [same]
      exact held
    · rw [moved]
      show (Function.update pool.threads mover (next (handle op pool.state).1) thread).Informed
        learns needs post _
      by_cases own : thread = mover
      · subst own
        rw [head] at held
        rw [Function.update_self]
        refine (held.2 (handle op pool.state).1).congr fun fact => ?_
        rw [learned_cons]
        simp only [true_and]
        tauto
      · rw [Function.update_of_ne own]
        refine held.congr fun fact => ?_
        rw [learned_cons]
        simp only [show mover ≠ thread from fun same => own same.symm, false_and, false_or]

end Informed

end Pool

end Library
