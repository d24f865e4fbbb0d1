/-
**Programs and their own history.**

A program sees the answers to its own calls and nothing else. `Lawful rule` says that each call it makes
is one that `rule` allows after the calls and answers so far: what a program writes it has read, what it
removes it has found expired. The rule holds of every call of a thread, however the threads interleave
(`Pool.lawful`).
-/

import RivetCache.Library.Program

set_option linter.unusedSectionVars false

namespace Library

variable {Op : Type} {Answer : Op → Type} {ε α β S : Type}

/-- A call and its answer. -/
structure Exchange (Op : Type) (Answer : Op → Type) where
  op : Op
  answer : Answer op

namespace Program

/-- Each call is allowed after the calls before it, newest first; a value returned satisfies `post`. -/
def Lawful (rule : List (Exchange Op Answer) → Op → Prop)
    (post : α → List (Exchange Op Answer) → Prop) :
    List (Exchange Op Answer) → Program Op Answer ε α → Prop
  | _, .done (.error _) => True
  | history, .done (.ok value) => post value history
  | history, .call op next =>
      rule history op ∧ ∀ answer, (next answer).Lawful rule post (⟨op, answer⟩ :: history)

variable {rule : List (Exchange Op Answer) → Op → Prop} {post : α → List (Exchange Op Answer) → Prop}
  {later : β → List (Exchange Op Answer) → Prop} {history : List (Exchange Op Answer)}

/-- **A sequence is lawful** where its first program is, and the rest after whatever that has done. -/
theorem lawful_bind {program : Program Op Answer ε α} {rest : α → Program Op Answer ε β}
    (first : program.Lawful rule post history)
    (next : ∀ value history, post value history → (rest value).Lawful rule later history) :
    (program >>= rest).Lawful rule later history := by
  induction program generalizing history with
  | done result =>
      cases result with
      | error error => trivial
      | ok value => exact next value history first
  | call op others ih => exact ⟨first.1, fun answer => ih answer (first.2 answer)⟩

/-- A result that is there already, and a rest. -/
theorem lawful_done_bind {result : Except ε α} {rest : α → Program Op Answer ε β}
    (next : ∀ value, result = .ok value → (rest value).Lawful rule later history) :
    (.done result >>= rest).Lawful rule later history := by
  cases result with
  | error error => trivial
  | ok value => exact next value rfl

/-- A weaker conclusion. -/
theorem Lawful.weaken {program : Program Op Answer ε α} {weaker : α → List (Exchange Op Answer) → Prop}
    (lawful : program.Lawful rule post history)
    (implied : ∀ value history, post value history → weaker value history) :
    program.Lawful rule weaker history := by
  induction program generalizing history with
  | done result =>
      cases result with
      | error error => trivial
      | ok value => exact implied value history lawful
  | call op next ih => exact ⟨lawful.1, fun answer => ih answer (lawful.2 answer)⟩

end Program

namespace Pool

/-- The calls of one thread. -/
def own : List (Event Op Answer) → Nat → List (Exchange Op Answer)
  | [], _ => []
  | event :: log, thread =>
      if event.thread = thread then ⟨event.op, event.answer⟩ :: own log thread else own log thread

theorem mem_own {log : List (Event Op Answer)} {thread : Nat} {exchange : Exchange Op Answer} :
    exchange ∈ own log thread ↔
      ∃ event ∈ log, event.thread = thread ∧ exchange = ⟨event.op, event.answer⟩ := by
  induction log with
  | nil => simp [own]
  | cons event log ih =>
      unfold own
      by_cases same : event.thread = thread
      · simp [same, ih]
      · simp [same, ih]

variable {rule : List (Exchange Op Answer) → Op → Prop}
  {post : Unit → List (Exchange Op Answer) → Prop}

/-- **A thread stays lawful**, among any others. -/
theorem lawful (handle : (op : Op) → S → Answer op × S) {allowed : Nat → Pool Op Answer ε S → Prop}
    {start pool : Pool Op Answer ε S} {thread : Nat} (fresh : start.log = [])
    (begun : (start.threads thread).Lawful rule post [])
    (reached : Reaches (advance handle) allowed start pool) :
    (pool.threads thread).Lawful rule post (own pool.log thread) := by
  refine reached.invariant
    (fun pool => (pool.threads thread).Lawful rule post (own pool.log thread)) ?_
    (fun mover pool held _ => ?_)
  · rw [fresh]
    exact begun
  · rcases advance_cases handle mover pool with same | ⟨op, next, head, moved⟩
    · rw [same]
      exact held
    · rw [moved]
      show (Function.update pool.threads mover (next (handle op pool.state).1) thread).Lawful rule post _
      unfold own
      by_cases mine : mover = thread
      · subst mine
        rw [head] at held
        rw [Function.update_self, if_pos rfl]
        exact held.2 _
      · rw [Function.update_of_ne fun same => mine same.symm, if_neg mine]
        exact held

/-- **Every call of a thread was allowed** after its calls before. -/
theorem lawful_event (handle : (op : Op) → S → Answer op × S)
    {allowed : Nat → Pool Op Answer ε S → Prop} {start pool : Pool Op Answer ε S} {thread : Nat}
    (fresh : start.log = []) (begun : (start.threads thread).Lawful rule post [])
    (reached : Reaches (advance handle) allowed start pool) {newer older : List (Event Op Answer)}
    {event : Event Op Answer} (split : pool.log = newer ++ event :: older)
    (mine : event.thread = thread) : rule (own older thread) event.op := by
  induction reached generalizing newer with
  | refl =>
      rw [fresh] at split
      simp at split
  | @step pool mover before permitted ih =>
      rcases advance_cases handle mover pool with same | ⟨op, next, head, moved⟩
      · rw [same] at split
        exact ih split
      · rw [moved] at split
        cases newer with
        | nil =>
            cases split
            cases mine
            have held := lawful handle fresh begun before
            rw [head] at held
            exact held.1
        | cons first rest => exact ih (List.cons.inj split).2

end Pool

end Library
