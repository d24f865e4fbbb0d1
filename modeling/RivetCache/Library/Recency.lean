/-
**Entries in the order of their last use.**

A list of entries, the one used last in front. Some entries are pinned. `trim` drops the least recently used
entries that are not pinned, one at a time, until the total size is within a limit or only pinned entries are
left (`trim_settled`).

* `dropOldest_split`: the entry that is dropped is the last one that is not pinned;
* `dropOldest_ranked`: where ranks fall from one entry to the next, the entry of the least rank that is not
  pinned is dropped.
-/

import Mathlib.Tactic

set_option linter.unusedSectionVars false

namespace Library

variable {K V : Type} [DecidableEq K]

/-- An entry. -/
structure Recent (K V : Type) where
  key : K
  value : V
  pinned : Bool
  deriving DecidableEq

namespace Recency

/-- The other keys' entries. -/
def others (key : K) (entries : List (Recent K V)) : List (Recent K V) :=
  entries.filter fun entry => decide (entry.key ≠ key)

/-- The entry of a key. -/
def find (key : K) (entries : List (Recent K V)) : Option (Recent K V) :=
  entries.find? fun entry => decide (entry.key = key)

/-- An entry is written: it replaces that of its key, and comes to the front. -/
def put (entry : Recent K V) (entries : List (Recent K V)) : List (Recent K V) :=
  entry :: others entry.key entries

/-- A key is used: its entry, if there is one, comes to the front. -/
def touch (key : K) (entries : List (Recent K V)) : List (Recent K V) :=
  match find key entries with
  | none => entries
  | some entry => put entry entries

/-- Without the last entry that is not pinned. -/
def dropOldest : List (Recent K V) → Option (List (Recent K V))
  | [] => none
  | entry :: rest =>
      match dropOldest rest with
      | some left => some (entry :: left)
      | none => if entry.pinned then none else some rest

/-- The total size of the entries. -/
def totalSize (size : V → Nat) (entries : List (Recent K V)) : Nat :=
  (entries.map fun entry => size entry.value).sum

/-- Entries are dropped one at a time, in a number of rounds. -/
def trimRounds (size : V → Nat) (limit : Nat) : Nat → List (Recent K V) → List (Recent K V)
  | 0, entries => entries
  | rounds + 1, entries =>
      if limit < totalSize size entries then
        match dropOldest entries with
        | none => entries
        | some left => trimRounds size limit rounds left
      else entries

/-- Entries are dropped one at a time, until the total is within the limit or none can be dropped. -/
def trim (size : V → Nat) (limit : Nat) (entries : List (Recent K V)) : List (Recent K V) :=
  trimRounds size limit entries.length entries

/-! ### The entry that is dropped -/

section

variable {entry : Recent K V} {front back entries left : List (Recent K V)}

/-- **Nothing is dropped** exactly where all entries are pinned. -/
theorem dropOldest_eq_none : dropOldest entries = none ↔ ∀ entry ∈ entries, entry.pinned = true := by
  induction entries with
  | nil => exact iff_of_true rfl fun _ mem => by cases mem
  | cons entry rest ih =>
      rw [List.forall_mem_cons, ← ih]
      conv_lhs => unfold dropOldest
      cases dropOldest rest with
      | some left => simp
      | none => simp

/-- **The last entry that is not pinned** is dropped. -/
theorem dropOldest_split (loose : entry.pinned = false) (pinned : ∀ other ∈ back, other.pinned = true) :
    dropOldest (front ++ entry :: back) = some (front ++ back) := by
  induction front with
  | nil =>
      rw [List.nil_append, List.nil_append]
      unfold dropOldest
      rw [dropOldest_eq_none.mpr pinned]
      dsimp only
      rw [loose]
      rfl
  | cons first rest ih =>
      rw [List.cons_append]
      unfold dropOldest
      rw [ih]
      rfl

/-- What is dropped is one entry. -/
theorem length_dropOldest (dropped : dropOldest entries = some left) :
    left.length + 1 = entries.length := by
  induction entries generalizing left with
  | nil => cases dropped
  | cons first rest ih =>
      unfold dropOldest at dropped
      cases later : dropOldest rest with
      | some tail =>
          rw [later] at dropped
          cases dropped
          rw [List.length_cons, List.length_cons, ih later]
      | none =>
          rw [later] at dropped
          dsimp only at dropped
          split at dropped
          case isTrue => cases dropped
          case isFalse =>
            cases dropped
            rfl

/-- **Trimming settles**: within the limit, or with pinned entries only. -/
theorem trimRounds_settled (size : V → Nat) (limit : Nat) {rounds : Nat}
    (enough : entries.length ≤ rounds) :
    totalSize size (trimRounds size limit rounds entries) ≤ limit ∨
      ∀ entry ∈ trimRounds size limit rounds entries, entry.pinned = true := by
  induction rounds generalizing entries with
  | zero =>
      have empty : entries = [] := List.length_eq_zero_iff.mp (Nat.le_zero.mp enough)
      subst empty
      exact Or.inr fun _ mem => by cases mem
  | succ rounds ih =>
      unfold trimRounds
      split
      case isFalse within => exact Or.inl (Nat.not_lt.mp within)
      case isTrue =>
        cases dropped : dropOldest entries with
        | none => exact Or.inr (dropOldest_eq_none.mp dropped)
        | some left =>
            have shorter := length_dropOldest dropped
            exact ih (by omega)

theorem trim_settled (size : V → Nat) (limit : Nat) (entries : List (Recent K V)) :
    totalSize size (trim size limit entries) ≤ limit ∨
      ∀ entry ∈ trim size limit entries, entry.pinned = true :=
  trimRounds_settled size limit le_rfl

end

/-! ### Entries with ranks -/

section

variable {A : Type} {rank : A → Nat} {entry : A → Recent K V} {ranked : List A} {victim : A}

/-- **The entry of the least rank** that is not pinned is dropped, where the ranks fall from one entry to the
next. -/
theorem dropOldest_ranked (falling : ranked.Pairwise fun newer older => rank older < rank newer)
    (mem : victim ∈ ranked) (loose : (entry victim).pinned = false)
    (least : ∀ other ∈ ranked, (entry other).pinned = false → rank victim ≤ rank other) :
    dropOldest (ranked.map entry) =
      some ((ranked.filter fun other => decide (rank other ≠ rank victim)).map entry) := by
  obtain ⟨front, back, rfl⟩ := List.append_of_mem mem
  obtain ⟨_, after, across⟩ := List.pairwise_append.mp falling
  obtain ⟨behind, _⟩ := List.pairwise_cons.mp after
  have pinned : ∀ other ∈ back.map entry, other.pinned = true := by
    intro other there
    obtain ⟨older, inside, rfl⟩ := List.mem_map.mp there
    by_contra unpinned
    have bound := least older (by simp [inside]) (Bool.eq_false_iff.mpr unpinned)
    exact absurd (behind older inside) (Nat.not_lt.mpr bound)
  have front_kept : (front.filter fun other => decide (rank other ≠ rank victim)) = front :=
    List.filter_eq_self.mpr fun newer inside =>
      decide_eq_true (Nat.ne_of_gt (across newer inside victim List.mem_cons_self))
  have back_kept : (back.filter fun other => decide (rank other ≠ rank victim)) = back :=
    List.filter_eq_self.mpr fun older inside => decide_eq_true (Nat.ne_of_lt (behind older inside))
  rw [List.map_append, List.map_cons, dropOldest_split loose pinned, List.filter_append,
    List.filter_cons_of_neg (by simp), front_kept, back_kept, List.map_append]

end

end Recency

end Library
