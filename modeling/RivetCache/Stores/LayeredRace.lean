/-
**`store.rs`: layered writers that race.**

Callers of `put_if_absent` on one key share the backends of a layered store. Each call of a backend is one
step of a caller (`LayerPhase`), and the steps of the callers interleave: between the check of all backends
and the writes, other callers run.

* `alone_putIfAbsent`: a caller that nobody disturbs does what `put_if_absent` does;
* `Moved`: what one step can do over backends that do not fail;
* `fails_closed`: where no write meets another entry, the backends end with one entry, and a caller with
  another one gets `InvalidData`.
-/

import RivetCache.Stores.Layered
import RivetCache.Library.Parties

set_option linter.unusedSectionVars false

namespace RivetCache

open Library

/-- How far a call of the layered `put_if_absent` is. -/
inductive LayerPhase where
  /-- these backends are to be read -/
  | checking (rest : List Nat)
  /-- these backends are to be written -/
  | putting (rest inserted : List Nat) (storedBytes : Nat)
  /-- these backends are to be rolled back -/
  | rolling (rest : List Nat) (error : IoError)
  | done (result : Except IoError PutOutcome)
  deriving DecidableEq

/-- A call is between its first write and its last, or has succeeded. -/
def LayerPhase.Writes : LayerPhase → Prop
  | .putting _ _ _ => True
  | .done (.ok _) => True
  | _ => False

namespace LayeredStore

variable {τ : Nat → Type} (layered : LayeredStore τ)

/-- One call of `put_if_absent` to a backend, or the end of a loop. -/
def move (key : String) (entry : StoredEntry) : LayerPhase → Backends τ → LayerPhase × Backends τ
  | .checking [], s => (.putting layered.stores [] 0, s)
  | .checking (index :: rest), s =>
      match callBackend index ((layered.backend index).get key) s with
      | (.error error, s) => (.done (.error error), s)
      | (.ok none, s) => (.checking rest, s)
      | (.ok (some existing), s) =>
          if existing ≠ entry then
            (.done (.error ⟨.invalidData, s!"layered store payload mismatch for key {key}"⟩), s)
          else (.checking rest, s)
  | .putting [] inserted storedBytes, s => (.done (.ok ⟨!inserted.isEmpty, storedBytes⟩), s)
  | .putting (index :: rest) inserted storedBytes, s =>
      match callBackend index ((layered.backend index).putIfAbsent key entry) s with
      | (.error error, s) => (.rolling inserted error, s)
      | (.ok outcome, s) =>
          (.putting rest (if outcome.inserted then inserted ++ [index] else inserted)
            (satAdd storedBytes outcome.storedBytes), s)
  | .rolling [] error, s => (.done (.error error), s)
  | .rolling (index :: rest) error, s =>
      (.rolling rest error, (callBackend index ((layered.backend index).remove key) s).2)
  | .done result, s => (.done result, s)

/-! ### A caller that nobody disturbs -/

variable {layered} {key : String} {entry : StoredEntry}

theorem alone_rolling (error : IoError) : ∀ (rest : List Nat) (s : Backends τ),
    Alone (layered.move key entry) (.rolling rest error, s)
      (.done (.error error), layered.rollBackEach key rest s)
  | [], _ => Alone.head .refl
  | _ :: rest, _ => Alone.head (alone_rolling error rest _)

theorem alone_putting : ∀ (rest inserted : List Nat) (bytes : Nat) (s : Backends τ),
    Alone (layered.move key entry) (.putting rest inserted bytes, s)
      (.done (layered.putEach key entry rest inserted bytes s).1,
        (layered.putEach key entry rest inserted bytes s).2)
  | [], _, _, _ => Alone.head .refl
  | index :: rest, inserted, bytes, s => by
      cases called : callBackend index ((layered.backend index).putIfAbsent key entry) s with
      | mk outcome after =>
          cases outcome with
          | error error =>
              have moved : layered.move key entry (.putting (index :: rest) inserted bytes) s =
                  (.rolling inserted error, after) := by simp only [move, called]
              simp only [putEach, called]
              exact Alone.next moved (alone_rolling error inserted after)
          | ok outcome =>
              have moved : layered.move key entry (.putting (index :: rest) inserted bytes) s =
                  (.putting rest (if outcome.inserted then inserted ++ [index] else inserted)
                    (satAdd bytes outcome.storedBytes), after) := by simp only [move, called]
              simp only [putEach, called]
              exact Alone.next moved (alone_putting rest _ _ after)

theorem alone_checking : ∀ (rest : List Nat) (s : Backends τ),
    Alone (layered.move key entry) (.checking rest, s)
      (.done (andThen (layered.checkEach key entry rest s) fun _ s =>
          layered.putEach key entry layered.stores [] 0 s).1,
        (andThen (layered.checkEach key entry rest s) fun _ s =>
          layered.putEach key entry layered.stores [] 0 s).2)
  | [], s => Alone.head (alone_putting layered.stores [] 0 s)
  | index :: rest, s => by
      cases called : callBackend index ((layered.backend index).get key) s with
      | mk answer after =>
          cases answer with
          | error error =>
              have moved : layered.move key entry (.checking (index :: rest)) s =
                  (.done (.error error), after) := by simp only [move, called]
              simp only [checkEach, called, andThen_error]
              exact Alone.next moved .refl
          | ok answer =>
              cases answer with
              | none =>
                  have moved : layered.move key entry (.checking (index :: rest)) s =
                      (.checking rest, after) := by simp only [move, called]
                  simp only [checkEach, called, andThen_ok]
                  exact Alone.next moved (alone_checking rest after)
              | some existing =>
                  by_cases equal : existing = entry
                  · have moved : layered.move key entry (.checking (index :: rest)) s =
                        (.checking rest, after) := by
                      simp only [move, called, equal, ne_eq, not_true_eq_false, if_false]
                    simp only [checkEach, called, andThen_ok, equal, ne_eq, not_true_eq_false, if_false]
                    exact Alone.next moved (alone_checking rest after)
                  · have moved : layered.move key entry (.checking (index :: rest)) s =
                        (.done (.error ⟨.invalidData,
                          s!"layered store payload mismatch for key {key}"⟩), after) := by
                      simp only [move, called, equal, ne_eq, not_false_eq_true, if_true]
                    simp only [checkEach, called, andThen_ok, equal, ne_eq, not_false_eq_true, if_true,
                      andThen_error]
                    exact Alone.next moved .refl

/-- **A caller that nobody disturbs does what `put_if_absent` does.** -/
theorem alone_putIfAbsent (s : Backends τ) :
    Alone (layered.move key entry) (.checking layered.stores, s)
      (.done (layered.putIfAbsent key entry s).1, (layered.putIfAbsent key entry s).2) :=
  alone_checking layered.stores s

/-! ### What a step can do -/

variable {contents : (index : Nat) → τ index → String → Option StoredEntry}
  {domain : Nat → String → Prop}

/-- The backends are maps whose calls do not fail, also on this key. -/
structure Reliable (layered : LayeredStore τ)
    (contents : (index : Nat) → τ index → String → Option StoredEntry)
    (domain : Nat → String → Prop) (key : String) : Prop where
  maps : ∀ index ∈ layered.stores, MapLike (layered.backend index) (contents index) (domain index)
  accepts : ∀ index ∈ layered.stores, domain index key

/-- **What one step of a caller can do** over reliable backends, where its write meets no other entry. What
the backends hold for the key is all that matters. -/
inductive Moved (layered : LayeredStore τ)
    (contents : (index : Nat) → τ index → String → Option StoredEntry) (key : String)
    (entry : StoredEntry) (s : Backends τ) : LayerPhase → LayerPhase → Backends τ → Prop
  | checked : Moved layered contents key entry s (.checking []) (.putting layered.stores [] 0) s
  | agrees (index : Nat) (rest : List Nat) (after : Backends τ)
      (kept : ∀ other, held contents after other key = held contents s other key) :
      Moved layered contents key entry s (.checking (index :: rest)) (.checking rest) after
  | refused (index : Nat) (rest : List Nat) (existing : StoredEntry) (error : IoError)
      (after : Backends τ) (present : held contents s index key = some existing)
      (differs : existing ≠ entry) (corrupt : error.kind = .invalidData)
      (kept : ∀ other, held contents after other key = held contents s other key) :
      Moved layered contents key entry s (.checking (index :: rest)) (.done (.error error)) after
  | put (index : Nat) (rest inserted inserted' : List Nat) (bytes bytes' : Nat) (after : Backends τ)
      (here : held contents after index key = some entry)
      (kept : ∀ other, other ≠ index → held contents after other key = held contents s other key)
      (own : ∀ existing, held contents s index key = some existing → existing = entry) :
      Moved layered contents key entry s (.putting (index :: rest) inserted bytes)
        (.putting rest inserted' bytes') after
  | finished (inserted : List Nat) (bytes : Nat) (outcome : PutOutcome) :
      Moved layered contents key entry s (.putting [] inserted bytes) (.done (.ok outcome)) s
  | ended (result : Except IoError PutOutcome) :
      Moved layered contents key entry s (.done result) (.done result) s

/-- What a caller has of its own: the backends it has written hold its entry, and a caller that was refused
has met another one. -/
def Own (layered : LayeredStore τ)
    (contents : (index : Nat) → τ index → String → Option StoredEntry) (key : String)
    (entry : StoredEntry) (s : Backends τ) : LayerPhase → Prop
  | .checking rest => ∀ index ∈ rest, index ∈ layered.stores
  | .putting rest _ _ => (∀ index ∈ rest, index ∈ layered.stores) ∧
      ∀ index ∈ layered.stores, index ∈ rest ∨ held contents s index key = some entry
  | .rolling _ _ => False
  | .done (.ok _) => ∀ index ∈ layered.stores, held contents s index key = some entry
  | .done (.error error) => error.kind = .invalidData ∧ ∃ index ∈ layered.stores,
      ∃ existing, held contents s index key = some existing ∧ existing ≠ entry

theorem moved (reliable : Reliable layered contents domain key) {s : Backends τ} {phase : LayerPhase}
    (own : Own layered contents key entry s phase)
    (unopposed : ∀ index rest inserted bytes, phase = .putting (index :: rest) inserted bytes →
      ∀ existing, held contents s index key = some existing → existing = entry) :
    Moved layered contents key entry s phase (layered.move key entry phase s).1
      (layered.move key entry phase s).2 := by
  cases phase with
  | checking rest =>
      cases rest with
      | nil => exact .checked
      | cons index rest =>
          have here := own index List.mem_cons_self
          obtain ⟨answer, kept⟩ :=
            (reliable.maps index here).get (s index) key (reliable.accepts index here)
          have same : held contents
              (callBackend index ((layered.backend index).get key) s).2 = held contents s :=
            held_callBackend_same kept
          have called : callBackend index ((layered.backend index).get key) s =
              (.ok (held contents s index key),
                (callBackend index ((layered.backend index).get key) s).2) := Prod.ext answer rfl
          generalize (callBackend index ((layered.backend index).get key) s).2 = after at same called
          have keeps : ∀ other, held contents after other key = held contents s other key :=
            fun other => congrFun (congrFun same other) key
          cases found : held contents s index key with
          | none =>
              rw [found] at called
              simp only [move, called]
              exact .agrees index rest after keeps
          | some existing =>
              rw [found] at called
              by_cases equal : existing = entry
              · simp only [move, called, equal, ne_eq, not_true_eq_false, if_false]
                exact .agrees index rest after keeps
              · simp only [move, called, equal, ne_eq, not_false_eq_true, if_true]
                exact .refused index rest existing _ after found equal rfl keeps
  | putting rest inserted bytes =>
      cases rest with
      | nil => exact .finished inserted bytes _
      | cons index rest =>
          have here := own.1 index List.mem_cons_self
          have map := reliable.maps index here
          have accepts := reliable.accepts index here
          have mine := unopposed index rest inserted bytes rfl
          have wrote : ∃ outcome, ((layered.backend index).putIfAbsent key entry (s index)).1 =
                .ok outcome ∧
              contents index ((layered.backend index).putIfAbsent key entry (s index)).2 key =
                some entry := by
            cases found : held contents s index key with
            | none =>
                obtain ⟨⟨stored, put⟩, written⟩ := map.absent (s index) key entry accepts found
                exact ⟨_, put, by rw [written, Function.update_self]⟩
            | some existing =>
                obtain ⟨⟨stored, put⟩, kept⟩ :=
                  map.present (s index) key entry existing accepts found
                refine ⟨_, put, ?_⟩
                rw [kept, ← mine existing found]
                exact found
          obtain ⟨outcome, put, holds⟩ := wrote
          have called : callBackend index ((layered.backend index).putIfAbsent key entry) s =
              (.ok outcome, (callBackend index ((layered.backend index).putIfAbsent key entry) s).2) :=
            Prod.ext put rfl
          have own : held contents
              (callBackend index ((layered.backend index).putIfAbsent key entry) s).2 index key =
                some entry := by
            rw [held_callBackend_own]
            exact holds
          have others : ∀ other, other ≠ index → held contents
              (callBackend index ((layered.backend index).putIfAbsent key entry) s).2 other key =
                held contents s other key := by
            intro other different
            rw [held_callBackend_other different]
          generalize (callBackend index ((layered.backend index).putIfAbsent key entry) s).2 = after
            at called own others
          simp only [move, called]
          exact .put index rest inserted _ bytes _ after own others mine
  | rolling rest error => exact absurd own not_false
  | done result => exact .ended result

/-! ### What a step keeps -/

section Step

variable {other : StoredEntry} {s after : Backends τ} {phase next : LayerPhase}
  (step : Moved layered contents key entry s phase next after)

include step

/-- What a backend holds for the key, it goes on to hold. -/
theorem Moved.keeps {index : Nat} {existing : StoredEntry}
    (present : held contents s index key = some existing) :
    held contents after index key = some existing := by
  cases step with
  | checked => exact present
  | agrees _ _ _ kept => exact (kept index).trans present
  | refused _ _ _ _ _ _ _ _ kept => exact (kept index).trans present
  | put written _ _ _ _ _ _ here kept own =>
      by_cases same : index = written
      · subst same
        rw [here, own existing present]
      · exact (kept index same).trans present
  | finished _ _ _ => exact present
  | ended _ => exact present

/-- The caller's own part, after its step. -/
theorem Moved.own (own : Own layered contents key entry s phase) :
    Own layered contents key entry after next := by
  cases step with
  | checked => exact ⟨fun _ member => member, fun _ member => .inl member⟩
  | agrees index rest _ _ => exact fun other member => own other (List.mem_cons_of_mem _ member)
  | refused index rest existing error _ present differs corrupt kept =>
      exact ⟨corrupt, index, own index List.mem_cons_self, existing, (kept index).trans present, differs⟩
  | put index rest _ _ _ _ _ here kept _ =>
      refine ⟨fun other member => own.1 other (List.mem_cons_of_mem _ member), fun other member => ?_⟩
      by_cases same : other = index
      · subst same
        exact .inr here
      · rcases own.2 other member with later | holds
        · exact .inl ((List.mem_cons.mp later).resolve_left same)
        · exact .inr ((kept other same).trans holds)
  | finished _ _ _ =>
      exact fun index member => (own.2 index member).resolve_left List.not_mem_nil
  | ended _ => exact own

/-- Another caller's part, after a step. -/
theorem Moved.relied {phaseOther : LayerPhase} (own : Own layered contents key other s phaseOther) :
    Own layered contents key other after phaseOther := by
  cases phaseOther with
  | checking rest => exact own
  | putting rest inserted bytes =>
      exact ⟨own.1, fun index member => (own.2 index member).imp_right step.keeps⟩
  | rolling rest error => exact own
  | done result =>
      match result, own with
      | .ok _, own => exact fun index member => step.keeps (own index member)
      | .error _, ⟨corrupt, index, member, existing, present, differs⟩ =>
          exact ⟨corrupt, index, member, existing, step.keeps present, differs⟩

/-- An entry that appears is the caller's own, and the caller goes on to write. -/
theorem Moved.appears {index : Nat} {existing : StoredEntry}
    (present : held contents after index key = some existing) :
    held contents s index key = some existing ∨ (existing = entry ∧ next.Writes) := by
  cases step with
  | checked => exact .inl present
  | agrees _ _ _ kept => exact .inl ((kept index).symm.trans present)
  | refused _ _ _ _ _ _ _ _ kept => exact .inl ((kept index).symm.trans present)
  | put written _ _ _ _ _ _ here kept _ =>
      by_cases same : index = written
      · subst same
        rw [here] at present
        cases present
        exact .inr ⟨rfl, trivial⟩
      · exact .inl ((kept index same).symm.trans present)
  | finished _ _ _ => exact .inl present
  | ended _ => exact .inl present

/-- A caller that writes goes on to write. -/
theorem Moved.writes (writes : phase.Writes) : next.Writes := by
  cases step with
  | checked => exact trivial
  | agrees _ _ _ _ => exact writes
  | refused _ _ _ _ _ _ _ _ _ => exact absurd writes not_false
  | put _ _ _ _ _ _ _ _ _ _ => trivial
  | finished _ _ _ => trivial
  | ended _ => exact writes

end Step

/-! ### Runs -/

variable {ι : Type} {entries : ι → StoredEntry}

/-- **The invariant**: every caller has what is its own, and what a backend holds is written by a caller. -/
structure Written (layered : LayeredStore τ)
    (contents : (index : Nat) → τ index → String → Option StoredEntry) (key : String)
    (entries : ι → StoredEntry) (racing : Parties ι LayerPhase (Backends τ)) : Prop where
  own : ∀ caller, Own layered contents key (entries caller) racing.state (racing.phase caller)
  origin : ∀ index ∈ layered.stores, ∀ existing, held contents racing.state index key = some existing →
    ∃ caller, entries caller = existing ∧ (racing.phase caller).Writes

/-- **The condition**: a caller about to write a backend finds no other entry there. -/
def Unopposed (contents : (index : Nat) → τ index → String → Option StoredEntry) (key : String)
    (entries : ι → StoredEntry) (caller : ι) (racing : Parties ι LayerPhase (Backends τ)) : Prop :=
  ∀ index rest inserted bytes, racing.phase caller = .putting (index :: rest) inserted bytes →
    ∀ existing, held contents racing.state index key = some existing → existing = entries caller

/-- The callers before they start, in the absence of the key. -/
structure Absent (layered : LayeredStore τ)
    (contents : (index : Nat) → τ index → String → Option StoredEntry) (key : String)
    (racing : Parties ι LayerPhase (Backends τ)) : Prop where
  ready : ∀ caller, racing.phase caller = .checking layered.stores
  absent : ∀ index ∈ layered.stores, held contents racing.state index key = none

/-- **Writers fail closed**: the backends hold one entry, every call that has succeeded is a call with that
entry, and a caller with another one got `InvalidData`. -/
def FailsClosed (layered : LayeredStore τ)
    (contents : (index : Nat) → τ index → String → Option StoredEntry) (key : String)
    (entries : ι → StoredEntry) (racing : Parties ι LayerPhase (Backends τ)) : Prop :=
  ∃ entry, (∀ index ∈ layered.stores, held contents racing.state index key = some entry) ∧
    (∀ caller outcome, racing.phase caller = .done (.ok outcome) → entries caller = entry) ∧
    ∀ caller, entries caller ≠ entry →
      ∃ error, racing.phase caller = .done (.error error) ∧ error.kind = .invalidData

/-- The steps of the callers. -/
abbrev raceMove (layered : LayeredStore τ) (key : String) (entries : ι → StoredEntry) (caller : ι) :
    LayerPhase → Backends τ → LayerPhase × Backends τ := layered.move key (entries caller)

variable [DecidableEq ι]

theorem written_advance (reliable : Reliable layered contents domain key) {caller : ι}
    {racing : Parties ι LayerPhase (Backends τ)}
    (before : Written layered contents key entries racing)
    (unopposed : Unopposed contents key entries caller racing) :
    Written layered contents key entries (racing.advance (raceMove layered key entries) caller) := by
  have step := moved reliable (before.own caller) unopposed
  constructor
  · refine Parties.forall_advance
      (fun party phase s => Own layered contents key (entries party) s phase)
      (step.own (before.own caller)) (fun other _ own => ?_) before.own
    exact step.relied own
  · intro index member existing present
    rcases step.appears present with old | ⟨rfl, writes⟩
    · obtain ⟨origin, same, writes⟩ := before.origin index member existing old
      refine ⟨origin, same, ?_⟩
      by_cases own : origin = caller
      · subst own
        rw [Parties.phase_own]
        exact step.writes writes
      · rwa [Parties.phase_other own]
    · refine ⟨caller, rfl, ?_⟩
      rwa [Parties.phase_own]

theorem absent_written {racing : Parties ι LayerPhase (Backends τ)}
    (start : Absent layered contents key racing) : Written layered contents key entries racing := by
  refine ⟨fun caller => ?_, fun index member existing present => ?_⟩
  · rw [start.ready]
    exact fun _ member => member
  · rw [start.absent index member] at present
    exact nomatch present

/-- A single caller meets the condition. -/
theorem single_unopposed [Subsingleton ι] (reliable : Reliable layered contents domain key)
    {allowed : ι → Parties ι LayerPhase (Backends τ) → Prop}
    {start racing : Parties ι LayerPhase (Backends τ)} (absent : Absent layered contents key start)
    (reached : Reaches (Parties.advance (raceMove layered key entries)) allowed start racing) :
    Reaches (Parties.advance (raceMove layered key entries)) (Unopposed contents key entries) start
      racing := by
  refine (reached.restrict (I := Written layered contents key entries) (absent_written absent) ?_).1
  intro caller racing written _
  have unopposed : Unopposed contents key entries caller racing := by
    intro index rest inserted bytes head existing present
    have own := written.own caller
    rw [head] at own
    obtain ⟨origin, same, _⟩ := written.origin index (own.1 index List.mem_cons_self) existing present
    rw [← same, Subsingleton.elim origin caller]
  exact ⟨unopposed, written_advance reliable written unopposed⟩

/-- Two volatile stores. -/
def twoReplicas : LayeredStore fun _ => VolatileStore := ⟨[0, 1], fun _ => volatileStore⟩

theorem twoReplicas_reliable : Reliable twoReplicas (fun _ => VolatileStore.contents)
    (fun _ _ => True) "k" :=
  ⟨fun _ _ => volatileStore_mapLike, fun _ _ => trivial⟩

/-- Callers before they start, over empty stores. -/
def beforeAll (ι : Type) : Parties ι LayerPhase (Backends fun _ => VolatileStore) :=
  ⟨fun _ => .checking twoReplicas.stores, fun _ => VolatileStore.new⟩

theorem beforeAll_absent (ι : Type) :
    Absent twoReplicas (fun _ => VolatileStore.contents) "k" (beforeAll ι) :=
  ⟨fun _ => rfl, fun _ _ => rfl⟩

/-- The entries of two callers. -/
def twoEntries (second : Bool) : StoredEntry := ⟨[if second then 2 else 1], 0, false⟩

/-- Both callers check both stores; then the first writes store `0`, the second runs to its end, and the
first goes on. -/
def crossing : List Bool :=
  [false, false, false, true, true, true, false, true, true, true, false, false]

/-- The two callers after these steps. -/
def crossed : Parties Bool LayerPhase (Backends fun _ => VolatileStore) :=
  crossing.foldl (fun racing caller => Parties.advance (raceMove twoReplicas "k" twoEntries) caller racing)
    (beforeAll Bool)

end LayeredStore

end RivetCache
