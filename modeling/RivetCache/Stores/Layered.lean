/-
**`store.rs`: the layered store.**

A `LayeredStore` replicates writes to an ordered list of backends and reads the first one that answers.
A write first reads every backend, and refuses where one holds another entry; a write that fails on the
way removes what it has inserted, as far as it can.

* `FaithfulStore`: a backend whose calls act on a map where they succeed, and leave it where they fail;
* `Agree`: any two backends that hold a key hold equal entries;
* `agree_step`: every call keeps the backends in agreement, whichever of their calls fail;
* `replicas_agree`: so a read does not depend on the order of the backends, and the merge of the indexes
  never finds a mismatch.
-/

import RivetCache.Store
import RivetCache.Library.Fallible
import RivetCache.Library.Run

set_option linter.unusedSectionVars false

namespace RivetCache

open Library

/-- `LayeredStore`: the backends by their indices, in priority order. Backend `i` has a state of type
`τ i`; an index stands twice in the list where one `Arc` does. -/
structure LayeredStore (τ : Nat → Type) where
  stores : List Nat
  backend : (index : Nat) → PersistentStore (τ index)

/-- The states of the backends. -/
abbrev Backends (τ : Nat → Type) := (index : Nat) → τ index

namespace LayeredStore

variable {τ : Nat → Type}

/-- `LayeredStore::new`. -/
def new (stores : List Nat) (backend : (index : Nat) → PersistentStore (τ index)) :
    Except IoError (LayeredStore τ) :=
  if stores.isEmpty then .error ⟨.invalidInput, "layered store requires at least one backend"⟩
  else .ok ⟨stores, backend⟩

/-- A call of one backend. -/
def callBackend {α : Type} (index : Nat) (call : τ index → Except IoError α × τ index)
    (s : Backends τ) : Except IoError α × Backends τ :=
  ((call (s index)).1, Function.update s index (call (s index)).2)

variable (layered : LayeredStore τ)

/-! ### Index reconstruction -/

/-- `load_index`, one record. -/
def mergeRecord (record : StoreRecord) (merged : Table String StoreRecord) :
    Except IoError (Table String StoreRecord) :=
  match merged.lookup record.key with
  | none => .ok (merged.insert record.key record)
  | some current =>
      if current.expiresAt ≠ record.expiresAt ∨ current.pinned ≠ record.pinned then
        .error ⟨.invalidData, s!"layered store metadata mismatch for key {record.key}"⟩
      else
        .ok (merged.insert record.key
          { current with
            storedBytes := satAdd current.storedBytes record.storedBytes
            lastAccess := max current.lastAccess record.lastAccess })

/-- `load_index`, the records of one backend. -/
def mergeRecords : List StoreRecord → Table String StoreRecord →
    Except IoError (Table String StoreRecord)
  | [], merged => .ok merged
  | record :: rest, merged =>
      match mergeRecord record merged with
      | .error error => .error error
      | .ok merged => mergeRecords rest merged

/-- `load_index`, the loop over the backends. -/
def loadEach : List Nat → Table String StoreRecord → Nat → Backends τ →
    Except IoError (Table String StoreRecord × Nat) × Backends τ
  | [], merged, corruptions, s => (.ok (merged, corruptions), s)
  | index :: rest, merged, corruptions, s =>
      andThen (callBackend index (layered.backend index).loadIndex s) fun snapshot s =>
        match mergeRecords snapshot.entries merged with
        | .error error => (.error error, s)
        | .ok merged => loadEach rest merged (satAdd corruptions snapshot.corruptions) s

/-- `load_index`. -/
def loadIndex (s : Backends τ) : Except IoError StoreSnapshot × Backends τ :=
  andThen (layered.loadEach layered.stores ∅ 0 s) fun loaded s =>
    (.ok ⟨loaded.1.entries.map Sigma.snd, loaded.2⟩, s)

/-! ### Reading and writing -/

/-- The loop of `get`. -/
def getFirst (key : String) : List Nat → Backends τ →
    Except IoError (Option StoredEntry) × Backends τ
  | [], s => (.ok none, s)
  | index :: rest, s =>
      andThen (callBackend index ((layered.backend index).get key) s) fun answer s =>
        match answer with
        | some entry => (.ok (some entry), s)
        | none => getFirst key rest s

/-- `get`. -/
def get (key : String) (s : Backends τ) : Except IoError (Option StoredEntry) × Backends τ :=
  layered.getFirst key layered.stores s

/-- `put_if_absent`, the first loop: no backend holds another entry. -/
def checkEach (key : String) (entry : StoredEntry) : List Nat → Backends τ →
    Except IoError Unit × Backends τ
  | [], s => (.ok (), s)
  | index :: rest, s =>
      andThen (callBackend index ((layered.backend index).get key) s) fun answer s =>
        match answer with
        | none => checkEach key entry rest s
        | some existing =>
            if existing ≠ entry then
              (.error ⟨.invalidData, s!"layered store payload mismatch for key {key}"⟩, s)
            else checkEach key entry rest s

/-- The rollback of `put_if_absent`, errors ignored. -/
def rollBackEach (key : String) : List Nat → Backends τ → Backends τ
  | [], s => s
  | index :: rest, s =>
      rollBackEach key rest (callBackend index ((layered.backend index).remove key) s).2

/-- `put_if_absent`, the second loop; `inserted` lists the backends that have inserted. -/
def putEach (key : String) (entry : StoredEntry) : List Nat → List Nat → Nat → Backends τ →
    Except IoError PutOutcome × Backends τ
  | [], inserted, storedBytes, s => (.ok ⟨!inserted.isEmpty, storedBytes⟩, s)
  | index :: rest, inserted, storedBytes, s =>
      match callBackend index ((layered.backend index).putIfAbsent key entry) s with
      | (.error error, s) => (.error error, layered.rollBackEach key inserted s)
      | (.ok outcome, s) =>
          putEach key entry rest (if outcome.inserted then inserted ++ [index] else inserted)
            (satAdd storedBytes outcome.storedBytes) s

/-- `put_if_absent`. -/
def putIfAbsent (key : String) (entry : StoredEntry) (s : Backends τ) :
    Except IoError PutOutcome × Backends τ :=
  andThen (layered.checkEach key entry layered.stores s) fun _ s =>
    layered.putEach key entry layered.stores [] 0 s

/-- The loops of `remove` and `clear`: every backend is called, the first error is kept. -/
def callEach (call : (index : Nat) → τ index → Except IoError Unit × τ index) :
    List Nat → Option IoError → Backends τ → Except IoError Unit × Backends τ
  | [], none, s => (.ok (), s)
  | [], some error, s => (.error error, s)
  | index :: rest, first, s =>
      match callBackend index (call index) s with
      | (.ok _, s) => callEach call rest first s
      | (.error error, s) => callEach call rest (first.or (some error)) s

/-- `remove`. -/
def remove (key : String) (s : Backends τ) : Except IoError Unit × Backends τ :=
  callEach (fun index => (layered.backend index).remove key) layered.stores none s

/-- `clear`. -/
def clear (s : Backends τ) : Except IoError Unit × Backends τ :=
  callEach (fun index => (layered.backend index).clear) layered.stores none s

end LayeredStore

/-- `impl PersistentStore for LayeredStore`. -/
def layeredStore {τ : Nat → Type} (layered : LayeredStore τ) : PersistentStore (Backends τ) where
  loadIndex := layered.loadIndex
  get := layered.get
  putIfAbsent := layered.putIfAbsent
  remove := layered.remove
  clear := layered.clear

/-! ### Backends that may fail -/

/-- **A store whose calls act on a map where they succeed.** A call that fails leaves the map as it was;
`clear` may have deleted a part of it. -/
structure FaithfulStore {σ : Type} (store : PersistentStore σ)
    (contents : σ → String → Option StoredEntry) : Prop where
  loadIndex : ∀ state, contents (store.loadIndex state).2 = contents state
  listed : ∀ state snapshot, (store.loadIndex state).1 = .ok snapshot →
    ∀ record ∈ snapshot.entries, ∃ entry, contents state record.key = some entry ∧
      record.expiresAt = entry.expiresAt ∧ record.pinned = entry.pinned
  get : ∀ state key, contents (store.get key state).2 = contents state
  got : ∀ state key answer, (store.get key state).1 = .ok answer → answer = contents state key
  put : ∀ state key entry, contents (store.putIfAbsent key entry state).2 = contents state ∨
    (contents state key = none ∧ contents (store.putIfAbsent key entry state).2 =
      Function.update (contents state) key (some entry))
  remove : ∀ state key, contents (store.remove key state).2 = contents state ∨
    contents (store.remove key state).2 = Function.update (contents state) key none
  clear : ∀ state key entry, contents (store.clear state).2 key = some entry →
    contents state key = some entry

namespace LayeredStore

variable {τ : Nat → Type} {layered : LayeredStore τ}
  {contents : (index : Nat) → τ index → String → Option StoredEntry}

/-- What a backend holds. -/
def held (contents : (index : Nat) → τ index → String → Option StoredEntry) (s : Backends τ)
    (index : Nat) (key : String) : Option StoredEntry := contents index (s index) key

/-- Every backend acts on a map. -/
def Faithful (layered : LayeredStore τ)
    (contents : (index : Nat) → τ index → String → Option StoredEntry) : Prop :=
  ∀ index ∈ layered.stores, FaithfulStore (layered.backend index) (contents index)

/-- **The replicas agree**: any two backends that hold a key hold equal entries. -/
def Agree (layered : LayeredStore τ)
    (contents : (index : Nat) → τ index → String → Option StoredEntry) (s : Backends τ) : Prop :=
  ∀ index ∈ layered.stores, ∀ other ∈ layered.stores, ∀ key entry entry',
    held contents s index key = some entry → held contents s other key = some entry' → entry = entry'

/-! ### One call of one backend -/

theorem held_callBackend_own {α : Type} (index : Nat)
    (call : τ index → Except IoError α × τ index) (s : Backends τ) :
    held contents (callBackend index call s).2 index = contents index (call (s index)).2 := by
  funext key
  show contents index (Function.update s index (call (s index)).2 index) key = _
  rw [Function.update_self]

theorem held_callBackend_other {α : Type} {index other : Nat} (different : other ≠ index)
    (call : τ index → Except IoError α × τ index) (s : Backends τ) :
    held contents (callBackend index call s).2 other = held contents s other := by
  funext key
  show contents other (Function.update s index (call (s index)).2 other) key = _
  rw [Function.update_of_ne different]
  rfl

/-- A call that leaves its backend's map leaves every map. -/
theorem held_callBackend_same {α : Type} {index : Nat}
    {call : τ index → Except IoError α × τ index} {s : Backends τ}
    (kept : contents index (call (s index)).2 = contents index (s index)) :
    held contents (callBackend index call s).2 = held contents s := by
  funext other
  by_cases same : other = index
  · subst same
    rw [held_callBackend_own, kept]
    rfl
  · exact held_callBackend_other same call s

/-! ### Calls that write nothing -/

/-- Reading keeps every map. -/
theorem held_get (faithful : Faithful layered contents) (key : String) (s : Backends τ) {index : Nat}
    (member : index ∈ layered.stores) :
    held contents (callBackend index ((layered.backend index).get key) s).2 = held contents s :=
  held_callBackend_same ((faithful index member).get (s index) key)

theorem held_getFirst (faithful : Faithful layered contents) (key : String) :
    ∀ (rest : List Nat) (s : Backends τ), (∀ index ∈ rest, index ∈ layered.stores) →
      held contents (layered.getFirst key rest s).2 = held contents s
  | [], _, _ => rfl
  | index :: rest, s, inside => by
      have first := held_get faithful key s (inside index List.mem_cons_self)
      simp only [getFirst]
      refine andThen_preserves (P := fun after => held contents after = held contents s) first ?_
      intro answer after called same
      cases answer with
      | some entry => exact same
      | none =>
          have later := held_getFirst faithful key rest after
            fun other member => inside other (List.mem_cons_of_mem _ member)
          exact later.trans same

theorem held_checkEach (faithful : Faithful layered contents) (key : String) (entry : StoredEntry) :
    ∀ (rest : List Nat) (s : Backends τ), (∀ index ∈ rest, index ∈ layered.stores) →
      held contents (layered.checkEach key entry rest s).2 = held contents s
  | [], _, _ => rfl
  | index :: rest, s, inside => by
      have first := held_get faithful key s (inside index List.mem_cons_self)
      simp only [checkEach]
      refine andThen_preserves (P := fun after => held contents after = held contents s) first ?_
      intro answer after called same
      have later := held_checkEach faithful key entry rest after
        fun other member => inside other (List.mem_cons_of_mem _ member)
      cases answer with
      | none => exact later.trans same
      | some existing =>
          show held contents (if existing ≠ entry then _ else _ : Except IoError Unit × _).2 = _
          split
          case isTrue _ => exact same
          case isFalse _ => exact later.trans same

theorem held_loadEach (faithful : Faithful layered contents) :
    ∀ (rest : List Nat) (merged : Table String StoreRecord) (corruptions : Nat) (s : Backends τ),
      (∀ index ∈ rest, index ∈ layered.stores) →
      held contents (layered.loadEach rest merged corruptions s).2 = held contents s
  | [], _, _, _, _ => rfl
  | index :: rest, merged, corruptions, s, inside => by
      have first : held contents (callBackend index (layered.backend index).loadIndex s).2 =
          held contents s :=
        held_callBackend_same ((faithful index (inside index List.mem_cons_self)).loadIndex (s index))
      simp only [loadEach]
      refine andThen_preserves (P := fun after => held contents after = held contents s) first ?_
      intro snapshot after called same
      cases mergeRecords snapshot.entries merged with
      | error error => exact same
      | ok merged =>
          have later := held_loadEach faithful rest merged
            (satAdd corruptions snapshot.corruptions) after
            fun other member => inside other (List.mem_cons_of_mem _ member)
          exact later.trans same

theorem held_loadIndex (faithful : Faithful layered contents) (s : Backends τ) :
    held contents (layered.loadIndex s).2 = held contents s := by
  unfold loadIndex
  refine andThen_preserves (P := fun after => held contents after = held contents s)
    (held_loadEach faithful _ _ _ s fun _ member => member) ?_
  intro loaded after _ same
  exact same

/-- **What the first loop of `put_if_absent` establishes**: no backend holds another entry. -/
theorem checkEach_ok (faithful : Faithful layered contents) (key : String) (entry : StoredEntry) :
    ∀ (rest : List Nat) (s after : Backends τ), (∀ index ∈ rest, index ∈ layered.stores) →
      layered.checkEach key entry rest s = (.ok (), after) →
      ∀ index ∈ rest, ∀ existing, held contents s index key = some existing → existing = entry
  | [], _, _, _, _ => fun _ member => absurd member List.not_mem_nil
  | index :: rest, s, after, inside, checked => by
      simp only [checkEach] at checked
      obtain ⟨answer, middle, called, checked⟩ := andThen_eq_ok.mp checked
      have here := inside index List.mem_cons_self
      have same : held contents middle = held contents s := by
        have kept := held_get faithful key s here
        rwa [called] at kept
      have got : answer = held contents s index key :=
        (faithful index here).got (s index) key answer (congrArg Prod.fst called)
      have tail : layered.checkEach key entry rest middle = (.ok (), after) ∧
          ∀ existing, answer = some existing → existing = entry := by
        cases answer with
        | none => exact ⟨checked, fun _ absent => nomatch absent⟩
        | some existing =>
            simp only at checked
            split at checked
            case isTrue _ => exact nomatch congrArg Prod.fst checked
            case isFalse equal =>
              refine ⟨checked, fun other found => ?_⟩
              cases found
              exact not_not.mp equal
      have later := checkEach_ok faithful key entry rest middle after
        (fun other member => inside other (List.mem_cons_of_mem _ member)) tail.1
      intro other member existing found
      rcases List.mem_cons.mp member with equal | member
      · rw [equal, ← got] at found
        exact tail.2 existing found
      · rw [same] at later
        exact later other member existing found

/-! ### Calls that write -/

/-- What `put_if_absent(key, entry)` may have done since `base`: only `key` has changed, and a backend
that holds it holds `entry`. -/
structure Putting (layered : LayeredStore τ)
    (contents : (index : Nat) → τ index → String → Option StoredEntry) (key : String)
    (entry : StoredEntry) (base s : Backends τ) : Prop where
  others : ∀ index ∈ layered.stores, ∀ other, other ≠ key →
    held contents s index other = held contents base index other
  own : ∀ index ∈ layered.stores, ∀ existing, held contents s index key = some existing →
    existing = entry

/-- A call of one backend that changes `key` only, and to nothing but `entry`. -/
theorem Putting.callBackend {key : String} {entry : StoredEntry} {base s : Backends τ}
    (putting : Putting layered contents key entry base s) {α : Type} {index : Nat}
    (call : τ index → Except IoError α × τ index)
    (does : contents index (call (s index)).2 = contents index (s index) ∨
      ∃ value, (∀ existing, value = some existing → existing = entry) ∧
        contents index (call (s index)).2 = Function.update (contents index (s index)) key value) :
    Putting layered contents key entry base (callBackend index call s).2 := by
  rcases does with kept | ⟨value, allowed, written⟩
  · have same := held_callBackend_same kept
    exact ⟨by rw [same]; exact putting.others, by rw [same]; exact putting.own⟩
  · constructor
    · intro backend member other different
      by_cases same : backend = index
      · subst same
        rw [held_callBackend_own, written, Function.update_of_ne different]
        exact putting.others backend member other different
      · rw [held_callBackend_other same]
        exact putting.others backend member other different
    · intro backend member existing found
      by_cases same : backend = index
      · subst same
        rw [held_callBackend_own, written, Function.update_self] at found
        exact allowed existing found
      · rw [held_callBackend_other same] at found
        exact putting.own backend member existing found

theorem Putting.rollBackEach (faithful : Faithful layered contents) {key : String}
    {entry : StoredEntry} {base : Backends τ} :
    ∀ (rest : List Nat) (s : Backends τ), (∀ index ∈ rest, index ∈ layered.stores) →
      Putting layered contents key entry base s →
      Putting layered contents key entry base (layered.rollBackEach key rest s)
  | [], _, _, putting => putting
  | index :: rest, s, inside, putting => by
      refine Putting.rollBackEach faithful rest _
        (fun other member => inside other (List.mem_cons_of_mem _ member)) ?_
      refine putting.callBackend _ ?_
      rcases (faithful index (inside index List.mem_cons_self)).remove (s index) key with
        kept | removed
      · exact .inl kept
      · exact .inr ⟨none, fun _ absent => (nomatch absent), removed⟩

theorem Putting.putEach (faithful : Faithful layered contents) {key : String} {entry : StoredEntry}
    {base : Backends τ} :
    ∀ (rest inserted : List Nat) (bytes : Nat) (s : Backends τ),
      (∀ index ∈ rest, index ∈ layered.stores) → (∀ index ∈ inserted, index ∈ layered.stores) →
      Putting layered contents key entry base s →
      Putting layered contents key entry base (layered.putEach key entry rest inserted bytes s).2
  | [], _, _, _, _, _, putting => putting
  | index :: rest, inserted, bytes, s, inside, done, putting => by
      have here := inside index List.mem_cons_self
      have called : Putting layered contents key entry base
          (LayeredStore.callBackend index ((layered.backend index).putIfAbsent key entry) s).2 := by
        refine putting.callBackend _ ?_
        rcases (faithful index here).put (s index) key entry with kept | ⟨_, written⟩
        · exact .inl kept
        · exact .inr ⟨some entry, fun _ equal => (Option.some_injective _ equal).symm, written⟩
      simp only [LayeredStore.putEach]
      cases outcome : LayeredStore.callBackend index
          ((layered.backend index).putIfAbsent key entry) s with
      | mk result after =>
          rw [outcome] at called
          cases result with
          | error error => exact Putting.rollBackEach faithful inserted after done called
          | ok outcome =>
              refine Putting.putEach faithful rest _ _ after
                (fun other member => inside other (List.mem_cons_of_mem _ member)) ?_ called
              intro other member
              split at member
              case isTrue _ =>
                rcases List.mem_append.mp member with earlier | now
                · exact done other earlier
                · rw [List.mem_singleton.mp now]
                  exact here
              case isFalse _ => exact done other member

/-- `put_if_absent` keeps the replicas in agreement. -/
theorem agree_putIfAbsent (faithful : Faithful layered contents) (key : String) (entry : StoredEntry)
    {s : Backends τ} (agree : Agree layered contents s) :
    Agree layered contents (layered.putIfAbsent key entry s).2 := by
  have kept := held_checkEach faithful key entry layered.stores s fun _ member => member
  unfold putIfAbsent
  refine andThen_preserves ?_ ?_
  · unfold Agree
    rw [kept]
    exact agree
  · intro _ after checked _
    have same : held contents after = held contents s := by rwa [checked] at kept
    have start : Putting layered contents key entry s after := by
      constructor
      · intro index _ other _
        rw [same]
      · rw [same]
        exact checkEach_ok faithful key entry layered.stores s after (fun _ member => member) checked
    have final := Putting.putEach faithful layered.stores [] 0 after (fun _ member => member)
      (fun _ member => absurd member List.not_mem_nil) start
    intro index member other member' name first second found found'
    by_cases written : name = key
    · subst written
      rw [final.own index member first found, final.own other member' second found']
    · rw [final.others index member name written] at found
      rw [final.others other member' name written] at found'
      exact agree index member other member' name first second found found'

/-- Every backend holds a part of what it held in `base`. -/
def Shrunk (layered : LayeredStore τ)
    (contents : (index : Nat) → τ index → String → Option StoredEntry) (base s : Backends τ) : Prop :=
  ∀ index ∈ layered.stores, ∀ key entry, held contents s index key = some entry →
    held contents base index key = some entry

theorem Shrunk.agree {base s : Backends τ} (shrunk : Shrunk layered contents base s)
    (agree : Agree layered contents base) : Agree layered contents s :=
  fun index member other member' key entry entry' found found' =>
    agree index member other member' key entry entry' (shrunk index member key entry found)
      (shrunk other member' key entry' found')

/-- A loop of calls that only delete. -/
theorem Shrunk.callEach {call : (index : Nat) → τ index → Except IoError Unit × τ index}
    (deletes : ∀ index ∈ layered.stores, ∀ state key entry,
      contents index (call index state).2 key = some entry → contents index state key = some entry)
    {base : Backends τ} :
    ∀ (rest : List Nat) (first : Option IoError) (s : Backends τ),
      (∀ index ∈ rest, index ∈ layered.stores) → Shrunk layered contents base s →
      Shrunk layered contents base (LayeredStore.callEach call rest first s).2
  | [], none, _, _, shrunk => shrunk
  | [], some _, _, _, shrunk => shrunk
  | index :: rest, first, s, inside, shrunk => by
      have called : Shrunk layered contents base
          (LayeredStore.callBackend index (call index) s).2 := by
        intro other member key entry found
        by_cases same : other = index
        · subst same
          rw [held_callBackend_own] at found
          exact shrunk other member key entry (deletes other member _ key entry found)
        · rw [held_callBackend_other same] at found
          exact shrunk other member key entry found
      have later := fun first => Shrunk.callEach deletes rest first
        (LayeredStore.callBackend index (call index) s).2
        (fun other member => inside other (List.mem_cons_of_mem _ member)) called
      simp only [LayeredStore.callEach]
      cases outcome : LayeredStore.callBackend index (call index) s with
      | mk result after =>
          rw [outcome] at later
          cases result with
          | error error => exact later _
          | ok value => exact later _

theorem agree_remove (faithful : Faithful layered contents) (key : String) {s : Backends τ}
    (agree : Agree layered contents s) : Agree layered contents (layered.remove key s).2 := by
  refine Shrunk.agree (Shrunk.callEach ?_ layered.stores none s (fun _ member => member)
    fun _ _ _ _ found => found) agree
  intro index member state other entry found
  rcases (faithful index member).remove state key with kept | removed
  · rwa [kept] at found
  · rw [removed, Function.update_apply] at found
    split at found
    case isTrue _ => exact nomatch found
    case isFalse _ => exact found

theorem agree_clear (faithful : Faithful layered contents) {s : Backends τ}
    (agree : Agree layered contents s) : Agree layered contents (layered.clear s).2 :=
  Shrunk.agree (Shrunk.callEach (fun index member => (faithful index member).clear) layered.stores none s
    (fun _ member => member) fun _ _ _ _ found => found) agree

/-! ### Runs -/

/-- The calls of a layered store. -/
inductive Call where
  | loadIndex
  | get (key : String)
  | putIfAbsent (key : String) (entry : StoredEntry)
  | remove (key : String)
  | clear

/-- The state a call leaves. -/
def callStep (layered : LayeredStore τ) (call : Call) (s : Backends τ) : Backends τ :=
  match call with
  | .loadIndex => (layered.loadIndex s).2
  | .get key => (layered.get key s).2
  | .putIfAbsent key entry => (layered.putIfAbsent key entry s).2
  | .remove key => (layered.remove key s).2
  | .clear => (layered.clear s).2

/-- A run of calls, whatever they return. -/
abbrev Run (layered : LayeredStore τ) (start : Backends τ) : Backends τ → Prop :=
  Reaches layered.callStep (fun _ _ => True) start

/-- **One call** keeps the replicas in agreement, whichever calls of the backends fail. -/
theorem agree_step (faithful : Faithful layered contents) (call : Call) {s : Backends τ}
    (agree : Agree layered contents s) : Agree layered contents (layered.callStep call s) := by
  cases call with
  | loadIndex =>
      show Agree layered contents (layered.loadIndex s).2
      unfold Agree
      rw [held_loadIndex faithful]
      exact agree
  | get key =>
      show Agree layered contents (layered.get key s).2
      unfold Agree get
      rw [held_getFirst faithful key layered.stores s fun _ member => member]
      exact agree
  | putIfAbsent key entry => exact agree_putIfAbsent faithful key entry agree
  | remove key => exact agree_remove faithful key agree
  | clear => exact agree_clear faithful agree

theorem agree_run (faithful : Faithful layered contents) {start s : Backends τ}
    (agree : Agree layered contents start) (run : Run layered start s) : Agree layered contents s :=
  run.invariant (I := Agree layered contents) agree
    fun call _ agree _ => agree_step faithful call agree

/-! ### What agreement gives -/

/-- **What a read answers**: an entry some backend holds, or nothing where none does. -/
theorem getFirst_ok (faithful : Faithful layered contents) (key : String) :
    ∀ (rest : List Nat) (s : Backends τ) (answer : Option StoredEntry),
      (∀ index ∈ rest, index ∈ layered.stores) → (layered.getFirst key rest s).1 = .ok answer →
      (∀ entry, answer = some entry → ∃ index ∈ rest, held contents s index key = some entry) ∧
        (answer = none → ∀ index ∈ rest, held contents s index key = none)
  | [], _, answer, _, got => by
      cases got
      exact ⟨fun _ none => (nomatch none), fun _ _ member => absurd member List.not_mem_nil⟩
  | index :: rest, s, answer, inside, got => by
      have here := inside index List.mem_cons_self
      have whole : layered.getFirst key (index :: rest) s =
          (.ok answer, (layered.getFirst key (index :: rest) s).2) := Prod.ext got rfl
      simp only [getFirst] at whole
      obtain ⟨first, middle, called, later⟩ := andThen_eq_ok.mp whole
      have same : held contents middle = held contents s := by
        have kept := held_get faithful key s here
        rwa [called] at kept
      have own : first = held contents s index key :=
        (faithful index here).got (s index) key first (congrArg Prod.fst called)
      cases first with
      | some entry =>
          cases congrArg Prod.fst later
          refine ⟨fun _ equal => ⟨index, List.mem_cons_self, ?_⟩, fun none => nomatch none⟩
          rw [← equal]
          exact own.symm
      | none =>
          have rest_ok := getFirst_ok faithful key rest middle answer
            (fun other member => inside other (List.mem_cons_of_mem _ member))
            (congrArg Prod.fst later)
          rw [same] at rest_ok
          refine ⟨fun entry equal => ?_, fun none other member => ?_⟩
          · obtain ⟨other, member, found⟩ := rest_ok.1 entry equal
            exact ⟨other, List.mem_cons_of_mem _ member, found⟩
          · rcases List.mem_cons.mp member with equal | member
            · rw [equal]
              exact own.symm
            · exact rest_ok.2 none other member

/-- **Two orders of the backends** that answer give the same answer. -/
theorem get_order (faithful : Faithful layered contents) {s : Backends τ}
    (agree : Agree layered contents s) {order : List Nat} (reordered : order.Perm layered.stores)
    {key : String} {answer answer' : Option StoredEntry} (got : (layered.get key s).1 = .ok answer)
    (got' : (LayeredStore.get ⟨order, layered.backend⟩ key s).1 = .ok answer') :
    answer' = answer := by
  have faithful' : Faithful ⟨order, layered.backend⟩ contents :=
    fun index member => faithful index (reordered.mem_iff.mp member)
  obtain ⟨found, missing⟩ := getFirst_ok faithful key layered.stores s answer
    (fun _ member => member) got
  obtain ⟨found', missing'⟩ := getFirst_ok faithful' key order s answer' (fun _ member => member) got'
  cases answer with
  | some entry =>
      obtain ⟨index, member, held⟩ := found entry rfl
      cases answer' with
      | some entry' =>
          obtain ⟨other, member', held'⟩ := found' entry' rfl
          have equal := agree other (reordered.mem_iff.mp member') index member key entry' entry held' held
          rw [equal]
      | none =>
          have none := missing' rfl index (reordered.mem_iff.mpr member)
          rw [held] at none
          exact nomatch none
  | none =>
      cases answer' with
      | none => rfl
      | some entry' =>
          obtain ⟨other, member', held'⟩ := found' entry' rfl
          have none := missing rfl other (reordered.mem_iff.mp member')
          rw [held'] at none
          exact nomatch none

/-- Every record collected so far shows the metadata of an entry that a backend holds. -/
def Shown (layered : LayeredStore τ)
    (contents : (index : Nat) → τ index → String → Option StoredEntry) (s : Backends τ)
    (record : StoreRecord) : Prop :=
  ∃ index ∈ layered.stores, ∃ entry, held contents s index record.key = some entry ∧
    record.expiresAt = entry.expiresAt ∧ record.pinned = entry.pinned

/-- **Merging** records of agreeing backends never finds a mismatch. -/
theorem mergeRecords_ok {s : Backends τ} (agree : Agree layered contents s) :
    ∀ (records : List StoreRecord) (merged : Table String StoreRecord),
      (∀ record ∈ records, Shown layered contents s record) →
      (∀ key record, merged.lookup key = some record → record.key = key ∧
        Shown layered contents s record) →
      ∃ after, mergeRecords records merged = .ok after ∧
        ∀ key record, after.lookup key = some record → record.key = key ∧
          Shown layered contents s record
  | [], merged, _, earlier => ⟨merged, rfl, earlier⟩
  | record :: rest, merged, shown, earlier => by
      have own := shown record List.mem_cons_self
      have next : ∃ after, mergeRecord record merged = .ok after ∧
          ∀ key current, after.lookup key = some current → current.key = key ∧
            Shown layered contents s current := by
        cases present : merged.lookup record.key with
        | none =>
            refine ⟨merged.insert record.key record, by simp only [mergeRecord, present], ?_⟩
            intro key current found
            rw [lookup_insert_eq] at found
            split at found
            case isTrue same =>
              cases found
              exact ⟨same.symm, own⟩
            case isFalse _ => exact earlier key current found
        | some current =>
            obtain ⟨sameKey, index, member, entry, holds, expires, pins⟩ :=
              earlier record.key current present
            obtain ⟨other, member', entry', holds', expires', pins'⟩ := own
            rw [sameKey] at holds
            have equal := agree index member other member' record.key entry entry' holds holds'
            have matches_ : ¬(current.expiresAt ≠ record.expiresAt ∨
                current.pinned ≠ record.pinned) := by
              rw [expires, pins, expires', pins', equal]
              simp
            refine ⟨_, by simp only [mergeRecord, present, if_neg matches_]; rfl, ?_⟩
            intro key found inserted
            rw [lookup_insert_eq] at inserted
            split at inserted
            case isTrue same =>
              cases inserted
              refine ⟨sameKey.trans same.symm, index, member, entry, ?_, expires, pins⟩
              show held contents s index current.key = some entry
              rw [sameKey]
              exact holds
            case isFalse _ => exact earlier key found inserted
      obtain ⟨middle, merging, kept⟩ := next
      obtain ⟨after, done, final⟩ := mergeRecords_ok agree rest middle
        (fun other member => shown other (List.mem_cons_of_mem _ member)) kept
      exact ⟨after, by simp only [mergeRecords, merging, done], final⟩

/-- **The error of an index reconstruction is a backend's own.** -/
theorem loadEach_error (faithful : Faithful layered contents) {base : Backends τ}
    (agree : Agree layered contents base) :
    ∀ (rest : List Nat) (merged : Table String StoreRecord) (corruptions : Nat) (s : Backends τ)
      (error : IoError), (∀ index ∈ rest, index ∈ layered.stores) →
      held contents s = held contents base →
      (∀ key record, merged.lookup key = some record → record.key = key ∧
        Shown layered contents base record) →
      (layered.loadEach rest merged corruptions s).1 = .error error →
      ∃ index ∈ layered.stores, ∃ state,
        contents index state = contents index (base index) ∧
          ((layered.backend index).loadIndex state).1 = .error error
  | [], _, _, _, _, _, _, _, failed => nomatch failed
  | index :: rest, merged, corruptions, s, error, inside, same, earlier, failed => by
      have here := inside index List.mem_cons_self
      have kept : held contents (callBackend index (layered.backend index).loadIndex s).2 =
          held contents s := held_callBackend_same ((faithful index here).loadIndex (s index))
      have own : contents index (s index) = contents index (base index) := congrFun same index
      simp only [loadEach] at failed
      cases called : callBackend index (layered.backend index).loadIndex s with
      | mk result after =>
          rw [called] at failed kept
          have answered : ((layered.backend index).loadIndex (s index)).1 = result :=
            congrArg Prod.fst called
          cases result with
          | error backendError =>
              cases failed
              exact ⟨index, here, s index, own, answered⟩
          | ok snapshot =>
              have shown : ∀ record ∈ snapshot.entries, Shown layered contents base record := by
                intro record member
                obtain ⟨entry, holds, rest⟩ :=
                  (faithful index here).listed (s index) snapshot answered record member
                exact ⟨index, here, entry, (congrFun own record.key).symm.trans holds, rest⟩
              obtain ⟨merged', merging, later⟩ := mergeRecords_ok agree snapshot.entries merged
                shown earlier
              simp only [andThen_ok, merging] at failed
              exact loadEach_error faithful agree rest merged' _ after error
                (fun other member => inside other (List.mem_cons_of_mem _ member))
                (kept.trans same) later failed

theorem loadIndex_error (faithful : Faithful layered contents) {s : Backends τ}
    (agree : Agree layered contents s) {error : IoError}
    (failed : (layered.loadIndex s).1 = .error error) :
    ∃ index ∈ layered.stores, ∃ state, contents index state = contents index (s index) ∧
      ((layered.backend index).loadIndex state).1 = .error error := by
  refine loadEach_error faithful agree layered.stores ∅ 0 s error (fun _ member => member) rfl ?_ ?_
  · intro key record found
    exact nomatch found
  · unfold loadIndex at failed
    cases loaded : layered.loadEach layered.stores ∅ 0 s with
    | mk result after =>
        rw [loaded] at failed
        cases result with
        | error inner =>
            cases failed
            rfl
        | ok value => exact nomatch failed

/-- **Replicas agree.** From backends that agree, whatever calls are made through the layered store and
whichever calls of the backends fail: any two backends that hold a key hold equal entries, any two orders
of the backends that answer a read answer alike, and an index reconstruction fails with nothing but a
failure of a backend. -/
theorem replicas_agree (layered : LayeredStore τ)
    (contents : (index : Nat) → τ index → String → Option StoredEntry)
    (faithful : Faithful layered contents) (start s : Backends τ)
    (agree : Agree layered contents start) (run : Run layered start s) :
    Agree layered contents s ∧
    (∀ order : List Nat, order.Perm layered.stores → ∀ key answer answer',
      (layered.get key s).1 = .ok answer →
      (LayeredStore.get ⟨order, layered.backend⟩ key s).1 = .ok answer' → answer' = answer) ∧
    (∀ error, (layered.loadIndex s).1 = .error error →
      ∃ index ∈ layered.stores, ∃ state, contents index state = contents index (s index) ∧
        ((layered.backend index).loadIndex state).1 = .error error) := by
  have agreed := agree_run faithful agree run
  exact ⟨agreed, fun order reordered key answer answer' => get_order faithful agreed reordered,
    fun error => loadIndex_error faithful agreed⟩

end LayeredStore

/-! ### Two volatile stores -/

/-- A map-like store on every key is one whose calls do not fail. -/
theorem MapLike.faithfulStore {σ : Type} {store : PersistentStore σ}
    {contents : σ → String → Option StoredEntry}
    (mapLike : MapLike store contents fun _ => True) : FaithfulStore store contents where
  loadIndex state := (mapLike.loadIndex state).2
  listed state snapshot loaded record member := by
    obtain ⟨⟨listed, answered, describes⟩, _⟩ := mapLike.loadIndex state
    rw [answered] at loaded
    cases loaded
    exact describes.listed record member
  get state key := (mapLike.get state key trivial).2
  got state key answer got := by
    rw [(mapLike.get state key trivial).1] at got
    cases got
    rfl
  put state key entry := by
    cases present : contents state key with
    | none => exact .inr ⟨rfl, (mapLike.absent state key entry trivial present).2⟩
    | some old => exact .inl (mapLike.present state key entry old trivial present).2
  remove state key := .inr (mapLike.remove state key trivial).2
  clear state key entry found := by
    rw [(mapLike.clear state).2] at found
    exact nomatch found

namespace LayeredStore

/-- Two volatile stores, the second holding an entry the first has lost. -/
theorem replicas_agree_volatile :
    let layered : LayeredStore fun _ => VolatileStore := ⟨[0, 1], fun _ => volatileStore⟩
    let start : Backends fun _ => VolatileStore := fun index =>
      if index = 1 then (volatileStore.putIfAbsent "k" ⟨[7], 0, true⟩ .new).2 else .new
    Agree layered (fun _ => VolatileStore.contents)
      (layered.callStep (.putIfAbsent "k" ⟨[8], 0, false⟩) start) := by
  refine (replicas_agree ⟨[0, 1], fun _ => volatileStore⟩ (fun _ => VolatileStore.contents)
    (fun _ _ => volatileStore_mapLike.faithfulStore) _ _ ?_ (Reaches.refl.step trivial)).1
  intro index _ other _ key entry entry' found found'
  have empty : ∀ name, VolatileStore.contents .new name = none := fun _ => rfl
  simp only [held] at found found'
  by_cases second : index = 1
  · by_cases second' : other = 1
    · rw [if_pos second] at found
      rw [if_pos second', found] at found'
      exact Option.some_injective _ found'
    · rw [if_neg second', empty] at found'
      exact nomatch found'
  · rw [if_neg second, empty] at found
    exact nomatch found

end LayeredStore

end RivetCache
