/-
**Layered stores of exact stores.**

Over backends that account exactly and that hold the same map, a layered store accounts exactly: an entry
occupies the sum of what it occupies in the backends.

* `Holds view state`: backend `i` is in a valid state that holds the map `view i`; each loop of the layered
  store is one fact about how it moves `view`;
* `mergeRecords_join`: the merge of a snapshot joins each record to the one collected for its key;
* `layeredStore_exact`: the layered store is an `ExactStore`.
-/

import RivetCache.Stores.Exact
import RivetCache.Stores.Layered

set_option linter.unusedSectionVars false

namespace RivetCache

open Library

namespace LayeredStore

variable {τ : Nat → Type} {layered : LayeredStore τ} {valid : (index : Nat) → τ index → Prop}
  {contents : (index : Nat) → τ index → String → Option StoredEntry}
  {domain : Nat → String → Prop} {footprint : Nat → StoredEntry → Nat}

/-- Every backend accounts exactly. -/
def Exact (layered : LayeredStore τ) (valid : (index : Nat) → τ index → Prop)
    (contents : (index : Nat) → τ index → String → Option StoredEntry)
    (domain : Nat → String → Prop) (footprint : Nat → StoredEntry → Nat) : Prop :=
  ∀ index ∈ layered.stores,
    ExactStore (layered.backend index) (valid index) (contents index) (domain index) (footprint index)

/-- **Backend `i` holds the map `view i`.** -/
def Holds (layered : LayeredStore τ) (valid : (index : Nat) → τ index → Prop)
    (contents : (index : Nat) → τ index → String → Option StoredEntry)
    (view : Nat → String → Option StoredEntry) (s : Backends τ) : Prop :=
  ∀ index ∈ layered.stores, valid index (s index) ∧ contents index (s index) = view index

/-- The map of the first backend. -/
def common (layered : LayeredStore τ)
    (contents : (index : Nat) → τ index → String → Option StoredEntry) (s : Backends τ) :
    String → Option StoredEntry := contents (layered.stores.headD 0) (s (layered.stores.headD 0))

/-- The backends hold the same map. -/
def Alike (layered : LayeredStore τ) (valid : (index : Nat) → τ index → Prop)
    (contents : (index : Nat) → τ index → String → Option StoredEntry) (s : Backends τ) : Prop :=
  Holds layered valid contents (fun _ => common layered contents s) s

/-- What an entry occupies in the listed backends, besides `bytes`. -/
def footprints (footprint : Nat → StoredEntry → Nat) (entry : StoredEntry) : List Nat → Nat → Nat
  | [], bytes => bytes
  | index :: rest, bytes => footprints footprint entry rest (satAdd bytes (footprint index entry))

theorem footprints_le (entry : StoredEntry) : ∀ (rest : List Nat) {bytes : Nat}, bytes ≤ u64Max →
    footprints footprint entry rest bytes ≤ u64Max
  | [], _, bound => bound
  | _ :: rest, _, _ => footprints_le entry rest (satAdd_le_max _ _)

/-- Backends that all hold one map hold the map of the first. -/
theorem Holds.alike {s : Backends τ} {map : String → Option StoredEntry}
    (holds : Holds layered valid contents (fun _ => map) s) (nonempty : layered.stores ≠ []) :
    Alike layered valid contents s ∧ common layered contents s = map := by
  have first : layered.stores.headD 0 ∈ layered.stores := by
    cases stores : layered.stores with
    | nil => exact absurd stores nonempty
    | cons index rest => exact List.mem_cons_self
  have same : common layered contents s = map := (holds _ first).2
  refine ⟨?_, same⟩
  unfold Alike
  rw [same]
  exact holds

/-- **A call of one backend** that moves its map moves the view there. -/
theorem Holds.call {view : Nat → String → Option StoredEntry} {s : Backends τ}
    (holds : Holds layered valid contents view s) {index : Nat} {after : τ index}
    {map : String → Option StoredEntry} (sound : valid index after)
    (left : contents index after = map) :
    Holds layered valid contents (Function.update view index map) (Function.update s index after) := by
  intro other member
  by_cases same : other = index
  · subst same
    rw [Function.update_self, Function.update_self]
    exact ⟨sound, left⟩
  · rw [Function.update_of_ne same, Function.update_of_ne same]
    exact holds other member

/-- A call that keeps the map of its backend. -/
theorem Holds.call_same {view : Nat → String → Option StoredEntry} {s : Backends τ}
    (holds : Holds layered valid contents view s) {index : Nat} {after : τ index}
    (sound : valid index after) (left : contents index after = view index) :
    Holds layered valid contents view (Function.update s index after) := by
  have moved := holds.call sound left
  rwa [Function.update_eq_self] at moved

/-- A change of the backends of the whole list is one of every backend. -/
theorem Holds.everywhere {changed view : Nat → String → Option StoredEntry} {s : Backends τ}
    (holds : Holds layered valid contents
      (fun index => if index ∈ layered.stores then changed index else view index) s) :
    Holds layered valid contents changed s := by
  intro index member
  have moved := holds index member
  simp only [if_pos member] at moved
  exact moved

/-- A loop that changes the maps of the listed backends, its first round split off. -/
theorem Holds.cons (change : (String → Option StoredEntry) → String → Option StoredEntry)
    (twice : ∀ map, change (change map) = change map) {view : Nat → String → Option StoredEntry}
    {index : Nat} {rest : List Nat} {s : Backends τ}
    (holds : Holds layered valid contents (fun other =>
      if other ∈ rest then change (Function.update view index (change (view index)) other)
      else Function.update view index (change (view index)) other) s) :
    Holds layered valid contents
      (fun other => if other ∈ index :: rest then change (view other) else view other) s := by
  intro other member
  obtain ⟨sound, left⟩ := holds other member
  refine ⟨sound, left.trans ?_⟩
  by_cases equal : other = index
  · subst equal
    simp only [Function.update_self, twice, ite_self, List.mem_cons_self, if_true]
  · simp only [Function.update_of_ne equal, List.mem_cons, equal, false_or]

theorem callBackend_eq {α : Type} {index : Nat} {call : τ index → Except IoError α × τ index}
    {s : Backends τ} {result : Except IoError α} {after : τ index}
    (called : call (s index) = (result, after)) :
    callBackend index call s = (result, Function.update s index after) := by
  unfold callBackend
  rw [called]

section Loops

variable (exact_ : Exact layered valid contents domain footprint)

include exact_

/-! ### Reading -/

theorem getFirst_ok_exact {map : String → Option StoredEntry} {key : String} :
    ∀ (rest : List Nat) (s : Backends τ), (∀ index ∈ rest, index ∈ layered.stores) →
      (∀ index ∈ rest, domain index key) → Holds layered valid contents (fun _ => map) s →
      ∃ after, layered.getFirst key rest s = (.ok (if rest = [] then none else map key), after) ∧
        Holds layered valid contents (fun _ => map) after
  | [], s, _, _, holds => ⟨s, rfl, holds⟩
  | index :: rest, s, inside, accepted, holds => by
      have here := inside index List.mem_cons_self
      obtain ⟨after, answered, sound, kept⟩ := (exact_ index here).get (s index) key
        (holds index here).1 (accepted index List.mem_cons_self)
      have same : contents index (s index) = map := (holds index here).2
      have next := holds.call_same sound (kept.trans same)
      rw [same] at answered
      rw [if_neg (List.cons_ne_nil _ _)]
      unfold getFirst
      rw [callBackend_eq answered, andThen_ok]
      cases held : map key with
      | some entry => exact ⟨_, rfl, next⟩
      | none =>
          obtain ⟨final, done, holds⟩ := getFirst_ok_exact rest _
            (fun other member => inside other (List.mem_cons_of_mem _ member))
            (fun other member => accepted other (List.mem_cons_of_mem _ member)) next
          refine ⟨final, ?_, holds⟩
          rw [held, ite_self] at done
          exact done

theorem getFirst_outside {map : String → Option StoredEntry} {key : String} (absent : map key = none) :
    ∀ (rest : List Nat) (s : Backends τ), (∀ index ∈ rest, index ∈ layered.stores) →
      (∃ index ∈ rest, ¬ domain index key) → Holds layered valid contents (fun _ => map) s →
      ∃ error after, layered.getFirst key rest s = (.error error, after)
  | [], _, _, refused, _ => by
      obtain ⟨_, member, _⟩ := refused
      exact absurd member List.not_mem_nil
  | index :: rest, s, inside, refused, holds => by
      have here := inside index List.mem_cons_self
      unfold getFirst
      by_cases accepted : domain index key
      · obtain ⟨after, answered, sound, kept⟩ := (exact_ index here).get (s index) key
          (holds index here).1 accepted
        have same : contents index (s index) = map := (holds index here).2
        have next := holds.call_same sound (kept.trans same)
        rw [same, absent] at answered
        rw [callBackend_eq answered, andThen_ok]
        refine getFirst_outside absent rest _
          (fun other member => inside other (List.mem_cons_of_mem _ member)) ?_ next
        obtain ⟨other, member, outside⟩ := refused
        rcases List.mem_cons.mp member with rfl | member
        · exact absurd accepted outside
        · exact ⟨other, member, outside⟩
      · obtain ⟨error, after, failed⟩ := (exact_ index here).getOutside (s index) key
          (holds index here).1 accepted
        rw [callBackend_eq failed, andThen_error]
        exact ⟨error, _, rfl⟩

theorem checkEach_ok_exact {map : String → Option StoredEntry} {key : String} {entry : StoredEntry}
    (agrees : ∀ existing, map key = some existing → existing = entry) :
    ∀ (rest : List Nat) (s : Backends τ), (∀ index ∈ rest, index ∈ layered.stores) →
      (∀ index ∈ rest, domain index key) → Holds layered valid contents (fun _ => map) s →
      ∃ after, layered.checkEach key entry rest s = (.ok (), after) ∧
        Holds layered valid contents (fun _ => map) after
  | [], s, _, _, holds => ⟨s, rfl, holds⟩
  | index :: rest, s, inside, accepted, holds => by
      have here := inside index List.mem_cons_self
      obtain ⟨after, answered, sound, kept⟩ := (exact_ index here).get (s index) key
        (holds index here).1 (accepted index List.mem_cons_self)
      have same : contents index (s index) = map := (holds index here).2
      have next := holds.call_same sound (kept.trans same)
      rw [same] at answered
      obtain ⟨final, done, holds⟩ := checkEach_ok_exact agrees rest _
        (fun other member => inside other (List.mem_cons_of_mem _ member))
        (fun other member => accepted other (List.mem_cons_of_mem _ member)) next
      refine ⟨final, ?_, holds⟩
      unfold checkEach
      rw [callBackend_eq answered, andThen_ok]
      cases held : map key with
      | none => exact done
      | some existing =>
          show (if existing ≠ entry then _ else _) = _
          rw [if_neg (not_not.mpr (agrees existing held))]
          exact done

theorem checkEach_outside {map : String → Option StoredEntry} {key : String} (entry : StoredEntry)
    (absent : map key = none) :
    ∀ (rest : List Nat) (s : Backends τ), (∀ index ∈ rest, index ∈ layered.stores) →
      (∃ index ∈ rest, ¬ domain index key) → Holds layered valid contents (fun _ => map) s →
      ∃ error after, layered.checkEach key entry rest s = (.error error, after)
  | [], _, _, refused, _ => by
      obtain ⟨_, member, _⟩ := refused
      exact absurd member List.not_mem_nil
  | index :: rest, s, inside, refused, holds => by
      have here := inside index List.mem_cons_self
      unfold checkEach
      by_cases accepted : domain index key
      · obtain ⟨after, answered, sound, kept⟩ := (exact_ index here).get (s index) key
          (holds index here).1 accepted
        have same : contents index (s index) = map := (holds index here).2
        have next := holds.call_same sound (kept.trans same)
        rw [same, absent] at answered
        rw [callBackend_eq answered, andThen_ok]
        refine checkEach_outside entry absent rest _
          (fun other member => inside other (List.mem_cons_of_mem _ member)) ?_ next
        obtain ⟨other, member, outside⟩ := refused
        rcases List.mem_cons.mp member with rfl | member
        · exact absurd accepted outside
        · exact ⟨other, member, outside⟩
      · obtain ⟨error, after, failed⟩ := (exact_ index here).getOutside (s index) key
          (holds index here).1 accepted
        rw [callBackend_eq failed, andThen_error]
        exact ⟨error, _, rfl⟩

/-! ### Writing -/

/-- **The second loop of `put_if_absent`**, over backends that hold the entry or nothing: it writes the
entry where it is missing, and sums what it occupies. -/
theorem putEach_ok_exact {key : String} {entry : StoredEntry} (sized : entry.Representable) :
    ∀ (rest inserted : List Nat) (bytes : Nat) (view : Nat → String → Option StoredEntry)
      (s : Backends τ), (∀ index ∈ rest, index ∈ layered.stores) →
      (∀ index ∈ rest, domain index key) →
      (∀ index ∈ rest, view index key = none ∨ view index key = some entry) →
      Holds layered valid contents view s →
      ∃ (done : List Nat) (after : Backends τ), layered.putEach key entry rest inserted bytes s =
          (.ok ⟨!done.isEmpty, footprints footprint entry rest bytes⟩, after) ∧
        (done = [] ↔ inserted = [] ∧ ∀ index ∈ rest, view index key = some entry) ∧
        Holds layered valid contents
          (fun index => if index ∈ rest then Function.update (view index) key (some entry)
            else view index) after
  | [], inserted, bytes, view, s, _, _, _, holds =>
      ⟨inserted, s, rfl, by simp, by simpa using holds⟩
  | index :: rest, inserted, bytes, view, s, inside, accepted, free, holds => by
      have here := inside index List.mem_cons_self
      have covers := accepted index List.mem_cons_self
      have same := (holds index here).2
      have written : ∃ flag after, (layered.backend index).putIfAbsent key entry (s index) =
            (.ok ⟨flag, footprint index entry⟩, after) ∧
          (flag = false ↔ view index key = some entry) ∧ valid index after ∧
          contents index after = Function.update (view index) key (some entry) := by
        rcases free index List.mem_cons_self with missing | present
        · obtain ⟨after, put, sound, left⟩ := (exact_ index here).absent (s index) key entry
            (holds index here).1 covers sized (by rw [same]; exact missing)
          exact ⟨true, after, put, by rw [missing]; simp, sound, by rw [left, same]⟩
        · obtain ⟨after, put, sound, left⟩ := (exact_ index here).present (s index) key entry
            (holds index here).1 covers (by rw [same]; exact present)
          refine ⟨false, after, put, by simp [present], sound, ?_⟩
          rw [left, same, ← present, Function.update_eq_self]
      obtain ⟨flag, after, put, flagged, sound, left⟩ := written
      have next := holds.call sound left
      obtain ⟨done, final, finished, none_left, holds⟩ := putEach_ok_exact sized rest
        (if flag then inserted ++ [index] else inserted) (satAdd bytes (footprint index entry))
        (Function.update view index (Function.update (view index) key (some entry)))
        (Function.update s index after)
        (fun other member => inside other (List.mem_cons_of_mem _ member))
        (fun other member => accepted other (List.mem_cons_of_mem _ member))
        (fun other member => by
          by_cases equal : other = index
          · subst equal
            rw [Function.update_self, Function.update_self]
            exact .inr rfl
          · rw [Function.update_of_ne equal]
            exact free other (List.mem_cons_of_mem _ member))
        next
      refine ⟨done, final, ?_, none_left.trans ?_, ?_⟩
      · unfold putEach
        rw [callBackend_eq put]
        exact finished
      · constructor
        · rintro ⟨empty, all⟩
          have kept : flag = false := by
            cases flag with
            | false => rfl
            | true => simp at empty
          subst kept
          refine ⟨by simpa using empty, fun other member => ?_⟩
          rcases List.mem_cons.mp member with rfl | member
          · exact flagged.mp rfl
          · have held := all other member
            by_cases equal : other = index
            · subst equal
              exact flagged.mp rfl
            · rwa [Function.update_of_ne equal] at held
        · rintro ⟨empty, all⟩
          have kept : flag = false := flagged.mpr (all index List.mem_cons_self)
          subst kept
          refine ⟨by simpa using empty, fun other member => ?_⟩
          by_cases equal : other = index
          · subst equal
            rw [Function.update_self, Function.update_self]
          · rw [Function.update_of_ne equal]
            exact all other (List.mem_cons_of_mem _ member)
      · exact Holds.cons (fun map => Function.update map key (some entry))
          (fun _ => Function.update_idem _ _ _) holds

omit exact_ in
/-- **A loop of deletions** that all succeed. -/
theorem callEach_ok (call : (index : Nat) → τ index → Except IoError Unit × τ index)
    (delete : (String → Option StoredEntry) → String → Option StoredEntry)
    (twice : ∀ map, delete (delete map) = delete map)
    (works : ∀ index ∈ layered.stores, ∀ state, valid index state → ∃ after,
      call index state = (.ok (), after) ∧ valid index after ∧
        contents index after = delete (contents index state)) :
    ∀ (rest : List Nat) (view : Nat → String → Option StoredEntry) (s : Backends τ),
      (∀ index ∈ rest, index ∈ layered.stores) → Holds layered valid contents view s →
      ∃ after, callEach call rest none s = (.ok (), after) ∧
        Holds layered valid contents
          (fun index => if index ∈ rest then delete (view index) else view index) after
  | [], view, s, _, holds => ⟨s, rfl, by simpa using holds⟩
  | index :: rest, view, s, inside, holds => by
      have here := inside index List.mem_cons_self
      obtain ⟨after, called, sound, left⟩ := works index here (s index) (holds index here).1
      rw [(holds index here).2] at left
      obtain ⟨final, done, final_holds⟩ := callEach_ok call delete twice works rest
        (Function.update view index (delete (view index))) (Function.update s index after)
        (fun other member => inside other (List.mem_cons_of_mem _ member)) (holds.call sound left)
      refine ⟨final, ?_, Holds.cons delete twice final_holds⟩
      unfold callEach
      rw [callBackend_eq called]
      exact done

omit exact_ in
/-- A loop that has met an error returns one. -/
theorem callEach_failed {call : (index : Nat) → τ index → Except IoError Unit × τ index} :
    ∀ (rest : List Nat) (first : IoError) (s : Backends τ),
      ∃ error after, callEach call rest (some first) s = (.error error, after)
  | [], first, s => ⟨first, s, rfl⟩
  | index :: rest, first, s => by
      unfold callEach
      split
      · exact callEach_failed rest first _
      · exact callEach_failed rest first _

theorem removeEach_outside {key : String} : ∀ (rest : List Nat)
    (view : Nat → String → Option StoredEntry) (s : Backends τ),
    (∀ index ∈ rest, index ∈ layered.stores) → (∃ index ∈ rest, ¬ domain index key) →
    Holds layered valid contents view s →
    ∃ error after, callEach (fun index => (layered.backend index).remove key) rest none s =
      (.error error, after)
  | [], _, _, _, refused, _ => by
      obtain ⟨_, member, _⟩ := refused
      exact absurd member List.not_mem_nil
  | index :: rest, view, s, inside, refused, holds => by
      have here := inside index List.mem_cons_self
      unfold callEach
      by_cases accepted : domain index key
      · obtain ⟨after, removed, sound, left⟩ := (exact_ index here).remove (s index) key
          (holds index here).1 accepted
        rw [callBackend_eq removed]
        refine removeEach_outside rest _ _
          (fun other member => inside other (List.mem_cons_of_mem _ member)) ?_ (holds.call sound left)
        obtain ⟨other, member, outside⟩ := refused
        rcases List.mem_cons.mp member with rfl | member
        · exact absurd accepted outside
        · exact ⟨other, member, outside⟩
      · obtain ⟨error, after, failed⟩ := (exact_ index here).removeOutside (s index) key
          (holds index here).1 accepted
        rw [callBackend_eq failed]
        exact callEach_failed rest error _

end Loops

/-! ### Merging -/

/-- A record joined to the one collected for its key. -/
def join (current : Option StoreRecord) (record : StoreRecord) : StoreRecord :=
  match current with
  | none => record
  | some current =>
      { current with
        storedBytes := satAdd current.storedBytes record.storedBytes
        lastAccess := max current.lastAccess record.lastAccess }

/-- **The merge of a snapshot** that lists no key twice and agrees with what is collected. -/
theorem mergeRecords_join : ∀ (records : List StoreRecord) (merged : Table String StoreRecord),
    (records.map StoreRecord.key).Nodup →
    (∀ record ∈ records, ∀ current, merged.lookup record.key = some current →
      current.expiresAt = record.expiresAt ∧ current.pinned = record.pinned) →
    ∃ after, mergeRecords records merged = .ok after ∧
      (∀ record ∈ records,
        after.lookup record.key = some (join (merged.lookup record.key) record)) ∧
      ∀ key, key ∉ records.map StoreRecord.key → after.lookup key = merged.lookup key
  | [], merged, _, _ =>
      ⟨merged, rfl, fun _ member => absurd member List.not_mem_nil, fun _ _ => rfl⟩
  | record :: rest, merged, distinct, agrees => by
      rw [List.map_cons, List.nodup_cons] at distinct
      have first : mergeRecord record merged =
          .ok (merged.insert record.key (join (merged.lookup record.key) record)) := by
        unfold mergeRecord join
        cases present : merged.lookup record.key with
        | none => rfl
        | some current =>
            obtain ⟨expires, pins⟩ := agrees record List.mem_cons_self current present
            simp [expires, pins]
      have elsewhere : ∀ key, key ≠ record.key →
          (merged.insert record.key (join (merged.lookup record.key) record)).lookup key =
            merged.lookup key := by
        intro key different
        rw [lookup_insert_eq, if_neg different]
      have distinct_keys : ∀ other ∈ rest, other.key ≠ record.key := fun other member same =>
        distinct.1 (List.mem_map.mpr ⟨other, member, same⟩)
      obtain ⟨after, merging, joined, kept⟩ := mergeRecords_join rest _ distinct.2
        fun other member current present => by
          rw [elsewhere _ (distinct_keys other member)] at present
          exact agrees other (List.mem_cons_of_mem _ member) current present
      refine ⟨after, by simp only [mergeRecords, first, merging], fun other member => ?_,
        fun key outside => ?_⟩
      · rcases List.mem_cons.mp member with rfl | member
        · rw [kept _ distinct.1, lookup_insert_eq, if_pos rfl]
        · rw [joined other member, elsewhere _ (distinct_keys other member)]
      · rw [List.map_cons, List.mem_cons, not_or] at outside
        rw [kept key outside.2, elsewhere key outside.1]

/-- **What the merge has collected** of the map: one record a key, with the sum of what its entry
occupies. -/
structure Collected (map : String → Option StoredEntry) (occupied : StoredEntry → Nat)
    (merged : Table String StoreRecord) : Prop where
  missing : ∀ key, map key = none → merged.lookup key = none
  found : ∀ key entry, map key = some entry → ∃ record, merged.lookup key = some record ∧
    record.key = key ∧ record.storedBytes = occupied entry ∧
    record.expiresAt = entry.expiresAt ∧ record.pinned = entry.pinned

/-- The record that a snapshot lists for a held key. -/
theorem listed_record {snapshot : StoreSnapshot} {occupies : StoredEntry → Nat}
    {map : String → Option StoredEntry} (accounts : snapshot.Accounts occupies map) {key : String}
    {entry : StoredEntry} (held : map key = some entry) :
    ∃ record ∈ snapshot.entries, record.key = key ∧ record.storedBytes = occupies entry ∧
      record.expiresAt = entry.expiresAt ∧ record.pinned = entry.pinned := by
  obtain ⟨record, member, rfl⟩ := accounts.complete key entry held
  obtain ⟨other, same, bytes, expires, pins⟩ := accounts.listed record member
  rw [held] at same
  cases same
  exact ⟨record, member, rfl, bytes, expires, pins⟩

theorem unlisted_key {snapshot : StoreSnapshot} {occupies : StoredEntry → Nat}
    {map : String → Option StoredEntry} (accounts : snapshot.Accounts occupies map) {key : String}
    (absent : map key = none) : key ∉ snapshot.entries.map StoreRecord.key := by
  intro listed
  obtain ⟨record, member, rfl⟩ := List.mem_map.mp listed
  obtain ⟨entry, held, _⟩ := accounts.listed record member
  rw [absent] at held
  exact nomatch held

/-- The merge of the first backend's snapshot. -/
theorem Collected.first {snapshot : StoreSnapshot} {occupies : StoredEntry → Nat}
    {map : String → Option StoredEntry} (accounts : snapshot.Accounts occupies map) :
    ∃ merged, mergeRecords snapshot.entries ∅ = .ok merged ∧ Collected map occupies merged := by
  obtain ⟨merged, merging, joined, kept⟩ := mergeRecords_join snapshot.entries ∅ accounts.nodup
    fun _ _ _ present => nomatch present
  refine ⟨merged, merging, ⟨fun key absent => ?_, fun key entry held => ?_⟩⟩
  · rw [kept key (unlisted_key accounts absent)]
    rfl
  · obtain ⟨record, member, rfl, bytes, expires, pins⟩ := listed_record accounts held
    exact ⟨record, joined record member, rfl, bytes, expires, pins⟩

/-- The merge of a later backend's snapshot. -/
theorem Collected.next {snapshot : StoreSnapshot} {occupies occupied : StoredEntry → Nat}
    {map : String → Option StoredEntry} {merged : Table String StoreRecord}
    (collected : Collected map occupied merged) (accounts : snapshot.Accounts occupies map) :
    ∃ after, mergeRecords snapshot.entries merged = .ok after ∧
      Collected map (fun entry => satAdd (occupied entry) (occupies entry)) after := by
  obtain ⟨after, merging, joined, kept⟩ := mergeRecords_join snapshot.entries merged accounts.nodup
    fun record member current present => by
      obtain ⟨entry, held, _, expires, pins⟩ := accounts.listed record member
      obtain ⟨collectedRecord, same, _, _, expires', pins'⟩ := collected.found _ entry held
      rw [present] at same
      cases same
      exact ⟨expires'.trans expires.symm, pins'.trans pins.symm⟩
  refine ⟨after, merging, ⟨fun key absent => ?_, fun key entry held => ?_⟩⟩
  · rw [kept key (unlisted_key accounts absent)]
    exact collected.missing key absent
  · obtain ⟨record, member, rfl, bytes, _, _⟩ := listed_record accounts held
    obtain ⟨current, present, named, sum, expires, pins⟩ := collected.found _ entry held
    refine ⟨_, joined record member, ?_⟩
    rw [present]
    refine ⟨named, ?_, expires, pins⟩
    show satAdd current.storedBytes record.storedBytes = _
    rw [sum, bytes]

/-- **The snapshot of what is collected.** -/
theorem Collected.accounts {map : String → Option StoredEntry} {occupied : StoredEntry → Nat}
    {merged : Table String StoreRecord} (collected : Collected map occupied merged) :
    StoreSnapshot.Accounts ⟨merged.entries.map Sigma.snd, 0⟩ occupied map := by
  have origin : ∀ entry ∈ merged.entries, ∃ held, map entry.1 = some held ∧ entry.2.key = entry.1 ∧
      entry.2.storedBytes = occupied held ∧ entry.2.expiresAt = held.expiresAt ∧
      entry.2.pinned = held.pinned := by
    rintro ⟨key, record⟩ member
    have present := lookup_of_mem member
    cases held : map key with
    | none =>
        rw [collected.missing key held] at present
        exact nomatch present
    | some entry =>
        obtain ⟨other, found, rest⟩ := collected.found key entry held
        rw [present] at found
        cases found
        exact ⟨entry, rfl, rest⟩
  refine ⟨rfl, ?_, ?_, ?_⟩
  · have keys : (merged.entries.map Sigma.snd).map StoreRecord.key = merged.keys := by
      rw [List.map_map]
      refine List.map_congr_left fun entry member => ?_
      obtain ⟨_, _, name, _⟩ := origin entry member
      exact name
    rw [keys]
    exact merged.keys_nodup
  · intro record member
    obtain ⟨entry, inside, rfl⟩ := List.mem_map.mp member
    obtain ⟨held, present, name, rest⟩ := origin entry inside
    exact ⟨held, by rw [name]; exact present, rest⟩
  · intro key entry held
    obtain ⟨record, found, name, _⟩ := collected.found key entry held
    exact ⟨record, List.mem_map.mpr ⟨_, mem_of_lookup found, rfl⟩, name⟩

/-- **The loop of `load_index`** once something is collected. -/
theorem loadEach_collected (exact_ : Exact layered valid contents domain footprint)
    {map : String → Option StoredEntry} :
    ∀ (rest : List Nat) (merged : Table String StoreRecord) (occupied : StoredEntry → Nat)
      (s : Backends τ), (∀ index ∈ rest, index ∈ layered.stores) →
      Holds layered valid contents (fun _ => map) s → Collected map occupied merged →
      ∃ final after, layered.loadEach rest merged 0 s = (.ok (final, 0), after) ∧
        Holds layered valid contents (fun _ => map) after ∧
        Collected map (fun entry => footprints footprint entry rest (occupied entry)) final
  | [], merged, _, s, _, holds, collected => ⟨merged, s, rfl, holds, collected⟩
  | index :: rest, merged, occupied, s, inside, holds, collected => by
      have here := inside index List.mem_cons_self
      have same : contents index (s index) = map := (holds index here).2
      obtain ⟨snapshot, after, loaded, sound, kept, accounts⟩ :=
        (exact_ index here).loadIndex (s index) (holds index here).1
      rw [same] at kept accounts
      obtain ⟨merged', merging, collected⟩ := collected.next accounts
      obtain ⟨final, last, done, holds, collected⟩ := loadEach_collected exact_ rest merged' _ _
        (fun other member => inside other (List.mem_cons_of_mem _ member))
        (holds.call_same sound kept) collected
      refine ⟨final, last, ?_, holds, collected⟩
      unfold loadEach
      rw [callBackend_eq loaded, andThen_ok, merging, accounts.corruptions]
      exact done

/-- **`load_index`** lists the common map, with the sums. -/
theorem loadIndex_exact (exact_ : Exact layered valid contents domain footprint)
    (nonempty : layered.stores ≠ []) {map : String → Option StoredEntry} {s : Backends τ}
    (start : Holds layered valid contents (fun _ => map) s) :
    ∃ snapshot after, layered.loadIndex s = (.ok snapshot, after) ∧
      Holds layered valid contents (fun _ => map) after ∧
      snapshot.Accounts (fun entry => footprints footprint entry layered.stores 0) map := by
  cases stores : layered.stores with
  | nil => exact absurd stores nonempty
  | cons index rest =>
      have inside : ∀ other ∈ index :: rest, other ∈ layered.stores := by
        rw [stores]
        exact fun _ member => member
      have here := inside index List.mem_cons_self
      have same : contents index (s index) = map := (start index here).2
      obtain ⟨snapshot, after, loaded, sound, kept, accounts⟩ :=
        (exact_ index here).loadIndex (s index) (start index here).1
      rw [same] at kept accounts
      obtain ⟨merged, merging, collected⟩ := Collected.first accounts
      obtain ⟨final, last, done, holds, collected⟩ := loadEach_collected exact_ rest merged _ _
        (fun other member => inside other (List.mem_cons_of_mem _ member))
        (start.call_same sound kept) collected
      have whole : layered.loadEach layered.stores ∅ 0 s = (.ok (final, 0), last) := by
        rw [stores]
        unfold loadEach
        rw [callBackend_eq loaded, andThen_ok, merging, accounts.corruptions]
        exact done
      have total : ∀ key entry, map key = some entry →
          footprints footprint entry rest (footprint index entry) =
            footprints footprint entry (index :: rest) 0 := by
        intro key entry held
        have sized := ((exact_ index here).held (s index) key entry (start index here).1
          (by rw [same]; exact held)).2
        show _ = footprints footprint entry rest (satAdd 0 (footprint index entry))
        rw [satAdd_of_le (by rw [zero_add]; exact (exact_ index here).footprint_le entry sized),
          zero_add]
      refine ⟨⟨final.entries.map Sigma.snd, 0⟩, last, ?_, holds, collected.accounts.congr total⟩
      unfold loadIndex
      rw [whole]
      rfl

/-- A key that a backend refuses is held by none. -/
theorem common_outside (exact_ : Exact layered valid contents domain footprint) {s : Backends τ}
    (alike : Alike layered valid contents s) {key : String}
    (outside : ¬ ∀ index ∈ layered.stores, domain index key) :
    common layered contents s key = none := by
  cases held : common layered contents s key with
  | none => rfl
  | some entry =>
      refine absurd (fun index member => ?_) outside
      exact ((exact_ index member).held (s index) key entry (alike index member).1
        ((congrFun (alike index member).2 key).trans held)).1

end LayeredStore

open LayeredStore in
/-- **A layered store of exact stores is exact.** -/
theorem layeredStore_exact {τ : Nat → Type} {layered : LayeredStore τ}
    {valid : (index : Nat) → τ index → Prop}
    {contents : (index : Nat) → τ index → String → Option StoredEntry}
    {domain : Nat → String → Prop} {footprint : Nat → StoredEntry → Nat}
    (exact_ : Exact layered valid contents domain footprint) (nonempty : layered.stores ≠ []) :
    ExactStore (layeredStore layered) (Alike layered valid contents) (common layered contents)
      (fun key => ∀ index ∈ layered.stores, domain index key)
      (fun entry => footprints footprint entry layered.stores 0) where
  footprint_le entry _ := footprints_le entry layered.stores (Nat.zero_le _)
  held s key entry alike held := by
    have each : ∀ index ∈ layered.stores, domain index key ∧ entry.Representable :=
      fun index member => (exact_ index member).held (s index) key entry (alike index member).1
        ((congrFun (alike index member).2 key).trans held)
    refine ⟨fun index member => (each index member).1, ?_⟩
    obtain ⟨index, member⟩ := List.exists_mem_of_ne_nil _ nonempty
    exact (each index member).2
  get s key alike accepted := by
    obtain ⟨after, answered, holds⟩ := getFirst_ok_exact exact_ layered.stores s
      (fun _ member => member) accepted alike
    rw [if_neg nonempty] at answered
    exact ⟨after, answered, holds.alike nonempty⟩
  present s key entry alike accepted held := by
    have agrees : ∀ existing, common layered contents s key = some existing → existing = entry := by
      intro existing found
      rw [held] at found
      exact (Option.some_injective _ found).symm
    obtain ⟨index, member⟩ := List.exists_mem_of_ne_nil _ nonempty
    have sized := ((exact_ index member).held (s index) key entry (alike index member).1
      ((congrFun (alike index member).2 key).trans held)).2
    obtain ⟨middle, checked, holds⟩ := checkEach_ok_exact exact_ agrees layered.stores s
      (fun _ member => member) accepted alike
    obtain ⟨done, after, put, inserted, holds⟩ := putEach_ok_exact exact_ sized layered.stores [] 0 _
      middle (fun _ member => member) accepted (fun _ _ => .inr held) holds
    have same : Holds layered valid contents (fun _ => common layered contents s) after := by
      have moved := holds.everywhere
      rwa [← held, Function.update_eq_self] at moved
    refine ⟨after, ?_, same.alike nonempty⟩
    show layered.putIfAbsent key entry s = _
    unfold putIfAbsent
    rw [checked, andThen_ok, put, inserted.mpr ⟨rfl, fun _ _ => held⟩]
    rfl
  absent s key entry alike accepted sized missing := by
    have agrees : ∀ existing, common layered contents s key = some existing → existing = entry := by
      intro existing found
      rw [missing] at found
      exact nomatch found
    obtain ⟨middle, checked, holds⟩ := checkEach_ok_exact exact_ agrees layered.stores s
      (fun _ member => member) accepted alike
    obtain ⟨done, after, put, inserted, holds⟩ := putEach_ok_exact exact_ sized layered.stores [] 0 _
      middle (fun _ member => member) accepted (fun _ _ => .inl missing) holds
    have written : Holds layered valid contents
        (fun _ => Function.update (common layered contents s) key (some entry)) after := holds.everywhere
    have some_inserted : done ≠ [] := by
      intro empty
      obtain ⟨index, member⟩ := List.exists_mem_of_ne_nil _ nonempty
      have held := (inserted.mp empty).2 index member
      rw [missing] at held
      exact nomatch held
    refine ⟨after, ?_, written.alike nonempty⟩
    show layered.putIfAbsent key entry s = _
    unfold putIfAbsent
    rw [checked, andThen_ok, put, List.isEmpty_eq_false_iff.mpr some_inserted]
    rfl
  remove s key alike accepted := by
    obtain ⟨after, removed, holds⟩ := callEach_ok
      (fun index => (layered.backend index).remove key) (fun map => Function.update map key none)
      (fun _ => Function.update_idem _ _ _)
      (fun index member state sound => (exact_ index member).remove state key sound
        (accepted index member)) layered.stores _ s (fun _ member => member) alike
    exact ⟨after, removed, holds.everywhere.alike nonempty⟩
  clear s alike := by
    obtain ⟨after, cleared, holds⟩ := callEach_ok (fun index => (layered.backend index).clear)
      (fun _ _ => none) (fun _ => rfl)
      (fun index member state sound => (exact_ index member).clear state sound)
      layered.stores _ s (fun _ member => member) alike
    exact ⟨after, cleared, holds.everywhere.alike nonempty⟩
  loadIndex s alike := by
    obtain ⟨snapshot, after, loaded, holds, accounts⟩ := loadIndex_exact exact_ nonempty alike
    exact ⟨snapshot, after, loaded, (holds.alike nonempty).1, (holds.alike nonempty).2, accounts⟩
  getOutside s key alike outside := by
    have absent := common_outside exact_ alike outside
    obtain ⟨index, member, refused⟩ := not_forall₂.mp outside
    exact getFirst_outside exact_ absent layered.stores s (fun _ member => member)
      ⟨index, member, refused⟩ alike
  putOutside s key entry alike outside := by
    have absent := common_outside exact_ alike outside
    obtain ⟨index, member, refused⟩ := not_forall₂.mp outside
    obtain ⟨error, after, failed⟩ := checkEach_outside exact_ entry absent layered.stores s
      (fun _ member => member) ⟨index, member, refused⟩ alike
    refine ⟨error, after, ?_⟩
    show layered.putIfAbsent key entry s = _
    unfold putIfAbsent
    rw [failed, andThen_error]
  removeOutside s key alike outside := by
    obtain ⟨index, member, refused⟩ := not_forall₂.mp outside
    exact removeEach_outside exact_ layered.stores _ s (fun _ member => member)
      ⟨index, member, refused⟩ alike

end RivetCache
