/-
**Layered writes are atomic.**

Backends here may hold different maps, and their reads and writes may fail, each time without an effect.

* `AtomicStore`: a map whose reads and writes act entirely or not at all;
* `putEach_whole`: the second loop of a layered write either writes every backend or rolls back what it has
  inserted;
* `loadIndex_tally`: the index reports for a key the sum of what its replicas occupy;
* `putIfAbsent_atomic`: a layered write that fails changes no backend.
-/

import RivetCache.Stores.LayeredExact
import RivetCache.Stores.Format

set_option linter.unusedSectionVars false

namespace RivetCache

open Library

/-- The snapshot lists every entry of the map once, with its size. -/
structure StoreSnapshot.Sizes (snapshot : StoreSnapshot) (size : String → StoredEntry → Nat)
    (held : String → Option StoredEntry) : Prop where
  nodup : (snapshot.entries.map StoreRecord.key).Nodup
  listed : ∀ record ∈ snapshot.entries, ∃ entry, held record.key = some entry ∧
    record.storedBytes = size record.key entry
  complete : ∀ key entry, held key = some entry → ∃ record ∈ snapshot.entries, record.key = key

/-- **A map whose reads and writes may fail**, and do nothing where they fail; deletions work. A write and
the index report an entry with its size. -/
structure AtomicStore {σ : Type} (store : PersistentStore σ) (valid : σ → Prop)
    (contents : σ → String → Option StoredEntry) (size : String → StoredEntry → Nat) : Prop where
  size_le : ∀ key entry, entry.Representable → size key entry ≤ u64Max
  get : ∀ state key, valid state → valid (store.get key state).2 ∧
    contents (store.get key state).2 = contents state ∧
    ∀ answer, (store.get key state).1 = .ok answer → answer = contents state key
  present : ∀ state key entry, valid state → contents state key = some entry →
    valid (store.putIfAbsent key entry state).2 ∧
    contents (store.putIfAbsent key entry state).2 = contents state ∧
    ((∃ error, (store.putIfAbsent key entry state).1 = .error error) ∨
      (store.putIfAbsent key entry state).1 = .ok ⟨false, size key entry⟩)
  absent : ∀ state key entry, valid state → entry.Representable → contents state key = none →
    valid (store.putIfAbsent key entry state).2 ∧
    ((∃ error, (store.putIfAbsent key entry state).1 = .error error ∧
        contents (store.putIfAbsent key entry state).2 = contents state) ∨
      ((store.putIfAbsent key entry state).1 = .ok ⟨true, size key entry⟩ ∧
        contents (store.putIfAbsent key entry state).2 =
          Function.update (contents state) key (some entry)))
  remove : ∀ state key, valid state → valid (store.remove key state).2 ∧
    contents (store.remove key state).2 = Function.update (contents state) key none
  loadIndex : ∀ state, valid state → valid (store.loadIndex state).2 ∧
    contents (store.loadIndex state).2 = contents state ∧
    ∀ snapshot, (store.loadIndex state).1 = .ok snapshot → snapshot.Sizes size (contents state)

/-! ### Stores that are atomic -/

theorem StoreSnapshot.Accounts.sizes {snapshot : StoreSnapshot} {footprint : StoredEntry → Nat}
    {held : String → Option StoredEntry} (accounts : snapshot.Accounts footprint held) :
    snapshot.Sizes (fun _ => footprint) held where
  nodup := accounts.nodup
  listed record member := by
    obtain ⟨entry, holds, bytes, _⟩ := accounts.listed record member
    exact ⟨entry, holds, bytes⟩
  complete := accounts.complete

/-- **A store that accounts exactly is atomic**, where a key it refuses changes nothing. -/
theorem ExactStore.atomic {σ : Type} {store : PersistentStore σ} {valid : σ → Prop}
    {contents : σ → String → Option StoredEntry} {domain : String → Prop}
    {footprint : StoredEntry → Nat} (exact_ : ExactStore store valid contents domain footprint)
    (getKept : ∀ state key, ¬ domain key → (store.get key state).2 = state)
    (putKept : ∀ state key entry, ¬ domain key → (store.putIfAbsent key entry state).2 = state)
    (removeKept : ∀ state key, ¬ domain key → (store.remove key state).2 = state) :
    AtomicStore store valid contents fun _ => footprint where
  size_le _ entry sized := exact_.footprint_le entry sized
  get state key sound := by
    by_cases accepted : domain key
    · obtain ⟨after, answered, later, kept⟩ := exact_.get state key sound accepted
      rw [answered]
      refine ⟨later, kept, fun answer same => ?_⟩
      cases same
      rfl
    · obtain ⟨error, _, refused⟩ := exact_.getOutside state key sound accepted
      rw [getKept state key accepted, refused]
      exact ⟨sound, rfl, fun _ same => nomatch same⟩
  present state key entry sound held := by
    have accepted := (exact_.held state key entry sound held).1
    obtain ⟨after, put, later, kept⟩ := exact_.present state key entry sound accepted held
    rw [put]
    exact ⟨later, kept, .inr rfl⟩
  absent state key entry sound sized missing := by
    by_cases accepted : domain key
    · obtain ⟨after, put, later, written⟩ :=
        exact_.absent state key entry sound accepted sized missing
      rw [put]
      exact ⟨later, .inr ⟨rfl, written⟩⟩
    · obtain ⟨error, _, refused⟩ := exact_.putOutside state key entry sound accepted
      rw [putKept state key entry accepted, refused]
      exact ⟨sound, .inl ⟨error, rfl, rfl⟩⟩
  remove state key sound := by
    by_cases accepted : domain key
    · obtain ⟨after, removed, later, written⟩ := exact_.remove state key sound accepted
      rw [removed]
      exact ⟨later, written⟩
    · have absent : contents state key = none := by
        cases held : contents state key with
        | none => rfl
        | some entry => exact absurd (exact_.held state key entry sound held).1 accepted
      rw [removeKept state key accepted]
      refine ⟨sound, ?_⟩
      rw [← absent, Function.update_eq_self]
  loadIndex state sound := by
    obtain ⟨snapshot, after, loaded, later, kept, accounts⟩ := exact_.loadIndex state sound
    rw [loaded]
    refine ⟨later, kept, fun other same => ?_⟩
    cases same
    exact accounts.sizes

/-- **The bundled volatile store is atomic.** -/
theorem volatileStore_atomic :
    AtomicStore volatileStore VolatileStore.Valid VolatileStore.contents
      fun _ entry => entry.value.length :=
  volatileStore_exact.atomic (fun _ _ outside => absurd trivial outside)
    (fun _ _ _ outside => absurd trivial outside) (fun _ _ outside => absurd trivial outside)

/-- **The file store is atomic** over a sound directory. -/
theorem fileStore_atomic {os : FileAmbient} (faultless : os.Faultless) :
    AtomicStore (fileStore os) (Directory.Sound os) (Directory.contents os)
      fun _ entry => headerLen + entry.value.length := by
  refine (fileStore_exact faultless).atomic (fun dir key outside => ?_)
    (fun dir key entry outside => ?_) (fun dir key outside => ?_)
  · obtain ⟨_, refused⟩ := FileStore.get_invalid os dir outside
    exact congrArg Prod.snd refused
  · obtain ⟨_, refused⟩ := FileStore.putIfAbsent_invalid os dir outside entry
    exact congrArg Prod.snd refused
  · obtain ⟨_, refused⟩ := FileStore.remove_invalid os dir outside
    exact congrArg Prod.snd refused

namespace LayeredStore

variable {τ : Nat → Type} {layered : LayeredStore τ} {valid : (index : Nat) → τ index → Prop}
  {contents : (index : Nat) → τ index → String → Option StoredEntry}
  {size : Nat → String → StoredEntry → Nat}

/-- Every backend is atomic. -/
def Atomic (layered : LayeredStore τ) (valid : (index : Nat) → τ index → Prop)
    (contents : (index : Nat) → τ index → String → Option StoredEntry)
    (size : Nat → String → StoredEntry → Nat) : Prop :=
  ∀ index ∈ layered.stores,
    AtomicStore (layered.backend index) (valid index) (contents index) (size index)

section Loops

variable (atomic : Atomic layered valid contents size) {key : String} {entry : StoredEntry}

include atomic

/-! ### The first loop -/

/-- **The first loop of `put_if_absent`** changes no map; where it succeeds, no backend holds another
entry. -/
theorem checkEach_atomic (key : String) (entry : StoredEntry)
    {view : Nat → String → Option StoredEntry} :
    ∀ (rest : List Nat) (s : Backends τ), (∀ index ∈ rest, index ∈ layered.stores) →
      Holds layered valid contents view s →
      Holds layered valid contents view (layered.checkEach key entry rest s).2 ∧
        ((layered.checkEach key entry rest s).1 = .ok () →
          ∀ index ∈ rest, view index key = none ∨ view index key = some entry)
  | [], s, _, holds => ⟨holds, fun _ _ member => absurd member List.not_mem_nil⟩
  | index :: rest, s, inside, holds => by
      have here := inside index List.mem_cons_self
      obtain ⟨sound, same⟩ := holds index here
      obtain ⟨later, kept, got⟩ := (atomic index here).get (s index) key sound
      have next := holds.call_same later (kept.trans same)
      have continued := checkEach_atomic key entry rest _
        (fun other member => inside other (List.mem_cons_of_mem _ member)) next
      unfold checkEach callBackend
      generalize called : (layered.backend index).get key (s index) = answered at *
      obtain ⟨answer, left⟩ := answered
      cases answer with
      | error error => exact ⟨next, fun done => by cases done⟩
      | ok answer =>
          have held : answer = view index key := (got answer rfl).trans (congrFun same key)
          rw [andThen_ok]
          cases answer with
          | none =>
              refine ⟨continued.1, fun done other member => ?_⟩
              rcases List.mem_cons.mp member with rfl | member
              · exact .inl held.symm
              · exact continued.2 done other member
          | some existing =>
              by_cases equal : existing = entry
              · subst equal
                simp only [ne_eq, not_true_eq_false, if_false]
                refine ⟨continued.1, fun done other member => ?_⟩
                rcases List.mem_cons.mp member with rfl | member
                · exact .inr held.symm
                · exact continued.2 done other member
              · simp only [ne_eq, equal, not_false_eq_true, if_true]
                exact ⟨next, fun done => by cases done⟩

/-! ### The second loop -/

/-- The maps once the listed backends have inserted. -/
def written (view : Nat → String → Option StoredEntry) (key : String) (entry : StoredEntry)
    (inserted : List Nat) (index : Nat) : String → Option StoredEntry :=
  if index ∈ inserted then Function.update (view index) key (some entry) else view index

/-- **The rollback** restores the backends that have inserted. -/
theorem rollBackEach_restores (key : String) (entry : StoredEntry)
    {view : Nat → String → Option StoredEntry} :
    ∀ (inserted : List Nat) (s : Backends τ),
      (∀ index ∈ inserted, index ∈ layered.stores ∧ view index key = none) →
      (∀ index ∈ layered.stores, valid index (s index) ∧ (contents index (s index) = view index ∨
        (index ∈ inserted ∧
          contents index (s index) = Function.update (view index) key (some entry)))) →
      Holds layered valid contents view (layered.rollBackEach key inserted s)
  | [], s, _, held => fun index member =>
      ⟨(held index member).1, (held index member).2.resolve_right
        fun inserted => absurd inserted.1 List.not_mem_nil⟩
  | index :: rest, s, fresh, held => by
      obtain ⟨here, missing⟩ := fresh index List.mem_cons_self
      obtain ⟨sound, state⟩ := held index here
      obtain ⟨later, removed⟩ := (atomic index here).remove (s index) key sound
      have restored : contents index ((layered.backend index).remove key (s index)).2 = view index := by
        rw [removed]
        rcases state with same | ⟨_, same⟩
        · rw [same, ← missing, Function.update_eq_self]
        · rw [same, Function.update_idem, ← missing, Function.update_eq_self]
      unfold rollBackEach
      refine rollBackEach_restores key entry rest _
        (fun other member => fresh other (List.mem_cons_of_mem _ member)) fun other member => ?_
      show valid other (Function.update s index _ other) ∧
        (contents other (Function.update s index _ other) = _ ∨ _ ∧
          contents other (Function.update s index _ other) = _)
      by_cases equal : other = index
      · subst equal
        rw [Function.update_self]
        exact ⟨later, .inl restored⟩
      · rw [Function.update_of_ne equal]
        refine ⟨(held other member).1, (held other member).2.imp_right ?_⟩
        rintro ⟨inserted, same⟩
        exact ⟨(List.mem_cons.mp inserted).resolve_left equal, same⟩

/-- One write of the second loop: it fails and changes nothing, or reports the size of the entry and
inserts exactly where it was missing. -/
theorem put_step {view : Nat → String → Option StoredEntry} (sized : entry.Representable)
    {inserted : List Nat} {index : Nat} {s : Backends τ} (here : index ∈ layered.stores)
    (free : view index key = none ∨ view index key = some entry)
    (holds : Holds layered valid contents (written view key entry inserted) s) :
    (∃ error after, callBackend index ((layered.backend index).putIfAbsent key entry) s =
        (.error error, after) ∧ Holds layered valid contents (written view key entry inserted) after) ∨
      ∃ flag after, callBackend index ((layered.backend index).putIfAbsent key entry) s =
          (.ok ⟨flag, size index key entry⟩, after) ∧
        (flag = true ↔ index ∉ inserted ∧ view index key = none) ∧
        Holds layered valid contents
          (written view key entry (if flag then inserted ++ [index] else inserted)) after := by
  obtain ⟨sound, same⟩ := holds index here
  by_cases missing : index ∉ inserted ∧ view index key = none
  · have own : written view key entry inserted index = view index := if_neg missing.1
    rw [own] at same
    obtain ⟨later, ended⟩ := (atomic index here).absent (s index) key entry sound sized
      (by rw [same]; exact missing.2)
    rcases ended with ⟨error, failed, kept⟩ | ⟨put, moved⟩
    · refine .inl ⟨error, _, Prod.ext failed rfl, holds.call_same later ?_⟩
      rw [kept, same, own]
    · refine .inr ⟨true, _, Prod.ext put rfl, by simpa using missing, ?_⟩
      have next := holds.call later moved
      intro other member
      obtain ⟨fine, view'⟩ := next other member
      refine ⟨fine, view'.trans ?_⟩
      unfold written
      by_cases equal : other = index
      · subst equal
        rw [Function.update_self, same, if_pos (by simp)]
      · rw [Function.update_of_ne equal]
        simp [equal]
  · have present : contents index (s index) key = some entry := by
      rw [same]
      unfold written
      split
      case isTrue _ => exact Function.update_self _ _ _
      case isFalse outside =>
        exact free.resolve_left fun absent => missing ⟨outside, absent⟩
    obtain ⟨later, kept, ended⟩ := (atomic index here).present (s index) key entry sound present
    have next := holds.call_same later (kept.trans same)
    rcases ended with ⟨error, failed⟩ | put
    · exact .inl ⟨error, _, Prod.ext failed rfl, next⟩
    · exact .inr ⟨false, _, Prod.ext put rfl, by simpa using missing, next⟩

/-- **The second loop of `put_if_absent`** inserts wherever the entry is missing, or changes nothing. -/
theorem putEach_whole {view : Nat → String → Option StoredEntry} (sized : entry.Representable)
    (free : ∀ index ∈ layered.stores, view index key = none ∨ view index key = some entry) :
    ∀ (rest inserted : List Nat) (bytes : Nat) (s : Backends τ),
      (∀ index ∈ rest, index ∈ layered.stores) →
      (∀ index ∈ inserted, index ∈ layered.stores ∧ view index key = none) →
      Holds layered valid contents (written view key entry inserted) s →
      (∀ error after, layered.putEach key entry rest inserted bytes s = (.error error, after) →
        Holds layered valid contents view after) ∧
      ∀ outcome after, layered.putEach key entry rest inserted bytes s = (.ok outcome, after) →
        ∃ done, (∀ index, index ∈ done ↔ index ∈ inserted ∨ (index ∈ rest ∧ view index key = none)) ∧
          outcome = ⟨!done.isEmpty, footprints (fun index => size index key) entry rest bytes⟩ ∧
          Holds layered valid contents (written view key entry done) after
  | [], inserted, bytes, s, _, _, holds => by
      refine ⟨fun error after failed => (by cases failed), fun outcome after put => ?_⟩
      cases put
      exact ⟨inserted, by simp, rfl, holds⟩
  | index :: rest, inserted, bytes, s, inside, fresh, holds => by
      have here := inside index List.mem_cons_self
      rcases put_step atomic sized here (free index here) holds with
        ⟨error, left, failed, kept⟩ | ⟨flag, left, put, flagged, next⟩
      · have restored := rollBackEach_restores atomic key entry inserted left fresh
          fun other member => ?_
        · unfold putEach
          rw [failed]
          refine ⟨fun error after same => ?_, fun outcome after same => (by cases same)⟩
          cases same
          exact restored
        · obtain ⟨sound, same⟩ := kept other member
          refine ⟨sound, ?_⟩
          unfold written at same
          split at same
          case isTrue inserted => exact .inr ⟨inserted, same⟩
          case isFalse _ => exact .inl same
      · have continued := putEach_whole sized free rest (if flag then inserted ++ [index] else inserted)
          (satAdd bytes (size index key entry)) left
          (fun other member => inside other (List.mem_cons_of_mem _ member)) (fun other member => ?_)
          next
        · unfold putEach
          rw [put]
          refine ⟨continued.1, fun outcome after ended => ?_⟩
          obtain ⟨done, members, same, holds⟩ := continued.2 outcome after ended
          refine ⟨done, fun other => ?_, same, holds⟩
          rw [members other, List.mem_cons]
          cases flag with
          | true =>
              obtain ⟨_, missing⟩ := flagged.mp rfl
              simp only [if_true, List.mem_append, List.mem_singleton]
              constructor
              · rintro ((before | rfl) | later)
                · exact .inl before
                · exact .inr ⟨.inl rfl, missing⟩
                · exact .inr ⟨.inr later.1, later.2⟩
              · rintro (before | ⟨rfl | member, absent⟩)
                · exact .inl (.inl before)
                · exact .inl (.inr rfl)
                · exact .inr ⟨member, absent⟩
          | false =>
              have held : view index key = none → index ∈ inserted := fun absent =>
                not_not.mp fun outside => Bool.false_ne_true (flagged.mpr ⟨outside, absent⟩)
              simp only [Bool.false_eq_true, if_false]
              constructor
              · rintro (before | later)
                · exact .inl before
                · exact .inr ⟨.inr later.1, later.2⟩
              · rintro (before | ⟨rfl | member, absent⟩)
                · exact .inl before
                · exact .inl (held absent)
                · exact .inr ⟨member, absent⟩
        · cases flag with
          | false => exact fresh other member
          | true =>
              rcases List.mem_append.mp member with member | member
              · exact fresh other member
              · rw [List.mem_singleton] at member
                subst member
                exact ⟨here, (flagged.mp rfl).2⟩

/-! ### The index -/

omit atomic in
/-- A merge that succeeds has met no mismatch. -/
theorem mergeRecords_agrees : ∀ (records : List StoreRecord) (merged after : Table String StoreRecord),
    (records.map StoreRecord.key).Nodup → mergeRecords records merged = .ok after →
    ∀ record ∈ records, ∀ current, merged.lookup record.key = some current →
      current.expiresAt = record.expiresAt ∧ current.pinned = record.pinned
  | [], _, _, _, _ => fun _ member => absurd member List.not_mem_nil
  | record :: rest, merged, after, distinct, merging => by
      rw [List.map_cons, List.nodup_cons] at distinct
      simp only [mergeRecords] at merging
      cases first : mergeRecord record merged with
      | error error =>
          rw [first] at merging
          cases merging
      | ok middle =>
          rw [first] at merging
          have later := mergeRecords_agrees rest middle after distinct.2 merging
          unfold mergeRecord at first
          intro other member current present
          rcases List.mem_cons.mp member with rfl | member
          · simp only [present] at first
            split at first
            case isTrue _ => cases first
            case isFalse agrees =>
              rw [not_or, not_not, not_not] at agrees
              exact agrees
          · have different : other.key ≠ record.key := fun same =>
              distinct.1 (List.mem_map.mpr ⟨other, member, same⟩)
            refine later other member current ?_
            cases found : merged.lookup record.key with
            | none =>
                simp only [found] at first
                cases first
                rw [lookup_insert_eq, if_neg different]
                exact present
            | some old =>
                simp only [found] at first
                split at first
                case isTrue _ => cases first
                case isFalse _ =>
                  cases first
                  rw [lookup_insert_eq, if_neg different]
                  exact present

/-- The bytes collected for a key. -/
def tally (merged : Table String StoreRecord) (key : String) : Nat :=
  ((merged.lookup key).map StoreRecord.storedBytes).getD 0

/-- Every record is listed under its own key. -/
def Named (merged : Table String StoreRecord) : Prop :=
  ∀ key record, merged.lookup key = some record → record.key = key

omit atomic in
/-- **The merge of a snapshot that lists the key** adds the bytes of its record. -/
theorem mergeRecords_tally {snapshot : StoreSnapshot} {sizes : String → StoredEntry → Nat}
    {held : String → Option StoredEntry} (lists : snapshot.Sizes sizes held)
    (present : held key = some entry) (bounded : sizes key entry ≤ u64Max)
    {merged after : Table String StoreRecord} (named : Named merged)
    (merging : mergeRecords snapshot.entries merged = .ok after) :
    Named after ∧ after.lookup key ≠ none ∧
      tally after key = satAdd (tally merged key) (sizes key entry) := by
  obtain ⟨same, again, joined, kept⟩ := mergeRecords_join snapshot.entries merged lists.nodup
    (mergeRecords_agrees snapshot.entries merged after lists.nodup merging)
  rw [merging] at again
  cases again
  obtain ⟨record, member, rfl⟩ := lists.complete key entry present
  obtain ⟨same, holds, bytes⟩ := lists.listed record member
  rw [present] at holds
  cases holds
  have here := joined record member
  refine ⟨fun other found lookup => ?_, ?_, ?_⟩
  · by_cases listed : other ∈ snapshot.entries.map StoreRecord.key
    · obtain ⟨origin, inside, rfl⟩ := List.mem_map.mp listed
      rw [joined origin inside] at lookup
      cases lookup
      cases current : merged.lookup origin.key with
      | none => rfl
      | some old => exact named origin.key old current
    · rw [kept other listed] at lookup
      exact named other found lookup
  · rw [here]
    exact Option.some_ne_none _
  · unfold tally
    rw [here]
    cases current : merged.lookup record.key with
    | none =>
        show record.storedBytes = satAdd 0 _
        rw [satAdd_of_le (by omega), zero_add, bytes]
    | some old =>
        show satAdd old.storedBytes record.storedBytes = satAdd old.storedBytes _
        rw [bytes]

/-- **The loop of `load_index` over backends that hold an entry** sums its sizes. -/
theorem loadEach_tally {view : Nat → String → Option StoredEntry} (sized : entry.Representable) :
    ∀ (rest : List Nat) (merged final : Table String StoreRecord) (corruptions total : Nat)
      (s after : Backends τ), (∀ index ∈ rest, index ∈ layered.stores) →
      (∀ index ∈ rest, view index key = some entry) → Holds layered valid contents view s →
      Named merged →
      layered.loadEach rest merged corruptions s = (.ok (final, total), after) →
      Named final ∧ (rest ≠ [] ∨ merged.lookup key ≠ none → final.lookup key ≠ none) ∧
        tally final key = footprints (fun index => size index key) entry rest (tally merged key)
  | [], merged, final, corruptions, total, s, after, _, _, _, named, loaded => by
      cases loaded
      exact ⟨named, fun found => found.resolve_left fun rest => rest rfl, rfl⟩
  | index :: rest, merged, final, corruptions, total, s, after, inside, present, holds, named,
      loaded => by
      have here := inside index List.mem_cons_self
      obtain ⟨sound, same⟩ := holds index here
      obtain ⟨later, kept, lists⟩ := (atomic index here).loadIndex (s index) sound
      have next := holds.call_same later (kept.trans same)
      unfold loadEach at loaded
      obtain ⟨snapshot, middle, called, loaded⟩ := andThen_eq_ok.mp loaded
      have answered : ((layered.backend index).loadIndex (s index)).1 = .ok snapshot :=
        congrArg Prod.fst called
      have left : Function.update s index ((layered.backend index).loadIndex (s index)).2 = middle :=
        congrArg Prod.snd called
      rw [left] at next
      cases merging : mergeRecords snapshot.entries merged with
      | error error =>
          rw [merging] at loaded
          cases loaded
      | ok joined =>
          rw [merging] at loaded
          have held : contents index (s index) key = some entry := by
            rw [same]
            exact present index List.mem_cons_self
          obtain ⟨namedJoined, found, summed⟩ := mergeRecords_tally (lists snapshot answered) held
            ((atomic index here).size_le key entry sized) named merging
          obtain ⟨namedFinal, kept, total⟩ := loadEach_tally sized rest joined final _ total middle
            after (fun other member => inside other (List.mem_cons_of_mem _ member))
            (fun other member => present other (List.mem_cons_of_mem _ member)) next namedJoined loaded
          refine ⟨namedFinal, fun _ => kept (.inr found), ?_⟩
          rw [total, summed]
          rfl

/-- **What `load_index` reports of a key** that every backend holds. -/
theorem loadIndex_tally {view : Nat → String → Option StoredEntry} (sized : entry.Representable)
    (nonempty : layered.stores ≠ []) {s : Backends τ} {snapshot : StoreSnapshot}
    (present : ∀ index ∈ layered.stores, view index key = some entry)
    (holds : Holds layered valid contents view s)
    (loaded : (layered.loadIndex s).1 = .ok snapshot) :
    (∃ record ∈ snapshot.entries, record.key = key) ∧
      ∀ record ∈ snapshot.entries, record.key = key →
        record.storedBytes = footprints (fun index => size index key) entry layered.stores 0 := by
  obtain ⟨⟨final, total⟩, after, ended, listed⟩ := andThen_eq_ok.mp
    (show layered.loadIndex s = (.ok snapshot, (layered.loadIndex s).2) from Prod.ext loaded rfl)
  cases listed
  obtain ⟨named, found, summed⟩ := loadEach_tally atomic sized layered.stores ∅ final 0 total s _
    (fun _ member => member) present holds (fun _ _ absent => nomatch absent) ended
  constructor
  · obtain ⟨record, there⟩ := Option.ne_none_iff_exists'.mp (found (.inl nonempty))
    exact ⟨record, List.mem_map.mpr ⟨_, mem_of_lookup there, rfl⟩, named key record there⟩
  · intro record member same
    obtain ⟨⟨other, stored⟩, inside, rfl⟩ := List.mem_map.mp member
    have there := lookup_of_mem inside
    have equal : other = key := (named other stored there).symm.trans same
    subst equal
    have bytes : tally final other = stored.storedBytes := by
      unfold tally
      rw [there]
      rfl
    rw [bytes] at summed
    exact summed

end Loops

/-! ### A layered write -/

/-- What a layered write sums is the sum, as far as it fits. -/
theorem footprints_eq (footprint : Nat → StoredEntry → Nat) (entry : StoredEntry) :
    ∀ (rest : List Nat) (bytes : Nat), bytes ≤ u64Max →
      footprints footprint entry rest bytes =
        min (bytes + (rest.map fun index => footprint index entry).sum) u64Max
  | [], bytes, bound => by
      rw [List.map_nil, List.sum_nil, add_zero, min_eq_left bound]
      rfl
  | index :: rest, bytes, _ => by
      show footprints footprint entry rest (satAdd bytes (footprint index entry)) = _
      rw [footprints_eq footprint entry rest _ (satAdd_le_max _ _), List.map_cons, List.sum_cons]
      unfold satAdd
      omega

/-- **A layered write is atomic**: where it fails, every backend holds what it held; where it succeeds,
every backend holds the entry, the call reports whether one lacked it, and the bytes it reports are what
the index reports: the sum of the sizes, held at the largest number of 64 bits. -/
structure WritesWhole (layered : LayeredStore τ)
    (contents : (index : Nat) → τ index → String → Option StoredEntry)
    (size : Nat → String → StoredEntry → Nat) (key : String) (entry : StoredEntry)
    (s : Backends τ) : Prop where
  failed : ∀ error after, layered.putIfAbsent key entry s = (.error error, after) →
    ∀ index ∈ layered.stores, contents index (after index) = contents index (s index)
  stored : ∀ outcome after, layered.putIfAbsent key entry s = (.ok outcome, after) →
    ∀ index ∈ layered.stores,
      contents index (after index) = Function.update (contents index (s index)) key (some entry)
  inserted : ∀ outcome after, layered.putIfAbsent key entry s = (.ok outcome, after) →
    (outcome.inserted = true ↔ ∃ index ∈ layered.stores, contents index (s index) key = none)
  bytes : ∀ outcome after, layered.putIfAbsent key entry s = (.ok outcome, after) →
    outcome.storedBytes =
      min ((layered.stores.map fun index => size index key entry).sum) u64Max
  indexed : ∀ outcome after snapshot, layered.putIfAbsent key entry s = (.ok outcome, after) →
    (layered.loadIndex after).1 = .ok snapshot →
    (∃ record ∈ snapshot.entries, record.key = key) ∧
      ∀ record ∈ snapshot.entries, record.key = key → record.storedBytes = outcome.storedBytes

/-- What a layered write leaves, in either case. -/
theorem putIfAbsent_whole (atomic : Atomic layered valid contents size) {entry : StoredEntry}
    (sized : entry.Representable) (key : String) {view : Nat → String → Option StoredEntry}
    {s : Backends τ} (start : Holds layered valid contents view s) :
    (∀ error after, layered.putIfAbsent key entry s = (.error error, after) →
      Holds layered valid contents view after) ∧
    ∀ outcome after, layered.putIfAbsent key entry s = (.ok outcome, after) →
      ∃ done, (∀ index, index ∈ done ↔ index ∈ layered.stores ∧ view index key = none) ∧
        outcome = ⟨!done.isEmpty, footprints (fun index => size index key) entry layered.stores 0⟩ ∧
        Holds layered valid contents (written view key entry done) after ∧
        ∀ index ∈ layered.stores, view index key = none ∨ view index key = some entry := by
  obtain ⟨checked, free⟩ := checkEach_atomic atomic key entry layered.stores s
    (fun _ member => member) start
  unfold putIfAbsent
  generalize layered.checkEach key entry layered.stores s = result at checked free
  obtain ⟨outcome, left⟩ := result
  cases outcome with
  | error error =>
      refine ⟨fun _ _ failed => ?_, fun _ _ put => (nomatch put)⟩
      cases failed
      exact checked
  | ok value =>
      have whole := putEach_whole atomic sized (free rfl) layered.stores [] 0 left
        (fun _ member => member) (fun _ member => absurd member List.not_mem_nil)
        (by simpa [written, Holds] using checked)
      rw [andThen_ok]
      refine ⟨whole.1, fun outcome after put => ?_⟩
      obtain ⟨done, members, same, holds⟩ := whole.2 outcome after put
      refine ⟨done, fun index => ?_, same, holds, free rfl⟩
      rw [members index]
      simp

theorem new_valid : VolatileStore.new.Valid := by
  intro key entry found
  have nothing : (none : Option StoredEntry) = some entry := found
  exact nomatch nothing

/-- A store whose writes are refused. -/
def fullStore : PersistentStore VolatileStore :=
  { volatileStore with
    putIfAbsent := fun _ _ state => (.error ⟨.other, "disk quota exceeded"⟩, state) }

theorem fullStore_atomic : AtomicStore fullStore VolatileStore.Valid VolatileStore.contents
    fun _ entry => entry.value.length :=
  { volatileStore_atomic with
    present := fun _ _ _ sound _ => ⟨sound, rfl, .inl ⟨_, rfl⟩⟩
    absent := fun _ _ _ sound _ _ => ⟨sound, .inl ⟨_, rfl, rfl⟩⟩ }

/-- A volatile store before a full one. -/
def fullBehind : LayeredStore fun _ => VolatileStore :=
  ⟨[0, 1], fun index => if index = 0 then volatileStore else fullStore⟩

/-- Three volatile stores. -/
def threeReplicas : LayeredStore fun _ => VolatileStore := ⟨[0, 1, 2], fun _ => volatileStore⟩

/-- An entry of the largest length. -/
def hugeEntry : StoredEntry := ⟨List.replicate isizeMax 0, 0, false⟩

end LayeredStore

end RivetCache
