/-
**What a cache retains of a value it has accepted.**

`ContextCache::put` succeeds whether or not it stores the value: a value too long for a tier is not offered
to it, a key that the index lists live is not written again, and making room may evict the new entry
itself. This module says exactly when a `get` right after a successful `put` answers the value.

* `LoopSpares`: no round of an eviction loop chooses the key. `evictLoop_spares`: the record of the key is
  there after the loop exactly then;
* `Slot.Written`, `put_written`: the slot of the key after a `put`, exactly;
* `Slot.answer`, `get_answer`: what `get` answers, exactly, over a store that is in step;
* `Slot.Retains`, `put_get_iff`: the condition;
* `memorySpares_lru`: what making room in memory comes to under least-recently-used eviction.
-/

import RivetCache.Cache.Coherence

set_option linter.unusedSectionVars false

namespace RivetCache

open Library

variable {σ : Type}

/-! ### Loops that spare a key -/

section Loop

variable {S : Type} (exceeds : S → Bool) (victim : Nat → S → Option EvictionCandidate)
  (evict : Nat → EvictionCandidate → S → Except IoError Unit × S)

/-- No round of the loop chooses the key. -/
def LoopSpares (key : String) : Nat → Nat → S → Prop
  | 0, _, _ => True
  | fuel + 1, round, s => exceeds s = true → ∀ candidate, victim round s = some candidate →
      candidate.key ≠ key ∧ LoopSpares key fuel (round + 1) (evict round candidate s).2

/-- **What the loop does to one key**: `kept` holds of its record until a round chooses the key, and
`gone` from then on. -/
theorem evictLoop_spares (key : String) (I kept gone : S → Prop)
    (steps : ∀ round candidate s, I s → victim round s = some candidate →
      ∃ after, evict round candidate s = (.ok (), after) ∧ I after ∧ (gone s → gone after) ∧
        (candidate.key = key → kept s → gone after) ∧ (candidate.key ≠ key → kept s → kept after)) :
    ∀ fuel round s, I s →
      (gone s → gone (evictLoop exceeds victim evict fuel round s).2) ∧
      (kept s → LoopSpares exceeds victim evict key fuel round s →
        kept (evictLoop exceeds victim evict fuel round s).2) ∧
      (kept s → ¬ LoopSpares exceeds victim evict key fuel round s →
        gone (evictLoop exceeds victim evict fuel round s).2)
  | 0, round, s, _ => ⟨id, fun held _ => held, fun _ chosen => (chosen trivial).elim⟩
  | fuel + 1, round, s, holds => by
      unfold evictLoop LoopSpares
      cases above : exceeds s with
      | false => exact ⟨id, fun held _ => held, fun _ chosen => (chosen (by simp)).elim⟩
      | true =>
          cases picked : victim round s with
          | none => exact ⟨id, fun held _ => held, fun _ chosen => (chosen (by simp)).elim⟩
          | some candidate =>
              obtain ⟨next, evicted, invariant, stays, chosen, spared⟩ :=
                steps round candidate s holds picked
              have rest := evictLoop_spares key I kept gone steps fuel (round + 1) next invariant
              have state : ∀ outcome : Except IoError Nat × S,
                  (andThen outcome fun evicted s => (.ok (satAdd evicted 1), s)).2 = outcome.2 := by
                rintro ⟨result, after⟩
                cases result <;> rfl
              simp only [if_true, evicted, andThen_ok, state, Option.some.injEq, forall_const,
                forall_eq']
              refine ⟨fun before => rest.1 (stays before), fun before spares => ?_,
                fun before unspared => ?_⟩
              · exact rest.2.1 (spared spares.1 before) spares.2
              · by_cases own : candidate.key = key
                · exact rest.1 (chosen own before)
                · exact rest.2.2 (spared own before) fun spares => unspared ⟨own, spares⟩

end Loop

namespace Slot

/-! ### Answers -/

/-- What the persistent side of a slot serves. -/
def persistentAnswer (now : Nat) (slot : Slot) : Option (List UInt8) :=
  match slot.index with
  | none => none
  | some label =>
      if isExpired label.expiresAt now then none else slot.stored.map StoredEntry.value

/-- What a slot serves: a live memory copy before a live stored entry. -/
def answer (now : Nat) (slot : Slot) : Option (List UInt8) :=
  match slot.memory with
  | none => slot.persistentAnswer now
  | some copy =>
      if isExpired copy.expiresAt now then slot.persistentAnswer now else some copy.value

variable {slot after : Slot} {entry : StoredEntry} {now later : Nat}

theorem answer_of_cold (cold : slot.Cold now) : slot.answer now = slot.persistentAnswer now := by
  unfold answer
  split
  case h_1 _ => rfl
  case h_2 copy held => rw [if_pos (cold copy held)]

theorem answer_of_memory {copy : StoredEntry} (held : slot.memory = some copy)
    (live : isExpired copy.expiresAt now = false) : slot.answer now = some copy.value := by
  unfold answer
  rw [held]
  simp [live]

theorem persistentAnswer_of_live {label : Label} (listed : slot.index = some label)
    (live : isExpired label.expiresAt now = false) :
    slot.persistentAnswer now = slot.stored.map StoredEntry.value := by
  unfold persistentAnswer
  rw [listed]
  simp [live]

/-- **`get` of a coherent slot** answers what the slot serves, where no store call fails. -/
theorem Got.answers {room : List UInt8 → Bool} {faults : StoreSite → Option IoError}
    {result : Except IoError (Option (List UInt8))} {persisting : Bool}
    (got : slot.Got room now faults result after) (works : ∀ site, faults site = none)
    (coherent : slot.Coherent persisting) : result = .ok (slot.answer now) := by
  cases got with
  | memory copy held live => rw [answer_of_memory held live]
  | absent cold unlisted =>
      rw [answer_of_cold cold]
      unfold persistentAnswer
      rw [unlisted]
  | expired cold label listed past =>
      rw [answer_of_cold cold]
      unfold persistentAnswer
      simp only [listed, past, if_true]
  | missing cold label listed live gone =>
      rw [answer_of_cold cold, persistentAnswer_of_live listed live, gone]
      rfl
  | discarded cold label listed live why =>
      rcases why with ⟨copy, held, differs⟩ | ⟨error, raised⟩
      · obtain ⟨stored, there, same⟩ := coherent.stored_some listed
        rw [held] at there
        cases there
        exact (differs same).elim
      · rw [works .read] at raised
        cases raised
  | persistent cold copy listed live held _ _ =>
      rw [answer_of_cold cold, persistentAnswer_of_live listed live, held]
      rfl
  | failed cold error site raised =>
      rw [works site] at raised
      cases raised

/-! ### The slot after a `put` -/

/-- **The slot after a `put`**, exactly. `inMemory` and `onDisk` say that making room in a tier leaves
the new entry there. -/
structure Written (fits persists : Bool) (now : Nat) (entry : StoredEntry) (inMemory onDisk : Prop)
    (slot after : Slot) : Prop where
  unfit : fits = false → after.memory = slot.memory
  remembered : fits = true → inMemory → after.memory = some entry
  forgotten : fits = true → ¬ inMemory → after.memory = none
  unoffered : (persists = true → ¬ slot.Unlisted now) →
    after.index = slot.index ∧ after.stored = slot.stored
  stored : persists = true → slot.Unlisted now → onDisk →
    after.index = some entry.label ∧ after.stored = some entry
  evicted : persists = true → slot.Unlisted now → ¬ onDisk →
    after.index = none ∧ after.stored = none

/-- A `put` that does not fit, and offers nothing to the persistent tier, leaves the slot as it is. -/
theorem Written.untouched {persists : Bool} {now : Nat} {entry : StoredEntry} {inMemory onDisk : Prop}
    {slot : Slot} (listed : persists = true → ¬ slot.Unlisted now) :
    Written false persists now entry inMemory onDisk slot slot where
  unfit _ := rfl
  remembered impossible := by cases impossible
  forgotten impossible := by cases impossible
  unoffered _ := ⟨rfl, rfl⟩
  stored active unlisted := (listed active unlisted).elim
  evicted active unlisted := (listed active unlisted).elim

/-- **Where a `put` retains its entry** for the reading `later`: in memory; or, where the entry does not
fit, memory serves the same value already; or memory serves nothing, and the entry arrives on the
persistent tier and stays, or that tier serves the same value already. -/
def Retains (fits persists : Bool) (now later : Nat) (entry : StoredEntry) (inMemory onDisk : Prop)
    (slot : Slot) : Prop :=
  (fits = true ∧ inMemory) ∨
    (fits = false ∧ ∃ copy, slot.memory = some copy ∧ isExpired copy.expiresAt later = false ∧
      copy.value = entry.value) ∨
    ((fits = true ∨ slot.Cold later) ∧
      ((persists = true ∧ slot.Unlisted now ∧ onDisk) ∨
        ((persists = true → ¬ slot.Unlisted now) ∧
          slot.persistentAnswer later = some entry.value)))

variable {fits persists : Bool} {inMemory onDisk : Prop}

/-- The persistent side serves the entry after a `put`. -/
theorem Written.persistent_iff
    (written : slot.Written fits persists now entry inMemory onDisk after)
    (unexpiring : entry.expiresAt = 0) :
    after.persistentAnswer later = some entry.value ↔
      (persists = true ∧ slot.Unlisted now ∧ onDisk) ∨
        ((persists = true → ¬ slot.Unlisted now) ∧
          slot.persistentAnswer later = some entry.value) := by
  by_cases offered : persists = true ∧ slot.Unlisted now
  · obtain ⟨active, unlisted⟩ := offered
    by_cases stays : onDisk
    · obtain ⟨index, stored⟩ := written.stored active unlisted stays
      have live : isExpired entry.label.expiresAt later = false := by
        show isExpired entry.expiresAt later = false
        rw [unexpiring]
        exact isExpired_zero later
      rw [persistentAnswer_of_live index live, stored]
      exact ⟨fun _ => Or.inl ⟨active, unlisted, stays⟩, fun _ => rfl⟩
    · obtain ⟨index, stored⟩ := written.evicted active unlisted stays
      have nothing : after.persistentAnswer later = none := by
        unfold persistentAnswer
        rw [index]
      rw [nothing]
      constructor
      · intro impossible
        cases impossible
      · rintro (⟨_, _, kept⟩ | ⟨listed, _⟩)
        · exact (stays kept).elim
        · exact (listed active unlisted).elim
  · have listed : persists = true → ¬ slot.Unlisted now := fun active unlisted =>
      offered ⟨active, unlisted⟩
    obtain ⟨index, stored⟩ := written.unoffered listed
    have same : after.persistentAnswer later = slot.persistentAnswer later := by
      unfold persistentAnswer
      rw [index, stored]
    rw [same]
    constructor
    · exact fun serves => Or.inr ⟨listed, serves⟩
    · rintro (⟨active, unlisted, _⟩ | ⟨_, serves⟩)
      · exact (offered ⟨active, unlisted⟩).elim
      · exact serves

/-- **After a `put` of an unexpiring entry its value is served exactly where it is retained.** -/
theorem Written.answer_iff
    (written : slot.Written fits persists now entry inMemory onDisk after)
    (unexpiring : entry.expiresAt = 0) :
    after.answer later = some entry.value ↔
      slot.Retains fits persists now later entry inMemory onDisk := by
  unfold Retains
  rw [← written.persistent_iff unexpiring]
  cases size : fits with
  | true =>
      by_cases stays : inMemory
      · have live : isExpired entry.expiresAt later = false := by
          rw [unexpiring]
          exact isExpired_zero later
        rw [answer_of_memory (written.remembered size stays) live]
        exact ⟨fun _ => Or.inl ⟨rfl, stays⟩, fun _ => rfl⟩
      · have empty := written.forgotten size stays
        have cold : after.Cold later := by
          intro copy held
          rw [empty] at held
          cases held
        rw [answer_of_cold cold]
        simp [stays]
  | false =>
      have memory := written.unfit size
      by_cases cold : slot.Cold later
      · have still : after.Cold later := by
          intro copy held
          exact cold copy (memory ▸ held)
        rw [answer_of_cold still]
        constructor
        · exact fun serves => Or.inr (Or.inr ⟨Or.inr cold, serves⟩)
        · rintro (⟨impossible, _⟩ | ⟨_, copy, held, live, _⟩ | ⟨_, serves⟩)
          · cases impossible
          · exact absurd (live.symm.trans (cold copy held)) (by decide)
          · exact serves
      · obtain ⟨copy, held, live⟩ : ∃ copy, slot.memory = some copy ∧
            isExpired copy.expiresAt later = false := by
          by_contra none_live
          refine cold fun copy held => ?_
          by_contra unexpired
          exact none_live ⟨copy, held, by simpa using unexpired⟩
        rw [answer_of_memory (memory.trans held) live]
        constructor
        · intro same
          exact Or.inr (Or.inl ⟨rfl, copy, held, live, Option.some_injective _ same⟩)
        · rintro (⟨impossible, _⟩ | ⟨_, other, there, _, same⟩ | ⟨impossible | warm, _⟩)
          · cases impossible
          · rw [held] at there
            cases there
            rw [same]
          · cases impossible
          · exact (cold warm).elim

end Slot

namespace ContextCache

variable {cache : ContextCache σ} {contents : σ → String → Option StoredEntry}
  {domain : String → Prop} {amb : Ambient} {s : CacheState σ} {key : String}

/-! ### Making room -/

/-- The rounds of `evict_memory_locked` leave the key alone. -/
def MemoryLoopSpares (cache : ContextCache σ) (amb : Ambient) (key : String) (s : CacheState σ) :
    Prop :=
  LoopSpares (fun s : CacheState σ => decide (cache.maxMemoryBytes < s.memoryBytes))
    (fun round s => amb.selectVictim .memory round s.memoryCandidates)
    (fun _ candidate s => evictMemoryRecord candidate s) key s.memory.entries.length 0 s

/-- The rounds of `evict_disk_locked` leave the key alone. -/
def DiskLoopSpares (cache : ContextCache σ) (amb : Ambient) (key : String) (s : CacheState σ) : Prop :=
  LoopSpares (fun s : CacheState σ => decide (cache.maxDiskBytes < s.diskBytes))
    (fun round s => amb.selectVictim .disk round s.diskCandidates)
    (cache.evictDiskRecord amb) key s.disk.entries.length 0 s

/-- Making room in memory for a new entry leaves it there. -/
def MemorySpares (cache : ContextCache σ) (amb : Ambient) (key : String) (entry : StoredEntry)
    (s : CacheState σ) : Prop :=
  cache.MemoryLoopSpares amb key
    (s.insertMemoryLocked key entry.value entry.expiresAt entry.pinned)

/-- Making room on the persistent tier for a new entry leaves it there. -/
def DiskSpares (cache : ContextCache σ) (amb : Ambient) (key : String) (entry : StoredEntry)
    (s : CacheState σ) : Prop :=
  ∀ store bytes, cache.store = some store →
    (store.putIfAbsent key entry s.store).1 = .ok ⟨true, bytes⟩ →
    cache.DiskLoopSpares amb key
      ({ s with store := (store.putIfAbsent key entry s.store).2 }.nextTick.indexRecord
        ⟨key, bytes, entry.expiresAt, entry.pinned, s.nextTick.tick⟩)

/-- A loop whose victims are never the key, as an invariant shows, spares it. -/
theorem loopSpares_of_invariant {S : Type} (exceeds : S → Bool)
    (victim : Nat → S → Option EvictionCandidate)
    (evict : Nat → EvictionCandidate → S → Except IoError Unit × S) (key : String) (I : S → Prop)
    (other : ∀ round candidate s, I s → victim round s = some candidate →
      candidate.key ≠ key ∧ I (evict round candidate s).2) :
    ∀ fuel round s, I s → LoopSpares exceeds victim evict key fuel round s
  | 0, _, _, _ => trivial
  | fuel + 1, round, s, holds => fun _ candidate chosen =>
      ⟨(other round candidate s holds chosen).1,
        loopSpares_of_invariant exceeds victim evict key I other fuel (round + 1) _
          (other round candidate s holds chosen).2⟩

/-- **A pinned entry is spared** by every policy. -/
theorem memoryLoopSpares_of_pinned (cache : ContextCache σ) (amb : Ambient)
    {record : MemoryRecord} (found : s.memory.lookup key = some record)
    (pinned : record.pinned = true) : cache.MemoryLoopSpares amb key s := by
  refine loopSpares_of_invariant _ _ _ key (fun t => t.memory.lookup key = some record)
    (fun round candidate t present chosen => ?_) _ 0 s found
  obtain ⟨victim, there, unpinned⟩ := selectVictim_memory chosen
  have other : candidate.key ≠ key := by
    intro same
    rw [same, present] at there
    cases there
    rw [pinned] at unpinned
    cases unpinned
  refine ⟨other, ?_⟩
  show (t.forgetMemory candidate.key).memory.lookup key = some record
  rw [forgetMemory_memory, lookup_erase_eq, if_neg (Ne.symm other)]
  exact present

/-- The bytes of the pinned memory records. -/
def pinnedTotal (memory : Table String MemoryRecord) : Nat :=
  total (fun record => if record.pinned then record.value.length else 0) memory

/-- An unpinned record comes on top of the pinned ones. -/
theorem pinnedTotal_add_le {memory : Table String MemoryRecord} {record : MemoryRecord}
    (found : memory.lookup key = some record) (unpinned : record.pinned = false) :
    pinnedTotal memory + record.value.length ≤ memoryTotal memory := by
  have pinned_parts := total_erase
    (fun record : MemoryRecord => if record.pinned then record.value.length else 0) found
  have parts := total_erase (fun record : MemoryRecord => record.value.length) found
  have others : total (fun record : MemoryRecord => if record.pinned then record.value.length else 0)
      (memory.erase key) ≤ total (fun record => record.value.length) (memory.erase key) :=
    total_le_total fun _ _ _ => by split <;> omega
  simp only [unpinned, Bool.false_eq_true, if_false] at pinned_parts
  unfold pinnedTotal memoryTotal
  omega

/-- The only unpinned record makes up the rest. -/
theorem memoryTotal_le_of_alone {memory : Table String MemoryRecord} {record : MemoryRecord}
    (found : memory.lookup key = some record) (unpinned : record.pinned = false)
    (alone : ∀ other copy, other ≠ key → memory.lookup other = some copy → copy.pinned = true) :
    memoryTotal memory ≤ pinnedTotal memory + record.value.length := by
  have pinned_parts := total_erase
    (fun record : MemoryRecord => if record.pinned then record.value.length else 0) found
  have parts := total_erase (fun record : MemoryRecord => record.value.length) found
  have others : total (fun record : MemoryRecord => record.value.length) (memory.erase key) ≤
      total (fun record => if record.pinned then record.value.length else 0) (memory.erase key) := by
    refine total_le_total fun other copy there => ?_
    rw [lookup_erase_eq] at there
    split at there
    case isTrue _ => cases there
    case isFalse different => rw [if_pos (alone other copy different there)]
  simp only [unpinned, Bool.false_eq_true, if_false] at pinned_parts
  unfold pinnedTotal memoryTotal
  omega

/-- Evicting an unpinned record leaves the pinned ones. -/
theorem pinnedTotal_erase {memory : Table String MemoryRecord} {record : MemoryRecord}
    (found : memory.lookup key = some record) (unpinned : record.pinned = false) :
    pinnedTotal (memory.erase key) = pinnedTotal memory := by
  have parts := total_erase
    (fun record : MemoryRecord => if record.pinned then record.value.length else 0) found
  simp only [unpinned, Bool.false_eq_true, if_false] at parts
  exact parts

/-- A least-recently-used victim was accessed no later than any unpinned record. -/
theorem selectVictim_least (lru : amb.UsesLru) {round : Nat} {victim : EvictionCandidate}
    (chosen : amb.selectVictim .memory round s.memoryCandidates = some victim) {record copy : MemoryRecord}
    (found : s.memory.lookup victim.key = some record) {other : String}
    (there : s.memory.lookup other = some copy) (unpinned : copy.pinned = false) :
    record.lastAccess ≤ copy.lastAccess := by
  have own : victim.lastAccess = record.lastAccess := by
    obtain ⟨⟨at_key, held⟩, inside, rfl⟩ := List.mem_map.mp (selectVictim_mem chosen)
    have same := (lookup_of_mem (List.mem_filter.mp inside).1).symm.trans found
    exact congrArg MemoryRecord.lastAccess (Option.some_injective _ same)
  have candidate : (⟨other, copy.lastAccess, copy.value.length⟩ : EvictionCandidate) ∈
      s.memoryCandidates :=
    List.mem_map.mpr
      ⟨⟨other, copy⟩, List.mem_filter.mpr ⟨mem_of_lookup there, by simp [unpinned]⟩, rfl⟩
  unfold Ambient.selectVictim at chosen
  rw [lru .memory round] at chosen
  split at chosen
  case h_1 _ => cases chosen
  case h_2 index picked =>
    have least := lruEviction_least picked chosen _
      ((amb.order_perm .memory round s.memoryCandidates).mem_iff.mpr candidate)
    rwa [own] at least

/-- **Least-recently-used eviction spares the newest record** exactly where it is pinned, or fits besides
the pinned ones. -/
theorem memoryLoopSpares_lru (lru : amb.UsesLru) {record : MemoryRecord}
    (found : s.memory.lookup key = some record)
    (newest : ∀ other copy, other ≠ key → s.memory.lookup other = some copy →
      copy.lastAccess < record.lastAccess)
    (counted : s.memoryBytes = memoryTotal s.memory) :
    cache.MemoryLoopSpares amb key s ↔
      record.pinned = true ∨
        pinnedTotal s.memory + record.value.length ≤ cache.maxMemoryBytes := by
  cases flag : record.pinned with
  | true => exact iff_of_true (memoryLoopSpares_of_pinned cache amb found flag) (Or.inl rfl)
  | false =>
    simp only [Bool.false_eq_true, false_or]
    -- the loop is at any round, and has evicted older records only
    suffices rounds : ∀ fuel round (t : CacheState σ), t.memory.entries.length ≤ fuel →
        t.memory.lookup key = some record →
        (∀ other copy, other ≠ key → t.memory.lookup other = some copy →
          copy.lastAccess < record.lastAccess) →
        t.memoryBytes = memoryTotal t.memory → pinnedTotal t.memory = pinnedTotal s.memory →
        (LoopSpares (fun s : CacheState σ => decide (cache.maxMemoryBytes < s.memoryBytes))
            (fun round s => amb.selectVictim .memory round s.memoryCandidates)
            (fun _ candidate s => evictMemoryRecord candidate s) key fuel round t ↔
          pinnedTotal s.memory + record.value.length ≤ cache.maxMemoryBytes) from
      rounds _ 0 s le_rfl found newest counted rfl
    intro fuel
    induction fuel with
    | zero =>
        intro round t short present _ _ _
        have shrinks := length_erase present
        omega
    | succ fuel step =>
        intro round t short present newest counted pinned
        have bound := pinnedTotal_add_le present flag
        unfold LoopSpares
        by_cases above : cache.maxMemoryBytes < t.memoryBytes
        · simp only [above, decide_true, forall_const]
          cases chosen : amb.selectVictim .memory round t.memoryCandidates with
          | none =>
              have all_pinned := memoryCandidates_eq_nil
                (selectVictim_productive (lru.productive .memory round) chosen) key record present
              rw [flag] at all_pinned
              cases all_pinned
          | some candidate =>
              simp only [Option.some.injEq, forall_eq']
              obtain ⟨victim, there, unpinned⟩ := selectVictim_memory chosen
              by_cases own : candidate.key = key
              · -- only the pinned records are left besides the newest
                have alone : ∀ other copy, other ≠ key → t.memory.lookup other = some copy →
                    copy.pinned = true := by
                  intro other copy different held
                  by_contra unpinned
                  have older := newest other copy different held
                  have least := selectVictim_least lru chosen (own ▸ present) held
                    (by simpa using unpinned)
                  omega
                have total := memoryTotal_le_of_alone present flag alone
                exact iff_of_false (fun spares => spares.1 own) (by omega)
              · have kept : (t.forgetMemory candidate.key).memory.lookup key = some record := by
                  rw [forgetMemory_memory, lookup_erase_eq, if_neg (Ne.symm own)]
                  exact present
                have shrinks := length_erase there
                have rest := step (round + 1) (evictMemoryRecord candidate t).2
                  (show (t.forgetMemory candidate.key).memory.entries.length ≤ fuel by
                    rw [forgetMemory_memory]
                    omega)
                  kept
                  (fun other copy different held => by
                    have held : (t.forgetMemory candidate.key).memory.lookup other = some copy := held
                    rw [forgetMemory_memory, lookup_erase_eq] at held
                    split at held
                    case isTrue _ => cases held
                    case isFalse _ => exact newest other copy different held)
                  (forgetMemory_counted candidate.key counted)
                  (show pinnedTotal (t.forgetMemory candidate.key).memory = _ by
                    rw [forgetMemory_memory, pinnedTotal_erase there unpinned, pinned])
                rw [← rest]
                exact ⟨fun spares => spares.2, fun spares => ⟨own, spares⟩⟩
        · refine iff_of_true (fun exceeds => ?_) (by omega)
          exact absurd (of_decide_eq_true exceeds) above

/-- **Least-recently-used eviction leaves a new entry in memory** exactly where it is pinned, or fits besides
the other keys' pinned records. -/
theorem memorySpares_lru (lru : amb.UsesLru) (entry : StoredEntry)
    (recent : ∀ other copy, s.memory.lookup other = some copy → copy.lastAccess ≤ s.tick)
    (ticks : s.tick < u64Max) (counted : s.memoryBytes = memoryTotal s.memory)
    (room : MemoryRoom key entry.value s) :
    cache.MemorySpares amb key entry s ↔
      entry.pinned = true ∨
        pinnedTotal (s.memory.erase key) + entry.value.length ≤ cache.maxMemoryBytes := by
  have memory : (s.insertMemoryLocked key entry.value entry.expiresAt entry.pinned).memory =
      (s.memory.erase key).insert key
        ⟨entry.value, entry.expiresAt, entry.pinned, satAdd s.tick 1⟩ := by
    unfold CacheState.insertMemoryLocked
    simp only [CacheState.nextTick_memory, forgetMemory_memory, CacheState.nextTick_tick,
      forgetMemory_tick]
  have absent : (s.memory.erase key).lookup key = none := AList.lookup_erase key s.memory
  have own : (s.insertMemoryLocked key entry.value entry.expiresAt entry.pinned).memory.lookup key =
      some ⟨entry.value, entry.expiresAt, entry.pinned, satAdd s.tick 1⟩ := by
    rw [memory, AList.lookup_insert]
  unfold MemorySpares
  rw [memoryLoopSpares_lru lru own ?_ (insertMemoryLocked_counted _ _ counted room)]
  · show entry.pinned = true ∨ _ + entry.value.length ≤ _ ↔ _
    cases flag : entry.pinned with
    | true => simp
    | false =>
        have others : pinnedTotal
            (s.insertMemoryLocked key entry.value entry.expiresAt false).memory =
            pinnedTotal (s.memory.erase key) := by
          rw [flag] at memory
          rw [memory]
          unfold pinnedTotal
          rw [total_insert_absent _ absent]
          simp
        rw [others]
  · intro other copy different held
    rw [memory, lookup_insert_eq, if_neg different, lookup_erase_eq, if_neg different] at held
    exact (recent other copy held).trans_lt (lt_satAdd_one ticks)

/-- **`evict_memory_locked` and one key.** -/
theorem evictMemoryLocked_own (cache : ContextCache σ)
    (contents : σ → String → Option StoredEntry) (amb : Ambient) (key : String)
    (s : CacheState σ) :
    ∃ evicted after, cache.evictMemoryLocked amb s = (.ok evicted, after) ∧
      (cache.MemoryLoopSpares amb key s →
        cache.slot contents after key = cache.slot contents s key) ∧
      (¬ cache.MemoryLoopSpares amb key s →
        cache.slot contents after key = (cache.slot contents s key).forget) := by
  obtain ⟨evicted, after, done, _⟩ := evictMemoryLocked_fading cache contents amb s
  refine ⟨evicted, after, done, ?_⟩
  have effect := evictLoop_spares
    (fun s : CacheState σ => decide (cache.maxMemoryBytes < s.memoryBytes))
    (fun round s => amb.selectVictim .memory round s.memoryCandidates)
    (fun _ candidate s => evictMemoryRecord candidate s) key (fun _ => True)
    (fun t => cache.slot contents t key = cache.slot contents s key)
    (fun t => cache.slot contents t key = (cache.slot contents s key).forget)
    (fun round candidate t _ _ => by
      have moved : cache.slot contents (evictMemoryRecord candidate t).2 key =
          if key = candidate.key then (cache.slot contents t key).forget
          else cache.slot contents t key := slot_forgetMemory t candidate.key key
      refine ⟨_, rfl, trivial, fun gone => moved.trans ?_, fun own held => moved.trans ?_,
        fun other held => moved.trans ?_⟩
      · rw [gone]
        split <;> rfl
      · rw [if_pos own.symm, held]
      · rw [if_neg (Ne.symm other), held])
    s.memory.entries.length 0 s trivial
  have state : (evictLoop (fun s : CacheState σ => decide (cache.maxMemoryBytes < s.memoryBytes))
      (fun round s => amb.selectVictim .memory round s.memoryCandidates)
      (fun _ candidate s => evictMemoryRecord candidate s) s.memory.entries.length 0 s).2 = after :=
    congrArg Prod.snd done
  rw [state] at effect
  exact ⟨effect.2.1 rfl, effect.2.2 rfl⟩

/-- **`evict_disk_locked` and one key.** -/
theorem evictDiskLocked_own (backed : cache.Backed contents domain) (quiet : amb.Quiet)
    (indexed : Indexed domain s) (key : String) :
    ∃ evicted after, cache.evictDiskLocked amb s = (.ok evicted, after) ∧
      (cache.DiskLoopSpares amb key s →
        cache.slot contents after key = cache.slot contents s key) ∧
      (¬ cache.DiskLoopSpares amb key s →
        cache.slot contents after key = (cache.slot contents s key).drop) := by
  obtain ⟨evicted, after, done, _⟩ := evictDiskLocked_fading backed quiet indexed
  refine ⟨evicted, after, done, ?_⟩
  have effect := evictLoop_spares
    (fun s : CacheState σ => decide (cache.maxDiskBytes < s.diskBytes))
    (fun round s => amb.selectVictim .disk round s.diskCandidates)
    (cache.evictDiskRecord amb) key (Indexed domain)
    (fun t => cache.slot contents t key = cache.slot contents s key)
    (fun t => cache.slot contents t key = (cache.slot contents s key).drop)
    (fun round candidate t listed chosen => by
      obtain ⟨record, found, _⟩ := selectVictim_disk chosen
      have inside := listed candidate.key record found
      obtain ⟨next, evicted_ok, removed⟩ :=
        evictDiskRecord_ok found (backed.removable (quiet.removeVictim round) inside t)
      have moved := removed.slot backed inside key
      refine ⟨next, evicted_ok, fun other kept present => ?_, fun gone => ?_, fun own held => ?_,
        fun other held => ?_⟩
      · rw [removed.disk, lookup_erase_eq] at present
        split at present
        · cases present
        · exact listed other kept present
      · rw [moved, gone]
        split <;> rfl
      · rw [moved, if_pos own.symm, held]
      · rw [moved, if_neg (Ne.symm other), held])
    s.disk.entries.length 0 s indexed
  have state : (evictLoop (fun s : CacheState σ => decide (cache.maxDiskBytes < s.diskBytes))
      (fun round s => amb.selectVictim .disk round s.diskCandidates)
      (cache.evictDiskRecord amb) s.disk.entries.length 0 s).2 = after := congrArg Prod.snd done
  rw [state] at effect
  exact ⟨effect.2.1 rfl, effect.2.2 rfl⟩

/-! ### The slot after a `put` -/

/-- The memory half of `put`. -/
theorem admitMemory_own (cache : ContextCache σ)
    (contents : σ → String → Option StoredEntry) (amb : Ambient) (key : String)
    (entry : StoredEntry) (s : CacheState σ) :
    ∃ evicted after, cache.admitMemory amb key entry s = (.ok evicted, after) ∧
      (cache.slot contents after key).index = (cache.slot contents s key).index ∧
      (cache.slot contents after key).stored = (cache.slot contents s key).stored ∧
      (cache.fitsMemory entry.value = false →
        (cache.slot contents after key).memory = (cache.slot contents s key).memory) ∧
      (cache.fitsMemory entry.value = true → cache.MemorySpares amb key entry s →
        (cache.slot contents after key).memory = some entry) ∧
      (cache.fitsMemory entry.value = true → ¬ cache.MemorySpares amb key entry s →
        (cache.slot contents after key).memory = none) := by
  unfold admitMemory
  cases fits : cache.fitsMemory entry.value with
  | false =>
      exact ⟨0, s, rfl, rfl, rfl, fun _ => rfl, fun impossible => (by cases impossible),
        fun impossible => (by cases impossible)⟩
  | true =>
      obtain ⟨evicted, after, done, spared, chosen⟩ := evictMemoryLocked_own cache contents amb key
        (s.insertMemoryLocked key entry.value entry.expiresAt entry.pinned)
      have inserted := @slot_insertMemoryLocked σ cache contents s key entry key
      rw [if_pos rfl] at inserted
      rw [inserted] at spared chosen
      rw [if_pos rfl]
      by_cases spares : cache.MemorySpares amb key entry s
      · have effect := spared spares
        refine ⟨evicted, after, done, ?_, ?_, fun impossible => (by cases impossible),
          fun _ _ => ?_, fun _ unspared => (unspared spares).elim⟩
        · rw [effect]
          rfl
        · rw [effect]
          rfl
        · rw [effect]
          rfl
      · have effect := chosen spares
        refine ⟨evicted, after, done, ?_, ?_, fun impossible => (by cases impossible),
          fun _ yes => (spares yes).elim, fun _ _ => ?_⟩
        · rw [effect]
          rfl
        · rw [effect]
          rfl
        · rw [effect]
          rfl

/-- The write to the store of a key that neither the index nor the store holds. -/
theorem writePersistent_own (backed : cache.Backed contents domain) (faultless : amb.Faultless)
    (indexed : Indexed domain s) {store : PersistentStore σ} (injected : cache.store = some store)
    (inside : domain key) (entry : StoredEntry) (absent : s.disk.lookup key = none)
    (fresh : contents s.store key = none) :
    ∃ evictions after, cache.writePersistent amb store key entry s = (.ok evictions, after) ∧
      (cache.DiskSpares amb key entry s →
        cache.slot contents after key = (cache.slot contents s key).write entry) ∧
      (¬ cache.DiskSpares amb key entry s →
        cache.slot contents after key = ((cache.slot contents s key).write entry).drop) := by
  obtain ⟨⟨bytes, inserted⟩, updated⟩ :=
    (backed.mapLike store injected).absent s.store key entry inside fresh
  have listed := slot_indexRecord injected entry absent fresh updated bytes s.nextTick.tick key
  rw [if_pos rfl] at listed
  have still : Indexed domain ({ s with store := (store.putIfAbsent key entry s.store).2
      }.nextTick.indexRecord ⟨key, bytes, entry.expiresAt, entry.pinned, s.nextTick.tick⟩) := by
    intro other record found
    have found : (s.disk.insert key _).lookup other = some record := found
    rw [lookup_insert_eq] at found
    split at found
    case isTrue same => exact same ▸ inside
    case isFalse _ => exact indexed other record found
  obtain ⟨evictions, after, done, spared, chosen⟩ :=
    evictDiskLocked_own backed faultless.quiet still key
  rw [listed] at spared chosen
  have iff : cache.DiskSpares amb key entry s ↔ cache.DiskLoopSpares amb key
      ({ s with store := (store.putIfAbsent key entry s.store).2 }.nextTick.indexRecord
        ⟨key, bytes, entry.expiresAt, entry.pinned, s.nextTick.tick⟩) := by
    constructor
    · exact fun spares => spares store bytes injected inserted
    · intro spares other stored same answered
      rw [injected] at same
      cases same
      rw [inserted] at answered
      cases answered
      exact spares
  rw [iff]
  refine ⟨evictions, after, ?_, spared, chosen⟩
  unfold writePersistent callStore
  simp only [faultless .write, inserted, andThen_ok, if_true]
  exact done

/-- **The persistent half of `put`**, exactly. -/
theorem putPersistent_own (backed : cache.Backed contents domain) (faultless : amb.Faultless)
    (coherent : cache.AllCoherent contents s) (inside : domain key) (entry : StoredEntry) :
    ∃ counts after, cache.putPersistent amb key entry s = (.ok counts, after) ∧
      (cache.slot contents s key).Written false (cache.persistsValue entry.value) amb.now entry True
        (cache.DiskSpares amb key entry (cache.dropExpired amb key s).2)
        (cache.slot contents after key) := by
  have indexed := coherent.indexed backed
  unfold putPersistent
  split
  case isFalse small =>
    have refused : cache.persistsValue entry.value = false := by
      unfold persistsValue
      rw [Bool.not_eq_true] at small
      rw [small]
      rfl
    rw [refused]
    exact ⟨(0, 0), s, rfl, Slot.Written.untouched (by simp)⟩
  case isTrue fits =>
    split
    case h_1 none_injected =>
      have refused : cache.persistsValue entry.value = false := by
        unfold persistsValue
        rw [none_injected, fits]
        rfl
      rw [refused]
      exact ⟨(0, 0), s, rfl, Slot.Written.untouched (by simp)⟩
    case h_2 store injected =>
      have admitted : cache.persistsValue entry.value = true := by
        unfold persistsValue
        rw [injected, fits]
        rfl
      obtain ⟨expirations, t, dropped, purged, _, state⟩ :=
        dropExpired_slot backed faultless.quiet indexed key
      have persisting := persists_of_persistsValue admitted
      have agree := coherent key
      rw [persisting] at agree
      simp only [dropped, andThen_ok]
      rw [admitted]
      cases found : t.disk.lookup key with
      | some record =>
          have listed : (cache.slot contents t key).index = some record.label := by
            show (t.disk.lookup key).map StoreRecord.label = _
            rw [found]
            rfl
          rw [purged.own] at listed
          obtain ⟨unpurged, live⟩ := Slot.purge_listed listed
          refine ⟨(expirations, 0), t, rfl, ?_⟩
          rw [purged.own, unpurged]
          refine Slot.Written.untouched fun _ unlisted => ?_
          rw [unpurged] at listed
          exact absurd (live.symm.trans (unlisted record.label listed)) (by decide)
      | none =>
          have unlisted : (cache.slot contents t key).index = none :=
            (slot_index_none cache contents).mpr found
          have gone : (cache.slot contents t key).stored = none := by
            rw [purged.own] at unlisted ⊢
            exact (agree.purge amb.now).stored_none unlisted
          have fresh : contents t.store key = none := by
            have absent : cache.held contents t key = none := gone
            unfold held at absent
            rwa [injected] at absent
          have still : Indexed domain t := by
            intro other record found
            rcases state with rfl | ⟨disk, _⟩
            · exact indexed other record found
            · rw [disk, lookup_erase_eq] at found
              split at found
              · cases found
              · exact indexed other record found
          have offered : (cache.slot contents s key).Unlisted amb.now :=
            Slot.unlisted_of_purge (purged.own ▸ unlisted)
          have memory : (cache.slot contents t key).memory = (cache.slot contents s key).memory := by
            rw [purged.own]
            exact Slot.purge_memory amb.now
          obtain ⟨evictions, after, done, spared, chosen⟩ :=
            writePersistent_own backed faultless still injected inside entry found fresh
          have arrived : ((cache.slot contents t key).write entry).index = some entry.label ∧
              ((cache.slot contents t key).write entry).stored = some entry := by
            unfold Slot.write
            rw [unlisted, gone]
            exact ⟨rfl, rfl⟩
          refine ⟨(expirations, evictions), after, ?_, ⟨fun _ => ?_,
            fun impossible => (by cases impossible), fun impossible => (by cases impossible),
            fun refused => (refused rfl offered).elim, fun _ _ stays => ?_, fun _ _ evicted => ?_⟩⟩
          · simp only [done, andThen_ok]
          · by_cases stays : cache.DiskSpares amb key entry t
            · rw [spared stays, Slot.write_memory, memory]
            · rw [chosen stays, Slot.drop_memory, Slot.write_memory, memory]
          · rw [spared stays]
            exact arrived
          · rw [chosen evicted]
            exact ⟨rfl, rfl⟩

/-- **`put`**, exactly: the slot of its key, where no store call fails. -/
theorem put_written (backed : cache.Backed contents domain) (faultless : amb.Faultless)
    (coherent : cache.AllCoherent contents s) (accepted : cache.keyStrategy.Accepts key)
    {value : List UInt8} (nonempty : value ≠ []) (ttl : Option Duration) (pinned : Bool) :
    ∃ after, cache.put amb key value ttl pinned s = (.ok (), after) ∧
      (cache.slot contents s key).Written (cache.fitsMemory value) (cache.persistsValue value)
        amb.now (cache.putEntry amb value ttl pinned)
        (cache.MemorySpares amb key (cache.putEntry amb value ttl pinned)
          (cache.putPersistent amb key (cache.putEntry amb value ttl pinned) s).2)
        (cache.DiskSpares amb key (cache.putEntry amb value ttl pinned)
          (cache.dropExpired amb key s).2)
        (cache.slot contents after key) := by
  have filled : value.isEmpty = false := by
    cases value with
    | nil => exact (nonempty rfl).elim
    | cons _ _ => rfl
  obtain ⟨counts, middle, persisted, first⟩ := putPersistent_own backed faultless coherent
    (backed.accepts key accepted) (cache.putEntry amb value ttl pinned)
  obtain ⟨evictions, after, remembered, index, stored, unfit, spared, chosen⟩ :=
    admitMemory_own cache contents amb key (cache.putEntry amb value ttl pinned) middle
  have memory := first.unfit rfl
  obtain ⟨final, done, same_memory, same_disk, same_store⟩ : ∃ final,
      cache.put amb key value ttl pinned s = (.ok (), final) ∧ final.memory = after.memory ∧
        final.disk = after.disk ∧ final.store = after.store := by
    unfold put
    unfold KeyStrategy.Accepts at accepted
    simp only [accepted, filled, Bool.false_eq_true, if_false, persisted, remembered, andThen_ok]
    refine ⟨_, rfl, ?_⟩
    simp only [CacheState.record_memory, CacheState.record_disk, CacheState.record_store,
      CacheState.recordCount_memory, CacheState.recordCount_disk, CacheState.recordCount_store,
      CacheState.count_memory, CacheState.count_disk, CacheState.count_store, and_self]
  refine ⟨final, done, ?_⟩
  rw [persisted, slot_eq cache contents same_memory same_disk (congrArg contents same_store) key]
  exact ⟨fun small => (unfit small).trans memory, spared, chosen,
    fun listed => ⟨index.trans (first.unoffered listed).1, stored.trans (first.unoffered listed).2⟩,
    fun active unlisted stays => ⟨index.trans (first.stored active unlisted stays).1,
      stored.trans (first.stored active unlisted stays).2⟩,
    fun active unlisted evicted => ⟨index.trans (first.evicted active unlisted evicted).1,
      stored.trans (first.evicted active unlisted evicted).2⟩⟩

/-- **`get`**, exactly: where no store call fails it answers what the slot of the key serves. -/
theorem get_answer (backed : cache.Backed contents domain) (faultless : amb.Faultless)
    (coherent : cache.AllCoherent contents s) (accepted : cache.keyStrategy.Accepts key) :
    (cache.get amb key s).1 = .ok ((cache.slot contents s key).answer amb.now) := by
  obtain ⟨result, after, done, touches, _⟩ := get_slot backed faultless.quiet accepted s
  rw [done]
  exact touches.own.answers faultless (coherent key)

/-- A `put` that succeeds is of an accepted key. -/
theorem accepts_of_put {value : List UInt8} {ttl : Option Duration} {pinned : Bool}
    (succeeded : (cache.put amb key value ttl pinned s).1 = .ok ()) :
    cache.keyStrategy.Accepts key := by
  unfold put at succeeded
  split at succeeded
  case h_1 _ _ => cases succeeded
  case h_2 valid => exact valid

/-- **Where a cache retains a value** that a `put` with a zero TTL offers it, for a reading at `later`. -/
def Retains (cache : ContextCache σ) (contents : σ → String → Option StoredEntry) (amb : Ambient)
    (later : Nat) (key : String) (value : List UInt8) (pinned : Bool) (s : CacheState σ) : Prop :=
  (cache.slot contents s key).Retains (cache.fitsMemory value) (cache.persistsValue value) amb.now
    later ⟨value, 0, pinned⟩
    (cache.MemorySpares amb key ⟨value, 0, pinned⟩
      (cache.putPersistent amb key ⟨value, 0, pinned⟩ s).2)
    (cache.DiskSpares amb key ⟨value, 0, pinned⟩ (cache.dropExpired amb key s).2)

/-- **A `get` right after a `put` answers its value exactly where the cache retains it.** -/
theorem put_get_iff (backed : cache.Backed contents domain) (faultless : amb.Faultless)
    {next : Ambient} (next_faultless : next.Faultless) (coherent : cache.AllCoherent contents s)
    (accepted : cache.keyStrategy.Accepts key) {value : List UInt8} (nonempty : value ≠ [])
    (pinned : Bool) :
    (cache.get next key (cache.put amb key value (some Duration.zero) pinned s).2).1 =
        .ok (some value) ↔
      cache.Retains contents amb next.now key value pinned s := by
  obtain ⟨after, done, written⟩ :=
    put_written backed faultless coherent accepted nonempty (some Duration.zero) pinned
  have quiet : (Call.put amb key value (some Duration.zero) pinned).ambient.Quiet := faultless.quiet
  have stays := step_coherent backed quiet coherent
  change cache.AllCoherent contents (cache.put amb key value (some Duration.zero) pinned s).2 at stays
  rw [get_answer backed next_faultless stays accepted, Except.ok.injEq, done]
  exact written.answer_iff rfl

end ContextCache

end RivetCache
