/-
**What the eviction loops do, whatever the policy answers.**

A loop of evictions is a sequence of rounds. In every round the tier is over its capacity and the policy has
picked an unpinned record; the loop ends within capacity, or in a round in which the policy answers nothing or
an index out of range (`DeclinesToChoose`), or with the error of a store that cannot remove a record. The
policy may answer differently in every round, and so may the iteration of the hash map.

* `evictLoop_cases`: the rounds of a loop, and how it ends; more fuel makes no difference;
* `Swept`: the records of the victims are gone, none of them was pinned, and the others are as they were;
* `evict_safe`: both loops. A store that fails ends the second one above its capacity
  (`evictDiskLocked_interrupted`).
-/

import RivetCache.Cache.Accounting

set_option linter.unusedSectionVars false

namespace RivetCache

open Library

variable {σ : Type}

/-! ### The rounds of a loop -/

section Loop

variable {S : Type} (exceeds : S → Bool) (victim : Nat → S → Option EvictionCandidate)
  (evict : Nat → EvictionCandidate → S → Except IoError Unit × S)

/-- Rounds of the loop: in each of them the tier is over its capacity and a victim is evicted. -/
inductive Rounds : Nat → S → List EvictionCandidate → Nat → S → Prop
  | nil (round : Nat) (s : S) : Rounds round s [] round s
  | cons {round last : Nat} {s middle after : S} {candidate : EvictionCandidate}
      {victims : List EvictionCandidate} (above : exceeds s = true)
      (chosen : victim round s = some candidate)
      (evicted : evict round candidate s = (.ok (), middle))
      (others : Rounds (round + 1) middle victims last after) :
      Rounds round s (candidate :: victims) last after

/-- How a loop ends: within capacity, without a victim, or with an error. -/
inductive LoopEnds (round : Nat) (s : S) : Except IoError Nat → S → List EvictionCandidate → Prop
  | settled {victims : List EvictionCandidate} {last : Nat} {after : S}
      (rounds : Rounds exceeds victim evict round s victims last after)
      (done : exceeds after = false ∨ victim last after = none) :
      LoopEnds round s (.ok (min victims.length u64Max)) after victims
  | failed {victims : List EvictionCandidate} {last : Nat} {middle after : S}
      {candidate : EvictionCandidate} {error : IoError}
      (rounds : Rounds exceeds victim evict round s victims last middle)
      (above : exceeds middle = true) (chosen : victim last middle = some candidate)
      (raised : evict last candidate middle = (.error error, after)) :
      LoopEnds round s (.error error) after victims

variable {exceeds victim evict}

/-- One round before the others. -/
theorem LoopEnds.cons {round : Nat} {s middle after : S} {candidate : EvictionCandidate}
    {result : Except IoError Nat} {victims : List EvictionCandidate} (above : exceeds s = true)
    (chosen : victim round s = some candidate) (evicted : evict round candidate s = (.ok (), middle))
    (ends : LoopEnds exceeds victim evict (round + 1) middle result after victims) :
    LoopEnds exceeds victim evict round s (result.map fun more => satAdd more 1) after
      (candidate :: victims) := by
  cases ends with
  | settled rounds done =>
      have counted : satAdd (min victims.length u64Max) 1 = min (candidate :: victims).length u64Max := by
        unfold satAdd
        rw [List.length_cons]
        omega
      show LoopEnds _ _ _ _ _ (.ok (satAdd (min victims.length u64Max) 1)) _ _
      rw [counted]
      exact .settled (.cons above chosen evicted rounds) done
  | failed rounds beyond picked raised => exact .failed (.cons above chosen evicted rounds) beyond picked raised

variable (exceeds victim evict) in
/-- **The rounds of a loop**, where every eviction that succeeds shrinks the tier: fuel for every record
suffices. The induction is on the fuel. -/
theorem evictLoop_cases (size : S → Nat)
    (filled : ∀ round candidate s, victim round s = some candidate → 0 < size s)
    (shrinks : ∀ round candidate s after, victim round s = some candidate →
      evict round candidate s = (.ok (), after) → size after < size s) :
    ∀ fuel round s, size s ≤ fuel → ∃ result after victims,
      (∀ more, evictLoop exceeds victim evict (fuel + more) round s = (result, after)) ∧
        LoopEnds exceeds victim evict round s result after victims := by
  intro fuel
  induction fuel with
  | zero =>
      intro round s enough
      have nothing : victim round s = none := by
        cases chosen : victim round s with
        | none => rfl
        | some candidate =>
            have some_record := filled round candidate s chosen
            omega
      refine ⟨.ok 0, s, [], fun more => ?_, .settled (.nil round s) (Or.inr nothing)⟩
      cases more with
      | zero => rfl
      | succ more =>
          unfold evictLoop
          rw [nothing, ite_self]
  | succ fuel ih =>
      intro round s enough
      have unfolded : ∀ more, evictLoop exceeds victim evict (fuel + 1 + more) round s =
          evictLoop exceeds victim evict (fuel + more + 1) round s := fun more => by
        rw [Nat.add_right_comm]
      cases above : exceeds s with
      | false =>
          refine ⟨.ok 0, s, [], fun more => ?_, .settled (.nil round s) (Or.inl above)⟩
          rw [unfolded]
          unfold evictLoop
          rw [above]
          rfl
      | true =>
          cases chosen : victim round s with
          | none =>
              refine ⟨.ok 0, s, [], fun more => ?_, .settled (.nil round s) (Or.inr chosen)⟩
              rw [unfolded]
              unfold evictLoop
              rw [chosen, ite_self]
          | some candidate =>
              rcases evicted : evict round candidate s with ⟨error | _, middle⟩
              case error =>
                refine ⟨.error error, middle, [], fun more => ?_, .failed (.nil round s) above chosen evicted⟩
                rw [unfolded]
                unfold evictLoop
                rw [above, chosen, if_pos rfl]
                dsimp only
                rw [evicted, andThen_error]
              case ok =>
                have smaller := shrinks round candidate s middle chosen evicted
                obtain ⟨result, after, victims, runs, ends⟩ := ih (round + 1) middle (by omega)
                refine ⟨result.map fun more => satAdd more 1, after, candidate :: victims, fun more => ?_,
                  ends.cons above chosen evicted⟩
                rw [unfolded]
                unfold evictLoop
                rw [above, chosen, if_pos rfl]
                dsimp only
                rw [evicted, andThen_ok, runs more]
                cases result <;> rfl

end Loop

/-! ### The records that are left -/

/-- **The victims are swept out of a table**: none of their records was pinned, and every other record is as
it was. -/
structure Swept {V : Type} (pinned : V → Bool) (victims : List EvictionCandidate)
    (before after : Table String V) : Prop where
  unpinned : ∀ candidate ∈ victims, ∃ record,
    before.lookup candidate.key = some record ∧ pinned record = false
  left : ∀ key, after.lookup key =
    if key ∈ victims.map EvictionCandidate.key then none else before.lookup key

section

variable {V : Type} {pinned : V → Bool} {victims : List EvictionCandidate}
  {before middle after : Table String V} {candidate : EvictionCandidate} {record : V}

theorem Swept.nil (table : Table String V) : Swept pinned [] table table where
  unpinned _ mem := by cases mem
  left _ := rfl

/-- One victim before the others. -/
theorem Swept.cons (found : before.lookup candidate.key = some record) (loose : pinned record = false)
    (swept : Swept pinned victims (before.erase candidate.key) after) :
    Swept pinned (candidate :: victims) before after where
  unpinned other mem := by
    rcases List.mem_cons.mp mem with rfl | later
    · exact ⟨record, found, loose⟩
    · obtain ⟨copy, there, unpinned⟩ := swept.unpinned other later
      rw [lookup_erase_eq] at there
      split at there
      · cases there
      · exact ⟨copy, there, unpinned⟩
  left key := by
    rw [swept.left, lookup_erase_eq, List.map_cons]
    simp only [List.mem_cons]
    by_cases same : key = candidate.key
    · rw [if_pos same, if_pos (Or.inl same), ite_self]
    · simp only [same, false_or, if_false]

/-- One victim after the others. -/
theorem Swept.snoc (swept : Swept pinned victims before middle)
    (found : middle.lookup candidate.key = some record) (loose : pinned record = false) :
    Swept pinned (victims ++ [candidate]) before (middle.erase candidate.key) where
  unpinned other mem := by
    rcases List.mem_append.mp mem with earlier | last
    · exact swept.unpinned other earlier
    · rw [List.mem_singleton.mp last]
      rw [swept.left] at found
      split at found
      · cases found
      · exact ⟨record, found, loose⟩
  left key := by
    rw [lookup_erase_eq, swept.left, List.map_append, List.map_singleton]
    simp only [List.mem_append, List.mem_singleton]
    by_cases same : key = candidate.key
    · rw [if_pos same, if_pos (Or.inr same)]
    · simp only [same, or_false, if_false]

/-- **Pinned records stay.** -/
theorem Swept.pinned_stay (swept : Swept pinned victims before after) {key : String}
    (found : before.lookup key = some record) (held : pinned record = true) :
    after.lookup key = some record := by
  rw [swept.left, if_neg, found]
  intro evicted
  obtain ⟨candidate, mem, rfl⟩ := List.mem_map.mp evicted
  obtain ⟨copy, there, loose⟩ := swept.unpinned candidate mem
  rw [found] at there
  cases there
  rw [held] at loose
  cases loose

end

/-! ### The two loops -/

/-- The policy answers nothing, or an index out of range. -/
def Ambient.DeclinesToChoose (amb : Ambient) (tier : CacheTier) (round : Nat)
    (candidates : List EvictionCandidate) : Prop :=
  (amb.policy tier round).chooseVictim (amb.order tier round candidates) = none ∨
    ∃ index, (amb.policy tier round).chooseVictim (amb.order tier round candidates) = some index ∧
      candidates.length ≤ index

/-- No victim is picked where the policy declines. -/
theorem selectVictim_none {amb : Ambient} {tier : CacheTier} {round : Nat}
    {candidates : List EvictionCandidate} :
    amb.selectVictim tier round candidates = none ↔ amb.DeclinesToChoose tier round candidates := by
  have length := (amb.order_perm tier round candidates).length_eq
  unfold Ambient.selectVictim Ambient.DeclinesToChoose
  cases answer : (amb.policy tier round).chooseVictim (amb.order tier round candidates) with
  | none => exact iff_of_true rfl (Or.inl rfl)
  | some index =>
      dsimp only
      rw [List.getElem?_eq_none_iff, length]
      constructor
      · exact fun beyond => Or.inr ⟨index, rfl, beyond⟩
      · rintro (none_picked | ⟨other, same, beyond⟩)
        · cases none_picked
        · cases same
          exact beyond

namespace ContextCache

variable {cache : ContextCache σ} {amb : Ambient}

/-- The rounds of `evict_memory_locked`. -/
abbrev MemoryRounds (cache : ContextCache σ) (amb : Ambient) :=
  Rounds (fun s : CacheState σ => decide (cache.maxMemoryBytes < s.memoryBytes))
    (fun round s => amb.selectVictim .memory round s.memoryCandidates)
    (fun _ candidate s => evictMemoryRecord candidate s)

/-- The rounds of `evict_disk_locked`. -/
abbrev DiskRounds (cache : ContextCache σ) (amb : Ambient) :=
  Rounds (fun s : CacheState σ => decide (cache.maxDiskBytes < s.diskBytes))
    (fun round s => amb.selectVictim .disk round s.diskCandidates) (cache.evictDiskRecord amb)

/-- **The rounds in memory** sweep the victims out, and keep the counter exact. -/
theorem MemoryRounds.swept {round last : Nat} {s after : CacheState σ}
    {victims : List EvictionCandidate} (rounds : cache.MemoryRounds amb round s victims last after)
    (counted : s.memoryBytes = memoryTotal s.memory) :
    Swept MemoryRecord.pinned victims s.memory after.memory ∧
      after.memoryBytes = memoryTotal after.memory := by
  induction rounds with
  | nil round s => exact ⟨.nil s.memory, counted⟩
  | @cons round last s middle after candidate victims above chosen evicted _ ih =>
      obtain ⟨record, found, unpinned⟩ := selectVictim_memory chosen
      obtain rfl : (evictMemoryRecord candidate s).2 = middle := congrArg Prod.snd evicted
      obtain ⟨swept, exact_count⟩ := ih (forgetMemory_counted candidate.key counted)
      have erased : (evictMemoryRecord candidate s).2.memory = s.memory.erase candidate.key :=
        forgetMemory_memory candidate.key s
      rw [erased] at swept
      exact ⟨.cons found unpinned swept, exact_count⟩

/-- An eviction from the persistent tier that succeeds. -/
theorem evictDiskRecord_eq_ok {round : Nat} {candidate : EvictionCandidate} {s after : CacheState σ}
    {record : StoreRecord} (found : s.disk.lookup candidate.key = some record)
    (evicted : cache.evictDiskRecord amb round candidate s = (.ok (), after)) :
    after.disk = s.disk.erase candidate.key ∧
      after.diskBytes = satSub s.diskBytes record.storedBytes := by
  unfold evictDiskRecord at evicted
  obtain ⟨_, middle, removed, counted⟩ := andThen_eq_ok.mp evicted
  cases counted
  unfold removeDiskRecordLocked at removed
  rw [found] at removed
  obtain ⟨_, left, called, ended⟩ := andThen_eq_ok.mp removed
  cases ended
  split at called
  case h_1 =>
    cases called
    exact ⟨rfl, rfl⟩
  case h_2 store injected =>
    obtain ⟨stored, kept⟩ := callStore_state amb (.removeVictim round) (store.remove candidate.key)
      { s with disk := s.disk.erase candidate.key }
    rw [called] at kept
    dsimp only at kept
    subst kept
    exact ⟨rfl, rfl⟩

/-- **The rounds in the persistent tier** sweep the victims out, and keep the counter exact. -/
theorem DiskRounds.swept {round last : Nat} {s after : CacheState σ} {victims : List EvictionCandidate}
    (rounds : cache.DiskRounds amb round s victims last after) (counted : DiskCounted s) :
    Swept StoreRecord.pinned victims s.disk after.disk ∧ DiskCounted after := by
  induction rounds with
  | nil round s => exact ⟨.nil s.disk, counted⟩
  | @cons round last s middle after candidate victims above chosen evicted _ ih =>
      obtain ⟨record, found, unpinned⟩ := selectVictim_disk chosen
      obtain ⟨disk, bytes⟩ := evictDiskRecord_eq_ok found evicted
      have kept : DiskCounted middle := by
        unfold DiskCounted
        rw [disk, bytes]
        exact eraseIndex_counted found counted
      obtain ⟨swept, exact_count⟩ := ih kept
      rw [disk] at swept
      exact ⟨.cons found unpinned swept, exact_count⟩

/-- An eviction from the persistent tier that fails: the index record is gone, and its bytes are not. -/
theorem evictDiskRecord_eq_error {round : Nat} {candidate : EvictionCandidate} {s after : CacheState σ}
    {record : StoreRecord} {error : IoError} (found : s.disk.lookup candidate.key = some record)
    (raised : cache.evictDiskRecord amb round candidate s = (.error error, after)) :
    after.disk = s.disk.erase candidate.key ∧ after.diskBytes = s.diskBytes ∧
      ∃ store, cache.store = some store ∧
        (amb.fault (.removeVictim round) = some error ∨
          (store.remove candidate.key s.store).1 = .error error) := by
  unfold evictDiskRecord removeDiskRecordLocked at raised
  rw [found] at raised
  cases injected : cache.store with
  | none =>
      rw [injected] at raised
      cases raised
  | some store =>
      rw [injected] at raised
      dsimp only at raised
      unfold callStore at raised
      split at raised
      case h_1 fault failed =>
        cases raised
        exact ⟨rfl, rfl, store, rfl, Or.inl failed⟩
      case h_2 =>
        dsimp only at raised
        cases answer : (store.remove candidate.key s.store).1 with
        | ok _ =>
            rw [answer] at raised
            cases raised
        | error fault =>
            rw [answer] at raised
            cases raised
            exact ⟨rfl, rfl, store, rfl, Or.inr answer⟩

/-- `evict_memory_locked`, with fuel for more rounds than there are records. -/
def evictMemoryWithin (cache : ContextCache σ) (amb : Ambient) (more : Nat) (s : CacheState σ) :
    Except IoError Nat × CacheState σ :=
  evictLoop (fun s => decide (cache.maxMemoryBytes < s.memoryBytes))
    (fun round s => amb.selectVictim .memory round s.memoryCandidates)
    (fun _ candidate s => evictMemoryRecord candidate s) (s.memory.entries.length + more) 0 s

/-- `evict_disk_locked`, with fuel for more rounds than there are records. -/
def evictDiskWithin (cache : ContextCache σ) (amb : Ambient) (more : Nat) (s : CacheState σ) :
    Except IoError Nat × CacheState σ :=
  evictLoop (fun s => decide (cache.maxDiskBytes < s.diskBytes))
    (fun round s => amb.selectVictim .disk round s.diskCandidates)
    (cache.evictDiskRecord amb) (s.disk.entries.length + more) 0 s

/-- **`evict_memory_locked` is safe** for any policy: it ends after at most one round for each record; every
victim was picked above the capacity, and was not pinned; the counter is exact; and it stays above the capacity
only if the policy has declined in the last round. -/
structure MemorySafe (cache : ContextCache σ) (amb : Ambient) (s : CacheState σ)
    (victims : List EvictionCandidate) (last : Nat) (after : CacheState σ) : Prop where
  returns : cache.evictMemoryLocked amb s = (.ok (min victims.length u64Max), after)
  ends : ∀ more, cache.evictMemoryWithin amb more s = (.ok (min victims.length u64Max), after)
  rounds : cache.MemoryRounds amb 0 s victims last after
  swept : Swept MemoryRecord.pinned victims s.memory after.memory
  counted : after.memoryBytes = memoryTotal after.memory
  stops : cache.maxMemoryBytes < after.memoryBytes →
    amb.DeclinesToChoose .memory last after.memoryCandidates

/-- **`evict_disk_locked` is safe** for any policy, in the same way, if it succeeds. -/
structure DiskSafe (cache : ContextCache σ) (amb : Ambient) (s : CacheState σ)
    (victims : List EvictionCandidate) (last : Nat) (after : CacheState σ) : Prop where
  returns : cache.evictDiskLocked amb s = (.ok (min victims.length u64Max), after)
  ends : ∀ more, cache.evictDiskWithin amb more s = (.ok (min victims.length u64Max), after)
  rounds : cache.DiskRounds amb 0 s victims last after
  swept : Swept StoreRecord.pinned victims s.disk after.disk
  counted : DiskCounted after
  stops : cache.maxDiskBytes < after.diskBytes → amb.DeclinesToChoose .disk last after.diskCandidates

/-- **`evict_disk_locked` fails with the store**: what was evicted before is swept out, and the record that the
store does not remove was picked above the capacity and was not pinned. -/
structure DiskInterrupted (cache : ContextCache σ) (amb : Ambient) (s : CacheState σ)
    (victims : List EvictionCandidate) (candidate : EvictionCandidate) (last : Nat)
    (middle after : CacheState σ) (error : IoError) : Prop where
  returns : cache.evictDiskLocked amb s = (.error error, after)
  ends : ∀ more, cache.evictDiskWithin amb more s = (.error error, after)
  rounds : cache.DiskRounds amb 0 s victims last middle
  counted : DiskCounted middle
  above : cache.maxDiskBytes < middle.diskBytes
  chosen : amb.selectVictim .disk last middle.diskCandidates = some candidate
  swept : Swept StoreRecord.pinned (victims ++ [candidate]) s.disk after.disk
  failed : ∃ store, cache.store = some store ∧ (amb.fault (.removeVictim last) = some error ∨
    (store.remove candidate.key middle.store).1 = .error error)

theorem evictMemory_safe (cache : ContextCache σ) (amb : Ambient) {s : CacheState σ}
    (counted : s.memoryBytes = memoryTotal s.memory) :
    ∃ victims last after, cache.MemorySafe amb s victims last after := by
  obtain ⟨result, after, victims, runs, ends⟩ := evictLoop_cases
    (fun s : CacheState σ => decide (cache.maxMemoryBytes < s.memoryBytes))
    (fun round s => amb.selectVictim .memory round s.memoryCandidates)
    (fun _ candidate s => evictMemoryRecord candidate s)
    (fun s : CacheState σ => s.memory.entries.length)
    (fun round candidate t chosen => by
      obtain ⟨record, found, _⟩ := selectVictim_memory chosen
      have shorter := length_erase found
      omega)
    (fun round candidate t after chosen evicted => by
      obtain ⟨record, found, _⟩ := selectVictim_memory chosen
      have shorter := length_erase found
      cases evicted
      show (t.forgetMemory candidate.key).memory.entries.length < t.memory.entries.length
      rw [forgetMemory_memory]
      omega)
    s.memory.entries.length 0 s le_rfl
  cases ends with
  | failed rounds above chosen raised => cases raised
  | @settled _ last _ rounds done =>
      obtain ⟨swept, exact_count⟩ := MemoryRounds.swept rounds counted
      refine ⟨victims, last, after, runs 0, runs, rounds, swept, exact_count, fun above => ?_⟩
      rcases done with within | nothing
      · exact absurd above (of_decide_eq_false within)
      · exact selectVictim_none.mp nothing

theorem evictDisk_safe (cache : ContextCache σ) (amb : Ambient) {s : CacheState σ}
    (counted : DiskCounted s) :
    (∃ victims last after, cache.DiskSafe amb s victims last after) ∨
      ∃ victims candidate last middle after error,
        cache.DiskInterrupted amb s victims candidate last middle after error := by
  obtain ⟨result, after, victims, runs, ends⟩ := evictLoop_cases
    (fun s : CacheState σ => decide (cache.maxDiskBytes < s.diskBytes))
    (fun round s => amb.selectVictim .disk round s.diskCandidates) (cache.evictDiskRecord amb)
    (fun s : CacheState σ => s.disk.entries.length)
    (fun round candidate t chosen => by
      obtain ⟨record, found, _⟩ := selectVictim_disk chosen
      have shorter := length_erase found
      omega)
    (fun round candidate t after chosen evicted => by
      obtain ⟨record, found, _⟩ := selectVictim_disk chosen
      have shorter := length_erase found
      have erased := (evictDiskRecord_eq_ok found evicted).1
      rw [erased]
      omega)
    s.disk.entries.length 0 s le_rfl
  cases ends with
  | @settled _ last _ rounds done =>
      obtain ⟨swept, exact_count⟩ := DiskRounds.swept rounds counted
      refine Or.inl ⟨victims, last, after, runs 0, runs, rounds, swept, exact_count, fun above => ?_⟩
      rcases done with within | nothing
      · exact absurd above (of_decide_eq_false within)
      · exact selectVictim_none.mp nothing
  | @failed _ last middle _ candidate error rounds above chosen raised =>
      obtain ⟨swept, exact_count⟩ := DiskRounds.swept rounds counted
      obtain ⟨record, found, unpinned⟩ := selectVictim_disk chosen
      obtain ⟨erased, _, failed⟩ := evictDiskRecord_eq_error found raised
      refine Or.inr ⟨victims, candidate, last, middle, after, error, runs 0, runs, rounds, exact_count,
        of_decide_eq_true above, chosen, ?_, failed⟩
      rw [erased]
      exact swept.snoc found unpinned

/-- **Eviction is safe for any policy**: for every cache, every answers of the policy and of the store, every
order of iteration, and every state whose counters are exact. A store that does not fail does not interrupt
the second loop. -/
theorem evict_safe (cache : ContextCache σ) (amb : Ambient) (s : CacheState σ)
    (memoryCounted : s.memoryBytes = memoryTotal s.memory) (diskCounted : DiskCounted s) :
    (∃ victims last after, cache.MemorySafe amb s victims last after) ∧
      ((∃ victims last after, cache.DiskSafe amb s victims last after) ∨
        ∃ victims candidate last middle after error,
          cache.DiskInterrupted amb s victims candidate last middle after error) :=
  ⟨evictMemory_safe cache amb memoryCounted, evictDisk_safe cache amb diskCounted⟩

end ContextCache

/-! ### Runs on fixed inputs -/

/-- Two records in each tier, above the capacities. -/
def crowded : CacheState VolatileStore where
  memory := ((∅ : Table String MemoryRecord).insert "a" ⟨[1, 2], 0, true, 1⟩).insert "b" ⟨[3, 4], 0, false, 2⟩
  disk := ((∅ : Table String StoreRecord).insert "a" ⟨"a", 2, 0, true, 1⟩).insert "b" ⟨"b", 2, 0, false, 2⟩
  memoryBytes := 4
  diskBytes := 4
  tick := 2
  stats := {}
  store := VolatileStore.new
  events := []

theorem evict_safe_crowded :
    (∃ victims last after,
        (ContextCache.volatile 3 3).MemorySafe (Ambient.plain 7) crowded victims last after) ∧
      ((∃ victims last after,
          (ContextCache.volatile 3 3).DiskSafe (Ambient.plain 7) crowded victims last after) ∨
        ∃ victims candidate last middle after error,
          (ContextCache.volatile 3 3).DiskInterrupted (Ambient.plain 7) crowded victims candidate last
            middle after error) :=
  (ContextCache.volatile 3 3).evict_safe (Ambient.plain 7) crowded (by decide) (by unfold DiskCounted; decide)

/-- **A store that fails stops the second loop above the capacity**, although the policy has picked a record. -/
theorem evictDiskLocked_interrupted :
    DiskCounted crowded ∧
      ((ContextCache.volatile 3 3).evictDiskLocked
        (Ambient.failing 7 (.removeVictim 0) ⟨.other, "disk"⟩) crowded).1 = .error ⟨.other, "disk"⟩ ∧
      3 < ((ContextCache.volatile 3 3).evictDiskLocked
        (Ambient.failing 7 (.removeVictim 0) ⟨.other, "disk"⟩) crowded).2.diskBytes ∧
      ¬(Ambient.failing 7 (.removeVictim 0) ⟨.other, "disk"⟩).DeclinesToChoose .disk 0
        crowded.diskCandidates := by
  refine ⟨by unfold DiskCounted; decide, by decide, by decide, ?_⟩
  rw [← selectVictim_none]
  decide

end RivetCache
