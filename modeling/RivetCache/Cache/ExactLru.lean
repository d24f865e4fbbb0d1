/-
**The memory tier is an exact least-recently-used cache.**

Without persistence and without expiry, a sequence of `put` and `get` keeps in memory what a list in the order
of the last use keeps (`Library.Recency`). The ticks of the records fall along that list (`Ranked`), and that is
all the eviction loop reads; the order in which the hash map is iterated makes no difference.

* `Ranked.front`: a record with a new tick comes to the front;
* `evictLoop_ranked`: the loop drops what `trimRounds` drops;
* `memory_exact_lru`: runs.
-/

import RivetCache.Cache.Retention
import RivetCache.Library.Recency

set_option linter.unusedSectionVars false

namespace RivetCache

open Library

variable {σ : Type}

/-! ### Records and their ranks -/

/-- A record, as an entry of the list. -/
def asRecent (entry : String × MemoryRecord) : Recent String (List UInt8) :=
  ⟨entry.1, entry.2.value, entry.2.pinned⟩

/-- **The records of memory in the order of their last access**, none of which expires. -/
structure Ranked (s : CacheState σ) (ranked : List (String × MemoryRecord)) : Prop where
  falling : ranked.Pairwise fun newer older => older.2.lastAccess < newer.2.lastAccess
  members : ∀ key record, (key, record) ∈ ranked ↔ s.memory.lookup key = some record
  ticked : ∀ entry ∈ ranked, entry.2.lastAccess ≤ s.tick
  eternal : ∀ entry ∈ ranked, entry.2.expiresAt = 0
  counted : s.memoryBytes = memoryTotal s.memory

namespace Ranked

variable {s t : CacheState σ} {ranked : List (String × MemoryRecord)}

/-- Records of one rank are one record. -/
theorem same_of_rank (order : Ranked s ranked) {first second : String × MemoryRecord}
    (one : first ∈ ranked) (two : second ∈ ranked)
    (same : first.2.lastAccess = second.2.lastAccess) : first = second := by
  have distinct : (ranked.map fun entry => entry.2.lastAccess).Nodup :=
    List.pairwise_map.mpr (order.falling.imp fun lower => (Nat.ne_of_lt lower).symm)
  exact List.inj_on_of_nodup_map distinct one two same

theorem nodup (order : Ranked s ranked) : ranked.Nodup :=
  order.falling.imp fun lower same => by
    rw [same] at lower
    exact Nat.lt_irrefl _ lower

/-- The list holds the entries of the table. -/
theorem perm (order : Ranked s ranked) :
    ranked.Perm (s.memory.entries.map fun entry => (entry.1, entry.2)) := by
  have distinct : (s.memory.entries.map fun entry => (entry.1, entry.2)).Nodup := by
    refine s.memory.nodupKeys.nodup.map ?_
    rintro ⟨_, _⟩ ⟨_, _⟩ same
    cases same
    rfl
  refine (List.perm_ext_iff_of_nodup order.nodup distinct).mpr ?_
  rintro ⟨key, record⟩
  rw [order.members, List.mem_map]
  constructor
  · exact fun found => ⟨⟨key, record⟩, mem_of_lookup found, rfl⟩
  · rintro ⟨⟨_, _⟩, inside, same⟩
    cases same
    exact lookup_of_mem inside

theorem length_eq (order : Ranked s ranked) :
    (ranked.map asRecent).length = s.memory.entries.length := by
  rw [List.length_map, order.perm.length_eq, List.length_map]

/-- **The byte counter** is the total size of the list. -/
theorem bytes_eq (order : Ranked s ranked) :
    s.memoryBytes = Recency.totalSize List.length (ranked.map asRecent) := by
  rw [order.counted]
  unfold Recency.totalSize memoryTotal total
  rw [List.map_map, (order.perm.map _).sum_eq, List.map_map]
  rfl

/-- The entry of a key is its record. -/
theorem find_eq (order : Ranked s ranked) (key : String) :
    Recency.find key (ranked.map asRecent) =
      (s.memory.lookup key).map fun record => asRecent (key, record) := by
  unfold Recency.find
  cases found : s.memory.lookup key with
  | none =>
      refine List.find?_eq_none.mpr fun entry mem => ?_
      obtain ⟨⟨other, record⟩, inside, rfl⟩ := List.mem_map.mp mem
      have there := (order.members other record).mp inside
      rw [decide_eq_true_eq]
      intro own
      have same : other = key := own
      rw [same, found] at there
      cases there
  | some record =>
      have inside := (order.members key record).mpr found
      cases picked : (ranked.map asRecent).find? fun entry => decide (entry.key = key) with
      | none =>
          have missing := List.find?_eq_none.mp picked _ (List.mem_map_of_mem inside)
          exact absurd (decide_eq_true rfl) missing
      | some entry =>
          have own := List.find?_some picked
          obtain ⟨⟨other, copy⟩, there, rfl⟩ := List.mem_map.mp (List.mem_of_find?_eq_some picked)
          have same : other = key := of_decide_eq_true own
          have held := (order.members other copy).mp there
          rw [same, found] at held
          cases held
          rw [same]
          rfl

/-- **A record with a new tick** comes to the front. -/
theorem front (order : Ranked s ranked) {key : String} {record : MemoryRecord}
    (lookups : ∀ other, t.memory.lookup other =
      if other = key then some record else s.memory.lookup other)
    (newest : record.lastAccess = t.tick) (later : s.tick < t.tick) (eternal : record.expiresAt = 0)
    (counted : t.memoryBytes = memoryTotal t.memory) :
    Ranked t ((key, record) :: ranked.filter fun entry => decide (entry.1 ≠ key)) where
  falling := by
    refine List.pairwise_cons.mpr ⟨fun entry mem => ?_, order.falling.filter _⟩
    have bound := order.ticked entry (List.mem_filter.mp mem).1
    show entry.2.lastAccess < record.lastAccess
    omega
  members other copy := by
    rw [lookups, List.mem_cons, List.mem_filter, order.members, Prod.mk.injEq, decide_eq_true_eq]
    by_cases same : other = key
    · simp [same, eq_comm]
    · simp [same]
  ticked entry mem := by
    rcases List.mem_cons.mp mem with rfl | old
    · exact newest.le
    · exact (order.ticked entry (List.mem_filter.mp old).1).trans later.le
  eternal entry mem := by
    rcases List.mem_cons.mp mem with rfl | old
    · exact eternal
    · exact order.eternal entry (List.mem_filter.mp old).1
  counted := counted

/-- The list with a record in front, as entries. -/
theorem map_front (key : String) (record : MemoryRecord) (ranked : List (String × MemoryRecord)) :
    ((key, record) :: ranked.filter fun entry => decide (entry.1 ≠ key)).map asRecent =
      Recency.put (asRecent (key, record)) (ranked.map asRecent) := by
  unfold Recency.put Recency.others
  rw [List.map_cons, List.filter_map]
  rfl

/-- Other fields make no difference. -/
theorem of_same (order : Ranked s ranked) (memory : t.memory = s.memory)
    (bytes : t.memoryBytes = s.memoryBytes) (tick : t.tick = s.tick) : Ranked t ranked where
  falling := order.falling
  members key record := by rw [memory]; exact order.members key record
  ticked entry mem := by rw [tick]; exact order.ticked entry mem
  eternal := order.eternal
  counted := by rw [bytes, memory]; exact order.counted

/-- A key is forgotten. -/
theorem forget (order : Ranked s ranked) (key : String) :
    Ranked (s.forgetMemory key) (ranked.filter fun entry => decide (entry.1 ≠ key)) where
  falling := order.falling.filter _
  members other copy := by
    rw [forgetMemory_memory, lookup_erase_eq, List.mem_filter, order.members, decide_eq_true_eq]
    by_cases same : other = key
    · simp [same]
    · simp [same]
  ticked entry mem := by
    rw [forgetMemory_tick]
    exact order.ticked entry (List.mem_filter.mp mem).1
  eternal entry mem := order.eternal entry (List.mem_filter.mp mem).1
  counted := ContextCache.forgetMemory_counted key order.counted

/-- The bytes of the other keys. -/
theorem others_bytes (order : Ranked s ranked) (key : String) :
    memoryTotal (s.memory.erase key) =
      Recency.totalSize List.length (Recency.others key (ranked.map asRecent)) := by
  have forgotten := (order.forget key).bytes_eq
  rw [(order.forget key).counted, forgetMemory_memory] at forgotten
  rw [forgotten]
  unfold Recency.others
  rw [List.filter_map]
  rfl

/-- **A key is written**: its record comes to the front. -/
theorem insert (order : Ranked s ranked) (ticks : s.tick < u64Max) {key : String} {value : List UInt8}
    (pinned : Bool) (room : Recency.totalSize List.length
      (Recency.put ⟨key, value, pinned⟩ (ranked.map asRecent)) ≤ u64Max) :
    Ranked (s.insertMemoryLocked key value 0 pinned)
      ((key, ⟨value, 0, pinned, s.tick + 1⟩) :: ranked.filter fun entry => decide (entry.1 ≠ key)) ∧
    (s.insertMemoryLocked key value 0 pinned).tick = s.tick + 1 := by
  have tick : (s.insertMemoryLocked key value 0 pinned).tick = s.tick + 1 := by
    show satAdd (s.forgetMemory key).tick 1 = s.tick + 1
    rw [forgetMemory_tick]
    exact satAdd_of_le ticks
  have enough : ContextCache.MemoryRoom key value s := by
    unfold ContextCache.MemoryRoom
    rw [order.others_bytes, Nat.add_comm]
    exact room
  refine ⟨order.front (fun other => ?_) tick.symm ?_ rfl
    (ContextCache.insertMemoryLocked_counted 0 pinned order.counted enough), tick⟩
  · show ((s.forgetMemory key).memory.insert key ⟨value, 0, pinned, _⟩).lookup other = _
    rw [lookup_insert_eq, forgetMemory_memory, lookup_erase_eq, tick.symm]
    split
    case isTrue => rfl
    case isFalse => rfl
  · rw [tick]
    exact Nat.lt_succ_self _

/-- **The record of the least tick** that is not pinned leaves. -/
theorem without (order : Ranked s ranked) {candidate : EvictionCandidate} {record : MemoryRecord}
    (found : s.memory.lookup candidate.key = some record) :
    Ranked (ContextCache.evictMemoryRecord candidate s).2
      (ranked.filter fun other => decide (other.2.lastAccess ≠ record.lastAccess)) := by
  have memory : (ContextCache.evictMemoryRecord candidate s).2.memory = s.memory.erase candidate.key :=
    forgetMemory_memory candidate.key s
  have tick : (ContextCache.evictMemoryRecord candidate s).2.tick = s.tick :=
    forgetMemory_tick candidate.key s
  have inside : (candidate.key, record) ∈ ranked := (order.members _ _).mpr found
  refine ⟨order.falling.filter _, fun key copy => ?_, fun entry mem => ?_, fun entry mem => ?_,
    ContextCache.forgetMemory_counted candidate.key order.counted⟩
  · rw [memory, lookup_erase_eq, List.mem_filter, order.members, decide_eq_true_eq]
    constructor
    · rintro ⟨there, different⟩
      rw [if_neg, there]
      rintro rfl
      rw [found] at there
      cases there
      exact different rfl
    · intro there
      split at there
      case isTrue => cases there
      case isFalse different =>
        refine ⟨there, fun same => different ?_⟩
        exact congrArg Prod.fst (order.same_of_rank ((order.members _ _).mpr there) inside same)
  · rw [tick]
    exact order.ticked entry (List.mem_filter.mp mem).1
  · exact order.eternal entry (List.mem_filter.mp mem).1

end Ranked

/-! ### The eviction loop -/

namespace ContextCache

variable {cache : ContextCache σ} {amb : Ambient}

/-- **One round drops the entry that the list drops.** -/
theorem dropOldest_victim (lru : amb.UsesLru) {s : CacheState σ} {ranked : List (String × MemoryRecord)}
    (order : Ranked s ranked) {round : Nat} {candidate : EvictionCandidate} {record : MemoryRecord}
    (chosen : amb.selectVictim .memory round s.memoryCandidates = some candidate)
    (found : s.memory.lookup candidate.key = some record) (unpinned : record.pinned = false) :
    Recency.dropOldest (ranked.map asRecent) =
      some ((ranked.filter fun other => decide (other.2.lastAccess ≠ record.lastAccess)).map asRecent) := by
  have inside : (candidate.key, record) ∈ ranked := (order.members _ _).mpr found
  refine Recency.dropOldest_ranked order.falling inside unpinned ?_
  rintro ⟨key, copy⟩ there loose
  exact selectVictim_least lru chosen found ((order.members key copy).mp there) loose

/-- **The loop drops what the list drops.** The induction is on the fuel, which is also the number of
rounds. -/
theorem evictLoop_ranked (cache : ContextCache σ) (lru : amb.UsesLru) {fuel round : Nat}
    {s : CacheState σ} {ranked : List (String × MemoryRecord)} (order : Ranked s ranked) :
    ∃ evicted after left,
      evictLoop (fun s : CacheState σ => decide (cache.maxMemoryBytes < s.memoryBytes))
          (fun round s => amb.selectVictim .memory round s.memoryCandidates)
          (fun _ candidate s => evictMemoryRecord candidate s) fuel round s = (.ok evicted, after) ∧
        Ranked after left ∧ after.disk = s.disk ∧ after.tick = s.tick ∧
        left.map asRecent =
          Recency.trimRounds List.length cache.maxMemoryBytes fuel (ranked.map asRecent) := by
  induction fuel generalizing round s ranked with
  | zero => exact ⟨0, s, ranked, rfl, order, rfl, rfl, rfl⟩
  | succ fuel ih =>
      unfold evictLoop Recency.trimRounds
      rw [order.bytes_eq]
      by_cases above : cache.maxMemoryBytes < Recency.totalSize List.length (ranked.map asRecent)
      · rw [if_pos (decide_eq_true above), if_pos above]
        cases chosen : amb.selectVictim .memory round s.memoryCandidates with
        | none =>
            have pinned := memoryCandidates_eq_nil
              (selectVictim_productive (lru.productive .memory round) chosen)
            have nothing : Recency.dropOldest (ranked.map asRecent) = none := by
              refine Recency.dropOldest_eq_none.mpr fun entry mem => ?_
              obtain ⟨⟨key, record⟩, inside, rfl⟩ := List.mem_map.mp mem
              exact pinned key record ((order.members key record).mp inside)
            rw [nothing]
            exact ⟨0, s, ranked, rfl, order, rfl, rfl, rfl⟩
        | some candidate =>
            obtain ⟨record, found, unpinned⟩ := selectVictim_memory chosen
            rw [dropOldest_victim lru order chosen found unpinned]
            obtain ⟨evicted, after, left, run, kept, disk, tick, same⟩ :=
              @ih (round + 1) _ _ (order.without found)
            refine ⟨satAdd evicted 1, after, left, ?_, kept, ?_, ?_, same⟩
            · show andThen (evictLoop _ _ _ fuel (round + 1) (evictMemoryRecord candidate s).2) _ = _
              rw [run]
              rfl
            · exact disk.trans (forgetMemory_disk candidate.key s)
            · exact tick.trans (forgetMemory_tick candidate.key s)
      · rw [if_neg (by rwa [decide_eq_true_eq]), if_neg above]
        exact ⟨0, s, ranked, rfl, order, rfl, rfl, rfl⟩

/-! ### Calls -/

/-- Without persistence, `put` writes nothing to the persistent tier. -/
theorem putPersistent_volatile (volatile : cache.store = none ∨ cache.maxDiskBytes = 0) (key : String)
    (entry : StoredEntry) (s : CacheState σ) :
    cache.putPersistent amb key entry s = (.ok (0, 0), s) := by
  unfold putPersistent
  split
  case isFalse => rfl
  case isTrue fits =>
    rcases volatile with absent | closed
    · rw [absent]
    · unfold fitsDisk at fits
      rw [closed] at fits
      cases fits

/-- **`put` writes the list and trims it.** -/
theorem put_ranked (volatile : cache.store = none ∨ cache.maxDiskBytes = 0) (lru : amb.UsesLru)
    {key : String} (valid : cache.keyStrategy.validate key = .ok ()) {value : List UInt8}
    (filled : value ≠ []) (fits : value.length ≤ cache.maxMemoryBytes) {ttl : Option Duration}
    (eternal : (ttl.getD cache.defaultTtl).isZero = true) (pinned : Bool) {s : CacheState σ}
    {ranked : List (String × MemoryRecord)} (order : Ranked s ranked) (ticks : s.tick < u64Max)
    (room : Recency.totalSize List.length
      (Recency.put ⟨key, value, pinned⟩ (ranked.map asRecent)) ≤ u64Max) :
    ∃ after left, cache.put amb key value ttl pinned s = (.ok (), after) ∧ Ranked after left ∧
      after.disk = s.disk ∧ after.tick = s.tick + 1 ∧
      left.map asRecent = Recency.trim List.length cache.maxMemoryBytes
        (Recency.put ⟨key, value, pinned⟩ (ranked.map asRecent)) := by
  obtain ⟨inserted, tick⟩ := order.insert ticks pinned room
  have entry_eq : cache.putEntry amb value ttl pinned = ⟨value, 0, pinned⟩ := by
    unfold putEntry expiryAt
    rw [eternal]
    rfl
  have fits_memory : cache.fitsMemory value = true := by
    have positive := List.length_pos_of_ne_nil filled
    unfold fitsMemory
    rw [Bool.and_eq_true, decide_eq_true_eq, decide_eq_true_eq]
    omega
  obtain ⟨evicted, after, left, run, kept, disk, same_tick, trimmed⟩ :=
    @evictLoop_ranked σ amb cache lru (s.insertMemoryLocked key value 0 pinned).memory.entries.length 0 _ _
      inserted
  rw [← inserted.length_eq, Ranked.map_front] at trimmed
  have admitted : cache.admitMemory amb key ⟨value, 0, pinned⟩ s = (.ok evicted, after) := by
    unfold admitMemory
    rw [if_pos fits_memory]
    exact run
  unfold put
  rw [valid, if_neg (by rwa [List.isEmpty_iff])]
  dsimp only
  rw [entry_eq, putPersistent_volatile volatile, andThen_ok]
  dsimp only
  rw [admitted, andThen_ok]
  have disk_same : after.disk = s.disk := disk.trans (forgetMemory_disk key s)
  have ticked : after.tick = s.tick + 1 := same_tick.trans tick
  refine ⟨_, left, rfl, kept.of_same ?_ ?_ ?_, ?_, ?_, trimmed⟩
  all_goals
    simp only [CacheState.record_memory, CacheState.record_memoryBytes, CacheState.record_tick,
      CacheState.record_disk, CacheState.recordCount_memory, CacheState.recordCount_memoryBytes,
      CacheState.recordCount_tick, CacheState.recordCount_disk, CacheState.count_memory,
      CacheState.count_memoryBytes, CacheState.count_tick, CacheState.count_disk]
  · exact disk_same
  · exact ticked

/-- **`get` of a key in memory** moves its entry to the front. -/
theorem get_ranked {key : String} (valid : cache.keyStrategy.validate key = .ok ()) {s : CacheState σ}
    (empty : s.disk = ∅) {ranked : List (String × MemoryRecord)} (order : Ranked s ranked)
    (ticks : s.tick < u64Max) :
    ∃ after left, cache.get amb key s =
        (.ok ((Recency.find key (ranked.map asRecent)).map Recent.value), after) ∧
      Ranked after left ∧ after.disk = s.disk ∧ after.tick ≤ s.tick + 1 ∧
      left.map asRecent = Recency.touch key (ranked.map asRecent) := by
  have answer := order.find_eq key
  unfold get Recency.touch
  rw [valid, answer]
  dsimp only
  cases found : s.memory.lookup key with
  | none =>
      have missing : s.disk.lookup key = none := by rw [empty]; rfl
      unfold getPersistent
      rw [missing]
      exact ⟨_, ranked, rfl, order.of_same rfl rfl rfl, rfl, Nat.le_succ _, rfl⟩
  | some record =>
      have live : isExpired record.expiresAt amb.now = false := by
        rw [order.eternal _ ((order.members key record).mpr found)]
        rfl
      have tick : s.nextTick.tick = s.tick + 1 := satAdd_of_le ticks
      have touched : Ranked (s.nextTick.touchMemory key record)
          ((key, { record with lastAccess := s.nextTick.tick }) ::
            ranked.filter fun entry => decide (entry.1 ≠ key)) := by
        refine order.front (fun other => lookup_insert_eq _ _ _ _) rfl ?_
          (order.eternal _ ((order.members key record).mpr found)) ?_
        · show s.tick < s.nextTick.tick
          omega
        · show s.memoryBytes = memoryTotal (s.memory.insert key _)
          have moved := total_replace (fun record : MemoryRecord => record.value.length) found
            (show ({ record with lastAccess := s.nextTick.tick } : MemoryRecord).value.length =
              record.value.length from rfl)
          exact order.counted.trans moved.symm
      dsimp only
      rw [live, if_neg Bool.false_ne_true]
      exact ⟨_, _, rfl, touched.of_same rfl rfl rfl, rfl, tick.le, Ranked.map_front _ _ _⟩

end ContextCache

/-- A call of the memory tier. -/
inductive MemoryCall where
  | put (amb : Ambient) (key : String) (value : List UInt8) (ttl : Option Duration) (pinned : Bool)
  | get (amb : Ambient) (key : String)

/-- An operation on the list of entries. -/
inductive RecencyOp where
  | put (entry : Recent String (List UInt8))
  | get (key : String)

/-- What a call means for the list: the clock, the iteration order and the time to live do not matter. -/
def MemoryCall.op : MemoryCall → RecencyOp
  | .put _ key value _ pinned => .put ⟨key, value, pinned⟩
  | .get _ key => .get key

/-- A call of the cache: its answer, and the state that it leaves. -/
def ContextCache.memoryStep (cache : ContextCache σ) (call : MemoryCall) (s : CacheState σ) :
    Except IoError (Option (List UInt8)) × CacheState σ :=
  match call with
  | .put amb key value ttl pinned =>
      ((cache.put amb key value ttl pinned s).1.map fun _ => none,
        (cache.put amb key value ttl pinned s).2)
  | .get amb key => cache.get amb key s

/-- **The reference**: entries in the order of their last use. A key that the strategy rejects is an error;
`put` writes the entry to the front and trims; `get` answers the entry of the key, and moves it to the front. -/
def recencyStep (strategy : KeyStrategy) (limit : Nat) (op : RecencyOp)
    (entries : List (Recent String (List UInt8))) :
    Except IoError (Option (List UInt8)) × List (Recent String (List UInt8)) :=
  match op with
  | .put entry =>
      match strategy.validate entry.key with
      | .error error => (.error error, entries)
      | .ok () => (.ok none, Recency.trim List.length limit (Recency.put entry entries))
  | .get key =>
      match strategy.validate key with
      | .error error => (.error error, entries)
      | .ok () => (.ok ((Recency.find key entries).map Recent.value), Recency.touch key entries)

/-- **The calls of the claim**: least-recently-used eviction, values that are not empty and fit, and no expiry. -/
def MemoryCall.Plain (cache : ContextCache σ) : MemoryCall → Prop
  | .put amb _ value ttl _ => amb.UsesLru ∧ value ≠ [] ∧ value.length ≤ cache.maxMemoryBytes ∧
      (ttl.getD cache.defaultTtl).isZero = true
  | .get _ _ => True

/-- The values that are held at one time are in memory together: their lengths add up to less than `2 ^ 64`,
before the list is trimmed. -/
def Allocatable (strategy : KeyStrategy) (limit : Nat) :
    List RecencyOp → List (Recent String (List UInt8)) → Prop
  | [], _ => True
  | op :: rest, entries =>
      (∀ entry, op = .put entry →
        Recency.totalSize List.length (Recency.put entry entries) ≤ u64Max) ∧
      Allocatable strategy limit rest (recencyStep strategy limit op entries).2

namespace ContextCache

variable {cache : ContextCache σ}

/-- **One call** answers as the reference does, and keeps the order. -/
theorem memoryStep_ranked (volatile : cache.store = none ∨ cache.maxDiskBytes = 0) {call : MemoryCall}
    (plain : call.Plain cache) {s : CacheState σ} (empty : s.disk = ∅)
    {ranked : List (String × MemoryRecord)} (order : Ranked s ranked) (ticks : s.tick < u64Max)
    (room : ∀ entry, call.op = .put entry →
      Recency.totalSize List.length (Recency.put entry (ranked.map asRecent)) ≤ u64Max) :
    (cache.memoryStep call s).1 =
        (recencyStep cache.keyStrategy cache.maxMemoryBytes call.op (ranked.map asRecent)).1 ∧
      (cache.memoryStep call s).2.disk = ∅ ∧ (cache.memoryStep call s).2.tick ≤ s.tick + 1 ∧
      ∃ left, Ranked (cache.memoryStep call s).2 left ∧
        left.map asRecent =
          (recencyStep cache.keyStrategy cache.maxMemoryBytes call.op (ranked.map asRecent)).2 := by
  cases call with
  | put amb key value ttl pinned =>
      unfold memoryStep MemoryCall.op recencyStep
      dsimp only
      cases valid : cache.keyStrategy.validate key with
      | error error =>
          have refused : cache.put amb key value ttl pinned s = (.error error, s) := by
            unfold put
            rw [valid]
          rw [refused]
          exact ⟨rfl, empty, Nat.le_succ _, ranked, order, rfl⟩
      | ok _ =>
          obtain ⟨lru, filled, fits, eternal⟩ := plain
          obtain ⟨after, left, done, kept, disk, tick, same⟩ :=
            put_ranked volatile lru valid filled fits eternal pinned order ticks (room _ rfl)
          rw [done]
          exact ⟨rfl, disk.trans empty, tick.le, left, kept, same⟩
  | get amb key =>
      unfold memoryStep MemoryCall.op recencyStep
      dsimp only
      cases valid : cache.keyStrategy.validate key with
      | error error =>
          have refused : cache.get amb key s = (.error error, s) := by
            unfold get
            rw [valid]
          rw [refused]
          exact ⟨rfl, empty, Nat.le_succ _, ranked, order, rfl⟩
      | ok _ =>
          obtain ⟨after, left, done, kept, disk, tick, same⟩ :=
            @get_ranked σ cache amb key valid s empty ranked order ticks
          rw [done]
          exact ⟨rfl, disk.trans empty, tick, left, kept, same⟩

/-- **A run from any state** answers as the reference does. The induction is on the calls. -/
theorem answers_ranked (volatile : cache.store = none ∨ cache.maxDiskBytes = 0) {calls : List MemoryCall}
    (plain : ∀ call ∈ calls, call.Plain cache) {s : CacheState σ} (empty : s.disk = ∅)
    {ranked : List (String × MemoryRecord)} (order : Ranked s ranked)
    (ticks : s.tick + calls.length ≤ u64Max)
    (room : Allocatable cache.keyStrategy cache.maxMemoryBytes (calls.map MemoryCall.op)
      (ranked.map asRecent)) :
    (answers cache.memoryStep calls s).1 =
        (answers (recencyStep cache.keyStrategy cache.maxMemoryBytes) (calls.map MemoryCall.op)
          (ranked.map asRecent)).1 ∧
      ∃ left, Ranked (answers cache.memoryStep calls s).2 left ∧
        left.map asRecent =
          (answers (recencyStep cache.keyStrategy cache.maxMemoryBytes) (calls.map MemoryCall.op)
            (ranked.map asRecent)).2 := by
  induction calls generalizing s ranked with
  | nil => exact ⟨rfl, ranked, order, rfl⟩
  | cons call rest ih =>
      rw [List.length_cons] at ticks
      obtain ⟨here, later⟩ := room
      obtain ⟨answer, disk, tick, left, kept, same⟩ := memoryStep_ranked volatile
        (plain call List.mem_cons_self) empty order (by omega) here
      rw [← same] at later
      obtain ⟨others, last, final, entries⟩ := ih
        (fun other mem => plain other (List.mem_cons_of_mem _ mem)) disk kept (by omega) later
      rw [same] at others entries
      exact ⟨congrArg₂ List.cons answer others, last, final, entries⟩

/-- **The memory tier is an exact least-recently-used cache.** Without persistence, in every sequence of fewer
than `2 ^ 63` calls of `put` and `get` with values that are not empty, fit and do not expire, whatever the
clock and the order in which the hash map is iterated: `get` answers as the reference does, and memory holds
the keys of the reference, with their values and pin flags. -/
theorem memory_exact_lru (cache : ContextCache σ) (volatile : cache.store = none ∨ cache.maxDiskBytes = 0)
    (amb : Ambient) (stored : σ) (calls : List MemoryCall) (few : calls.length < 2 ^ 63)
    (plain : ∀ call ∈ calls, call.Plain cache)
    (room : Allocatable cache.keyStrategy cache.maxMemoryBytes (calls.map MemoryCall.op) []) :
    (answers cache.memoryStep calls (cache.fromBuilder amb stored).2).1 =
        (answers (recencyStep cache.keyStrategy cache.maxMemoryBytes) (calls.map MemoryCall.op) []).1 ∧
      (∀ key, ((answers cache.memoryStep calls (cache.fromBuilder amb stored).2).2.memory.lookup key).map
          (fun record => (⟨key, record.value, record.pinned⟩ : Recent String (List UInt8))) =
        Recency.find key (answers (recencyStep cache.keyStrategy cache.maxMemoryBytes)
          (calls.map MemoryCall.op) []).2) ∧
      (answers cache.memoryStep calls (cache.fromBuilder amb stored).2).2.memoryBytes =
        Recency.totalSize List.length (answers (recencyStep cache.keyStrategy cache.maxMemoryBytes)
          (calls.map MemoryCall.op) []).2 := by
  have start : (cache.fromBuilder amb stored).2 = CacheState.initial stored := by
    unfold fromBuilder
    split
    case isFalse => rfl
    case isTrue open_tier =>
      rcases volatile with absent | closed
      · rw [absent]
      · omega
  have empty_order : Ranked (CacheState.initial stored : CacheState σ) [] :=
    { falling := List.Pairwise.nil
      members := fun key record => iff_of_false (fun mem => by cases mem) fun found => by cases found
      ticked := fun _ mem => by cases mem
      eternal := fun _ mem => by cases mem
      counted := rfl }
  rw [start]
  obtain ⟨same, left, order, entries⟩ := answers_ranked volatile plain rfl empty_order
    (show 0 + calls.length ≤ u64Max by unfold u64Max; omega) room
  rw [List.map_nil] at same entries
  refine ⟨same, fun key => ?_, ?_⟩
  · rw [← entries, order.find_eq]
    rfl
  · rw [← entries, order.bytes_eq]

end ContextCache

/-! ### A run on fixed inputs -/

/-- A cache of four bytes without persistence, for any keys. -/
def fourBytes : ContextCache Unit where
  maxMemoryBytes := 4
  maxDiskBytes := 0
  defaultTtl := Duration.zero
  store := none
  keyStrategy := ⟨fun _ => .ok ()⟩

/-- Two values fill the cache, the first one is used, and a third one is written. -/
def threeValues : List MemoryCall :=
  [.put (Ambient.plain 1) "a" [1, 2] none false, .put (Ambient.plain 2) "b" [3, 4] none false,
    .get (Ambient.plain 3) "a", .put (Ambient.plain 4) "c" [5, 6] none false,
    .get (Ambient.plain 5) "b", .get (Ambient.plain 6) "a"]

/-- The second value is the one that leaves. -/
theorem memory_exact_lru_three :
    (answers fourBytes.memoryStep threeValues (fourBytes.fromBuilder (Ambient.plain 0) ()).2).1 =
      [.ok none, .ok none, .ok (some [1, 2]), .ok none, .ok none, .ok (some [1, 2])] := by
  have plain : ∀ call ∈ threeValues, call.Plain fourBytes := by
    have written : ∀ (now : Nat) (key : String) (first second : UInt8),
        (MemoryCall.put (Ambient.plain now) key [first, second] none false).Plain fourBytes :=
      fun now _ _ _ => ⟨Ambient.plain_usesLru now, List.cons_ne_nil _ _, by simp [fourBytes], rfl⟩
    simp only [threeValues, List.forall_mem_cons]
    exact ⟨written .., written .., trivial, written .., trivial, trivial, fun _ mem => by cases mem⟩
  have room : Allocatable fourBytes.keyStrategy fourBytes.maxMemoryBytes
      (threeValues.map MemoryCall.op) [] := by
    refine ⟨fun entry same => ?_, fun entry same => ?_, fun entry same => ?_, fun entry same => ?_,
      fun entry same => ?_, fun entry same => ?_, trivial⟩
    all_goals cases same
    · decide
    · decide
    · decide
  exact (fourBytes.memory_exact_lru (Or.inl rfl) (Ambient.plain 0) () threeValues (by decide) plain
    room).1

end RivetCache
