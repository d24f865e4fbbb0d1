/-
**Statistics and telemetry.**

A context cache counts what it does twice: in its `CacheStats`, under the lock and at once, and in the
events it records once the lock is released. A call that returns early has counted and not recorded.

* `Tallied`: every counter is the total its events carry, as far as a `u64` goes;
* `Owes`: the same, up to what the call in progress has still to record;
* `Call.Settles`: the calls that record all they count, `step_owes`: no other call does;
* `telemetry_agrees`: runs of these calls keep counters and events in agreement;
* `lost_expiration`: a `get` that counts an expiration and records none.

No law of the injected store is assumed.
-/

import RivetCache.Cache.Run

set_option linter.unusedSectionVars false

namespace RivetCache

open Library

variable {σ : Type}

/-! ### Counters and events -/

/-- What is both counted and recorded. -/
inductive Counter where
  | memoryHits
  | diskHits
  | misses
  | writes
  | memoryEvictions
  | diskEvictions
  | expirations
  | corruptions
  deriving DecidableEq

def CacheStats.counter (stats : CacheStats) : Counter → Nat
  | .memoryHits => stats.memoryHits
  | .diskHits => stats.diskHits
  | .misses => stats.misses
  | .writes => stats.writes
  | .memoryEvictions => stats.memoryEvictions
  | .diskEvictions => stats.diskEvictions
  | .expirations => stats.expirations
  | .corruptions => stats.corruptions

/-- What an event carries. -/
def CacheEvent.carried : CacheEvent → Counter → Nat
  | .memoryHit => Pi.single .memoryHits 1
  | .persistentHit => Pi.single .diskHits 1
  | .miss => Pi.single .misses 1
  | .write => Pi.single .writes 1
  | .memoryEviction count => Pi.single .memoryEvictions count
  | .persistentEviction count => Pi.single .diskEvictions count
  | .expiration count => Pi.single .expirations count
  | .corruption count => Pi.single .corruptions count
  | .invalidation _ => 0
  | .clear => 0

namespace CacheState

/-- The total that the recorded events carry. -/
def recorded (s : CacheState σ) (counter : Counter) : Nat :=
  (s.events.map fun event => event.carried counter).sum

/-- The counters are the recorded totals, up to what is still to be recorded. -/
def Owes (s : CacheState σ) (due : Counter → Nat) : Prop :=
  ∀ counter, s.stats.counter counter = min (s.recorded counter + due counter) u64Max

/-- **Counters and events agree**: each counter is the total of its events, where that total is one a
counter can hold. -/
def Tallied (s : CacheState σ) : Prop :=
  ∀ counter, s.stats.counter counter = min (s.recorded counter) u64Max

end CacheState

section Owes

variable {s after : CacheState σ} {due owed : Counter → Nat}

theorem CacheState.Tallied.owes (tallied : s.Tallied) : s.Owes 0 := tallied

theorem CacheState.Owes.tallied (owes : s.Owes due) (nothing : due = 0) : s.Tallied := by
  subst nothing
  exact owes

/-- A change of neither. -/
theorem CacheState.Owes.of_kept (owes : s.Owes due) (stats : after.stats = s.stats)
    (events : after.events = s.events) : after.Owes due := by
  intro counter
  have same : after.recorded counter = s.recorded counter := by
    unfold CacheState.recorded
    rw [events]
  rw [stats, same]
  exact owes counter

/-- An amount is counted. -/
theorem CacheState.Owes.count {update : CacheStats → CacheStats} {counter : Counter} {amount : Nat}
    (counts : ∀ stats other, (update stats).counter other =
      if other = counter then satAdd (stats.counter other) amount else stats.counter other)
    (owes : s.Owes due) : (s.count update).Owes (due + Pi.single counter amount) := by
  intro other
  have before := owes other
  have same : (s.count update).recorded other = s.recorded other := rfl
  show (update s.stats).counter other = _
  rw [same, counts, Pi.add_apply]
  by_cases own : other = counter
  · subst own
    rw [if_pos rfl, Pi.single_eq_same, before]
    unfold satAdd
    omega
  · rw [if_neg own, Pi.single_eq_of_ne own, before, Nat.add_zero]

/-- An event is recorded, and carries what is due of its counter. -/
theorem CacheState.Owes.record (event : CacheEvent) {amount : Counter → Nat}
    (carries : ∀ counter, min (event.carried counter) u64Max = min (amount counter) u64Max)
    (owes : s.Owes (due + amount)) : (s.record event).Owes due := by
  intro counter
  have before := owes counter
  have total : (s.record event).recorded counter = event.carried counter + s.recorded counter := rfl
  show s.stats.counter counter = _
  have same := carries counter
  rw [before, total, Pi.add_apply]
  omega

/-- An event that carries nothing. -/
theorem CacheState.Owes.record_idle (event : CacheEvent) (idle : event.carried = 0)
    (owes : s.Owes due) : (s.record event).Owes due := by
  have zero : s.Owes (due + 0) := by rwa [add_zero]
  refine CacheState.Owes.record event (fun counter => ?_) zero
  rw [idle]

theorem carried_single {event : CacheEvent} {counter : Counter} {count amount : Nat}
    (carried : event.carried = Pi.single counter count)
    (exact_count : min count u64Max = min amount u64Max) (other : Counter) :
    min (event.carried other) u64Max =
      min ((Pi.single counter amount : Counter → Nat) other) u64Max := by
  rw [carried]
  by_cases own : other = counter
  · subst own
    rw [Pi.single_eq_same, Pi.single_eq_same, exact_count]
  · rw [Pi.single_eq_of_ne own, Pi.single_eq_of_ne own]

/-- An event is recorded unless its count is zero. -/
theorem CacheState.Owes.recordCount (event : Nat → CacheEvent) (count : Nat) {counter : Counter}
    {amount : Nat} (carried : (event count).carried = Pi.single counter count)
    (exact_count : min count u64Max = min amount u64Max)
    (owes : s.Owes (due + Pi.single counter amount)) : (s.recordCount event count).Owes due := by
  by_cases positive : 0 < count
  · have recorded : s.recordCount event count = s.record (event count) := by
      unfold CacheState.recordCount CacheState.record
      rw [if_pos positive]
    rw [recorded]
    exact owes.record (event count) (carried_single carried exact_count)
  · have bound : 0 < u64Max := by decide
    have zero : amount = 0 := by omega
    have same : s.recordCount event count = s := by
      unfold CacheState.recordCount
      rw [if_neg positive]
    rw [same]
    rwa [zero, Pi.single_zero, add_zero] at owes

end Owes

/-! ### Loops -/

section Loop

variable (exceeds : CacheState σ → Bool) (victim : Nat → CacheState σ → Option EvictionCandidate)
  (evict : Nat → EvictionCandidate → CacheState σ → Except IoError Unit × CacheState σ)

/-- No round of the loop fails once something has been counted. -/
def LoopSettles (counted : Prop) : Nat → Nat → CacheState σ → Prop
  | 0, _, _ => True
  | fuel + 1, round, s => exceeds s = true → ∀ candidate, victim round s = some candidate →
      match evict round candidate s with
      | (.error _, _) => ¬ counted
      | (.ok _, after) => LoopSettles True fuel (round + 1) after

/-- **What a loop counts** is one of the counter for each round, and it settles unless it fails after
something has been counted. -/
theorem evictLoop_owes (counter : Counter)
    (counts : ∀ round candidate s due, victim round s = some candidate → s.Owes due →
      (∃ after, evict round candidate s = (.ok (), after) ∧ after.Owes (due + Pi.single counter 1)) ∨
        ∃ error after, evict round candidate s = (.error error, after) ∧ after.Owes due) :
    ∀ fuel round s due, s.Owes due →
      (∃ amount after, evictLoop exceeds victim evict fuel round s = (.ok (min amount u64Max), after) ∧
        after.Owes (due + Pi.single counter amount) ∧
        ∀ counted, LoopSettles exceeds victim evict counted fuel round s) ∨
      ∃ error amount after, evictLoop exceeds victim evict fuel round s = (.error error, after) ∧
        after.Owes (due + Pi.single counter amount) ∧
        ∀ counted, LoopSettles exceeds victim evict counted fuel round s ↔ amount = 0 ∧ ¬ counted := by
  intro fuel
  induction fuel with
  | zero =>
      intro round s due owes
      refine Or.inl ⟨0, s, rfl, ?_, fun _ => trivial⟩
      rwa [Pi.single_zero, add_zero]
  | succ fuel step =>
      intro round s due owes
      have idle : s.Owes (due + Pi.single counter 0) := by rwa [Pi.single_zero, add_zero]
      unfold evictLoop LoopSettles
      cases above : exceeds s with
      | false => exact Or.inl ⟨0, s, rfl, idle, fun _ impossible => by cases impossible⟩
      | true =>
          cases chosen : victim round s with
          | none => exact Or.inl ⟨0, s, rfl, idle, fun _ _ _ impossible => by cases impossible⟩
          | some candidate =>
              simp only [if_true, forall_const, Option.some.injEq, forall_eq']
              rcases counts round candidate s due chosen owes with
                ⟨next, evicted, counted⟩ | ⟨error, next, failed, uncounted⟩
              · have grows : ∀ amount, due + Pi.single counter 1 + Pi.single counter amount =
                    due + Pi.single counter (amount + 1) := by
                  intro amount
                  rw [add_assoc, ← Pi.single_add, add_comm 1]
                simp only [evicted, andThen_ok]
                rcases step (round + 1) next _ counted with
                  ⟨amount, after, rest, owed, settles⟩ | ⟨error, amount, after, rest, owed, settles⟩
                · refine Or.inl ⟨amount + 1, after, ?_, grows amount ▸ owed, fun _ => settles True⟩
                  rw [rest]
                  simp only [andThen_ok, satAdd]
                  congr 2
                  omega
                · refine Or.inr ⟨error, amount + 1, after, ?_, grows amount ▸ owed, fun _ => ?_⟩
                  · rw [rest, andThen_error]
                  · rw [settles True]
                    simp
              · simp only [failed, andThen_error]
                refine Or.inr ⟨error, 0, next, rfl, ?_, fun _ => ?_⟩
                · rwa [Pi.single_zero, add_zero]
                · simp

end Loop

/-! ### Functions -/

namespace ContextCache

variable {cache : ContextCache σ} {amb : Ambient} {s : CacheState σ} {due : Counter → Nat}
  {key : String}

/-- The removal of a key from the store succeeds. -/
def RemovalSucceeds (cache : ContextCache σ) (amb : Ambient) (site : StoreSite) (key : String)
    (s : CacheState σ) : Prop :=
  ∀ store, cache.store = some store → amb.fault site = none ∧ (store.remove key s.store).1 = .ok ()

theorem callStore_owes {α : Type} (amb : Ambient) (site : StoreSite) (call : σ → Except IoError α × σ)
    (owes : s.Owes due) : (callStore amb site call s).2.Owes due := by
  obtain ⟨stored, same⟩ := callStore_state amb site call s
  rw [same]
  exact owes.of_kept rfl rfl

theorem callStore_ok_iff {α : Type} {site : StoreSite} {call : σ → Except IoError α × σ}
    {value : α} :
    (callStore amb site call s).1 = .ok value ↔
      amb.fault site = none ∧ (call s.store).1 = .ok value := by
  unfold callStore
  cases amb.fault site with
  | none => simp
  | some error => simp

/-- **Removing an index record** counts an expiration where asked to, or fails and counts nothing. -/
theorem removeDiskRecordLocked_owes (cache : ContextCache σ) (amb : Ambient) (site : StoreSite)
    (expired : Bool) {record : StoreRecord}
    (found : s.disk.lookup key = some record) (owes : s.Owes due) :
    (cache.RemovalSucceeds amb site key s ∧
      ∃ after, cache.removeDiskRecordLocked amb site key expired s = (.ok (), after) ∧
        after.Owes (due + if expired then Pi.single Counter.expirations 1 else 0)) ∨
    (¬ cache.RemovalSucceeds amb site key s ∧
      ∃ error after, cache.removeDiskRecordLocked amb site key expired s = (.error error, after) ∧
        after.Owes due) := by
  have finish : ∀ t : CacheState σ, t.Owes due → ({ t with
      diskBytes := satSub t.diskBytes record.storedBytes
      stats.expirations :=
        if expired then satAdd t.stats.expirations 1 else t.stats.expirations } :
      CacheState σ).Owes (due + if expired then Pi.single Counter.expirations 1 else 0) := by
    intro t owes
    cases expired with
    | false => exact owes.of_kept rfl rfl
    | true =>
        have counted : (t.count fun stats =>
            { stats with expirations := satAdd stats.expirations 1 }).Owes
              (due + Pi.single Counter.expirations 1) :=
          CacheState.Owes.count (fun stats other => by cases other <;> rfl) owes
        exact counted.of_kept rfl rfl
  have dropped : ({ s with disk := s.disk.erase key } : CacheState σ).Owes due :=
    owes.of_kept rfl rfl
  unfold removeDiskRecordLocked
  rw [found]
  cases injected : cache.store with
  | none =>
      refine Or.inl ⟨fun store impossible => ?_, _, rfl, finish _ dropped⟩
      rw [injected] at impossible
      cases impossible
  | some store =>
      have called := callStore_owes amb site (store.remove key) dropped
      have succeeds := @callStore_ok_iff σ amb { s with disk := s.disk.erase key } Unit site
        (store.remove key) ()
      have iff : cache.RemovalSucceeds amb site key s ↔
          (callStore amb site (store.remove key) { s with disk := s.disk.erase key }).1 = .ok () := by
        rw [succeeds]
        constructor
        · exact fun all => all store injected
        · intro own other same
          rw [injected] at same
          cases same
          exact own
      rw [iff]
      cases outcome : callStore amb site (store.remove key) { s with disk := s.disk.erase key } with
      | mk result after =>
          rw [outcome] at called
          cases result with
          | ok value =>
              refine Or.inl ⟨rfl, _, ?_, finish after called⟩
              simp only [outcome, andThen_ok]
          | error error =>
              refine Or.inr ⟨fun impossible => (by cases impossible), error, after, ?_, called⟩
              simp only [outcome, andThen_error]

/-- **Eviction from memory** succeeds. -/
theorem evictMemoryLocked_owes (cache : ContextCache σ) (amb : Ambient) (owes : s.Owes due) :
    ∃ amount after, cache.evictMemoryLocked amb s = (.ok (min amount u64Max), after) ∧
      after.Owes (due + Pi.single Counter.memoryEvictions amount) := by
  have rounds : ∀ (candidate : EvictionCandidate) (t : CacheState σ) owed, t.Owes owed →
      ∃ after, evictMemoryRecord candidate t = (.ok (), after) ∧
        after.Owes (owed + Pi.single Counter.memoryEvictions 1) := by
    intro candidate t owed holds
    refine ⟨_, rfl, CacheState.Owes.count (fun stats other => by cases other <;> rfl) ?_⟩
    exact holds.of_kept (forgetMemory_stats _ _) (forgetMemory_events _ _)
  obtain ⟨evicted, last, succeeds, _⟩ :=
    evictMemoryLocked_ok (I := fun _ => True) cache amb (fun _ _ _ _ _ _ => trivial) trivial
  unfold evictMemoryLocked at succeeds ⊢
  rcases evictLoop_owes (fun s : CacheState σ => decide (cache.maxMemoryBytes < s.memoryBytes))
    (fun round s => amb.selectVictim .memory round s.memoryCandidates)
    (fun _ candidate s => evictMemoryRecord candidate s) .memoryEvictions
    (fun _ candidate t owed _ holds => Or.inl (rounds candidate t owed holds))
    s.memory.entries.length 0 s due owes with
    ⟨amount, after, done, owed, _⟩ | ⟨error, amount, after, failed, _⟩
  · exact ⟨amount, after, done, owed⟩
  · rw [succeeds] at failed
    cases failed

/-- The rounds of `evict_disk_locked` do not fail once something has been counted. -/
def DiskLoopSettles (cache : ContextCache σ) (amb : Ambient) (counted : Prop) (s : CacheState σ) :
    Prop :=
  LoopSettles (fun s : CacheState σ => decide (cache.maxDiskBytes < s.diskBytes))
    (fun round s => amb.selectVictim .disk round s.diskCandidates)
    (cache.evictDiskRecord amb) counted s.disk.entries.length 0 s

/-- **Eviction from the persistent tier** counts its rounds, also those before one that fails. -/
theorem evictDiskLocked_owes (cache : ContextCache σ) (amb : Ambient) (owes : s.Owes due) :
    (∃ amount after, cache.evictDiskLocked amb s = (.ok (min amount u64Max), after) ∧
      after.Owes (due + Pi.single Counter.diskEvictions amount) ∧
      ∀ counted, cache.DiskLoopSettles amb counted s) ∨
    ∃ error amount after, cache.evictDiskLocked amb s = (.error error, after) ∧
      after.Owes (due + Pi.single Counter.diskEvictions amount) ∧
      ∀ counted, cache.DiskLoopSettles amb counted s ↔ amount = 0 ∧ ¬ counted := by
  refine evictLoop_owes _ _ _ .diskEvictions (fun round candidate t owed chosen holds => ?_)
    s.disk.entries.length 0 s due owes
  obtain ⟨record, found, _⟩ := selectVictim_disk chosen
  unfold evictDiskRecord
  rcases removeDiskRecordLocked_owes cache amb (.removeVictim round) false found holds with
    ⟨_, after, removed, kept⟩ | ⟨_, error, after, failed, kept⟩
  · have kept : after.Owes owed := by simpa using kept
    refine Or.inl ⟨_, by rw [removed, andThen_ok], ?_⟩
    exact CacheState.Owes.count (fun stats other => by cases other <;> rfl) kept
  · exact Or.inr ⟨error, after, by rw [failed, andThen_error], kept⟩

theorem admitMemory_owes (cache : ContextCache σ) (amb : Ambient) (key : String)
    (entry : StoredEntry) (owes : s.Owes due) :
    ∃ amount after, cache.admitMemory amb key entry s = (.ok (min amount u64Max), after) ∧
      after.Owes (due + Pi.single Counter.memoryEvictions amount) := by
  unfold admitMemory
  split
  · refine evictMemoryLocked_owes cache amb (owes.of_kept ?_ ?_)
    · exact forgetMemory_stats _ _
    · exact forgetMemory_events _ _
  · exact ⟨0, s, rfl, by rwa [Pi.single_zero, add_zero]⟩

/-! ### Reading -/

/-- The persistent tier serves a key whose record the index lists. -/
def PersistentServes (cache : ContextCache σ) (amb : Ambient) (key : String) (record : StoreRecord)
    (s : CacheState σ) : Prop :=
  ∃ store entry, cache.store = some store ∧ amb.fault .read = none ∧
    (store.get key s.store).1 = .ok (some entry) ∧
    entry.expiresAt = record.expiresAt ∧ entry.pinned = record.pinned

/-- **Where a `get` that has found its memory record expired records that**: the index does not list the
key; or it lists it expired, and the removal succeeds; or the persistent tier serves the key. -/
def PersistentSettles (cache : ContextCache σ) (amb : Ambient) (key : String) (s : CacheState σ) :
    Prop :=
  ∀ record, s.disk.lookup key = some record →
    if isExpired record.expiresAt amb.now then cache.RemovalSucceeds amb .removeExpired key s
    else cache.PersistentServes amb key record s

/-- A counted expiration of at most one memory record is due. -/
abbrev expired (expirations : Nat) : Counter → Nat := Pi.single Counter.expirations expirations

theorem expired_zero : expired 0 = 0 := Pi.single_zero _

theorem countMiss_owes (owes : s.Owes due) :
    ((countMiss s).record .miss).Owes due := by
  have counted : (countMiss s).Owes (due + Pi.single Counter.misses 1) :=
    CacheState.Owes.count (fun stats other => by cases other <;> rfl) owes
  exact counted.record .miss (carried_single rfl (by decide))

/-- An entry is discarded: what was due stays due. -/
theorem discardCorrupt_owes {site : StoreSite} (store : PersistentStore σ) (record : StoreRecord)
    (owes : s.Owes due) : (discardCorrupt amb site store key record s).2.Owes due := by
  unfold discardCorrupt
  have called := callStore_owes amb site (store.remove key) owes
  cases outcome : callStore amb site (store.remove key) s with
  | mk result after =>
      rw [outcome] at called
      cases result with
      | error error => exact called
      | ok value =>
          rw [andThen_ok]
          have forgotten : (after.forgetDisk key record.storedBytes).Owes due :=
            called.of_kept rfl rfl
          have counted : ((after.forgetDisk key record.storedBytes).count fun stats =>
              { stats with corruptions := satAdd stats.corruptions 1 }).Owes
                (due + Pi.single Counter.corruptions 1) :=
            CacheState.Owes.count (fun stats other => by cases other <;> rfl) forgotten
          have missed : (countMiss ((after.forgetDisk key record.storedBytes).count fun stats =>
              { stats with corruptions := satAdd stats.corruptions 1 })).Owes
                (due + Pi.single Counter.misses 1 + Pi.single Counter.corruptions 1) := by
            rw [add_right_comm]
            exact CacheState.Owes.count (fun stats other => by cases other <;> rfl) counted
          have told := missed.record (.corruption 1) (carried_single rfl (by decide))
          exact told.record .miss (carried_single rfl (by decide))

/-- A persistent hit records all it and the lookup before it have counted. -/
theorem servePersistent_owes (cache : ContextCache σ) {expirations : Nat}
    (record : StoreRecord) (entry : StoredEntry) (owes : s.Owes (expired expirations)) :
    (cache.servePersistent amb key expirations record entry s).2.Owes 0 := by
  unfold servePersistent
  have touched : (s.nextTick.touchDisk key record).Owes (expired expirations) :=
    owes.of_kept rfl rfl
  have hit : ((s.nextTick.touchDisk key record).count fun stats =>
      { stats with diskHits := satAdd stats.diskHits 1 }).Owes
        (expired expirations + Pi.single Counter.diskHits 1) :=
    CacheState.Owes.count (fun stats other => by cases other <;> rfl) touched
  obtain ⟨amount, after, admitted, owed⟩ := admitMemory_owes cache amb key entry hit
  simp only [admitted, andThen_ok]
  have order : expired expirations + Pi.single Counter.diskHits 1 +
      Pi.single Counter.memoryEvictions amount =
      0 + Pi.single Counter.diskHits 1 + Pi.single Counter.memoryEvictions amount +
        expired expirations := by
    funext counter
    simp only [Pi.add_apply, Pi.zero_apply]
    omega
  rw [order] at owed
  have expirations_told := owed.recordCount .expiration expirations rfl rfl
  have evictions_told := expirations_told.recordCount .memoryEviction (min amount u64Max) rfl (by simp)
  exact evictions_told.record .persistentHit (carried_single rfl (by decide))

/-- A live record: the persistent tier serves the key, or what was due stays due. -/
theorem getStored_owes (cache : ContextCache σ) {expirations : Nat} {record : StoreRecord}
    (found : s.disk.lookup key = some record)
    (live : isExpired record.expiresAt amb.now = false) (owes : s.Owes (expired expirations)) :
    (cache.PersistentServes amb key record s ∧
      (cache.getPersistent amb key expirations s).2.Owes 0) ∨
    (¬ cache.PersistentServes amb key record s ∧
      (cache.getPersistent amb key expirations s).2.Owes (expired expirations)) := by
  unfold getPersistent
  simp only [found, live, Bool.false_eq_true, if_false]
  cases injected : cache.store with
  | none =>
      refine Or.inr ⟨?_, countMiss_owes (owes.of_kept rfl rfl)⟩
      rintro ⟨store, entry, impossible, _⟩
      rw [injected] at impossible
      cases impossible
  | some store =>
      have called := callStore_owes amb .read (store.get key) owes
      have answers : ∀ {value}, cache.PersistentServes amb key record s →
          (callStore amb .read (store.get key) s).1 = value → ∃ entry, value = .ok (some entry) ∧
            entry.expiresAt = record.expiresAt ∧ entry.pinned = record.pinned := by
        rintro _ ⟨other, entry, same, works, read, expiry, pin⟩ rfl
        rw [injected] at same
        cases same
        exact ⟨entry, callStore_ok_iff.mpr ⟨works, read⟩, expiry, pin⟩
      cases outcome : callStore amb .read (store.get key) s with
      | mk result after =>
          have called : after.Owes (expired expirations) := by rwa [outcome] at called
          have result_eq : (callStore amb .read (store.get key) s).1 = result := by rw [outcome]
          rcases result with error | _ | entry
          · refine Or.inr ⟨fun serves => ?_, ?_⟩
            · obtain ⟨_, impossible, _⟩ := answers serves result_eq
              cases impossible
            · simp only [outcome]
              split
              · exact discardCorrupt_owes store record called
              · exact called
          · refine Or.inr ⟨fun serves => ?_, ?_⟩
            · obtain ⟨_, impossible, _⟩ := answers serves result_eq
              cases impossible
            · simp only [outcome]
              exact countMiss_owes (called.of_kept rfl rfl)
          · obtain ⟨works, read⟩ := callStore_ok_iff.mp result_eq
            by_cases matching : entry.expiresAt = record.expiresAt ∧ entry.pinned = record.pinned
            · refine Or.inl ⟨⟨store, entry, injected, works, read, matching.1, matching.2⟩, ?_⟩
              simp only [outcome, matching.1, matching.2, bne_self_eq_false, Bool.or_self, Bool.false_eq_true,
                if_false]
              exact servePersistent_owes cache record entry called
            · have differs : (entry.expiresAt != record.expiresAt ||
                  entry.pinned != record.pinned) = true := by
                by_contra same
                simp only [Bool.not_eq_true, Bool.or_eq_false_iff, bne_eq_false_iff_eq] at same
                exact matching same
              refine Or.inr ⟨fun serves => ?_, ?_⟩
              · obtain ⟨other, same, expiry, pin⟩ := answers serves result_eq
                cases same
                exact matching ⟨expiry, pin⟩
              · simp only [outcome, differs, if_true]
                exact discardCorrupt_owes store record called

/-- **The persistent half of `get`** records the expiration it is told of, unless it ends where
`PersistentSettles` fails. -/
theorem getPersistent_owes (cache : ContextCache σ) (amb : Ambient) (key : String)
    {expirations : Nat} (owes : s.Owes (expired expirations)) :
    (cache.PersistentSettles amb key s ∧ (cache.getPersistent amb key expirations s).2.Owes 0) ∨
      (¬ cache.PersistentSettles amb key s ∧
        (cache.getPersistent amb key expirations s).2.Owes (expired expirations)) := by
  cases found : s.disk.lookup key with
  | none =>
      refine Or.inl ⟨fun record impossible => ?_, ?_⟩
      · rw [found] at impossible
        cases impossible
      · have counted : (countMiss s).Owes (0 + Pi.single Counter.misses 1 + expired expirations) := by
          rw [zero_add, add_comm]
          exact CacheState.Owes.count (fun stats other => by cases other <;> rfl) owes
        have told := counted.recordCount .expiration expirations rfl rfl
        unfold getPersistent
        simp only [found]
        exact told.record .miss (carried_single rfl (by decide))
  | some record =>
      have only : cache.PersistentSettles amb key s ↔
          if isExpired record.expiresAt amb.now then cache.RemovalSucceeds amb .removeExpired key s
          else cache.PersistentServes amb key record s := by
        constructor
        · exact fun all => all record found
        · intro own other same
          rw [found] at same
          cases same
          exact own
      rw [only]
      cases past : isExpired record.expiresAt amb.now with
      | false =>
          simp only [Bool.false_eq_true, if_false]
          exact getStored_owes cache found past owes
      | true =>
          unfold getPersistent
          simp only [found, past, if_true]
          rcases removeDiskRecordLocked_owes cache amb .removeExpired true found owes with
            ⟨succeeds, after, removed, owed⟩ | ⟨fails, error, after, failed, owed⟩
          · refine Or.inl ⟨succeeds, ?_⟩
            rw [removed, andThen_ok]
            have counted : (countMiss after).Owes
                (0 + Pi.single Counter.misses 1 + expired (expirations + 1)) := by
              have order : (0 : Counter → Nat) + Pi.single Counter.misses 1 + expired (expirations + 1) =
                  expired expirations + (if true then Pi.single Counter.expirations 1 else 0) +
                    Pi.single Counter.misses 1 := by
                funext counter
                cases counter <;> simp [expired]
              rw [order]
              exact CacheState.Owes.count (fun stats other => by cases other <;> rfl) owed
            have told := counted.record (.expiration (satAdd expirations 1))
              (carried_single rfl (by simp [satAdd]))
            exact told.record .miss (carried_single rfl (by decide))
          · refine Or.inr ⟨fails, ?_⟩
            rw [failed, andThen_error]
            exact owed

/-- **Where `get` records all it counts.** -/
def GetSettles (cache : ContextCache σ) (amb : Ambient) (key : String) (s : CacheState σ) : Prop :=
  cache.keyStrategy.Accepts key → ∀ record, s.memory.lookup key = some record →
    isExpired record.expiresAt amb.now = true → cache.PersistentSettles amb key s

/-- What a call owes: nothing exactly where it settles. -/
def Leaves (settles : Prop) (after : CacheState σ) : Prop :=
  ∃ due, after.Owes due ∧ (due = 0 ↔ settles)

theorem leaves_of_settled {settles : Prop} {after : CacheState σ} (settled : settles)
    (owes : after.Owes 0) : Leaves settles after :=
  ⟨0, owes, iff_of_true rfl settled⟩

theorem single_eq_zero {counter : Counter} {amount : Nat} :
    (Pi.single counter amount : Counter → Nat) = 0 ↔ amount = 0 :=
  Pi.single_eq_zero_iff

theorem get_leaves (cache : ContextCache σ) (amb : Ambient) (key : String) (tallied : s.Tallied) :
    Leaves (cache.GetSettles amb key s) (cache.get amb key s).2 := by
  unfold get
  split
  case h_1 error refused =>
    refine leaves_of_settled (fun accepted => ?_) tallied.owes
    unfold KeyStrategy.Accepts at accepted
    rw [refused] at accepted
    cases accepted
  case h_2 accepted =>
    cases found : s.memory.lookup key with
    | none =>
        have nothing : s.Owes (expired 0) := expired_zero ▸ tallied.owes
        refine leaves_of_settled (fun _ record impossible => ?_) ?_
        · rw [found] at impossible
          cases impossible
        · rcases getPersistent_owes cache amb key nothing with ⟨_, owes⟩ | ⟨_, owes⟩
          · exact owes
          · rwa [expired_zero] at owes
    | some record =>
        cases past : isExpired record.expiresAt amb.now with
        | false =>
            refine leaves_of_settled (fun _ other same still => ?_) ?_
            · rw [found] at same
              cases same
              rw [past] at still
              cases still
            · simp only [past, Bool.false_eq_true, if_false]
              have touched : (s.nextTick.touchMemory key record).Owes 0 := tallied.owes.of_kept rfl rfl
              have hit : ((s.nextTick.touchMemory key record).count fun stats =>
                  { stats with memoryHits := satAdd stats.memoryHits 1 }).Owes
                    (0 + Pi.single Counter.memoryHits 1) :=
                CacheState.Owes.count (fun stats other => by cases other <;> rfl) touched
              exact hit.record .memoryHit (carried_single rfl (by decide))
        | true =>
            simp only [past, if_true]
            have forgotten : (s.forgetMemory key).Owes 0 :=
              tallied.owes.of_kept (forgetMemory_stats _ _) (forgetMemory_events _ _)
            have counted : ((s.forgetMemory key).count fun stats =>
                { stats with expirations := satAdd stats.expirations 1 }).Owes (expired 1) := by
              have grown : ((s.forgetMemory key).count fun stats =>
                  { stats with expirations := satAdd stats.expirations 1 }).Owes
                    (0 + Pi.single Counter.expirations 1) :=
                CacheState.Owes.count (fun stats other => by cases other <;> rfl) forgotten
              rwa [zero_add] at grown
            have same : cache.PersistentSettles amb key ((s.forgetMemory key).count fun stats =>
                { stats with expirations := satAdd stats.expirations 1 }) ↔
                cache.GetSettles amb key s := by
              have unmoved : cache.PersistentSettles amb key ((s.forgetMemory key).count fun stats =>
                  { stats with expirations := satAdd stats.expirations 1 }) ↔
                  cache.PersistentSettles amb key s := by
                unfold PersistentSettles RemovalSucceeds PersistentServes
                simp only [CacheState.count_disk, CacheState.count_store, forgetMemory_disk,
                  forgetMemory_store]
              rw [unmoved]
              constructor
              · exact fun settles _ _ _ _ => settles
              · exact fun all => all accepted record found past
            rcases getPersistent_owes cache amb key counted with
              ⟨settles, owes⟩ | ⟨unsettled, owes⟩
            · exact leaves_of_settled (same.mp settles) owes
            · refine ⟨expired 1, owes, ?_⟩
              unfold expired
              rw [single_eq_zero]
              exact iff_of_false one_ne_zero fun settles => unsettled (same.mpr settles)

/-! ### Writing -/

/-- The write does not fail where something has been `counted`, nor an eviction it makes necessary once
something has. -/
def WriteSettles (cache : ContextCache σ) (amb : Ambient) (store : PersistentStore σ) (key : String)
    (entry : StoredEntry) (counted : Prop) (s : CacheState σ) : Prop :=
  match callStore amb .write (store.putIfAbsent key entry) s with
  | (.error _, _) => ¬ counted
  | (.ok outcome, written) => outcome.inserted = true →
      cache.DiskLoopSettles amb counted (written.nextTick.indexRecord
        ⟨key, outcome.storedBytes, entry.expiresAt, entry.pinned, written.nextTick.tick⟩)

/-- **The persistent half of `put` records all it counts**: no store call fails once it has counted an
expiration or an eviction. -/
def PersistSettles (cache : ContextCache σ) (amb : Ambient) (key : String) (entry : StoredEntry)
    (s : CacheState σ) : Prop :=
  cache.fitsDisk entry.value = true → ∀ store, cache.store = some store →
    ∀ expirations dropped, cache.dropExpired amb key s = (.ok expirations, dropped) →
      dropped.disk.lookup key = none →
        cache.WriteSettles amb store key entry (expirations ≠ 0) dropped

/-- The expired record of the key is removed and counted, or nothing is. -/
theorem dropExpired_owes (cache : ContextCache σ) (amb : Ambient) (key : String)
    (tallied : s.Tallied) :
    (∃ expirations after, cache.dropExpired amb key s = (.ok expirations, after) ∧
      after.Owes (expired expirations)) ∨
    ∃ error after, cache.dropExpired amb key s = (.error error, after) ∧ after.Owes 0 := by
  have nothing : s.Owes (expired 0) := expired_zero ▸ tallied.owes
  unfold dropExpired
  cases found : s.disk.lookup key with
  | none => exact Or.inl ⟨0, s, rfl, nothing⟩
  | some record =>
      cases past : isExpired record.expiresAt amb.now with
      | false => exact Or.inl ⟨0, s, by simp [past], nothing⟩
      | true =>
          simp only [past, if_true]
          rcases removeDiskRecordLocked_owes cache amb .removeExpired true found tallied.owes with
            ⟨_, after, removed, owed⟩ | ⟨_, error, after, failed, owed⟩
          · refine Or.inl ⟨1, after, by rw [removed, andThen_ok], ?_⟩
            rwa [zero_add] at owed
          · exact Or.inr ⟨error, after, by rw [failed, andThen_error], owed⟩

/-- The write, and the evictions it makes necessary. Given that an expiration is due or not, it settles
exactly where it fails with nothing counted. -/
theorem writePersistent_owes (cache : ContextCache σ) (amb : Ambient) (store : PersistentStore σ)
    (key : String) (entry : StoredEntry) (owes : s.Owes due) :
    (∃ amount after, cache.writePersistent amb store key entry s = (.ok (min amount u64Max), after) ∧
      after.Owes (due + Pi.single Counter.diskEvictions amount) ∧
      ∀ counted, cache.WriteSettles amb store key entry counted s) ∨
    ∃ error amount after, cache.writePersistent amb store key entry s = (.error error, after) ∧
      after.Owes (due + Pi.single Counter.diskEvictions amount) ∧
      ∀ counted, cache.WriteSettles amb store key entry counted s ↔ amount = 0 ∧ ¬ counted := by
  have called := callStore_owes amb .write (store.putIfAbsent key entry) owes
  unfold writePersistent WriteSettles
  cases outcome : callStore amb .write (store.putIfAbsent key entry) s with
  | mk result written =>
      have called : written.Owes due := by rwa [outcome] at called
      cases result with
      | error error =>
          refine Or.inr ⟨error, 0, written, by rw [andThen_error], ?_, fun counted => ?_⟩
          · rwa [Pi.single_zero, add_zero]
          · simp
      | ok value =>
          simp only [andThen_ok]
          cases inserted : value.inserted with
          | false =>
              refine Or.inl ⟨0, written, by simp, ?_, fun _ impossible => by cases impossible⟩
              rwa [Pi.single_zero, add_zero]
          | true =>
              simp only [if_true, forall_const]
              exact evictDiskLocked_owes cache amb (called.of_kept rfl rfl)

/-- **The persistent half of `put`**: what it counts, and where it fails having counted something. -/
theorem putPersistent_owes (cache : ContextCache σ) (amb : Ambient) (key : String)
    (entry : StoredEntry) (tallied : s.Tallied) :
    (∃ expirations amount after,
      cache.putPersistent amb key entry s = (.ok (expirations, min amount u64Max), after) ∧
      after.Owes (expired expirations + Pi.single Counter.diskEvictions amount) ∧
      cache.PersistSettles amb key entry s) ∨
    ∃ error after, cache.putPersistent amb key entry s = (.error error, after) ∧
      Leaves (cache.PersistSettles amb key entry s) after := by
  have idle : s.Owes (expired 0 + Pi.single Counter.diskEvictions 0) := by
    rw [expired_zero, Pi.single_zero, add_zero]
    exact tallied.owes
  unfold putPersistent
  by_cases fits : cache.fitsDisk entry.value = true
  case neg =>
    simp only [fits, Bool.false_eq_true, if_false]
    exact Or.inl ⟨0, 0, s, rfl, idle, fun impossible => (fits impossible).elim⟩
  case pos =>
    simp only [fits, if_true]
    cases injected : cache.store with
    | none =>
        refine Or.inl ⟨0, 0, s, rfl, idle, fun _ store impossible => ?_⟩
        rw [injected] at impossible
        cases impossible
    | some store =>
        simp only
        rcases dropExpired_owes cache amb key tallied with
          ⟨expirations, dropped, drops, owed⟩ | ⟨error, dropped, fails, owed⟩
        · -- what decides is the write from the state reached
          have only : cache.PersistSettles amb key entry s ↔ (dropped.disk.lookup key = none →
              cache.WriteSettles amb store key entry (expirations ≠ 0) dropped) := by
            constructor
            · exact fun all => all fits store injected expirations dropped drops
            · intro own _ other same expirations' dropped' drops'
              rw [injected] at same
              cases same
              rw [drops] at drops'
              cases drops'
              exact own
          rw [only]
          simp only [drops, andThen_ok]
          cases found : dropped.disk.lookup key with
          | some record =>
              refine Or.inl ⟨expirations, 0, dropped, rfl, ?_, fun impossible => ?_⟩
              · rwa [Pi.single_zero, add_zero]
              · cases impossible
          | none =>
              simp only [forall_const]
              rcases writePersistent_owes cache amb store key entry owed with
                ⟨amount, after, written, grown, settles⟩ | ⟨error, amount, after, failed, grown, settles⟩
              · refine Or.inl ⟨expirations, amount, after, ?_, grown, settles _⟩
                rw [written, andThen_ok]
              · refine Or.inr ⟨error, after, by rw [failed, andThen_error], _, grown, ?_⟩
                rw [settles]
                constructor
                · intro nothing
                  have evictions := congrFun nothing .diskEvictions
                  have expiration := congrFun nothing .expirations
                  simp [expired] at evictions expiration
                  exact ⟨evictions, by simpa using expiration⟩
                · rintro ⟨rfl, uncounted⟩
                  have zero : expirations = 0 := by simpa using uncounted
                  rw [zero, expired_zero, Pi.single_zero, add_zero]
        · refine Or.inr ⟨error, dropped, by rw [fails, andThen_error], ?_⟩
          refine leaves_of_settled (fun _ _ _ expirations dropped' drops' => ?_) owed
          rw [fails] at drops'
          cases drops'

/-- **Where `put` records all it counts.** -/
def PutSettles (cache : ContextCache σ) (amb : Ambient) (key : String) (value : List UInt8)
    (ttl : Option Duration) (pinned : Bool) (s : CacheState σ) : Prop :=
  cache.keyStrategy.Accepts key → value ≠ [] →
    cache.PersistSettles amb key (cache.putEntry amb value ttl pinned) s

theorem put_leaves (cache : ContextCache σ) (amb : Ambient) (key : String) (value : List UInt8)
    (ttl : Option Duration) (pinned : Bool) (tallied : s.Tallied) :
    Leaves (cache.PutSettles amb key value ttl pinned s) (cache.put amb key value ttl pinned s).2 := by
  unfold put
  split
  case h_1 error refused =>
    refine leaves_of_settled (fun accepted => ?_) tallied.owes
    unfold KeyStrategy.Accepts at accepted
    rw [refused] at accepted
    cases accepted
  case h_2 accepted =>
    cases value with
    | nil => exact leaves_of_settled (fun _ nonempty => (nonempty rfl).elim) tallied.owes
    | cons first rest =>
        have only : cache.PutSettles amb key (first :: rest) ttl pinned s ↔
            cache.PersistSettles amb key (cache.putEntry amb (first :: rest) ttl pinned) s := by
          constructor
          · exact fun all => all accepted (by simp)
          · exact fun own _ _ => own
        rw [only]
        simp only [List.isEmpty_cons, Bool.false_eq_true, if_false]
        rcases putPersistent_owes cache amb key (cache.putEntry amb (first :: rest) ttl pinned) tallied
          with ⟨expirations, amount, middle, persisted, owed, settles⟩ |
            ⟨error, after, failed, leaves⟩
        · rw [persisted, andThen_ok]
          obtain ⟨evictions, after, admitted, grown⟩ := admitMemory_owes cache amb key
            (cache.putEntry amb (first :: rest) ttl pinned) owed
          simp only [admitted, andThen_ok]
          have counted : (after.count fun stats =>
              { stats with writes := satAdd stats.writes 1 }).Owes (0 + Pi.single Counter.writes 1 +
                Pi.single Counter.diskEvictions amount + Pi.single Counter.memoryEvictions evictions +
                expired expirations) := by
            have order : (0 : Counter → Nat) + Pi.single Counter.writes 1 +
                Pi.single Counter.diskEvictions amount + Pi.single Counter.memoryEvictions evictions +
                expired expirations =
                expired expirations + Pi.single Counter.diskEvictions amount +
                  Pi.single Counter.memoryEvictions evictions + Pi.single Counter.writes 1 := by
              funext counter
              cases counter <;> simp [expired]
            rw [order]
            exact CacheState.Owes.count (fun stats other => by cases other <;> rfl) grown
          have expirations_told := counted.recordCount .expiration expirations rfl rfl
          have memory_told :=
            expirations_told.recordCount .memoryEviction (min evictions u64Max) rfl (by simp)
          have disk_told := memory_told.recordCount .persistentEviction (min amount u64Max) rfl (by simp)
          exact leaves_of_settled settles (disk_told.record .write (carried_single rfl (by decide)))
        · rw [failed, andThen_error]
          exact leaves

/-! ### Calls -/

theorem invalidate_tallied (cache : ContextCache σ) (amb : Ambient) (key : String)
    (tallied : s.Tallied) : (cache.invalidate amb key s).2.Tallied := by
  unfold invalidate
  split
  case h_1 _ _ => exact tallied
  case h_2 _ =>
    have removed : (cache.removeStored amb key s).2.Owes 0 := by
      unfold removeStored
      split
      case h_1 _ => exact tallied.owes
      case h_2 store _ => exact callStore_owes amb _ _ tallied.owes
    have dropped : (andThen (cache.removeStored amb key s) fun _ s =>
        ((.ok () : Except IoError Unit), dropKey key s)).2.Owes 0 :=
      andThen_preserves (P := fun t : CacheState σ => t.Owes 0) removed fun _ t _ holds => by
        have forgotten : (t.forgetMemory key).Owes 0 :=
          holds.of_kept (forgetMemory_stats _ _) (forgetMemory_events _ _)
        show (dropKey key t).Owes 0
        unfold dropKey
        simp only
        split
        · exact forgotten.record_idle (.invalidation 1) rfl
        · exact CacheState.Owes.record_idle (.invalidation 1) rfl (forgotten.of_kept rfl rfl)
    exact dropped.tallied rfl

theorem clear_tallied (cache : ContextCache σ) (amb : Ambient) (tallied : s.Tallied) :
    (cache.clear amb s).2.Tallied := by
  have cleared : (cache.clearStored amb s).2.Owes 0 := by
    unfold clearStored
    split
    case h_1 _ => exact tallied.owes
    case h_2 store _ => exact callStore_owes amb _ _ tallied.owes
  have dropped : (andThen (cache.clearStored amb s) fun _ s =>
      ((.ok () : Except IoError Unit), dropAll s)).2.Owes 0 :=
    andThen_preserves (P := fun t : CacheState σ => t.Owes 0) cleared fun _ t _ holds =>
      CacheState.Owes.record_idle .clear rfl (holds.of_kept rfl rfl)
  exact dropped.tallied rfl

/-- **Where a call records all it counts.** -/
def Settles (cache : ContextCache σ) (call : Call) (s : CacheState σ) : Prop :=
  match call with
  | .put amb key value ttl pinned => cache.PutSettles amb key value ttl pinned s
  | .get amb key => cache.GetSettles amb key s
  | .invalidate _ _ => True
  | .clear _ => True

/-- **One call**: what it leaves owed is nothing exactly where it settles. -/
theorem step_leaves (cache : ContextCache σ) (call : Call) (tallied : s.Tallied) :
    Leaves (cache.Settles call s) (cache.step call s) := by
  cases call with
  | put amb key value ttl pinned => exact put_leaves cache amb key value ttl pinned tallied
  | get amb key => exact get_leaves cache amb key tallied
  | invalidate amb key =>
      exact leaves_of_settled trivial (invalidate_tallied cache amb key tallied).owes
  | clear amb => exact leaves_of_settled trivial (clear_tallied cache amb tallied).owes

/-- **A call breaks the agreement exactly where it does not settle**, as long as no counter has reached
its bound. -/
theorem step_tallied_iff (cache : ContextCache σ) (call : Call) (tallied : s.Tallied)
    (room : ∀ counter, (cache.step call s).stats.counter counter < u64Max) :
    (cache.step call s).Tallied ↔ cache.Settles call s := by
  obtain ⟨due, owes, iff⟩ := step_leaves cache call tallied
  rw [← iff]
  constructor
  · intro agrees
    funext counter
    have below := room counter
    have counted := owes counter
    have told := agrees counter
    show due counter = 0
    omega
  · exact owes.tallied

/-! ### Construction -/

theorem tallied_initial (store : σ) : (CacheState.initial store).Tallied := by
  intro counter
  cases counter <;> rfl

/-- The expired records of the snapshot are counted. -/
theorem loadRecords_owes (store : PersistentStore σ) (amb : Ambient) :
    ∀ (records : List StoreRecord) (s : CacheState σ) (due : Counter → Nat) expirations after,
      s.Owes due → loadRecords store amb records s = (.ok expirations, after) →
      ∃ amount, expirations = min amount u64Max ∧ after.Owes (due + Pi.single Counter.expirations amount)
  | [], s, due, expirations, after, owes, loaded => by
      cases loaded
      exact ⟨0, rfl, by rwa [Pi.single_zero, add_zero]⟩
  | record :: rest, s, due, expirations, after, owes, loaded => by
      unfold loadRecords at loaded
      split at loaded
      case isTrue _ =>
        obtain ⟨_, called, removed, loaded⟩ := andThen_eq_ok.mp loaded
        obtain ⟨more, last, continued, ending⟩ := andThen_eq_ok.mp loaded
        obtain ⟨same, rfl⟩ := Prod.mk.inj ending
        cases same
        have kept : called.Owes due := by
          have owed := callStore_owes amb (.removeAtLoad record.key) (store.remove record.key) owes
          rwa [removed] at owed
        have counted : (called.count fun stats =>
            { stats with expirations := satAdd stats.expirations 1 }).Owes
              (due + Pi.single Counter.expirations 1) :=
          CacheState.Owes.count (fun stats other => by cases other <;> rfl) kept
        obtain ⟨amount, exactly, owed⟩ := loadRecords_owes store amb rest _ _ more last counted continued
        refine ⟨amount + 1, ?_, ?_⟩
        · unfold satAdd
          omega
        · rwa [add_assoc, ← Pi.single_add, add_comm 1] at owed
      case isFalse _ =>
        have indexed : ({ s with tick := max s.tick record.lastAccess }.indexRecord record).Owes due :=
          owes.of_kept rfl rfl
        exact loadRecords_owes store amb rest _ due expirations after indexed loaded

/-- **A cache that is built** has recorded all that building it has counted. -/
theorem fromBuilder_tallied (cache : ContextCache σ) {amb : Ambient} {stored : σ}
    {start : CacheState σ} (built : cache.fromBuilder amb stored = (.ok (), start)) :
    start.Tallied := by
  have initial := tallied_initial stored
  unfold fromBuilder at built
  split at built
  case isFalse _ =>
    cases built
    exact initial
  case isTrue _ =>
    split at built
    case h_1 _ =>
      cases built
      exact initial
    case h_2 store _ =>
      obtain ⟨snapshot, read, listed, built⟩ := andThen_eq_ok.mp built
      obtain ⟨expirations, loaded, records, built⟩ := andThen_eq_ok.mp built
      obtain ⟨evictions, evicted, loop, ending⟩ := andThen_eq_ok.mp built
      obtain ⟨_, rfl⟩ := Prod.mk.inj ending
      have kept : read.Owes 0 := by
        have owed := callStore_owes amb .loadIndex store.loadIndex initial.owes
        rwa [listed] at owed
      have corruptions : (read.count fun stats =>
          { stats with corruptions := satAdd stats.corruptions snapshot.corruptions }).Owes
            (0 + Pi.single Counter.corruptions snapshot.corruptions) :=
        CacheState.Owes.count (fun stats other => by cases other <;> rfl) kept
      obtain ⟨amount, expirations_exact, expired_owed⟩ :=
        loadRecords_owes store amb snapshot.entries _ _ expirations loaded corruptions records
      rcases evictDiskLocked_owes cache amb expired_owed with
        ⟨count, after, done, owed, _⟩ | ⟨error, count, after, failed, _⟩
      · rw [done] at loop
        obtain ⟨same, rfl⟩ := Prod.mk.inj loop
        cases same
        have order : (0 : Counter → Nat) + Pi.single Counter.corruptions snapshot.corruptions +
            Pi.single Counter.expirations amount + Pi.single Counter.diskEvictions count =
            0 + Pi.single Counter.diskEvictions count + Pi.single Counter.expirations amount +
              Pi.single Counter.corruptions snapshot.corruptions := by
          funext counter
          cases counter <;> simp
        rw [order] at owed
        have corruptions_told := owed.recordCount .corruption snapshot.corruptions rfl rfl
        have expirations_told :=
          corruptions_told.recordCount .expiration expirations rfl (by rw [expirations_exact]; simp)
        have evictions_told :=
          expirations_told.recordCount .persistentEviction (min count u64Max) rfl (by simp)
        exact evictions_told.tallied rfl
      · rw [failed] at loop
        cases loop

/-! ### Lookups -/

/-- The counters of a lookup. -/
def lookups : List Counter := [.memoryHits, .diskHits, .misses]

theorem forall_lookups {P : Counter → Prop} :
    (∀ counter ∈ lookups, P counter) ↔ P .memoryHits ∧ P .diskHits ∧ P .misses := by
  simp [lookups]

/-- No lookup is counted. -/
def SameLookups (s after : CacheState σ) : Prop :=
  ∀ other ∈ lookups, after.stats.counter other = s.stats.counter other

/-- **One lookup is counted**, by one counter. -/
def CountsLookup (s after : CacheState σ) : Prop :=
  ∃ counter ∈ lookups, ∀ other ∈ lookups, after.stats.counter other =
    if other = counter then satAdd (s.stats.counter other) 1 else s.stats.counter other

theorem SameLookups.of_stats {after : CacheState σ} (stats : after.stats = s.stats) :
    SameLookups s after := by
  intro other _
  rw [stats]

theorem SameLookups.trans {middle after : CacheState σ} (first : SameLookups s middle)
    (second : SameLookups middle after) : SameLookups s after :=
  fun other inside => (second other inside).trans (first other inside)

theorem SameLookups.counts {middle after : CacheState σ} (first : SameLookups s middle)
    (second : CountsLookup middle after) : CountsLookup s after := by
  obtain ⟨counter, inside, counted⟩ := second
  refine ⟨counter, inside, fun other member => ?_⟩
  rw [counted other member, first other member]

theorem CountsLookup.same {middle after : CacheState σ} (first : CountsLookup s middle)
    (second : SameLookups middle after) : CountsLookup s after := by
  obtain ⟨counter, inside, counted⟩ := first
  refine ⟨counter, inside, fun other member => ?_⟩
  rw [second other member, counted other member]

theorem countMiss_counts {after : CacheState σ} (stats : after.stats = (countMiss s).stats) :
    CountsLookup s after := by
  refine ⟨.misses, by decide, forall_lookups.mpr ?_⟩
  rw [stats]
  exact ⟨rfl, rfl, rfl⟩

theorem callStore_lookups {α : Type} (amb : Ambient) (site : StoreSite)
    (call : σ → Except IoError α × σ) (s : CacheState σ) :
    SameLookups s (callStore amb site call s).2 := by
  obtain ⟨stored, same⟩ := callStore_state amb site call s
  rw [same]
  exact SameLookups.of_stats rfl

theorem admitMemory_lookups (cache : ContextCache σ) (amb : Ambient) (key : String)
    (entry : StoredEntry) (s : CacheState σ) : SameLookups s (cache.admitMemory amb key entry s).2 := by
  unfold admitMemory
  split
  case isFalse _ => exact SameLookups.of_stats rfl
  case isTrue _ =>
    have inserted : SameLookups s
        (s.insertMemoryLocked key entry.value entry.expiresAt entry.pinned) :=
      SameLookups.of_stats (forgetMemory_stats _ _)
    obtain ⟨evicted, after, done, kept, _⟩ := evictMemoryLocked_ok (I := SameLookups s) cache amb
      (fun candidate record t held _ _ => by
        refine held.trans (forall_lookups.mpr ?_)
        show (t.forgetMemory candidate.key).stats.counter .memoryHits = _ ∧
          (t.forgetMemory candidate.key).stats.counter .diskHits = _ ∧
          (t.forgetMemory candidate.key).stats.counter .misses = _
        rw [forgetMemory_stats]
        exact ⟨rfl, rfl, rfl⟩) inserted
    rw [done]
    exact kept

theorem removeDiskRecordLocked_lookups (cache : ContextCache σ) (amb : Ambient) (site : StoreSite)
    (key : String) (expired : Bool) (s : CacheState σ) :
    SameLookups s (cache.removeDiskRecordLocked amb site key expired s).2 := by
  unfold removeDiskRecordLocked
  split
  case h_1 _ => exact SameLookups.of_stats rfl
  case h_2 record _ =>
    refine andThen_preserves (P := SameLookups s) ?_ fun _ t _ held =>
      held.trans (forall_lookups.mpr ⟨rfl, rfl, rfl⟩)
    split
    case h_1 _ => exact SameLookups.of_stats rfl
    case h_2 store _ =>
      exact SameLookups.trans (SameLookups.of_stats rfl) (callStore_lookups amb site _ _)

/-- A discarded entry is a miss. -/
theorem discardCorrupt_counts {site : StoreSite} {store : PersistentStore σ} {record : StoreRecord}
    {result : Option (List UInt8)} {after : CacheState σ}
    (answered : discardCorrupt amb site store key record s = (.ok result, after)) :
    CountsLookup s after := by
  unfold discardCorrupt at answered
  obtain ⟨_, called, removed, ending⟩ := andThen_eq_ok.mp answered
  obtain ⟨_, rfl⟩ := Prod.mk.inj ending
  have kept : SameLookups s called := by
    have same := callStore_lookups amb site (store.remove key) s
    rwa [removed] at same
  have counted : SameLookups called ((called.forgetDisk key record.storedBytes).count fun stats =>
      { stats with corruptions := satAdd stats.corruptions 1 }) :=
    forall_lookups.mpr ⟨rfl, rfl, rfl⟩
  exact (kept.trans counted).counts (countMiss_counts rfl)

theorem servePersistent_counts {expirations : Nat} {record : StoreRecord} {entry : StoredEntry}
    {result : Option (List UInt8)} {after : CacheState σ}
    (answered : cache.servePersistent amb key expirations record entry s = (.ok result, after)) :
    CountsLookup s after := by
  unfold servePersistent at answered
  obtain ⟨evictions, admitted, admission, ending⟩ := andThen_eq_ok.mp answered
  obtain ⟨_, rfl⟩ := Prod.mk.inj ending
  have hit : CountsLookup s ((s.nextTick.touchDisk key record).count fun stats =>
      { stats with diskHits := satAdd stats.diskHits 1 }) :=
    ⟨.diskHits, by decide, forall_lookups.mpr ⟨rfl, rfl, rfl⟩⟩
  have kept := admitMemory_lookups cache amb key entry
    ((s.nextTick.touchDisk key record).count fun stats =>
      { stats with diskHits := satAdd stats.diskHits 1 })
  rw [admission] at kept
  exact (hit.same kept).same (SameLookups.of_stats rfl)

/-- The persistent half of a lookup that answers. -/
theorem getPersistent_counts {expirations : Nat} {result : Option (List UInt8)}
    {after : CacheState σ}
    (answered : cache.getPersistent amb key expirations s = (.ok result, after)) :
    CountsLookup s after := by
  unfold getPersistent at answered
  split at answered
  case h_1 _ =>
    obtain ⟨_, rfl⟩ := Prod.mk.inj answered
    exact countMiss_counts rfl
  case h_2 record _ =>
    split at answered
    case isTrue _ =>
      obtain ⟨_, removed, removal, ending⟩ := andThen_eq_ok.mp answered
      obtain ⟨_, rfl⟩ := Prod.mk.inj ending
      have kept := removeDiskRecordLocked_lookups cache amb .removeExpired key true s
      rw [removal] at kept
      exact kept.counts (countMiss_counts rfl)
    case isFalse _ =>
      split at answered
      case h_1 _ =>
        obtain ⟨_, rfl⟩ := Prod.mk.inj answered
        exact countMiss_counts rfl
      case h_2 store _ =>
        have kept := callStore_lookups amb .read (store.get key) s
        split at answered
        case h_1 entry called read =>
          rw [read] at kept
          split at answered
          case isTrue _ => exact SameLookups.counts kept (discardCorrupt_counts answered)
          case isFalse _ => exact SameLookups.counts kept (servePersistent_counts answered)
        case h_2 called read =>
          rw [read] at kept
          obtain ⟨_, rfl⟩ := Prod.mk.inj answered
          exact SameLookups.counts kept (countMiss_counts rfl)
        case h_3 error called read =>
          rw [read] at kept
          split at answered
          case isTrue _ => exact SameLookups.counts kept (discardCorrupt_counts answered)
          case isFalse _ => cases answered

/-- **A `get` that answers counts one lookup**, by exactly one counter. -/
theorem get_counts {result : Option (List UInt8)} {after : CacheState σ}
    (answered : cache.get amb key s = (.ok result, after)) : CountsLookup s after := by
  unfold get at answered
  split at answered
  case h_1 _ _ => cases answered
  case h_2 _ =>
    split at answered
    case h_1 _ => exact getPersistent_counts answered
    case h_2 record _ =>
      split at answered
      case isTrue _ =>
        have kept : SameLookups s ((s.forgetMemory key).count fun stats =>
            { stats with expirations := satAdd stats.expirations 1 }) := by
          refine SameLookups.trans (SameLookups.of_stats (forgetMemory_stats key s)) ?_
          exact forall_lookups.mpr ⟨rfl, rfl, rfl⟩
        exact kept.counts (getPersistent_counts answered)
      case isFalse _ =>
        obtain ⟨_, rfl⟩ := Prod.mk.inj answered
        exact ⟨.memoryHits, by decide, forall_lookups.mpr ⟨rfl, rfl, rfl⟩⟩

/-! ### Runs -/

/-- **Telemetry agrees with the statistics.** In every state that a cache reaches from its construction
by calls that settle, whatever the store does, each counter is the total its events carry; and a `get`
that answers adds one to exactly one of the counters of lookups. -/
theorem telemetry_agrees (cache : ContextCache σ) {first : Ambient} {stored : σ}
    {start : CacheState σ} (built : cache.fromBuilder first stored = (.ok (), start))
    (run : Reaches cache.step cache.Settles start s) :
    s.Tallied ∧ ∀ amb key result after, cache.get amb key s = (.ok result, after) →
      CountsLookup s after := by
  refine ⟨run.invariant CacheState.Tallied (fromBuilder_tallied cache built) ?_,
    fun _ _ _ _ => get_counts⟩
  intro call t tallied settles
  obtain ⟨due, owes, iff⟩ := step_leaves cache call tallied
  exact owes.tallied (iff.mpr settles)

/-- A cache without a persistent tier: a write, and a hit. -/
theorem telemetry_agrees_hit :
    let cache := ContextCache.volatile 4 0
    let start := (cache.fromBuilder (Ambient.plain 0) VolatileStore.new).2
    let calls : List Call := [.put (Ambient.plain 0) (repeatedKey 'a') [1] none false,
      .get (Ambient.plain 1) (repeatedKey 'a')]
    (calls.foldl (fun s call => cache.step call s) start).Tallied := by
  intro cache start calls
  have begins : Reaches cache.step cache.Settles start start := .refl
  have written : Reaches cache.step cache.Settles start
      (cache.step (.put (Ambient.plain 0) (repeatedKey 'a') [1] none false) start) :=
    begins.step fun _ _ fits => absurd fits (by decide)
  have read : Reaches cache.step cache.Settles start
      (cache.step (.get (Ambient.plain 1) (repeatedKey 'a')) _) :=
    written.step fun _ record found past => by
      cases found
      exact absurd past (by decide)
  have built : cache.fromBuilder (Ambient.plain 0) VolatileStore.new = (.ok (), start) := rfl
  exact (telemetry_agrees cache built read).1

/-- **A lost expiration**: a key is stored for long and then written to memory for short. Once the memory
record has expired, a `get` finds the stored entry corrupt; it answers `None`, has counted an expiration,
and has recorded none. -/
theorem lost_expiration :
    let cache := ContextCache.volatile 4 4
    let start := (cache.fromBuilder (Ambient.plain 0) VolatileStore.new).2
    let calls : List Call :=
      [.put (Ambient.plain 0) (repeatedKey 'a') [1] (some (Duration.fromSecs 100)) false,
        .put (Ambient.plain 0) (repeatedKey 'a') [2] (some (Duration.fromSecs 1)) false]
    let s := calls.foldl (fun s call => cache.step call s) start
    let failing := Ambient.failing 5 .read ⟨.invalidData, "cache payload checksum mismatch"⟩
    (cache.get failing (repeatedKey 'a') s).1 = .ok none ∧
      (cache.get failing (repeatedKey 'a') s).2.stats.counter .expirations = 1 ∧
      (cache.get failing (repeatedKey 'a') s).2.recorded .expirations = 0 := by
  refine ⟨?_, ?_, ?_⟩ <;> rfl

end ContextCache

end RivetCache
