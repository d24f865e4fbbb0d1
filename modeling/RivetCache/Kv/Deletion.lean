/-
**Deletion among concurrent calls.**

Each thread runs one call of the engine, and every tier call is one atomic step of a `Library.Pool`. An
`invalidate` empties the tiers one after the other; a promotion, a movement, a prefetch or a change of the
pin reads an entry from one tier and writes it to another. A copy that reads before the source is emptied
and writes after the destination is puts the deleted entry back (`Straddles`); nothing else does.

* `deleted_or_straddled`: once the `invalidate` has succeeded, no tier holds the key, or some copy
  straddled it;
* `promotion_undoes_deletion`: a promotion that straddles an `invalidate`.
-/

import RivetCache.Kv.Copies

set_option linter.unusedSectionVars false

namespace RivetCache

open Library

variable {τ : Nat → Type} {engine : KvEngine τ}
  {contents : (index : Nat) → τ index → KvBlockKey → Option KvTierEntry}

/-- A call of a tier made by a thread. -/
abbrev KvEvent := Event KvOp KvOp.Answer

/-- The thread's call removed the key from the tier. -/
def Emptied (deleter : Nat) (key : KvBlockKey) (log : List KvEvent) (tier : Nat) : Prop :=
  ∃ event ∈ log, event.thread = deleter ∧ event.op.Removes tier key event.answer

/-- The call read an entry of the key from a tier. -/
def ReadsFrom (key : KvBlockKey) (event : KvEvent) (tier : Nat) : Prop :=
  ∃ asked entry, entry.block.key = key ∧ event.op.Reads tier asked entry event.answer

/-- The call stored an entry of the key in a tier. -/
def StoresTo (key : KvBlockKey) (event : KvEvent) (tier : Nat) : Prop :=
  ∃ entry, entry.block.key = key ∧ event.op.Stores tier entry event.answer

/-- **A copy that straddles a deletion**: a thread read the key from a tier not yet emptied, and stored it
in a tier that had been. -/
def Straddles (count deleter : Nat) (key : KvBlockKey) (log : List KvEvent) : Prop :=
  ∃ newer stored middle read older, log = newer ++ stored :: (middle ++ read :: older) ∧
    stored.thread = read.thread ∧
    (∃ source < count, ReadsFrom key read source ∧ ¬ Emptied deleter key older source) ∧
    ∃ destination, StoresTo key stored destination ∧
      Emptied deleter key (middle ++ read :: older) destination

theorem Straddles.cons {count deleter : Nat} {key : KvBlockKey} {log : List KvEvent}
    (event : KvEvent) (straddled : Straddles count deleter key log) :
    Straddles count deleter key (event :: log) := by
  obtain ⟨newer, stored, middle, read, older, rfl, rest⟩ := straddled
  exact ⟨event :: newer, stored, middle, read, older, rfl, rest⟩

theorem emptied_cons {deleter : Nat} {key : KvBlockKey} {log : List KvEvent} {event : KvEvent}
    {tier : Nat} : Emptied deleter key (event :: log) tier ↔
      (event.thread = deleter ∧ event.op.Removes tier key event.answer) ∨
        Emptied deleter key log tier := by
  unfold Emptied
  simp only [List.mem_cons, exists_eq_or_imp]

/-- No entry of the key was read from an emptied tier. -/
def CleanReads (deleter : Nat) (key : KvBlockKey) (count : Nat) : List KvEvent → Prop
  | [] => True
  | event :: older => (∀ tier < count, ReadsFrom key event tier →
      ¬ Emptied deleter key older tier) ∧ CleanReads deleter key count older

theorem CleanReads.at {deleter : Nat} {key : KvBlockKey} {count tier : Nat}
    {newer older : List KvEvent} {read : KvEvent}
    (clean : CleanReads deleter key count (newer ++ read :: older)) (inside : tier < count)
    (reads : ReadsFrom key read tier) : ¬ Emptied deleter key older tier := by
  induction newer with
  | nil => exact clean.1 tier inside reads
  | cons event rest ih => exact ih clean.2

namespace KvEngine

/-! ### Threads -/

/-- Each thread runs a call, or nothing. -/
def spawn (engine : KvEngine τ) (calls : Nat → Option KvCall) (s : KvState τ) :
    Pool KvOp KvOp.Answer IoError (KvState τ) where
  threads thread := match calls thread with
    | none => .done (.ok ())
    | some call => engine.program call
  state := s
  log := []

/-- The thread puts the key. -/
def PutsKey (calls : Nat → Option KvCall) (key : KvBlockKey) (thread : Nat) : Prop :=
  ∃ block ttl pinned, calls thread = some (.put block ttl pinned) ∧ block.key = key

/-- No put of the key takes a step once the deleter has. -/
def PutsBefore (calls : Nat → Option KvCall) (deleter : Nat) (key : KvBlockKey) (thread : Nat)
    (pool : Pool KvOp KvOp.Answer IoError (KvState τ)) : Prop :=
  PutsKey calls key thread → ∀ event ∈ pool.log, event.thread ≠ deleter

/-- An entry's key: what a copy keeps, whatever the transport. -/
def keyView (entry : KvTierEntry) : KvBlockKey := entry.block.key

theorem preserves_keyView : engine.Preserves keyView where
  copied _ _ _ _ _ _ _ := rfl
  pinned _ _ := rfl

/-- What a thread that does not put the key knows at its start: nothing of the key. -/
def unrelated (key : KvBlockKey) : KvFact KvBlockKey → Prop
  | .seen own _ => own ≠ key
  | _ => False

/-- **A thread that does not put the key** writes it only after having read it. -/
theorem informed_spawn {calls : Nat → Option KvCall} {key : KvBlockKey} {thread : Nat}
    (other : ¬ PutsKey calls key thread) (s : KvState τ) :
    ((engine.spawn calls s).threads thread).Informed (engine.learns keyView) (needs keyView) anything
      (unrelated key) := by
  unfold spawn
  simp only
  cases chosen : calls thread with
  | none => trivial
  | some call =>
      refine informed_program preserves_keyView call ?_
      rintro block ttl pinned expiresAt rfl
      exact fun same => other ⟨block, ttl, pinned, chosen, same⟩

/-- What was learned of the key was read from a tier. -/
theorem learned_read {log : List KvEvent} {thread : Nat} {key : KvBlockKey}
    (learned : Pool.Learned (engine.learns keyView) log thread (.seen key key)) :
    ∃ read ∈ log, read.thread = thread ∧ ∃ tier < engine.count, ReadsFrom key read tier := by
  obtain ⟨⟨own, op, answer⟩, inside, same, known⟩ := learned
  refine ⟨_, inside, same, ?_⟩
  cases op with
  | get tier asked =>
      obtain ⟨bound, entry, answered, fact⟩ := known
      refine ⟨tier, bound, asked, entry, ?_, rfl, rfl, answered⟩
      rcases fact with same | same
      · injection same with _ view
        exact view.symm
      · injection same with own _
        exact own.symm
  | now => cases known
  | remove tier asked => cases known.2
  | _ => exact known.elim

/-! ### The invariant -/

/-- Emptied tiers stay empty, and nothing was read from them. -/
structure Undisturbed (engine : KvEngine τ)
    (contents : (index : Nat) → τ index → KvBlockKey → Option KvTierEntry) (deleter : Nat)
    (key : KvBlockKey) (s : KvState τ) (log : List KvEvent) : Prop where
  empty : ∀ tier < engine.count, Emptied deleter key log tier → s.held contents tier key = none
  clean : CleanReads deleter key engine.count log

variable {deleter : Nat} {key : KvBlockKey}

/-- **A call that stores nothing in an emptied tier** disturbs nothing. -/
theorem Undisturbed.call (mapLike : engine.MapTiers contents) {s : KvState τ} {log : List KvEvent}
    (undisturbed : engine.Undisturbed contents deleter key s log) (thread : Nat) (op : KvOp)
    (harmless : ∀ tier < engine.count, StoresTo key ⟨thread, op, (engine.handle op s).1⟩ tier →
      ¬ Emptied deleter key log tier) :
    engine.Undisturbed contents deleter key (engine.handle op s).2
      (⟨thread, op, (engine.handle op s).1⟩ :: log) where
  empty tier inside emptied := by
    rcases emptied_cons.mp emptied with ⟨_, removes⟩ | before
    · cases op with
      | remove removed asked =>
          obtain ⟨rfl, rfl, ok⟩ := removes
          rw [held_remove (mapLike _ inside) s ok, heldWith_apply, if_pos ⟨rfl, rfl⟩]
      | _ => exact removes.elim
    · cases present : (engine.handle op s).2.held contents tier key with
      | none => rfl
      | some stored =>
          rcases held_after s mapLike op inside present with ⟨own, stores⟩ | earlier
          · exact (harmless tier inside ⟨stored, own.symm, stores⟩ before).elim
          · rw [undisturbed.empty tier inside before] at earlier
            cases earlier
  clean := by
    refine ⟨fun tier inside reads emptied => ?_, undisturbed.clean⟩
    obtain ⟨asked, entry, own, read⟩ := reads
    cases op with
    | get called wanted =>
        obtain ⟨rfl, rfl, answered⟩ := read
        have present := (got_held (mapLike _ inside) s answered).symm
        have same : entry.block.key = wanted := (mapLike _ inside).keyed _ _ _ present
        rw [← same, own, undisturbed.empty _ inside emptied] at present
        cases present
    | _ => exact read.elim

/-- **A store of the key in an emptied tier** straddles the deletion. -/
theorem straddles_of_store {s : KvState τ} {log : List KvEvent} {thread : Nat} {op : KvOp}
    {next : op.Answer → KvProgram Unit} (undisturbed : engine.Undisturbed contents deleter key s log)
    (informed : Program.Informed (engine.learns keyView) (needs keyView) anything
      (fun fact => unrelated key fact ∨ Pool.Learned (engine.learns keyView) log thread fact)
      (Program.call op next))
    {tier : Nat} (stores : StoresTo key ⟨thread, op, (engine.handle op s).1⟩ tier)
    (emptied : Emptied deleter key log tier) :
    Straddles engine.count deleter key (⟨thread, op, (engine.handle op s).1⟩ :: log) := by
  obtain ⟨entry, own, stored⟩ := stores
  have seen : Pool.Learned (engine.learns keyView) log thread (.seen key key) := by
    cases op with
    | put called given =>
        obtain ⟨_, rfl, _⟩ := stored
        rcases informed.1 _ rfl with other | learned
        · exact (other own).elim
        · rwa [show keyView given = key from own, own] at learned
    | _ => exact stored.elim
  obtain ⟨read, member, same, source, inside, reads⟩ := learned_read seen
  obtain ⟨middle, older, rfl⟩ := List.append_of_mem member
  exact ⟨[], _, middle, read, older, rfl, same.symm,
    ⟨source, inside, reads, undisturbed.clean.at inside reads⟩, tier, ⟨entry, own, stored⟩, emptied⟩

variable {calls : Nat → Option KvCall} {start : KvState τ}
  {pool : Pool KvOp KvOp.Answer IoError (KvState τ)}

/-- **Along a run**: emptied tiers stay empty, or a copy has straddled the deletion. -/
theorem undisturbed_or_straddled (mapLike : engine.MapTiers contents)
    (reached : Reaches (Pool.advance engine.handle) (PutsBefore calls deleter key)
      (engine.spawn calls start) pool) :
    engine.Undisturbed contents deleter key pool.state pool.log ∨
      Straddles engine.count deleter key pool.log := by
  induction reached with
  | refl =>
      refine Or.inl ⟨fun tier _ emptied => ?_, trivial⟩
      obtain ⟨event, member, _⟩ := emptied
      exact absurd member List.not_mem_nil
  | @step pool thread before permitted ih =>
      rcases Pool.advance_cases engine.handle thread pool with same | ⟨op, next, head, moved⟩
      · rw [same]
        exact ih
      rw [moved]
      rcases ih with undisturbed | straddled
      · by_cases storing : ∃ tier < engine.count,
          StoresTo key ⟨thread, op, (engine.handle op pool.state).1⟩ tier ∧
            Emptied deleter key pool.log tier
        · obtain ⟨tier, inside, stores, emptied⟩ := storing
          have other : ¬ PutsKey calls key thread := by
            intro puts
            obtain ⟨event, member, own, _⟩ := emptied
            exact permitted puts event member own
          have informed := Pool.informed engine.handle rfl (informed_spawn other start) before
          rw [head] at informed
          exact Or.inr (straddles_of_store undisturbed informed stores emptied)
        · refine Or.inl (undisturbed.call mapLike thread op fun tier inside stores emptied => ?_)
          exact storing ⟨tier, inside, stores, emptied⟩
      · exact Or.inr (straddled.cons _)

/-- A deleter that has succeeded has emptied every tier. -/
theorem emptied_of_succeeded (deleting : calls deleter = some (.invalidate key))
    {allowed : Nat → Pool KvOp KvOp.Answer IoError (KvState τ) → Prop}
    (reached : Reaches (Pool.advance engine.handle) allowed (engine.spawn calls start) pool)
    (succeeded : pool.threads deleter = .done (.ok ())) :
    ∀ tier < engine.count, Emptied deleter key pool.log tier := by
  have begun : ((engine.spawn calls start).threads deleter).Informed (engine.learns keyView)
      (needs keyView) (fun _ known => ∀ index < engine.count, known (.removed index key))
      fun _ => False := by
    unfold spawn
    simp only [deleting]
    exact informed_invalidate key
  have informed := Pool.informed engine.handle rfl begun reached
  rw [succeeded] at informed
  intro tier inside
  rcases informed tier inside with impossible | ⟨⟨own, op, answer⟩, member, same, known⟩
  · exact impossible.elim
  · refine ⟨_, member, same, ?_⟩
    cases op with
    | remove called asked =>
        obtain ⟨ok, fact⟩ := known
        cases fact
        exact ⟨rfl, rfl, ok⟩
    | get called asked =>
        obtain ⟨_, _, _, fact | fact⟩ := known
        · cases fact
        · cases fact
    | now => cases known
    | _ => exact known.elim

/-- **Deletion among concurrent calls.** Once an `invalidate` has succeeded, with no put of its key in
progress or begun since it started, either no tier holds the key, or some call read the key from a tier
before the `invalidate` had emptied it and stored it in one it had emptied. -/
theorem deleted_or_straddled (mapLike : engine.MapTiers contents)
    (deleting : calls deleter = some (.invalidate key))
    (reached : Reaches (Pool.advance engine.handle) (PutsBefore calls deleter key)
      (engine.spawn calls start) pool)
    (succeeded : pool.threads deleter = .done (.ok ())) :
    (∀ tier < engine.count, pool.state.held contents tier key = none) ∨
      Straddles engine.count deleter key pool.log := by
  rcases undisturbed_or_straddled mapLike reached with undisturbed | straddled
  · exact Or.inl fun tier inside =>
      undisturbed.empty tier inside (emptied_of_succeeded deleting reached succeeded tier inside)
  · exact Or.inr straddled

/-! ### A promotion and an `invalidate` -/

/-- Thread `0` deletes the key and thread `1` reads it. -/
def racingCalls : Nat → Option KvCall
  | 0 => some (.invalidate KvBlockKey.sample)
  | 1 => some (.get KvBlockKey.sample)
  | _ => none

/-- The slower of two memory tiers holds a block; the threads take steps as listed. -/
def race (schedule : List Nat) :
    Pool KvOp KvOp.Answer IoError (KvState (Pair MemoryTier MemoryTier)) :=
  schedule.foldl (fun pool thread => pool.advance twoMemoryTiers.handle thread)
    (twoMemoryTiers.spawn racingCalls
      (twoMemoryTiers.run (twoMemoryTiers.putTo 1 (KvBlock.sample 1) none false)
        (KvState.pair MemoryTier.empty MemoryTier.empty)).2)

theorem race_reached (schedule : List Nat) :
    Reaches (Pool.advance twoMemoryTiers.handle) (PutsBefore racingCalls 0 KvBlockKey.sample)
      (race []) (race schedule) := by
  refine .foldl (fun thread pool puts => ?_) schedule _
  obtain ⟨block, ttl, pinned, chosen, _⟩ := puts
  match thread with
  | 0 => cases chosen
  | 1 => cases chosen
  | _ + 2 => cases chosen

/-- A reader that comes after the `invalidate` finds nothing to copy. -/
theorem deleted_or_straddled_in_order :
    let pool := race [0, 0, 0, 1, 1, 1, 1]
    (∀ tier < twoMemoryTiers.count,
      pool.state.held twoMemoryMaps tier KvBlockKey.sample = none) ∨
      Straddles twoMemoryTiers.count 0 KvBlockKey.sample pool.log :=
  deleted_or_straddled twoMemoryTiers_mapTiers rfl (race_reached _) rfl

/-- **A promotion undoes a deletion**: the reader finds the block in the slower tier, the `invalidate`
empties both tiers and succeeds, and the reader promotes the block to the faster tier. -/
theorem promotion_undoes_deletion :
    let pool := race [1, 1, 1, 0, 0, 0, 1, 1, 1, 1]
    twoMemoryTiers.MapTiers twoMemoryMaps ∧ twoMemoryTiers.promoteOnRead = true ∧
      Reaches (Pool.advance twoMemoryTiers.handle) (PutsBefore racingCalls 0 KvBlockKey.sample)
        (twoMemoryTiers.spawn racingCalls (race []).state) pool ∧
      pool.Finished ∧ pool.threads 0 = .done (.ok ()) ∧
      pool.state.held twoMemoryMaps 0 KvBlockKey.sample = some ⟨KvBlock.sample 1, 0, false⟩ := by
  refine ⟨twoMemoryTiers_mapTiers, rfl, race_reached _, ?_, rfl, rfl⟩
  intro thread
  match thread with
  | 0 => exact ⟨_, rfl⟩
  | 1 => exact ⟨_, rfl⟩
  | _ + 2 => exact ⟨_, rfl⟩

end KvEngine

end RivetCache
