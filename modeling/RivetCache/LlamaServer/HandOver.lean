/-
**Which state a `restore` hands to the server.**

The persistent tier keeps the first state of a slot: a later `capture` returns its receipt, and its bytes
are in memory only, if they fit there. So a `restore` hands out the last captured bytes where each capture
replaces what memory holds, and each lookup finds an older state covered by a memory copy
(`restore_hands_last_capture`); otherwise it hands out the older state (`older_state_restored`).

* `writeSlotFileAtomic_file`, `writeSlotFileAtomic_writable`: the file that is written;
* `materialize_file`, `materialize_writable`: the file that the server is told to load.
-/

import RivetCache.LlamaServer.Restore

set_option linter.unusedSectionVars false

namespace RivetCache

open Library

/-! ### Files -/

/-- A regular file, or none, is removed. -/
theorem removeSlotFileIfRegular_erase {filename : String} {dir : SlotDir}
    (valid : validSlotFilename filename = true) (regular : dir.lookup filename ≠ some .other) :
    removeSlotFileIfRegular filename dir = (.ok (), dir.erase filename) := by
  unfold removeSlotFileIfRegular validateSlotFilename
  rw [if_pos valid]
  dsimp only
  cases found : dir.lookup filename with
  | none => rw [erase_of_lookup_none found]
  | some node =>
      cases node with
      | other => exact absurd found regular
      | file bytes => rfl

/-- So it is where it is looked for first. -/
theorem removeSlotFileIfRegular_there {filename : String} {dir : SlotDir}
    (valid : validSlotFilename filename = true) (regular : dir.lookup filename ≠ some .other) :
    (if (dir.lookup filename).isSome then removeSlotFileIfRegular filename dir else (.ok (), dir)) =
      (.ok (), dir.erase filename) := by
  split
  case isTrue => exact removeSlotFileIfRegular_erase valid regular
  case isFalse absent => rw [erase_of_lookup_none (Option.not_isSome_iff_eq_none.mp absent)]

/-- A temporary file is no other node. -/
theorem insert_file_regular {filename : String} {dir : SlotDir} (regular : dir.lookup filename ≠ some .other)
    (temp : String) (bytes : List UInt8) :
    (dir.insert temp (.file bytes)).lookup filename ≠ some .other := by
  rw [lookup_insert_eq]
  split
  · simp
  · exact regular

namespace LlamaServerSlotBridge

variable {σ ς : Type} {bridge : LlamaServerSlotBridge σ ς} {digest : Digest} {amb : Ambient}
  {s left : SlotState σ ς} {filename : String} {bytes : List UInt8}

theorem writeThrough_file {temp : String} {dir after : SlotDir}
    (written : writeThrough filename temp bytes dir = (.ok (), after)) :
    after.lookup filename = some (.file bytes) := by
  unfold writeThrough at written
  split at written
  · cases written
  · obtain ⟨_, _, _, renamed⟩ := andThen_eq_ok.mp written
    cases renamed
    exact AList.lookup_insert _

theorem writeThrough_free (bytes : List UInt8) {temp : String} {dir : SlotDir}
    (valid : validSlotFilename filename = true) (free : dir.lookup temp = none)
    (regular : dir.lookup filename ≠ some .other) :
    ∃ after, writeThrough filename temp bytes dir = (.ok (), after) := by
  unfold writeThrough
  rw [free]
  dsimp only
  rw [removeSlotFileIfRegular_there valid (insert_file_regular regular temp bytes)]
  exact ⟨_, rfl⟩

/-- **The file that is written.** -/
theorem writeSlotFileAtomic_file
    (written : bridge.writeSlotFileAtomic filename bytes s = (.ok (), left)) :
    left.dir.lookup filename = some (.file bytes) := by
  unfold writeSlotFileAtomic at written
  split at written
  · cases written
  · split at written
    · cases written
    · dsimp only at written
      split at written
      · cases written
      · obtain ⟨done, rfl⟩ := Prod.mk.inj written
        exact writeThrough_file (Prod.ext done rfl)

/-- The file system takes the file: its names are valid, the temporary one is free, and no other node has
the name of the slot. -/
structure Writable (bridge : LlamaServerSlotBridge σ ς) (filename : String) (s : SlotState σ ς) :
    Prop where
  valid : validSlotFilename filename = true
  temporary : validSlotFilename (bridge.tempName filename s.nonce) = true
  free : s.dir.lookup (bridge.tempName filename s.nonce) = none
  regular : s.dir.lookup filename ≠ some .other

/-- **Where the file system takes the file**, it is written. -/
theorem writeSlotFileAtomic_writable (writable : bridge.Writable filename s)
    (filled : bytes.length ≠ 0) (short : bytes.length ≤ bridge.maxStateBytes) :
    ∃ after, bridge.writeSlotFileAtomic filename bytes s = (.ok (), after) := by
  have fine : bridge.validateStateLen bytes.length = .ok () := by
    unfold validateStateLen
    exact if_neg (by omega)
  obtain ⟨after, written⟩ :=
    writeThrough_free bytes writable.valid writable.free writable.regular
  unfold writeSlotFileAtomic validateSlotFilename
  rw [fine, if_pos writable.valid]
  dsimp only
  rw [if_pos writable.temporary, written]
  exact ⟨_, rfl⟩

/-- The file of the slot is removed before it is written. -/
theorem removeSlotFile_writable (writable : bridge.Writable filename s) :
    ∃ after, removeSlotFile filename s = (.ok (), after) ∧ bridge.Writable filename after := by
  have gone : AList.lookup filename (s.dir.erase filename) = none := AList.lookup_erase _ _
  unfold removeSlotFile
  rw [removeSlotFileIfRegular_erase writable.valid writable.regular]
  refine ⟨_, rfl, writable.valid, writable.temporary, ?_, fun other => ?_⟩
  · show AList.lookup (bridge.tempName filename s.nonce) (s.dir.erase filename) = none
    rw [lookup_erase_eq]
    split
    · rfl
    · exact writable.free
  · have other : AList.lookup filename (s.dir.erase filename) = some .other := other
    rw [gone] at other
    cases other

/-! ### What the server is told to load -/

/-- The bytes of the file that a `restore` tells the server to load. -/
def handed (bridge : LlamaServerSlotBridge σ ς) (amb : Ambient) (key : String)
    (s : SlotState σ ς) : Option (List UInt8) :=
  match bridge.materialize amb key s with
  | (.error _, _) => none
  | (.ok _, left) =>
      match left.dir.lookup (slotFilenameForKey key) with
      | some (.file bytes) => some bytes
      | _ => none

variable {key model identity : String}

/-- **What is materialized** is what the cache answers. -/
theorem materialize_file (done : bridge.materialize amb key s = (.ok bytes, left)) :
    (bridge.cache.get amb key s.cache).1 = .ok (some bytes) ∧
      left.dir.lookup (slotFilenameForKey key) = some (.file bytes) := by
  unfold materialize at done
  dsimp only at done
  split at done
  · cases done
  · cases done
  case h_3 answer answered =>
    split at done
    · cases done
    · obtain ⟨_, cleared, _, next⟩ := andThen_eq_ok.mp done
      obtain ⟨_, after, written, last⟩ := andThen_eq_ok.mp next
      cases last
      exact ⟨answered, writeSlotFileAtomic_file written⟩

/-- **Where the file system takes the file**, what the cache answers is materialized. -/
theorem materialize_writable (writable : bridge.Writable (slotFilenameForKey key) s)
    (answered : (bridge.cache.get amb key s.cache).1 = .ok (some bytes))
    (filled : bytes.length ≠ 0) (short : bytes.length ≤ bridge.maxStateBytes) :
    ∃ after, bridge.materialize amb key s = (.ok bytes, after) := by
  have fine : bridge.validateStateLen bytes.length = .ok () := by
    unfold validateStateLen
    exact if_neg (by omega)
  have read : bridge.Writable (slotFilenameForKey key)
      { s with cache := (bridge.cache.get amb key s.cache).2 } :=
    ⟨writable.valid, writable.temporary, writable.free, writable.regular⟩
  obtain ⟨cleared, removed, clear⟩ := removeSlotFile_writable read
  obtain ⟨after, written⟩ := writeSlotFileAtomic_writable clear filled short
  unfold materialize
  dsimp only
  rw [answered]
  dsimp only
  rw [fine]
  dsimp only
  rw [removed, andThen_ok, written, andThen_ok]
  exact ⟨after, rfl⟩

theorem handed_of_materialize (done : bridge.materialize amb key s = (.ok bytes, left)) :
    bridge.handed amb key s = some bytes := by
  unfold handed
  rw [done]
  dsimp only
  rw [(materialize_file done).2]

/-- What is handed over is what the cache answers. -/
theorem answered_of_handed (handed : bridge.handed amb key s = some bytes) :
    (bridge.cache.get amb key s.cache).1 = .ok (some bytes) := by
  unfold LlamaServerSlotBridge.handed at handed
  split at handed
  · cases handed
  case h_2 materialized left done =>
    obtain ⟨answered, file⟩ := materialize_file done
    rw [file] at handed
    cases handed
    exact answered

/-- **A successful `restore`** has handed over the bytes that its receipt is about. -/
theorem handed_of_restore (named : bridge.cacheKey model identity = .ok key) {slotId : UInt32}
    {receipt : LlamaServerSlotReceipt}
    (restored : (bridge.restore digest amb slotId model identity s).1 = .ok receipt) :
    ∃ bytes action, bridge.handed amb key s = some bytes ∧
      receipt = receiptFor digest key bytes action := by
  unfold restore at restored
  rw [named] at restored
  dsimp only at restored
  generalize done : bridge.materialize amb key s = materialized at restored
  obtain ⟨result, left⟩ := materialized
  cases result with
  | error error => cases restored
  | ok bytes =>
      refine ⟨bytes, ?_⟩
      rw [andThen_ok] at restored
      have loaded : (bridge.loadSlot digest slotId key bytes left).1 = .ok receipt := by
        unfold cleanUp at restored
        dsimp only at restored
        split at restored
        case h_1 kept _ same _ =>
          cases restored
          exact same
        case h_2 => cases restored
        case h_3 => cases restored
      unfold loadSlot at loaded
      obtain ⟨action, after, called, answered⟩ :=
        andThen_eq_ok.mp (Prod.ext loaded rfl : andThen _ _ = (.ok receipt, _))
      refine ⟨action, handed_of_materialize done, ?_⟩
      split at answered
      · cases answered
        rfl
      · split at answered
        · cases answered
        · cases answered
          rfl

/-! ### Runs -/

variable {contents : σ → String → Option StoredEntry} {domain : String → Prop}
  {t : SlotTraced σ ς}

/-- **Construction** serves nothing captured yet. -/
theorem served_start (backed : bridge.cache.Backed contents domain) {opening : Ambient}
    (opened : opening.Quiet) {stored : σ} {start : SlotTraced σ ς}
    (built : bridge.cache.fromBuilder opening stored = (.ok (), start.state.cache))
    (old : ∀ entry, contents stored key = some entry → entry.expiresAt = 0)
    (first : start.last = none) : Served bridge digest contents key start := by
  obtain ⟨begins, _⟩ := ContextCache.fromBuilder_slot backed opened built
  refine ⟨begins.coherent, fun copy held => ?_, fun receipt bytes captured => ?_⟩
  · rcases held with held | held
    · rw [begins.cold key] at held
      cases held
    · exact old copy (begins.kept key copy held)
  · rw [first] at captured
    cases captured

/-- **What a `restore` finds** of a covered slot: the last bytes captured, or nothing. -/
theorem Served.answer (backed : bridge.cache.Backed contents domain)
    (served : Served bridge digest contents key t) (covered : bridge.Covered contents key t)
    (faultless : amb.Faultless) {receipt : LlamaServerSlotReceipt}
    (captured : t.last = some (receipt, bytes)) :
    (bridge.cache.get amb key t.state.cache).1 = .ok (some bytes) ∨
      (bridge.cache.get amb key t.state.cache).1 = .ok none := by
  have last := served.last receipt bytes captured
  obtain ⟨result, after, done, touches, _⟩ :=
    ContextCache.get_slot backed faultless.quiet last.accepted t.state.cache
  obtain ⟨answer, succeeded⟩ := touches.own.succeeded faultless
  rw [done, succeeded]
  cases answer with
  | none => exact Or.inr rfl
  | some found =>
      have own := touches.own
      rw [succeeded] at own
      rw [own.current_answer (served.current covered captured) served.unexpiring]
      exact Or.inl rfl

/-- **A `restore` hands the last captured bytes to the server, or nothing.** From the construction of the
cache on, in a run whose steps are permitted, the last receipt is that of the bytes of the last `capture`.
A `restore` that finds the slot covered tells the server to load these bytes or none; if it succeeds, it has
handed them over and returns the same hash; and where the file system takes the file, it hands them over or
fails with `stateNotFound`. -/
theorem restore_hands_last_capture (backed : bridge.cache.Backed contents domain)
    (named : bridge.cacheKey model identity = .ok key)
    (eternal : bridge.cache.defaultTtl.isZero = true) {opening : Ambient} (opened : opening.Quiet)
    {stored : σ} {start : SlotTraced σ ς}
    (built : bridge.cache.fromBuilder opening stored = (.ok (), start.state.cache))
    (old : ∀ entry, contents stored key = some entry → entry.expiresAt = 0)
    (first : start.last = none)
    (reached : Reaches (bridge.trace digest model identity key)
      (bridge.Permitted contents model identity key) start t)
    {receipt : LlamaServerSlotReceipt} (captured : t.last = some (receipt, bytes))
    (covered : bridge.Covered contents key t) (faultless : amb.Faultless) (slotId : UInt32) :
    (receipt.cacheKey = key ∧ receipt.stateBytes = bytes.length ∧
      receipt.stateSha256 = hexEncode (digest bytes).toList) ∧
    (∀ file, bridge.handed amb key t.state = some file → file = bytes) ∧
    (∀ restored, (bridge.restore digest amb slotId model identity t.state).1 = .ok restored →
      bridge.handed amb key t.state = some bytes ∧
        restored.stateSha256 = receipt.stateSha256) ∧
    (bridge.Writable (slotFilenameForKey key) t.state →
      bridge.handed amb key t.state = some bytes ∨
        (bridge.restore digest amb slotId model identity t.state).1 = .error stateNotFound) := by
  have served : Served bridge digest contents key t :=
    reached.invariant _ (served_start backed opened built old first)
      fun _ _ before permitted => served_step backed named eternal permitted before
  have last := served.last receipt bytes captured
  have answer := served.answer backed covered faultless captured
  have only : ∀ file, bridge.handed amb key t.state = some file → file = bytes := by
    intro file handed
    rcases answer with found | missing
    · rw [answered_of_handed handed] at found
      cases found
      rfl
    · rw [answered_of_handed handed] at missing
      cases missing
  obtain ⟨action, same⟩ := last.receipt
  refine ⟨?_, only, fun restored done => ?_, fun writable => ?_⟩
  · rw [same]
    exact ⟨rfl, rfl, rfl⟩
  · obtain ⟨file, loaded, handed, answered⟩ := handed_of_restore named done
    have equal := only file handed
    rw [equal] at handed answered
    rw [answered, same]
    exact ⟨handed, rfl⟩
  · rcases answer with found | missing
    · obtain ⟨after, done⟩ := materialize_writable writable found last.filled last.short
      exact Or.inl (handed_of_materialize done)
    · refine Or.inr ?_
      unfold restore materialize
      rw [named]
      dsimp only
      rw [missing]
      rfl

/-! ### Runs on fixed inputs -/

/-- A digest that tells bytes apart by the first one. -/
def headDigest : Digest := fun bytes => Vector.replicate 32 (bytes.headD 0)

/-- A server that saves one state after the other, over a volatile cache. -/
def slotBridge (maxMemoryBytes maxDiskBytes : Nat) :
    LlamaServerSlotBridge VolatileStore (List (List UInt8)) where
  cache := ContextCache.volatile maxMemoryBytes maxDiskBytes
  makeKey := fun _ _ _ => repeatedKey 'a'
  control :=
    { save := fun slotId filename server =>
        match server.2 with
        | [] => (.error ⟨.other, "no state"⟩, server)
        | state :: rest =>
            (.ok ⟨slotId, filename, none, none, ""⟩,
              server.1.insert filename (.file state), rest)
      restore := fun slotId filename server =>
        (.ok ⟨slotId, filename, none, none, ""⟩, server) }
  maxStateBytes := 8
  processId := 1

/-- The start of a run, with the states that the server is going to save. -/
def slotStart (maxMemoryBytes maxDiskBytes : Nat) (states : List (List UInt8)) :
    SlotTraced VolatileStore (List (List UInt8)) :=
  ⟨⟨((ContextCache.volatile maxMemoryBytes maxDiskBytes).fromBuilder (Ambient.plain 5)
    VolatileStore.new).2, ∅, states, 0⟩, none⟩

/-- **An older state is restored**: without a memory tier, the second `capture` returns the receipt of the
state it has read, and a `restore` then hands the first state to the server. -/
theorem older_state_restored :
    let bridge := slotBridge 0 10
    let first := bridge.capture headDigest (Ambient.plain 6) 0 "model" "session" false
      (slotStart 0 10 [[1], [2]]).state
    let second := bridge.capture headDigest (Ambient.plain 7) 0 "model" "session" false first.2
    (∃ receipt, second.1 = .ok receipt ∧
      receipt.stateSha256 = hexEncode (headDigest [2]).toList) ∧
    bridge.handed (Ambient.plain 8) (repeatedKey 'a') second.2 = some [1] ∧
    (∃ receipt, (bridge.restore headDigest (Ambient.plain 8) 0 "model" "session" second.2).1 =
        .ok receipt) ∧
    hexEncode (headDigest [2]).toList ≠ hexEncode (headDigest [1]).toList := by
  refine ⟨⟨_, rfl, rfl⟩, rfl, ⟨_, rfl⟩, by decide⟩

/-- One `capture`. -/
def slotCall : SlotCall := .capture (Ambient.plain 6) 0 "model" "session" false

/-- After one `capture` of a state that fits the memory tier. -/
def slotCaptured : SlotTraced VolatileStore (List (List UInt8)) :=
  (slotBridge 8 8).trace headDigest "model" "session" (repeatedKey 'a') slotCall
    (slotStart 8 8 [[1, 2]])

/-- A run with one `capture`. -/
theorem restore_hands_last_capture_alone :
    (slotBridge 8 8).handed (Ambient.plain 7) (repeatedKey 'a') slotCaptured.state = some [1, 2] ∧
      ∀ file, (slotBridge 8 8).handed (Ambient.plain 7) (repeatedKey 'a') slotCaptured.state =
        some file → file = [1, 2] := by
  have captured : slotCaptured.last = some (receiptFor headDigest (repeatedKey 'a') [1, 2]
      ⟨0, slotFilenameForKey (repeatedKey 'a'), none, none, ""⟩, [1, 2]) := rfl
  have held : slotCaptured.state.cache.memory.lookup (repeatedKey 'a') =
      some ⟨[1, 2], 0, false, 2⟩ := rfl
  have old : ∀ entry, VolatileStore.contents VolatileStore.new (repeatedKey 'a') = some entry →
      entry.expiresAt = 0 := by
    intro entry held
    cases held
  have covered : (slotBridge 8 8).Covered VolatileStore.contents (repeatedKey 'a')
      slotCaptured := by
    intro _ _ _ _ empty
    rw [ContextCache.slot_memory_none, held] at empty
    cases empty
  have permitted : (slotBridge 8 8).Permitted VolatileStore.contents "model" "session"
      (repeatedKey 'a') slotCall (slotStart 8 8 [[1, 2]]) :=
    { replaces := fun amb slotId pinned bytes same read => Or.inl (by
        cases same
        cases read
        rfl)
      covered := fun looked => by cases looked
      faultless := Ambient.plain_faultless 6
      apart := fun _ _ _ _ _ same _ => by
        cases same
        exact ⟨rfl, rfl⟩ }
  exact ⟨rfl, (restore_hands_last_capture (ContextCache.volatile_backed 8 8) rfl rfl
    (Ambient.plain_faultless 5).quiet rfl old rfl
    (Reaches.step .refl permitted) captured covered (Ambient.plain_faultless 7) 0).2.1⟩

end LlamaServerSlotBridge

end RivetCache
