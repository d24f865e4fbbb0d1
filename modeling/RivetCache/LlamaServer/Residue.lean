/-
**Which slot files a call leaves behind.**

Here the calls of the file system may fail (`SlotDisk`), but for the removal of a regular file, and the
server may do to the directory what it likes, also when it answers with an error.

* `captureOn_quiet`, `restoreOn_quiet`: on a disk whose calls do not fail these are `capture` and `restore`;
* `cleanUp_clean`: past its closure, a call leaves no file of the slot;
* `no_slot_left_iff`: `capture` and `restore` leave none exactly where they do not return before that, with a
  file there;
* `failed_save_leaves_file`: the server saves the file, and then answers with an error.
-/

import RivetCache.LlamaServer.HandOver

set_option linter.unusedSectionVars false

namespace RivetCache

open Library

/-! ### A disk whose calls may fail -/

/-- How the calls of the file system fail, each during one call of the bridge: `metadata` and `read` those of
`read_slot_file`, `create`, `write` (after so many bytes) and `rename` those of `write_slot_file_atomic`. -/
structure SlotDisk where
  metadata : Option IoError := none
  read : Option IoError := none
  create : Option IoError := none
  write : Option (Nat × IoError) := none
  rename : Option IoError := none

/-- A disk whose calls do not fail. -/
def SlotDisk.quiet : SlotDisk := {}

namespace LlamaServerSlotBridge

variable {σ ς : Type} (bridge : LlamaServerSlotBridge σ ς) (digest : Digest) (disk : SlotDisk)

/-- `read_slot_file`. -/
def readSlotFileOn (filename : String) (dir : SlotDir) : Except IoError (List UInt8) :=
  match validateSlotFilename filename with
  | .error error => .error error
  | .ok () =>
      match disk.metadata with
      | some error => .error error
      | none =>
          match bridge.readSlotFile filename dir with
          | .error error => .error error
          | .ok bytes =>
              match disk.read with
              | some error => .error error
              | none => .ok bytes

/-- `capture`, what becomes of the file: it is read, or the call has failed before. -/
def storeStateOn (amb : Ambient) (key filename : String) (pinned : Bool) (action : LlamaServerSlotAction)
    (s : SlotState σ ς) : Except IoError LlamaServerSlotReceipt × SlotState σ ς :=
  match bridge.readSlotFileOn disk filename s.dir with
  | .error error => (.error error, s)
  | .ok _ => bridge.storeState digest amb key filename pinned action s

/-- `capture`. -/
def captureOn (amb : Ambient) (slotId : UInt32) (modelFingerprint logicalIdentity : String) (pinned : Bool)
    (s : SlotState σ ς) : Except IoError LlamaServerSlotReceipt × SlotState σ ς :=
  match bridge.cacheKey modelFingerprint logicalIdentity with
  | .error error => (.error error, s)
  | .ok key =>
      let filename := slotFilenameForKey key
      andThen (bridge.saveSlot slotId filename s) fun action s =>
        cleanUp filename (bridge.storeStateOn digest disk amb key filename pinned action s)

/-- `write_slot_file_atomic`, from the creation of the temporary file on: it is removed again if it cannot be
written or renamed. -/
def writeThroughOn (filename temp : String) (bytes : List UInt8) (dir : SlotDir) :
    Except IoError Unit × SlotDir :=
  match disk.create with
  | some error => (.error error, dir)
  | none =>
      match dir.lookup temp with
      | some _ => (.error ⟨.alreadyExists, "File exists (os error 17)"⟩, dir)
      | none =>
          match disk.write with
          | some (count, error) => (.error error, (dir.insert temp (.file (bytes.take count))).erase temp)
          | none =>
              let written := dir.insert temp (.file bytes)
              andThen
                (if (written.lookup filename).isSome then removeSlotFileIfRegular filename written
                  else (.ok (), written))
                fun _ dir =>
                  match disk.rename with
                  | some error => (.error error, dir.erase temp)
                  | none => (.ok (), (dir.erase temp).insert filename (.file bytes))

/-- `write_slot_file_atomic`. -/
def writeSlotFileAtomicOn (filename : String) (bytes : List UInt8) (s : SlotState σ ς) :
    Except IoError Unit × SlotState σ ς :=
  match bridge.validateStateLen bytes.length with
  | .error error => (.error error, s)
  | .ok () =>
      match validateSlotFilename filename with
      | .error error => (.error error, s)
      | .ok () =>
          let temp := bridge.tempName filename s.nonce
          let counted := { s with nonce := (s.nonce + 1) % 2 ^ 64 }
          match validateSlotFilename temp with
          | .error error => (.error error, counted)
          | .ok () =>
              let (written, dir) := writeThroughOn disk filename temp bytes counted.dir
              (written, { counted with dir := dir })

/-- `restore`, up to the file that the server is going to load: its bytes. -/
def materializeOn (amb : Ambient) (key : String) (s : SlotState σ ς) :
    Except IoError (List UInt8) × SlotState σ ς :=
  let (answer, cache) := bridge.cache.get amb key s.cache
  let s := { s with cache := cache }
  match answer with
  | .error error => (.error error, s)
  | .ok none => (.error stateNotFound, s)
  | .ok (some bytes) =>
      match bridge.validateStateLen bytes.length with
      | .error error => (.error error, s)
      | .ok () =>
          andThen (removeSlotFile (slotFilenameForKey key) s) fun _ s =>
            andThen (bridge.writeSlotFileAtomicOn disk (slotFilenameForKey key) bytes s) fun _ s =>
              (.ok bytes, s)

/-- `restore`. -/
def restoreOn (amb : Ambient) (slotId : UInt32) (modelFingerprint logicalIdentity : String)
    (s : SlotState σ ς) : Except IoError LlamaServerSlotReceipt × SlotState σ ς :=
  match bridge.cacheKey modelFingerprint logicalIdentity with
  | .error error => (.error error, s)
  | .ok key =>
      andThen (bridge.materializeOn disk amb key s) fun bytes s =>
        cleanUp (slotFilenameForKey key) (bridge.loadSlot digest slotId key bytes s)

/-! ### A disk whose calls do not fail -/

variable {bridge digest disk} {amb : Ambient} {s : SlotState σ ς} {filename key model identity : String}
  {bytes : List UInt8} {slotId : UInt32}

theorem readSlotFileOn_quiet (filename : String) (dir : SlotDir) :
    bridge.readSlotFileOn .quiet filename dir = bridge.readSlotFile filename dir := by
  unfold readSlotFileOn SlotDisk.quiet
  dsimp only
  unfold readSlotFile
  cases validateSlotFilename filename with
  | error error => rfl
  | ok _ =>
      dsimp only
      split <;> rename_i read <;> rw [read]

theorem storeStateOn_quiet (pinned : Bool) (action : LlamaServerSlotAction) (s : SlotState σ ς) :
    bridge.storeStateOn digest .quiet amb key filename pinned action s =
      bridge.storeState digest amb key filename pinned action s := by
  unfold storeStateOn
  rw [readSlotFileOn_quiet]
  cases read : bridge.readSlotFile filename s.dir with
  | error error => simp only [storeState, savedState, read]
  | ok bytes => rfl

/-- **Without failures** this is `capture`. -/
theorem captureOn_quiet (pinned : Bool) :
    bridge.captureOn digest .quiet amb slotId model identity pinned s =
      bridge.capture digest amb slotId model identity pinned s := by
  unfold captureOn capture
  cases bridge.cacheKey model identity with
  | error error => rfl
  | ok key => simp only [storeStateOn_quiet]

/-- **Without failures** this is `restore`. -/
theorem restoreOn_quiet :
    bridge.restoreOn digest .quiet amb slotId model identity s =
      bridge.restore digest amb slotId model identity s := rfl

end LlamaServerSlotBridge

/-! ### Removing -/

/-- There is a regular file of the name. -/
def HasFile (filename : String) (dir : SlotDir) : Prop := ∃ bytes, dir.lookup filename = some (.file bytes)

theorem not_hasFile_of_none {filename : String} {dir : SlotDir} (gone : dir.lookup filename = none) :
    ¬ HasFile filename dir := by
  rintro ⟨bytes, there⟩
  rw [gone] at there
  cases there

theorem not_hasFile_of_other {filename : String} {dir : SlotDir} (other : dir.lookup filename = some .other) :
    ¬ HasFile filename dir := by
  rintro ⟨bytes, there⟩
  rw [other] at there
  cases there

/-- Another node stays, with an error. -/
theorem removeSlotFileIfRegular_other {filename : String} {dir : SlotDir}
    (other : dir.lookup filename = some .other) :
    ∃ error, removeSlotFileIfRegular filename dir = (.error error, dir) := by
  unfold removeSlotFileIfRegular
  rw [other]
  cases validateSlotFilename filename with
  | error error => exact ⟨error, rfl⟩
  | ok _ => exact ⟨_, rfl⟩

/-- A name that is not valid stays, with an error. -/
theorem removeSlotFileIfRegular_invalid {filename : String} (invalid : validSlotFilename filename = false)
    (dir : SlotDir) :
    ∃ error, removeSlotFileIfRegular filename dir = (.error error, dir) := by
  unfold removeSlotFileIfRegular validateSlotFilename
  rw [if_neg (by rw [invalid]; exact Bool.false_ne_true)]
  exact ⟨_, rfl⟩

/-- **After a removal** there is no file of the name. -/
theorem removeSlotFileIfRegular_clean {filename : String} (valid : validSlotFilename filename = true)
    (dir : SlotDir) : ¬ HasFile filename (removeSlotFileIfRegular filename dir).2 := by
  by_cases other : dir.lookup filename = some .other
  · obtain ⟨error, removed⟩ := removeSlotFileIfRegular_other other
    rw [removed]
    exact not_hasFile_of_other other
  · rw [removeSlotFileIfRegular_erase valid other]
    exact not_hasFile_of_none (AList.lookup_erase _ _)

namespace LlamaServerSlotBridge

variable {σ ς : Type} {bridge : LlamaServerSlotBridge σ ς} {digest : Digest} {disk : SlotDisk} {amb : Ambient}
  {s : SlotState σ ς} {filename key model identity : String} {bytes : List UInt8} {slotId : UInt32}

/-- **Past its closure** a call leaves no file of the slot. -/
theorem cleanUp_clean {α : Type} (valid : validSlotFilename filename = true)
    (done : Except IoError α × SlotState σ ς) : ¬ HasFile filename (cleanUp filename done).2.dir :=
  removeSlotFileIfRegular_clean valid done.2.dir

/-! ### Capturing -/

/-- A `capture` returns before its closure, with a file of the slot in the directory: the server fails to save
the slot, and leaves one; or the name of the slot is not valid, and there was one. -/
def CaptureLeaves (bridge : LlamaServerSlotBridge σ ς) (slotId : UInt32) (filename : String)
    (s : SlotState σ ς) : Prop :=
  if validSlotFilename filename = true then
    s.dir.lookup filename ≠ some .other ∧ ∃ error dir server,
      bridge.control.save slotId filename (s.dir.erase filename, s.server) = (.error error, dir, server) ∧
        HasFile filename dir
  else HasFile filename s.dir

theorem captureOn_hasFile_iff (named : bridge.cacheKey model identity = .ok key) (pinned : Bool) :
    HasFile (slotFilenameForKey key)
        (bridge.captureOn digest disk amb slotId model identity pinned s).2.dir ↔
      bridge.CaptureLeaves slotId (slotFilenameForKey key) s := by
  unfold captureOn CaptureLeaves saveSlot removeSlotFile
  rw [named]
  dsimp only
  by_cases valid : validSlotFilename (slotFilenameForKey key) = true
  · rw [if_pos valid]
    by_cases other : s.dir.lookup (slotFilenameForKey key) = some .other
    · obtain ⟨error, removed⟩ := removeSlotFileIfRegular_other other
      rw [removed]
      exact iff_of_false (not_hasFile_of_other other) fun leaves => leaves.1 other
    · rw [removeSlotFileIfRegular_erase valid other]
      rcases saved : bridge.control.save slotId (slotFilenameForKey key)
        (s.dir.erase (slotFilenameForKey key), s.server) with ⟨answer, dir, server⟩
      rw [andThen_ok]
      unfold serverCall
      rw [saved]
      cases answer with
      | error error =>
          refine ⟨fun left => ⟨other, error, dir, server, rfl, left⟩, ?_⟩
          rintro ⟨-, _, _, _, same, left⟩
          cases same
          exact left
      | ok action =>
          refine iff_of_false (cleanUp_clean valid _) ?_
          rintro ⟨-, _, _, _, same, -⟩
          cases same
  · rw [if_neg valid]
    obtain ⟨error, removed⟩ := removeSlotFileIfRegular_invalid (Bool.eq_false_iff.mpr valid) s.dir
    rw [removed]
    rfl

/-! ### Restoring -/

/-- **What is written**: after an error there is no file of the slot, and in no case a temporary one. -/
theorem writeThroughOn_spec {temp : String} {dir : SlotDir} (valid : validSlotFilename filename = true)
    (gone : dir.lookup filename = none) (bytes : List UInt8) :
    (∀ error, (writeThroughOn disk filename temp bytes dir).1 = .error error →
      ¬ HasFile filename (writeThroughOn disk filename temp bytes dir).2) ∧
    ∀ name, name ≠ filename →
      (writeThroughOn disk filename temp bytes dir).2.lookup name = dir.lookup name := by
  unfold writeThroughOn
  cases created : disk.create with
  | some error => exact ⟨fun _ _ => not_hasFile_of_none gone, fun _ _ => rfl⟩
  | none =>
      cases free : dir.lookup temp with
      | some node => exact ⟨fun _ _ => not_hasFile_of_none gone, fun _ _ => rfl⟩
      | none =>
          -- a temporary file that is removed leaves the directory as it was
          have removed : ∀ node name, ((dir.insert temp node).erase temp).lookup name = dir.lookup name := by
            intro node name
            rw [lookup_erase_eq, lookup_insert_eq]
            by_cases same : name = temp
            · rw [if_pos same, same, free]
            · rw [if_neg same, if_neg same]
          cases written : disk.write with
          | some failed =>
              exact ⟨fun _ _ => not_hasFile_of_none ((removed _ _).trans gone), fun name _ => removed _ name⟩
          | none =>
              have regular : (dir.insert temp (.file bytes)).lookup filename ≠ some .other :=
                insert_file_regular (by rw [gone]; simp) temp bytes
              have others : ∀ name, name ≠ filename →
                  (((dir.insert temp (.file bytes)).erase filename).erase temp).lookup name =
                    dir.lookup name := by
                intro name apart
                rw [AList.erase_erase, lookup_erase_eq, if_neg apart, removed]
              dsimp only
              rw [removeSlotFileIfRegular_there valid regular, andThen_ok]
              cases renamed : disk.rename with
              | some error =>
                  refine ⟨fun _ _ => not_hasFile_of_none ?_, others⟩
                  show AList.lookup _ (AList.erase _ (AList.erase _ _)) = none
                  rw [AList.erase_erase, AList.lookup_erase]
              | none =>
                  refine ⟨fun _ failed => ?_, fun name apart => ?_⟩
                  · cases failed
                  · exact (AList.lookup_insert_ne apart).trans (others name apart)

/-- What is written from a directory without a file of the slot. -/
theorem writeSlotFileAtomicOn_spec (bridge : LlamaServerSlotBridge σ ς) (disk : SlotDisk) (bytes : List UInt8)
    (gone : s.dir.lookup filename = none) (valid : validSlotFilename filename = true) :
    (∀ error, (bridge.writeSlotFileAtomicOn disk filename bytes s).1 = .error error →
      ¬ HasFile filename (bridge.writeSlotFileAtomicOn disk filename bytes s).2.dir) ∧
    ∀ name, name ≠ filename →
      (bridge.writeSlotFileAtomicOn disk filename bytes s).2.dir.lookup name = s.dir.lookup name := by
  unfold writeSlotFileAtomicOn
  split
  · exact ⟨fun _ _ => not_hasFile_of_none gone, fun _ _ => rfl⟩
  · split
    · exact ⟨fun _ _ => not_hasFile_of_none gone, fun _ _ => rfl⟩
    · dsimp only
      split
      · exact ⟨fun _ _ => not_hasFile_of_none gone, fun _ _ => rfl⟩
      · exact writeThroughOn_spec valid gone bytes

/-- A `restore` gets to write the file: its name is valid, and the cache answers with a state of a length that
is allowed. -/
def Materializes (bridge : LlamaServerSlotBridge σ ς) (amb : Ambient) (key : String) (s : SlotState σ ς) : Prop :=
  validSlotFilename (slotFilenameForKey key) = true ∧
    ∃ bytes, (bridge.cache.get amb key s.cache).1 = .ok (some bytes) ∧ bytes.length ≠ 0 ∧
      bytes.length ≤ bridge.maxStateBytes

/-- A `restore` that does not get there leaves the directory as it was. -/
theorem materializeOn_early (disk : SlotDisk) (early : ¬ bridge.Materializes amb key s) :
    ∃ error left, bridge.materializeOn disk amb key s = (.error error, left) ∧ left.dir = s.dir := by
  unfold materializeOn
  dsimp only
  cases answered : (bridge.cache.get amb key s.cache).1 with
  | error error => exact ⟨error, _, rfl, rfl⟩
  | ok held =>
      cases held with
      | none => exact ⟨_, _, rfl, rfl⟩
      | some bytes =>
          dsimp only
          cases fine : bridge.validateStateLen bytes.length with
          | error error => exact ⟨error, _, rfl, rfl⟩
          | ok _ =>
              have invalid : validSlotFilename (slotFilenameForKey key) = false := by
                refine Bool.eq_false_iff.mpr fun valid => early ⟨valid, bytes, answered, ?_⟩
                unfold validateStateLen at fine
                split at fine
                · cases fine
                · omega
              obtain ⟨error, removed⟩ := removeSlotFileIfRegular_invalid invalid s.dir
              dsimp only
              unfold removeSlotFile
              rw [removed]
              exact ⟨error, _, rfl, rfl⟩

/-- **A `restore` that gets there** and fails leaves no file of the slot, and in no case a temporary one. -/
theorem materializeOn_late (disk : SlotDisk) (materializes : bridge.Materializes amb key s) :
    (∀ error, (bridge.materializeOn disk amb key s).1 = .error error →
      ¬ HasFile (slotFilenameForKey key) (bridge.materializeOn disk amb key s).2.dir) ∧
    ∀ name, name ≠ slotFilenameForKey key →
      (bridge.materializeOn disk amb key s).2.dir.lookup name = s.dir.lookup name := by
  obtain ⟨valid, bytes, answered, filled, short⟩ := materializes
  have fine : bridge.validateStateLen bytes.length = .ok () := by
    unfold validateStateLen
    exact if_neg (by omega)
  unfold materializeOn removeSlotFile
  dsimp only
  rw [answered]
  dsimp only
  rw [fine]
  dsimp only
  by_cases other : s.dir.lookup (slotFilenameForKey key) = some .other
  · obtain ⟨error, removed⟩ := removeSlotFileIfRegular_other other
    rw [removed]
    exact ⟨fun _ _ => not_hasFile_of_other other, fun _ _ => rfl⟩
  · rw [removeSlotFileIfRegular_erase valid other, andThen_ok]
    set cleared : SlotState σ ς :=
      { s with cache := (bridge.cache.get amb key s.cache).2, dir := s.dir.erase (slotFilenameForKey key) }
    have gone : cleared.dir.lookup (slotFilenameForKey key) = none := AList.lookup_erase _ _
    have spec := bridge.writeSlotFileAtomicOn_spec disk bytes gone valid
    have others : ∀ name, name ≠ slotFilenameForKey key →
        (bridge.writeSlotFileAtomicOn disk (slotFilenameForKey key) bytes cleared).2.dir.lookup name =
          s.dir.lookup name := fun name apart => (spec.2 name apart).trans (AList.lookup_erase_ne apart)
    rcases written : bridge.writeSlotFileAtomicOn disk (slotFilenameForKey key) bytes cleared with ⟨answer, left⟩
    rw [written] at spec others
    cases answer with
    | error error => exact ⟨fun _ _ => spec.1 error rfl, others⟩
    | ok _ =>
        refine ⟨fun _ failed => ?_, others⟩
        cases failed

theorem restoreOn_hasFile_iff (named : bridge.cacheKey model identity = .ok key) :
    HasFile (slotFilenameForKey key) (bridge.restoreOn digest disk amb slotId model identity s).2.dir ↔
      HasFile (slotFilenameForKey key) s.dir ∧ ¬ bridge.Materializes amb key s := by
  unfold restoreOn
  rw [named]
  dsimp only
  by_cases materializes : bridge.Materializes amb key s
  · refine iff_of_false ?_ fun leaves => leaves.2 materializes
    have late := (materializeOn_late disk materializes).1
    rcases made : bridge.materializeOn disk amb key s with ⟨answer, left⟩
    rw [made] at late
    cases answer with
    | error error => exact late error rfl
    | ok bytes => exact cleanUp_clean materializes.1 _
  · obtain ⟨error, left, made, same⟩ := materializeOn_early disk materializes
    rw [made, andThen_error, same]
    exact ⟨fun there => ⟨there, materializes⟩, And.left⟩

/-! ### What is left of a slot -/

/-- **What is left of a slot.** A `capture` leaves no file of the slot exactly if it does not return before its
closure with one in the directory; a `restore` exactly if there was none, or it gets to write it. And a
`restore` leaves no temporary file: before the server is called, it changes no other name. -/
theorem no_slot_left_iff (named : bridge.cacheKey model identity = .ok key) (digest : Digest)
    (disk : SlotDisk) (amb : Ambient) (slotId : UInt32) (pinned : Bool) (s : SlotState σ ς) :
    (¬ HasFile (slotFilenameForKey key)
        (bridge.captureOn digest disk amb slotId model identity pinned s).2.dir ↔
      ¬ bridge.CaptureLeaves slotId (slotFilenameForKey key) s) ∧
    (¬ HasFile (slotFilenameForKey key) (bridge.restoreOn digest disk amb slotId model identity s).2.dir ↔
      ¬ HasFile (slotFilenameForKey key) s.dir ∨ bridge.Materializes amb key s) ∧
    ∀ name, name ≠ slotFilenameForKey key →
      (bridge.materializeOn disk amb key s).2.dir.lookup name = s.dir.lookup name := by
  refine ⟨not_congr (captureOn_hasFile_iff named pinned), ?_, fun name apart => ?_⟩
  · rw [restoreOn_hasFile_iff named, not_and_or, not_not]
  · by_cases materializes : bridge.Materializes amb key s
    · exact (materializeOn_late disk materializes).2 name apart
    · obtain ⟨error, left, made, same⟩ := materializeOn_early disk materializes
      rw [made, same]

/-- A `capture` of a server that answers leaves no file. -/
theorem no_slot_left_answered :
    ¬ HasFile (slotFilenameForKey (repeatedKey 'a'))
      ((slotBridge 8 8).captureOn headDigest .quiet (Ambient.plain 6) 0 "model" "session" false
        (slotStart 8 8 [[1]]).state).2.dir := by
  have named : (slotBridge 8 8).cacheKey "model" "session" = .ok (repeatedKey 'a') := rfl
  refine (no_slot_left_iff named headDigest .quiet (Ambient.plain 6) 0 false _).1.mpr fun leaves => ?_
  unfold CaptureLeaves at leaves
  rw [if_pos (by decide)] at leaves
  obtain ⟨-, error, dir, server, saved, -⟩ := leaves
  cases saved

/-- A server that saves the slot, and then answers with an error. -/
def lateSlotBridge : LlamaServerSlotBridge VolatileStore (List (List UInt8)) :=
  { slotBridge 8 8 with
    control :=
      { (slotBridge 8 8).control with
        save := fun _ filename server =>
          (.error ⟨.timedOut, "timed out"⟩, server.1.insert filename (.file [1]), server.2) } }

/-- **A failed save leaves its file**, and a `restore` of a slot that the cache does not have leaves it too. -/
theorem failed_save_leaves_file :
    let captured := (lateSlotBridge.captureOn headDigest .quiet (Ambient.plain 6) 0 "model" "session" false
      (slotStart 8 8 []).state).2
    HasFile (slotFilenameForKey (repeatedKey 'a')) captured.dir ∧
      HasFile (slotFilenameForKey (repeatedKey 'a'))
        (lateSlotBridge.restoreOn headDigest .quiet (Ambient.plain 7) 0 "model" "session" captured).2.dir :=
  ⟨⟨[1], by decide⟩, ⟨[1], by decide⟩⟩

end LlamaServerSlotBridge

end RivetCache
