/-
**`store.rs`: what a failed write leaves.**

`put_if_absent` creates a temporary file, writes it in six parts, syncs it and renames it. A failed rename
removes the temporary file; a failed write or sync returns at once.

* `putIfAbsent_traceless`: a failed call leaves the files as they were, unless a write or the sync failed;
* `run_keeps`: no call of the store deletes a file that it has left behind.
-/

import RivetCache.Stores.Format

set_option linter.unusedSectionVars false

namespace RivetCache

open Library

namespace FileStore

variable {os : FileAmbient} {dir : Directory} {key : String} {entry : StoredEntry}

/-! ### How a write fails -/

/-- **A call gets to write**: the key is valid and not found, and the temporary file is created. -/
structure Writes (os : FileAmbient) (dir : Directory) (key : String) : Prop where
  valid : ValidFileKey key
  missing : ∃ error, dir.metadata os (fileName key) = .error error
  create : os.fault .create = none
  fresh : dir.files.lookup (tempName os dir.nonce) = none

/-- One of the six writes fails, or the sync. -/
def WriteFails (os : FileAmbient) : Prop :=
  (∃ place < 6, os.fault (.write place) ≠ none) ∨ os.fault .sync ≠ none

/-- **A failed call leaves no trace**: the files are those before it, and no temporary file is left. -/
structure Traceless (os : FileAmbient) (key : String) (entry : StoredEntry) (dir : Directory) : Prop where
  files : ∀ error after, putIfAbsent os key entry dir = (.error error, after) →
    ∀ name, after.files.lookup name = dir.files.lookup name
  temporary : ∀ error after, putIfAbsent os key entry dir = (.error error, after) →
    ∀ name, extension name ≠ some cacheExtension → dir.files.lookup name = none →
      after.files.lookup name = none

theorem writeParts_error : ∀ (place : Nat) (parts : List (List UInt8)) (written : List UInt8),
    (∃ later, place ≤ later ∧ later < place + parts.length ∧ os.fault (.write later) ≠ none) →
    ∃ error front, writeParts os place parts written = (.error error, front)
  | place, [], _, ⟨later, after, within, _⟩ => by
      rw [List.length_nil] at within
      omega
  | place, part :: rest, written, ⟨later, after, within, fails⟩ => by
      unfold writeParts
      cases here : os.fault (.write place) with
      | some error => exact ⟨error, written, rfl⟩
      | none =>
          have different : later ≠ place := by
            rintro rfl
            exact fails here
          rw [List.length_cons] at within
          exact writeParts_error (place + 1) rest (written ++ part)
            ⟨later, by omega, by omega, fails⟩

/-- The call up to its first write. -/
theorem putIfAbsent_writes (writes : Writes os dir key) :
    putIfAbsent os key entry dir =
      writeTemp os (tempName os dir.nonce) (fileName key) (os.seconds dir.nonce) entry
        { dir with nonce := (dir.nonce + 1) % 2 ^ 64 } := by
  obtain ⟨error, missing⟩ := writes.missing
  unfold putIfAbsent
  rw [pathFor_valid writes.valid]
  simp only [missing]

/-- A write or the sync that fails leaves the temporary file. -/
theorem writeTemp_leaves {temp : String} (name : String) (modified : Nat) (entry : StoredEntry)
    (dir : Directory) (create : os.fault .create = none) (fresh : dir.files.lookup temp = none)
    (fails : WriteFails os) :
    ∃ error after, writeTemp os temp name modified entry dir = (.error error, after) ∧
      after.files.lookup temp ≠ none := by
  unfold writeTemp
  simp only [create, fresh]
  have left : ∀ written : List UInt8, ({ dir with
      files := dir.files.insert temp ⟨written, modified⟩ } : Directory).files.lookup temp ≠ none := by
    intro written
    show (dir.files.insert temp _).lookup temp ≠ none
    rw [AList.lookup_insert]
    exact Option.some_ne_none _
  generalize ran : writeParts os 0 (fileParts os entry) [] = result
  obtain ⟨outcome, written⟩ := result
  cases outcome with
  | error error => exact ⟨error, _, rfl, left written⟩
  | ok value =>
      rcases fails with ⟨place, within, fails⟩ | fails
      · obtain ⟨error, front, failed⟩ :=
          writeParts_error 0 (fileParts os entry) [] ⟨place, Nat.zero_le _, by simpa [fileParts], fails⟩
        rw [ran] at failed
        exact nomatch failed
      · obtain ⟨error, sync⟩ := Option.ne_none_iff_exists'.mp fails
        simp only [sync]
        exact ⟨error, _, rfl, left written⟩

/-- A rename that fails removes the temporary file. -/
theorem renameTemp_error {temp name : String} {storedBytes : Nat} {file : File} {error : IoError}
    {after : Directory} (removes : os.fault (.removeFile temp) = none)
    (there : dir.files.lookup temp = some file)
    (failed : renameTemp os temp name storedBytes dir = (.error error, after)) :
    after.files = dir.files.erase temp := by
  have removed : (dir.removeFile os temp).2.files = dir.files.erase temp := by
    unfold Directory.removeFile
    rw [removes]
    simp only [there]
  unfold renameTemp at failed
  cases renamed : os.fault .rename with
  | none =>
      simp only [renamed, there] at failed
      exact nomatch failed
  | some other =>
      simp only [renamed] at failed
      split at failed
      case isTrue _ =>
        split at failed
        case h_1 _ => exact nomatch failed
        case h_2 _ => exact nomatch failed
      case isFalse _ =>
        cases failed
        exact removed

/-- A call whose writes and sync work leaves the files as they were where it fails. -/
theorem writeTemp_restores {temp name : String} {modified : Nat} {error : IoError} (dir : Directory)
    {after : Directory} (removes : os.fault (.removeFile temp) = none)
    (works : os.fault .create = none → dir.files.lookup temp = none → ¬ WriteFails os)
    (failed : writeTemp os temp name modified entry dir = (.error error, after)) (other : String) :
    after.files.lookup other = dir.files.lookup other := by
  unfold writeTemp at failed
  cases create : os.fault .create with
  | some _ =>
      simp only [create] at failed
      cases failed
      rfl
  | none =>
      cases fresh : dir.files.lookup temp with
      | some _ =>
          simp only [create, fresh] at failed
          cases failed
          rfl
      | none =>
          have fine := not_or.mp (works create fresh)
          have writes := writeParts_ok 0 (fileParts os entry) [] fun place _ within => by
            refine not_not.mp fun fails => fine.1 ⟨place, ?_, fails⟩
            simpa [fileParts] using within
          simp only [create, fresh, writes, not_not.mp fine.2] at failed
          have files := renameTemp_error removes (AList.lookup_insert _) failed
          rw [files, lookup_erase_eq, lookup_insert_eq]
          by_cases same : other = temp
          · rw [if_pos same, same, fresh]
          · rw [if_neg same, if_neg same]

/-- **A failed write leaves no trace exactly when it is not a write or the sync that failed**: every step
between the creation of the temporary file and its renaming returns at once. -/
theorem putIfAbsent_traceless (os : FileAmbient) (key : String) (entry : StoredEntry) (dir : Directory)
    (removes : os.fault (.removeFile (tempName os dir.nonce)) = none) :
    Traceless os key entry dir ↔ ¬ (Writes os dir key ∧ WriteFails os) := by
  constructor
  · rintro traceless ⟨writes, fails⟩
    obtain ⟨error, after, failed, left⟩ := writeTemp_leaves (fileName key) (os.seconds dir.nonce) entry
      { dir with nonce := (dir.nonce + 1) % 2 ^ 64 } writes.create writes.fresh fails
    rw [← putIfAbsent_writes writes] at failed
    exact left ((traceless.files error after failed _).trans writes.fresh)
  · intro works
    have files : ∀ error after, putIfAbsent os key entry dir = (.error error, after) →
        ∀ name, after.files.lookup name = dir.files.lookup name := by
      intro error after failed name
      by_cases valid : ValidFileKey key
      · cases missing : dir.metadata os (fileName key) with
        | ok file =>
            unfold putIfAbsent at failed
            rw [pathFor_valid valid] at failed
            simp only [missing] at failed
            exact nomatch failed
        | error other =>
            unfold putIfAbsent at failed
            rw [pathFor_valid valid] at failed
            simp only [missing] at failed
            exact writeTemp_restores { dir with nonce := (dir.nonce + 1) % 2 ^ 64 } removes
              (fun create fresh fails => works ⟨⟨valid, ⟨other, missing⟩, create, fresh⟩, fails⟩)
              failed name
      · obtain ⟨other, refused⟩ := putIfAbsent_invalid os dir valid entry
        rw [refused] at failed
        cases failed
        rfl
    exact ⟨files, fun error after failed name _ absent => (files error after failed name).trans absent⟩

/-- A full disk: the payload cannot be written. -/
def fullDisk : FileAmbient :=
  { plainFiles with
    fault := fun call =>
      if call = .write 5 then some ⟨.other, "No space left on device (os error 28)"⟩ else none }

/-- A write to a directory that cannot be written to. -/
theorem putIfAbsent_traceless_create :
    Traceless { plainFiles with fault := fun call =>
      if call = .create then some ⟨.permissionDenied, "Permission denied (os error 13)"⟩ else none }
      "k" shortEntry Directory.empty :=
  (putIfAbsent_traceless _ _ _ _ rfl).mpr fun leaves => nomatch leaves.1.create

/-! ### What is left stays -/

/-- The extension of a name ends it. -/
theorem extension_last {name ext : String} (found : extension name = some ext) :
    ext.toList = (name.toList.reverse.takeWhile (· ≠ '.')).reverse := by
  unfold extension rsplitFileAtDot at found
  split at found
  case isTrue _ => exact nomatch found
  case isFalse _ =>
  split at found
  case h_1 _ => exact nomatch found
  case h_2 _ => exact nomatch found
  case h_3 _ =>
    cases found
    exact String.toList_ofList

/-- A temporary file is no file of the cache. -/
theorem extension_tempName (os : FileAmbient) (nonce : Nat) :
    extension (tempName os nonce) ≠ some cacheExtension := by
  intro found
  have last := extension_last found
  have letters : ".tmp".toList.reverse = 'p' :: ".tm".toList.reverse := by decide
  unfold tempName at last
  simp only [String.toList_append, List.reverse_append, List.append_assoc, letters] at last
  have backwards := congrArg (fun letters => letters.reverse.head?) last
  simp only [List.reverse_reverse, List.cons_append, List.takeWhile_cons] at backwards
  have first : cacheExtension.toList.reverse.head? = some 'e' := by decide
  have letter : some 'e' = some 'p' := first.symm.trans backwards
  exact absurd letter (by decide)

/-- The loop of `load_index` deletes only files of the cache. -/
theorem loadFiles_other {name : String} (other : extension name ≠ some cacheExtension) :
    ∀ (names : List String) (snapshot : StoreSnapshot) (dir : Directory),
      (loadFiles os names snapshot dir).2.files.lookup name = dir.files.lookup name
  | [], _, _ => rfl
  | first :: rest, snapshot, dir => by
      have later := loadFiles_other other rest (loadFile os first snapshot dir).1
        (loadFile os first snapshot dir).2
      refine Eq.trans later ?_
      by_cases here : name = first
      · subst here
        unfold loadFile
        rw [if_pos other]
      · exact loadFile_keeps os here snapshot dir

theorem removeFound_other {name other : String} (different : name ≠ other) (dir : Directory) :
    (removeFound os other dir).2.files.lookup name = dir.files.lookup name := by
  have kept := lookup_removeFile os different dir
  unfold removeFound
  split
  case h_1 after removed => rwa [removed] at kept
  case h_2 error after removed =>
    rw [removed] at kept
    split <;> exact kept

/-- The loop of `clear` deletes only files of the cache. -/
theorem clearFiles_other {name : String} (other : extension name ≠ some cacheExtension) :
    ∀ (names : List String) (dir : Directory),
      (clearFiles os names dir).2.files.lookup name = dir.files.lookup name
  | [], _ => rfl
  | first :: rest, dir => by
      unfold clearFiles
      split
      case isTrue _ => exact clearFiles_other other rest dir
      case isFalse cached =>
        have different : name ≠ first := fun same => other (same ▸ not_not.mp cached)
        refine andThen_preserves
          (P := fun after : Directory => after.files.lookup name = dir.files.lookup name)
          (removeFound_other different dir) ?_
        intro _ after _ kept
        exact (clearFiles_other other rest after).trans kept

/-- A write touches its own temporary file and the file of its key. -/
theorem renameTemp_other {name temp final : String} (temporary : name ≠ temp) (different : name ≠ final)
    (storedBytes : Nat) (dir : Directory) :
    (renameTemp os temp final storedBytes dir).2.files.lookup name = dir.files.lookup name := by
  have kept := lookup_removeFile os temporary dir
  unfold renameTemp
  split
  case h_1 _ =>
    split
    case h_1 file _ =>
      show ((dir.files.erase temp).insert final file).lookup name = _
      rw [AList.lookup_insert_ne different, AList.lookup_erase_ne temporary]
    case h_2 _ => rfl
  case h_2 error _ =>
    split
    case isTrue _ =>
      simp only
      split
      case h_1 _ => exact kept
      case h_2 _ => exact kept
    case isFalse _ => exact kept

theorem writeTemp_other {name temp final : String} {file : File} (different : name ≠ final)
    (modified : Nat) (entry : StoredEntry) (dir : Directory)
    (found : dir.files.lookup name = some file) :
    (writeTemp os temp final modified entry dir).2.files.lookup name = some file := by
  unfold writeTemp
  split
  case h_1 _ => exact found
  case h_2 _ =>
  split
  case h_1 _ => exact found
  case h_2 fresh =>
    have temporary : name ≠ temp := by
      rintro rfl
      rw [found] at fresh
      exact nomatch fresh
    have kept : ∀ written : List UInt8,
        (dir.files.insert temp ⟨written, modified⟩).lookup name = some file :=
      fun written => (AList.lookup_insert_ne temporary).trans found
    generalize writeParts os 0 (fileParts os entry) [] = result
    obtain ⟨outcome, written⟩ := result
    cases outcome with
    | error error => exact kept written
    | ok value =>
        simp only
        split
        case h_1 _ => exact kept written
        case h_2 _ => exact (renameTemp_other temporary different _ _).trans (kept written)

/-- **No call of the store touches a file that is no file of the cache.** -/
theorem callStep_keeps {name : String} {file : File} (other : extension name ≠ some cacheExtension)
    (found : dir.files.lookup name = some file) (call : Call) :
    (callStep os dir call).files.lookup name = some file := by
  have different : ∀ key : FileKey, name ≠ fileName key := by
    rintro key rfl
    exact other (extension_fileName key.2.named)
  cases call with
  | loadIndex =>
      show (loadIndex os dir).2.files.lookup name = _
      unfold loadIndex
      split
      case h_1 _ => exact found
      case h_2 _ => exact (loadFiles_other other _ _ dir).trans found
  | get key =>
      show (FileStore.get os key dir).2.files.lookup name = _
      unfold FileStore.get
      rw [pathFor_valid key.2]
      simp only
      split
      case isTrue _ => split <;> exact found
      case isFalse _ => exact found
  | putIfAbsent key entry =>
      show (FileStore.putIfAbsent os key entry dir).2.files.lookup name = _
      unfold FileStore.putIfAbsent
      rw [pathFor_valid key.2]
      simp only
      split
      case h_1 _ => exact found
      case h_2 _ =>
        exact writeTemp_other (different key) _ _ { dir with nonce := (dir.nonce + 1) % 2 ^ 64 } found
  | remove key =>
      show (FileStore.remove os key dir).2.files.lookup name = _
      unfold FileStore.remove
      rw [pathFor_valid key.2]
      exact (removeFound_other (different key) dir).trans found
  | clear =>
      show (FileStore.clear os dir).2.files.lookup name = _
      unfold FileStore.clear
      split
      case h_1 _ => exact found
      case h_2 _ => exact (clearFiles_other other _ dir).trans found

/-- **What is left stays**: a file that is no file of the cache survives every run of the store. -/
theorem run_keeps {name : String} {file : File} (other : extension name ≠ some cacheExtension)
    (found : dir.files.lookup name = some file) (calls : List Call) :
    (calls.foldl (callStep os) dir).files.lookup name = some file := by
  induction calls generalizing dir with
  | nil => exact found
  | cons call rest ih => exact ih (callStep_keeps other found call)

/-- **A failed write or sync leaves its temporary file for good**: it stays through every later run. -/
theorem leftover_stays (writes : Writes os dir key) (fails : WriteFails os) (calls : List Call) :
    ∃ file, (calls.foldl (callStep os) (putIfAbsent os key entry dir).2).files.lookup
      (tempName os dir.nonce) = some file := by
  obtain ⟨error, after, failed, left⟩ := writeTemp_leaves (fileName key) (os.seconds dir.nonce) entry
    { dir with nonce := (dir.nonce + 1) % 2 ^ 64 } writes.create writes.fresh fails
  obtain ⟨file, there⟩ := Option.ne_none_iff_exists'.mp left
  rw [putIfAbsent_writes writes, failed]
  exact ⟨file, run_keeps (extension_tempName os dir.nonce) there calls⟩

/-- The payload of an entry cannot be written: the call fails, and the temporary file stays through
`load_index` and `clear`. -/
theorem putIfAbsent_traceless_full :
    ¬ Traceless fullDisk "k" shortEntry Directory.empty ∧
    ((loadIndex fullDisk (clear fullDisk
      (putIfAbsent fullDisk "k" shortEntry Directory.empty).2).2).2.files.lookup ".7.1.tmp").isSome := by
  refine ⟨fun traceless => ?_, by decide⟩
  have files := traceless.files ⟨.other, "No space left on device (os error 28)"⟩ _ rfl ".7.1.tmp"
  exact absurd files (by decide)

end FileStore

end RivetCache
