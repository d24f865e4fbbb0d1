/-
**`store.rs`: the file store.**

A `FileStore` keeps one file a key in its directory: a header (magic, expiry, pin flag, length and digest
of the payload), then the payload. A write goes to a temporary file first and is renamed; the index is
reconstructed from the file names and the headers.

* `rsplit_fileName`: the name of a key's file gives the key back;
* `readHeader_encode`: what is written is read back;
* `Directory.Sound`: every file is the encoding of an entry under a valid key, and no temporary file is
  left; every call keeps it.
-/

import RivetCache.Stores.Exact
import RivetCache.Library.Fallible
import RivetCache.Library.LittleEndian

set_option linter.unusedSectionVars false

namespace RivetCache

open Library

/-! ### The file system -/

/-- A regular file: its bytes, and the second it was last modified at. -/
structure File where
  bytes : List UInt8
  modified : Nat
  deriving DecidableEq, Repr

/-- The calls to the file system that may fail. A write is named by its place among the writes. -/
inductive FileCall where
  | metadata (name : String)
  | create
  | write (place : Nat)
  | sync
  | rename
  | removeFile (name : String)
  | readDir
  | read (name : String)
  deriving DecidableEq, Repr

/-- What the file store finds around it: SHA-256, the process, the clock at the creation of the temporary
file of a nonce, and which calls fail. -/
structure FileAmbient where
  digest : List UInt8 → List UInt8
  digest_length : ∀ bytes, (digest bytes).length = 32
  processId : Nat
  seconds : Nat → Nat
  fault : FileCall → Option IoError

/-- The directory of a store, and the counter `TEMP_NONCE`. -/
structure Directory where
  files : Table String File
  nonce : Nat

namespace Directory

/-- An empty directory. -/
def empty : Directory := ⟨∅, 1⟩

/-- `fs::metadata`. -/
def metadata (os : FileAmbient) (name : String) (dir : Directory) : Except IoError File :=
  match os.fault (.metadata name) with
  | some error => .error error
  | none =>
      match dir.files.lookup name with
      | some file => .ok file
      | none => .error ⟨.notFound, "No such file or directory (os error 2)"⟩

/-- `Path::exists`. -/
def pathExists (os : FileAmbient) (name : String) (dir : Directory) : Bool :=
  match dir.metadata os name with
  | .ok _ => true
  | .error _ => false

/-- `File::open`, and the bytes read through it. -/
def openFile (os : FileAmbient) (name : String) (dir : Directory) : Except IoError (List UInt8) :=
  match os.fault (.read name) with
  | some error => .error error
  | none =>
      match dir.files.lookup name with
      | some file => .ok file.bytes
      | none => .error ⟨.notFound, "No such file or directory (os error 2)"⟩

/-- `fs::remove_file`. -/
def removeFile (os : FileAmbient) (name : String) (dir : Directory) :
    Except IoError Unit × Directory :=
  match os.fault (.removeFile name) with
  | some error => (.error error, dir)
  | none =>
      match dir.files.lookup name with
      | some _ => (.ok (), { dir with files := dir.files.erase name })
      | none => (.error ⟨.notFound, "No such file or directory (os error 2)"⟩, dir)

end Directory

/-! ### Names -/

/-- `CACHE_EXTENSION`. -/
def cacheExtension : String := "rivetcache"

/-- `validate_file_key`. -/
def validateFileKey (key : String) : Except IoError Unit :=
  if key ≠ "" ∧ key ≠ "." ∧ key ≠ ".." ∧ '/' ∉ key.toList ∧ '\\' ∉ key.toList ∧
      '\x00' ∉ key.toList then
    .ok ()
  else .error ⟨.invalidInput, "cache key is not safe for the filesystem store"⟩

/-- The name of a key's file. -/
def fileName (key : String) : String := key ++ ("." ++ cacheExtension)

/-- `path_for`: the name in the directory. -/
def pathFor (key : String) : Except IoError String :=
  match validateFileKey key with
  | .error error => .error error
  | .ok () => .ok (fileName key)

/-- The parts of a file name before and after its last dot; a name that begins with its only dot has no
second part, and neither has `..`. -/
def rsplitFileAtDot (name : String) : Option String × Option String :=
  if name = ".." then (some name, none)
  else
    match name.toList.reverse.dropWhile (· ≠ '.') with
    | [] => (none, some name)
    | [_] => (some name, none)
    | _ :: before =>
        (some (String.ofList before.reverse),
          some (String.ofList (name.toList.reverse.takeWhile (· ≠ '.')).reverse))

/-- `Path::file_stem`. -/
def fileStem (name : String) : Option String :=
  (rsplitFileAtDot name).1.or (rsplitFileAtDot name).2

/-- `Path::extension`. -/
def extension (name : String) : Option String :=
  (rsplitFileAtDot name).1.bind fun _ => (rsplitFileAtDot name).2

/-- The name of the temporary file of a write. -/
def tempName (os : FileAmbient) (nonce : Nat) : String :=
  "." ++ (toString os.processId ++ ("." ++ (toString nonce ++ ".tmp")))

/-! ### Bytes -/

/-- `MAGIC`: `RIVET01` and a line feed. -/
def fileMagic : List UInt8 := [82, 73, 86, 69, 84, 48, 49, 10]

/-- `HEADER_LEN`. -/
def headerLen : Nat := 8 + 8 + 1 + 8 + 32

/-- What the writes of `put_if_absent` write, in order. -/
def fileParts (os : FileAmbient) (entry : StoredEntry) : List (List UInt8) :=
  [fileMagic, leBytes 8 entry.expiresAt, [if entry.pinned then 1 else 0],
    leBytes 8 entry.value.length, os.digest entry.value, entry.value]

/-- `Header`. -/
structure Header where
  expiresAt : Nat
  pinned : Bool
  payloadLen : Nat
  checksum : List UInt8
  deriving DecidableEq, Repr

/-- `read_exact`: the bytes read, and what is left of the file. -/
def readExact (count : Nat) (bytes : List UInt8) : Except IoError (List UInt8 × List UInt8) :=
  if count ≤ bytes.length then .ok (bytes.take count, bytes.drop count)
  else .error ⟨.unexpectedEof, "failed to fill whole buffer"⟩

/-- `read_u64`. -/
def readFileU64 (bytes : List UInt8) : Except IoError (Nat × List UInt8) := do
  let (number, rest) ← readExact 8 bytes
  .ok (ofLeBytes number, rest)

/-- `read_header_from`: the header, and what follows it. -/
def readHeader (bytes : List UInt8) : Except IoError (Header × List UInt8) := do
  let (magic, rest) ← readExact 8 bytes
  if magic ≠ fileMagic then .error ⟨.invalidData, "invalid cache magic"⟩
  let (expiresAt, rest) ← readFileU64 rest
  let (pinned, rest) ← readExact 1 rest
  if pinned.headD 0 > 1 then .error ⟨.invalidData, "invalid cache pinned flag"⟩
  let (payloadLen, rest) ← readFileU64 rest
  let (checksum, rest) ← readExact 32 rest
  .ok (⟨expiresAt, pinned.headD 0 == 1, payloadLen, checksum⟩, rest)

/-- `vec![0; payload_len]`: the allocation panics beyond `isize::MAX`. The panic unwinds through the call;
it is kept apart from the errors the call returns by its message. -/
def allocate (length : Nat) : Except IoError Unit :=
  if length ≤ isizeMax then .ok () else .error ⟨.other, "capacity overflow"⟩

/-- `get`, from the bytes of the file on. The length is a `usize` as it is. -/
def readEntry (os : FileAmbient) (bytes : List UInt8) : Except IoError StoredEntry := do
  let (header, rest) ← readHeader bytes
  allocate header.payloadLen
  let (payload, _) ← readExact header.payloadLen rest
  if os.digest payload ≠ header.checksum then
    .error ⟨.invalidData, "cache payload checksum mismatch"⟩
  .ok ⟨payload, header.expiresAt, header.pinned⟩

namespace FileStore

variable (os : FileAmbient)

/-! ### Index reconstruction -/

/-- `load_index`, a file that is no entry: it is removed as far as it can be, and counted. -/
def dropFile (name : String) (snapshot : StoreSnapshot) (dir : Directory) :
    StoreSnapshot × Directory :=
  ({ snapshot with corruptions := satAdd snapshot.corruptions 1 }, (dir.removeFile os name).2)

/-- `load_index`, one file. -/
def loadFile (name : String) (snapshot : StoreSnapshot) (dir : Directory) :
    StoreSnapshot × Directory :=
  if extension name ≠ some cacheExtension then (snapshot, dir)
  else
    match fileStem name with
    | none => dropFile os name snapshot dir
    | some key =>
        match validateFileKey key with
        | .error _ => dropFile os name snapshot dir
        | .ok () =>
            match dir.metadata os name with
            | .error _ => dropFile os name snapshot dir
            | .ok file =>
                match (dir.openFile os name).bind readHeader with
                | .error _ => dropFile os name snapshot dir
                | .ok (header, _) =>
                    if file.bytes.length ≠ satAdd headerLen header.payloadLen then
                      dropFile os name snapshot dir
                    else
                      ({ snapshot with
                          entries := snapshot.entries ++
                            [⟨key, file.bytes.length, header.expiresAt, header.pinned,
                              file.modified⟩] }, dir)

/-- `load_index`, the loop over the directory. -/
def loadFiles : List String → StoreSnapshot → Directory → StoreSnapshot × Directory
  | [], snapshot, dir => (snapshot, dir)
  | name :: rest, snapshot, dir =>
      let (snapshot, dir) := loadFile os name snapshot dir
      loadFiles rest snapshot dir

/-- `load_index`. -/
def loadIndex (dir : Directory) : Except IoError StoreSnapshot × Directory :=
  match os.fault .readDir with
  | some error => (.error error, dir)
  | none =>
      let (snapshot, dir) := loadFiles os (dir.files.entries.map Sigma.fst) ⟨[], 0⟩ dir
      (.ok snapshot, dir)

/-! ### Reading -/

/-- `get`. -/
def get (key : String) (dir : Directory) : Except IoError (Option StoredEntry) × Directory :=
  match pathFor key with
  | .error error => (.error error, dir)
  | .ok name =>
      if dir.pathExists os name then
        match (dir.openFile os name).bind (readEntry os) with
        | .error error => (.error error, dir)
        | .ok entry => (.ok (some entry), dir)
      else (.ok none, dir)

/-! ### Writing -/

/-- The writes of `put_if_absent`, from the given place on. The first failure is returned with what was
written before it. -/
def writeParts : Nat → List (List UInt8) → List UInt8 → Except IoError Unit × List UInt8
  | _, [], written => (.ok (), written)
  | place, part :: rest, written =>
      match os.fault (.write place) with
      | some error => (.error error, written)
      | none => writeParts (place + 1) rest (written ++ part)

/-- `put_if_absent`, from the temporary file to the final one. -/
def renameTemp (temp name : String) (storedBytes : Nat) (dir : Directory) :
    Except IoError PutOutcome × Directory :=
  match os.fault .rename with
  | none =>
      match dir.files.lookup temp with
      | some file =>
          (.ok ⟨true, storedBytes⟩, { dir with files := (dir.files.erase temp).insert name file })
      | none => (.error ⟨.notFound, "No such file or directory (os error 2)"⟩, dir)
  | some error =>
      if dir.pathExists os name then
        let dir := (dir.removeFile os temp).2
        match dir.metadata os name with
        | .ok file => (.ok ⟨false, file.bytes.length⟩, dir)
        | .error _ => (.ok ⟨false, storedBytes⟩, dir)
      else (.error error, (dir.removeFile os temp).2)

/-- `put_if_absent`, the temporary file. -/
def writeTemp (temp name : String) (modified : Nat) (entry : StoredEntry) (dir : Directory) :
    Except IoError PutOutcome × Directory :=
  match os.fault .create with
  | some error => (.error error, dir)
  | none =>
      match dir.files.lookup temp with
      | some _ => (.error ⟨.alreadyExists, "File exists (os error 17)"⟩, dir)
      | none =>
          let (outcome, written) := writeParts os 0 (fileParts os entry) []
          let dir := { dir with files := dir.files.insert temp ⟨written, modified⟩ }
          match outcome with
          | .error error => (.error error, dir)
          | .ok () =>
              match os.fault .sync with
              | some error => (.error error, dir)
              | none => renameTemp os temp name (satAdd headerLen entry.value.length) dir

/-- `put_if_absent`. -/
def putIfAbsent (key : String) (entry : StoredEntry) (dir : Directory) :
    Except IoError PutOutcome × Directory :=
  match pathFor key with
  | .error error => (.error error, dir)
  | .ok name =>
      match dir.metadata os name with
      | .ok file => (.ok ⟨false, file.bytes.length⟩, dir)
      | .error _ =>
          writeTemp os (tempName os dir.nonce) name (os.seconds dir.nonce) entry
            { dir with nonce := (dir.nonce + 1) % 2 ^ 64 }

/-! ### Deleting -/

/-- A file that is not there counts as removed. -/
def removeFound (name : String) (dir : Directory) : Except IoError Unit × Directory :=
  match dir.removeFile os name with
  | (.ok (), dir) => (.ok (), dir)
  | (.error error, dir) =>
      if error.kind = .notFound then (.ok (), dir) else (.error error, dir)

/-- `remove`. -/
def remove (key : String) (dir : Directory) : Except IoError Unit × Directory :=
  match pathFor key with
  | .error error => (.error error, dir)
  | .ok name => removeFound os name dir

/-- `clear`, the loop over the directory. -/
def clearFiles : List String → Directory → Except IoError Unit × Directory
  | [], dir => (.ok (), dir)
  | name :: rest, dir =>
      if extension name ≠ some cacheExtension then clearFiles rest dir
      else andThen (removeFound os name dir) fun _ dir => clearFiles rest dir

/-- `clear`. -/
def clear (dir : Directory) : Except IoError Unit × Directory :=
  match os.fault .readDir with
  | some error => (.error error, dir)
  | none => clearFiles os (dir.files.entries.map Sigma.fst) dir

end FileStore

/-- `impl PersistentStore for FileStore`. -/
def fileStore (os : FileAmbient) : PersistentStore Directory where
  loadIndex := FileStore.loadIndex os
  get := FileStore.get os
  putIfAbsent := FileStore.putIfAbsent os
  remove := FileStore.remove os
  clear := FileStore.clear os

/-! ### A name gives its key back -/

theorem extension_reverse :
    "rivetcache".toList.reverse = ['e', 'h', 'c', 'a', 'c', 't', 'e', 'v', 'i', 'r'] := rfl

theorem extension_ne_dot : ∀ letter ∈ "rivetcache".toList.reverse, decide (letter ≠ '.') = true := by
  intro letter member
  rw [extension_reverse] at member
  simp only [List.mem_cons, List.not_mem_nil, or_false] at member
  rcases member with rfl | rfl | rfl | rfl | rfl | rfl | rfl | rfl | rfl | rfl <;> rfl

theorem dropWhile_ne_dot (rest : List Char) :
    (("rivetcache".toList.reverse) ++ '.' :: rest).dropWhile (· ≠ '.') = '.' :: rest := by
  rw [List.dropWhile_append_of_pos extension_ne_dot]
  simp

theorem takeWhile_ne_dot (rest : List Char) :
    (("rivetcache".toList.reverse) ++ '.' :: rest).takeWhile (· ≠ '.') =
      "rivetcache".toList.reverse := by
  rw [List.takeWhile_append_of_pos extension_ne_dot]
  simp

theorem fileName_reverse (key : String) :
    (fileName key).toList.reverse = "rivetcache".toList.reverse ++ '.' :: key.toList.reverse := by
  unfold fileName cacheExtension
  rw [String.toList_append, String.toList_append, List.reverse_append, List.reverse_append]
  rw [List.append_assoc]
  rfl

theorem fileName_last (key : String) : (fileName key).toList.reverse.head? = some 'e' := by
  rw [fileName_reverse, extension_reverse]
  rfl

/-- **The name of a key's file gives the key back.** -/
theorem rsplit_fileName {key : String} (named : key ≠ "") :
    rsplitFileAtDot (fileName key) = (some key, some cacheExtension) := by
  have letters : key.toList.reverse ≠ [] := by
    intro empty
    rw [List.reverse_eq_nil_iff] at empty
    exact named (String.toList_injective empty)
  have different : fileName key ≠ ".." := by
    intro same
    have last := fileName_last key
    rw [same] at last
    exact absurd last (by decide)
  unfold rsplitFileAtDot
  rw [if_neg different, fileName_reverse, dropWhile_ne_dot, takeWhile_ne_dot]
  cases reversed : key.toList.reverse with
  | nil => exact absurd reversed letters
  | cons last front =>
      have back : (last :: front).reverse = key.toList := by rw [← reversed, List.reverse_reverse]
      simp only [back, String.ofList_toList, List.reverse_reverse]
      rfl

theorem extension_fileName {key : String} (named : key ≠ "") :
    extension (fileName key) = some cacheExtension := by
  unfold extension
  rw [rsplit_fileName named]
  rfl

theorem fileStem_fileName {key : String} (named : key ≠ "") : fileStem (fileName key) = some key := by
  unfold fileStem
  rw [rsplit_fileName named]
  rfl

/-- **Distinct keys never share a file.** -/
theorem fileName_injective {key other : String} (same : fileName key = fileName other) :
    key = other := by
  have reversed : (fileName key).toList.reverse = (fileName other).toList.reverse := by rw [same]
  rw [fileName_reverse, fileName_reverse] at reversed
  have tails := List.append_cancel_left reversed
  exact String.toList_injective (List.reverse_injective (List.cons_injective tails))

/-- A temporary file is no file of a key. -/
theorem tempName_ne_fileName (os : FileAmbient) (nonce : Nat) (key : String) :
    tempName os nonce ≠ fileName key := by
  intro same
  have letters : ".tmp".toList.reverse = 'p' :: ".tm".toList.reverse := by decide
  have last : (tempName os nonce).toList.reverse.head? = some 'p' := by
    unfold tempName
    simp only [String.toList_append, List.reverse_append, List.append_assoc, letters]
    rfl
  rw [same, fileName_last] at last
  exact absurd last (by decide)

/-- The keys of the store. -/
def ValidFileKey (key : String) : Prop := validateFileKey key = .ok ()

theorem ValidFileKey.named {key : String} (valid : ValidFileKey key) : key ≠ "" := by
  rintro rfl
  exact nomatch valid

theorem pathFor_valid {key : String} (valid : ValidFileKey key) : pathFor key = .ok (fileName key) := by
  unfold pathFor
  rw [valid]

theorem pathFor_invalid {key : String} (invalid : ¬ ValidFileKey key) :
    ∃ error, pathFor key = .error error := by
  unfold pathFor
  cases validated : validateFileKey key with
  | error error => exact ⟨error, rfl⟩
  | ok value => exact absurd validated invalid

/-! ### What is written is read back -/

/-- The bytes of an entry's file. -/
def encode (os : FileAmbient) (entry : StoredEntry) : List UInt8 := (fileParts os entry).flatten

/-- The header of an entry's file. -/
def headerOf (os : FileAmbient) (entry : StoredEntry) : Header :=
  ⟨entry.expiresAt, entry.pinned, entry.value.length, os.digest entry.value⟩

theorem encode_length (os : FileAmbient) (entry : StoredEntry) :
    (encode os entry).length = headerLen + entry.value.length := by
  unfold encode fileParts headerLen
  simp only [List.flatten_cons, List.flatten_nil, List.length_append, leBytes_length,
    os.digest_length, List.length_nil, List.length_singleton]
  rw [show fileMagic.length = 8 from rfl]
  omega

theorem readExact_append {count : Nat} {front : List UInt8} (length : front.length = count)
    (rest : List UInt8) : readExact count (front ++ rest) = .ok (front, rest) := by
  unfold readExact
  rw [if_pos (by rw [List.length_append]; omega), List.take_left' length, List.drop_left' length]

theorem readFileU64_append {number : Nat} (bound : number ≤ u64Max) (rest : List UInt8) :
    readFileU64 (leBytes 8 number ++ rest) = .ok (number, rest) := by
  have fits : number < 256 ^ 8 := by
    unfold u64Max at bound
    omega
  unfold readFileU64
  rw [readExact_append (leBytes_length 8 number)]
  show Except.ok (ofLeBytes (leBytes 8 number), rest) = _
  rw [ofLeBytes_leBytes fits]

theorem readHeader_encode (os : FileAmbient) {entry : StoredEntry} (sound : entry.Representable) :
    readHeader (encode os entry) = .ok (headerOf os entry, entry.value) := by
  have length : entry.value.length ≤ u64Max := by
    have bound := sound.value
    unfold isizeMax at bound
    unfold u64Max
    omega
  have bytes : encode os entry = fileMagic ++ (leBytes 8 entry.expiresAt ++
      ([if entry.pinned then 1 else 0] ++ (leBytes 8 entry.value.length ++
        (os.digest entry.value ++ entry.value)))) := by
    unfold encode fileParts
    simp only [List.flatten_cons, List.flatten_nil, List.append_nil]
  have magic : fileMagic.length = 8 := rfl
  unfold readHeader
  rw [bytes]
  simp only [readExact_append magic, readFileU64_append sound.expiresAt,
    readExact_append (List.length_singleton (a := if entry.pinned then (1 : UInt8) else 0)),
    readFileU64_append length, readExact_append (os.digest_length _), bind, Except.bind, ne_eq,
    not_true_eq_false, if_false, List.headD_cons]
  cases pinned : entry.pinned <;> simp [headerOf, pinned]

/-- **Reading an entry's file** gives the entry. -/
theorem readEntry_encode (os : FileAmbient) {entry : StoredEntry} (sound : entry.Representable) :
    readEntry os (encode os entry) = .ok entry := by
  have whole : readExact entry.value.length entry.value = .ok (entry.value, []) := by
    unfold readExact
    rw [if_pos (le_refl _), List.take_length, List.drop_length]
  unfold readEntry allocate
  rw [readHeader_encode os sound]
  have allocated : entry.value.length ≤ isizeMax := sound.value
  simp [headerOf, bind, Except.bind, allocated, whole]

/-! ### Sound directories -/

/-- No call to the file system fails. -/
def FileAmbient.Faultless (os : FileAmbient) : Prop := ∀ call, os.fault call = none

namespace Directory

/-- **Every file is an entry's**, under the name of a valid key. -/
def Sound (os : FileAmbient) (dir : Directory) : Prop :=
  ∀ name file, dir.files.lookup name = some file → ∃ key entry, ValidFileKey key ∧
    entry.Representable ∧ name = fileName key ∧ file.bytes = encode os entry

/-- What a directory holds for a key. -/
def contents (os : FileAmbient) (dir : Directory) (key : String) : Option StoredEntry :=
  (dir.files.lookup (fileName key)).bind fun file => (readEntry os file.bytes).toOption

variable {os : FileAmbient} {dir : Directory}

theorem empty_sound (os : FileAmbient) : empty.Sound os := fun _ _ found => nomatch found

theorem contents_missing {key : String} (missing : dir.files.lookup (fileName key) = none) :
    dir.contents os key = none := by
  unfold contents
  rw [missing]
  rfl

/-- The file of a key holds the entry of the key. -/
theorem Sound.file (sound : dir.Sound os) {key : String} {file : File}
    (found : dir.files.lookup (fileName key) = some file) :
    ∃ entry, ValidFileKey key ∧ entry.Representable ∧ file.bytes = encode os entry ∧
      dir.contents os key = some entry := by
  obtain ⟨other, entry, valid, sized, same, bytes⟩ := sound _ _ found
  cases fileName_injective same
  refine ⟨entry, valid, sized, bytes, ?_⟩
  unfold contents
  rw [found]
  show (readEntry os file.bytes).toOption = _
  rw [bytes, readEntry_encode os sized]
  rfl

/-- An entry of the map lies in the file of its key. -/
theorem Sound.entry (sound : dir.Sound os) {key : String} {entry : StoredEntry}
    (holds : dir.contents os key = some entry) :
    ∃ file, dir.files.lookup (fileName key) = some file ∧ ValidFileKey key ∧
      entry.Representable ∧ file.bytes = encode os entry := by
  cases found : dir.files.lookup (fileName key) with
  | none =>
      rw [contents_missing found] at holds
      exact nomatch holds
  | some file =>
      obtain ⟨other, valid, sized, bytes, same⟩ := sound.file found
      rw [holds] at same
      cases same
      exact ⟨file, rfl, valid, sized, bytes⟩

theorem Sound.missing (sound : dir.Sound os) {key : String} (absent : dir.contents os key = none) :
    dir.files.lookup (fileName key) = none := by
  cases found : dir.files.lookup (fileName key) with
  | none => rfl
  | some file =>
      obtain ⟨entry, _, _, _, same⟩ := sound.file found
      rw [absent] at same
      exact nomatch same

/-- The contents of a directory with one file written. -/
theorem contents_written {after : Directory} {key : String} {entry : StoredEntry} {modified : Nat}
    (sized : entry.Representable)
    (files : ∀ name, after.files.lookup name =
      if name = fileName key then some ⟨encode os entry, modified⟩ else dir.files.lookup name) :
    after.contents os = Function.update (dir.contents os) key (some entry) := by
  funext other
  rw [Function.update_apply]
  unfold contents
  rw [files]
  by_cases same : other = key
  · rw [if_pos (by rw [same]), if_pos same]
    show (readEntry os (encode os entry)).toOption = _
    rw [readEntry_encode os sized]
    rfl
  · rw [if_neg fun equal => same (fileName_injective equal), if_neg same]

theorem Sound.written (sound : dir.Sound os) {after : Directory} {key : String} {entry : StoredEntry}
    {modified : Nat} (valid : ValidFileKey key) (sized : entry.Representable)
    (files : ∀ name, after.files.lookup name =
      if name = fileName key then some ⟨encode os entry, modified⟩ else dir.files.lookup name) :
    after.Sound os := by
  intro name file found
  rw [files] at found
  split at found
  case isTrue same =>
    cases found
    exact ⟨key, entry, valid, sized, same, rfl⟩
  case isFalse _ => exact sound name file found

/-- The contents of a directory with one file removed. -/
theorem contents_erased {key : String} :
    ({ dir with files := dir.files.erase (fileName key) } : Directory).contents os =
      Function.update (dir.contents os) key none := by
  funext other
  rw [Function.update_apply]
  unfold contents
  rw [lookup_erase_eq]
  by_cases same : other = key
  · rw [if_pos (by rw [same]), if_pos same]
    rfl
  · rw [if_neg fun equal => same (fileName_injective equal), if_neg same]

theorem Sound.erased (sound : dir.Sound os) (name : String) :
    ({ dir with files := dir.files.erase name } : Directory).Sound os := by
  intro other file found
  rw [lookup_erase_eq] at found
  split at found
  case isTrue _ => exact nomatch found
  case isFalse _ => exact sound other file found

/-! ### Calls that do not fail -/

variable (faultless : os.Faultless)

include faultless

theorem metadata_found {name : String} {file : File} (found : dir.files.lookup name = some file) :
    dir.metadata os name = .ok file := by
  unfold metadata
  rw [faultless]
  simp only [found]

theorem metadata_missing {name : String} (missing : dir.files.lookup name = none) :
    ∃ error, dir.metadata os name = .error error := by
  unfold metadata
  rw [faultless]
  simp only [missing]
  exact ⟨_, rfl⟩

theorem openFile_found {name : String} {file : File} (found : dir.files.lookup name = some file) :
    dir.openFile os name = .ok file.bytes := by
  unfold openFile
  rw [faultless]
  simp only [found]

end Directory

namespace FileStore

variable {os : FileAmbient} {dir : Directory} {key : String}

theorem get_invalid (os : FileAmbient) (dir : Directory) (invalid : ¬ ValidFileKey key) :
    ∃ error, get os key dir = (.error error, dir) := by
  obtain ⟨error, refused⟩ := pathFor_invalid invalid
  unfold get
  rw [refused]
  exact ⟨error, rfl⟩

theorem putIfAbsent_invalid (os : FileAmbient) (dir : Directory) (invalid : ¬ ValidFileKey key)
    (entry : StoredEntry) :
    ∃ error, putIfAbsent os key entry dir = (.error error, dir) := by
  obtain ⟨error, refused⟩ := pathFor_invalid invalid
  unfold putIfAbsent
  rw [refused]
  exact ⟨error, rfl⟩

theorem remove_invalid (os : FileAmbient) (dir : Directory) (invalid : ¬ ValidFileKey key) :
    ∃ error, remove os key dir = (.error error, dir) := by
  obtain ⟨error, refused⟩ := pathFor_invalid invalid
  unfold remove
  rw [refused]
  exact ⟨error, rfl⟩

variable (faultless : os.Faultless)

include faultless

/-- **`get`** answers what the directory holds. -/
theorem get_sound (sound : dir.Sound os) (valid : ValidFileKey key) :
    get os key dir = (.ok (dir.contents os key), dir) := by
  unfold get
  rw [pathFor_valid valid]
  cases found : dir.files.lookup (fileName key) with
  | none =>
      obtain ⟨error, refused⟩ := Directory.metadata_missing faultless found
      simp only [Directory.pathExists, refused, Bool.false_eq_true, if_false]
      rw [Directory.contents_missing found]
  | some file =>
      obtain ⟨entry, _, sized, bytes, holds⟩ := sound.file found
      simp only [Directory.pathExists, Directory.metadata_found faultless found, if_true]
      rw [Directory.openFile_found faultless found, holds]
      simp only [Except.bind, bytes, readEntry_encode os sized]

/-- **`put_if_absent`** of a key that is held writes nothing, and reports the file's length. -/
theorem put_present (sound : dir.Sound os) (valid : ValidFileKey key) (entry : StoredEntry)
    {old : StoredEntry} (holds : dir.contents os key = some old) :
    putIfAbsent os key entry dir = (.ok ⟨false, headerLen + old.value.length⟩, dir) := by
  obtain ⟨file, found, _, _, bytes⟩ := sound.entry holds
  unfold putIfAbsent
  rw [pathFor_valid valid]
  simp only [Directory.metadata_found faultless found]
  rw [bytes, encode_length]

omit faultless in
/-- Writes that do not fail write everything. -/
theorem writeParts_ok : ∀ (place : Nat) (parts : List (List UInt8)) (written : List UInt8),
    (∀ later, place ≤ later → later < place + parts.length → os.fault (.write later) = none) →
    writeParts os place parts written = (.ok (), written ++ parts.flatten)
  | _, [], written, _ => by simp [writeParts]
  | place, part :: rest, written, works => by
      have here : os.fault (.write place) = none := by
        refine works place (le_refl _) ?_
        rw [List.length_cons]
        omega
      have later := writeParts_ok (place + 1) rest (written ++ part) fun other after within => by
        refine works other (by omega) ?_
        rw [List.length_cons]
        omega
      unfold writeParts
      rw [here]
      simp only
      rw [later, List.flatten_cons, List.append_assoc]

/-- A rename that works moves the temporary file. -/
theorem renameTemp_ok (dir : Directory) {temp : String} {file : File} (name : String) (storedBytes : Nat)
    (there : dir.files.lookup temp = some file) :
    renameTemp os temp name storedBytes dir =
      (.ok ⟨true, storedBytes⟩, { dir with files := (dir.files.erase temp).insert name file }) := by
  unfold renameTemp
  simp only [faultless .rename, there]

/-- Writing a temporary file whose name is free, and moving it. -/
theorem writeTemp_ok (dir : Directory) {temp : String} (name : String) (modified : Nat) (entry : StoredEntry)
    (fresh : dir.files.lookup temp = none) :
    writeTemp os temp name modified entry dir =
      (.ok ⟨true, satAdd headerLen entry.value.length⟩,
        { dir with
          files := ((dir.files.insert temp ⟨encode os entry, modified⟩).erase temp).insert name
              ⟨encode os entry, modified⟩ }) := by
  have parts := writeParts_ok 0 (fileParts os entry) [] fun place _ _ => faultless (.write place)
  unfold writeTemp
  simp only [faultless .create, fresh, parts, faultless .sync, List.nil_append]
  exact renameTemp_ok faultless _ name _ (AList.lookup_insert _)

/-- **`put_if_absent`** of a key that is not held writes its file. -/
theorem put_absent (sound : dir.Sound os) (valid : ValidFileKey key) {entry : StoredEntry}
    (sized : entry.Representable) (absent : dir.contents os key = none) :
    ∃ after, putIfAbsent os key entry dir =
        (.ok ⟨true, headerLen + entry.value.length⟩, after) ∧
      ∀ name, after.files.lookup name = if name = fileName key then
        some ⟨encode os entry, os.seconds dir.nonce⟩ else dir.files.lookup name := by
  have length : satAdd headerLen entry.value.length = headerLen + entry.value.length := by
    refine satAdd_of_le ?_
    have bound := sized.value
    unfold isizeMax at bound
    unfold headerLen u64Max
    omega
  have fresh : dir.files.lookup (tempName os dir.nonce) = none := by
    cases found : dir.files.lookup (tempName os dir.nonce) with
    | none => rfl
    | some file =>
        obtain ⟨other, _, _, _, same, _⟩ := sound _ _ found
        exact absurd same (tempName_ne_fileName os dir.nonce other)
  obtain ⟨error, refused⟩ := Directory.metadata_missing faultless (sound.missing absent)
  have written := writeTemp_ok faultless { dir with nonce := (dir.nonce + 1) % 2 ^ 64 }
    (fileName key) (os.seconds dir.nonce) entry fresh
  rw [length] at written
  unfold putIfAbsent
  rw [pathFor_valid valid]
  simp only [refused]
  refine ⟨_, written, fun name => ?_⟩
  show (((dir.files.insert (tempName os dir.nonce) _).erase _).insert (fileName key) _).lookup name = _
  rw [lookup_insert_eq, lookup_erase_eq, lookup_insert_eq]
  by_cases same : name = fileName key
  · rw [if_pos same, if_pos same]
  · rw [if_neg same, if_neg same]
    by_cases temporary : name = tempName os dir.nonce
    · rw [if_pos temporary, temporary, fresh]
    · rw [if_neg temporary, if_neg temporary]

theorem removeFound_ok (name : String) :
    removeFound os name dir = (.ok (), { dir with files := dir.files.erase name }) := by
  unfold removeFound Directory.removeFile
  rw [faultless]
  cases found : dir.files.lookup name with
  | some file => rfl
  | none =>
      rw [erase_of_lookup_none found]
      rfl

/-- **`remove`** deletes the file of the key. -/
theorem remove_ok (valid : ValidFileKey key) :
    remove os key dir = (.ok (), { dir with files := dir.files.erase (fileName key) }) := by
  unfold remove
  rw [pathFor_valid valid]
  exact removeFound_ok faultless _

/-- The loop of `clear` deletes the files it is given. -/
theorem clearFiles_ok : ∀ (names : List String) (dir : Directory),
    (∀ name ∈ names, extension name = some cacheExtension) →
    ∃ after, clearFiles os names dir = (.ok (), after) ∧
      ∀ name, after.files.lookup name = if name ∈ names then none else dir.files.lookup name
  | [], dir, _ => ⟨dir, rfl, fun _ => by simp⟩
  | name :: rest, dir, cached => by
      obtain ⟨after, cleared, files⟩ := clearFiles_ok rest
        { dir with files := dir.files.erase name }
        fun other member => cached other (List.mem_cons_of_mem _ member)
      refine ⟨after, ?_, fun other => ?_⟩
      · unfold clearFiles
        rw [if_neg (not_not.mpr (cached name List.mem_cons_self)), removeFound_ok faultless]
        exact cleared
      · rw [files, lookup_erase_eq]
        by_cases first : other = name
        · simp [first]
        · by_cases later : other ∈ rest
          · simp [later]
          · simp [first, later]

/-- **`clear`** leaves no file. -/
theorem clear_ok (sound : dir.Sound os) :
    ∃ after, clear os dir = (.ok (), after) ∧ ∀ name, after.files.lookup name = none := by
  have cached : ∀ name ∈ dir.files.entries.map Sigma.fst, extension name = some cacheExtension := by
    intro name member
    obtain ⟨⟨_, file⟩, inside, rfl⟩ := List.mem_map.mp member
    obtain ⟨key, _, valid, _, same, _⟩ := sound _ _ (lookup_of_mem inside)
    rw [same]
    exact extension_fileName valid.named
  obtain ⟨after, cleared, files⟩ := clearFiles_ok faultless _ dir cached
  refine ⟨after, ?_, fun name => ?_⟩
  · unfold clear
    rw [faultless]
    exact cleared
  · rw [files]
    split
    case isTrue _ => rfl
    case isFalse outside =>
      cases found : dir.files.lookup name with
      | none => rfl
      | some file => exact absurd (List.mem_map.mpr ⟨_, mem_of_lookup found, rfl⟩) outside

/-! ### The index -/

/-- The record `load_index` makes of an entry's file. -/
def recordOf (key : String) (entry : StoredEntry) (modified : Nat) : StoreRecord :=
  ⟨key, headerLen + entry.value.length, entry.expiresAt, entry.pinned, modified⟩

omit faultless in
/-- The record `load_index` makes of a file that is written out, where it can be read. -/
theorem loadFile_encoded {key : String} {entry : StoredEntry} {file : File} (valid : ValidFileKey key)
    (sized : entry.Representable) (stats : os.fault (.metadata (fileName key)) = none)
    (opens : os.fault (.read (fileName key)) = none)
    (found : dir.files.lookup (fileName key) = some file) (bytes : file.bytes = encode os entry)
    (snapshot : StoreSnapshot) :
    loadFile os (fileName key) snapshot dir =
      ({ snapshot with entries := snapshot.entries ++ [recordOf key entry file.modified] }, dir) := by
  have length : satAdd headerLen entry.value.length = headerLen + entry.value.length := by
    refine satAdd_of_le ?_
    have bound := sized.value
    unfold isizeMax at bound
    unfold headerLen u64Max
    omega
  have validated : validateFileKey key = .ok () := valid
  have stat : dir.metadata os (fileName key) = .ok file := by
    unfold Directory.metadata
    rw [stats]
    simp only [found]
  have opened : dir.openFile os (fileName key) = .ok file.bytes := by
    unfold Directory.openFile
    rw [opens]
    simp only [found]
  unfold loadFile
  rw [if_neg (not_not.mpr (extension_fileName valid.named)), fileStem_fileName valid.named]
  simp only [validated, stat, opened, Except.bind, bytes, readHeader_encode os sized]
  rw [if_neg (by rw [encode_length]; simp [headerOf, length]), encode_length]
  rfl

theorem loadFile_sound (sound : dir.Sound os) {name : String} {file : File}
    (found : dir.files.lookup name = some file) (snapshot : StoreSnapshot) :
    ∃ key entry, name = fileName key ∧ dir.contents os key = some entry ∧
      loadFile os name snapshot dir =
        ({ snapshot with entries := snapshot.entries ++ [recordOf key entry file.modified] }, dir) := by
  obtain ⟨key, _, _, _, rfl, _⟩ := sound name file found
  obtain ⟨entry, valid, sized, bytes, holds⟩ := sound.file found
  exact ⟨key, entry, rfl, holds,
    loadFile_encoded valid sized (faultless _) (faultless _) found bytes snapshot⟩

/-- The loop of `load_index` over files of a sound directory: one record a name, in order. -/
theorem loadFiles_sound (sound : dir.Sound os) : ∀ (names : List String) (snapshot : StoreSnapshot),
    (∀ name ∈ names, ∃ file, dir.files.lookup name = some file) →
    ∃ records, loadFiles os names snapshot dir =
        ({ snapshot with entries := snapshot.entries ++ records }, dir) ∧
      names = records.map (fun record => fileName record.key) ∧
      ∀ record ∈ records, ∃ entry modified, dir.contents os record.key = some entry ∧
        record = recordOf record.key entry modified
  | [], snapshot, _ => ⟨[], by simp [loadFiles], rfl, fun _ member => absurd member List.not_mem_nil⟩
  | name :: rest, snapshot, inside => by
      obtain ⟨file, found⟩ := inside name List.mem_cons_self
      obtain ⟨key, entry, same, holds, loaded⟩ := loadFile_sound faultless sound found snapshot
      obtain ⟨records, later, named, related⟩ := loadFiles_sound sound rest
        { snapshot with entries := snapshot.entries ++ [recordOf key entry file.modified] }
        fun other member => inside other (List.mem_cons_of_mem _ member)
      refine ⟨recordOf key entry file.modified :: records, ?_, ?_, ?_⟩
      · unfold loadFiles
        rw [loaded]
        simp only [later, List.append_assoc, List.singleton_append]
      · rw [List.map_cons, ← named, same]
        rfl
      · intro record member
        rcases List.mem_cons.mp member with rfl | member
        · exact ⟨entry, file.modified, holds, rfl⟩
        · exact related record member

/-- **`load_index`** lists what is held, and changes nothing. -/
theorem loadIndex_sound (sound : dir.Sound os) :
    ∃ snapshot, loadIndex os dir = (.ok snapshot, dir) ∧
      snapshot.Accounts (fun entry => headerLen + entry.value.length) (dir.contents os) := by
  have inside : ∀ name ∈ dir.files.entries.map Sigma.fst,
      ∃ file, dir.files.lookup name = some file := by
    intro name member
    obtain ⟨⟨_, file⟩, entry, rfl⟩ := List.mem_map.mp member
    exact ⟨file, lookup_of_mem entry⟩
  obtain ⟨records, loaded, names, related⟩ := loadFiles_sound faultless sound _ ⟨[], 0⟩ inside
  refine ⟨⟨records, 0⟩, ?_, ⟨rfl, ?_, ?_, ?_⟩⟩
  · unfold loadIndex
    rw [faultless]
    simp only [loaded, List.nil_append]
  · have distinct : (dir.files.entries.map Sigma.fst).Nodup := dir.files.nodupKeys
    rw [names] at distinct
    refine List.Nodup.of_map fileName ?_
    rw [List.map_map]
    exact distinct
  · intro record member
    obtain ⟨entry, modified, holds, same⟩ := related record member
    refine ⟨entry, holds, ?_, ?_, ?_⟩ <;> rw [same] <;> rfl
  · intro key entry holds
    obtain ⟨file, found, _⟩ := sound.entry holds
    have listed : fileName key ∈ dir.files.entries.map Sigma.fst :=
      List.mem_map.mpr ⟨_, mem_of_lookup found, rfl⟩
    rw [names] at listed
    obtain ⟨record, member, same⟩ := List.mem_map.mp listed
    exact ⟨record, member, fileName_injective same⟩

end FileStore

/-- **The file store accounts exactly** over a sound directory: an entry occupies its header and its
value. -/
theorem fileStore_exact {os : FileAmbient} (faultless : os.Faultless) :
    ExactStore (fileStore os) (Directory.Sound os) (Directory.contents os) ValidFileKey
      (fun entry => headerLen + entry.value.length) where
  footprint_le entry sized := by
    have bound := sized.value
    unfold isizeMax at bound
    unfold headerLen u64Max
    omega
  held dir key entry sound holds := by
    obtain ⟨_, _, valid, sized, _⟩ := sound.entry holds
    exact ⟨valid, sized⟩
  get dir key sound valid := ⟨dir, FileStore.get_sound faultless sound valid, sound, rfl⟩
  present dir key entry sound valid holds :=
    ⟨dir, FileStore.put_present faultless sound valid entry holds, sound, rfl⟩
  absent dir key entry sound valid sized missing := by
    obtain ⟨after, put, files⟩ := FileStore.put_absent faultless sound valid sized missing
    exact ⟨after, put, sound.written valid sized files, Directory.contents_written sized files⟩
  remove dir key sound valid :=
    ⟨_, FileStore.remove_ok faultless valid, sound.erased _, Directory.contents_erased⟩
  clear dir sound := by
    obtain ⟨after, cleared, files⟩ := FileStore.clear_ok faultless sound
    refine ⟨after, cleared, fun name file found => ?_, ?_⟩
    · rw [files] at found
      exact nomatch found
    · funext key
      exact Directory.contents_missing (files _)
  loadIndex dir sound := by
    obtain ⟨snapshot, loaded, accounts⟩ := FileStore.loadIndex_sound faultless sound
    exact ⟨snapshot, dir, loaded, sound, rfl, accounts⟩
  getOutside dir key _ invalid := by
    obtain ⟨error, refused⟩ := FileStore.get_invalid os dir invalid
    exact ⟨error, dir, refused⟩
  putOutside dir key entry _ invalid := by
    obtain ⟨error, refused⟩ := FileStore.putIfAbsent_invalid os dir invalid entry
    exact ⟨error, dir, refused⟩
  removeOutside dir key _ invalid := by
    obtain ⟨error, refused⟩ := FileStore.remove_invalid os dir invalid
    exact ⟨error, dir, refused⟩

/-! ### Runs -/

namespace FileStore

/-- A key the store accepts. -/
abbrev FileKey := {key : String // ValidFileKey key}

/-- The calls of a file store. -/
inductive Call where
  | loadIndex
  | get (key : FileKey)
  | putIfAbsent (key : FileKey) (entry : {entry : StoredEntry // entry.Representable})
  | remove (key : FileKey)
  | clear

/-- The directory a call leaves. -/
def callStep (os : FileAmbient) (dir : Directory) : Call → Directory
  | .loadIndex => (FileStore.loadIndex os dir).2
  | .get key => (FileStore.get os key dir).2
  | .putIfAbsent key entry => (FileStore.putIfAbsent os key entry dir).2
  | .remove key => (FileStore.remove os key dir).2
  | .clear => (FileStore.clear os dir).2

/-- The directory a sequence of calls leaves. -/
def run (os : FileAmbient) (calls : List Call) : Directory := calls.foldl (callStep os) .empty

/-- What is held for a key after a call: a write counts where nothing is held. -/
def keeps (key : String) (held : Option StoredEntry) : Call → Option StoredEntry
  | .putIfAbsent other entry => if key = other then some (held.getD entry) else held
  | .remove other => if key = other then none else held
  | .clear => none
  | _ => held

theorem keeps_putIfAbsent (key : String) (held : Option StoredEntry) (other : FileKey)
    (entry : {entry : StoredEntry // entry.Representable}) :
    keeps key held (.putIfAbsent other entry) =
      if key = other then some (held.getD entry) else held := rfl

/-- **The first write of a key since its last deletion.** -/
def firstPut (calls : List Call) (key : String) : Option StoredEntry := calls.foldl (keeps key) none

/-- One call does to the directory what it does to the map. -/
theorem callStep_sound {os : FileAmbient} (faultless : os.Faultless) {dir : Directory}
    (sound : dir.Sound os) (call : Call) :
    (callStep os dir call).Sound os ∧
      ∀ key, (callStep os dir call).contents os key = keeps key (dir.contents os key) call := by
  have exact_ := fileStore_exact faultless
  cases call with
  | loadIndex =>
      obtain ⟨_, loaded, _⟩ := loadIndex_sound faultless sound
      have same : callStep os dir .loadIndex = dir := congrArg Prod.snd loaded
      rw [same]
      exact ⟨sound, fun _ => rfl⟩
  | get key =>
      have same : callStep os dir (.get key) = dir :=
        congrArg Prod.snd (get_sound faultless sound key.2)
      rw [same]
      exact ⟨sound, fun _ => rfl⟩
  | putIfAbsent key entry =>
      cases held : dir.contents os key with
      | some old =>
          have same : callStep os dir (.putIfAbsent key entry) = dir :=
            congrArg Prod.snd (put_present faultless sound key.2 entry held)
          rw [same]
          refine ⟨sound, fun other => ?_⟩
          rw [keeps_putIfAbsent]
          split
          case isTrue equal =>
            rw [equal, held]
            rfl
          case isFalse _ => rfl
      | none =>
          obtain ⟨after, put, valid, written⟩ := exact_.absent dir key entry sound key.2 entry.2 held
          have same : callStep os dir (.putIfAbsent key entry) = after := congrArg Prod.snd put
          rw [same, written]
          refine ⟨valid, fun other => ?_⟩
          rw [Function.update_apply, keeps_putIfAbsent]
          split
          case isTrue equal =>
            rw [equal, held]
            rfl
          case isFalse _ => rfl
  | remove key =>
      obtain ⟨after, removed, valid, written⟩ := exact_.remove dir key sound key.2
      have same : callStep os dir (.remove key) = after := congrArg Prod.snd removed
      rw [same, written]
      exact ⟨valid, fun other => Function.update_apply _ _ _ _⟩
  | clear =>
      obtain ⟨after, cleared, valid, emptied⟩ := exact_.clear dir sound
      have same : callStep os dir .clear = after := congrArg Prod.snd cleared
      rw [same, emptied]
      exact ⟨valid, fun _ => rfl⟩

/-- **A run** leaves a sound directory that holds the first writes. -/
theorem run_sound {os : FileAmbient} (faultless : os.Faultless) (calls : List Call) :
    (run os calls).Sound os ∧ (run os calls).contents os = firstPut calls := by
  induction calls using List.reverseRecOn with
  | nil => exact ⟨Directory.empty_sound os, rfl⟩
  | append_singleton earlier call ih =>
      obtain ⟨sound, held⟩ := ih
      have last : run os (earlier ++ [call]) = callStep os (run os earlier) call := by
        unfold run
        rw [List.foldl_append]
        rfl
      have next := callStep_sound faultless sound call
      rw [last]
      refine ⟨next.1, funext fun key => ?_⟩
      rw [next.2, held]
      unfold firstPut
      rw [List.foldl_append]
      rfl

/-- **The file store refines a put-if-absent map**: after any sequence of calls, `get` returns the first
write since the last deletion; `put_if_absent` inserts exactly where nothing is held; no two keys share a
file; `load_index` lists what is held and deletes nothing. -/
theorem refines_map (os : FileAmbient) (faultless : os.Faultless) (calls : List Call) :
    (∀ key : FileKey, (FileStore.get os key (run os calls)).1 = .ok (firstPut calls key)) ∧
    (∀ (key : FileKey) (entry : {entry : StoredEntry // entry.Representable}),
      (FileStore.putIfAbsent os key entry (run os calls)).1 =
        .ok ⟨(firstPut calls key).isNone,
          57 + ((firstPut calls key).getD entry).value.length⟩) ∧
    (∀ key : FileKey, (FileStore.remove os key (run os calls)).1 = .ok ()) ∧
    (FileStore.clear os (run os calls)).1 = .ok () ∧
    (∀ key other : String, key ≠ other → fileName key ≠ fileName other) ∧
    ∃ snapshot, FileStore.loadIndex os (run os calls) = (.ok snapshot, run os calls) ∧
      snapshot.Accounts (fun entry => 57 + entry.value.length) (firstPut calls) := by
  obtain ⟨sound, held⟩ := run_sound faultless calls
  have exact_ := fileStore_exact faultless
  refine ⟨fun key => ?_, fun key entry => ?_, fun key => ?_, ?_, fun key other different same => ?_, ?_⟩
  · rw [get_sound faultless sound key.2, held]
  · rw [← held]
    cases present : (run os calls).contents os key with
    | some old =>
        rw [put_present faultless sound key.2 entry present]
        rfl
    | none =>
        obtain ⟨after, put, _⟩ := exact_.absent _ key entry sound key.2 entry.2 present
        exact congrArg Prod.fst put
  · rw [remove_ok faultless key.2]
  · obtain ⟨_, cleared, _⟩ := clear_ok faultless sound
    rw [cleared]
  · exact different (fileName_injective same)
  · rw [← held]
    exact loadIndex_sound faultless sound

/-- The SHA-256 of `[1, 2, 3]`. -/
def digestOfOneTwoThree : List UInt8 :=
  [3, 144, 88, 198, 242, 192, 203, 73, 44, 83, 59, 10, 77, 20, 239, 119, 204, 15, 120, 171,
    204, 206, 213, 40, 125, 132, 161, 162, 1, 28, 251, 129]

/-- A file system without failures, under which only `[1, 2, 3]` is digested. -/
def plainFiles : FileAmbient where
  digest bytes := if bytes = [1, 2, 3] then digestOfOneTwoThree else List.replicate 32 0
  digest_length bytes := by split <;> rfl
  processId := 7
  seconds _ := 100
  fault _ := none

/-- Two writes of one key, a deletion of another. -/
theorem refines_map_twice :
    let key : FileKey := ⟨"a.b", rfl⟩
    let entry : {entry : StoredEntry // entry.Representable} :=
      ⟨⟨[1, 2, 3], 0, true⟩, by constructor <;> decide⟩
    let later : {entry : StoredEntry // entry.Representable} :=
      ⟨⟨[1, 2, 3], 9, false⟩, by constructor <;> decide⟩
    (FileStore.get plainFiles key (run plainFiles
      [.putIfAbsent key entry, .remove ⟨"a", rfl⟩, .putIfAbsent key later])).1 =
        .ok (some entry.1) := by
  intro key entry later
  exact (refines_map plainFiles (fun _ => rfl)
    [.putIfAbsent key entry, .remove ⟨"a", rfl⟩, .putIfAbsent key later]).1 key

end FileStore

end RivetCache
