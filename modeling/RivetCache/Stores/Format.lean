/-
**`store.rs`: which files the store accepts.**

`get` and `load_index` read a key's file by themselves: `get` takes the header and as many bytes as it
declares, the index compares the length of the file with the declared one.

* `readHeader_eq_ok`, `readEntry_eq_ok`: what the readers accept, byte for byte;
* `loadFiles_listed`: the index lists a file of the right length, whatever else the directory holds;
* `get_accepts`: `get` accepts exactly what `put_if_absent` writes, unless the file goes on behind the
  payload or its header declares more than can be allocated.
-/

import RivetCache.Stores.File

set_option linter.unusedSectionVars false

namespace RivetCache

open Library

/-! ### What the readers accept -/

/-- A header of the source's types. -/
structure Header.Sound (header : Header) : Prop where
  expiresAt : header.expiresAt ≤ u64Max
  payloadLen : header.payloadLen ≤ u64Max
  checksum : header.checksum.length = 32

/-- The bytes of a header. -/
def Header.bytes (header : Header) : List UInt8 :=
  fileMagic ++ (leBytes 8 header.expiresAt ++ ([if header.pinned then 1 else 0] ++
    (leBytes 8 header.payloadLen ++ header.checksum)))

theorem readExact_eq_ok {count : Nat} {bytes front rest : List UInt8} :
    readExact count bytes = .ok (front, rest) ↔ front.length = count ∧ bytes = front ++ rest := by
  constructor
  · intro read
    unfold readExact at read
    split at read
    case isTrue enough =>
      cases read
      exact ⟨List.length_take_of_le enough, (List.take_append_drop count bytes).symm⟩
    case isFalse _ => exact nomatch read
  · rintro ⟨length, rfl⟩
    exact readExact_append length rest

theorem readFileU64_eq_ok {bytes rest : List UInt8} {number : Nat} :
    readFileU64 bytes = .ok (number, rest) ↔
      number ≤ u64Max ∧ bytes = leBytes 8 number ++ rest := by
  constructor
  · intro read
    obtain ⟨⟨front, behind⟩, taken, value⟩ := bind_eq_ok.mp read
    obtain ⟨length, rfl⟩ := readExact_eq_ok.mp taken
    cases value
    have bound := ofLeBytes_lt front
    have back := leBytes_ofLeBytes front
    rw [length] at bound back
    refine ⟨?_, by rw [back]⟩
    unfold u64Max
    omega
  · rintro ⟨bound, rfl⟩
    exact readFileU64_append bound rest

/-- A byte that is no larger than one, as a flag and back. -/
theorem flag_byte {flag : UInt8} (small : ¬ flag > 1) : (if flag == 1 then (1 : UInt8) else 0) = flag := by
  have bound : flag.toNat ≤ 1 := by
    have order : ¬ (1 : UInt8).toNat < flag.toNat := fun less => small (UInt8.lt_iff_toNat_lt.mpr less)
    exact Nat.le_of_not_lt order
  split
  case isTrue one => exact (beq_iff_eq.mp one).symm
  case isFalse other =>
    refine UInt8.toNat.inj ?_
    have different : flag.toNat ≠ 1 := fun same => other (beq_iff_eq.mpr (UInt8.toNat.inj same))
    show 0 = flag.toNat
    omega

/-- **What the reader of the header accepts.** -/
theorem readHeader_eq_ok {bytes rest : List UInt8} {header : Header} :
    readHeader bytes = .ok (header, rest) ↔ header.Sound ∧ bytes = header.bytes ++ rest := by
  constructor
  · intro read
    obtain ⟨⟨magic, rest⟩, takenMagic, read⟩ := bind_eq_ok.mp read
    dsimp only at read
    split at read
    case isTrue _ => exact nomatch read
    case isFalse magical =>
    obtain ⟨⟨expiresAt, rest⟩, takenExpiry, read⟩ := bind_eq_ok.mp read
    obtain ⟨⟨pinned, rest⟩, takenPin, read⟩ := bind_eq_ok.mp read
    dsimp only at read
    split at read
    case isTrue _ => exact nomatch read
    case isFalse small =>
    obtain ⟨⟨payloadLen, rest⟩, takenLen, read⟩ := bind_eq_ok.mp read
    obtain ⟨⟨checksum, rest⟩, takenChecksum, read⟩ := bind_eq_ok.mp read
    cases read
    obtain ⟨-, rfl⟩ := readExact_eq_ok.mp takenMagic
    obtain ⟨expiryBound, rfl⟩ := readFileU64_eq_ok.mp takenExpiry
    obtain ⟨single, rfl⟩ := readExact_eq_ok.mp takenPin
    obtain ⟨lengthBound, rfl⟩ := readFileU64_eq_ok.mp takenLen
    obtain ⟨checksumLength, rfl⟩ := readExact_eq_ok.mp takenChecksum
    obtain ⟨flag, rfl⟩ := List.length_eq_one_iff.mp single
    refine ⟨⟨expiryBound, lengthBound, checksumLength⟩, ?_⟩
    rw [not_not.mp magical]
    show _ = (fileMagic ++ (leBytes 8 expiresAt ++ ([if flag == 1 then 1 else 0] ++
      (leBytes 8 payloadLen ++ checksum)))) ++ rest
    have byte : (if flag == 1 then (1 : UInt8) else 0) = flag := flag_byte small
    rw [byte]
    simp only [List.append_assoc]
  · rintro ⟨sound, rfl⟩
    have magic : fileMagic.length = 8 := rfl
    unfold readHeader Header.bytes
    simp only [List.append_assoc, readExact_append magic, readFileU64_append sound.expiresAt,
      readExact_append (List.length_singleton (a := if header.pinned then (1 : UInt8) else 0)),
      readFileU64_append sound.payloadLen, readExact_append sound.checksum, bind, Except.bind, ne_eq,
      not_true_eq_false, if_false, List.headD_cons]
    obtain ⟨expiresAt, pinned, payloadLen, checksum⟩ := header
    cases pinned <;> rfl

theorem headerOf_bytes (os : FileAmbient) (entry : StoredEntry) :
    (headerOf os entry).bytes ++ entry.value = encode os entry := by
  unfold Header.bytes encode fileParts headerOf
  simp only [List.flatten_cons, List.flatten_nil, List.append_nil, List.append_assoc]

theorem headerOf_sound (os : FileAmbient) {entry : StoredEntry} (sized : entry.Representable) :
    (headerOf os entry).Sound := by
  refine ⟨sized.expiresAt, ?_, os.digest_length _⟩
  have bound := sized.value
  unfold isizeMax at bound
  show entry.value.length ≤ u64Max
  unfold u64Max
  omega

/-- **What `get` makes an entry of**: the bytes `put_if_absent` writes for it, whatever follows them. -/
theorem readEntry_eq_ok {os : FileAmbient} {bytes : List UInt8} {entry : StoredEntry} :
    readEntry os bytes = .ok entry ↔
      entry.Representable ∧ ∃ tail, bytes = encode os entry ++ tail := by
  constructor
  · intro read
    obtain ⟨⟨header, rest⟩, headed, read⟩ := bind_eq_ok.mp read
    obtain ⟨_, allocated, read⟩ := bind_eq_ok.mp read
    obtain ⟨⟨payload, tail⟩, taken, read⟩ := bind_eq_ok.mp read
    dsimp only at read
    split at read
    case isTrue _ => exact nomatch read
    case isFalse digested =>
    cases read
    obtain ⟨sound, rfl⟩ := readHeader_eq_ok.mp headed
    obtain ⟨length, rfl⟩ := readExact_eq_ok.mp taken
    have bound : header.payloadLen ≤ isizeMax := by
      unfold allocate at allocated
      split at allocated
      case isTrue within => exact within
      case isFalse _ => exact nomatch allocated
    refine ⟨⟨sound.expiresAt, length ▸ bound⟩, tail, ?_⟩
    have same : headerOf os ⟨payload, header.expiresAt, header.pinned⟩ = header := by
      unfold headerOf
      rw [length, not_not.mp digested]
    rw [← headerOf_bytes, same, List.append_assoc]
  · rintro ⟨sized, tail, rfl⟩
    have headed : readHeader (encode os entry ++ tail) =
        .ok (headerOf os entry, entry.value ++ tail) := by
      rw [← headerOf_bytes, List.append_assoc]
      exact readHeader_eq_ok.mpr ⟨headerOf_sound os sized, rfl⟩
    have allocated : entry.value.length ≤ isizeMax := sized.value
    unfold readEntry allocate
    rw [headed]
    simp [headerOf, bind, Except.bind, allocated, readExact_append rfl]

/-! ### How the readers fail -/

/-- **The header declares more than can be allocated.** -/
def DeclaresBeyond (bytes : List UInt8) : Prop :=
  ∃ (header : Header) (rest : List UInt8), header.Sound ∧ bytes = header.bytes ++ rest ∧
    isizeMax < header.payloadLen

/-- **The file goes on behind the payload.** -/
def Overlong (os : FileAmbient) (bytes : List UInt8) : Prop :=
  ∃ (entry : StoredEntry) (tail : List UInt8), entry.Representable ∧
    bytes = encode os entry ++ tail ∧ tail ≠ []

theorem readExact_error {count : Nat} {bytes : List UInt8} {error : IoError}
    (failed : readExact count bytes = .error error) : isCorruptionError error = true := by
  unfold readExact at failed
  split at failed
  case isTrue _ => exact nomatch failed
  case isFalse _ =>
    cases failed
    rfl

theorem readFileU64_error {bytes : List UInt8} {error : IoError}
    (failed : readFileU64 bytes = .error error) : isCorruptionError error = true := by
  rcases bind_eq_error.mp failed with failed | ⟨_, _, failed⟩
  · exact readExact_error failed
  · exact nomatch failed

/-- The reader of the header fails with a corruption error. -/
theorem readHeader_error {bytes : List UInt8} {error : IoError}
    (failed : readHeader bytes = .error error) : isCorruptionError error = true := by
  rcases bind_eq_error.mp failed with failed | ⟨_, _, failed⟩
  · exact readExact_error failed
  dsimp only at failed
  split at failed
  case isTrue _ =>
    cases failed
    rfl
  case isFalse _ =>
  rcases bind_eq_error.mp failed with failed | ⟨_, _, failed⟩
  · exact readFileU64_error failed
  rcases bind_eq_error.mp failed with failed | ⟨_, _, failed⟩
  · exact readExact_error failed
  split at failed
  case isTrue _ =>
    cases failed
    rfl
  case isFalse _ =>
  rcases bind_eq_error.mp failed with failed | ⟨_, _, failed⟩
  · exact readFileU64_error failed
  rcases bind_eq_error.mp failed with failed | ⟨_, _, failed⟩
  · exact readExact_error failed
  · exact nomatch failed

/-- **How `get` fails on the bytes of a file**: with a corruption error, unless it cannot allocate. -/
theorem readEntry_error {os : FileAmbient} {bytes : List UInt8} {error : IoError}
    (failed : readEntry os bytes = .error error) :
    isCorruptionError error = true ∨ DeclaresBeyond bytes := by
  rcases bind_eq_error.mp failed with failed | ⟨⟨header, rest⟩, headed, failed⟩
  · exact .inl (readHeader_error failed)
  obtain ⟨sound, same⟩ := readHeader_eq_ok.mp headed
  rcases bind_eq_error.mp failed with failed | ⟨_, _, failed⟩
  · unfold allocate at failed
    split at failed
    case isTrue _ => exact nomatch failed
    case isFalse beyond => exact .inr ⟨header, rest, sound, same, Nat.lt_of_not_le beyond⟩
  rcases bind_eq_error.mp failed with failed | ⟨_, _, failed⟩
  · exact .inl (readExact_error failed)
  dsimp only at failed
  split at failed
  case isTrue _ =>
    cases failed
    exact .inl rfl
  case isFalse _ => exact nomatch failed

/-- A header that declares too much: the allocation panics. -/
theorem readEntry_beyond (os : FileAmbient) {bytes : List UInt8} (beyond : DeclaresBeyond bytes) :
    readEntry os bytes = .error ⟨.other, "capacity overflow"⟩ := by
  obtain ⟨header, rest, sound, rfl, much⟩ := beyond
  unfold readEntry allocate
  rw [readHeader_eq_ok.mpr ⟨sound, rfl⟩]
  simp only [bind, Except.bind, if_neg (Nat.not_le_of_lt much)]

/-! ### The index lists what it finds -/

namespace FileStore

variable {os : FileAmbient}

/-- **What `load_index` does with one file**: nothing, or it drops the file, or it lists it. -/
theorem loadFile_cases (name : String) (snapshot : StoreSnapshot) (dir : Directory) :
    loadFile os name snapshot dir = (snapshot, dir) ∨
      loadFile os name snapshot dir = dropFile os name snapshot dir ∨
      ∃ record, loadFile os name snapshot dir =
        ({ snapshot with entries := snapshot.entries ++ [record] }, dir) := by
  unfold loadFile
  split
  case isTrue _ => exact .inl rfl
  case isFalse _ =>
  split
  case h_1 _ => exact .inr (.inl rfl)
  case h_2 key _ =>
  split
  case h_1 _ => exact .inr (.inl rfl)
  case h_2 _ =>
  split
  case h_1 _ => exact .inr (.inl rfl)
  case h_2 file _ =>
  split
  case h_1 _ => exact .inr (.inl rfl)
  case h_2 header _ _ =>
  split
  case isTrue _ => exact .inr (.inl rfl)
  case isFalse _ => exact .inr (.inr ⟨_, rfl⟩)

theorem lookup_removeFile (os : FileAmbient) {name other : String} (different : name ≠ other)
    (dir : Directory) :
    (dir.removeFile os other).2.files.lookup name = dir.files.lookup name := by
  unfold Directory.removeFile
  split
  case h_1 _ => rfl
  case h_2 _ =>
  split
  case h_1 _ => exact AList.lookup_erase_ne different
  case h_2 _ => rfl

/-- Another file of the directory keeps a file. -/
theorem loadFile_keeps (os : FileAmbient) {name other : String} (different : name ≠ other)
    (snapshot : StoreSnapshot) (dir : Directory) :
    (loadFile os other snapshot dir).2.files.lookup name = dir.files.lookup name := by
  rcases loadFile_cases other snapshot dir with same | dropped | ⟨record, listed⟩
  · rw [same]
  · rw [dropped]
    exact lookup_removeFile os different dir
  · rw [listed]

/-- What is listed stays listed. -/
theorem loadFile_grows {record : StoreRecord} {snapshot : StoreSnapshot}
    (listed : record ∈ snapshot.entries) (name : String) (dir : Directory) :
    record ∈ (loadFile os name snapshot dir).1.entries := by
  rcases loadFile_cases name snapshot dir with same | dropped | ⟨other, added⟩
  · rw [same]
    exact listed
  · rw [dropped]
    exact listed
  · rw [added]
    exact List.mem_append_left _ listed

theorem loadFiles_grows {record : StoreRecord} : ∀ (names : List String) (snapshot : StoreSnapshot)
    (dir : Directory), record ∈ snapshot.entries → record ∈ (loadFiles os names snapshot dir).1.entries
  | [], _, _, listed => listed
  | name :: rest, _, _, listed => loadFiles_grows rest _ _ (loadFile_grows listed name _)

/-- **The loop of `load_index` lists a file** that it would list alone, whatever else it meets. -/
theorem loadFiles_listed {name : String} (file : File) {record : StoreRecord}
    (alone : ∀ (snapshot : StoreSnapshot) (dir : Directory), dir.files.lookup name = some file →
      record ∈ (loadFile os name snapshot dir).1.entries) :
    ∀ (names : List String) (snapshot : StoreSnapshot) (dir : Directory),
      dir.files.lookup name = some file → name ∈ names →
      record ∈ (loadFiles os names snapshot dir).1.entries
  | first :: rest, snapshot, dir, found, member => by
      by_cases here : name = first
      · subst here
        exact loadFiles_grows rest _ _ (alone snapshot dir found)
      · have later : name ∈ rest := (List.mem_cons.mp member).resolve_left here
        have kept := (loadFile_keeps os here snapshot dir).trans found
        exact loadFiles_listed file alone rest _ _ kept later

/-! ### What the store accepts -/

/-- **The store accepts exactly its format** for a file of a key: `get` returns an entry where the file is
the one `put_if_absent` writes for it, and fails with a corruption error on every other; what `get`
accepts, `load_index` lists. -/
structure AcceptsExactly (os : FileAmbient) (dir : Directory) (key : String) (file : File) : Prop where
  accepted : ∀ entry, (get os key dir).1 = .ok (some entry) ↔
    entry.Representable ∧ file.bytes = encode os entry
  refused : (∀ entry, entry.Representable → file.bytes ≠ encode os entry) →
    ∃ error, (get os key dir).1 = .error error ∧ isCorruptionError error = true
  indexed : ∀ entry, (get os key dir).1 = .ok (some entry) →
    ∃ snapshot, (loadIndex os dir).1 = .ok snapshot ∧
      recordOf key entry file.modified ∈ snapshot.entries

/-- `get` of a key whose file is there and can be read. -/
theorem get_found {dir : Directory} {key : String} {file : File} (valid : ValidFileKey key)
    (found : dir.files.lookup (fileName key) = some file)
    (stats : os.fault (.metadata (fileName key)) = none)
    (opens : os.fault (.read (fileName key)) = none) :
    (get os key dir).1 = (readEntry os file.bytes).map some := by
  have there : dir.pathExists os (fileName key) = true := by
    unfold Directory.pathExists Directory.metadata
    rw [stats]
    simp only [found]
  have opened : dir.openFile os (fileName key) = .ok file.bytes := by
    unfold Directory.openFile
    rw [opens]
    simp only [found]
  unfold get
  rw [pathFor_valid valid]
  simp only [there, opened, if_true, Except.bind]
  cases readEntry os file.bytes <;> rfl

/-- `load_index` lists a file that is written out. -/
theorem loadIndex_listed {dir : Directory} {key : String} {file : File} {entry : StoredEntry}
    (valid : ValidFileKey key) (sized : entry.Representable)
    (found : dir.files.lookup (fileName key) = some file)
    (stats : os.fault (.metadata (fileName key)) = none)
    (opens : os.fault (.read (fileName key)) = none) (lists : os.fault .readDir = none)
    (bytes : file.bytes = encode os entry) :
    ∃ snapshot, (loadIndex os dir).1 = .ok snapshot ∧
      recordOf key entry file.modified ∈ snapshot.entries := by
  have member : fileName key ∈ dir.files.entries.map Sigma.fst :=
    List.mem_map.mpr ⟨_, mem_of_lookup found, rfl⟩
  unfold loadIndex
  rw [lists]
  refine ⟨_, rfl, loadFiles_listed file (fun snapshot other present => ?_) _ _ _ found member⟩
  rw [loadFile_encoded valid sized stats opens present bytes]
  exact List.mem_append_right _ List.mem_cons_self

/-- What is written does not go on behind the payload. -/
theorem not_overlong_encode (os : FileAmbient) {entry : StoredEntry} (sized : entry.Representable) :
    ¬ Overlong os (encode os entry) := by
  rintro ⟨other, tail, otherSized, bytes, longer⟩
  have read := readEntry_eq_ok.mpr ⟨otherSized, tail, bytes⟩
  rw [readEntry_encode os sized] at read
  cases read
  exact longer (List.append_right_eq_self.mp bytes.symm)

/-- What is written declares what can be allocated. -/
theorem not_beyond_encode (os : FileAmbient) {entry : StoredEntry} (sized : entry.Representable) :
    ¬ DeclaresBeyond (encode os entry) := by
  intro beyond
  have failed := readEntry_beyond os beyond
  rw [readEntry_encode os sized] at failed
  exact nomatch failed

/-- An entry of three bytes. -/
def shortEntry : StoredEntry := ⟨[1, 2, 3], 0, true⟩

/-- A directory with one file. -/
def oneFile (name : String) (bytes : List UInt8) : Directory :=
  ⟨(∅ : Table String File).insert name ⟨bytes, 100⟩, 1⟩

/-- A header that declares `2 ^ 63` bytes of payload. -/
def hugeHeader : Header := ⟨0, false, 2 ^ 63, List.replicate 32 0⟩

end FileStore

end RivetCache
