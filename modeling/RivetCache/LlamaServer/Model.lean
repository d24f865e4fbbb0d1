/-
**`llama_server.rs`: the states of server slots.**

A bridge keeps the state of a slot in a context cache. `capture` lets the server save the slot to a file,
and puts the bytes of the file into the cache; `restore` writes the bytes of the cache to a file, and
lets the server load it. Both remove the file in the end.

The directory of the slot files is a table of names. The server is not part of the crate: `save` and
`restore` of a `LlamaServerSlotControl` may change the directory and the server as they like. The calls
of the file system do not fail but for what they find (a name that is missing or taken, a node that is
not a regular file), and a regular file of the directory resolves to itself.

`erase` and the HTTP client are left out: they touch neither the cache nor the directory.
-/

import RivetCache.Cache.Run
import RivetCache.Kv.Key
import RivetCache.Library.Fallible

set_option linter.unusedSectionVars false

namespace RivetCache

open Library

/-! ### Files -/

/-- What a name of the directory stands for. -/
inductive SlotNode where
  | file (bytes : List UInt8)
  | other
  deriving DecidableEq

/-- The directory of the slot files. -/
abbrev SlotDir := Table String SlotNode

/-- A byte of a slot filename. -/
def slotFilenameByte (byte : UInt8) : Bool :=
  (decide (48 ≤ byte) && decide (byte ≤ 57)) || (decide (65 ≤ byte) && decide (byte ≤ 90)) ||
    (decide (97 ≤ byte) && decide (byte ≤ 122)) || byte == 45 || byte == 95 || byte == 46

/-- `contains("..")`. -/
def twoDots : List UInt8 → Bool
  | 46 :: 46 :: _ => true
  | _ :: rest => twoDots rest
  | [] => false

/-- The test of `validate_slot_filename`. -/
def validSlotFilename (filename : String) : Bool :=
  let bytes := utf8Bytes filename
  !bytes.isEmpty && decide (bytes.length ≤ 160) && bytes.head? != some 46 &&
    bytes.all slotFilenameByte && !twoDots bytes

/-- `validate_slot_filename`. -/
def validateSlotFilename (filename : String) : Except IoError Unit :=
  if validSlotFilename filename then .ok ()
  else .error ⟨.invalidInput, "llama-server slot filename must be a simple ASCII basename"⟩

/-- `slot_filename_for_key`. -/
def slotFilenameForKey (key : String) : String := s!"rivet-{key}.ggsq"

/-- `remove_slot_file_if_regular`. -/
def removeSlotFileIfRegular (filename : String) (dir : SlotDir) : Except IoError Unit × SlotDir :=
  match validateSlotFilename filename with
  | .error error => (.error error, dir)
  | .ok () =>
      match dir.lookup filename with
      | none => (.ok (), dir)
      | some .other =>
          (.error ⟨.permissionDenied, "refusing to remove non-regular or symlink slot path"⟩, dir)
      | some (.file _) => (.ok (), dir.erase filename)

/-! ### The server -/

/-- `LlamaServerSlotAction`. -/
structure LlamaServerSlotAction where
  slotId : UInt32
  filename : String
  tokenCount : Option UInt64
  bytes : Option UInt64
  responseBody : String

/-- `LlamaServerSlotControl`, over the state of a server. -/
structure LlamaServerSlotControl (ς : Type) where
  save : UInt32 → String → SlotDir × ς → Except IoError LlamaServerSlotAction × (SlotDir × ς)
  restore : UInt32 → String → SlotDir × ς → Except IoError LlamaServerSlotAction × (SlotDir × ς)

/-- `LlamaServerSlotReceipt`; the digest is a text of hexadecimal digits. -/
structure LlamaServerSlotReceipt where
  cacheKey : String
  stateBytes : Nat
  stateSha256 : List UInt8
  action : LlamaServerSlotAction

/-- `receipt_for`. -/
def receiptFor (digest : Digest) (cacheKey : String) (bytes : List UInt8)
    (action : LlamaServerSlotAction) : LlamaServerSlotReceipt :=
  ⟨cacheKey, bytes.length, hexEncode (digest bytes).toList, action⟩

/-! ### The bridge -/

/-- `LLAMA_SERVER_SLOT_NAMESPACE`. -/
def llamaServerSlotNamespace : String := "LLAMA_SERVER_SLOT_V1"

/-- `LlamaServerSlotBridge`, with the `make_key` of the key strategy of its cache, and the process id. -/
structure LlamaServerSlotBridge (σ ς : Type) where
  cache : ContextCache σ
  makeKey : String → String → String → String
  control : LlamaServerSlotControl ς
  maxStateBytes : Nat
  processId : Nat

/-- The cache, the directory, the server, and the nonce of the temporary files. -/
structure SlotState (σ ς : Type) where
  cache : CacheState σ
  dir : SlotDir
  server : ς
  nonce : Nat

namespace LlamaServerSlotBridge

variable {σ ς : Type} (bridge : LlamaServerSlotBridge σ ς) (digest : Digest)

/-- `cache_key`. -/
def cacheKey (modelFingerprint logicalIdentity : String) : Except IoError String :=
  if isBlank modelFingerprint || isBlank logicalIdentity then
    .error ⟨.invalidInput, "model fingerprint and logical slot identity must not be empty"⟩
  else .ok (bridge.makeKey llamaServerSlotNamespace modelFingerprint logicalIdentity)

/-- `validate_state_len`. -/
def validateStateLen (bytes : Nat) : Except IoError Unit :=
  if bytes = 0 ∨ bytes > bridge.maxStateBytes then
    .error ⟨.invalidData, s!"llama-server slot state size {bytes} is outside configured range "
      ++ s!"1..={bridge.maxStateBytes} bytes"⟩
  else .ok ()

/-- `read_slot_file`. -/
def readSlotFile (filename : String) (dir : SlotDir) : Except IoError (List UInt8) :=
  match validateSlotFilename filename with
  | .error error => .error error
  | .ok () =>
      match dir.lookup filename with
      | none => .error ⟨.notFound, "No such file or directory (os error 2)"⟩
      | some .other =>
          .error ⟨.invalidData, "llama-server slot state is not a regular non-symlink file"⟩
      | some (.file bytes) =>
          match bridge.validateStateLen bytes.length with
          | .error error => .error error
          | .ok () => .ok bytes

/-- `write_slot_file_atomic`, the name of the temporary file. -/
def tempName (filename : String) (nonce : Nat) : String :=
  s!"tmp-{filename}.{bridge.processId}.{nonce}.tmp"

/-- `write_slot_file_atomic`, from the creation of the temporary file on. -/
def writeThrough (filename temp : String) (bytes : List UInt8) (dir : SlotDir) :
    Except IoError Unit × SlotDir :=
  match dir.lookup temp with
  | some _ => (.error ⟨.alreadyExists, "File exists (os error 17)"⟩, dir)
  | none =>
      let written := dir.insert temp (.file bytes)
      andThen
        (if (written.lookup filename).isSome then removeSlotFileIfRegular filename written
          else (.ok (), written))
        fun _ dir => (.ok (), (dir.erase temp).insert filename (.file bytes))

/-- `write_slot_file_atomic`. -/
def writeSlotFileAtomic (filename : String) (bytes : List UInt8) (s : SlotState σ ς) :
    Except IoError Unit × SlotState σ ς :=
  match bridge.validateStateLen bytes.length with
  | .error error => (.error error, s)
  | .ok () =>
      match validateSlotFilename filename with
      | .error error => (.error error, s)
      | .ok () =>
          let temp := bridge.tempName filename s.nonce
          let counted := { s with nonce := (s.nonce + 1) % 2 ^ 64 }
          match validateSlotFilename temp with
          | .error error => (.error error, counted)
          | .ok () =>
              let (written, dir) := writeThrough filename temp bytes counted.dir
              (written, { counted with dir := dir })

/-- `remove_slot_file_if_regular`, of the bridge. -/
def removeSlotFile (filename : String) (s : SlotState σ ς) :
    Except IoError Unit × SlotState σ ς :=
  let (removed, dir) := removeSlotFileIfRegular filename s.dir
  (removed, { s with dir := dir })

/-- The end of `capture` and of `restore`: the file is removed, and the first error counts. -/
def cleanUp {α : Type} (filename : String) (done : Except IoError α × SlotState σ ς) :
    Except IoError α × SlotState σ ς :=
  let (cleanup, s) := removeSlotFile filename done.2
  (match done.1, cleanup with
    | .ok receipt, .ok () => .ok receipt
    | .error error, _ => .error error
    | .ok _, .error error => .error error, s)

/-- The server saves or loads a slot. -/
def serverCall (call : SlotDir × ς → Except IoError LlamaServerSlotAction × (SlotDir × ς))
    (s : SlotState σ ς) : Except IoError LlamaServerSlotAction × SlotState σ ς :=
  let (answered, dir, server) := call (s.dir, s.server)
  (answered, { s with dir := dir, server := server })

/-! ### Capturing -/

/-- `capture`, up to the file that the server saves. -/
def saveSlot (slotId : UInt32) (filename : String) (s : SlotState σ ς) :
    Except IoError LlamaServerSlotAction × SlotState σ ς :=
  andThen (removeSlotFile filename s) fun _ s => serverCall (bridge.control.save slotId filename) s

/-- `capture`, the bytes of the file. -/
def savedState (filename : String) (action : LlamaServerSlotAction) (dir : SlotDir) :
    Except IoError (List UInt8) :=
  match bridge.readSlotFile filename dir with
  | .error error => .error error
  | .ok bytes =>
      match action.bytes with
      | none => .ok bytes
      | some reported =>
          if reported.toNat ≠ bytes.length then
            .error ⟨.invalidData, s!"llama-server reported {reported} saved bytes but slot file "
              ++ s!"contains {bytes.length}"⟩
          else .ok bytes

/-- `capture`, what becomes of the file. -/
def storeState (amb : Ambient) (key filename : String) (pinned : Bool)
    (action : LlamaServerSlotAction) (s : SlotState σ ς) :
    Except IoError LlamaServerSlotReceipt × SlotState σ ς :=
  match bridge.savedState filename action s.dir with
  | .error error => (.error error, s)
  | .ok bytes =>
      let (stored, cache) := bridge.cache.put amb key bytes none pinned s.cache
      (match stored with
        | .error error => .error error
        | .ok () => .ok (receiptFor digest key bytes action), { s with cache := cache })

/-- `capture`. -/
def capture (amb : Ambient) (slotId : UInt32) (modelFingerprint logicalIdentity : String)
    (pinned : Bool) (s : SlotState σ ς) :
    Except IoError LlamaServerSlotReceipt × SlotState σ ς :=
  match bridge.cacheKey modelFingerprint logicalIdentity with
  | .error error => (.error error, s)
  | .ok key =>
      let filename := slotFilenameForKey key
      andThen (bridge.saveSlot slotId filename s) fun action s =>
        cleanUp filename (bridge.storeState digest amb key filename pinned action s)

/-! ### Restoring -/

/-- The error of a slot that is not in the cache. -/
def stateNotFound : IoError :=
  ⟨.notFound, "requested llama-server slot state is not present in RivetCache"⟩

/-- `restore`, up to the file that the server is going to load: its bytes. -/
def materialize (amb : Ambient) (key : String) (s : SlotState σ ς) :
    Except IoError (List UInt8) × SlotState σ ς :=
  let (answer, cache) := bridge.cache.get amb key s.cache
  let s := { s with cache := cache }
  match answer with
  | .error error => (.error error, s)
  | .ok none => (.error stateNotFound, s)
  | .ok (some bytes) =>
      match bridge.validateStateLen bytes.length with
      | .error error => (.error error, s)
      | .ok () =>
          andThen (removeSlotFile (slotFilenameForKey key) s) fun _ s =>
            andThen (bridge.writeSlotFileAtomic (slotFilenameForKey key) bytes s) fun _ s =>
              (.ok bytes, s)

/-- `restore`, the server loads the file. -/
def loadSlot (slotId : UInt32) (key : String) (bytes : List UInt8) (s : SlotState σ ς) :
    Except IoError LlamaServerSlotReceipt × SlotState σ ς :=
  andThen (serverCall (bridge.control.restore slotId (slotFilenameForKey key)) s) fun action s =>
    match action.bytes with
    | none => (.ok (receiptFor digest key bytes action), s)
    | some reported =>
        if reported.toNat ≠ bytes.length then
          (.error ⟨.invalidData, s!"llama-server reported {reported} restored bytes but RivetCache "
            ++ s!"materialized {bytes.length}"⟩, s)
        else (.ok (receiptFor digest key bytes action), s)

/-- `restore`. -/
def restore (amb : Ambient) (slotId : UInt32) (modelFingerprint logicalIdentity : String)
    (s : SlotState σ ς) : Except IoError LlamaServerSlotReceipt × SlotState σ ς :=
  match bridge.cacheKey modelFingerprint logicalIdentity with
  | .error error => (.error error, s)
  | .ok key =>
      andThen (bridge.materialize amb key s) fun bytes s =>
        cleanUp (slotFilenameForKey key) (bridge.loadSlot digest slotId key bytes s)

/-- `contains`. -/
def contains (amb : Ambient) (modelFingerprint logicalIdentity : String) (s : SlotState σ ς) :
    Except IoError Bool × SlotState σ ς :=
  match bridge.cacheKey modelFingerprint logicalIdentity with
  | .error error => (.error error, s)
  | .ok key =>
      let (answer, cache) := bridge.cache.get amb key s.cache
      (match answer with
        | .error error => .error error
        | .ok held => .ok held.isSome, { s with cache := cache })

end LlamaServerSlotBridge

end RivetCache
