/-
**`remote.rs`: a tier behind a TCP connection.**

A connection carries one request and one reply. `handleConnection` is the server's side of it, from the
bytes it receives to the bytes it writes and the tier it leaves; the operations of `TcpKvTier` are the
client's side, with the server at the other end of a stream that loses nothing. What the server writes is
kept also where a later step fails, as the bytes are on the stream by then.

A buffer of more than `isize::MAX` bytes is a panic (`Fault.panic`); any other allocation succeeds.
-/

import RivetCache.Kv.Model
import RivetCache.Library.Reader

set_option linter.unusedSectionVars false

namespace RivetCache

open Library

/-! ### The protocol -/

/-- `MAGIC`: `RKVNET1` and a line feed. -/
def remoteMagic : List UInt8 := [82, 75, 86, 78, 69, 84, 49, 10]

def opGet : UInt8 := 1
def opPut : UInt8 := 2
def opRemove : UInt8 := 3
def opClear : UInt8 := 4
def opPing : UInt8 := 5

def statusOk : UInt8 := 0
def statusMiss : UInt8 := 1
def statusError : UInt8 := 2

/-- `MAX_ERROR_BYTES`. -/
def maxErrorBytes : Nat := 8 * 1024

/-- `RemoteLimits`; the connections in flight and the timeouts are those of the accept loop. -/
structure RemoteLimits where
  maxPayloadBytes : Nat
  maxModelBytes : Nat

/-- `protocol_error`. -/
def protocolError (message : String) : Fault := .error ⟨.invalidData, message⟩

/-! ### Readers -/

/-- What `read_exact` answers at the end of the stream. -/
def endOfStream : Fault := .error ⟨.unexpectedEof, "failed to fill whole buffer"⟩

/-- `read_exact`. -/
def readExactly (n : Nat) : Reader Fault (List UInt8) := Reader.exact endOfStream n

/-- `vec![0; len]`. -/
def zeroVec (len : Nat) : Reader Fault Unit := Reader.reject (decide (len > isizeMax)) .panic

/-- `read_u8`. -/
def readU8 : Reader Fault UInt8 := do
  let n ← Reader.number endOfStream 1
  pure (UInt8.ofNat n)

/-- `read_u32`. -/
def readU32 : Reader Fault UInt32 := do
  let n ← Reader.number endOfStream 4
  pure (UInt32.ofNat n)

/-- `read_u64` of `remote.rs`. -/
def readRemoteU64 : Reader Fault UInt64 := do
  let n ← Reader.number endOfStream 8
  pure (UInt64.ofNat n)

/-- A digest. -/
def readHash : Reader Fault (Vector UInt8 32) := fun input =>
  if enough : 32 ≤ input.length then
    .ok (⟨(input.take 32).toArray, by simp [enough]⟩, input.drop 32)
  else .error endOfStream

/-- A payload of a length. -/
def readBytes (len : UInt64) : Reader Fault Payload := fun input =>
  if enough : len.toNat ≤ input.length then
    .ok (⟨input.take len.toNat, by
      have size := len.toNat_lt
      rw [List.length_take]
      omega⟩, input.drop len.toNat)
  else .error endOfStream

/-- The magic of a request or of a response, and the byte after it. -/
def readTagged (error : Fault) : Reader Fault UInt8 := do
  let magic ← readExactly remoteMagic.length
  let _ ← Reader.reject (magic != remoteMagic) error
  readU8

/-- `read_request_header`. -/
def readRequestHeader : Reader Fault UInt8 :=
  readTagged (protocolError "invalid remote protocol magic")

/-- `read_status`. -/
def readStatus : Reader Fault UInt8 :=
  readTagged (protocolError "invalid remote response magic")

/-- `read_key`. -/
def readKey (limits : RemoteLimits) : Reader Fault KvBlockKey := do
  let modelLen ← readU32
  let _ ← Reader.reject (decide (modelLen.toNat = 0 ∨ modelLen.toNat > limits.maxModelBytes))
    (protocolError "invalid model fingerprint length")
  let model ← readExactly modelLen.toNat
  let modelFingerprint ← Reader.require (fromUtf8 model)
    (protocolError "model fingerprint is not UTF-8")
  let sequenceHash ← readHash
  let blockIndex ← readU32
  let tokenStart ← readU32
  let tokenCount ← readU32
  let layerStart ← readU32
  let layerCount ← readU32
  let layoutVersion ← readU32
  let _ ← Reader.reject (decide (tokenCount = 0 ∨ layerCount = 0))
    (protocolError "remote KV key has an empty token or layer range")
  pure ⟨modelFingerprint, sequenceHash, blockIndex, tokenStart, tokenCount, layerStart, layerCount,
    layoutVersion⟩

/-- `read_entry`, the pin flag. -/
def pinOfByte (byte : UInt8) : Option Bool :=
  if byte = 0 then some false else if byte = 1 then some true else none

/-- `read_entry`. -/
def readRemoteEntry (key : KvBlockKey) (limits : RemoteLimits) : Reader Fault KvTierEntry := do
  let expiresAt ← readRemoteU64
  let flag ← readU8
  let pinned ← Reader.require (pinOfByte flag) (protocolError "invalid remote pin flag")
  let len ← readRemoteU64
  let _ ← Reader.reject (decide (len.toNat = 0 ∨ len.toNat > limits.maxPayloadBytes))
    (protocolError "remote payload exceeds configured limit")
  let _ ← zeroVec len.toNat
  let bytes ← readBytes len
  pure ⟨⟨key, bytes⟩, expiresAt, pinned⟩

/-- `read_remote_error`. -/
def readRemoteError : Reader Fault IoError := do
  let len ← readU32
  let _ ← Reader.reject (decide (len.toNat > maxErrorBytes))
    (protocolError "remote error message exceeds protocol limit")
  let bytes ← readExactly len.toNat
  let message ← Reader.require (fromUtf8 bytes)
    (protocolError "remote error message is not UTF-8")
  pure ⟨.other, message⟩

/-! ### Writers -/

/-- `write_request_header` and `write_status`. -/
def tagged (tag : UInt8) : List UInt8 := remoteMagic ++ [tag]

/-- The bytes of a `u32` and of a `u64`. -/
def u32Bytes (value : UInt32) : List UInt8 := leBytes 4 value.toNat

def u64Bytes (value : UInt64) : List UInt8 := leBytes 8 value.toNat

/-- The bytes of a key. -/
def remoteKeyBytes (key : KvBlockKey) : List UInt8 :=
  leBytes 4 (utf8Bytes key.modelFingerprint).length ++ (utf8Bytes key.modelFingerprint ++
    (key.sequenceHash.toList ++ (u32Bytes key.blockIndex ++ (u32Bytes key.tokenStart ++
      (u32Bytes key.tokenCount ++ (u32Bytes key.layerStart ++ (u32Bytes key.layerCount ++
        u32Bytes key.layoutVersion)))))))

/-- `write_key`. -/
def writeKey (key : KvBlockKey) (limits : RemoteLimits) : Except IoError (List UInt8) :=
  let model := utf8Bytes key.modelFingerprint
  if model.isEmpty ∨ model.length > limits.maxModelBytes ∨ model.length > 2 ^ 32 - 1 then
    .error ⟨.invalidInput, "model fingerprint exceeds remote protocol limits"⟩
  else .ok (remoteKeyBytes key)

/-- The bytes of an entry. -/
def entryBytes (entry : KvTierEntry) : List UInt8 :=
  u64Bytes entry.expiresAt ++ ([if entry.pinned then 1 else 0] ++
    (leBytes 8 entry.block.bytes.bytes.length ++ entry.block.bytes.bytes))

/-- `write_entry_body`. -/
def writeEntryBody (entry : KvTierEntry) (limits : RemoteLimits) : Except IoError (List UInt8) :=
  if entry.block.bytes.bytes.length = 0 ∨
      entry.block.bytes.bytes.length > limits.maxPayloadBytes then
    .error ⟨.invalidInput, "KV payload exceeds remote protocol limits"⟩
  else .ok (entryBytes entry)

/-- `write_error_response`. -/
def errorResponse (message : String) : List UInt8 :=
  let bytes := (utf8Bytes message).take maxErrorBytes
  tagged statusError ++ (leBytes 4 bytes.length ++ bytes)

/-! ### The server -/

/-- A connection served: the bytes written, how the handler ended, and the tier after it. -/
structure Connection (τ : Type) where
  written : List UInt8
  outcome : Except Fault Unit
  tier : τ

section

variable {τ : Type}

/-- A request that fails before anything is written. -/
def Connection.failed (fault : Fault) (tier : τ) : Connection τ := ⟨[], .error fault, tier⟩

/-- A request answered by a status alone, where the tier answers. -/
def Connection.simple : Except IoError Unit × τ → Connection τ
  | (.error error, tier) => .failed (.error error) tier
  | (.ok (), tier) => ⟨tagged statusOk, .ok (), tier⟩

/-- `handle_connection`, a request that begins with a key. -/
def withKey (limits : RemoteLimits) (input : List UInt8) (state : τ)
    (serve : KvBlockKey → List UInt8 → Connection τ) : Connection τ :=
  match readKey limits input with
  | .error fault => .failed fault state
  | .ok (key, rest) => serve key rest

/-- `handle_connection`, `OP_GET`. -/
def serveGet (tier : KvTier τ) (limits : RemoteLimits) (key : KvBlockKey) (state : τ) : Connection τ :=
  match tier.get key state with
  | (.error error, state) => .failed (.error error) state
  | (.ok (some entry), state) =>
      -- the status is on the stream when the body is encoded
      match writeEntryBody entry limits with
      | .error error => ⟨tagged statusOk, .error (.error error), state⟩
      | .ok body => ⟨tagged statusOk ++ body, .ok (), state⟩
  | (.ok none, state) => ⟨tagged statusMiss, .ok (), state⟩

/-- `handle_connection`, `OP_PUT`. -/
def servePut (tier : KvTier τ) (limits : RemoteLimits) (key : KvBlockKey) (input : List UInt8)
    (state : τ) : Connection τ :=
  match readRemoteEntry key limits input with
  | .error fault => .failed fault state
  | .ok (entry, _) => .simple (tier.put entry state)

/-- `handle_connection`, the closure. -/
def serveRequest (tier : KvTier τ) (limits : RemoteLimits) (request : List UInt8) (state : τ) :
    Connection τ :=
  match readRequestHeader request with
  | .error fault => .failed fault state
  | .ok (op, rest) =>
      if op = opGet then
        withKey limits rest state fun key _ => serveGet tier limits key state
      else if op = opPut then
        withKey limits rest state fun key input => servePut tier limits key input state
      else if op = opRemove then
        withKey limits rest state fun key _ => .simple (tier.remove key state)
      else if op = opClear then .simple (tier.clear state)
      else if op = opPing then .simple (tier.health state)
      else .failed (protocolError s!"unsupported remote opcode {op.toNat}") state

/-- `handle_connection`, after the closure: an error is told. -/
def Connection.told (served : Connection τ) : Connection τ :=
  match served.outcome with
  | .error (.error error) => { served with written := served.written ++ errorResponse error.message }
  | .error .panic => served
  | .ok () => served

/-- `handle_connection`. -/
def handleConnection (tier : KvTier τ) (limits : RemoteLimits) (request : List UInt8) (state : τ) :
    Connection τ :=
  (serveRequest tier limits request state).told

/-! ### The client -/

/-- What the client reads of a reply. -/
def received {α : Type} (reader : Reader Fault α) (reply : List UInt8) : Except Fault α :=
  match reader reply with
  | .error fault => .error fault
  | .ok (value, _) => .ok value

/-- `expect_simple_response`. -/
def expectSimpleResponse : Reader Fault Unit := do
  let status ← readStatus
  if status = statusOk then pure ()
  else if status = statusError then
    let error ← readRemoteError
    throw (.error error)
  else throw (protocolError s!"unexpected remote status {status.toNat}")

/-- `TcpKvTier::get`, the reply. -/
def readGetReply (key : KvBlockKey) (limits : RemoteLimits) : Reader Fault (Option KvTierEntry) := do
  let status ← readStatus
  if status = statusOk then
    let entry ← readRemoteEntry key limits
    pure (some entry)
  else if status = statusMiss then pure none
  else if status = statusError then
    let error ← readRemoteError
    throw (.error error)
  else throw (protocolError s!"invalid remote status {status.toNat}")

namespace TcpKvTier

variable (served : KvTier τ) (limits : RemoteLimits)

/-- Send a request, and read the reply. A request that fails while it is written leaves the server with
what was sent before. -/
def exchange {α : Type} (before : List UInt8) (body : Except IoError (List UInt8))
    (reader : Reader Fault α) (state : τ) : Except Fault α × τ :=
  match body with
  | .error error => (.error (.error error), (handleConnection served limits before state).tier)
  | .ok body =>
      let connection := handleConnection served limits (before ++ body) state
      (received reader connection.written, connection.tier)

/-- `get`. -/
def get (key : KvBlockKey) (state : τ) : Except Fault (Option KvTierEntry) × τ :=
  exchange served limits (tagged opGet) (writeKey key limits) (readGetReply key limits) state

/-- `put`. -/
def put (entry : KvTierEntry) (state : τ) : Except Fault Unit × τ :=
  if entry.block.bytes.bytes.length > limits.maxPayloadBytes then
    (.error (.error ⟨.invalidInput, "KV payload exceeds configured remote limit"⟩), state)
  else
    match writeKey entry.block.key limits with
    | .error error =>
        (.error (.error error), (handleConnection served limits (tagged opPut) state).tier)
    | .ok key =>
        exchange served limits (tagged opPut ++ key) (writeEntryBody entry limits)
          expectSimpleResponse state

/-- `remove`. -/
def remove (key : KvBlockKey) (state : τ) : Except Fault Unit × τ :=
  exchange served limits (tagged opRemove) (writeKey key limits) expectSimpleResponse state

/-- `clear`. -/
def clear (state : τ) : Except Fault Unit × τ :=
  exchange served limits (tagged opClear) (.ok []) expectSimpleResponse state

/-- `ping` and `health`. -/
def health (state : τ) : Except Fault Unit × τ :=
  exchange served limits (tagged opPing) (.ok []) expectSimpleResponse state

end TcpKvTier

end

end RivetCache
