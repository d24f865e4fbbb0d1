/-
**`codec.rs`: a tier that keeps its payloads encoded.**

A payload is written as a frame: a magic, the name of the codec, the length of the payload and its
digest, and what the codec made of it. A frame is read with the codec it names, out of a registry
that has one codec for each name.

A vector of more than `isize::MAX` bytes is a panic (`vecOf`); any other allocation succeeds. The
lock of a registry is never poisoned.
-/

import RivetCache.Kv.Prefix
import RivetCache.Library.Fallible
import RivetCache.Library.Reader
import RivetCache.Library.RunLength
import RivetCache.Library.Table

set_option linter.unusedSectionVars false

namespace RivetCache

open Library

/-! ### Panics -/

/-- The result is no panic. -/
def Safe {α : Type} (result : Except Fault α) : Prop := result ≠ .error .panic

/-- A sequence does not panic where its parts do not. -/
theorem Safe.bind {α β : Type} {first : Except Fault α} {next : α → Except Fault β} (safe : Safe first)
    (after : ∀ value, first = .ok value → Safe (next value)) : Safe (first >>= next) := by
  intro panics
  rcases bind_eq_error.mp panics with here | ⟨value, same, later⟩
  · exact safe here
  · exact after value same later

theorem safe_ok {α : Type} (value : α) : Safe (.ok value : Except Fault α) :=
  fun panics => by cases panics

theorem safe_refused {α : Type} (error : IoError) : Safe (.error (.error error) : Except Fault α) :=
  fun panics => by cases panics

/-! ### Vectors -/

/-- A vector of some bytes. -/
def vecOf (bytes : List UInt8) : Except Fault Payload :=
  if short : bytes.length ≤ isizeMax then
    .ok ⟨bytes, Nat.lt_of_le_of_lt short (by decide)⟩
  else .error .panic

/-- A payload without its first bytes. -/
def Payload.drop (n : Nat) (payload : Payload) : Payload where
  bytes := payload.bytes.drop n
  short := by
    have size := payload.short
    rw [List.length_drop]
    omega

/-! ### Codecs -/

/-- `PayloadCodec`. -/
structure PayloadCodec where
  name : String
  encode : Payload → Except Fault Payload
  decode : Payload → UInt64 → Nat → Except Fault Payload

/-- An error of the kind `InvalidData`. -/
def invalidFrame {α : Type} (message : String) : Except Fault α :=
  .error (.error ⟨.invalidData, message⟩)

/-- `IdentityCodec`. -/
def identityCodec : PayloadCodec where
  name := "identity"
  encode := fun input => .ok input
  decode := fun input expectedLen maxOutput =>
    if expectedLen.toNat > maxOutput ∨ input.bytes.length ≠ expectedLen.toNat then
      invalidFrame "identity payload length is invalid"
    else .ok input

/-- The pairs of a length and a byte that `RleCodec` writes. -/
def rlePairs (cut : List (Nat × UInt8)) : List UInt8 :=
  cut.flatMap fun run => [UInt8.ofNat run.1, run.2]

/-- `RleCodec::encode`. A run has at most 255 bytes. -/
def rleEncode (input : Payload) : Except Fault Payload :=
  if input.bytes.isEmpty then vecOf []
  else if input.bytes.length > isizeMax then .error .panic
  else vecOf (rlePairs (runs 254 input.bytes.length input.bytes))

/-- `RleCodec::decode`, the loop over the pairs. -/
def rleExpand (expectedLen : Nat) : List UInt8 → List UInt8 → Except Fault (List UInt8)
  | output, run :: byte :: rest =>
      if run.toNat = 0 ∨ satAdd output.length run.toNat > expectedLen then
        invalidFrame "RLE run exceeds the declared output size"
      else rleExpand expectedLen (output ++ List.replicate run.toNat byte) rest
  | output, _ => .ok output

/-- `RleCodec::decode`, the check of the length. -/
def rleOutput (expectedLen : UInt64) (output : List UInt8) : Except Fault Payload :=
  if same : output.length = expectedLen.toNat then .ok ⟨output, same ▸ expectedLen.toNat_lt⟩
  else invalidFrame "RLE decoded length does not match the frame"

/-- `RleCodec::decode`. -/
def rleDecode (input : Payload) (expectedLen : UInt64) (maxOutput : Nat) : Except Fault Payload :=
  if expectedLen.toNat > maxOutput ∨ input.bytes.length % 2 ≠ 0 then
    invalidFrame "RLE payload framing is invalid"
  else if min expectedLen.toNat maxOutput > isizeMax then .error .panic
  else do
    let output ← rleExpand expectedLen.toNat [] input.bytes
    rleOutput expectedLen output

/-- `RleCodec`. -/
def rleCodec : PayloadCodec where
  name := "rle-v1"
  encode := rleEncode
  decode := rleDecode

/-! ### The registry -/

/-- A byte of a codec name: a letter, a digit, `-`, `_` or `.`. -/
def identifierByte (byte : UInt8) : Bool :=
  (decide (48 ≤ byte) && decide (byte ≤ 57)) || (decide (65 ≤ byte) && decide (byte ≤ 90)) ||
    (decide (97 ≤ byte) && decide (byte ≤ 122)) || byte == 45 || byte == 95 || byte == 46

/-- The test of `validate_name`. -/
def validName (name : String) : Bool :=
  !(utf8Bytes name).isEmpty && decide ((utf8Bytes name).length ≤ 128) &&
    (utf8Bytes name).all identifierByte

/-- `validate_name`. -/
def validateName (name : String) : Except IoError Unit :=
  if validName name then .ok ()
  else .error ⟨.invalidInput, "codec names must be 1-128 ASCII identifier characters"⟩

/-- `CodecRegistry`: a codec stands under its name, which is valid. -/
structure CodecRegistry where
  codecs : Table String PayloadCodec
  named : ∀ name codec, codecs.lookup name = some codec → codec.name = name
  valid : ∀ name codec, codecs.lookup name = some codec → validName name = true

namespace CodecRegistry

/-- `CodecRegistry::new`. -/
def empty : CodecRegistry where
  codecs := ∅
  named _ _ present := by simp at present
  valid _ _ present := by simp at present

/-- `register`, the insertion. -/
def insert (registry : CodecRegistry) (codec : PayloadCodec) (fine : validName codec.name = true) :
    CodecRegistry where
  codecs := registry.codecs.insert codec.name codec
  named name stored present := by
    rw [lookup_insert_eq] at present
    split at present
    case isTrue same =>
      cases present
      exact same.symm
    case isFalse => exact registry.named name stored present
  valid name stored present := by
    rw [lookup_insert_eq] at present
    split at present
    case isTrue same => rwa [same]
    case isFalse => exact registry.valid name stored present

/-- `CodecRegistry::register`. -/
def register (registry : CodecRegistry) (codec : PayloadCodec) : Except IoError CodecRegistry :=
  if fine : validName codec.name = true then
    if (registry.codecs.lookup codec.name).isSome then
      .error ⟨.alreadyExists, s!"codec {codec.name} is already registered"⟩
    else .ok (registry.insert codec fine)
  else .error ⟨.invalidInput, "codec names must be 1-128 ASCII identifier characters"⟩

/-- `CodecRegistry::with_builtins`. -/
def withBuiltins : Except IoError CodecRegistry := do
  let registry ← empty.register identityCodec
  registry.register rleCodec

/-- `CodecRegistry::get`. -/
def get (registry : CodecRegistry) (name : String) : Option PayloadCodec :=
  registry.codecs.lookup name

end CodecRegistry

/-! ### Frames -/

/-- `FRAME_MAGIC`: `RKC01` and a line feed. -/
def frameMagic : List UInt8 := [82, 75, 67, 48, 49, 10]

/-- The bytes of a frame. -/
def frameBytes (digest : Digest) (name : String) (input encoded : List UInt8) : List UInt8 :=
  frameMagic ++ (leBytes 2 (utf8Bytes name).length ++ (utf8Bytes name ++
    (leBytes 8 input.length ++ ((digest input).toList ++ encoded))))

/-- `encode_frame`. -/
def encodeFrame (digest : Digest) (codec : PayloadCodec) (input : Payload) :
    Except Fault Payload :=
  if input.bytes.isEmpty then
    .error (.error ⟨.invalidInput, "codec frame payload must not be empty"⟩)
  else
    match validateName codec.name with
    | .error error => .error (.error error)
    | .ok () =>
        if (utf8Bytes codec.name).length > 65535 then
          .error (.error ⟨.invalidInput, "codec name is too long"⟩)
        else do
          let encoded ← codec.encode input
          vecOf (frameBytes digest codec.name input.bytes encoded.bytes)

/-- `read_u16` and `read_u64` of `codec.rs`: a number of so many bytes, and the cursor after it. -/
def readFrameNumber (width : Nat) (bytes : List UInt8) (cursor : Nat) : Except Fault (Nat × Nat) :=
  if satAdd cursor width ≤ bytes.length then
    .ok (ofLeBytes ((bytes.drop cursor).take (satAdd cursor width - cursor)), satAdd cursor width)
  else .error (.error ⟨.unexpectedEof, "codec frame truncated"⟩)

/-- `decode_frame`, from the digest on. -/
def decodeDigested (digest : Digest) (codec : PayloadCodec) (frame : Payload) (cursor : Nat)
    (expectedLen : Nat) (maxDecodedBytes : Nat) : Except Fault Payload := do
  let decoded ← codec.decode (frame.drop (cursor + 32)) (UInt64.ofNat expectedLen) maxDecodedBytes
  if (digest decoded.bytes).toList = (frame.bytes.drop cursor).take 32 then .ok decoded
  else invalidFrame "decoded payload checksum mismatch"

/-- `decode_frame`, from the length of the payload on. -/
def decodeNamed (digest : Digest) (registry : CodecRegistry) (name : String) (frame : Payload)
    (cursor : Nat) (maxDecodedBytes : Nat) : Except Fault Payload := do
  let (expectedLen, cursor) ← readFrameNumber 8 frame.bytes cursor
  if expectedLen = 0 ∨ expectedLen > maxDecodedBytes ∨ frame.bytes.length - cursor < 32 then
    invalidFrame "decoded payload exceeds configured limit"
  else
    match registry.get name with
    | none => .error (.error ⟨.unsupported, s!"codec {name} is not registered"⟩)
    | some codec => decodeDigested digest codec frame cursor expectedLen maxDecodedBytes

/-- `decode_frame`. -/
def decodeFrame (digest : Digest) (registry : CodecRegistry) (frame : Payload)
    (maxDecodedBytes : Nat) : Except Fault Payload :=
  if frame.bytes.length < frameMagic.length + 2 + 8 + 32 ∨
      frame.bytes.take frameMagic.length ≠ frameMagic then
    invalidFrame "invalid codec frame"
  else do
    let (nameLen, cursor) ← readFrameNumber 2 frame.bytes frameMagic.length
    if nameLen = 0 ∨ frame.bytes.length - cursor < nameLen + 8 + 32 then
      invalidFrame "invalid codec name length"
    else
      match fromUtf8 ((frame.bytes.drop cursor).take nameLen) with
      | none => invalidFrame "codec name is not UTF-8"
      | some name => decodeNamed digest registry name frame (cursor + nameLen) maxDecodedBytes

/-! ### The tier -/

/-- `CodecKvTier`. -/
structure CodecKvTier (τ : Type) where
  name : String
  inner : KvTier τ
  registry : CodecRegistry
  writeCodec : String
  maxDecodedBytes : Nat

namespace CodecKvTier

variable {τ : Type}

/-- `CodecKvTier::new`. -/
def new (name : String) (inner : KvTier τ) (registry : CodecRegistry) (writeCodec : String)
    (maxDecodedBytes : Nat) : Except IoError (CodecKvTier τ) :=
  if isBlank name ∨ maxDecodedBytes = 0 then
    .error ⟨.invalidInput, "codec tier requires a name and non-zero decode limit"⟩
  else if (registry.get writeCodec).isNone then
    .error ⟨.notFound, s!"write codec {writeCodec} is not registered"⟩
  else .ok ⟨name, inner, registry, writeCodec, maxDecodedBytes⟩

variable (digest : Digest) (tier : CodecKvTier τ)

/-- `get`, the entry read. -/
def unframe (entry : KvTierEntry) : Except Fault KvTierEntry := do
  let bytes ← decodeFrame digest tier.registry entry.block.bytes tier.maxDecodedBytes
  match KvBlock.new entry.block.key bytes with
  | .error error => .error (.error error)
  | .ok block => .ok ⟨block, entry.expiresAt, entry.pinned⟩

/-- `get`. -/
def get (key : KvBlockKey) (state : τ) : Except Fault (Option KvTierEntry) × τ :=
  match tier.inner.get key state with
  | (.error error, state) => (.error (.error error), state)
  | (.ok none, state) => (.ok none, state)
  | (.ok (some entry), state) => ((tier.unframe digest entry).map some, state)

/-- `put`, the entry written. -/
def framed (entry : KvTierEntry) : Except Fault KvTierEntry :=
  match tier.registry.get tier.writeCodec with
  | none => .error (.error ⟨.notFound, "configured write codec disappeared"⟩)
  | some codec => do
      let frame ← encodeFrame digest codec entry.block.bytes
      match KvBlock.new entry.block.key frame with
      | .error error => .error (.error error)
      | .ok block => .ok ⟨block, entry.expiresAt, entry.pinned⟩

/-- `put`. -/
def put (entry : KvTierEntry) (state : τ) : Except Fault Unit × τ :=
  match tier.framed digest entry with
  | .error fault => (.error fault, state)
  | .ok encoded =>
      match tier.inner.put encoded state with
      | (.error error, state) => (.error (.error error), state)
      | (.ok (), state) => (.ok (), state)

end CodecKvTier

end RivetCache
