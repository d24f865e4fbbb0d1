/-
**`kv.rs`: the keys of a token sequence, and the index of stored prefixes.**

A `KvCaptureRequest` cuts a token sequence into blocks; the key of a block holds a digest of all tokens
up to its end. The digest is SHA-256, a function of the bytes hashed.

A `PrefixIndex` lists which sequences were stored, and under which keys: a later registration of the same
sequence replaces an earlier one, and `longest_prefix` finds the longest one that a sequence begins with.
-/

import RivetCache.Kv.Model
import RivetCache.Library.LittleEndian

set_option linter.unusedSectionVars false

namespace RivetCache

open Library

/-! ### Keys -/

/-- A digest of bytes. -/
abbrev Digest := List UInt8 → Vector UInt8 32

/-- A digest that is always zero. -/
def zeroDigest : Digest := fun _ => Vector.replicate 32 0

/-- `KV_KEY_DOMAIN`. -/
def kvKeyDomain : List UInt8 := [82, 73, 86, 69, 84, 95, 75, 86, 95, 86, 49, 0]

/-- `KvBlockRange`. -/
structure KvBlockRange where
  blockIndex : UInt32
  tokenStart : UInt32
  tokenCount : UInt32
  layerStart : UInt32
  layerCount : UInt32
  layoutVersion : UInt32

/-- What `from_prefix` hashes. -/
def sequenceBytes (prefixTokens : List UInt32) : List UInt8 :=
  kvKeyDomain ++ leBytes 8 prefixTokens.length ++
    prefixTokens.flatMap fun token => leBytes 4 token.toNat

/-- `KvBlockKey::from_prefix`. -/
def KvBlockKey.fromPrefix (digest : Digest) (modelFingerprint : String)
    (prefixTokens : List UInt32) (range : KvBlockRange) : KvBlockKey where
  modelFingerprint := modelFingerprint
  sequenceHash := digest (sequenceBytes prefixTokens)
  blockIndex := range.blockIndex
  tokenStart := range.tokenStart
  tokenCount := range.tokenCount
  layerStart := range.layerStart
  layerCount := range.layerCount
  layoutVersion := range.layoutVersion

/-- `KvCaptureRequest`. -/
structure KvCaptureRequest where
  modelFingerprint : String
  tokens : List UInt32
  blockTokens : Nat
  layerStart : UInt32
  layerCount : UInt32
  layoutVersion : UInt32

namespace KvCaptureRequest

variable (digest : Digest) (request : KvCaptureRequest)

/-- Chunk number `index` of the tokens. -/
def chunk (index : Nat) : List UInt32 :=
  (request.tokens.drop (index * request.blockTokens)).take request.blockTokens

/-- `block_keys`, one round of the loop. -/
def blockKey (index : Nat) : KvBlockKey :=
  let tokenStart := satMul index request.blockTokens
  let prefixEnd := satAdd tokenStart (request.chunk index).length
  KvBlockKey.fromPrefix digest request.modelFingerprint (request.tokens.take prefixEnd)
    { blockIndex := UInt32.ofNat index
      tokenStart := UInt32.ofNat tokenStart
      tokenCount := UInt32.ofNat (request.chunk index).length
      layerStart := request.layerStart
      layerCount := request.layerCount
      layoutVersion := request.layoutVersion }

/-- How many blocks the tokens make. -/
def blockCount : Nat := (request.tokens.length + request.blockTokens - 1) / request.blockTokens

/-- `block_keys`. -/
def blockKeys : Except IoError (List KvBlockKey) :=
  if request.blockTokens = 0 then
    .error ⟨.invalidInput, "block_tokens must be greater than zero"⟩
  else if request.layerCount = 0 then
    .error ⟨.invalidInput, "layer_count must be greater than zero"⟩
  else if request.tokens.length > 2 ^ 32 - 1 then
    .error ⟨.invalidInput, "token sequence is too large for KV block identity"⟩
  else if request.blockCount > 2 ^ 32 - 1 then
    .error ⟨.invalidInput, "block count is too large for KV block identity"⟩
  else .ok ((List.range request.blockCount).map (request.blockKey digest))

end KvCaptureRequest

/-! ### The prefix index -/

/-- `PrefixRecord`. -/
structure PrefixRecord where
  modelFingerprint : String
  tokens : List UInt32
  blockKeys : List KvBlockKey
  deriving DecidableEq

/-- `PrefixMatch`. -/
structure PrefixMatch where
  matchedTokens : Nat
  blockKeys : List KvBlockKey
  deriving DecidableEq

/-- `PrefixIndex`. -/
abbrev PrefixIndex := List PrefixRecord

namespace PrefixIndex

/-- `register`. -/
def register (modelFingerprint : String) (tokens : List UInt32) (blockKeys : List KvBlockKey)
    (records : PrefixIndex) : Except IoError PrefixIndex :=
  if tokens.isEmpty || blockKeys.isEmpty then
    .error ⟨.invalidInput, "prefix records require tokens and block keys"⟩
  else if blockKeys.any fun key => key.modelFingerprint != modelFingerprint then
    .error ⟨.invalidInput, "prefix block keys must match the registered model fingerprint"⟩
  else
    .ok (records.filter (fun record =>
      record.modelFingerprint != modelFingerprint || record.tokens != tokens) ++
        [⟨modelFingerprint, tokens, blockKeys⟩])

/-- `max_by_key` over the lengths: the last of the longest. -/
def longest : List PrefixRecord → Option PrefixRecord → Option PrefixRecord
  | [], best => best
  | record :: rest, none => longest rest (some record)
  | record :: rest, some best =>
      longest rest (if best.tokens.length ≤ record.tokens.length then some record else some best)

/-- `longest_prefix`. -/
def longestPrefix (modelFingerprint : String) (tokens : List UInt32) (records : PrefixIndex) :
    Option PrefixMatch :=
  (longest (records.filter fun record =>
      record.modelFingerprint == modelFingerprint && record.tokens.isPrefixOf tokens) none).map
    fun record => ⟨record.tokens.length, record.blockKeys⟩

/-- `remove_model`: how many records it removes, and what it leaves. -/
def removeModel (modelFingerprint : String) (records : PrefixIndex) : Nat × PrefixIndex :=
  let left := records.filter fun record => record.modelFingerprint != modelFingerprint
  (records.length - left.length, left)

end PrefixIndex

end RivetCache
