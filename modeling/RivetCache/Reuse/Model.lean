/-
**`reuse.rs`: the index of segments.**

A `SegmentIndex` lists token sequences under the keys of their blocks. `best_segment` looks for a part of a
query that was stored: in each record of the model it takes the longest common substring of the query and
the tokens, keeps the complete blocks inside it, and answers the best of what is left.

A `SegmentRecord` carries the check it was registered under: every index that `register` and
`remove_model` can build is a list of such records.
-/

import RivetCache.Kv.Model

set_option linter.unusedSectionVars false

namespace RivetCache

open Library

/-- A `Vec<u32>`, or a slice of one: its length is a `usize`. -/
abbrev Tokens := {tokens : List UInt32 // tokens.length < 2 ^ 64}

/-- `ReuseSpan`. -/
structure ReuseSpan where
  queryStart : Nat
  sourceStart : Nat
  matchedTokens : Nat
  sourceKeys : List KvBlockKey
  deriving DecidableEq

/-- `u32::saturating_add`. -/
def satAddU32 (left right : UInt32) : UInt32 := UInt32.ofNat (min (left.toNat + right.toNat) (2 ^ 32 - 1))

/-! ### Records -/

/-- `validate_record`, the loop over the keys. -/
def validateKeys (modelFingerprint : String) (tokens : Tokens) (first : KvBlockKey) :
    UInt32 → List KvBlockKey → Except IoError Unit
  | _, [] => .ok ()
  | expectedStart, key :: rest =>
      if key.modelFingerprint ≠ modelFingerprint ∨ key.tokenCount = 0 ∨ key.layerCount = 0 ∨
          key.layerStart ≠ first.layerStart ∨ key.layerCount ≠ first.layerCount ∨
          key.layoutVersion ≠ first.layoutVersion ∨ key.tokenStart ≠ expectedStart then
        .error ⟨.invalidInput,
          "segment block keys must be contiguous and share model/layer/layout identity"⟩
      else if satAdd key.tokenStart.toNat key.tokenCount.toNat > tokens.val.length then
        .error ⟨.invalidInput, "segment block key exceeds registered token sequence"⟩
      else
        validateKeys modelFingerprint tokens first (satAddU32 key.tokenStart key.tokenCount) rest

/-- `validate_record`. -/
def validateRecord (modelFingerprint : String) (tokens : Tokens) (blockKeys : List KvBlockKey) :
    Except IoError Unit :=
  if isBlank modelFingerprint || tokens.val.isEmpty then
    .error ⟨.invalidInput, "segment records require a model fingerprint, tokens, and block keys"⟩
  else
    match blockKeys with
    | [] =>
        .error ⟨.invalidInput, "segment records require a model fingerprint, tokens, and block keys"⟩
    | first :: rest => validateKeys modelFingerprint tokens first first.tokenStart (first :: rest)

/-- `SegmentRecord`: what `validate_record` accepts. -/
structure SegmentRecord where
  modelFingerprint : String
  tokens : Tokens
  blockKeys : List KvBlockKey
  valid : validateRecord modelFingerprint tokens blockKeys = .ok ()
  deriving DecidableEq

/-! ### The longest common substring -/

/-- `RawMatch`. -/
structure RawMatch where
  queryStart : Nat
  sourceStart : Nat
  len : Nat
  deriving DecidableEq

/-- `longest_common_substring`, the loop over the source: `sourceIndex` is the position of what is left of
it, `current` the row being filled. -/
def scanSource (previous : List Nat) (queryIndex : Nat) (queryToken : UInt32) :
    List UInt32 → Nat → List Nat → RawMatch → List Nat × RawMatch
  | [], _, current, best => (current, best)
  | sourceToken :: rest, sourceIndex, current, best =>
      if queryToken = sourceToken then
        let len := satAdd (previous.getD sourceIndex 0) 1
        scanSource previous queryIndex queryToken rest (sourceIndex + 1)
          (current.set (sourceIndex + 1) len)
          (if len > best.len then ⟨queryIndex + 1 - len, sourceIndex + 1 - len, len⟩ else best)
      else scanSource previous queryIndex queryToken rest (sourceIndex + 1) current best

/-- `longest_common_substring`, the loop over the query. -/
def scanQuery (source : List UInt32) : List UInt32 → Nat → List Nat → RawMatch → RawMatch
  | [], _, _, best => best
  | queryToken :: rest, queryIndex, previous, best =>
      let row := scanSource previous queryIndex queryToken source 0
        (List.replicate (source.length + 1) 0) best
      scanQuery source rest (queryIndex + 1) row.1 row.2

/-- `longest_common_substring`. -/
def longestCommonSubstring (query source : List UInt32) : Option RawMatch :=
  if query.isEmpty || source.isEmpty then none
  else
    let best := scanQuery source query 0 (List.replicate (source.length + 1) 0) ⟨0, 0, 0⟩
    if best.len > 0 then some best else none

/-! ### Complete blocks -/

/-- The order of `sort_by_key` on the first token. -/
def startsBefore (left right : KvBlockKey) : Prop := left.tokenStart ≤ right.tokenStart

instance : DecidableRel startsBefore := fun left right =>
  inferInstanceAs (Decidable (left.tokenStart ≤ right.tokenStart))

/-- `align_to_blocks`, the blocks inside the match. -/
def blocksInside (low high : Nat) (keys : List KvBlockKey) : List KvBlockKey :=
  keys.filter fun key =>
    decide (key.tokenStart.toNat ≥ low) &&
      decide (satAdd key.tokenStart.toNat key.tokenCount.toNat ≤ high)

/-- `align_to_blocks`, the loop: blocks are taken while each starts where the one before it ends. -/
def takeContiguous : Nat → List KvBlockKey → List KvBlockKey
  | _, [] => []
  | expected, key :: rest =>
      if key.tokenStart.toNat ≠ expected then []
      else key :: takeContiguous (satAdd expected key.tokenCount.toNat) rest

/-- `align_to_blocks`. -/
def alignToBlocks (record : SegmentRecord) (raw : RawMatch) : Option ReuseSpan :=
  -- `checked_add`
  if raw.sourceStart + raw.len > u64Max then none
  else
    let keys := (blocksInside raw.sourceStart (raw.sourceStart + raw.len) record.blockKeys).insertionSort
      startsBefore
    match keys with
    | [] => none
    | first :: _ =>
        let contiguous := takeContiguous first.tokenStart.toNat keys
        match contiguous.head?, contiguous.getLast? with
        | some first, some last =>
            let sourceStart := first.tokenStart.toNat
            let sourceEnd := last.tokenStart.toNat + last.tokenCount.toNat
            some
              { queryStart := satAdd raw.queryStart (sourceStart - raw.sourceStart)
                sourceStart
                matchedTokens := sourceEnd - sourceStart
                sourceKeys := contiguous }
        | _, _ => none

/-! ### The index -/

/-- `SegmentIndex`. -/
abbrev SegmentIndex := List SegmentRecord

/-- `best_segment`, whether a span replaces the best one so far. -/
def ReuseSpan.replaces (span : ReuseSpan) : Option ReuseSpan → Bool
  | none => true
  | some current =>
      decide (span.matchedTokens > current.matchedTokens) ||
        (span.matchedTokens == current.matchedTokens &&
          decide (span.queryStart < current.queryStart))

namespace SegmentIndex

/-- `register`. -/
def register (modelFingerprint : String) (tokens : Tokens) (blockKeys : List KvBlockKey)
    (records : SegmentIndex) : Except IoError SegmentIndex :=
  match valid : validateRecord modelFingerprint tokens blockKeys with
  | .error error => .error error
  | .ok () =>
      .ok (records.filter (fun record =>
        record.modelFingerprint != modelFingerprint || record.tokens != tokens) ++
          [⟨modelFingerprint, tokens, blockKeys, valid⟩])

/-- `best_segment`, the body of the loop. -/
def consider (queryTokens : Tokens) (minMatchTokens : Nat) (best : Option ReuseSpan)
    (record : SegmentRecord) : Option ReuseSpan :=
  match longestCommonSubstring queryTokens.val record.tokens.val with
  | none => best
  | some raw =>
      if raw.len < minMatchTokens then best
      else
        match alignToBlocks record raw with
        | none => best
        | some aligned =>
            if aligned.matchedTokens < minMatchTokens then best
            else if aligned.replaces best then some aligned
            else best

/-- `best_segment`. -/
def bestSegment (modelFingerprint : String) (queryTokens : Tokens) (minMatchTokens : Nat)
    (records : SegmentIndex) : Except IoError (Option ReuseSpan) :=
  if minMatchTokens = 0 then
    .error ⟨.invalidInput, "min_match_tokens must be greater than zero"⟩
  else if queryTokens.val.isEmpty then .ok none
  else
    .ok ((records.filter fun record => record.modelFingerprint == modelFingerprint).foldl
      (consider queryTokens minMatchTokens) none)

/-- `remove_model`: how many records it removes, and what it leaves. -/
def removeModel (modelFingerprint : String) (records : SegmentIndex) : Nat × SegmentIndex :=
  let left := records.filter fun record => record.modelFingerprint != modelFingerprint
  (records.length - left.length, left)

end SegmentIndex

end RivetCache
