/-
**`connectors.rs`: the envelope of the connectors.**

The Redis and the S3 tier write their entries in the same envelope as `ContextCacheTier`, with an
encoder and a decoder of their own: the checks of the decoder come in another order, its errors are
protocol errors, and it refuses what is above the value limit of the tier.

* `encodeEntry_same`, `decodeEntry_same`: within the limit, the two pairs do the same;
* `envelopes_agree`: so both are the same bijection between entries and envelopes.
-/

import RivetCache.Connectors.Redis
import RivetCache.Kv.Envelope
import RivetCache.Kv.Tier

set_option linter.unusedSectionVars false

namespace RivetCache

open Library

namespace Connectors

/-- `KV_ENVELOPE_MAGIC`: `RKV01` and a line feed. -/
def kvEnvelopeMagic : List UInt8 := [82, 75, 86, 48, 49, 10]

/-- `encode_entry`. -/
def encodeEntry (entry : KvTierEntry) : Except IoError (List UInt8) :=
  if entry.block.bytes.bytes.isEmpty then
    .error ⟨.invalidInput, "KV entry payload must not be empty"⟩
  else
    .ok (kvEnvelopeMagic ++ (leBytes 8 entry.expiresAt.toNat ++
      ((if entry.pinned then 1 else 0) ::
        (leBytes 8 entry.block.bytes.bytes.length ++ entry.block.bytes.bytes))))

/-- `read_u64`: the number at the cursor, and the cursor after it. -/
def readU64 (bytes : List UInt8) (cursor : Nat) : Except IoError (UInt64 × Nat) :=
  readNumber (connectorError "KV envelope truncated") bytes cursor

/-- `decode_entry`, the pin flag. -/
def readPinned (bytes : List UInt8) (cursor : Nat) : Except IoError Bool :=
  readFlag (connectorError "KV envelope pin flag is invalid") bytes cursor

/-- `decode_entry`, the block, where the payload has the length announced. -/
def readBlock (key : KvBlockKey) (bytes : List UInt8) (cursor : Nat) (length : UInt64) :
    Except IoError KvBlock :=
  if same : length ≠ 0 ∧ (bytes.drop cursor).length = length.toNat then
    KvBlock.new key ⟨bytes.drop cursor, same.2 ▸ length.toNat_lt⟩
  else .error (connectorError "KV envelope payload length mismatch")

/-- `decode_entry`. A `u64` is a `usize`. -/
def decodeEntry (key : KvBlockKey) (encoded : List UInt8) (maxValueBytes : Nat) :
    Except IoError KvTierEntry :=
  if encoded.length > maxValueBytes ∨ encoded.length < kvEnvelopeMagic.length + 17 then
    .error (connectorError "KV envelope size is invalid")
  else if encoded.take kvEnvelopeMagic.length ≠ kvEnvelopeMagic then
    .error (connectorError "KV envelope magic mismatch")
  else do
    let (expiresAt, cursor) ← readU64 encoded kvEnvelopeMagic.length
    let pinned ← readPinned encoded cursor
    let (length, cursor) ← readU64 encoded (cursor + 1)
    let block ← readBlock key encoded cursor length
    .ok ⟨block, expiresAt, pinned⟩

/-! ### The same results -/

/-- The two encoders. -/
theorem encodeEntry_same (entry : KvTierEntry) :
    (encodeEntry entry).toOption = (encodeTierEntry entry).toOption := by
  unfold encodeEntry encodeTierEntry
  split <;> rfl

theorem readU64_same (bytes : List UInt8) (cursor : Nat) :
    (readU64 bytes cursor).toOption = (RivetCache.readU64 bytes cursor).toOption :=
  readNumber_same bytes cursor

theorem readPinned_same (bytes : List UInt8) (cursor : Nat) :
    (readPinned bytes cursor).toOption = (RivetCache.readPinned bytes cursor).toOption :=
  readFlag_same bytes cursor

/-- The entry: a payload whose length is not zero makes a block that `KvBlock::new` accepts. -/
theorem readBlock_same (key : KvBlockKey) (bytes : List UInt8) (cursor : Nat) (length expiresAt : UInt64)
    (pinned : Bool) :
    (do let block ← readBlock key bytes cursor length
        Except.ok (⟨block, expiresAt, pinned⟩ : KvTierEntry)).toOption =
      (do let payload ← readPayload bytes cursor length
          Except.ok (⟨⟨key, payload⟩, expiresAt, pinned⟩ : KvTierEntry)).toOption := by
  unfold readBlock readPayload
  by_cases same : (bytes.drop cursor).length = length.toNat ∧ length ≠ 0
  · rw [dif_pos same.symm, dif_pos same]
    have filled : (bytes.drop cursor).isEmpty = false := by
      rw [List.isEmpty_eq_false_iff]
      intro empty
      rw [empty] at same
      exact same.2 (UInt64.toNat.inj same.1.symm)
    unfold KvBlock.new
    rw [if_neg (by rw [filled]; exact Bool.false_ne_true)]
    rfl
  · rw [dif_neg (fun also => same also.symm), dif_neg same]
    rfl

/-- **The two decoders**, within the limit. -/
theorem decodeEntry_same (key : KvBlockKey) {encoded : List UInt8} {maxValueBytes : Nat}
    (fits : encoded.length ≤ maxValueBytes) :
    (decodeEntry key encoded maxValueBytes).toOption = (decodeTierEntry key encoded).toOption := by
  unfold decodeEntry decodeTierEntry
  by_cases few : encoded.length < kvEnvelopeMagic.length + 17
  · rw [if_pos (Or.inr few),
      if_pos (show encoded.length < tierEnvelopeMagic.length + 8 + 1 + 8 ∨ _ from Or.inl few)]
    rfl
  · have sized : ¬(encoded.length > maxValueBytes ∨ encoded.length < kvEnvelopeMagic.length + 17) := by
      rintro (above | below)
      · omega
      · exact few below
    rw [if_neg sized]
    by_cases magic : encoded.take kvEnvelopeMagic.length = kvEnvelopeMagic
    · have sound : ¬(encoded.length < tierEnvelopeMagic.length + 8 + 1 + 8 ∨
          encoded.take tierEnvelopeMagic.length ≠ tierEnvelopeMagic) := by
        rintro (below | wrong)
        · exact few below
        · exact wrong magic
      rw [if_neg (fun wrong => wrong magic), if_neg sound]
      refine toOption_bind_congr (readU64_same encoded _) ?_
      rintro ⟨expiresAt, cursor⟩
      refine toOption_bind_congr (readPinned_same encoded cursor) fun pinned => ?_
      refine toOption_bind_congr (readU64_same encoded _) ?_
      rintro ⟨length, cursor⟩
      exact readBlock_same key encoded cursor length expiresAt pinned
    · rw [if_pos magic, if_pos (show _ ∨ encoded.take tierEnvelopeMagic.length ≠ tierEnvelopeMagic from
        Or.inr magic)]
      rfl

/-- What the connectors decode is what `decode_tier_entry` decodes. -/
theorem decodeEntry_ok {key : KvBlockKey} {encoded : List UInt8} {maxValueBytes : Nat}
    (fits : encoded.length ≤ maxValueBytes) {entry : KvTierEntry} :
    decodeEntry key encoded maxValueBytes = .ok entry ↔ decodeTierEntry key encoded = .ok entry := by
  rw [← toOption_eq_some, ← toOption_eq_some, decodeEntry_same key fits]

/-- What the connectors encode is what `encode_tier_entry` encodes. -/
theorem encodeEntry_ok {entry : KvTierEntry} {encoded : List UInt8} :
    encodeEntry entry = .ok encoded ↔ encodeTierEntry entry = .ok encoded := by
  rw [← toOption_eq_some, ← toOption_eq_some, encodeEntry_same]

/-! ### One bijection -/

/-- **The two implementations are the same bijection.** The encoders fail together or write the same
bytes; within the limit the decoders refuse together or read the same entry; an entry with a payload is
read back from its envelope; and what is read was written so. -/
theorem envelopes_agree (entry : KvTierEntry) (key : KvBlockKey) {encoded : List UInt8}
    {maxValueBytes : Nat} (fits : encoded.length ≤ maxValueBytes) :
    (encodeTierEntry entry).toOption = (encodeEntry entry).toOption ∧
    (decodeTierEntry key encoded).toOption = (decodeEntry key encoded maxValueBytes).toOption ∧
    (entry.block.bytes.bytes ≠ [] → ∃ bytes, encodeTierEntry entry = .ok bytes ∧
      encodeEntry entry = .ok bytes ∧ decodeTierEntry entry.block.key bytes = .ok entry ∧
        ∀ limit, bytes.length ≤ limit → decodeEntry entry.block.key bytes limit = .ok entry) ∧
    (∀ read, decodeTierEntry key encoded = .ok read ∨ decodeEntry key encoded maxValueBytes = .ok read →
      read.block.key = key ∧ encodeTierEntry read = .ok encoded ∧ encodeEntry read = .ok encoded) := by
  refine ⟨(encodeEntry_same entry).symm, (decodeEntry_same key fits).symm, fun filled => ?_,
    fun read accepted => ?_⟩
  · have written := encodeTierEntry_ok.mpr ⟨filled, rfl⟩
    have back := decode_encode written
    exact ⟨_, written, encodeEntry_ok.mpr written, back, fun limit within =>
      (decodeEntry_ok within).mpr back⟩
  · have decoded : decodeTierEntry key encoded = .ok read := by
      rcases accepted with here | there
      · exact here
      · exact (decodeEntry_ok fits).mp there
    obtain ⟨named, written⟩ := encode_decode decoded
    exact ⟨named, written, encodeEntry_ok.mpr written⟩

/-- An envelope of one byte, pinned. -/
theorem envelopes_agree_sample :
    decodeEntry KvBlockKey.sample
        ([82, 75, 86, 48, 49, 10, 9, 0, 0, 0, 0, 0, 0, 0, 1, 1, 0, 0, 0, 0, 0, 0, 0, 7]) 24 =
      .ok ⟨KvBlock.sample 7, 9, true⟩ ∧
    encodeEntry ⟨KvBlock.sample 7, 9, true⟩ =
      .ok [82, 75, 86, 48, 49, 10, 9, 0, 0, 0, 0, 0, 0, 0, 1, 1, 0, 0, 0, 0, 0, 0, 0, 7] := by
  have short : ([82, 75, 86, 48, 49, 10, 9, 0, 0, 0, 0, 0, 0, 0, 1, 1, 0, 0, 0, 0, 0, 0, 0, 7] :
      List UInt8).length ≤ 24 := Nat.le_refl 24
  have agree := envelopes_agree ⟨KvBlock.sample 7, 9, true⟩ KvBlockKey.sample short
  have decoded : decodeTierEntry KvBlockKey.sample
      [82, 75, 86, 48, 49, 10, 9, 0, 0, 0, 0, 0, 0, 0, 1, 1, 0, 0, 0, 0, 0, 0, 0, 7] =
        .ok ⟨KvBlock.sample 7, 9, true⟩ := rfl
  exact ⟨(decodeEntry_ok (Nat.le_refl 24)).mpr decoded, (agree.2.2.2 _ (Or.inl decoded)).2.2⟩

end Connectors

end RivetCache
