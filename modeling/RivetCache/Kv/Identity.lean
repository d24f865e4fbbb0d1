/-
**Cache keys are derived without confusion.**

A cache key is the digest of an encoding: of the fields of a block key (`KvBlockKey::cache_key`), or of
a namespace, a model and a payload (`Sha256KeyStrategy::make_key`). Texts stand behind their length,
numbers have a fixed width, and the two encodings begin with different domains.

* `hashed_inj`: the encoding determines the identity;
* `hashed_ne_sequenceBytes`: the encoding of a block key is not the one of a token sequence, whose
  domain it shares: their lengths would differ;
* `cacheKey_injOn`: where the digest has no collision, different identities have different cache keys.
-/

import RivetCache.Kv.Key

set_option linter.unusedSectionVars false

namespace RivetCache

open Library

/-! ### Token sequences -/

/-- A token in four bytes. -/
theorem tokenBytes_injective : Function.Injective fun token : UInt32 => leBytes 4 token.toNat := by
  intro first second same
  exact UInt32.toNat.inj (leBytes_inj first.toNat_lt second.toNat_lt same)

/-- **The bytes determine the tokens.** -/
theorem sequenceBytes_inj {first second : List UInt32} (firstShort : first.length < 2 ^ 64)
    (secondShort : second.length < 2 ^ 64) (same : sequenceBytes first = sequenceBytes second) :
    first = second := by
  unfold sequenceBytes at same
  rw [List.append_assoc, List.append_assoc] at same
  obtain ⟨_, fields⟩ := List.append_inj same rfl
  obtain ⟨lengths, tokens⟩ := leBytes_append_inj (by omega) (by omega) fields
  exact flatMap_inj (fun _ => leBytes_length 4 _) tokenBytes_injective lengths tokens

theorem sequenceBytes_length (tokens : List UInt32) :
    (sequenceBytes tokens).length = 20 + 4 * tokens.length := by
  have words : (tokens.flatMap fun token => leBytes 4 token.toNat).length = 4 * tokens.length := by
    induction tokens with
    | nil => rfl
    | cons token rest ih =>
        rw [List.flatMap_cons, List.length_append, leBytes_length, ih, List.length_cons]
        omega
  unfold sequenceBytes
  rw [List.length_append, List.length_append, leBytes_length, words]
  rfl

/-! ### Block keys -/

namespace KvBlockKey

/-- What `cache_key` hashes behind the model: 56 bytes. -/
def fields (key : KvBlockKey) : List UInt8 :=
  key.sequenceHash.toList ++ (leBytes 4 key.blockIndex.toNat ++ (leBytes 4 key.tokenStart.toNat ++
    (leBytes 4 key.tokenCount.toNat ++ (leBytes 4 key.layerStart.toNat ++
      (leBytes 4 key.layerCount.toNat ++ leBytes 4 key.layoutVersion.toNat)))))

theorem fields_length (key : KvBlockKey) : key.fields.length = 56 := by
  unfold fields
  simp only [List.length_append, leBytes_length, Vector.length_toList]

theorem hashed_eq (key : KvBlockKey) :
    key.hashed = kvKeyDomain ++ (lengthPrefixed (utf8Bytes key.modelFingerprint) ++ key.fields) := by
  unfold hashed fields lengthPrefixed
  simp only [List.append_assoc]

/-- Keys of one model are determined by their fields. -/
theorem fields_inj {first second : KvBlockKey} (model : first.modelFingerprint = second.modelFingerprint)
    (same : first.fields = second.fields) : first = second := by
  have fits (word : UInt32) : word.toNat < 256 ^ 4 := word.toNat_lt
  unfold fields at same
  obtain ⟨hash, same⟩ := List.append_inj same (by rw [Vector.length_toList, Vector.length_toList])
  obtain ⟨index, same⟩ := leBytes_append_inj (fits _) (fits _) same
  obtain ⟨start, same⟩ := leBytes_append_inj (fits _) (fits _) same
  obtain ⟨count, same⟩ := leBytes_append_inj (fits _) (fits _) same
  obtain ⟨layer, same⟩ := leBytes_append_inj (fits _) (fits _) same
  obtain ⟨layers, same⟩ := leBytes_append_inj (fits _) (fits _) same
  have layout := leBytes_inj (fits _) (fits _) same
  cases first
  cases second
  dsimp only at model hash index start count layer layers layout
  rw [model, Vector.toList_inj.mp hash, UInt32.toNat.inj index, UInt32.toNat.inj start,
    UInt32.toNat.inj count, UInt32.toNat.inj layer, UInt32.toNat.inj layers, UInt32.toNat.inj layout]

/-- **The encoding of a key is not the one of a token sequence**: a model of `n` bytes makes `76 + n`
bytes, and `n` tokens make `20 + 4 * n`. -/
theorem hashed_ne_sequenceBytes {key : KvBlockKey} {tokens : List UInt32}
    (modelShort : (utf8Bytes key.modelFingerprint).length < 2 ^ 64)
    (tokensShort : tokens.length < 2 ^ 64) : key.hashed ≠ sequenceBytes tokens := by
  intro same
  have sizes := congrArg List.length same
  rw [hashed_eq, sequenceBytes_length, List.length_append, List.length_append,
    lengthPrefixed_length, fields_length] at sizes
  have domain : kvKeyDomain.length = 12 := rfl
  rw [hashed_eq] at same
  unfold sequenceBytes lengthPrefixed at same
  rw [List.append_assoc, List.append_assoc] at same
  obtain ⟨_, rest⟩ := List.append_inj same rfl
  obtain ⟨lengths, _⟩ := leBytes_append_inj (by omega) (by omega) rest
  omega

end KvBlockKey

/-! ### Requests -/

namespace Sha256KeyStrategy

/-- The domain of `make_key`. -/
def domain : List UInt8 := [82, 73, 86, 69, 84, 95, 67, 65, 67, 72, 69, 95, 86, 49, 0]

/-- What `make_key` hashes. -/
def hashed (keyNamespace modelFingerprint payload : String) : List UInt8 :=
  domain ++ (lengthPrefixed (utf8Bytes keyNamespace) ++
    (lengthPrefixed (utf8Bytes modelFingerprint) ++ lengthPrefixed (utf8Bytes payload)))

/-- `make_key`. -/
def makeKey (digest : Digest) (keyNamespace modelFingerprint payload : String) : List UInt8 :=
  hexEncode (digest (hashed keyNamespace modelFingerprint payload)).toList

end Sha256KeyStrategy

/-! ### Identities -/

/-- What a cache key is derived from. -/
inductive CacheIdentity where
  | block (key : KvBlockKey)
  | request (keyNamespace modelFingerprint payload : String)
  deriving DecidableEq

namespace CacheIdentity

/-- What is hashed. -/
def hashed : CacheIdentity → List UInt8
  | .block key => key.hashed
  | .request keyNamespace modelFingerprint payload =>
      Sha256KeyStrategy.hashed keyNamespace modelFingerprint payload

/-- The cache key. -/
def cacheKey (digest : Digest) : CacheIdentity → List UInt8
  | .block key => key.cacheKey digest
  | .request keyNamespace modelFingerprint payload =>
      Sha256KeyStrategy.makeKey digest keyNamespace modelFingerprint payload

theorem cacheKey_eq (digest : Digest) (identity : CacheIdentity) :
    identity.cacheKey digest = hexEncode (digest identity.hashed).toList := by
  cases identity <;> rfl

/-- The length of every text fits a `u64`. -/
def Short : CacheIdentity → Prop
  | .block key => (utf8Bytes key.modelFingerprint).length < 2 ^ 64
  | .request keyNamespace modelFingerprint payload =>
      (utf8Bytes keyNamespace).length < 2 ^ 64 ∧ (utf8Bytes modelFingerprint).length < 2 ^ 64 ∧
        (utf8Bytes payload).length < 2 ^ 64

/-- **The domains are apart**: they differ in their seventh byte. -/
theorem block_ne_request (key : KvBlockKey) (keyNamespace modelFingerprint payload : String) :
    key.hashed ≠ Sha256KeyStrategy.hashed keyNamespace modelFingerprint payload := by
  intro same
  rw [KvBlockKey.hashed_eq] at same
  have seventh := congrArg (fun bytes => bytes[6]?) same
  have kv : (kvKeyDomain ++ (lengthPrefixed (utf8Bytes key.modelFingerprint) ++ key.fields))[6]? =
      some 75 := rfl
  have cache : (Sha256KeyStrategy.hashed keyNamespace modelFingerprint payload)[6]? = some 67 := rfl
  rw [kv, cache] at seventh
  cases seventh

/-- **The encoding determines the identity.** -/
theorem hashed_inj {first second : CacheIdentity} (firstShort : first.Short)
    (secondShort : second.Short) (same : first.hashed = second.hashed) : first = second := by
  cases first with
  | block key =>
      cases second with
      | block other =>
          change key.hashed = other.hashed at same
          rw [KvBlockKey.hashed_eq, KvBlockKey.hashed_eq] at same
          obtain ⟨_, rest⟩ := List.append_inj same rfl
          obtain ⟨models, fields⟩ := lengthPrefixed_append_inj firstShort secondShort rest
          rw [KvBlockKey.fields_inj (utf8Bytes_inj models) fields]
      | request => exact absurd same (block_ne_request _ _ _ _)
  | request keyNamespace modelFingerprint payload =>
      cases second with
      | block => exact absurd same.symm (block_ne_request _ _ _ _)
      | request otherNamespace otherFingerprint otherPayload =>
          obtain ⟨_, rest⟩ := List.append_inj same rfl
          obtain ⟨namespaces, rest⟩ :=
            lengthPrefixed_append_inj firstShort.1 secondShort.1 rest
          obtain ⟨models, rest⟩ :=
            lengthPrefixed_append_inj firstShort.2.1 secondShort.2.1 rest
          rw [← List.append_nil (lengthPrefixed (utf8Bytes payload)),
            ← List.append_nil (lengthPrefixed (utf8Bytes otherPayload))] at rest
          obtain ⟨payloads, _⟩ := lengthPrefixed_append_inj firstShort.2.2 secondShort.2.2 rest
          rw [utf8Bytes_inj namespaces, utf8Bytes_inj models, utf8Bytes_inj payloads]

end CacheIdentity

/-! ### Cache keys -/

theorem hexDigit_inj {m n : Nat} (mSmall : m < 16) (nSmall : n < 16)
    (same : hexDigit m = hexDigit n) : m = n := by
  have all : ∀ m < 16, ∀ n < 16, hexDigit m = hexDigit n → m = n := by decide
  exact all m mSmall n nSmall same

/-- A byte in two digits. -/
theorem hexDigits_injective : Function.Injective fun byte : UInt8 =>
    [hexDigit (byte.toNat / 16), hexDigit (byte.toNat % 16)] := by
  intro byte other digits
  have byteSize := byte.toNat_lt
  have otherSize := other.toNat_lt
  simp only [List.cons.injEq, and_true] at digits
  have high := hexDigit_inj (by omega) (by omega) digits.1
  have low := hexDigit_inj (by omega) (by omega) digits.2
  exact UInt8.toNat.inj (by omega)

/-- **Bytes are determined by their digits.** -/
theorem hexEncode_inj {first second : List UInt8} (same : hexEncode first = hexEncode second) :
    first = second := by
  have sizes := congrArg List.length same
  rw [hexEncode_length, hexEncode_length] at sizes
  have wide (byte : UInt8) : [hexDigit (byte.toNat / 16), hexDigit (byte.toNat % 16)].length = 2 := rfl
  exact flatMap_inj wide hexDigits_injective (by omega) same

/-- **Different identities have different cache keys**, where the digest has no collision among what is
hashed for them. -/
theorem cacheKey_injOn {digest : Digest} {identities : Set CacheIdentity}
    (short : ∀ identity ∈ identities, identity.Short)
    (collisionFree : Set.InjOn digest (CacheIdentity.hashed '' identities)) :
    Set.InjOn (CacheIdentity.cacheKey digest) identities := by
  intro first firstIn second secondIn same
  rw [CacheIdentity.cacheKey_eq, CacheIdentity.cacheKey_eq] at same
  have digests := Vector.toList_inj.mp (hexEncode_inj same)
  have inputs := collisionFree (Set.mem_image_of_mem _ firstIn) (Set.mem_image_of_mem _ secondIn) digests
  exact CacheIdentity.hashed_inj (short first firstIn) (short second secondIn) inputs

/-- **Key derivation is injective and separates its domains**, and where the digest has no collision
among what is hashed, different identities have different cache keys. -/
theorem keyDerivation_injective :
    (∀ first second : CacheIdentity, first.Short → second.Short → first.hashed = second.hashed →
      first = second) ∧
    (∀ (key : KvBlockKey) (keyNamespace modelFingerprint payload : String),
      key.hashed ≠ Sha256KeyStrategy.hashed keyNamespace modelFingerprint payload) ∧
    (∀ (key : KvBlockKey) (tokens : List UInt32), (utf8Bytes key.modelFingerprint).length < 2 ^ 64 →
      tokens.length < 2 ^ 64 → key.hashed ≠ sequenceBytes tokens) ∧
    (∀ (digest : Digest) (identities : Set CacheIdentity),
      (∀ identity ∈ identities, identity.Short) →
      Set.InjOn digest (CacheIdentity.hashed '' identities) →
      Set.InjOn (CacheIdentity.cacheKey digest) identities) :=
  ⟨fun _ _ firstShort secondShort same => CacheIdentity.hashed_inj firstShort secondShort same,
    CacheIdentity.block_ne_request,
    fun _ _ modelShort tokensShort => KvBlockKey.hashed_ne_sequenceBytes modelShort tokensShort,
    fun _ _ short collisionFree => cacheKey_injOn short collisionFree⟩

/-- A key of the model `a`. -/
def sampleKey : KvBlockKey where
  modelFingerprint := "a"
  sequenceHash := Vector.replicate 32 0
  blockIndex := 0
  tokenStart := 0
  tokenCount := 1
  layerStart := 0
  layerCount := 1
  layoutVersion := 1

/-- The SHA-256 digests of what is hashed for `sampleKey`, and for the namespace `a` without model or
payload. -/
def sampleDigest : Digest := fun bytes =>
  if bytes = sampleKey.hashed then
    ⟨#[232, 27, 184, 165, 89, 36, 72, 10, 178, 78, 88, 247, 228, 48, 65, 16, 62, 12, 24, 238, 194, 56,
      95, 226, 47, 94, 85, 88, 142, 110, 127, 75], rfl⟩
  else
    ⟨#[43, 53, 240, 22, 25, 94, 118, 64, 102, 253, 156, 74, 199, 83, 147, 18, 123, 35, 129, 83, 131,
      123, 57, 229, 125, 211, 241, 22, 6, 221, 189, 43], rfl⟩

/-- A block and a request. -/
theorem keyDerivation_injective_sample :
    sampleKey.hashed ≠ sequenceBytes [1] ∧
      (CacheIdentity.block sampleKey).cacheKey sampleDigest ≠
        (CacheIdentity.request "a" "" "").cacheKey sampleDigest := by
  obtain ⟨_, apart, sequence, distinct⟩ := keyDerivation_injective
  have short : ∀ identity ∈ ({.block sampleKey, .request "a" "" ""} : Set CacheIdentity),
      identity.Short := by
    rintro _ (rfl | rfl)
    · show (utf8Bytes "a").length < 2 ^ 64
      decide
    · show (utf8Bytes "a").length < 2 ^ 64 ∧ (utf8Bytes "").length < 2 ^ 64 ∧
        (utf8Bytes "").length < 2 ^ 64
      decide
  refine ⟨sequence sampleKey [1] (short _ (Or.inl rfl)) (by decide), fun same => ?_⟩
  have here : sampleDigest sampleKey.hashed ≠
      sampleDigest (Sha256KeyStrategy.hashed "a" "" "") := by
    unfold sampleDigest
    rw [if_pos rfl, if_neg (apart sampleKey "a" "" "").symm]
    decide
  have identical := distinct sampleDigest {.block sampleKey, .request "a" "" ""} short (by
    rintro _ ⟨_, rfl | rfl, rfl⟩ _ ⟨_, rfl | rfl, rfl⟩ digests
    · rfl
    · exact absurd digests here
    · exact absurd digests.symm here
    · rfl) (Or.inl rfl) (Or.inr rfl) same
  cases identical

end RivetCache
