/-
**`kv.rs`: the cache key of a block key.**

A block key is written to stores under the hexadecimal digest of its fields. It is 64 lower-case digits,
whatever the key (`cacheKey_length`, `cacheKey_digits`).
-/

import RivetCache.Kv.Prefix
import RivetCache.Library.Reader

set_option linter.unusedSectionVars false

namespace RivetCache

open Library

/-- A lower-case hexadecimal digit. -/
def hexDigit (n : Nat) : UInt8 := UInt8.ofNat (if n < 10 then 48 + n else 87 + n)

/-- `hex::encode`. -/
def hexEncode (bytes : List UInt8) : List UInt8 :=
  bytes.flatMap fun byte => [hexDigit (byte.toNat / 16), hexDigit (byte.toNat % 16)]

namespace KvBlockKey

/-- What `cache_key` hashes. -/
def hashed (key : KvBlockKey) : List UInt8 :=
  kvKeyDomain ++ leBytes 8 (utf8Bytes key.modelFingerprint).length ++
    utf8Bytes key.modelFingerprint ++ key.sequenceHash.toList ++ leBytes 4 key.blockIndex.toNat ++
    leBytes 4 key.tokenStart.toNat ++ leBytes 4 key.tokenCount.toNat ++
    leBytes 4 key.layerStart.toNat ++ leBytes 4 key.layerCount.toNat ++
    leBytes 4 key.layoutVersion.toNat

/-- `cache_key`. -/
def cacheKey (digest : Digest) (key : KvBlockKey) : List UInt8 :=
  hexEncode (digest key.hashed).toList

end KvBlockKey

theorem hexEncode_length (bytes : List UInt8) : (hexEncode bytes).length = 2 * bytes.length := by
  induction bytes with
  | nil => rfl
  | cons byte rest ih =>
      show (hexEncode rest).length + 1 + 1 = 2 * (rest.length + 1)
      omega

theorem cacheKey_length (digest : Digest) (key : KvBlockKey) :
    (key.cacheKey digest).length = 64 := by
  unfold KvBlockKey.cacheKey
  rw [hexEncode_length, Vector.length_toList]

/-- No digit is a colon. -/
theorem hexDigit_ne_colon {n : Nat} (small : n < 16) : hexDigit n ≠ 58 := by
  revert n
  decide

theorem cacheKey_digits (digest : Digest) (key : KvBlockKey) : 58 ∉ key.cacheKey digest := by
  intro colon
  obtain ⟨byte, _, digit⟩ := List.mem_flatMap.mp colon
  have size := byte.toNat_lt
  simp only [List.mem_cons, List.not_mem_nil, or_false] at digit
  rcases digit with high | low
  · exact hexDigit_ne_colon (by omega) high.symm
  · exact hexDigit_ne_colon (by omega) low.symm

end RivetCache
