/-
**The envelope of a tier entry.**

`ContextCacheTier` keeps a `KvTierEntry` as one value of a context cache: a magic string, the expiry, the
pin flag, the length of the payload, the payload.

* `decode_encode`: what is encoded is decoded;
* `encode_decode`: what is decoded was encoded, so no two envelopes stand for one entry.
-/

import RivetCache.Kv.Model
import RivetCache.Library.LittleEndian

set_option linter.unusedSectionVars false

namespace RivetCache

open Library

/-- `TIER_ENVELOPE_MAGIC`: `RKV01` and a line feed. -/
def tierEnvelopeMagic : List UInt8 := [82, 75, 86, 48, 49, 10]

/-- `encode_tier_entry`. -/
def encodeTierEntry (entry : KvTierEntry) : Except IoError (List UInt8) :=
  if entry.block.bytes.bytes.isEmpty then
    .error ⟨.invalidInput, "KV tier entry payload must not be empty"⟩
  else
    .ok (tierEnvelopeMagic ++ (leBytes 8 entry.expiresAt.toNat ++
      ((if entry.pinned then 1 else 0) ::
        (leBytes 8 entry.block.bytes.bytes.length ++ entry.block.bytes.bytes))))

/-- `read_u64`: the number at the cursor, and the cursor after it. -/
def readU64 (bytes : List UInt8) (cursor : Nat) : Except IoError (UInt64 × Nat) :=
  if satAdd cursor 8 ≤ bytes.length then
    .ok (UInt64.ofNat (ofLeBytes ((bytes.drop cursor).take (satAdd cursor 8 - cursor))),
      satAdd cursor 8)
  else .error ⟨.unexpectedEof, "truncated KV tier envelope"⟩

/-- A number of eight bytes at the cursor, and the cursor after it, as each envelope reads it. -/
def readNumber (truncated : IoError) (bytes : List UInt8) (cursor : Nat) :
    Except IoError (UInt64 × Nat) :=
  if satAdd cursor 8 ≤ bytes.length then
    .ok (UInt64.ofNat (ofLeBytes ((bytes.drop cursor).take (satAdd cursor 8 - cursor))),
      satAdd cursor 8)
  else .error truncated

/-- `decode_tier_entry`, the pin flag. -/
def readPinned (bytes : List UInt8) (cursor : Nat) : Except IoError Bool :=
  match bytes[cursor]? with
  | some 0 => .ok false
  | some 1 => .ok true
  | _ => .error ⟨.invalidData, "invalid KV tier pin flag"⟩

/-- A pin flag at the cursor, as each envelope reads it. -/
def readFlag (invalid : IoError) (bytes : List UInt8) (cursor : Nat) : Except IoError Bool :=
  match bytes[cursor]? with
  | some 0 => .ok false
  | some 1 => .ok true
  | _ => .error invalid

/-- `decode_tier_entry`, the payload, where it has the length announced. -/
def readPayload (bytes : List UInt8) (cursor : Nat) (length : UInt64) : Except IoError Payload :=
  if same : (bytes.drop cursor).length = length.toNat ∧ length ≠ 0 then
    .ok ⟨bytes.drop cursor, same.1 ▸ length.toNat_lt⟩
  else .error ⟨.invalidData, "invalid KV tier payload length"⟩

/-- `decode_tier_entry`. -/
def decodeTierEntry (key : KvBlockKey) (encoded : List UInt8) : Except IoError KvTierEntry :=
  if encoded.length < tierEnvelopeMagic.length + 8 + 1 + 8 ∨
      encoded.take tierEnvelopeMagic.length ≠ tierEnvelopeMagic then
    .error ⟨.invalidData, "invalid KV tier envelope"⟩
  else do
    let (expiresAt, cursor) ← readU64 encoded tierEnvelopeMagic.length
    let pinned ← readPinned encoded cursor
    let (length, cursor) ← readU64 encoded (cursor + 1)
    let payload ← readPayload encoded cursor length
    .ok ⟨⟨key, payload⟩, expiresAt, pinned⟩

/-! ### Numbers -/

theorem readNumber_append (truncated : IoError) (front rest : List UInt8) {n : Nat}
    (bound : n < 2 ^ 64) (short : front.length + 8 ≤ u64Max) :
    readNumber truncated (front ++ (leBytes 8 n ++ rest)) front.length =
      .ok (UInt64.ofNat n, front.length + 8) := by
  have ending : satAdd front.length 8 = front.length + 8 := satAdd_of_le short
  unfold readNumber
  rw [ending, if_pos (by simp)]
  have slice : ((front ++ (leBytes 8 n ++ rest)).drop front.length).take
      (front.length + 8 - front.length) = leBytes 8 n := by
    rw [List.drop_left, Nat.add_sub_cancel_left]
    exact List.take_left' (leBytes_length 8 n)
  rw [slice, ofLeBytes_leBytes (by simpa using bound)]

/-- What is read is written at the cursor. -/
theorem readNumber_ok {truncated : IoError} {bytes : List UInt8} {cursor next : Nat} {value : UInt64}
    (short : cursor + 8 ≤ u64Max) (read : readNumber truncated bytes cursor = .ok (value, next)) :
    next = cursor + 8 ∧ bytes.drop cursor = leBytes 8 value.toNat ++ bytes.drop next := by
  have ending : satAdd cursor 8 = cursor + 8 := satAdd_of_le short
  unfold readNumber at read
  rw [ending] at read
  split at read
  case isFalse _ => cases read
  case isTrue inside =>
    simp only [Except.ok.injEq, Prod.mk.injEq, Nat.add_sub_cancel_left] at read
    obtain ⟨rfl, rfl⟩ := read
    have length : ((bytes.drop cursor).take 8).length = 8 := by
      rw [List.length_take, List.length_drop]
      omega
    have bound := ofLeBytes_lt ((bytes.drop cursor).take 8)
    rw [length] at bound
    have back := leBytes_ofLeBytes ((bytes.drop cursor).take 8)
    rw [length] at back
    refine ⟨rfl, ?_⟩
    rw [UInt64.toNat_ofNat', Nat.mod_eq_of_lt (by simpa using bound), back, ← List.drop_drop,
      List.take_append_drop]

/-- The error apart, every envelope reads the same numbers. -/
theorem readNumber_same {truncated other : IoError} (bytes : List UInt8) (cursor : Nat) :
    (readNumber truncated bytes cursor).toOption = (readNumber other bytes cursor).toOption := by
  unfold readNumber
  split <;> rfl

theorem readU64_append (front rest : List UInt8) {n : Nat} (bound : n < 2 ^ 64)
    (short : front.length + 8 ≤ u64Max) :
    readU64 (front ++ (leBytes 8 n ++ rest)) front.length = .ok (UInt64.ofNat n, front.length + 8) :=
  readNumber_append _ front rest bound short

theorem readU64_ok {bytes : List UInt8} {cursor next : Nat} {value : UInt64}
    (short : cursor + 8 ≤ u64Max) (read : readU64 bytes cursor = .ok (value, next)) :
    next = cursor + 8 ∧ bytes.drop cursor = leBytes 8 value.toNat ++ bytes.drop next :=
  readNumber_ok short read

/-! ### Both ways -/

/-- The envelope of an entry. -/
def envelope (entry : KvTierEntry) : List UInt8 :=
  tierEnvelopeMagic ++ (leBytes 8 entry.expiresAt.toNat ++
    ((if entry.pinned then 1 else 0) ::
      (leBytes 8 entry.block.bytes.bytes.length ++ entry.block.bytes.bytes)))

theorem encodeTierEntry_ok {entry : KvTierEntry} {encoded : List UInt8} :
    encodeTierEntry entry = .ok encoded ↔
      entry.block.bytes.bytes ≠ [] ∧ encoded = envelope entry := by
  unfold encodeTierEntry
  split
  case isTrue empty =>
    rw [List.isEmpty_iff] at empty
    simp [empty]
  case isFalse filled =>
    rw [List.isEmpty_iff] at filled
    constructor
    · rintro ⟨⟩
      exact ⟨filled, rfl⟩
    · rintro ⟨_, rfl⟩
      rfl

@[simp] theorem envelope_length (entry : KvTierEntry) :
    (envelope entry).length = entry.block.bytes.bytes.length + 23 := by
  simp [envelope, tierEnvelopeMagic]
  omega

theorem readPinned_envelope (entry : KvTierEntry) :
    readPinned (envelope entry) 14 = .ok entry.pinned := by
  have split : envelope entry = (tierEnvelopeMagic ++ leBytes 8 entry.expiresAt.toNat) ++
      ((if entry.pinned then 1 else 0) ::
        (leBytes 8 entry.block.bytes.bytes.length ++ entry.block.bytes.bytes)) := by
    simp [envelope]
  have front : (tierEnvelopeMagic ++ leBytes 8 entry.expiresAt.toNat).length = 14 := by
    simp [tierEnvelopeMagic]
  have flag : (envelope entry)[14]? = some (if entry.pinned then 1 else 0) := by
    rw [split, List.getElem?_append_right (by rw [front]), front]
    rfl
  unfold readPinned
  rw [flag]
  cases entry.pinned <;> rfl

/-- **What is encoded is decoded.** -/
theorem decode_encode {entry : KvTierEntry} {encoded : List UInt8}
    (done : encodeTierEntry entry = .ok encoded) :
    decodeTierEntry entry.block.key encoded = .ok entry := by
  obtain ⟨nonempty, rfl⟩ := encodeTierEntry_ok.mp done
  have first : readU64 (envelope entry) 6 = .ok (entry.expiresAt, 14) := by
    have read := readU64_append tierEnvelopeMagic ((if entry.pinned then 1 else 0) ::
      (leBytes 8 entry.block.bytes.bytes.length ++ entry.block.bytes.bytes))
      entry.expiresAt.toNat_lt (by decide)
    rwa [UInt64.ofNat_toNat] at read
  have split : envelope entry = (tierEnvelopeMagic ++ leBytes 8 entry.expiresAt.toNat ++
      [if entry.pinned then 1 else 0]) ++
        (leBytes 8 entry.block.bytes.bytes.length ++ entry.block.bytes.bytes) := by
    simp [envelope]
  have front : (tierEnvelopeMagic ++ leBytes 8 entry.expiresAt.toNat ++
      [if entry.pinned then (1 : UInt8) else 0]).length = 15 := by
    simp [tierEnvelopeMagic]
  have second : readU64 (envelope entry) 15 =
      .ok (UInt64.ofNat entry.block.bytes.bytes.length, 23) := by
    have read := readU64_append (tierEnvelopeMagic ++ leBytes 8 entry.expiresAt.toNat ++
      [if entry.pinned then 1 else 0]) entry.block.bytes.bytes entry.block.bytes.short
      (by rw [front]; decide)
    rwa [← split, front] at read
  have payload : (envelope entry).drop 23 = entry.block.bytes.bytes := by
    rw [split, ← List.append_assoc]
    exact List.drop_left' (by simp [tierEnvelopeMagic])
  have length : (UInt64.ofNat entry.block.bytes.bytes.length).toNat =
      entry.block.bytes.bytes.length := by
    rw [UInt64.toNat_ofNat', Nat.mod_eq_of_lt entry.block.bytes.short]
  have read : readPayload (envelope entry) 23 (UInt64.ofNat entry.block.bytes.bytes.length) =
      .ok entry.block.bytes := by
    unfold readPayload
    have filled : UInt64.ofNat entry.block.bytes.bytes.length ≠ 0 := by
      intro zero
      rw [zero] at length
      exact nonempty (List.length_eq_zero_iff.mp length.symm)
    rw [dif_pos ⟨by rw [payload, length], filled⟩]
    exact congrArg Except.ok (Payload.ext payload)
  unfold decodeTierEntry
  rw [if_neg]
  · show (do
      let (expiresAt, cursor) ← readU64 (envelope entry) 6
      let pinned ← readPinned (envelope entry) cursor
      let (length, cursor) ← readU64 (envelope entry) (cursor + 1)
      let payload ← readPayload (envelope entry) cursor length
      .ok (⟨⟨entry.block.key, payload⟩, expiresAt, pinned⟩ : KvTierEntry)) = _
    rw [first]
    show (do
      let pinned ← readPinned (envelope entry) 14
      let (length, cursor) ← readU64 (envelope entry) 15
      let payload ← readPayload (envelope entry) cursor length
      .ok (⟨⟨entry.block.key, payload⟩, entry.expiresAt, pinned⟩ : KvTierEntry)) = _
    rw [readPinned_envelope, second]
    show (do
      let payload ← readPayload (envelope entry) 23
        (UInt64.ofNat entry.block.bytes.bytes.length)
      .ok (⟨⟨entry.block.key, payload⟩, entry.expiresAt, entry.pinned⟩ : KvTierEntry)) = _
    rw [read]
    rfl
  · rintro (short | wrong)
    · rw [envelope_length] at short
      simp [tierEnvelopeMagic] at short
    · exact wrong (List.take_left' rfl)

theorem readFlag_ok {invalid : IoError} {bytes : List UInt8} {cursor : Nat} {pinned : Bool}
    (read : readFlag invalid bytes cursor = .ok pinned) :
    bytes.drop cursor = (if pinned then 1 else 0) :: bytes.drop (cursor + 1) := by
  have cons : ∀ flag, bytes[cursor]? = some flag → bytes.drop cursor = flag :: bytes.drop (cursor + 1) := by
    intro flag here
    obtain ⟨inside, rfl⟩ := List.getElem?_eq_some_iff.mp here
    exact List.drop_eq_getElem_cons inside
  unfold readFlag at read
  split at read
  case h_1 here =>
    cases read
    exact cons 0 here
  case h_2 here =>
    cases read
    exact cons 1 here
  case h_3 _ => cases read

theorem readPinned_ok {bytes : List UInt8} {cursor : Nat} {pinned : Bool}
    (read : readPinned bytes cursor = .ok pinned) :
    bytes.drop cursor = (if pinned then 1 else 0) :: bytes.drop (cursor + 1) :=
  readFlag_ok read

/-- The error apart, every envelope reads the same flag. -/
theorem readFlag_same {invalid other : IoError} (bytes : List UInt8) (cursor : Nat) :
    (readFlag invalid bytes cursor).toOption = (readFlag other bytes cursor).toOption := by
  unfold readFlag
  split <;> rfl

theorem readPayload_ok {bytes : List UInt8} {cursor : Nat} {length : UInt64} {payload : Payload}
    (read : readPayload bytes cursor length = .ok payload) :
    payload.bytes = bytes.drop cursor ∧ payload.bytes.length = length.toNat ∧ payload.bytes ≠ [] := by
  unfold readPayload at read
  split at read
  case isFalse _ => cases read
  case isTrue same =>
    cases read
    refine ⟨rfl, same.1, fun empty => same.2 ?_⟩
    have zero : length.toNat = 0 := by
      rw [← same.1]
      exact List.length_eq_zero_iff.mpr empty
    exact UInt64.toNat.inj zero

/-- **What is decoded was encoded**, in one way only. -/
theorem encode_decode {key : KvBlockKey} {entry : KvTierEntry} {encoded : List UInt8}
    (done : decodeTierEntry key encoded = .ok entry) :
    entry.block.key = key ∧ encodeTierEntry entry = .ok encoded := by
  unfold decodeTierEntry at done
  split at done
  case isTrue _ => cases done
  case isFalse sound =>
    have magic : encoded.take 6 = tierEnvelopeMagic := by
      by_contra wrong
      exact sound (Or.inr wrong)
    simp only [bind, Except.bind] at done
    split at done
    case h_1 _ _ => cases done
    case h_2 _ first read_expiry =>
      obtain ⟨expiresAt, cursor⟩ := first
      obtain ⟨rfl, expiry⟩ := readU64_ok (by decide) read_expiry
      simp only at done
      split at done
      case h_1 _ _ => cases done
      case h_2 _ pinned read_pin =>
        have pin := readPinned_ok read_pin
        split at done
        case h_1 _ _ => cases done
        case h_2 _ second read_length =>
          obtain ⟨length, cursor⟩ := second
          obtain ⟨rfl, counted⟩ := readU64_ok (by decide) read_length
          simp only at done
          split at done
          case h_1 _ _ => cases done
          case h_2 _ payload read_payload =>
            obtain ⟨bytes, same_length, nonempty⟩ := readPayload_ok read_payload
            cases done
            refine ⟨rfl, encodeTierEntry_ok.mpr ⟨nonempty, ?_⟩⟩
            unfold envelope
            simp only [same_length]
            have front := List.take_append_drop 6 encoded
            rw [magic] at front
            rw [bytes, ← counted, ← pin, ← expiry]
            exact front.symm

end RivetCache
