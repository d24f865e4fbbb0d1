/-
**`sdk_tier.rs`: a tier on a native SDK.**

The entries of a tier are the values of the SDK under `rivet:namespace:cache_key`, each a frame with a
checksum of its payload. An index or a slice out of range is a panic.

* `decodeEntry_eq_ok`: a frame is accepted where it is the frame of the entry, within the limit;
* `decodeEntry_safe`: no byte string makes the decoder panic;
* `objectKey_prefix`: the keys of a namespace begin with its prefix, and no others;
* `nativeSdkKvTier_canonical`: so a tier reads back what it accepts, and clears its own objects only.
-/

import RivetCache.Codec.Frame
import RivetCache.Kv.Envelope
import RivetCache.Kv.Key

set_option linter.unusedSectionVars false

namespace RivetCache

open Library

/-! ### The SDK -/

/-- `NativeKvSdk`, over the state of an implementation. -/
structure NativeKvSdk (σ : Type) where
  name : String
  get : List UInt8 → Nat → σ → Except IoError (Option Payload) × σ
  put : List UInt8 → Payload → σ → Except IoError Unit × σ
  remove : List UInt8 → σ → Except IoError Unit × σ
  clearPrefix : List UInt8 → σ → Except IoError Unit × σ
  health : σ → Except IoError Unit × σ

/-- `NativeSdkKvTier`, as its constructor makes it. -/
structure NativeSdkKvTier (σ : Type) where
  name : String
  keyNamespace : String
  maxValueBytes : Nat
  sdk : NativeKvSdk σ
  named : validName name = true
  spaced : validName keyNamespace = true
  bounded : maxValueBytes ≠ 0

namespace NativeSdkKvTier

variable {σ : Type}

/-- `validate_identifier`: the test is that of `validate_name` in `codec.rs`. -/
def validateIdentifier (value kind : String) : Except IoError (PLift (validName value = true)) :=
  if fine : validName value = true then .ok ⟨fine⟩
  else .error ⟨.invalidInput, s!"invalid native SDK {kind}"⟩

/-- `NativeSdkKvTier::new`. -/
def new (name keyNamespace : String) (maxValueBytes : Nat) (sdk : NativeKvSdk σ) (state : σ) :
    Except IoError (NativeSdkKvTier σ) × σ :=
  match validateIdentifier name "tier name", validateIdentifier keyNamespace "namespace" with
  | .error error, _ => (.error error, state)
  | .ok _, .error error => (.error error, state)
  | .ok named, .ok spaced =>
      if zero : maxValueBytes = 0 then
        (.error ⟨.invalidInput, "native SDK value limit must be greater than zero"⟩, state)
      else
        andThen (sdk.health state) fun _ state =>
          (.ok ⟨name, keyNamespace, maxValueBytes, sdk, named.down, spaced.down, zero⟩, state)

/-! ### Frames -/

/-- `FRAME_MAGIC` of `sdk_tier.rs`: `RIVSDK1` and a line feed. -/
def frameMagic : List UInt8 := [82, 73, 86, 83, 68, 75, 49, 10]

/-- The bytes of a frame. -/
def frameBytes (digest : Digest) (entry : KvTierEntry) : List UInt8 :=
  frameMagic ++ (leBytes 8 entry.expiresAt.toNat ++ ((if entry.pinned then 1 else 0) ::
    (leBytes 8 entry.block.bytes.bytes.length ++
      ((digest entry.block.bytes.bytes).toList ++ entry.block.bytes.bytes))))

/-- `encode_entry`. -/
def encodeEntry (digest : Digest) (entry : KvTierEntry) : Except Fault Payload :=
  if entry.block.bytes.bytes.isEmpty then
    .error (.error ⟨.invalidInput, "native SDK KV payload must not be empty"⟩)
  else vecOf (frameBytes digest entry)

/-- An `io::Result`, among the ways a call may end. -/
def orFault {α : Type} : Except IoError α → Except Fault α := Except.mapError Fault.error

/-- `read_u64`. -/
def readU64 (bytes : List UInt8) (cursor : Nat) : Except Fault (UInt64 × Nat) :=
  orFault (readNumber ⟨.unexpectedEof, "native SDK frame is truncated"⟩ bytes cursor)

/-- `decode_entry`, the pin flag: the byte is indexed. -/
def readPinned (bytes : List UInt8) (cursor : Nat) : Except Fault Bool :=
  if cursor < bytes.length then
    orFault (readFlag ⟨.invalidData, "invalid native SDK pin flag"⟩ bytes cursor)
  else .error .panic

/-- `decode_entry`, the checksum, and the cursor after it. -/
def readChecksum (bytes : List UInt8) (cursor : Nat) : Except Fault (List UInt8 × Nat) :=
  if cursor + 32 ≤ bytes.length then .ok ((bytes.drop cursor).take 32, cursor + 32)
  else .error (.error ⟨.unexpectedEof, "truncated SDK checksum"⟩)

/-- `decode_entry`, the payload from the cursor on, where it has the length announced. -/
def readPayload (bytes : Payload) (cursor : Nat) (length : UInt64) : Except Fault Payload :=
  if length = 0 ∨ bytes.bytes.length - cursor ≠ length.toNat then
    .error (.error ⟨.invalidData, "native SDK payload length mismatch"⟩)
  else if cursor ≤ bytes.bytes.length then .ok (bytes.drop cursor)
  else .error .panic

/-- `decode_entry`. A `u64` is a `usize`. -/
def decodeEntry (digest : Digest) (key : KvBlockKey) (bytes : Payload) (max : Nat) :
    Except Fault KvTierEntry :=
  if bytes.bytes.length < 57 ∨ bytes.bytes.length > max ∨ bytes.bytes.take 8 ≠ frameMagic then
    .error (.error ⟨.invalidData, "invalid native SDK RivetCache frame"⟩)
  else do
    let (expiresAt, cursor) ← readU64 bytes.bytes 8
    let pinned ← readPinned bytes.bytes cursor
    let (length, cursor) ← readU64 bytes.bytes (cursor + 1)
    let (checksum, cursor) ← readChecksum bytes.bytes cursor
    let payload ← readPayload bytes cursor length
    if (digest payload.bytes).toList ≠ checksum then
      .error (.error ⟨.invalidData, "native SDK payload checksum mismatch"⟩)
    else do
      let block ← orFault (KvBlock.new key payload)
      .ok ⟨block, expiresAt, pinned⟩

/-! ### The tier -/

/-- `prefix`. -/
def objectPrefix (keyNamespace : String) : List UInt8 :=
  utf8Bytes "rivet:" ++ (utf8Bytes keyNamespace ++ [58])

variable (digest : Digest) (tier : NativeSdkKvTier σ)

/-- `object_key`. -/
def objectKey (key : KvBlockKey) : List UInt8 := objectPrefix tier.keyNamespace ++ key.cacheKey digest

/-- `get`. -/
def get (key : KvBlockKey) (state : σ) : Except Fault (Option KvTierEntry) × σ :=
  match tier.sdk.get (tier.objectKey digest key) tier.maxValueBytes state with
  | (.error error, state) => (.error (.error error), state)
  | (.ok none, state) => (.ok none, state)
  | (.ok (some raw), state) => ((decodeEntry digest key raw tier.maxValueBytes).map some, state)

/-- `put`. -/
def put (entry : KvTierEntry) (state : σ) : Except Fault Unit × σ :=
  match encodeEntry digest entry with
  | .error fault => (.error fault, state)
  | .ok encoded =>
      if encoded.bytes.length > tier.maxValueBytes then
        (.error (.error ⟨.invalidInput, "native SDK KV entry exceeds configured limit"⟩), state)
      else
        let answer := tier.sdk.put (tier.objectKey digest entry.block.key) encoded state
        (orFault answer.1, answer.2)

/-- `remove`. -/
def remove (key : KvBlockKey) (state : σ) : Except IoError Unit × σ :=
  tier.sdk.remove (tier.objectKey digest key) state

/-- `clear`. -/
def clear (state : σ) : Except IoError Unit × σ :=
  tier.sdk.clearPrefix (objectPrefix tier.keyNamespace) state

/-- `health`. -/
def health (state : σ) : Except IoError Unit × σ := tier.sdk.health state

end NativeSdkKvTier

/-- **A map-like SDK.** `contents` reads the map a state holds; a value within the limit is answered. -/
structure NativeKvSdk.MapLike {σ : Type} (sdk : NativeKvSdk σ)
    (contents : σ → List UInt8 → Option Payload) : Prop where
  get : ∀ key max state, (∀ value, contents state key = some value → value.bytes.length ≤ max) →
    (sdk.get key max state).1 = .ok (contents state key)
  put : ∀ key value state, (sdk.put key value state).1 = .ok () →
    contents (sdk.put key value state).2 = Function.update (contents state) key (some value)
  clearPrefix : ∀ front state, (sdk.clearPrefix front state).1 = .ok () →
    contents (sdk.clearPrefix front state).2 =
      fun key => if front.isPrefixOf key then none else contents state key

namespace NativeSdkKvTier

variable {digest : Digest}

/-! ### Both ways -/

theorem orFault_ok {α : Type} {result : Except IoError α} {value : α} :
    orFault result = .ok value ↔ result = .ok value := by
  cases result with
  | error error => exact ⟨fun same => (by cases same), fun same => (by cases same)⟩
  | ok other => exact ⟨fun same => (by cases same; rfl), fun same => (by cases same; rfl)⟩

@[simp] theorem frameBytes_length (entry : KvTierEntry) :
    (frameBytes digest entry).length = entry.block.bytes.bytes.length + 57 := by
  simp [frameBytes, frameMagic, Vector.length_toList]
  omega

/-- **What `encode_entry` writes.** -/
theorem encodeEntry_ok {entry : KvTierEntry} {encoded : Payload} :
    encodeEntry digest entry = .ok encoded ↔
      entry.block.bytes.bytes ≠ [] ∧ encoded.bytes = frameBytes digest entry ∧
        encoded.bytes.length ≤ isizeMax := by
  unfold encodeEntry
  split
  case isTrue empty =>
    refine ⟨fun written => (by cases written), fun sound => ?_⟩
    exact absurd (List.isEmpty_iff.mp empty) sound.1
  case isFalse filled =>
    constructor
    · intro written
      obtain ⟨short, same⟩ := vecOf_ok written
      exact ⟨fun empty => filled (List.isEmpty_iff.mpr empty), same, same ▸ short⟩
    · rintro ⟨_, same, short⟩
      unfold vecOf
      rw [dif_pos (same ▸ short)]
      exact congrArg Except.ok (Payload.ext same.symm)

/-! ### What is decoded -/

theorem readU64_ok {bytes : List UInt8} {cursor next : Nat} {value : UInt64}
    (short : cursor + 8 ≤ u64Max) (read : readU64 bytes cursor = .ok (value, next)) :
    next = cursor + 8 ∧ bytes.drop cursor = leBytes 8 value.toNat ++ bytes.drop next :=
  readNumber_ok short (orFault_ok.mp read)

theorem readPinned_ok {bytes : List UInt8} {cursor : Nat} {pinned : Bool}
    (read : readPinned bytes cursor = .ok pinned) :
    bytes.drop cursor = (if pinned then 1 else 0) :: bytes.drop (cursor + 1) := by
  unfold readPinned at read
  split at read
  case isTrue => exact readFlag_ok (orFault_ok.mp read)
  case isFalse => cases read

theorem readChecksum_ok {bytes sum : List UInt8} {cursor next : Nat}
    (read : readChecksum bytes cursor = .ok (sum, next)) :
    next = cursor + 32 ∧ bytes.drop cursor = sum ++ bytes.drop next := by
  unfold readChecksum at read
  split at read
  case isTrue =>
    cases read
    exact ⟨rfl, by rw [← List.drop_drop, List.take_append_drop]⟩
  case isFalse => cases read

theorem readPayload_ok {bytes payload : Payload} {cursor : Nat} {length : UInt64}
    (read : readPayload bytes cursor length = .ok payload) :
    payload.bytes = bytes.bytes.drop cursor ∧ payload.bytes.length = length.toNat ∧
      payload.bytes ≠ [] := by
  unfold readPayload at read
  split at read
  case isTrue => cases read
  case isFalse sound =>
    split at read
    case isFalse => cases read
    case isTrue =>
      cases read
      rw [not_or, not_not] at sound
      have counted : (bytes.bytes.drop cursor).length = length.toNat := by
        rw [List.length_drop]
        exact sound.2
      refine ⟨rfl, counted, fun empty => sound.1 (UInt64.toNat.inj ?_)⟩
      rw [← counted]
      exact List.length_eq_zero_iff.mpr empty

/-- **What is decoded was encoded**, in one way only. -/
theorem encode_decode {key : KvBlockKey} {bytes : Payload} {max : Nat} {entry : KvTierEntry}
    (accepted : decodeEntry digest key bytes max = .ok entry) :
    entry.block.key = key ∧ entry.block.bytes.bytes ≠ [] ∧ bytes.bytes = frameBytes digest entry ∧
      bytes.bytes.length ≤ max := by
  unfold decodeEntry at accepted
  split at accepted
  case isTrue => cases accepted
  case isFalse sound =>
    rw [not_or, not_or, not_not] at sound
    obtain ⟨_, within, magic⟩ := sound
    obtain ⟨⟨expiresAt, cursor⟩, read_expiry, accepted⟩ := bind_eq_ok.mp accepted
    obtain ⟨rfl, expiry⟩ := readU64_ok (by decide) read_expiry
    obtain ⟨pinned, read_pin, accepted⟩ := bind_eq_ok.mp accepted
    have pin := readPinned_ok read_pin
    obtain ⟨⟨length, cursor⟩, read_length, accepted⟩ := bind_eq_ok.mp accepted
    obtain ⟨rfl, counted⟩ := readU64_ok (by decide) read_length
    obtain ⟨⟨checksum, cursor⟩, read_sum, accepted⟩ := bind_eq_ok.mp accepted
    obtain ⟨rfl, summed⟩ := readChecksum_ok read_sum
    obtain ⟨payload, read_payload, accepted⟩ := bind_eq_ok.mp accepted
    obtain ⟨rest, size, filled⟩ := readPayload_ok read_payload
    split at accepted
    case isTrue => cases accepted
    case isFalse same_sum =>
      rw [not_not] at same_sum
      obtain ⟨block, made, accepted⟩ := bind_eq_ok.mp accepted
      have blocks := orFault_ok.mp made
      unfold KvBlock.new at blocks
      split at blocks
      case isTrue => cases blocks
      case isFalse =>
        cases blocks
        cases accepted
        refine ⟨rfl, filled, ?_, Nat.not_lt.mp within⟩
        have front := List.take_append_drop 8 bytes.bytes
        rw [magic, expiry, pin, counted, summed, ← rest, ← same_sum, ← size] at front
        exact front.symm

/-- **The frame of an entry is accepted**, within the limit. -/
theorem decode_encode {entry : KvTierEntry} {bytes : Payload} {max : Nat}
    (filled : entry.block.bytes.bytes ≠ []) (framed : bytes.bytes = frameBytes digest entry)
    (within : bytes.bytes.length ≤ max) :
    decodeEntry digest entry.block.key bytes max = .ok entry := by
  set flag : UInt8 := if entry.pinned then 1 else 0 with flag_eq
  set length := entry.block.bytes.bytes.length with length_eq
  set sum := (digest entry.block.bytes.bytes).toList with sum_eq
  have sum_length : sum.length = 32 := Vector.length_toList
  have size : bytes.bytes.length = length + 57 := by rw [framed, frameBytes_length]
  have whole : bytes.bytes = frameMagic ++ (leBytes 8 entry.expiresAt.toNat ++ (flag ::
      (leBytes 8 length ++ (sum ++ entry.block.bytes.bytes)))) := framed
  -- what is left of the frame at each field
  have at_flag : bytes.bytes.drop 16 = flag :: (leBytes 8 length ++ (sum ++ entry.block.bytes.bytes)) := by
    rw [whole, ← List.append_assoc]
    exact List.drop_left' (by rw [List.length_append, leBytes_length]; rfl)
  have at_length : bytes.bytes.drop 17 = leBytes 8 length ++ (sum ++ entry.block.bytes.bytes) := by
    rw [← List.drop_drop (i := 1) (j := 16), at_flag, List.drop_one, List.tail_cons]
  have at_sum : bytes.bytes.drop 25 = sum ++ entry.block.bytes.bytes := by
    rw [← List.drop_drop (i := 8) (j := 17), at_length, List.drop_left' (leBytes_length 8 _)]
  have at_payload : bytes.bytes.drop 57 = entry.block.bytes.bytes := by
    rw [← List.drop_drop (i := 32) (j := 25), at_sum, List.drop_left' sum_length]
  have magic : bytes.bytes.take 8 = frameMagic := by
    rw [whole]
    exact List.take_left' rfl
  have read_expiry : readU64 bytes.bytes 8 = .ok (entry.expiresAt, 16) := by
    have read := readNumber_append ⟨.unexpectedEof, "native SDK frame is truncated"⟩ frameMagic
      (flag :: (leBytes 8 length ++ (sum ++ entry.block.bytes.bytes))) entry.expiresAt.toNat_lt
      (by decide)
    rw [UInt64.ofNat_toNat, ← whole] at read
    exact orFault_ok.mpr read
  have read_pin : readPinned bytes.bytes 16 = .ok entry.pinned := by
    have here : bytes.bytes[16]? = some flag := by
      have first : (bytes.bytes.drop 16)[0]? = some flag := by rw [at_flag]; rfl
      rwa [List.getElem?_drop] at first
    unfold readPinned readFlag
    rw [if_pos (by omega), here, flag_eq]
    cases entry.pinned <;> rfl
  have read_length : readU64 bytes.bytes 17 = .ok (UInt64.ofNat length, 25) := by
    have front : bytes.bytes = bytes.bytes.take 17 ++
        (leBytes 8 length ++ (sum ++ entry.block.bytes.bytes)) := by
      rw [← at_length, List.take_append_drop]
    have taken : (bytes.bytes.take 17).length = 17 := by
      rw [List.length_take]
      omega
    have read := readNumber_append ⟨.unexpectedEof, "native SDK frame is truncated"⟩
      (bytes.bytes.take 17) (sum ++ entry.block.bytes.bytes) entry.block.bytes.short
      (by rw [taken]; decide)
    rw [← front, taken] at read
    exact orFault_ok.mpr read
  have read_sum : readChecksum bytes.bytes 25 = .ok (sum, 57) := by
    unfold readChecksum
    rw [if_pos (by omega), at_sum, List.take_left' sum_length]
  have number := payload_length entry.block.bytes
  have read_payload : readPayload bytes 57 (UInt64.ofNat length) = .ok entry.block.bytes := by
    have positive : 0 < length := List.length_pos_iff.mpr filled
    unfold readPayload
    rw [if_neg, if_pos (by omega)]
    · exact congrArg Except.ok (Payload.ext at_payload)
    · rintro (zero | different)
      · have none_there := congrArg UInt64.toNat zero
        rw [number] at none_there
        exact positive.ne' none_there
      · rw [number] at different
        omega
  have block : KvBlock.new entry.block.key entry.block.bytes = .ok entry.block :=
    if_neg fun empty => filled (List.isEmpty_iff.mp empty)
  unfold decodeEntry
  rw [if_neg (by
    rintro (few | above | wrong)
    · omega
    · omega
    · exact wrong magic)]
  refine bind_eq_ok.mpr ⟨_, read_expiry, ?_⟩
  refine bind_eq_ok.mpr ⟨_, read_pin, ?_⟩
  refine bind_eq_ok.mpr ⟨_, read_length, ?_⟩
  refine bind_eq_ok.mpr ⟨_, read_sum, ?_⟩
  refine bind_eq_ok.mpr ⟨_, read_payload, ?_⟩
  rw [if_neg (fun wrong => wrong rfl)]
  exact bind_eq_ok.mpr ⟨_, orFault_ok.mpr block, rfl⟩

/-! ### What is refused -/

theorem safe_orFault {α : Type} (result : Except IoError α) : Safe (orFault result) := by
  cases result with
  | error error => exact safe_refused error
  | ok value => exact safe_ok value

/-- **No byte string makes the decoder panic**: what it indexes, or takes a slice of, is there. -/
theorem decodeEntry_safe (key : KvBlockKey) (bytes : Payload) (max : Nat) :
    Safe (decodeEntry digest key bytes max) := by
  unfold decodeEntry
  split
  case isTrue => exact safe_refused _
  case isFalse sound =>
    rw [not_or, Nat.not_lt] at sound
    refine Safe.bind (safe_orFault _) ?_
    rintro ⟨expiresAt, cursor⟩ read_expiry
    obtain ⟨rfl, _⟩ := readU64_ok (by decide) read_expiry
    refine Safe.bind ?_ fun pinned _ => Safe.bind (safe_orFault _) ?_
    · unfold readPinned
      rw [if_pos (by omega)]
      exact safe_orFault _
    rintro ⟨length, cursor⟩ read_length
    obtain ⟨rfl, _⟩ := readU64_ok (by decide) read_length
    refine Safe.bind ?_ ?_
    · unfold readChecksum
      rw [if_pos (by omega)]
      exact safe_ok _
    rintro ⟨checksum, cursor⟩ read_sum
    obtain ⟨rfl, _⟩ := readChecksum_ok read_sum
    refine Safe.bind ?_ fun payload _ => ?_
    · unfold readPayload
      split
      · exact safe_refused _
      · rw [if_pos (by omega)]
        exact safe_ok _
    · split
      · exact safe_refused _
      · exact Safe.bind (safe_orFault _) fun block _ => safe_ok _

/-! ### Object keys -/

/-- A byte of an identifier is no colon. -/
theorem colon_not_mem {name : String} (valid : validName name = true) : (58 : UInt8) ∉ utf8Bytes name := by
  intro inside
  unfold validName at valid
  simp only [Bool.and_eq_true] at valid
  have byte := List.all_eq_true.mp valid.2 58 inside
  revert byte
  decide

/-- What stands before the first colon. -/
theorem takeWhile_colon {front rest : List UInt8} (none_there : (58 : UInt8) ∉ front) :
    (front ++ 58 :: rest).takeWhile (· != 58) = front := by
  rw [List.takeWhile_append_of_pos fun byte inside => by
    rw [bne_iff_ne]
    exact fun same => none_there (same ▸ inside)]
  exact List.append_nil front

/-- **The keys of a namespace** begin with its prefix, and with that of no other. -/
theorem objectKey_prefix {keyNamespace its : String} (valid : validName keyNamespace = true)
    (also : validName its = true) (rest : List UInt8) :
    (objectPrefix keyNamespace).isPrefixOf (objectPrefix its ++ rest) = true ↔ its = keyNamespace := by
  rw [List.isPrefixOf_iff_prefix]
  constructor
  · rintro ⟨tail, same⟩
    unfold objectPrefix at same
    simp only [List.append_assoc, List.append_cancel_left_eq, List.singleton_append] at same
    have before := congrArg (List.takeWhile (· != 58)) same
    rw [takeWhile_colon (colon_not_mem valid), takeWhile_colon (colon_not_mem also)] at before
    have texts := congrArg fromUtf8 before
    rw [fromUtf8_utf8Bytes, fromUtf8_utf8Bytes] at texts
    exact (Option.some.inj texts).symm
  · rintro rfl
    exact List.prefix_append _ _

/-! ### The tier -/

variable {σ : Type} {contents : σ → List UInt8 → Option Payload} {tier : NativeSdkKvTier σ}

/-- **What a tier accepts, it reads back.** -/
theorem get_put (mapLike : tier.sdk.MapLike contents) {entry : KvTierEntry} {state after : σ}
    (stored : tier.put digest entry state = (.ok (), after)) :
    (tier.get digest entry.block.key after).1 = .ok (some entry) := by
  unfold put at stored
  cases encoding : encodeEntry digest entry with
  | error fault =>
      rw [encoding] at stored
      cases stored
  | ok encoded =>
      rw [encoding] at stored
      dsimp only at stored
      split at stored
      case isTrue => cases stored
      case isFalse within =>
        obtain ⟨filled, framed, _⟩ := encodeEntry_ok.mp encoding
        obtain ⟨answer, left⟩ := Prod.mk.inj stored
        have held := mapLike.put _ _ _ (orFault_ok.mp answer)
        rw [left] at held
        have value : contents after (tier.objectKey digest entry.block.key) = some encoded := by
          rw [held, Function.update_self]
        have answered := mapLike.get (tier.objectKey digest entry.block.key) tier.maxValueBytes after
          fun other same => by
            rw [value] at same
            cases same
            exact Nat.not_lt.mp within
        rw [value] at answered
        have raw : tier.sdk.get (tier.objectKey digest entry.block.key) tier.maxValueBytes after =
            (.ok (some encoded), (tier.sdk.get (tier.objectKey digest entry.block.key)
              tier.maxValueBytes after).2) := Prod.ext answered rfl
        unfold get
        rw [raw]
        show (decodeEntry digest entry.block.key encoded tier.maxValueBytes).map some = _
        rw [decode_encode filled framed (Nat.not_lt.mp within)]
        rfl

/-- **What a `clear` removes.** -/
theorem clear_contents (mapLike : tier.sdk.MapLike contents) {state after : σ}
    (cleared : tier.clear state = (.ok (), after)) :
    contents after = fun name =>
      if (objectPrefix tier.keyNamespace).isPrefixOf name then none else contents state name := by
  have removes := mapLike.clearPrefix (objectPrefix tier.keyNamespace) state (by
    rw [show tier.sdk.clearPrefix (objectPrefix tier.keyNamespace) state = _ from cleared])
  rwa [show tier.sdk.clearPrefix (objectPrefix tier.keyNamespace) state = _ from cleared] at removes

/-- The SDK of the tests: a map in memory. -/
def mockSdk : NativeKvSdk (List UInt8 → Option Payload) where
  name := "mock"
  get key _ values := (.ok (values key), values)
  put key value values := (.ok (), Function.update values key (some value))
  remove key values := (.ok (), Function.update values key none)
  clearPrefix front values := (.ok (), fun key => if front.isPrefixOf key then none else values key)
  health values := (.ok (), values)

theorem mockSdk_mapLike : mockSdk.MapLike id where
  get _ _ _ _ := rfl
  put _ _ _ _ := rfl
  clearPrefix _ _ _ := rfl

/-- A tier of the mock, in the namespace `ns`. -/
def mockTier (maxValueBytes : Nat) (bounded : maxValueBytes ≠ 0) :
    NativeSdkKvTier (List UInt8 → Option Payload) :=
  ⟨"sdk", "ns", maxValueBytes, mockSdk, by decide, by decide, bounded⟩

end NativeSdkKvTier

end RivetCache
