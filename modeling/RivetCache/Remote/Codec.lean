/-
**What is written is read back.**

The writers and the readers of `remote.rs` line up field by field: a key (`reads_key`), an entry
(`reads_entry`), the tag of a request or of a response (`reads_tagged`).
-/

import RivetCache.Remote.Model

set_option linter.unusedSectionVars false

namespace RivetCache

open Library

/-! ### Fields -/

theorem reads_u8 (byte : UInt8) : Reads readU8 [byte] byte := by
  have value := Reads.number endOfStream (show byte.toNat < 256 ^ 1 from byte.toNat_lt)
  have bytes : leBytes 1 byte.toNat = [byte] := by simp [leBytes]
  rw [bytes] at value
  have whole : Reads readU8 [byte] (UInt8.ofNat byte.toNat) := value.last (Reads.pure _)
  rwa [UInt8.ofNat_toNat] at whole

theorem reads_u32 (value : UInt32) : Reads readU32 (u32Bytes value) value := by
  have number := Reads.number endOfStream (show value.toNat < 256 ^ 4 from value.toNat_lt)
  have whole : Reads readU32 (u32Bytes value) (UInt32.ofNat value.toNat) :=
    number.last (Reads.pure _)
  rwa [UInt32.ofNat_toNat] at whole

theorem reads_u64 (value : UInt64) : Reads readRemoteU64 (u64Bytes value) value := by
  have number := Reads.number endOfStream (show value.toNat < 256 ^ 8 from value.toNat_lt)
  have whole : Reads readRemoteU64 (u64Bytes value) (UInt64.ofNat value.toNat) :=
    number.last (Reads.pure _)
  rwa [UInt64.ofNat_toNat] at whole

theorem reads_hash (hash : Vector UInt8 32) : Reads readHash hash.toList hash := by
  intro rest
  have length : hash.toList.length = 32 := hash.length_toList
  unfold readHash
  rw [dif_pos (by rw [List.length_append]; omega)]
  congr 2
  · apply Vector.toList_inj.mp
    show ((hash.toList ++ rest).take 32).toArray.toList = hash.toList
    rw [List.take_left' length]
  · exact List.drop_left' length

theorem reads_bytes {len : UInt64} {payload : Payload} (same : len.toNat = payload.bytes.length) :
    Reads (readBytes len) payload.bytes payload := by
  intro rest
  unfold readBytes
  rw [dif_pos (by rw [List.length_append]; omega)]
  congr 2
  · apply Payload.ext
    exact List.take_left' same.symm
  · exact List.drop_left' same.symm

/-- The tag after the magic. -/
theorem reads_tagged (error : Fault) (tag : UInt8) : Reads (readTagged error) (tagged tag) tag := by
  have magic : Reads (readExactly remoteMagic.length) remoteMagic remoteMagic := Reads.exact _ _
  refine magic.bind (Reads.check (Reads.reject ?_ _) (reads_u8 tag))
  decide

/-! ### Keys -/

/-- **A key that goes over the wire.** -/
structure WireKey (limits : RemoteLimits) (key : KvBlockKey) : Prop where
  filled : utf8Bytes key.modelFingerprint ≠ []
  within : (utf8Bytes key.modelFingerprint).length ≤ limits.maxModelBytes
  counted : (utf8Bytes key.modelFingerprint).length ≤ 2 ^ 32 - 1
  tokens : key.tokenCount ≠ 0
  layers : key.layerCount ≠ 0

variable {limits : RemoteLimits} {key : KvBlockKey}

theorem WireKey.written (wire : WireKey limits key) :
    writeKey key limits = .ok (remoteKeyBytes key) := by
  have filled := wire.filled
  have within := wire.within
  have counted := wire.counted
  unfold writeKey
  dsimp only
  rw [if_neg]
  rintro (empty | long | long)
  · exact filled (List.isEmpty_iff.mp empty)
  · omega
  · omega

/-- **A key is read to its end**, and then its ranges are checked. -/
theorem readKey_remoteKeyBytes (filled : utf8Bytes key.modelFingerprint ≠ [])
    (within : (utf8Bytes key.modelFingerprint).length ≤ limits.maxModelBytes)
    (counted : (utf8Bytes key.modelFingerprint).length ≤ 2 ^ 32 - 1) (rest : List UInt8) :
    readKey limits (remoteKeyBytes key ++ rest) =
      if key.tokenCount = 0 ∨ key.layerCount = 0 then
        .error (protocolError "remote KV key has an empty token or layer range")
      else .ok (key, rest) := by
  have positive : 0 < (utf8Bytes key.modelFingerprint).length := List.length_pos_of_ne_nil filled
  have length : (UInt32.ofNat (utf8Bytes key.modelFingerprint).length).toNat =
      (utf8Bytes key.modelFingerprint).length := by
    rw [UInt32.toNat_ofNat', Nat.mod_eq_of_lt (by omega)]
  have first := reads_u32 (UInt32.ofNat (utf8Bytes key.modelFingerprint).length)
  unfold u32Bytes at first
  rw [length] at first
  have sized : Reads (Reader.reject (decide ((utf8Bytes key.modelFingerprint).length = 0 ∨
      (utf8Bytes key.modelFingerprint).length > limits.maxModelBytes))
      (protocolError "invalid model fingerprint length")) [] () := by
    refine Reads.reject ?_ _
    rw [decide_eq_false_iff_not]
    omega
  have text : Reads (Reader.require (fromUtf8 (utf8Bytes key.modelFingerprint))
      (protocolError "model fingerprint is not UTF-8")) [] key.modelFingerprint := by
    rw [fromUtf8_utf8Bytes]
    exact Reads.require _ _
  have model : Reads (readExactly (utf8Bytes key.modelFingerprint).length)
      (utf8Bytes key.modelFingerprint) (utf8Bytes key.modelFingerprint) := Reads.exact _ _
  unfold remoteKeyBytes readKey
  simp only [List.append_assoc]
  rw [first.then_run, length, sized.check_run, model.then_run, text.check_run,
    (reads_hash _).then_run, (reads_u32 _).then_run, (reads_u32 _).then_run, (reads_u32 _).then_run,
    (reads_u32 _).then_run, (reads_u32 _).then_run, (reads_u32 _).then_run]
  by_cases empty : key.tokenCount = 0 ∨ key.layerCount = 0
  · rw [if_pos empty, decide_eq_true empty]
    rfl
  · rw [if_neg empty, decide_eq_false empty]
    rfl

/-- **A key is read back.** -/
theorem reads_key (wire : WireKey limits key) : Reads (readKey limits) (remoteKeyBytes key) key := by
  intro rest
  rw [readKey_remoteKeyBytes wire.filled wire.within wire.counted,
    if_neg (not_or.mpr ⟨wire.tokens, wire.layers⟩)]

/-! ### Entries -/

/-- **An entry that goes over the wire.** -/
structure WireEntry (limits : RemoteLimits) (entry : KvTierEntry) : Prop where
  filled : 0 < entry.block.bytes.bytes.length
  within : entry.block.bytes.bytes.length ≤ limits.maxPayloadBytes
  allocated : entry.block.bytes.bytes.length ≤ isizeMax

/-- The entry, under a key. -/
def KvTierEntry.under (entry : KvTierEntry) (key : KvBlockKey) : KvTierEntry :=
  { entry with block := { entry.block with key := key } }

variable {entry : KvTierEntry}

theorem WireEntry.written (wire : WireEntry limits entry) :
    writeEntryBody entry limits = .ok (entryBytes entry) := by
  have filled := wire.filled
  have within := wire.within
  unfold writeEntryBody
  rw [if_neg (by omega)]

/-- **An entry is read back**, under the key it was asked for. -/
theorem reads_entry (wire : WireEntry limits entry) (key : KvBlockKey) :
    Reads (readRemoteEntry key limits) (entryBytes entry) (entry.under key) := by
  have filled := wire.filled
  have within := wire.within
  have allocated := wire.allocated
  have length : (UInt64.ofNat entry.block.bytes.bytes.length).toNat =
      entry.block.bytes.bytes.length := by
    rw [UInt64.toNat_ofNat', Nat.mod_eq_of_lt entry.block.bytes.short]
  have counted := reads_u64 (UInt64.ofNat entry.block.bytes.bytes.length)
  unfold u64Bytes at counted
  rw [length] at counted
  have pin : Reads (Reader.require (pinOfByte (if entry.pinned then 1 else 0))
      (protocolError "invalid remote pin flag")) [] entry.pinned := by
    cases entry.pinned <;> exact Reads.require _ _
  refine (reads_u64 _).bind ((reads_u8 _).bind (Reads.check pin (counted.bind (Reads.check
    (Reads.reject ?_ _) (Reads.check (Reads.reject ?_ _) ((reads_bytes length).last
      (Reads.pure _)))))))
  · rw [length, decide_eq_false_iff_not]
    omega
  · rw [length, decide_eq_false_iff_not]
    omega

/-! ### Readers that do not panic -/

section

variable {α β : Type} {reader : Reader Fault α} {next : α → Reader Fault β} {input : List UInt8}

/-- Every failure is an error. -/
def NoPanic (reader : Reader Fault α) : Prop := ∀ input, reader input ≠ .error .panic

theorem bind_apply : (reader >>= next) input =
    Except.bind (reader input) fun taken => next taken.1 taken.2 := rfl

/-- Where a chain of readers panics. -/
theorem panic_bind : (reader >>= next) input = .error .panic ↔
    reader input = .error .panic ∨
      ∃ value rest, reader input = .ok (value, rest) ∧ next value rest = .error .panic :=
  Reader.bind_error

/-- A panic after a reader that does not panic. -/
theorem NoPanic.later (first : NoPanic reader) (panicked : (reader >>= next) input = .error .panic) :
    ∃ value rest, reader input = .ok (value, rest) ∧ next value rest = .error .panic :=
  (panic_bind.mp panicked).resolve_left (first input)

theorem NoPanic.bind (first : NoPanic reader) (second : ∀ value, NoPanic (next value)) :
    NoPanic (reader >>= next) :=
  Reader.Avoids.bind first second

theorem NoPanic.pure (value : α) : NoPanic (Pure.pure value : Reader Fault α) :=
  Reader.Avoids.pure value

theorem endOfStream_ne_panic : endOfStream ≠ .panic := by
  simp [endOfStream]

theorem protocolError_ne_panic (message : String) : protocolError message ≠ .panic := by
  simp [protocolError]

theorem NoPanic.readExactly (n : Nat) : NoPanic (readExactly n) :=
  Reader.Avoids.exact endOfStream_ne_panic n

theorem NoPanic.number (width : Nat) : NoPanic (Reader.number endOfStream width) :=
  (NoPanic.readExactly width).bind fun _ => .pure _

theorem NoPanic.reject (bad : Bool) (message : String) :
    NoPanic (Reader.reject bad (protocolError message)) :=
  Reader.Avoids.reject (protocolError_ne_panic message) bad

theorem NoPanic.require (value : Option α) (message : String) :
    NoPanic (Reader.require value (protocolError message)) :=
  Reader.Avoids.require (protocolError_ne_panic message) value

theorem NoPanic.readU8 : NoPanic readU8 := (NoPanic.number 1).bind fun _ => .pure _

theorem NoPanic.readU32 : NoPanic readU32 := (NoPanic.number 4).bind fun _ => .pure _

theorem NoPanic.readRemoteU64 : NoPanic readRemoteU64 := (NoPanic.number 8).bind fun _ => .pure _

theorem NoPanic.readHash : NoPanic readHash := by
  intro input
  unfold RivetCache.readHash
  split <;> simp [endOfStream]

theorem NoPanic.readBytes (len : UInt64) : NoPanic (readBytes len) := by
  intro input
  unfold RivetCache.readBytes
  split <;> simp [endOfStream]

theorem NoPanic.readRequestHeader : NoPanic readRequestHeader :=
  (NoPanic.readExactly _).bind fun _ => (NoPanic.reject _ _).bind fun _ => .readU8

theorem NoPanic.readKey (limits : RemoteLimits) : NoPanic (readKey limits) := by
  refine NoPanic.readU32.bind fun modelLen => (NoPanic.reject _ _).bind fun _ =>
    (NoPanic.readExactly _).bind fun model => (NoPanic.require _ _).bind fun _ =>
      NoPanic.readHash.bind fun _ => NoPanic.readU32.bind fun _ => NoPanic.readU32.bind fun _ =>
        NoPanic.readU32.bind fun _ => NoPanic.readU32.bind fun _ => NoPanic.readU32.bind fun _ =>
          NoPanic.readU32.bind fun _ => (NoPanic.reject _ _).bind fun _ => .pure _

end

/-! ### Errors -/

/-- **An error is read to its end**, and then its text is. -/
theorem readRemoteError_bytes {bytes : List UInt8} (short : bytes.length ≤ maxErrorBytes)
    (rest : List UInt8) :
    readRemoteError (leBytes 4 bytes.length ++ (bytes ++ rest)) =
      (fromUtf8 bytes).elim (.error (protocolError "remote error message is not UTF-8"))
        fun message => .ok (⟨.other, message⟩, rest) := by
  have wide : maxErrorBytes < 2 ^ 32 := by decide
  have length : (UInt32.ofNat bytes.length).toNat = bytes.length := by
    rw [UInt32.toNat_ofNat', Nat.mod_eq_of_lt (by omega)]
  have first := reads_u32 (UInt32.ofNat bytes.length)
  unfold u32Bytes at first
  rw [length] at first
  have sized : Reads (Reader.reject (decide (bytes.length > maxErrorBytes))
      (protocolError "remote error message exceeds protocol limit")) [] () := by
    refine Reads.reject ?_ _
    rw [decide_eq_false_iff_not]
    omega
  have body : Reads (readExactly bytes.length) bytes bytes := Reads.exact _ _
  unfold readRemoteError
  rw [first.then_run, length, sized.check_run, body.then_run]
  cases fromUtf8 bytes with
  | none => rfl
  | some message => rfl

theorem NoPanic.readRemoteError : NoPanic readRemoteError :=
  NoPanic.readU32.bind fun _ => (NoPanic.reject _ _).bind fun _ =>
    (NoPanic.readExactly _).bind fun _ => (NoPanic.require _ _).bind fun _ => .pure _

end RivetCache
