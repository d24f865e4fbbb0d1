/-
**What one side sends and the other side takes.**

The client checks a key before it writes it, and the server checks what it reads; the two checks differ. The
server refuses an empty token or layer range, of which the client says nothing. An error is cut by bytes when
it is written, and read as UTF-8.

* `writeKey_read_back`: a key that is written is read back exactly where its ranges are not empty;
* `errorResponse_read_back`: an error is told as an error exactly where its text is cut before a character.
-/

import RivetCache.Remote.Codec

set_option linter.unusedSectionVars false

namespace RivetCache

open Library

/-! ### Keys -/

section

variable {limits : RemoteLimits} {key : KvBlockKey}

/-- What the server asks of a key beyond its model. -/
def KvBlockKey.NonEmptyRanges (key : KvBlockKey) : Prop := key.tokenCount ≠ 0 ∧ key.layerCount ≠ 0

instance : Decidable key.NonEmptyRanges := inferInstanceAs (Decidable (_ ∧ _))

/-- What the client writes of a key, and which keys it writes. -/
theorem writeKey_ok {bytes : List UInt8} :
    writeKey key limits = .ok bytes ↔
      utf8Bytes key.modelFingerprint ≠ [] ∧
        (utf8Bytes key.modelFingerprint).length ≤ limits.maxModelBytes ∧
        (utf8Bytes key.modelFingerprint).length ≤ 2 ^ 32 - 1 ∧ bytes = remoteKeyBytes key := by
  unfold writeKey
  dsimp only
  split
  next refused =>
    refine iff_of_false (fun nothing => by cases nothing) fun ⟨filled, within, counted, _⟩ => ?_
    rcases refused with empty | long | long
    · exact filled (List.isEmpty_iff.mp empty)
    · omega
    · omega
  next accepted =>
    simp only [List.isEmpty_iff, not_or, Nat.not_lt, gt_iff_lt] at accepted
    constructor
    · rintro ⟨⟩
      exact ⟨accepted.1, accepted.2.1, accepted.2.2, rfl⟩
    · rintro ⟨_, _, _, rfl⟩
      rfl

/-- **A key that is written is read back**, and what follows it is left, exactly where its ranges are not
empty; the server refuses any other. -/
theorem writeKey_read_back (limits : RemoteLimits) (key : KvBlockKey) (bytes : List UInt8)
    (written : writeKey key limits = .ok bytes) :
    ((∀ rest, readKey limits (bytes ++ rest) = .ok (key, rest)) ↔ key.NonEmptyRanges) ∧
      (¬ key.NonEmptyRanges → ∀ rest, readKey limits (bytes ++ rest) =
        .error (protocolError "remote KV key has an empty token or layer range")) := by
  obtain ⟨filled, within, counted, rfl⟩ := writeKey_ok.mp written
  have refused : ¬ key.NonEmptyRanges → ∀ rest, readKey limits (remoteKeyBytes key ++ rest) =
      .error (protocolError "remote KV key has an empty token or layer range") := by
    intro empty rest
    rw [readKey_remoteKeyBytes filled within counted]
    refine if_pos ?_
    unfold KvBlockKey.NonEmptyRanges at empty
    tauto
  refine ⟨⟨fun read => ?_, fun ranges => ?_⟩, refused⟩
  · by_contra empty
    have here := read []
    rw [refused empty []] at here
    cases here
  · exact reads_key ⟨filled, within, counted, ranges.1, ranges.2⟩

/-- A key of the model `m`, with so many tokens in its blocks. -/
def keyOfTokens (tokenCount : UInt32) : KvBlockKey :=
  ⟨"m", Vector.replicate 32 0, 0, 0, tokenCount, 0, 1, 1⟩

theorem keyOfTokens_written (tokenCount : UInt32) :
    writeKey (keyOfTokens tokenCount) ⟨1, 1⟩ = .ok (remoteKeyBytes (keyOfTokens tokenCount)) := by
  have model : utf8Bytes (keyOfTokens tokenCount).modelFingerprint = [109] :=
    (by decide : utf8Bytes "m" = [109])
  refine writeKey_ok.mpr ⟨?_, ?_, ?_, rfl⟩ <;> simp [model]

theorem writeKey_read_back_one :
    writeKey (keyOfTokens 1) ⟨1, 1⟩ = .ok (remoteKeyBytes (keyOfTokens 1)) ∧
      ∀ rest, readKey ⟨1, 1⟩ (remoteKeyBytes (keyOfTokens 1) ++ rest) = .ok (keyOfTokens 1, rest) :=
  ⟨keyOfTokens_written 1,
    (writeKey_read_back ⟨1, 1⟩ (keyOfTokens 1) _ (keyOfTokens_written 1)).1.mpr (by decide)⟩

/-- **A key that is sent and refused**: it has no tokens. -/
theorem written_then_refused :
    ∃ bytes, writeKey (keyOfTokens 0) ⟨1, 1⟩ = .ok bytes ∧ ∀ rest,
      readKey ⟨1, 1⟩ (bytes ++ rest) =
        .error (protocolError "remote KV key has an empty token or layer range") := by
  refine ⟨_, keyOfTokens_written 0, fun rest => ?_⟩
  obtain ⟨filled, within, counted, -⟩ := writeKey_ok.mp (keyOfTokens_written 0)
  exact readKey_remoteKeyBytes filled within counted rest

end

/-! ### Errors -/

/-- What the client reads of an error response: the status, and the error. -/
def readErrorReply : Reader Fault (UInt8 × IoError) := do
  let status ← readStatus
  let error ← readRemoteError
  pure (status, error)

/-- **An error response is read to its end**, and then its text is. -/
theorem readErrorReply_errorResponse (message : String) (rest : List UInt8) :
    readErrorReply (errorResponse message ++ rest) =
      (fromUtf8 ((utf8Bytes message).take maxErrorBytes)).elim
        (.error (protocolError "remote error message is not UTF-8"))
        fun text => .ok ((statusError, ⟨.other, text⟩), rest) := by
  have status : Reads readStatus (tagged statusError) statusError := reads_tagged _ _
  have read := readRemoteError_bytes (List.length_take_le maxErrorBytes (utf8Bytes message)) rest
  unfold readErrorReply errorResponse
  dsimp only
  simp only [List.append_assoc]
  rw [status.then_run, bind_apply, read]
  cases fromUtf8 ((utf8Bytes message).take maxErrorBytes) with
  | none => rfl
  | some text => rfl

/-- **An error is told as an error**, with its text or, where that is long, with the beginning of it, exactly
where the text may be cut; elsewhere the client finds fault with the protocol. -/
theorem errorResponse_read_back (message : String) :
    ((∃ text tail, message = text ++ tail ∧
        ((utf8Bytes message).length ≤ maxErrorBytes → text = message) ∧
        ∀ rest, readErrorReply (errorResponse message ++ rest) =
          .ok ((statusError, ⟨.other, text⟩), rest)) ↔
      CutAt message maxErrorBytes) ∧
    (¬ CutAt message maxErrorBytes → ∀ rest, readErrorReply (errorResponse message ++ rest) =
      .error (protocolError "remote error message is not UTF-8")) := by
  obtain ⟨cut, inside⟩ := fromUtf8_take message maxErrorBytes
  have refused : ¬ CutAt message maxErrorBytes → ∀ rest,
      readErrorReply (errorResponse message ++ rest) =
        .error (protocolError "remote error message is not UTF-8") := by
    intro across rest
    rw [readErrorReply_errorResponse, inside across]
    rfl
  refine ⟨⟨fun ⟨text, _, _, _, told⟩ => ?_, fun between => ?_⟩, refused⟩
  · by_contra across
    have here := told []
    rw [refused across []] at here
    cases here
  · obtain ⟨text, tail, read, whole⟩ := cut between
    refine ⟨text, tail, whole, fun short => ?_, fun rest => ?_⟩
    · rw [List.take_of_length_le short, fromUtf8_utf8Bytes] at read
      exact (Option.some.inj read).symm
    · rw [readErrorReply_errorResponse, read]
      rfl

/-- 8191 letters, and a character of two bytes. -/
def longMessage : String := String.ofList (List.replicate 8191 'a' ++ ['é'])

/-- **An error that turns into another**: the cut is within the last character. -/
theorem error_cut_inside :
    ¬ CutAt longMessage maxErrorBytes ∧ ∀ rest, readErrorReply (errorResponse longMessage ++ rest) =
      .error (protocolError "remote error message is not UTF-8") := by
  have across : ¬ CutAt longMessage maxErrorBytes := by
    intro between
    have accent : String.utf8EncodeChar 'é' = [195, 169] := by decide
    have bytes : utf8Bytes longMessage = List.replicate 8191 97 ++ [195, 169] := by
      unfold longMessage
      rw [utf8Bytes_ofList, List.flatMap_append, flatMap_replicate_letter, List.flatMap_singleton,
        accent]
    have there : (utf8Bytes longMessage)[maxErrorBytes]? = some 169 := by
      have past : (List.replicate 8191 (97 : UInt8)).length ≤ maxErrorBytes := by
        rw [List.length_replicate]
        decide
      rw [bytes, List.getElem?_append_right past, List.length_replicate]
      rfl
    exact absurd (between 169 there) (by decide)
  refine ⟨across, fun rest => ?_⟩
  rw [readErrorReply_errorResponse, (fromUtf8_take longMessage maxErrorBytes).2 across]
  rfl

end RivetCache
