/-
**What a codec tier reads back.**

`put` checks nothing against the decode limit, and `get` refuses a payload above it: an entry that is
stored is read back if and only if its payload is within the limit and the codec restores it
(`codecKvTier_reads_back`). The built-in codecs restore everything (`identityCodec_roundTrips`,
`rleCodec_roundTrips`).

* `decodeFrame_frame`: what is made of a frame that was written;
* `stored_above_the_limit`: an entry that is stored and cannot be read.
-/

import RivetCache.Codec.Model
import RivetCache.Kv.Tier

set_option linter.unusedSectionVars false

namespace RivetCache

open Library

/-! ### Codecs that restore -/

/-- A codec restores a payload, within a limit. -/
def PayloadCodec.Restores (codec : PayloadCodec) (payload : Payload) (maxOutput : Nat) : Prop :=
  ∀ encoded, codec.encode payload = .ok encoded →
    codec.decode encoded (UInt64.ofNat payload.bytes.length) maxOutput = .ok payload

/-- **A codec that round-trips** restores each payload within the limit. -/
def PayloadCodec.RoundTrips (codec : PayloadCodec) : Prop :=
  ∀ payload maxOutput, payload.bytes.length ≤ maxOutput → codec.Restores payload maxOutput

theorem vecOf_ok {bytes : List UInt8} {payload : Payload} (made : vecOf bytes = .ok payload) :
    bytes.length ≤ isizeMax ∧ payload.bytes = bytes := by
  unfold vecOf at made
  split at made
  case isTrue short =>
    cases made
    exact ⟨short, rfl⟩
  case isFalse => cases made

theorem payload_length (payload : Payload) :
    (UInt64.ofNat payload.bytes.length).toNat = payload.bytes.length := by
  rw [UInt64.toNat_ofNat', Nat.mod_eq_of_lt payload.short]

theorem identityCodec_roundTrips : identityCodec.RoundTrips := by
  rintro payload maxOutput within encoded ⟨⟩
  refine if_neg ?_
  rw [payload_length]
  rintro (above | different)
  · omega
  · exact different rfl

theorem rlePairs_length (cut : List (Nat × UInt8)) : (rlePairs cut).length = 2 * cut.length := by
  induction cut with
  | nil => rfl
  | cons run rest ih =>
      show (rlePairs rest).length + 1 + 1 = 2 * (rest.length + 1)
      omega

/-- The loop of `RleCodec::decode` expands the pairs that were written. -/
theorem rleExpand_rlePairs {expectedLen : Nat} (small : expectedLen ≤ u64Max)
    {cut : List (Nat × UInt8)} (bounded : ∀ run ∈ cut, 0 < run.1 ∧ run.1 ≤ 255)
    {output : List UInt8} (fits : output.length + (expand cut).length ≤ expectedLen) :
    rleExpand expectedLen output (rlePairs cut) = .ok (output ++ expand cut) := by
  induction cut generalizing output with
  | nil => exact congrArg Except.ok (List.append_nil output).symm
  | cons run rest ih =>
      obtain ⟨some_bytes, few⟩ := bounded run List.mem_cons_self
      have count : (UInt8.ofNat run.1).toNat = run.1 := by
        rw [UInt8.toNat_ofNat']
        omega
      rw [expand_cons, List.length_append, List.length_replicate] at fits
      have room : satAdd output.length run.1 = output.length + run.1 := satAdd_of_le (by omega)
      show rleExpand expectedLen output (UInt8.ofNat run.1 :: run.2 :: rlePairs rest) = _
      rw [rleExpand, count, room, if_neg (by omega),
        ih (fun other later => bounded other (List.mem_cons_of_mem _ later))
          (by rw [List.length_append, List.length_replicate]; omega),
        expand_cons, List.append_assoc]

theorem rleCodec_roundTrips : rleCodec.RoundTrips := by
  intro payload maxOutput within encoded written
  have encoding : rleEncode payload = .ok encoded := written
  have cut : payload.bytes.length ≤ isizeMax ∧
      encoded.bytes = rlePairs (runs 254 payload.bytes.length payload.bytes) := by
    unfold rleEncode at encoding
    split at encoding
    case isTrue empty =>
      obtain ⟨_, none⟩ := vecOf_ok encoding
      rw [List.isEmpty_iff.mp empty, none]
      exact ⟨Nat.zero_le _, rfl⟩
    case isFalse =>
      split at encoding
      case isTrue => cases encoding
      case isFalse short => exact ⟨Nat.not_lt.mp short, (vecOf_ok encoding).2⟩
  obtain ⟨short, pairs⟩ := cut
  have whole : expand (runs 254 payload.bytes.length payload.bytes) = payload.bytes :=
    expand_runs (Nat.le_refl _)
  have expanded : rleExpand payload.bytes.length [] encoded.bytes = .ok payload.bytes := by
    rw [pairs, rleExpand_rlePairs (Nat.le_of_lt_succ payload.short)
      (fun run listed => runs_bounded listed) (by rw [whole, List.length_nil, Nat.zero_add]),
      whole, List.nil_append]
  show rleDecode encoded _ _ = _
  unfold rleDecode
  rw [payload_length, if_neg (by rw [pairs, rlePairs_length]; omega),
    if_neg (by rw [Nat.min_eq_left within]; omega), expanded]
  exact dif_pos (payload_length payload).symm

/-! ### Frames -/

section

variable {digest : Digest} {registry : CodecRegistry} {codec : PayloadCodec}

theorem readFrameNumber_append {width n : Nat} (fits : n < 256 ^ width) (front rest : List UInt8)
    {cursor : Nat} (here : front.length = cursor) (short : cursor + width ≤ u64Max) :
    readFrameNumber width (front ++ (leBytes width n ++ rest)) cursor = .ok (n, cursor + width) := by
  have ending : satAdd cursor width = cursor + width := satAdd_of_le short
  unfold readFrameNumber
  rw [ending, if_pos (by simp [here]), ← here, List.drop_left, Nat.add_sub_cancel_left,
    List.take_left' (leBytes_length width n), ofLeBytes_leBytes fits]

/-- The parts of a valid name. -/
theorem validName_length {name : String} (valid : validName name = true) :
    0 < (utf8Bytes name).length ∧ (utf8Bytes name).length ≤ 128 := by
  unfold validName at valid
  simp only [Bool.and_eq_true, Bool.not_eq_true', decide_eq_true_eq] at valid
  exact ⟨List.length_pos_iff.mpr (List.isEmpty_eq_false_iff.mp valid.1.1), valid.1.2⟩

/-- **A frame that was written**: above the limit it is refused, and otherwise the codec decides, and
the digest. -/
theorem decodeFrame_frame {payload encoded frame : Payload} (filled : payload.bytes ≠ [])
    (known : registry.get codec.name = some codec) (valid : validName codec.name = true)
    (framed : frame.bytes = frameBytes digest codec.name payload.bytes encoded.bytes)
    (short : frame.bytes.length ≤ isizeMax) (maxDecodedBytes : Nat) :
    decodeFrame digest registry frame maxDecodedBytes =
      if payload.bytes.length ≤ maxDecodedBytes then do
        let decoded ← codec.decode encoded (UInt64.ofNat payload.bytes.length) maxDecodedBytes
        if (digest decoded.bytes).toList = (digest payload.bytes).toList then .ok decoded
        else invalidFrame "decoded payload checksum mismatch"
      else invalidFrame "decoded payload exceeds configured limit" := by
  obtain ⟨named, brief⟩ := validName_length valid
  have positive : 0 < payload.bytes.length := List.length_pos_iff.mpr filled
  have below : isizeMax < u64Max := by decide
  -- the parts of the frame, one after another
  set text := utf8Bytes codec.name with text_eq
  set sum := (digest payload.bytes).toList with sum_eq
  have sum_length : sum.length = 32 := Vector.length_toList
  have whole : frame.bytes = frameMagic ++ (leBytes 2 text.length ++ (text ++
      (leBytes 8 payload.bytes.length ++ (sum ++ encoded.bytes)))) := framed
  have size : frame.bytes.length = 6 + (2 + (text.length + (8 + (32 + encoded.bytes.length)))) := by
    rw [whole]
    simp only [List.length_append, leBytes_length, sum_length]
    rfl
  have after_length : frame.bytes.drop 8 =
      text ++ (leBytes 8 payload.bytes.length ++ (sum ++ encoded.bytes)) := by
    rw [whole, ← List.append_assoc]
    exact List.drop_left' (by rw [List.length_append, leBytes_length]; rfl)
  have after_name : frame.bytes.drop (8 + text.length) =
      leBytes 8 payload.bytes.length ++ (sum ++ encoded.bytes) := by
    rw [← List.drop_drop, after_length, List.drop_left]
  have at_sum : frame.bytes.drop (8 + text.length + 8) = sum ++ encoded.bytes := by
    rw [← List.drop_drop, after_name, List.drop_left' (leBytes_length 8 _)]
  have at_encoded : frame.drop (8 + text.length + 8 + 32) = encoded := by
    apply Payload.ext
    show frame.bytes.drop _ = _
    rw [← List.drop_drop, at_sum, List.drop_left' sum_length]
  have name_length : readFrameNumber 2 frame.bytes frameMagic.length = .ok (text.length, 8) := by
    rw [whole]
    exact readFrameNumber_append (by omega) frameMagic _ rfl (by decide)
  have payload_size : readFrameNumber 8 frame.bytes (8 + text.length) =
      .ok (payload.bytes.length, 8 + text.length + 8) := by
    have front : frame.bytes = (frameMagic ++ (leBytes 2 text.length ++ text)) ++
        (leBytes 8 payload.bytes.length ++ (sum ++ encoded.bytes)) := by
      rw [whole, List.append_assoc, List.append_assoc]
    rw [front]
    refine readFrameNumber_append payload.short _ _ ?_ (by omega)
    rw [List.length_append, List.length_append, leBytes_length, ← Nat.add_assoc]
    rfl
  unfold decodeFrame
  rw [if_neg (by
    rintro (few | other)
    · rw [size] at few
      have magic : frameMagic.length = 6 := rfl
      omega
    · exact other (by rw [whole]; exact List.take_left' rfl)), name_length]
  show (if text.length = 0 ∨ frame.bytes.length - 8 < text.length + 8 + 32 then _ else _) = _
  rw [if_neg (by omega), after_length, List.take_left' rfl, text_eq, fromUtf8_utf8Bytes]
  show decodeNamed digest registry codec.name frame (8 + text.length) maxDecodedBytes = _
  unfold decodeNamed
  rw [payload_size]
  show (if payload.bytes.length = 0 ∨ payload.bytes.length > maxDecodedBytes ∨
    frame.bytes.length - (8 + text.length + 8) < 32 then _ else _) = _
  by_cases within : payload.bytes.length ≤ maxDecodedBytes
  · rw [if_neg (by omega), if_pos within, known]
    show decodeDigested digest codec frame (8 + text.length + 8) payload.bytes.length _ = _
    unfold decodeDigested
    rw [at_encoded, at_sum, List.take_left' sum_length]
  · rw [if_pos (by omega), if_neg within]

end

/-! ### The tier -/

section

variable {τ : Type} {digest : Digest} {tier : CodecKvTier τ} {codec : PayloadCodec}

/-- **A frame that `encode_frame` makes** of a payload. -/
theorem encodeFrame_ok {payload frame : Payload}
    (made : encodeFrame digest codec payload = .ok frame) :
    payload.bytes ≠ [] ∧ ∃ encoded, codec.encode payload = .ok encoded ∧
      frame.bytes = frameBytes digest codec.name payload.bytes encoded.bytes ∧
      frame.bytes.length ≤ isizeMax := by
  unfold encodeFrame at made
  split at made
  case isTrue => cases made
  case isFalse filled =>
    refine ⟨fun empty => filled (List.isEmpty_iff.mpr empty), ?_⟩
    split at made
    case h_1 => cases made
    case h_2 =>
      split at made
      case isTrue => cases made
      case isFalse =>
        cases encoding : codec.encode payload with
        | error fault =>
            rw [encoding] at made
            cases made
        | ok encoded =>
            rw [encoding] at made
            obtain ⟨short, same⟩ := vecOf_ok made
            exact ⟨encoded, rfl, same, same ▸ short⟩

/-- **What an accepted `put` hands to the tier below**: the entry, with the frame of its payload. -/
theorem put_ok (writes : tier.registry.get tier.writeCodec = some codec) {entry : KvTierEntry}
    {state after : τ} (stored : tier.put digest entry state = (.ok (), after)) :
    ∃ frame, encodeFrame digest codec entry.block.bytes = .ok frame ∧
      tier.inner.put ⟨⟨entry.block.key, frame⟩, entry.expiresAt, entry.pinned⟩ state =
        (.ok (), after) := by
  unfold CodecKvTier.put CodecKvTier.framed at stored
  rw [writes] at stored
  dsimp only at stored
  cases framing : encodeFrame digest codec entry.block.bytes with
  | error fault =>
      rw [framing] at stored
      cases stored
  | ok frame =>
      rw [framing] at stored
      refine ⟨frame, rfl, ?_⟩
      cases blocked : KvBlock.new entry.block.key frame with
      | error error =>
          dsimp only [bind, Except.bind] at stored
          rw [blocked] at stored
          cases stored
      | ok block =>
          dsimp only [bind, Except.bind] at stored
          rw [blocked] at stored
          have same : block = ⟨entry.block.key, frame⟩ := by
            unfold KvBlock.new at blocked
            split at blocked
            · cases blocked
            · exact (Except.ok.inj blocked).symm
          rw [same] at stored
          dsimp only at stored
          split at stored
          case h_1 => cases stored
          case h_2 left accepted =>
            cases stored
            exact accepted

/-- A read of a framed entry: the payload, where the frame is decoded. -/
theorem unframe_eq_ok (key : KvBlockKey) {frame : Payload} (expiresAt : UInt64) (pinned : Bool)
    {payload : Payload} (filled : payload.bytes ≠ []) :
    tier.unframe digest ⟨⟨key, frame⟩, expiresAt, pinned⟩ =
        .ok ⟨⟨key, payload⟩, expiresAt, pinned⟩ ↔
      decodeFrame digest tier.registry frame tier.maxDecodedBytes = .ok payload := by
  have block : KvBlock.new key payload = .ok ⟨key, payload⟩ :=
    if_neg fun empty => filled (List.isEmpty_iff.mp empty)
  unfold CodecKvTier.unframe
  dsimp only
  cases decoded : decodeFrame digest tier.registry frame tier.maxDecodedBytes with
  | error fault => exact iff_of_false (fun read => by cases read) (fun read => by cases read)
  | ok bytes =>
      cases made : KvBlock.new key bytes with
      | error error =>
          simp only [bind, Except.bind, made]
          refine iff_of_false (fun read => by cases read) fun same => ?_
          cases same
          rw [block] at made
          cases made
      | ok result =>
          simp only [bind, Except.bind, made]
          constructor
          · intro read
            unfold KvBlock.new at made
            split at made
            · cases made
            · cases made
              cases read
              rfl
          · intro same
            cases same
            rw [block] at made
            cases made
            rfl

/-- **What `get` makes of an entry below** that was framed. -/
theorem get_framed {entry : KvTierEntry} {frame : Payload} {state : τ}
    (filled : entry.block.bytes.bytes ≠ [])
    (below : (tier.inner.get entry.block.key state).1 =
      .ok (some ⟨⟨entry.block.key, frame⟩, entry.expiresAt, entry.pinned⟩)) :
    (tier.get digest entry.block.key state).1 = .ok (some entry) ↔
      decodeFrame digest tier.registry frame tier.maxDecodedBytes = .ok entry.block.bytes := by
  rw [← unframe_eq_ok entry.block.key entry.expiresAt entry.pinned filled]
  unfold CodecKvTier.get
  rw [show tier.inner.get entry.block.key state =
    (.ok (some ⟨⟨entry.block.key, frame⟩, entry.expiresAt, entry.pinned⟩),
      (tier.inner.get entry.block.key state).2) from Prod.ext below rfl]
  dsimp only
  cases tier.unframe digest ⟨⟨entry.block.key, frame⟩, entry.expiresAt, entry.pinned⟩ with
  | error fault => exact iff_of_false (fun read => by cases read) (fun read => by cases read)
  | ok made =>
      show Except.ok (some made) = .ok (some entry) ↔ Except.ok made = .ok entry
      rw [Except.ok.injEq, Except.ok.injEq, Option.some.injEq]

/-- After an accepted `put` a map-like tier answers what was put. -/
theorem got_after_put {contents : τ → KvBlockKey → Option KvTierEntry} {inner : KvTier τ}
    (mapLike : MapTier inner contents)
    (answers : ∀ key state, ∃ answer, (inner.get key state).1 = .ok answer) {entry : KvTierEntry}
    {state after : τ} (accepted : inner.put entry state = (.ok (), after)) :
    (inner.get entry.block.key after).1 = .ok (some entry) := by
  obtain ⟨answer, answered⟩ := answers entry.block.key after
  have held := mapLike.put state entry (by rw [accepted])
  rw [accepted] at held
  have read : answer = some entry := by
    rw [mapLike.got after entry.block.key answer answered, held]
    exact Function.update_self _ _ _
  rw [answered, read]

/-- **When a written frame is decoded**: within the limit, if the codec restores the payload. -/
theorem decodeFrame_frame_iff {payload encoded frame : Payload} {registry : CodecRegistry}
    (filled : payload.bytes ≠ []) (known : registry.get codec.name = some codec)
    (valid : validName codec.name = true) (encoding : codec.encode payload = .ok encoded)
    (framed : frame.bytes = frameBytes digest codec.name payload.bytes encoded.bytes)
    (short : frame.bytes.length ≤ isizeMax) (maxDecodedBytes : Nat) :
    decodeFrame digest registry frame maxDecodedBytes = .ok payload ↔
      payload.bytes.length ≤ maxDecodedBytes ∧ codec.Restores payload maxDecodedBytes := by
  have restores : codec.Restores payload maxDecodedBytes ↔
      codec.decode encoded (UInt64.ofNat payload.bytes.length) maxDecodedBytes = .ok payload := by
    constructor
    · exact fun all => all encoded encoding
    · intro this other same
      rw [encoding] at same
      cases same
      exact this
  rw [decodeFrame_frame filled known valid framed short, restores]
  by_cases within : payload.bytes.length ≤ maxDecodedBytes
  · rw [if_pos within, and_iff_right within]
    cases codec.decode encoded (UInt64.ofNat payload.bytes.length) maxDecodedBytes with
    | error fault => exact iff_of_false (fun read => by cases read) (fun read => by cases read)
    | ok decoded =>
        show (if (digest decoded.bytes).toList = _ then Except.ok decoded else _) = _ ↔ _
        constructor
        · intro checked
          split at checked
          · exact checked
          · cases checked
        · intro same
          cases same
          exact if_pos rfl
  · rw [if_neg within]
    exact iff_of_false (fun read => by cases read) (fun both => within both.1)

/-- **When a stored entry is read back.** After a `put` that succeeds, `get` answers the entry, if
and only if its payload is within the decode limit and the codec restores it; a codec that
round-trips always does, and the built-in ones round-trip. -/
theorem codecKvTier_reads_back {contents : τ → KvBlockKey → Option KvTierEntry}
    (mapLike : MapTier tier.inner contents)
    (answers : ∀ key state, ∃ answer, (tier.inner.get key state).1 = .ok answer)
    (writes : tier.registry.get tier.writeCodec = some codec) {entry : KvTierEntry}
    {state after : τ} (stored : tier.put digest entry state = (.ok (), after)) :
    ((tier.get digest entry.block.key after).1 = .ok (some entry) ↔
      entry.block.bytes.bytes.length ≤ tier.maxDecodedBytes ∧
        codec.Restores entry.block.bytes tier.maxDecodedBytes) ∧
    (codec.RoundTrips →
      ((tier.get digest entry.block.key after).1 = .ok (some entry) ↔
        entry.block.bytes.bytes.length ≤ tier.maxDecodedBytes)) ∧
    identityCodec.RoundTrips ∧ rleCodec.RoundTrips := by
  have exact_condition : (tier.get digest entry.block.key after).1 = .ok (some entry) ↔
      entry.block.bytes.bytes.length ≤ tier.maxDecodedBytes ∧
        codec.Restores entry.block.bytes tier.maxDecodedBytes := by
    obtain ⟨frame, framing, accepted⟩ := put_ok writes stored
    obtain ⟨filled, encoded, encoding, framed, short⟩ := encodeFrame_ok framing
    have name : codec.name = tier.writeCodec := tier.registry.named _ codec writes
    have valid : validName codec.name = true := name ▸ tier.registry.valid _ codec writes
    have known : tier.registry.get codec.name = some codec := name ▸ writes
    have below := got_after_put mapLike answers accepted
    rw [get_framed filled below]
    exact decodeFrame_frame_iff filled known valid encoding framed short _
  refine ⟨exact_condition, fun roundTrips => ?_, identityCodec_roundTrips, rleCodec_roundTrips⟩
  rw [exact_condition]
  exact and_iff_left_of_imp fun within => roundTrips _ _ within

end

/-! ### A payload above the limit -/

/-- A registry of the built-in codecs. -/
def builtinRegistry : CodecRegistry :=
  (CodecRegistry.empty.insert identityCodec (by decide)).insert rleCodec (by decide)

/-- A codec tier over a memory tier, with a decode limit. -/
def codecTier (maxDecodedBytes : Nat) : CodecKvTier MemoryTier :=
  ⟨"compressed", memoryTier "memory", builtinRegistry, "identity", maxDecodedBytes⟩

/-- An entry of three bytes. -/
def codecEntry : KvTierEntry := ⟨⟨KvBlockKey.sample, ⟨[1, 2, 3], by decide⟩⟩, 0, false⟩

theorem builtinRegistry_identity : builtinRegistry.get "identity" = some identityCodec := rfl

/-- **A stored entry that cannot be read**: three bytes where two are allowed. -/
theorem stored_above_the_limit :
    CodecRegistry.withBuiltins = .ok builtinRegistry ∧
      CodecKvTier.new "compressed" (memoryTier "memory") builtinRegistry "identity" 2 =
        .ok (codecTier 2) ∧
      ∃ after, (codecTier 2).put zeroDigest codecEntry MemoryTier.empty = (.ok (), after) ∧
        ((codecTier 2).get zeroDigest KvBlockKey.sample after).1 =
          .error (.error ⟨.invalidData, "decoded payload exceeds configured limit"⟩) :=
  ⟨rfl, rfl, _, rfl, rfl⟩

/-- An entry within the limit. -/
theorem codecKvTier_reads_back_three :
    ∃ after, (codecTier 3).put zeroDigest codecEntry MemoryTier.empty = (.ok (), after) ∧
      ((codecTier 3).get zeroDigest KvBlockKey.sample after).1 = .ok (some codecEntry) := by
  have stored : (codecTier 3).put zeroDigest codecEntry MemoryTier.empty = (.ok (), _) := rfl
  have reads := codecKvTier_reads_back (memoryTier_mapTier "memory")
    (fun key state => ⟨state.contents key, rfl⟩) builtinRegistry_identity stored
  exact ⟨_, stored, (reads.2.1 identityCodec_roundTrips).mpr (Nat.le_refl 3)⟩

end RivetCache
