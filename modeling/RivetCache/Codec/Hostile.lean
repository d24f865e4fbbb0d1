/-
**What the decoder makes of any byte string.**

`decode_frame` slices a frame at cursors that its header gives, and `RleCodec::decode` reserves the
length that the header declares. Here every slice and every sum is checked (`decodeFrameChecked`): the
slices are in range and the sums do not overflow (`decodeFrameChecked_eq`), and what is left is the
reservation, which is a panic above `isize::MAX`.

* `frame_round_trip`: a frame of a built-in codec is decoded to its payload;
* `rleDecode_ok_iff`, `buffer_bounded`: what `RleCodec::decode` accepts, and its buffer;
* `decode_safe_iff`: on hostile input, when decoding is safe;
* `reservation_panics`: a frame of 54 bytes that makes it panic.
-/

import RivetCache.Codec.Frame

set_option linter.unusedSectionVars false

namespace RivetCache

open Library

/-! ### Run lengths -/

/-- Pairs of a count and a byte, one after another. -/
def countedPairs (cut : List (UInt8 × UInt8)) : List UInt8 := cut.flatMap fun run => [run.1, run.2]

/-- The bytes of some pairs. -/
def countedBytes (cut : List (UInt8 × UInt8)) : List UInt8 :=
  cut.flatMap fun run => List.replicate run.1.toNat run.2

/-- **Pairs of a count and a byte**, with no count zero, whose counts sum to a total. -/
def Counted (input : List UInt8) (total : Nat) : Prop :=
  ∃ cut : List (UInt8 × UInt8), input = countedPairs cut ∧ (∀ run ∈ cut, run.1 ≠ 0) ∧
    (cut.map fun run => run.1.toNat).sum = total

@[simp] theorem countedBytes_length (cut : List (UInt8 × UInt8)) :
    (countedBytes cut).length = (cut.map fun run => run.1.toNat).sum := by
  simp [countedBytes, List.length_flatMap]

@[simp] theorem countedPairs_length (cut : List (UInt8 × UInt8)) :
    (countedPairs cut).length = 2 * cut.length := by
  induction cut with
  | nil => rfl
  | cons run rest ih =>
      show (countedPairs rest).length + 1 + 1 = 2 * (rest.length + 1)
      omega

/-- A list of even length is a list of pairs. -/
theorem exists_countedPairs {input : List UInt8} (even : input.length % 2 = 0) :
    ∃ cut, input = countedPairs cut := by
  match input with
  | [] => exact ⟨[], rfl⟩
  | [byte] => cases even
  | count :: byte :: rest =>
      have shorter : rest.length % 2 = 0 := by
        rw [List.length_cons, List.length_cons] at even
        omega
      obtain ⟨cut, rfl⟩ := exists_countedPairs shorter
      exact ⟨(count, byte) :: cut, rfl⟩

/-- Pairs are cut in one way. -/
theorem countedPairs_injective {cut other : List (UInt8 × UInt8)}
    (same : countedPairs cut = countedPairs other) : cut = other := by
  induction cut generalizing other with
  | nil =>
      cases other with
      | nil => rfl
      | cons run rest => cases same
  | cons run rest ih =>
      cases other with
      | nil => cases same
      | cons its others =>
          change run.1 :: run.2 :: countedPairs rest = its.1 :: its.2 :: countedPairs others at same
          obtain ⟨count, tail⟩ := List.cons.inj same
          obtain ⟨byte, tail⟩ := List.cons.inj tail
          rw [ih tail, Prod.ext count byte]

/-- **The loop of `RleCodec::decode`** on pairs. -/
theorem rleExpand_ok_iff {n : Nat} (small : n < u64Max) {cut : List (UInt8 × UInt8)}
    {output result : List UInt8} (within : output.length ≤ n) :
    rleExpand n output (countedPairs cut) = .ok result ↔
      (∀ run ∈ cut, run.1 ≠ 0) ∧ output.length + (cut.map fun run => run.1.toNat).sum ≤ n ∧
        result = output ++ countedBytes cut := by
  induction cut generalizing output with
  | nil =>
      show Except.ok output = .ok result ↔ _
      constructor
      · rintro ⟨⟩
        exact ⟨fun _ inside => (by cases inside), by simpa using within, (List.append_nil _).symm⟩
      · rintro ⟨_, _, rfl⟩
        exact congrArg Except.ok (List.append_nil _).symm
  | cons run rest ih =>
      show (if run.1.toNat = 0 ∨ satAdd output.length run.1.toNat > n then _
        else rleExpand n (output ++ List.replicate run.1.toNat run.2) (countedPairs rest)) = _ ↔ _
      rw [List.map_cons, List.sum_cons]
      have positive : run.1.toNat = 0 ↔ run.1 = 0 :=
        ⟨fun zero => UInt8.toNat.inj zero, fun zero => by rw [zero]; rfl⟩
      have sum : satAdd output.length run.1.toNat > n ↔ output.length + run.1.toNat > n := by
        unfold satAdd
        omega
      split
      case isTrue refused =>
        rw [positive, sum] at refused
        refine ⟨fun done => (by cases done), fun sound => ?_⟩
        rcases refused with zero | above
        · exact absurd zero (sound.1 run List.mem_cons_self)
        · omega
      case isFalse accepted =>
        rw [positive, sum, not_or] at accepted
        rw [ih (by rw [List.length_append, List.length_replicate]; omega)]
        rw [List.length_append, List.length_replicate, List.forall_mem_cons, Nat.add_assoc,
          List.append_assoc, and_iff_right accepted.1]
        rfl

/-- The loop ends with the bytes or with an error. -/
theorem rleExpand_safe (n : Nat) (output input : List UInt8) : Safe (rleExpand n output input) := by
  match input with
  | [] => exact safe_ok _
  | [byte] => exact safe_ok _
  | run :: byte :: rest =>
      rw [rleExpand]
      split
      · exact safe_refused _
      · exact rleExpand_safe n _ rest

/-- **What `RleCodec::decode` accepts.** -/
theorem rleDecode_ok_iff (input : Payload) (n : UInt64) (max : Nat) :
    (∃ output, rleDecode input n max = .ok output) ↔
      n.toNat ≤ max ∧ n.toNat ≤ isizeMax ∧ Counted input.bytes n.toNat := by
  have limit : isizeMax < u64Max := by decide
  unfold rleDecode
  by_cases framed : n.toNat > max ∨ input.bytes.length % 2 ≠ 0
  · rw [if_pos framed]
    refine ⟨fun ⟨_, done⟩ => (by cases done), fun ⟨within, _, cut, pairs, _⟩ => ?_⟩
    rcases framed with above | odd
    · omega
    · rw [pairs, countedPairs_length] at odd
      omega
  · rw [if_neg framed]
    rw [not_or, not_not] at framed
    obtain ⟨cut, pairs⟩ := exists_countedPairs framed.2
    by_cases huge : min n.toNat max > isizeMax
    · rw [if_pos huge]
      refine ⟨fun ⟨_, done⟩ => (by cases done), fun ⟨within, fits, _⟩ => ?_⟩
      omega
    · rw [if_neg huge]
      have small : n.toNat < u64Max := by omega
      have expands (result : List UInt8) : rleExpand n.toNat [] (countedPairs cut) = .ok result ↔ _ :=
        rleExpand_ok_iff small (Nat.zero_le _)
      rw [← pairs] at expands
      constructor
      · rintro ⟨output, done⟩
        obtain ⟨result, expanded, checked⟩ := bind_eq_ok.mp done
        obtain ⟨nonzero, _, same⟩ := (expands result).mp expanded
        unfold rleOutput at checked
        split at checked
        case isFalse => cases checked
        case isTrue length =>
          refine ⟨by omega, by omega, cut, pairs, nonzero, ?_⟩
          rw [← length, same, List.nil_append, countedBytes_length]
      · rintro ⟨within, fits, other, also, nonzero, total⟩
        rw [countedPairs_injective (pairs.symm.trans also)] at expands
        have expanded := (expands (countedBytes other)).mpr
          ⟨nonzero, by rw [total, List.length_nil, Nat.zero_add], rfl⟩
        have length : (countedBytes other).length = n.toNat := by rw [countedBytes_length, total]
        refine ⟨⟨countedBytes other, length ▸ n.toNat_lt⟩, bind_eq_ok.mpr ⟨_, expanded, ?_⟩⟩
        exact dif_pos length

/-- **When `RleCodec::decode` panics**: it reserves more than a vector holds. -/
theorem rleDecode_panic_iff (input : Payload) (n : UInt64) (max : Nat) :
    rleDecode input n max = .error .panic ↔
      n.toNat ≤ max ∧ isizeMax < n.toNat ∧ input.bytes.length % 2 = 0 := by
  unfold rleDecode
  split
  case isTrue framed =>
    refine ⟨fun panics => (by cases panics), fun sound => ?_⟩
    rcases framed with above | odd
    · omega
    · exact absurd sound.2.2 odd
  case isFalse framed =>
    rw [not_or, not_not] at framed
    split
    case isTrue huge =>
      exact ⟨fun _ => ⟨by omega, by omega, framed.2⟩, fun _ => rfl⟩
    case isFalse fits =>
      refine ⟨fun panics => ?_, fun sound => by omega⟩
      refine absurd panics (Safe.bind (rleExpand_safe _ _ _) fun output _ => ?_)
      unfold rleOutput
      split
      · exact safe_ok _
      · exact safe_refused _

/-- A round of the loop: the buffer and the pairs left, before and after. -/
inductive RleRound (n : Nat) : List UInt8 × List UInt8 → List UInt8 × List UInt8 → Prop
  | pair {output rest : List UInt8} {run byte : UInt8}
      (grows : ¬(run.toNat = 0 ∨ satAdd output.length run.toNat > n)) :
      RleRound n (output, run :: byte :: rest) (output ++ List.replicate run.toNat byte, rest)

/-- The rounds are those of the loop. -/
theorem rleExpand_round {n : Nat} {before after : List UInt8 × List UInt8}
    (round : RleRound n before after) :
    rleExpand n before.1 before.2 = rleExpand n after.1 after.2 := by
  cases round with
  | pair grows =>
      rw [rleExpand]
      exact if_neg grows

/-- **The buffers of a decoding**: those of its loop, once it has reserved. -/
structure RleReaches (input : Payload) (n : UInt64) (max : Nat) (output rest : List UInt8) : Prop where
  framed : ¬(n.toNat > max ∨ input.bytes.length % 2 ≠ 0)
  reserved : ¬(min n.toNat max > isizeMax)
  rounds : Relation.ReflTransGen (RleRound n.toNat) ([], input.bytes) (output, rest)

/-- **The buffer never exceeds** the declared length. -/
theorem buffer_bounded {input : Payload} {n : UInt64} {max : Nat} {output rest : List UInt8}
    (reaches : RleReaches input n max output rest) : output.length ≤ n.toNat := by
  have limit : isizeMax < u64Max := by decide
  obtain ⟨framed, reserved, rounds⟩ := reaches
  rw [not_or] at framed
  have small : n.toNat < u64Max := by omega
  have bounded : ∀ {state : List UInt8 × List UInt8},
      Relation.ReflTransGen (RleRound n.toNat) ([], input.bytes) state → state.1.length ≤ n.toNat := by
    intro state rounds
    induction rounds with
    | refl => exact Nat.zero_le _
    | tail _ round ih =>
        cases round with
        | @pair output rest run byte grows =>
            have room : ¬satAdd output.length run.toNat > n.toNat := fun above => grows (Or.inr above)
            show (output ++ List.replicate run.toNat byte).length ≤ n.toNat
            rw [List.length_append, List.length_replicate]
            unfold satAdd at room
            omega
  exact bounded rounds

/-! ### The fields of a frame -/

/-- The length of the codec's name. -/
def nameLength (frame : List UInt8) : Nat := ofLeBytes ((frame.drop 6).take 2)

/-- The bytes of the codec's name. -/
def nameBytes (frame : List UInt8) : List UInt8 := (frame.drop 8).take (nameLength frame)

/-- The length that the frame declares. -/
def declaredLength (frame : List UInt8) : Nat := ofLeBytes ((frame.drop (8 + nameLength frame)).take 8)

/-- The digest in the frame. -/
def frameDigest (frame : List UInt8) : List UInt8 := (frame.drop (8 + nameLength frame + 8)).take 32

theorem nameLength_lt (frame : List UInt8) : nameLength frame < 65536 := by
  have below := ofLeBytes_lt ((frame.drop 6).take 2)
  have few : ((frame.drop 6).take 2).length ≤ 2 := List.length_take_le _ _
  calc nameLength frame < 256 ^ ((frame.drop 6).take 2).length := below
    _ ≤ 256 ^ 2 := Nat.pow_le_pow_right (by decide) few
    _ = 65536 := by decide

theorem declaredLength_lt (frame : List UInt8) : declaredLength frame < 2 ^ 64 := by
  have below := ofLeBytes_lt ((frame.drop (8 + nameLength frame)).take 8)
  have few : ((frame.drop (8 + nameLength frame)).take 8).length ≤ 8 := List.length_take_le _ _
  calc declaredLength frame < 256 ^ ((frame.drop (8 + nameLength frame)).take 8).length := below
    _ ≤ 256 ^ 8 := Nat.pow_le_pow_right (by decide) few
    _ = 2 ^ 64 := by decide

/-! ### Every slice and every sum checked -/

/-- `&bytes[start..stop]`: out of range, a panic. -/
def sliceOf (bytes : List UInt8) (start stop : Nat) : Except Fault (List UInt8) :=
  if start ≤ stop ∧ stop ≤ bytes.length then .ok ((bytes.drop start).take (stop - start))
  else .error .panic

/-- `&bytes[start..]`: out of range, a panic. -/
def sliceFrom (bytes : Payload) (start : Nat) : Except Fault Payload :=
  if start ≤ bytes.bytes.length then .ok (bytes.drop start) else .error .panic

/-- `left + right`: an overflow is a panic. -/
def plus (left right : Nat) : Except Fault Nat :=
  if left + right ≤ u64Max then .ok (left + right) else .error .panic

/-- `decode_frame`, from the digest on. -/
def decodeDigestedChecked (digest : Digest) (registry : CodecRegistry) (name : String) (frame : Payload)
    (cursor expectedLen maxDecodedBytes : Nat) : Except Fault Payload := do
  let stop ← plus cursor 32
  let expectedDigest ← sliceOf frame.bytes cursor stop
  let cursor ← plus cursor 32
  match registry.get name with
  | none => .error (.error ⟨.unsupported, s!"codec {name} is not registered"⟩)
  | some codec => do
      let encoded ← sliceFrom frame cursor
      let decoded ← codec.decode encoded (UInt64.ofNat expectedLen) maxDecodedBytes
      if (digest decoded.bytes).toList = expectedDigest then .ok decoded
      else invalidFrame "decoded payload checksum mismatch"

/-- `decode_frame`, from the length of the payload on. -/
def decodeNamedChecked (digest : Digest) (registry : CodecRegistry) (name : String) (frame : Payload)
    (cursor maxDecodedBytes : Nat) : Except Fault Payload := do
  let (expectedLen, cursor) ← readFrameNumber 8 frame.bytes cursor
  if expectedLen = 0 ∨ expectedLen > maxDecodedBytes ∨ frame.bytes.length - cursor < 32 then
    invalidFrame "decoded payload exceeds configured limit"
  else decodeDigestedChecked digest registry name frame cursor expectedLen maxDecodedBytes

/-- `decode_frame`, from the name of the codec on. -/
def decodeNameChecked (digest : Digest) (registry : CodecRegistry) (frame : Payload)
    (cursor nameLen maxDecodedBytes : Nat) : Except Fault Payload := do
  let stop ← plus cursor nameLen
  let bytes ← sliceOf frame.bytes cursor stop
  match fromUtf8 bytes with
  | none => invalidFrame "codec name is not UTF-8"
  | some name => do
      let cursor ← plus cursor nameLen
      decodeNamedChecked digest registry name frame cursor maxDecodedBytes

/-- **`decode_frame`**, with each slice and each sum checked. -/
def decodeFrameChecked (digest : Digest) (registry : CodecRegistry) (frame : Payload)
    (maxDecodedBytes : Nat) : Except Fault Payload :=
  if frame.bytes.length < frameMagic.length + 2 + 8 + 32 then invalidFrame "invalid codec frame"
  else do
    let magic ← sliceOf frame.bytes 0 frameMagic.length
    if magic ≠ frameMagic then invalidFrame "invalid codec frame"
    else do
      let (nameLen, cursor) ← readFrameNumber 2 frame.bytes frameMagic.length
      let least ← plus nameLen 8
      let least ← plus least 32
      if nameLen = 0 ∨ frame.bytes.length - cursor < least then
        invalidFrame "invalid codec name length"
      else decodeNameChecked digest registry frame cursor nameLen maxDecodedBytes

section

variable {digest : Digest} {registry : CodecRegistry} {frame : Payload} {maxDecodedBytes : Nat}

theorem plus_eq {left right : Nat} (room : left + right ≤ u64Max) : plus left right = .ok (left + right) :=
  if_pos room

theorem sliceOf_eq {bytes : List UInt8} {start stop : Nat} (order : start ≤ stop)
    (inside : stop ≤ bytes.length) :
    sliceOf bytes start stop = .ok ((bytes.drop start).take (stop - start)) :=
  if_pos ⟨order, inside⟩

theorem sliceFrom_eq {bytes : Payload} {start : Nat} (inside : start ≤ bytes.bytes.length) :
    sliceFrom bytes start = .ok (bytes.drop start) :=
  if_pos inside

/-- The number at a cursor that is inside. -/
theorem readFrameNumber_eq {width : Nat} {bytes : List UInt8} {cursor : Nat}
    (inside : cursor + width ≤ bytes.length) (short : cursor + width ≤ u64Max) :
    readFrameNumber width bytes cursor =
      .ok (ofLeBytes ((bytes.drop cursor).take width), cursor + width) := by
  have ending : satAdd cursor width = cursor + width := satAdd_of_le short
  unfold readFrameNumber
  rw [ending, if_pos inside, Nat.add_sub_cancel_left]

/-- The checks from the digest on do not fail. -/
theorem decodeDigestedChecked_eq {name : String} {cursor expectedLen : Nat}
    (inside : cursor + 32 ≤ frame.bytes.length) :
    decodeDigestedChecked digest registry name frame cursor expectedLen maxDecodedBytes =
      match registry.get name with
      | none => .error (.error ⟨.unsupported, s!"codec {name} is not registered"⟩)
      | some codec => decodeDigested digest codec frame cursor expectedLen maxDecodedBytes := by
  have short := frame.short
  have room : cursor + 32 ≤ u64Max := by
    unfold u64Max
    omega
  unfold decodeDigestedChecked decodeDigested
  simp only [plus_eq room, sliceOf_eq (Nat.le_add_right _ _) inside, sliceFrom_eq inside,
    Nat.add_sub_cancel_left, bind, Except.bind]

/-- **A frame, field by field**: `decode_frame` reads the fields at their places. -/
theorem decodeFrame_eq :
    decodeFrame digest registry frame maxDecodedBytes =
      if frame.bytes.length < 48 ∨ frame.bytes.take 6 ≠ frameMagic then invalidFrame "invalid codec frame"
      else if nameLength frame.bytes = 0 ∨ frame.bytes.length - 8 < nameLength frame.bytes + 8 + 32 then
        invalidFrame "invalid codec name length"
      else
        match fromUtf8 (nameBytes frame.bytes) with
        | none => invalidFrame "codec name is not UTF-8"
        | some name =>
            decodeNamed digest registry name frame (8 + nameLength frame.bytes) maxDecodedBytes := by
  unfold decodeFrame
  by_cases short : frame.bytes.length < 48 ∨ frame.bytes.take 6 ≠ frameMagic
  · rw [if_pos short]
    exact if_pos short
  · rw [if_neg short]
    rw [not_or, Nat.not_lt] at short
    have sound : ¬(frame.bytes.length < frameMagic.length + 2 + 8 + 32 ∨
        frame.bytes.take frameMagic.length ≠ frameMagic) := by
      rintro (few | other)
      · exact absurd few (Nat.not_lt.mpr short.1)
      · exact short.2 other
    rw [if_neg sound, readFrameNumber_eq (show frameMagic.length + 2 ≤ _ from by
      have magic : frameMagic.length = 6 := rfl
      omega) (by decide)]
    rfl

/-- The checks do not fail, up to the name. -/
theorem decodeFrameChecked_field (long : 48 ≤ frame.bytes.length)
    (magic : frame.bytes.take 6 = frameMagic) :
    decodeFrameChecked digest registry frame maxDecodedBytes =
      if nameLength frame.bytes = 0 ∨ frame.bytes.length - 8 < nameLength frame.bytes + 8 + 32 then
        invalidFrame "invalid codec name length"
      else decodeNameChecked digest registry frame 8 (nameLength frame.bytes) maxDecodedBytes := by
  have few := nameLength_lt frame.bytes
  have limit : 65536 + 40 ≤ u64Max := by decide
  have at_name : readFrameNumber 2 frame.bytes frameMagic.length = .ok (nameLength frame.bytes, 8) :=
    readFrameNumber_eq (show 6 + 2 ≤ frame.bytes.length by omega) (by decide)
  have head : sliceOf frame.bytes 0 frameMagic.length = .ok frameMagic := by
    rw [sliceOf_eq (Nat.zero_le _) (show frameMagic.length ≤ _ from le_trans (by decide) long),
      List.drop_zero]
    exact congrArg Except.ok magic
  unfold decodeFrameChecked
  rw [if_neg (show ¬frame.bytes.length < frameMagic.length + 2 + 8 + 32 from Nat.not_lt.mpr long)]
  simp only [head, at_name, plus_eq (show nameLength frame.bytes + 8 ≤ u64Max by omega),
    plus_eq (show nameLength frame.bytes + 8 + 32 ≤ u64Max by omega), bind, Except.bind]
  rw [if_neg (fun other => other rfl)]

/-- The checks do not fail, from the name on. -/
theorem decodeNameChecked_eq (inside : 8 + nameLength frame.bytes + 40 ≤ frame.bytes.length) :
    decodeNameChecked digest registry frame 8 (nameLength frame.bytes) maxDecodedBytes =
      match fromUtf8 (nameBytes frame.bytes) with
      | none => invalidFrame "codec name is not UTF-8"
      | some name =>
          decodeNamed digest registry name frame (8 + nameLength frame.bytes) maxDecodedBytes := by
  have few := nameLength_lt frame.bytes
  have limit : 65536 + 48 ≤ u64Max := by decide
  have room : 8 + nameLength frame.bytes ≤ u64Max := by omega
  have at_length : readFrameNumber 8 frame.bytes (8 + nameLength frame.bytes) =
      .ok (declaredLength frame.bytes, 8 + nameLength frame.bytes + 8) :=
    readFrameNumber_eq (by omega) (by omega)
  have text : sliceOf frame.bytes 8 (8 + nameLength frame.bytes) = .ok (nameBytes frame.bytes) := by
    rw [sliceOf_eq (Nat.le_add_right _ _) (by omega), Nat.add_sub_cancel_left]
    rfl
  unfold decodeNameChecked
  simp only [plus_eq room, text, bind, Except.bind]
  cases fromUtf8 (nameBytes frame.bytes) with
  | none => rfl
  | some name =>
      dsimp only
      unfold decodeNamedChecked decodeNamed
      simp only [at_length, bind, Except.bind]
      split
      · rfl
      · exact decodeDigestedChecked_eq (by omega)

/-- **No slice is out of range and no sum overflows**, whatever the frame. -/
theorem decodeFrameChecked_eq :
    decodeFrameChecked digest registry frame maxDecodedBytes =
      decodeFrame digest registry frame maxDecodedBytes := by
  rw [decodeFrame_eq]
  by_cases few : frame.bytes.length < 48
  · rw [if_pos (Or.inl few)]
    exact if_pos few
  · by_cases magic : frame.bytes.take 6 = frameMagic
    · rw [decodeFrameChecked_field (Nat.not_lt.mp few) magic,
        if_neg (show ¬(frame.bytes.length < 48 ∨ frame.bytes.take 6 ≠ frameMagic) from by
          rintro (below | other)
          · exact few below
          · exact other magic)]
      split
      case isTrue => rfl
      case isFalse sized => exact decodeNameChecked_eq (by omega)
    · rw [if_pos (Or.inr magic)]
      have head : sliceOf frame.bytes 0 frameMagic.length = .ok (frame.bytes.take 6) := by
        rw [sliceOf_eq (Nat.zero_le _) (show frameMagic.length ≤ _ from
          le_trans (by decide) (Nat.not_lt.mp few)), List.drop_zero]
        rfl
      unfold decodeFrameChecked
      rw [if_neg (show ¬frame.bytes.length < frameMagic.length + 2 + 8 + 32 from few)]
      simp only [head, bind, Except.bind]
      exact if_pos magic

/-- **A frame that is decoded**: its header is whole, and its codec makes of its bytes a payload with the
digest in the frame. -/
theorem decodeFrame_ok {decoded : Payload}
    (done : decodeFrame digest registry frame maxDecodedBytes = .ok decoded) :
    ∃ name codec, registry.get name = some codec ∧ declaredLength frame.bytes ≠ 0 ∧
      declaredLength frame.bytes ≤ maxDecodedBytes ∧
      codec.decode (frame.drop (8 + nameLength frame.bytes + 8 + 32))
        (UInt64.ofNat (declaredLength frame.bytes)) maxDecodedBytes = .ok decoded ∧
      (digest decoded.bytes).toList = frameDigest frame.bytes := by
  rw [decodeFrame_eq] at done
  split at done
  case isTrue => cases done
  case isFalse =>
    split at done
    case isTrue => cases done
    case isFalse sized =>
      have few := nameLength_lt frame.bytes
      have limit : 65536 + 48 ≤ u64Max := by decide
      split at done
      case h_1 => cases done
      case h_2 name _ =>
        unfold decodeNamed at done
        rw [readFrameNumber_eq (by omega) (by omega)] at done
        simp only [bind, Except.bind] at done
        split at done
        case isTrue => cases done
        case isFalse checked =>
          rw [not_or, not_or] at checked
          split at done
          case h_1 => cases done
          case h_2 codec known =>
            obtain ⟨result, decoding, compared⟩ := bind_eq_ok.mp done
            split at compared
            case isFalse => cases compared
            case isTrue same =>
              cases compared
              exact ⟨name, codec, known, checked.1, Nat.not_lt.mp checked.2.1, decoding, same⟩

/-- **A frame that declares too much**: its header is whole, its codec is the run-length codec, and it
declares more bytes than a vector holds, within the limit, for bytes that come in pairs. -/
structure Overcommits (registry : CodecRegistry) (frame : List UInt8) (maxDecodedBytes : Nat) : Prop where
  magic : frame.take 6 = frameMagic
  named : nameLength frame ≠ 0
  sized : nameLength frame + 48 ≤ frame.length
  codec : ∃ name, fromUtf8 (nameBytes frame) = some name ∧ registry.get name = some rleCodec
  within : declaredLength frame ≤ maxDecodedBytes
  huge : isizeMax < declaredLength frame
  paired : (frame.length - (nameLength frame + 48)) % 2 = 0

/-- The registry has no other codecs than the built-in ones. -/
def CodecRegistry.Builtin (registry : CodecRegistry) : Prop :=
  ∀ name codec, registry.get name = some codec → codec = identityCodec ∨ codec = rleCodec

theorem declaredLength_toNat (frame : List UInt8) :
    (UInt64.ofNat (declaredLength frame)).toNat = declaredLength frame := by
  rw [UInt64.toNat_ofNat', Nat.mod_eq_of_lt (declaredLength_lt frame)]

/-- The bytes after the digest are decoded, and that is all that can panic. -/
theorem decodeDigested_panic_iff {codec : PayloadCodec} {cursor expectedLen : Nat} :
    decodeDigested digest codec frame cursor expectedLen maxDecodedBytes = .error .panic ↔
      codec.decode (frame.drop (cursor + 32)) (UInt64.ofNat expectedLen) maxDecodedBytes =
        .error .panic := by
  refine ⟨fun panics => ?_, fun panics => bind_eq_error.mpr (Or.inl panics)⟩
  rcases bind_eq_error.mp panics with here | ⟨decoded, _, compared⟩
  · exact here
  · split at compared <;> cases compared

/-- **When decoding panics.** -/
theorem decodeFrame_panic_iff (builtin : registry.Builtin) :
    decodeFrame digest registry frame maxDecodedBytes = .error .panic ↔
      Overcommits registry frame.bytes maxDecodedBytes := by
  have few := nameLength_lt frame.bytes
  have limit : 65536 + 48 ≤ u64Max := by decide
  rw [decodeFrame_eq]
  split
  case isTrue short =>
    refine ⟨fun panics => (by cases panics), fun greedy => ?_⟩
    rcases short with below | other
    · have sized := greedy.sized
      omega
    · exact absurd greedy.magic other
  case isFalse whole =>
    rw [not_or, not_not] at whole
    split
    case isTrue unsized =>
      refine ⟨fun panics => (by cases panics), fun greedy => ?_⟩
      have sized := greedy.sized
      rcases unsized with zero | below
      · exact absurd zero greedy.named
      · omega
    case isFalse sized =>
      rw [not_or] at sized
      split
      case h_1 absent =>
        refine ⟨fun panics => (by cases panics), fun greedy => ?_⟩
        obtain ⟨name, text, _⟩ := greedy.codec
        rw [absent] at text
        cases text
      case h_2 name text =>
        unfold decodeNamed
        rw [readFrameNumber_eq (by omega) (by omega)]
        simp only [bind, Except.bind]
        change (if declaredLength frame.bytes = 0 ∨ declaredLength frame.bytes > maxDecodedBytes ∨
          frame.bytes.length - (8 + nameLength frame.bytes + 8) < 32 then _ else _) = _ ↔ _
        split
        case isTrue refused =>
          refine ⟨fun panics => (by cases panics), fun greedy => ?_⟩
          have huge := greedy.huge
          have within := greedy.within
          omega
        case isFalse accepted =>
          split
          case h_1 absent =>
            refine ⟨fun panics => (by cases panics), fun greedy => ?_⟩
            obtain ⟨other, its, listed⟩ := greedy.codec
            rw [text] at its
            cases its
            rw [absent] at listed
            cases listed
          case h_2 codec listed =>
            change decodeDigested digest codec frame (8 + nameLength frame.bytes + 8)
              (declaredLength frame.bytes) maxDecodedBytes = _ ↔ _
            rw [decodeDigested_panic_iff]
            rcases builtin name codec listed with rfl | rfl
            · refine ⟨fun panics => ?_, fun greedy => ?_⟩
              · simp only [identityCodec] at panics
                split at panics <;> cases panics
              · obtain ⟨other, its, also⟩ := greedy.codec
                rw [text] at its
                cases its
                rw [listed] at also
                have names := congrArg PayloadCodec.name (Option.some.inj also)
                exact absurd names (by decide)
            · have body : (frame.drop (8 + nameLength frame.bytes + 8 + 32)).bytes.length =
                  frame.bytes.length - (nameLength frame.bytes + 48) := by
                show (frame.bytes.drop _).length = _
                rw [List.length_drop]
                omega
              show rleDecode _ _ _ = _ ↔ _
              rw [rleDecode_panic_iff, declaredLength_toNat, body]
              constructor
              · rintro ⟨within, huge, paired⟩
                exact ⟨whole.2, sized.1, by omega, ⟨name, text, listed⟩, within, huge, paired⟩
              · intro greedy
                exact ⟨greedy.within, greedy.huge, greedy.paired⟩

end

/-! ### Safety -/

/-- **Decoding a frame is safe**: no slice is out of range, no sum overflows and nothing panics, and what
is decoded is a payload of the length declared, within the limit and with the digest in the frame. -/
structure FrameSafe (digest : Digest) (registry : CodecRegistry) (frame : Payload)
    (maxDecodedBytes : Nat) : Prop where
  safe : decodeFrameChecked digest registry frame maxDecodedBytes ≠ .error .panic
  sound : ∀ decoded, decodeFrameChecked digest registry frame maxDecodedBytes = .ok decoded →
    decoded.bytes ≠ [] ∧ decoded.bytes.length = declaredLength frame.bytes ∧
      decoded.bytes.length ≤ maxDecodedBytes ∧ (digest decoded.bytes).toList = frameDigest frame.bytes

/-- **`RleCodec::decode` is exact**: it accepts pairs of a count and a byte, with no count zero, whose
counts sum to the length, and its buffer does not grow beyond it. -/
structure RleExact (input : Payload) (n : UInt64) (max : Nat) : Prop where
  accepts : (∃ output, rleDecode input n max = .ok output) ↔
    n.toNat ≤ max ∧ Counted input.bytes n.toNat
  bounded : ∀ output rest, RleReaches input n max output rest → output.length ≤ n.toNat

/-- A built-in codec decodes the length that is expected. -/
theorem builtin_length {codec : PayloadCodec} (builtin : codec = identityCodec ∨ codec = rleCodec)
    {input decoded : Payload} {n : UInt64} {max : Nat} (done : codec.decode input n max = .ok decoded) :
    decoded.bytes.length = n.toNat := by
  rcases builtin with rfl | rfl
  · simp only [identityCodec] at done
    split at done
    case isTrue => cases done
    case isFalse sound =>
      cases done
      rw [not_or, not_not] at sound
      exact sound.2
  · change rleDecode input n max = .ok decoded at done
    unfold rleDecode at done
    split at done
    case isTrue => cases done
    case isFalse =>
      split at done
      case isTrue => cases done
      case isFalse =>
        obtain ⟨output, _, checked⟩ := bind_eq_ok.mp done
        unfold rleOutput at checked
        split at checked
        case isFalse => cases checked
        case isTrue same =>
          cases checked
          exact same

/-- **When decoding is safe on hostile input.** A frame: unless it declares more than a vector holds,
within the limit, for the run-length codec. `RleCodec::decode`: unless the length is more than a vector
holds, within the limit, and the counts do sum to it. -/
theorem decode_safe_iff (digest : Digest) {registry : CodecRegistry} (builtin : registry.Builtin)
    (frame : Payload) (maxDecodedBytes : Nat) (input : Payload) (n : UInt64) (max : Nat) :
    (FrameSafe digest registry frame maxDecodedBytes ↔
      ¬Overcommits registry frame.bytes maxDecodedBytes) ∧
    (RleExact input n max ↔ ¬(isizeMax < n.toNat ∧ n.toNat ≤ max ∧ Counted input.bytes n.toNat)) := by
  constructor
  · have panics := @decodeFrame_panic_iff digest registry frame maxDecodedBytes builtin
    rw [← panics, ← decodeFrameChecked_eq]
    refine ⟨fun safe => safe.safe, fun safe => ⟨safe, fun decoded done => ?_⟩⟩
    rw [decodeFrameChecked_eq] at done
    obtain ⟨name, codec, known, positive, within, decoding, same⟩ := decodeFrame_ok done
    have length := builtin_length (builtin name codec known) decoding
    rw [declaredLength_toNat] at length
    refine ⟨fun empty => positive ?_, length, length ▸ within, same⟩
    rw [← length, empty]
    rfl
  · constructor
    · rintro exact_decoding ⟨huge, within, counted⟩
      have accepted := exact_decoding.accepts.mpr ⟨within, counted⟩
      have fits := ((rleDecode_ok_iff input n max).mp accepted).2.1
      omega
    · intro fits
      refine ⟨?_, fun output rest reaches => buffer_bounded reaches⟩
      rw [rleDecode_ok_iff]
      constructor
      · exact fun sound => ⟨sound.1, sound.2.2⟩
      · exact fun sound => ⟨sound.1, Nat.not_lt.mp fun huge => fits ⟨huge, sound⟩, sound.2⟩

theorem builtinRegistry_builtin : builtinRegistry.Builtin := by
  intro name codec listed
  change (((∅ : Table String PayloadCodec).insert identityCodec.name identityCodec).insert
    rleCodec.name rleCodec).lookup name = some codec at listed
  rw [lookup_insert_eq, lookup_insert_eq] at listed
  split at listed
  case isTrue =>
    cases listed
    exact Or.inr rfl
  case isFalse =>
    split at listed
    case isTrue =>
      cases listed
      exact Or.inl rfl
    case isFalse => simp at listed

/-- A frame of the run-length codec, without a payload, that declares `2 ^ 63` bytes. -/
def greedyFrame : Payload where
  bytes := [82, 75, 67, 48, 49, 10, 6, 0, 114, 108, 101, 45, 118, 49, 0, 0, 0, 0, 0, 0, 0, 128] ++
    List.replicate 32 0
  short := by decide

/-- **The reservation panics**: 54 bytes, and a limit that is no limit. -/
theorem reservation_panics :
    decodeFrame zeroDigest builtinRegistry greedyFrame u64Max = .error .panic ∧
      ¬FrameSafe zeroDigest builtinRegistry greedyFrame u64Max := by
  have panics : decodeFrame zeroDigest builtinRegistry greedyFrame u64Max = .error .panic := rfl
  refine ⟨panics, fun safe => safe.safe ?_⟩
  rw [decodeFrameChecked_eq]
  exact panics

/-- Two frames and two inputs that are decoded safely. -/
theorem decode_safe_iff_small :
    FrameSafe zeroDigest builtinRegistry greedyFrame isizeMax ∧ RleExact ⟨[3, 7], by decide⟩ 3 9 := by
  have small := decode_safe_iff zeroDigest builtinRegistry_builtin greedyFrame isizeMax
    ⟨[3, 7], by decide⟩ 3 9
  refine ⟨small.1.mpr fun greedy => ?_, small.2.mpr fun greedy => ?_⟩
  · exact absurd greedy.within (Nat.not_le.mpr greedy.huge)
  · exact absurd greedy.1 (by decide)

/-! ### Both ways -/

/-- **A frame of a built-in codec is decoded to its payload**, under every limit that allows it; and
every payload has a frame, as long as a vector holds it. -/
theorem frame_round_trip (digest : Digest) {registry : CodecRegistry}
    (identity : registry.get "identity" = some identityCodec)
    (rle : registry.get "rle-v1" = some rleCodec) {codec : PayloadCodec}
    (builtin : codec = identityCodec ∨ codec = rleCodec) {payload : Payload}
    (filled : payload.bytes ≠ []) {maxDecodedBytes : Nat}
    (within : payload.bytes.length ≤ maxDecodedBytes) :
    (∀ frame, encodeFrame digest codec payload = .ok frame →
      decodeFrame digest registry frame maxDecodedBytes = .ok payload) ∧
    (2 * payload.bytes.length + 64 ≤ isizeMax →
      ∃ frame, encodeFrame digest codec payload = .ok frame) := by
  have valid : validName codec.name = true := by
    rcases builtin with rfl | rfl <;> decide
  have roundTrips : codec.RoundTrips := by
    rcases builtin with rfl | rfl
    · exact identityCodec_roundTrips
    · exact rleCodec_roundTrips
  have known : registry.get codec.name = some codec := by
    rcases builtin with rfl | rfl
    · exact identity
    · exact rle
  constructor
  · intro frame framing
    obtain ⟨_, encoded, encoding, framed, short⟩ := encodeFrame_ok framing
    exact (decodeFrame_frame_iff filled known valid encoding framed short maxDecodedBytes).mpr
      ⟨within, roundTrips payload maxDecodedBytes within⟩
  · intro fits
    have encodes : ∃ encoded, codec.encode payload = .ok encoded ∧
        encoded.bytes.length ≤ 2 * payload.bytes.length := by
      rcases builtin with rfl | rfl
      · exact ⟨payload, rfl, by omega⟩
      · have few := runs_length_le 254 payload.bytes.length payload.bytes
        have size := rlePairs_length (runs 254 payload.bytes.length payload.bytes)
        have room : (rlePairs (runs 254 payload.bytes.length payload.bytes)).length ≤ isizeMax := by omega
        refine ⟨⟨rlePairs (runs 254 payload.bytes.length payload.bytes),
          Nat.lt_of_le_of_lt room (by decide)⟩, ?_, ?_⟩
        case refine_2 =>
          show (rlePairs _).length ≤ _
          omega
        show rleEncode payload = _
        unfold rleEncode vecOf
        rw [if_neg (fun empty => filled (List.isEmpty_iff.mp empty)), if_neg (by omega), dif_pos room]
    obtain ⟨encoded, encoding, size⟩ := encodes
    have name : (utf8Bytes codec.name).length ≤ 8 := by
      rcases builtin with rfl | rfl <;> decide
    have room : (frameBytes digest codec.name payload.bytes encoded.bytes).length ≤ isizeMax := by
      unfold frameBytes
      simp only [List.length_append, leBytes_length, Vector.length_toList]
      have magic : frameMagic.length = 6 := rfl
      omega
    refine ⟨⟨frameBytes digest codec.name payload.bytes encoded.bytes,
      Nat.lt_of_le_of_lt room (by decide)⟩, ?_⟩
    unfold encodeFrame validateName
    rw [if_neg (fun empty => filled (List.isEmpty_iff.mp empty)), if_pos valid]
    dsimp only
    rw [if_neg (by omega)]
    refine bind_eq_ok.mpr ⟨encoded, encoding, ?_⟩
    unfold vecOf
    rw [dif_pos room]

/-- A payload of three equal bytes. -/
theorem frame_round_trip_run :
    ∃ frame, encodeFrame zeroDigest rleCodec ⟨[7, 7, 7], by decide⟩ = .ok frame ∧
      decodeFrame zeroDigest builtinRegistry frame 3 = .ok ⟨[7, 7, 7], by decide⟩ := by
  have filled : (⟨[7, 7, 7], by decide⟩ : Payload).bytes ≠ [] := List.cons_ne_nil _ _
  have round := frame_round_trip zeroDigest builtinRegistry_identity
    (show builtinRegistry.get "rle-v1" = some rleCodec from rfl) (Or.inr rfl) filled (Nat.le_refl 3)
  obtain ⟨frame, framing⟩ := round.2 (by decide)
  exact ⟨frame, framing, round.1 frame framing⟩

end RivetCache
