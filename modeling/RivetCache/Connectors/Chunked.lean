/-
**`connectors.rs` and `llama_server.rs`: bodies in chunks.**

Two decoders of the chunked transfer encoding. `decodeChunked` works on a slice, with its slicing and its
arithmetic as the code has them: a range that is not one of the slice, or a sum above `usize::MAX`, is a
panic. `readChunked` works on a stream, and takes the trailer as well.

`Chunked chunks bytes` says that `bytes` encode the chunks, with any hexadecimal size texts.

* `decodeChunked_safe`: no slice makes `decodeChunked` panic;
* `chunked_decoded`: both decoders answer the chunks, one after another.
-/

import Mathlib.Data.List.TakeWhile
import RivetCache.Remote.Codec
import RivetCache.Connectors.Redis
import RivetCache.Library.Digits
import RivetCache.Library.Lines
import RivetCache.Library.Fallible

set_option linter.unusedSectionVars false

namespace RivetCache

open Library

/-! ### Sizes -/

/-- `str::trim`. -/
def trimmed (text : List Char) : List Char :=
  ((text.dropWhile isWhitespace).reverse.dropWhile isWhitespace).reverse

/-- The size a header line tells: what is before a `;`, trimmed, as a hexadecimal `usize`. -/
def chunkSize (line : String) : Option Nat :=
  parseUnsigned 16 u64Max (trimmed (line.toList.takeWhile fun char => char != ';'))

/-! ### On a slice -/

/-- A slice: no longer than an allocation can be. -/
structure ByteSlice where
  bytes : List UInt8
  allocated : bytes.length ≤ isizeMax

/-- `&bytes[start..stop]`. -/
def sliceRange (bytes : List UInt8) (start stop : Nat) : Except Fault (List UInt8) :=
  if start ≤ stop ∧ stop ≤ bytes.length then .ok ((bytes.drop start).take (stop - start))
  else .error .panic

/-- A sum of `usize`. -/
def addUsize (left right : Nat) : Except Fault Nat :=
  if left + right ≤ u64Max then .ok (left + right) else .error .panic

/-- A value, or an error. -/
def orError {α : Type} (value : Option α) (error : IoError) : Except Fault α :=
  match value with
  | none => .error (.error error)
  | some value => .ok value

/-- Where the first CR LF begins. -/
def crlfAt : List UInt8 → Option Nat
  | [] => none
  | byte :: rest => if crlf <+: byte :: rest then some 0 else (crlfAt rest).map (· + 1)

/-- `decode_chunked`, whether the chunk or the CR LF after it is missing. -/
def chunkTruncated (input : List UInt8) (size : Nat) : Except Fault Bool :=
  if input.length < satAdd size 2 then .ok true
  else do
    let stop ← addUsize size 2
    let ending ← sliceRange input size stop
    pure (ending != crlf)

/-- `decode_chunked`, a round: the output so far, and the rest of the input. -/
def decodeRound (output : List UInt8) : Reader Fault (List UInt8 ⊕ List UInt8) := fun input => do
  let lineEnd ← orError (crlfAt input) ⟨.invalidData, "invalid chunk header"⟩
  let header ← sliceRange input 0 lineEnd
  let line ← orError (fromUtf8 header) ⟨.invalidData, "invalid chunk size"⟩
  let size ← orError (chunkSize line) ⟨.invalidData, "invalid chunk size"⟩
  let input ← sliceRange input (lineEnd + 2) input.length
  if size = 0 then pure (.inr output, input)
  else
    let truncated ← chunkTruncated input size
    if truncated then .error (.error ⟨.unexpectedEof, "truncated HTTP chunk"⟩)
    else
      let chunk ← sliceRange input 0 size
      let stop ← addUsize size 2
      let rest ← sliceRange input stop input.length
      pure (.inl (output ++ chunk), rest)

/-! ### On a stream -/

/-- `read_http_line`. -/
def readHttpLine (max : Nat) : Reader Fault String :=
  readLine max (.error (connectorError "invalid HTTP line"))
    (.error (connectorError "HTTP line is not UTF-8"))

/-- `read_chunked`, a line of the trailer. -/
def readTrailer (_ : Unit) : Reader Fault (Unit ⊕ Unit) := do
  let line ← readHttpLine 8192
  pure (if line.isEmpty then .inr () else .inl ())

theorem readTrailer_shortens (state : Unit) : (readTrailer state).Shortens :=
  Reader.Shortens.bind (readLine_shortens _ _ _) fun _ => .pure _

/-- `read_chunked`, a round: the body so far. -/
def readChunkRound (max : Nat) (body : List UInt8) : Reader Fault (List UInt8 ⊕ List UInt8) := do
  let line ← readHttpLine 128
  let size ← Reader.require (chunkSize line) (.error (connectorError "invalid HTTP chunk size"))
  if size = 0 then
    let _ ← Reader.loop readTrailer readTrailer_shortens ()
    pure (.inr body)
  else
    let _ ← Reader.reject (decide (satAdd body.length size > max))
      (.error ⟨.invalidData, "chunked HTTP body exceeds limit"⟩)
    let _ ← zeroVec (body.length + size)
    let chunk ← readExactly size
    let ending ← readExactly 2
    let _ ← Reader.reject (ending != crlf) (.error (connectorError "HTTP chunk missing CRLF"))
    pure (.inl (body ++ chunk))

theorem readChunkRound_shortens (max : Nat) (body : List UInt8) :
    (readChunkRound max body).Shortens := by
  refine Reader.Shortens.bind (readLine_shortens _ _ _) fun line =>
    Reader.Keeps.bind (.require _ _) fun size => ?_
  split
  · exact Reader.Keeps.bind (.loop _) fun _ => .pure _
  · exact Reader.Keeps.bind (.reject _ _) fun _ => Reader.Keeps.bind (.reject _ _) fun _ =>
      Reader.Keeps.bind (.exact _ _) fun _ => Reader.Keeps.bind (.exact _ _) fun _ =>
        Reader.Keeps.bind (.reject _ _) fun _ => .pure _

/-- `read_chunked`. -/
def readChunked (max : Nat) : Reader Fault (List UInt8) :=
  Reader.loop (readChunkRound max) (readChunkRound_shortens max) []

/-! ### No slice is out of range -/

section

variable {input front rest output bytes : List UInt8} {size lineEnd start stop : Nat}

theorem crlfAt_some (found : crlfAt input = some lineEnd) : lineEnd + 2 ≤ input.length := by
  induction input generalizing lineEnd with
  | nil => cases found
  | cons byte input ih =>
      unfold crlfAt at found
      split at found
      next here =>
        cases found
        exact here.length_le
      next =>
        obtain ⟨earlier, there, rfl⟩ := Option.map_eq_some_iff.mp found
        have inside := ih there
        rw [List.length_cons]
        omega

theorem sliceRange_ok (order : start ≤ stop) (inside : stop ≤ bytes.length) :
    sliceRange bytes start stop = .ok ((bytes.drop start).take (stop - start)) :=
  if_pos ⟨order, inside⟩

/-- A chunk that is announced is whole, or is missed; neither reaches past the slice. -/
theorem chunkTruncated_cases (allocated : input.length ≤ isizeMax) :
    chunkTruncated input size = .ok true ∨
      size + 2 ≤ input.length ∧ ∃ truncated, chunkTruncated input size = .ok truncated := by
  have small : isizeMax + 2 ≤ u64Max := by decide
  unfold chunkTruncated
  by_cases short : input.length < satAdd size 2
  · exact .inl (if_pos short)
  · -- a sum that saturates is longer than any slice
    have fits : size + 2 ≤ input.length := by
      unfold satAdd at short
      omega
    refine .inr ⟨fits, ?_⟩
    rw [if_neg short, addUsize, if_pos (by omega)]
    show ∃ truncated, (do let ending ← sliceRange input size (size + 2); pure (ending != crlf)) = _
    rw [sliceRange_ok (by omega) fits]
    exact ⟨_, rfl⟩

theorem orError_ok {α : Type} {value : Option α} {error : IoError} {result : α} :
    orError value error = .ok result ↔ value = some result := by
  cases value <;> simp [orError]

theorem orError_safe {α : Type} {value : Option α} {error : IoError} :
    orError value error ≠ .error .panic := by
  cases value <;> simp [orError]

theorem sliceRange_length (sliced : sliceRange bytes start stop = .ok rest) :
    rest.length = stop - start ∧ start ≤ stop ∧ stop ≤ bytes.length := by
  unfold sliceRange at sliced
  split at sliced
  next inside =>
    cases sliced
    rw [List.length_take, List.length_drop]
    omega
  next => cases sliced

theorem decodeRound_shortens (output : List UInt8) : (decodeRound output).Shortens := by
  intro input result rest round
  obtain ⟨lineEnd, -, round⟩ := bind_eq_ok.mp round
  obtain ⟨header, -, round⟩ := bind_eq_ok.mp round
  obtain ⟨line, -, round⟩ := bind_eq_ok.mp round
  obtain ⟨size, -, round⟩ := bind_eq_ok.mp round
  obtain ⟨left, after, round⟩ := bind_eq_ok.mp round
  have shorter := sliceRange_length after
  split at round
  · cases round
    omega
  · obtain ⟨truncated, -, round⟩ := bind_eq_ok.mp round
    split at round
    · cases round
    · obtain ⟨chunk, -, round⟩ := bind_eq_ok.mp round
      obtain ⟨stop, -, round⟩ := bind_eq_ok.mp round
      obtain ⟨rest', last, round⟩ := bind_eq_ok.mp round
      have shorter' := sliceRange_length last
      cases round
      omega

/-- `decode_chunked`. -/
def decodeChunked (input : ByteSlice) : Except Fault (List UInt8) :=
  (Reader.loop decodeRound decodeRound_shortens [] input.bytes).map Prod.fst

/-- **A round slices within its range.** -/
theorem decodeRound_safe (output : List UInt8) (allocated : input.length ≤ isizeMax) :
    decodeRound output input ≠ .error .panic := by
  have small : isizeMax + 2 ≤ u64Max := by decide
  have within {bytes : List UInt8} {start stop : Nat} (order : start ≤ stop)
      (inside : stop ≤ bytes.length) : sliceRange bytes start stop ≠ .error .panic := by
    rw [sliceRange_ok order inside]
    rintro ⟨⟩
  intro panicked
  rcases bind_eq_error.mp panicked with early | ⟨lineEnd, found, panicked⟩
  · exact orError_safe early
  have inside := crlfAt_some (orError_ok.mp found)
  rcases bind_eq_error.mp panicked with cut | ⟨header, -, panicked⟩
  · exact within (by omega) (by omega) cut
  rcases bind_eq_error.mp panicked with early | ⟨line, -, panicked⟩
  · exact orError_safe early
  rcases bind_eq_error.mp panicked with early | ⟨size, -, panicked⟩
  · exact orError_safe early
  rcases bind_eq_error.mp panicked with cut | ⟨left, after, panicked⟩
  · exact within inside le_rfl cut
  obtain ⟨length, -⟩ := sliceRange_length after
  split at panicked
  · cases panicked
  have cases_ := @chunkTruncated_cases left size (by omega)
  rcases bind_eq_error.mp panicked with failed | ⟨truncated, known, panicked⟩
  · rcases cases_ with missing | ⟨-, truncated, known⟩
    · rw [missing] at failed
      cases failed
    · rw [known] at failed
      cases failed
  split at panicked
  next => cases panicked
  next whole =>
    have fits : size + 2 ≤ left.length := by
      rcases cases_ with missing | ⟨fits, -⟩
      · rw [missing] at known
        cases known
        exact absurd rfl whole
      · exact fits
    rcases bind_eq_error.mp panicked with cut | ⟨chunk, -, panicked⟩
    · exact within (by omega) (by omega) cut
    rcases bind_eq_error.mp panicked with above | ⟨stop, sum, panicked⟩
    · rw [addUsize, if_pos (by omega)] at above
      cases above
    rw [addUsize, if_pos (by omega)] at sum
    cases sum
    rcases bind_eq_error.mp panicked with cut | ⟨rest, -, panicked⟩
    · exact within fits le_rfl cut
    · cases panicked

/-- **No slice makes the decoder panic.** -/
theorem decodeChunked_safe (input : ByteSlice) : decodeChunked input ≠ .error .panic := by
  intro panicked
  unfold decodeChunked at panicked
  cases run : Reader.loop decodeRound decodeRound_shortens [] input.bytes with
  | ok taken => rw [run] at panicked; cases panicked
  | error fault =>
      rw [run] at panicked
      cases panicked
      obtain ⟨output, left, shorter, round⟩ := Reader.loop_error run
      exact decodeRound_safe output (shorter.trans input.allocated) round

end

/-! ### Chunks are decoded -/

/-- **A text of a size**: hexadecimal digits of either case that have its value, and fit a header line. -/
structure SizeText (digits : List Char) (size : Nat) : Prop where
  value : digitsValue 16 digits = some size
  short : digits.length + 2 ≤ 128

/-- The bytes of a header line. -/
def headerBytes (digits : List Char) : List UInt8 := utf8Bytes (String.ofList digits)

/-- **An encoding of chunks**: each with its size before it and a CR LF after, and at the end a chunk of no
bytes and a blank line. -/
inductive Chunked : List (List UInt8) → List UInt8 → Prop
  | last {digits : List Char} : SizeText digits 0 → Chunked [] (headerBytes digits ++ crlf ++ crlf)
  | chunk {digits : List Char} {chunk : List UInt8} {chunks : List (List UInt8)} {bytes : List UInt8} :
      chunk ≠ [] → SizeText digits chunk.length → Chunked chunks bytes →
      Chunked (chunk :: chunks) (headerBytes digits ++ crlf ++ (chunk ++ crlf) ++ bytes)

/-- The encoding of chunks with the digits of `{:x}`. -/
def encodeChunks : List (List UInt8) → List UInt8
  | [] => headerBytes (Nat.toDigits 16 0) ++ crlf ++ crlf
  | chunk :: chunks =>
      headerBytes (Nat.toDigits 16 chunk.length) ++ crlf ++ (chunk ++ crlf) ++ encodeChunks chunks

section

variable {digits : List Char} {size max : Nat} {output chunk bytes rest : List UInt8}
  {chunks : List (List UInt8)}

theorem alphaNumeric_ascii {char : Char} (among : AlphaNumeric char) :
    32 < char.toNat ∧ char.toNat < 127 := by
  unfold AlphaNumeric at among
  omega

/-- A letter or a digit is no white space. -/
theorem alphaNumeric_not_whitespace {char : Char} (among : AlphaNumeric char) :
    isWhitespace char = false := by
  unfold AlphaNumeric at among
  unfold isWhitespace
  simp only [Bool.or_eq_false_iff, Bool.and_eq_false_iff, beq_eq_false_iff_ne, decide_eq_false_iff_not]
  omega

/-- Text with no white space is not trimmed. -/
theorem trimmed_eq {text : List Char} (solid : ∀ char ∈ text, isWhitespace char = false) :
    trimmed text = text := by
  have whole {text : List Char} (solid : ∀ char ∈ text, isWhitespace char = false) :
      text.dropWhile isWhitespace = text := by
    cases text with
    | nil => rfl
    | cons char text => rw [List.dropWhile_cons_of_neg (by simp [solid char List.mem_cons_self])]
  unfold trimmed
  rw [whole solid, whole fun char among => solid char (List.mem_reverse.mp among), List.reverse_reverse]

/-- **The size of a header line is read.** -/
theorem SizeText.chunkSize (text : SizeText digits size) (fits : size ≤ u64Max) :
    chunkSize (String.ofList digits) = some size := by
  have solid := digitsValue_alphaNumeric text.value
  have plain : digits.takeWhile (fun char => char != ';') = digits := by
    refine List.takeWhile_eq_self_iff.mpr fun char among => ?_
    rw [bne_iff_ne]
    rintro rfl
    exact absurd (solid ';' among) (by unfold AlphaNumeric; decide)
  unfold RivetCache.chunkSize
  rw [String.toList_ofList, plain, trimmed_eq fun char among => alphaNumeric_not_whitespace (solid char among)]
  exact parseUnsigned_digits text.value fits

theorem SizeText.header (text : SizeText digits size) :
    headerBytes digits = digits.map fun char => UInt8.ofNat char.toNat := by
  have solid := digitsValue_alphaNumeric text.value
  exact utf8Bytes_ascii fun char among => (alphaNumeric_ascii (solid char among)).2.trans (by decide)

theorem SizeText.no_cr (text : SizeText digits size) : (13 : UInt8) ∉ headerBytes digits := by
  have solid := digitsValue_alphaNumeric text.value
  rw [text.header]
  intro among
  obtain ⟨char, there, same⟩ := List.mem_map.mp among
  have printable := alphaNumeric_ascii (solid char there)
  have value := congrArg UInt8.toNat same
  have thirteen : (13 : UInt8).toNat = 13 := rfl
  rw [UInt8.toNat_ofNat', Nat.mod_eq_of_lt (by omega)] at value
  omega

/-- The first CR LF is after the header. -/
theorem crlfAt_append (absent : (13 : UInt8) ∉ bytes) (rest : List UInt8) :
    crlfAt (bytes ++ crlf ++ rest) = some bytes.length := by
  induction bytes with
  | nil =>
      show (if crlf <+: crlf ++ rest then _ else _) = _
      rw [if_pos (List.prefix_append _ _)]
      rfl
  | cons byte bytes ih =>
      rw [List.mem_cons, not_or] at absent
      rw [List.cons_append, List.cons_append, crlfAt, if_neg, ih absent.2]
      · rfl
      · rintro ⟨tail, same⟩
        exact absent.1 (List.cons.inj same).1

/-! ### The slice decoder -/

theorem sliceRange_front (front rest : List UInt8) :
    sliceRange (front ++ rest) 0 front.length = .ok front := by
  rw [sliceRange_ok (by omega) (by rw [List.length_append]; omega), List.drop_zero, Nat.sub_zero,
    List.take_left]

theorem sliceRange_back {front : List UInt8} {start : Nat} (same : start = front.length)
    (rest : List UInt8) : sliceRange (front ++ rest) start (front ++ rest).length = .ok rest := by
  subst same
  rw [sliceRange_ok (by rw [List.length_append]; omega) le_rfl, List.drop_left, List.length_append,
    Nat.add_sub_cancel_left, List.take_length]

/-- What a round reads of a header, and what it goes on with. -/
theorem decodeRound_header (text : SizeText digits size) (fits : size ≤ u64Max) (rest : List UInt8) :
    decodeRound output (headerBytes digits ++ crlf ++ rest) =
      (if size = 0 then pure (.inr output, rest)
      else do
        let truncated ← chunkTruncated rest size
        if truncated then .error (.error ⟨.unexpectedEof, "truncated HTTP chunk"⟩)
        else
          let chunk ← sliceRange rest 0 size
          let stop ← addUsize size 2
          let left ← sliceRange rest stop rest.length
          pure (.inl (output ++ chunk), left)) := by
  have line : fromUtf8 (headerBytes digits) = some (String.ofList digits) := fromUtf8_utf8Bytes _
  have header : sliceRange (headerBytes digits ++ crlf ++ rest) 0 (headerBytes digits).length =
      .ok (headerBytes digits) := by
    rw [List.append_assoc]
    exact sliceRange_front _ _
  have left : sliceRange (headerBytes digits ++ crlf ++ rest) ((headerBytes digits).length + 2)
      (headerBytes digits ++ crlf ++ rest).length = .ok rest :=
    sliceRange_back (by rw [List.length_append]; rfl) rest
  unfold decodeRound
  rw [crlfAt_append text.no_cr]
  show (sliceRange _ 0 (headerBytes digits).length >>= _) = _
  rw [header]
  show (orError (fromUtf8 (headerBytes digits)) _ >>= _) = _
  rw [line]
  show (orError (chunkSize (String.ofList digits)) _ >>= _) = _
  rw [text.chunkSize fits]
  show (sliceRange _ ((headerBytes digits).length + 2) _ >>= _) = _
  rw [left]
  rfl

/-- **A round takes a chunk.** -/
theorem decodeRound_chunk (text : SizeText digits chunk.length) (filled : chunk ≠ [])
    (allocated : chunk.length ≤ isizeMax) (rest : List UInt8) :
    decodeRound output (headerBytes digits ++ crlf ++ (chunk ++ crlf) ++ rest) =
      .ok (.inl (output ++ chunk), rest) := by
  have small : isizeMax + 2 ≤ u64Max := by decide
  have positive := List.length_pos_of_ne_nil filled
  have length : (chunk ++ crlf).length = chunk.length + 2 := by
    rw [List.length_append]
    rfl
  have sum : addUsize chunk.length 2 = .ok (chunk ++ crlf).length := by
    rw [length]
    exact if_pos (by omega)
  have ending : sliceRange (chunk ++ crlf ++ rest) chunk.length (chunk ++ crlf).length = .ok crlf := by
    rw [sliceRange_ok (by omega) (List.prefix_append _ _).length_le, length, List.append_assoc,
      List.drop_left, Nat.add_sub_cancel_left]
    rfl
  have whole : chunkTruncated (chunk ++ crlf ++ rest) chunk.length = .ok false := by
    unfold chunkTruncated
    rw [if_neg]
    · rw [sum]
      show (sliceRange _ chunk.length (chunk ++ crlf).length >>= _) = _
      rw [ending]
      rfl
    · rw [List.length_append, length]
      unfold satAdd
      omega
  have taken : sliceRange (chunk ++ crlf ++ rest) 0 chunk.length = .ok chunk := by
    rw [List.append_assoc]
    exact sliceRange_front _ _
  rw [List.append_assoc, decodeRound_header text (by omega), if_neg (by omega), whole]
  show (sliceRange _ 0 chunk.length >>= _) = _
  rw [taken]
  show (addUsize chunk.length 2 >>= _) = _
  rw [sum]
  show (sliceRange _ (chunk ++ crlf).length _ >>= _) = _
  rw [sliceRange_back rfl rest]
  rfl

/-- **The slice decoder answers the chunks**, and leaves the blank line. -/
theorem decodeLoop_chunked (encoded : Chunked chunks bytes) (allocated : bytes.length ≤ isizeMax)
    (output rest : List UInt8) :
    Reader.loop decodeRound decodeRound_shortens output (bytes ++ rest) =
      .ok (output ++ chunks.flatten, crlf ++ rest) := by
  induction encoded generalizing output with
  | last zero =>
      rw [List.append_assoc]
      refine Reader.loop_done ?_
      rw [decodeRound_header zero (by omega), if_pos rfl, List.flatten_nil, List.append_nil]
      rfl
  | @chunk digits chunk chunks bytes filled text _ ih =>
      rw [List.length_append, List.length_append, List.length_append] at allocated
      rw [List.append_assoc, Reader.loop_more (decodeRound_chunk text filled
        (by rw [List.length_append] at allocated; omega) (bytes ++ rest)), ih (by omega),
        List.flatten_cons, List.append_assoc]

/-! ### The stream decoder -/

theorem SizeText.reads (text : SizeText digits size) :
    Reads (readHttpLine 128) (headerBytes digits ++ crlf) (String.ofList digits) := by
  have solid := digitsValue_alphaNumeric text.value
  refine reads_line _ _ ?_ ?_
  · rw [String.toList_ofList]
    intro among
    exact absurd (alphaNumeric_ascii (solid _ among)).1 (by decide)
  · have length : (utf8Bytes (String.ofList digits)).length = digits.length := by
      have header := text.header
      unfold headerBytes at header
      rw [header, List.length_map]
    rw [length]
    exact text.short

/-- A blank line ends the trailer. -/
theorem reads_trailer : Reads (Reader.loop readTrailer readTrailer_shortens ()) crlf () := by
  have blank : Reads (readHttpLine 8192) (utf8Bytes "" ++ crlf) "" :=
    reads_line _ _ (by decide) (by decide)
  exact Reads.loop_done (blank.last (Reads.pure _))

/-- The last chunk ends the body. -/
theorem reads_lastChunk (zero : SizeText digits 0) (body : List UInt8) :
    Reads (readChunkRound max body) (headerBytes digits ++ crlf ++ crlf) (.inr body) := by
  refine zero.reads.bind ?_
  rw [zero.chunkSize (by omega)]
  refine Reads.check (Reads.require _ _) ?_
  rw [if_pos rfl]
  exact reads_trailer.last (Reads.pure _)

/-- **A round reads a chunk.** -/
theorem reads_chunk (text : SizeText digits chunk.length) (filled : chunk ≠ [])
    (within : (output ++ chunk).length ≤ max) (allocated : (output ++ chunk).length ≤ isizeMax) :
    Reads (readChunkRound max output) (headerBytes digits ++ crlf ++ (chunk ++ crlf))
      (.inl (output ++ chunk)) := by
  have small : isizeMax ≤ u64Max := by decide
  have positive := List.length_pos_of_ne_nil filled
  rw [List.length_append] at within allocated
  have ending : Reads (readExactly 2) crlf crlf := Reads.exact endOfStream crlf
  refine text.reads.bind ?_
  rw [text.chunkSize (by omega)]
  refine Reads.check (Reads.require _ _) ?_
  rw [if_neg (by omega)]
  refine Reads.check (Reads.reject ?_ _) (Reads.check (Reads.reject ?_ _)
    ((Reads.exact _ _).bind (ending.last (Reads.check (Reads.reject (by decide) _) (Reads.pure _)))))
  · rw [decide_eq_false_iff_not, satAdd_of_le (by omega)]
    omega
  · rw [decide_eq_false_iff_not]
    omega

/-- **The stream decoder answers the chunks**, and takes all of the encoding. -/
theorem reads_chunked (encoded : Chunked chunks bytes)
    (within : (output ++ chunks.flatten).length ≤ max)
    (allocated : (output ++ chunks.flatten).length ≤ isizeMax) :
    Reads (Reader.loop (readChunkRound max) (readChunkRound_shortens max) output) bytes
      (output ++ chunks.flatten) := by
  induction encoded generalizing output with
  | last zero =>
      rw [List.flatten_nil, List.append_nil]
      exact Reads.loop_done (reads_lastChunk zero output)
  | @chunk digits chunk chunks bytes filled text _ ih =>
      have joined : output ++ (chunk ++ chunks.flatten) = output ++ chunk ++ chunks.flatten :=
        (List.append_assoc _ _ _).symm
      rw [List.flatten_cons, joined] at within allocated ⊢
      have first := (List.prefix_append (output ++ chunk) chunks.flatten).length_le
      exact Reads.loop_more (reads_chunk text filled (first.trans within) (first.trans allocated))
        (ih within allocated)

/-! ### Both decoders -/

/-- The digits of `{:x}` are a text of the size. -/
theorem sizeText_toDigits (fits : size < 2 ^ 64) : SizeText (Nat.toDigits 16 size) size where
  value := digitsValue_toDigits (by decide) (by decide) size
  short := by
    have length := @length_toDigits_le 16 size (by decide) 16 (by decide) (by omega)
    omega

/-- Chunks that are not empty are encoded. -/
theorem encodeChunks_chunked (filled : ∀ chunk ∈ chunks, chunk ≠ [])
    (allocated : chunks.flatten.length ≤ isizeMax) : Chunked chunks (encodeChunks chunks) := by
  have small : isizeMax < 2 ^ 64 := by decide
  induction chunks with
  | nil =>
      show Chunked [] (headerBytes (Nat.toDigits 16 0) ++ crlf ++ crlf)
      exact .last (sizeText_toDigits (Nat.two_pow_pos 64))
  | cons chunk chunks ih =>
      rw [List.flatten_cons, List.length_append] at allocated
      exact .chunk (filled chunk List.mem_cons_self) (sizeText_toDigits (by omega))
        (ih (fun chunk among => filled chunk (List.mem_cons_of_mem _ among)) (by omega))

/-- **Both decoders undo the encoding**: whatever the chunks, their bytes and the texts of their sizes, the
slice decoder answers their bytes, and so does the stream decoder within its limit, which leaves what
follows. No slice makes the slice decoder panic. -/
theorem chunked_decoded :
    (∀ chunks bytes, Chunked chunks bytes →
      (∀ (input : ByteSlice) (rest : List UInt8), input.bytes = bytes ++ rest →
        decodeChunked input = .ok chunks.flatten) ∧
      ∀ max, chunks.flatten.length ≤ max → chunks.flatten.length ≤ isizeMax → ∀ rest,
        readChunked max (bytes ++ rest) = .ok (chunks.flatten, rest)) ∧
    (∀ chunks : List (List UInt8), (∀ chunk ∈ chunks, chunk ≠ []) →
      chunks.flatten.length ≤ isizeMax → Chunked chunks (encodeChunks chunks)) ∧
    ∀ input : ByteSlice, decodeChunked input ≠ .error .panic := by
  refine ⟨fun chunks bytes encoded => ⟨fun input rest same => ?_, fun max within allocated => ?_⟩,
    fun chunks => encodeChunks_chunked, decodeChunked_safe⟩
  · have allocated := input.allocated
    rw [same, List.length_append] at allocated
    unfold decodeChunked
    rw [same, decodeLoop_chunked encoded (by omega) [] rest]
    rfl
  · exact reads_chunked encoded within allocated

end

end RivetCache
