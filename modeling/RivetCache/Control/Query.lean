/-
**`control.rs`: queries.**

`parseQuery` takes a query apart at `&` and at the first `=`, and decodes both sides by a loop on an index:
an index out of range, or a sum above 255, is a panic. `percentPathSegment` is the encoder of
`connectors.rs`.

* `percentDecode_iff`: what is decoded are exactly the encodings of a text, and no text makes the decoder
  panic;
* `query_read_back`: a query made of encoded keys and values is read back, in any order.
-/

import RivetCache.Base
import RivetCache.Library.Fallible
import RivetCache.Library.Lines
import RivetCache.Library.Percent
import RivetCache.Library.Table

set_option linter.unusedSectionVars false

namespace RivetCache

open Library

/-! ### Decoding -/

/-- `bytes[index]`. -/
def byteAt (bytes : List UInt8) (index : Nat) : Except Fault UInt8 :=
  match bytes[index]? with
  | none => .error .panic
  | some byte => .ok byte

/-- `hex_value`. -/
def hexValue (byte : UInt8) : Except Fault Nat :=
  if 48 ≤ byte ∧ byte ≤ 57 then .ok (byte.toNat - 48)
  else if 97 ≤ byte ∧ byte ≤ 102 then .ok (byte.toNat - 97 + 10)
  else if 65 ≤ byte ∧ byte ≤ 70 then .ok (byte.toNat - 65 + 10)
  else .error (.error ⟨.invalidInput, "invalid percent escape"⟩)

/-- `high * 16 + low`, as a byte. -/
def escapedByte (high low : Nat) : Except Fault UInt8 :=
  if high * 16 + low < 256 then .ok (UInt8.ofNat (high * 16 + low)) else .error .panic

/-- `percent_decode`, the loop. -/
def percentDecodeFrom (bytes : List UInt8) (index : Nat) (decoded : List UInt8) :
    Except Fault (List UInt8) :=
  if index < bytes.length then do
    let byte ← byteAt bytes index
    if byte = 37 then
      if index + 2 ≥ bytes.length then
        .error (.error ⟨.invalidInput, "truncated percent escape"⟩)
      else
        let highByte ← byteAt bytes (index + 1)
        let high ← hexValue highByte
        let lowByte ← byteAt bytes (index + 2)
        let low ← hexValue lowByte
        let byte ← escapedByte high low
        percentDecodeFrom bytes (index + 3) (decoded ++ [byte])
    else if byte = 43 then percentDecodeFrom bytes (index + 1) (decoded ++ [32])
    else percentDecodeFrom bytes (index + 1) (decoded ++ [byte])
  else .ok decoded
termination_by bytes.length - index

/-- `percent_decode`. -/
def percentDecode (value : String) : Except Fault String := do
  let decoded ← percentDecodeFrom (utf8Bytes value) 0 []
  (fromUtf8 decoded).elim (.error (.error ⟨.invalidInput, "query value is not UTF-8"⟩)) .ok

/-! ### Queries -/

/-- `str::split_once`. -/
def splitOnce (stop : Char) (text : List Char) : Option (List Char × List Char) :=
  if stop ∈ text then
    some (text.takeWhile (fun char => char != stop), (text.dropWhile fun char => char != stop).tail)
  else none

/-- `parse_query`, a pair. -/
def parsePair (values : Table String String) (pair : List Char) :
    Except Fault (Table String String) := do
  let sides := (splitOnce '=' pair).getD (pair, [])
  let key ← percentDecode (String.ofList sides.1)
  let value ← percentDecode (String.ofList sides.2)
  if key.isEmpty ∨ (values.lookup key).isSome then
    .error (.error ⟨.invalidInput, s!"duplicate or empty query key {key}"⟩)
  else .ok (values.insert key value)

/-- `parse_query`. -/
def parseQuery (query : String) : Except Fault (Table String String) :=
  if query.isEmpty then .ok ∅ else (query.toList.splitOn '&').foldlM parsePair ∅

/-- `percent_path_segment`. -/
def percentPathSegment (value : String) : String :=
  String.ofList ((percentEncode (utf8Bytes value)).map fun byte => Char.ofNat byte.toNat)

/-- A key and its value, as a query writes them. -/
def queryPair (entry : Sigma fun _ : String => String) : List Char :=
  (percentPathSegment entry.1).toList ++ '=' :: (percentPathSegment entry.2).toList

/-- The query of entries in an order. -/
def queryText (order : List (Sigma fun _ : String => String)) : String :=
  String.ofList (['&'].intercalate (order.map queryPair))

/-! ### What the loop does -/

section

variable {front rest tail bytes plain decoded : List UInt8} {byte high low : UInt8} {index : Nat}

@[simp] theorem byteAt_append (front rest : List UInt8) (byte : UInt8) :
    byteAt (front ++ byte :: rest) front.length = .ok byte := by
  unfold byteAt
  simp

/-- `hex_value` is the value of a digit. -/
theorem hexValue_eq (byte : UInt8) :
    hexValue byte = (hexDigitValue byte).elim
      (.error (.error ⟨.invalidInput, "invalid percent escape"⟩)) .ok := by
  have all : ∀ n < 256, hexValue (UInt8.ofNat n) = (hexDigitValue (UInt8.ofNat n)).elim
      (.error (.error ⟨.invalidInput, "invalid percent escape"⟩)) .ok := by decide +kernel
  have one := all byte.toNat byte.toNat_lt
  rwa [UInt8.ofNat_toNat] at one

theorem escapedByte_digits {first second : Nat} (highDigit : hexDigitValue high = some first)
    (lowDigit : hexDigitValue low = some second) :
    escapedByte first second = .ok (UInt8.ofNat (16 * first + second)) := by
  have highSmall := digitValue_lt highDigit
  have lowSmall := digitValue_lt lowDigit
  unfold escapedByte
  rw [if_pos (by omega), Nat.mul_comm]

/-- The loop at the end. -/
theorem percentDecodeFrom_done (bytes decoded : List UInt8) :
    percentDecodeFrom bytes bytes.length decoded = .ok decoded := by
  rw [percentDecodeFrom, if_neg (lt_irrefl _)]

/-- The loop at a byte. -/
theorem percentDecodeFrom_byte (front rest decoded : List UInt8) (byte : UInt8) :
    percentDecodeFrom (front ++ byte :: rest) front.length decoded =
      if byte = 37 then
        if rest.length < 2 then .error (.error ⟨.invalidInput, "truncated percent escape"⟩)
        else do
          let highByte ← byteAt (front ++ byte :: rest) (front.length + 1)
          let high ← hexValue highByte
          let lowByte ← byteAt (front ++ byte :: rest) (front.length + 2)
          let low ← hexValue lowByte
          let next ← escapedByte high low
          percentDecodeFrom (front ++ byte :: rest) (front.length + 3) (decoded ++ [next])
      else percentDecodeFrom (front ++ byte :: rest) (front.length + 1)
        (decoded ++ [if byte = 43 then 32 else byte]) := by
  have size : (front ++ byte :: rest).length = front.length + (rest.length + 1) := by simp
  conv_lhs => rw [percentDecodeFrom, if_pos (by omega), byteAt_append]
  show (if byte = 37 then _ else _) = _
  by_cases percent : byte = 37
  · rw [if_pos percent, if_pos percent]
    by_cases short : rest.length < 2
    · rw [if_pos short, if_pos (by omega)]
    · rw [if_neg short, if_neg (by omega)]
  · rw [if_neg percent, if_neg percent]
    by_cases plus : byte = 43
    · rw [if_pos plus, if_pos plus]
    · rw [if_neg plus, if_neg plus]

/-- The loop at an escape that has two bytes. -/
theorem percentDecodeFrom_escape (front rest decoded : List UInt8) (high low : UInt8) :
    percentDecodeFrom (front ++ 37 :: high :: low :: rest) front.length decoded = (do
      let first ← hexValue high
      let second ← hexValue low
      let next ← escapedByte first second
      percentDecodeFrom (front ++ 37 :: high :: low :: rest) (front.length + 3)
        (decoded ++ [next])) := by
  have second : byteAt (front ++ 37 :: high :: low :: rest) (front.length + 1) = .ok high := by
    simp [byteAt]
  have third : byteAt (front ++ 37 :: high :: low :: rest) (front.length + 2) = .ok low := by
    simp [byteAt]
  rw [percentDecodeFrom_byte, if_pos rfl, if_neg (by simp), second, third]
  rfl

/-- **The loop reads an encoding**, wherever it stands. -/
theorem percentDecodeFrom_escaped (read : Escaped bytes plain) (front rest decoded : List UInt8) :
    percentDecodeFrom (front ++ bytes ++ rest) front.length decoded =
      percentDecodeFrom (front ++ bytes ++ rest) (front ++ bytes).length (decoded ++ plain) := by
  induction read generalizing front decoded with
  | nil => simp
  | @escape high low first second bytes plain highDigit lowDigit _ ih =>
      have here : front ++ 37 :: high :: low :: bytes ++ rest =
          front ++ 37 :: high :: low :: (bytes ++ rest) := by simp
      have later := ih (front ++ [37, high, low]) (decoded ++ [UInt8.ofNat (16 * first + second)])
      simp only [List.append_assoc, List.cons_append, List.nil_append, List.length_append,
        List.length_cons, List.length_nil] at later
      rw [here, percentDecodeFrom_escape, hexValue_eq, highDigit, hexValue_eq, lowDigit]
      show (escapedByte first second >>= _) = _
      rw [escapedByte_digits highDigit lowDigit]
      show percentDecodeFrom _ _ _ = _
      simp only [List.length_append, List.length_cons] at later ⊢
      rw [later]
  | @plus bytes plain _ ih =>
      have later := ih (front ++ [43]) (decoded ++ [32])
      simp only [List.append_assoc, List.cons_append, List.nil_append] at later ⊢
      rw [percentDecodeFrom_byte, if_neg (by decide), if_pos rfl]
      simpa [List.length_append] using later
  | @other byte bytes plain percent plus _ ih =>
      have later := ih (front ++ [byte]) (decoded ++ [byte])
      simp only [List.append_assoc, List.cons_append, List.nil_append] at later ⊢
      rw [percentDecodeFrom_byte, if_neg percent, if_neg plus]
      simpa [List.length_append] using later

/-- **The loop refuses** what is cut off, or is not a digit, after a `%`. -/
theorem percentDecodeFrom_broken (broken : BrokenEscape tail) (front decoded : List UInt8) :
    percentDecodeFrom (front ++ 37 :: tail) front.length decoded =
      .error (.error ⟨.invalidInput,
        if tail.length < 2 then "truncated percent escape" else "invalid percent escape"⟩) := by
  by_cases short : tail.length < 2
  · rw [percentDecodeFrom_byte, if_pos rfl, if_pos short, if_pos short]
  · obtain ⟨high, low, rest, rfl, digits⟩ := (broken.resolve_left short).bytes
    rw [percentDecodeFrom_escape, if_neg short, hexValue_eq, hexValue_eq low]
    cases highDigit : hexDigitValue high with
    | none => rfl
    | some first =>
        rw [highDigit] at digits
        rw [digits.resolve_left (by simp)]
        rfl

end

/-! ### What is decoded -/

/-- A text that encodes bytes is decoded to them, if they are a text. -/
theorem percentDecode_escaped {text : String} {plain : List UInt8}
    (read : Escaped (utf8Bytes text) plain) :
    percentDecode text = (fromUtf8 plain).elim
      (.error (.error ⟨.invalidInput, "query value is not UTF-8"⟩)) .ok := by
  have loop := percentDecodeFrom_escaped read [] [] []
  simp only [List.nil_append, List.append_nil, List.length_nil] at loop
  rw [percentDecodeFrom_done] at loop
  unfold percentDecode
  rw [loop]
  rfl

/-- A text with an escape that is broken is refused. -/
theorem percentDecode_broken {text : String} {front plain tail : List UInt8}
    (split : utf8Bytes text = front ++ 37 :: tail) (read : Escaped front plain)
    (broken : BrokenEscape tail) :
    percentDecode text = .error (.error ⟨.invalidInput,
      if tail.length < 2 then "truncated percent escape" else "invalid percent escape"⟩) := by
  have loop := percentDecodeFrom_escaped read [] (37 :: tail) []
  simp only [List.nil_append, List.length_nil] at loop
  rw [percentDecodeFrom_broken broken] at loop
  unfold percentDecode
  rw [split, loop]
  rfl

/-- **What is decoded** are the encodings of a text. -/
theorem percentDecode_iff (text decoded : String) :
    percentDecode text = .ok decoded ↔ Escaped (utf8Bytes text) (utf8Bytes decoded) := by
  constructor
  · intro done
    rcases escaped_or_broken (utf8Bytes text) with ⟨plain, read⟩ | ⟨_, _, _, split, read, broken⟩
    · rw [percentDecode_escaped read] at done
      cases valid : fromUtf8 plain with
      | none =>
          rw [valid] at done
          cases done
      | some result =>
          rw [valid] at done
          cases done
          exact fromUtf8_some valid ▸ read
    · rw [percentDecode_broken split read broken] at done
      cases done
  · intro read
    rw [percentDecode_escaped read, fromUtf8_utf8Bytes]
    rfl

/-- No text makes the decoder panic. -/
theorem percentDecode_safe (text : String) : percentDecode text ≠ .error .panic := by
  rcases escaped_or_broken (utf8Bytes text) with ⟨plain, read⟩ | ⟨_, _, _, split, read, broken⟩
  · rw [percentDecode_escaped read]
    cases fromUtf8 plain <;> simp
  · rw [percentDecode_broken split read broken]
    simp

/-! ### What is encoded -/

theorem ofNat_toNat_ascii {n : Nat} (ascii : n < 128) : (Char.ofNat n).toNat = n := by
  have all : ∀ n < 128, (Char.ofNat n).toNat = n := by decide
  exact all n ascii

/-- A segment is made of unreserved characters and of `%`. -/
theorem mem_percentPathSegment {value : String} {char : Char}
    (among : char ∈ (percentPathSegment value).toList) :
    ∃ byte : UInt8, (unreserved byte = true ∨ byte = 37) ∧ char.toNat = byte.toNat := by
  rw [percentPathSegment, String.toList_ofList] at among
  obtain ⟨byte, encoded, rfl⟩ := List.mem_map.mp among
  have kind := mem_percentEncode encoded
  refine ⟨byte, kind, ofNat_toNat_ascii ?_⟩
  rcases kind with plain | rfl
  · exact unreserved_ascii plain
  · decide

theorem separator_not_mem (value : String) :
    '&' ∉ (percentPathSegment value).toList ∧ '=' ∉ (percentPathSegment value).toList := by
  have reserved : ∀ n, n = 38 ∨ n = 61 → ¬ ∃ byte : UInt8,
      (unreserved byte = true ∨ byte = 37) ∧ n = byte.toNat := by
    rintro n either ⟨byte, kind, same⟩
    rw [← UInt8.ofNat_toNat (x := byte), ← same] at kind
    rcases either with rfl | rfl <;> exact absurd kind (by decide)
  exact ⟨fun among => reserved _ (.inl rfl) (mem_percentPathSegment among),
    fun among => reserved _ (.inr rfl) (mem_percentPathSegment among)⟩

theorem utf8Bytes_percentPathSegment (value : String) :
    utf8Bytes (percentPathSegment value) = percentEncode (utf8Bytes value) := by
  have ascii : ∀ byte ∈ percentEncode (utf8Bytes value),
      (Char.ofNat byte.toNat).toNat = byte.toNat ∧ byte.toNat < 128 := by
    intro byte among
    have small : byte.toNat < 128 := by
      rcases mem_percentEncode among with plain | rfl
      · exact unreserved_ascii plain
      · decide
    exact ⟨ofNat_toNat_ascii small, small⟩
  rw [percentPathSegment, utf8Bytes_ascii, List.map_map]
  · have same := List.map_congr_left (f := fun byte : UInt8 =>
      UInt8.ofNat (Char.ofNat byte.toNat).toNat) (g := id) (l := percentEncode (utf8Bytes value))
      fun byte among => by rw [(ascii byte among).1, UInt8.ofNat_toNat]; rfl
    exact same.trans (List.map_id _)
  · intro char among
    obtain ⟨byte, encoded, rfl⟩ := List.mem_map.mp among
    rw [(ascii byte encoded).1]
    exact (ascii byte encoded).2

/-- **A segment is decoded** to the value it encodes. -/
theorem percentDecode_percentPathSegment (value : String) :
    percentDecode (percentPathSegment value) = .ok value := by
  rw [percentDecode_iff, utf8Bytes_percentPathSegment]
  exact escaped_percentEncode _

/-! ### Queries are read back -/

theorem splitOnce_append {stop : Char} {front : List Char} (absent : stop ∉ front)
    (rest : List Char) : splitOnce stop (front ++ stop :: rest) = some (front, rest) := by
  have others : ∀ char ∈ front, (char != stop) = true := fun char among =>
    bne_iff_ne.mpr fun same => absent (same ▸ among)
  unfold splitOnce
  rw [if_pos (by simp), List.takeWhile_append_of_pos others, List.dropWhile_append_of_pos others]
  simp

/-- **A pair is read back**, if its key is not empty and new. -/
theorem parsePair_queryPair {values : Table String String} {entry : Sigma fun _ : String => String}
    (nonempty : entry.1 ≠ "") (new : values.lookup entry.1 = none) :
    parsePair values (queryPair entry) = .ok (values.insert entry.1 entry.2) := by
  unfold parsePair queryPair
  rw [splitOnce_append (separator_not_mem _).2]
  simp only [Option.getD_some, String.ofList_toList, percentDecode_percentPathSegment]
  show (if _ then _ else _) = _
  rw [if_neg (by simp [nonempty, new])]

/-- **Pairs are read back**, one after another. -/
theorem parsePairs (order : List (Sigma fun _ : String => String)) (distinct : order.NodupKeys)
    (nonempty : ∀ entry ∈ order, entry.1 ≠ "") (values : Table String String)
    (new : ∀ entry ∈ order, values.lookup entry.1 = none) :
    ∃ result, (order.map queryPair).foldlM parsePair values = .ok result ∧
      ∀ key, result.lookup key = (order.dlookup key).or (values.lookup key) := by
  induction order generalizing values with
  | nil => exact ⟨values, rfl, fun key => rfl⟩
  | cons entry order ih =>
      obtain ⟨absent, distinct⟩ := List.nodupKeys_cons.mp distinct
      have others : ∀ other ∈ order, (values.insert entry.1 entry.2).lookup other.1 = none := by
        intro other among
        have different : other.1 ≠ entry.1 := fun same =>
          absent (same ▸ List.mem_keys_of_mem among)
        rw [AList.lookup_insert_ne different]
        exact new other (List.mem_cons_of_mem _ among)
      obtain ⟨result, parsed, lookups⟩ := ih distinct
        (fun other among => nonempty other (List.mem_cons_of_mem _ among)) _ others
      refine ⟨result, ?_, fun key => ?_⟩
      · rw [List.map_cons, List.foldlM_cons,
          parsePair_queryPair (nonempty entry List.mem_cons_self) (new entry List.mem_cons_self)]
        exact parsed
      · obtain ⟨name, value⟩ := entry
        rw [lookups]
        by_cases same : key = name
        · subst same
          have gone : order.dlookup key = none := List.dlookup_eq_none.mpr absent
          rw [gone, List.dlookup_cons_eq, AList.lookup_insert]
          rfl
        · rw [List.dlookup_cons_ne _ _ same, AList.lookup_insert_ne same]

/-- A query is taken apart into the pairs it was made of. -/
theorem splitOn_queryText {order : List (Sigma fun _ : String => String)} (some_ : order ≠ []) :
    (queryText order).toList.splitOn '&' = order.map queryPair := by
  rw [queryText, String.toList_ofList]
  refine List.splitOn_intercalate '&' (fun pair among => ?_) (by simpa using some_)
  obtain ⟨entry, -, rfl⟩ := List.mem_map.mp among
  have separators := separator_not_mem
  simp [queryPair, separators]

/-- **Query parsing inverts percent-encoding**: a query of encoded keys and values is read back as the map
it was made of; a segment is decoded to its value; no text makes the decoder panic, and it takes the
encodings of a text and nothing else. -/
theorem query_read_back :
    (∀ (map : Table String String) (order : List (Sigma fun _ : String => String)),
      (∀ key ∈ map, key ≠ "") → order.Perm map.entries →
        ∃ values, parseQuery (queryText order) = .ok values ∧
          ∀ key, values.lookup key = map.lookup key) ∧
    (∀ value, percentDecode (percentPathSegment value) = .ok value) ∧
    (∀ text, percentDecode text ≠ .error .panic) ∧
    (∀ text decoded,
      percentDecode text = .ok decoded ↔ Escaped (utf8Bytes text) (utf8Bytes decoded)) ∧
    ∀ text front plain tail, utf8Bytes text = front ++ 37 :: tail → Escaped front plain →
      BrokenEscape tail → percentDecode text = .error (.error ⟨.invalidInput,
        if tail.length < 2 then "truncated percent escape" else "invalid percent escape"⟩) := by
  refine ⟨fun map order nonempty same => ?_, percentDecode_percentPathSegment, percentDecode_safe,
    percentDecode_iff, fun text front plain tail => percentDecode_broken⟩
  have distinct : order.NodupKeys := (List.perm_nodupKeys same).mpr map.nodupKeys
  have lookups : ∀ key, order.dlookup key = map.lookup key := fun key =>
    List.perm_dlookup key distinct same
  by_cases none_ : order = []
  · subst none_
    refine ⟨∅, ?_, fun key => ?_⟩
    · rfl
    · rw [← lookups]
      rfl
  · obtain ⟨values, parsed, found⟩ := parsePairs order distinct
      (fun entry among => nonempty _ (List.mem_keys_of_mem (same.mem_iff.mp among))) ∅
      (fun entry _ => AList.lookup_empty _)
    have some_ : (queryText order).isEmpty = false := by
      by_contra empty
      have pairs := splitOn_queryText none_
      rw [Bool.not_eq_false, String.isEmpty_iff] at empty
      rw [empty] at pairs
      obtain ⟨entry, rest, rfl⟩ := List.exists_cons_of_ne_nil none_
      have first : queryPair entry = [] := (List.cons.inj pairs).1.symm
      exact absurd first (by simp [queryPair])
    refine ⟨values, ?_, fun key => ?_⟩
    · rw [parseQuery, if_neg (by simp [some_]), splitOn_queryText none_]
      exact parsed
    · rw [found, lookups]
      simp

end RivetCache
