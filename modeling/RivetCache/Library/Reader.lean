/-
**Readers of byte streams.**

A reader takes bytes off the front of a stream, or fails. `Reads reader bytes value` says that it takes
exactly `bytes`, whatever follows, and returns `value`; a message is read back by a chain of such facts,
one for each field (`Reads.bind`).

The text of a message is UTF-8 (`utf8Bytes`, `fromUtf8`).
-/

import RivetCache.Library.LittleEndian

namespace Library

variable {ε α β : Type}

/-- A reader: what it returns, and what it leaves of the stream. -/
abbrev Reader (ε α : Type) := StateT (List UInt8) (Except ε) α

namespace Reader

/-- `n` bytes, where there are so many. -/
def exact (eof : ε) (n : Nat) : Reader ε (List UInt8) := fun input =>
  if n ≤ input.length then .ok (input.take n, input.drop n) else .error eof

/-- Fail on a condition. -/
def reject (bad : Bool) (error : ε) : Reader ε Unit := fun input =>
  if bad then .error error else .ok ((), input)

/-- A number in so many bytes, the lowest first. -/
def number (eof : ε) (width : Nat) : Reader ε Nat := do
  let bytes ← exact eof width
  pure (ofLeBytes bytes)

/-- The failures under other names. -/
def rename {δ : Type} (name : ε → δ) (reader : Reader ε α) : Reader δ α := fun input =>
  (reader input).mapError name

/-- So many, one after another. -/
def times : Nat → Reader ε α → Reader ε (List α)
  | 0, _ => Pure.pure []
  | n + 1, reader => do
      let value ← reader
      let rest ← times n reader
      Pure.pure (value :: rest)

/-- A value, or a failure. -/
def require (value : Option α) (error : ε) : Reader ε α := fun input =>
  match value with
  | none => .error error
  | some value => .ok (value, input)

end Reader

/-- **A reader takes these bytes** off any stream that begins with them. -/
def Reads (reader : Reader ε α) (bytes : List UInt8) (value : α) : Prop :=
  ∀ rest, reader (bytes ++ rest) = .ok (value, rest)

namespace Reads

theorem pure (value : α) : Reads (ε := ε) (Pure.pure value) [] value := fun _ => rfl

/-- A reader, and what goes on from there. -/
theorem then_run {reader : Reader ε α} {next : α → Reader ε β} {bytes : List UInt8} {value : α}
    (first : Reads reader bytes value) (rest : List UInt8) :
    (reader >>= next) (bytes ++ rest) = next value rest := by
  have here := first rest
  show Except.bind (reader (bytes ++ rest)) (fun taken => next taken.1 taken.2) = _
  rw [here]
  rfl

/-- A check, and what goes on after it. -/
theorem check_run {reader : Reader ε α} {next : α → Reader ε β} {value : α}
    (first : Reads reader [] value) (rest : List UInt8) : (reader >>= next) rest = next value rest :=
  first.then_run rest

/-- **One reader after another.** -/
theorem bind {reader : Reader ε α} {next : α → Reader ε β} {bytes later : List UInt8} {value : α}
    {result : β} (first : Reads reader bytes value) (second : Reads (next value) later result) :
    Reads (reader >>= next) (bytes ++ later) result := by
  intro rest
  rw [List.append_assoc, first.then_run]
  exact second rest

/-- A check before what is read. -/
theorem check {reader : Reader ε α} {next : α → Reader ε β} {later : List UInt8} {value : α}
    {result : β} (first : Reads reader [] value) (second : Reads (next value) later result) :
    Reads (reader >>= next) later result :=
  first.bind second

/-- The last field, and what is made of the fields. -/
theorem last {reader : Reader ε α} {next : α → Reader ε β} {bytes : List UInt8} {value : α}
    {result : β} (first : Reads reader bytes value) (second : Reads (next value) [] result) :
    Reads (reader >>= next) bytes result := by
  have both := first.bind second
  rwa [List.append_nil] at both

theorem exact (eof : ε) (bytes : List UInt8) : Reads (Reader.exact eof bytes.length) bytes bytes := by
  intro rest
  unfold Reader.exact
  rw [if_pos (by rw [List.length_append]; omega), List.take_left, List.drop_left]

theorem reject {bad : Bool} (fine : bad = false) (error : ε) :
    Reads (Reader.reject bad error) [] () := by
  intro rest
  rw [fine]
  rfl

theorem require (value : α) (error : ε) : Reads (Reader.require (some value) error) [] value :=
  fun _ => rfl

theorem number (eof : ε) {width n : Nat} (fits : n < 256 ^ width) :
    Reads (Reader.number eof width) (leBytes width n) n := by
  intro rest
  have here := Reads.exact eof (leBytes width n) rest
  rw [leBytes_length] at here
  show Except.bind (Reader.exact eof width (leBytes width n ++ rest))
    (fun taken => Except.ok (ofLeBytes taken.1, taken.2)) = _
  rw [here]
  show Except.ok (ofLeBytes (leBytes width n), rest) = _
  rw [ofLeBytes_leBytes fits]

theorem rename {δ : Type} {reader : Reader ε α} {bytes : List UInt8} {value : α} (name : ε → δ)
    (reads : Reads reader bytes value) : Reads (reader.rename name) bytes value := by
  intro rest
  unfold Reader.rename
  rw [reads rest]
  rfl

/-- **One value after another.** -/
theorem times {reader : Reader ε α} {encode : α → List UInt8} {values : List α}
    (each : ∀ value ∈ values, Reads reader (encode value) value) :
    Reads (Reader.times values.length reader) (values.flatMap encode) values := by
  induction values with
  | nil => exact pure []
  | cons value values ih =>
      have first := each value List.mem_cons_self
      have others := ih fun value among => each value (List.mem_cons_of_mem _ among)
      exact first.bind (others.last (pure _))

end Reads

/-! ### What a reader that returns has read -/

section

variable {reader : Reader ε α} {next : α → Reader ε β} {input rest : List UInt8} {error : ε}

/-- Where a chain of readers returns. -/
theorem Reader.bind_ok {result : β} : (reader >>= next) input = .ok (result, rest) ↔
    ∃ value left, reader input = .ok (value, left) ∧ next value left = .ok (result, rest) := by
  show Except.bind (reader input) (fun taken => next taken.1 taken.2) = _ ↔ _
  cases reader input with
  | error error => simp [Except.bind]
  | ok taken =>
      obtain ⟨value, left⟩ := taken
      simp [Except.bind]

/-- Where a chain of readers fails. -/
theorem Reader.bind_error : (reader >>= next) input = .error error ↔
    reader input = .error error ∨
      ∃ value left, reader input = .ok (value, left) ∧ next value left = .error error := by
  show Except.bind (reader input) (fun taken => next taken.1 taken.2) = _ ↔ _
  cases reader input with
  | error error => simp [Except.bind]
  | ok taken =>
      obtain ⟨value, left⟩ := taken
      simp [Except.bind]

theorem Reader.pure_ok {value result : α} :
    (Pure.pure value : Reader ε α) input = .ok (result, rest) ↔ result = value ∧ rest = input := by
  show Except.ok (value, input) = .ok (result, rest) ↔ _
  constructor
  · rintro ⟨⟩
    exact ⟨rfl, rfl⟩
  · rintro ⟨rfl, rfl⟩
    rfl

theorem Reader.reject_ok {bad : Bool} {result : Unit} :
    Reader.reject bad error input = .ok (result, rest) ↔ bad = false ∧ rest = input := by
  unfold Reader.reject
  cases bad <;> simp [eq_comm]

theorem Reader.require_ok {value : Option α} {result : α} :
    Reader.require value error input = .ok (result, rest) ↔ value = some result ∧ rest = input := by
  unfold Reader.require
  cases value <;> simp [eq_comm]

theorem Reader.rename_ok {δ : Type} {name : ε → δ} {result : α} :
    reader.rename name input = .ok (result, rest) ↔ reader input = .ok (result, rest) := by
  unfold Reader.rename
  cases reader input <;> simp [Except.mapError]

theorem Reader.exact_ok {n : Nat} {bytes : List UInt8} :
    Reader.exact error n input = .ok (bytes, rest) ↔
      n ≤ input.length ∧ bytes = input.take n ∧ rest = input.drop n := by
  unfold Reader.exact
  split
  next enough => simp [enough, eq_comm]
  next few => simp [few]

/-- Each value was read. -/
theorem Reader.times_ok {n : Nat} {values : List α} :
    Reader.times n reader input = .ok (values, rest) →
      values.length = n ∧ ∀ value ∈ values, ∃ before after, reader before = .ok (value, after) := by
  induction n generalizing input values rest with
  | zero =>
      intro read
      obtain ⟨rfl, -⟩ := Reader.pure_ok.mp read
      exact ⟨rfl, fun value among => by cases among⟩
  | succ n ih =>
      intro read
      obtain ⟨value, left, first, later⟩ := Reader.bind_ok.mp read
      obtain ⟨tail, left', others, last⟩ := Reader.bind_ok.mp later
      obtain ⟨rfl, -⟩ := Reader.pure_ok.mp last
      obtain ⟨length, each⟩ := ih others
      refine ⟨by rw [List.length_cons, length], fun member among => ?_⟩
      rcases List.mem_cons.mp among with rfl | among
      · exact ⟨input, left, first⟩
      · exact each member among

/-- Nothing makes the reader fail in this way. -/
def Reader.Avoids (error : ε) (reader : Reader ε α) : Prop := ∀ input, reader input ≠ .error error

namespace Reader.Avoids

theorem pure (value : α) : Avoids error (Pure.pure value : Reader ε α) := by
  rintro input ⟨⟩

theorem bind (first : Avoids error reader) (second : ∀ value, Avoids error (next value)) :
    Avoids error (reader >>= next) := by
  intro input failed
  rcases Reader.bind_error.mp failed with early | ⟨value, left, -, late⟩
  · exact first input early
  · exact second value left late

theorem exact {other : ε} (different : other ≠ error) (n : Nat) :
    Avoids error (Reader.exact other n) := by
  intro input
  unfold Reader.exact
  split
  · rintro ⟨⟩
  · rintro ⟨⟩
    exact different rfl

theorem reject {other : ε} (different : other ≠ error) (bad : Bool) :
    Avoids error (Reader.reject bad other) := by
  intro input
  unfold Reader.reject
  split
  · rintro ⟨⟩
    exact different rfl
  · rintro ⟨⟩

theorem require {other : ε} (different : other ≠ error) (value : Option α) :
    Avoids error (Reader.require value other) := by
  intro input
  unfold Reader.require
  cases value with
  | none =>
      rintro ⟨⟩
      exact different rfl
  | some value => rintro ⟨⟩

theorem rename {δ : Type} {name : ε → δ} {other : δ} (different : ∀ error, name error ≠ other)
    (reader : Reader ε α) : Avoids other (reader.rename name) := by
  intro input failed
  unfold Reader.rename at failed
  cases read : reader input with
  | ok taken => rw [read] at failed; cases failed
  | error error =>
      rw [read] at failed
      exact different error (Except.error.inj failed)

theorem times (each : Avoids error reader) (n : Nat) : Avoids error (Reader.times n reader) := by
  induction n with
  | zero => exact pure []
  | succ n ih => exact each.bind fun _ => ih.bind fun _ => pure _

end Reader.Avoids

end

/-! ### Loops -/

/-- Nothing is put back on the stream. -/
def Reader.Keeps (reader : Reader ε α) : Prop :=
  ∀ input value rest, reader input = .ok (value, rest) → rest.length ≤ input.length

/-- Every value is read off some bytes. -/
def Reader.Shortens (reader : Reader ε α) : Prop :=
  ∀ input value rest, reader input = .ok (value, rest) → rest.length < input.length

section

variable {reader : Reader ε α} {next : α → Reader ε β}

theorem Reader.Keeps.pure (value : α) : Reader.Keeps (Pure.pure value : Reader ε α) := by
  intro input result rest read
  obtain ⟨-, rfl⟩ := Reader.pure_ok.mp read
  exact le_rfl

theorem Reader.Keeps.reject (bad : Bool) (error : ε) : (Reader.reject bad error).Keeps := by
  intro input result rest read
  obtain ⟨-, rfl⟩ := Reader.reject_ok.mp read
  exact le_rfl

theorem Reader.Keeps.require (value : Option α) (error : ε) : (Reader.require value error).Keeps := by
  intro input result rest read
  obtain ⟨-, rfl⟩ := Reader.require_ok.mp read
  exact le_rfl

theorem Reader.Keeps.exact (eof : ε) (n : Nat) : (Reader.exact eof n).Keeps := by
  intro input result rest read
  obtain ⟨-, -, rfl⟩ := Reader.exact_ok.mp read
  rw [List.length_drop]
  omega

theorem Reader.Keeps.bind (first : reader.Keeps) (second : ∀ value, (next value).Keeps) :
    (reader >>= next).Keeps := by
  intro input result rest read
  obtain ⟨value, left, before, after⟩ := Reader.bind_ok.mp read
  exact (second value left result rest after).trans (first input value left before)

/-- **A chain that begins with a reader that takes bytes takes bytes.** -/
theorem Reader.Shortens.bind (first : reader.Shortens) (second : ∀ value, (next value).Keeps) :
    (reader >>= next).Shortens := by
  intro input result rest read
  obtain ⟨value, left, before, after⟩ := Reader.bind_ok.mp read
  exact (second value left result rest after).trans_lt (first input value left before)

end

/-- **A loop over a stream**: a round goes on from another state, or ends the loop. Each round takes bytes,
so the loop comes to an end. -/
def Reader.loop {σ : Type} (round : σ → Reader ε (σ ⊕ β)) (shortens : ∀ state, (round state).Shortens)
    (state : σ) (input : List UInt8) : Except ε (β × List UInt8) :=
  match _ : round state input with
  | .error error => .error error
  | .ok (.inl next, rest) => Reader.loop round shortens next rest
  | .ok (.inr result, rest) => .ok (result, rest)
termination_by input.length
decreasing_by exact shortens _ _ _ _ ‹_›

section

variable {σ : Type} {round : σ → Reader ε (σ ⊕ β)} {shortens : ∀ state, (round state).Shortens}
  {state next : σ} {result : β} {input rest : List UInt8}

theorem Reader.loop_more (more : round state input = .ok (.inl next, rest)) :
    Reader.loop round shortens state input = Reader.loop round shortens next rest := by
  rw [Reader.loop]
  split
  next error failed => rw [more] at failed; cases failed
  next next' rest' went => rw [more] at went; cases went; rfl
  next result' rest' ended => rw [more] at ended; cases ended

theorem Reader.loop_done (done : round state input = .ok (.inr result, rest)) :
    Reader.loop round shortens state input = .ok (result, rest) := by
  rw [Reader.loop]
  split
  next error failed => rw [done] at failed; cases failed
  next next' rest' went => rw [done] at went; cases went
  next result' rest' ended => rw [done] at ended; cases ended; rfl

/-- A loop puts nothing back. -/
theorem Reader.Keeps.loop (state : σ) : Reader.Keeps (Reader.loop round shortens state) := by
  intro input result rest read
  fun_induction Reader.loop round shortens state input with
  | case1 => cases read
  | case2 state input next left went ih => exact (ih read).trans (shortens _ _ _ _ went).le
  | case3 state input result' left ended =>
      cases read
      exact (shortens _ _ _ _ ended).le

/-- **A loop fails as one of its rounds does**, on what is left of the stream there. -/
theorem Reader.loop_error {error : ε}
    (failed : Reader.loop round shortens state input = .error error) :
    ∃ state left, left.length ≤ input.length ∧ round state left = .error error := by
  fun_induction Reader.loop round shortens state input with
  | case1 state input error' failed' =>
      cases failed
      exact ⟨state, input, le_rfl, failed'⟩
  | case2 state input next rest went ih =>
      obtain ⟨state', left, shorter, here⟩ := ih failed
      exact ⟨state', left, shorter.trans (shortens _ _ _ _ went).le, here⟩
  | case3 => cases failed

theorem Reads.loop_done {bytes : List UInt8} (done : Reads (round state) bytes (.inr result)) :
    Reads (Reader.loop round shortens state) bytes result :=
  fun rest => Reader.loop_done (done rest)

/-- **One round, and the rest of the loop.** -/
theorem Reads.loop_more {bytes later : List UInt8} (more : Reads (round state) bytes (.inl next))
    (others : Reads (Reader.loop round shortens next) later result) :
    Reads (Reader.loop round shortens state) (bytes ++ later) result := by
  intro rest
  rw [List.append_assoc, Reader.loop_more (more (later ++ rest))]
  exact others rest

end

/-! ### Text -/

/-- The bytes of a text. -/
def utf8Bytes (text : String) : List UInt8 := text.toUTF8.data.toList

/-- The text of some bytes. -/
def fromUtf8 (bytes : List UInt8) : Option String := String.fromUTF8? ⟨⟨bytes⟩⟩

/-- **A text is read back.** -/
theorem fromUtf8_utf8Bytes (text : String) : fromUtf8 (utf8Bytes text) = some text := by
  unfold fromUtf8 String.fromUTF8?
  exact dif_pos text.isValidUTF8

/-- What is read as a text are its bytes. -/
theorem fromUtf8_some {bytes : List UInt8} {text : String} (read : fromUtf8 bytes = some text) :
    utf8Bytes text = bytes := by
  unfold fromUtf8 String.fromUTF8? at read
  split at read
  · cases read
    rfl
  · cases read

/-- Texts are determined by their bytes. -/
theorem utf8Bytes_inj {left right : String} (same : utf8Bytes left = utf8Bytes right) :
    left = right := by
  have read := congrArg fromUtf8 same
  rw [fromUtf8_utf8Bytes, fromUtf8_utf8Bytes] at read
  exact Option.some.inj read

/-- The first bytes of a text. -/
theorem take_utf8Bytes (text : String) (n : Nat) :
    (⟨⟨(utf8Bytes text).take n⟩⟩ : ByteArray) = text.toByteArray.extract 0 n := by
  apply ByteArray.ext
  rw [ByteArray.data_extract]
  apply Array.toList_inj.mp
  rw [Array.toList_extract]
  simp [utf8Bytes, List.extract]

/-- **A text may be cut** before a byte that begins a character, and at its end. -/
def CutAt (text : String) (n : Nat) : Prop :=
  ∀ byte, (utf8Bytes text)[n]? = some byte → byte.IsUTF8FirstByte

theorem utf8Bytes_getElem? (text : String) (n : Nat) : (utf8Bytes text)[n]? = text.toByteArray[n]? := by
  unfold utf8Bytes
  rw [Array.getElem?_toList, ← String.toUTF8_eq_toByteArray]
  rfl

theorem utf8Bytes_length (text : String) : (utf8Bytes text).length = text.rawEndPos.byteIdx := by
  simp [utf8Bytes]

/-- Where a text may be cut there is a position of it. -/
theorem cutAt_iff {text : String} {n : Nat} (within : n ≤ (utf8Bytes text).length) :
    CutAt text n ↔ String.Pos.Raw.IsValid text ⟨n⟩ := by
  rw [utf8Bytes_length] at within
  rw [String.Pos.Raw.isValid_iff_isUTF8FirstByte]
  unfold CutAt
  rw [utf8Bytes_getElem?]
  rcases Nat.lt_or_eq_of_le within with inside | atEnd
  · have sized : n < text.toByteArray.size := inside
    rw [getElem?_pos text.toByteArray n sized]
    constructor
    · intro starts
      exact .inr ⟨inside, starts _ rfl⟩
    · rintro (atEnd | ⟨_, starts⟩) byte ⟨⟩
      · exact absurd (congrArg String.Pos.Raw.byteIdx atEnd) (Nat.ne_of_lt inside)
      · exact starts
  · refine iff_of_true (fun byte there => ?_) (.inl (String.Pos.Raw.ext atEnd))
    rw [getElem?_neg _ _ (by simp [atEnd])] at there
    cases there

/-- **A text is read up to where it is cut**, and only there: what is read is its beginning. -/
theorem fromUtf8_take (text : String) (n : Nat) :
    (CutAt text n → ∃ front back, fromUtf8 ((utf8Bytes text).take n) = some front ∧
      text = front ++ back) ∧
    (¬ CutAt text n → fromUtf8 ((utf8Bytes text).take n) = none) := by
  rcases Nat.lt_or_ge (utf8Bytes text).length n with past | within
  · rw [List.take_of_length_le past.le]
    refine ⟨fun _ => ⟨text, "", fromUtf8_utf8Bytes text, (String.append_empty).symm⟩, fun inside => ?_⟩
    refine absurd (fun byte there => ?_) inside
    rw [List.getElem?_eq_none past.le] at there
    cases there
  · have same := cutAt_iff within
    have sized : (⟨n⟩ : String.Pos.Raw) ≤ text.rawEndPos := by
      rw [utf8Bytes_length] at within
      exact within
    unfold fromUtf8 String.fromUTF8?
    rw [take_utf8Bytes]
    constructor
    · intro cut
      have valid := same.mp cut
      have front := (String.Pos.Raw.isValid_iff_isValidUTF8_extract_zero.mp valid).2
      have back := valid.isValidUTF8_extract_utf8ByteSize
      refine ⟨⟨_, front⟩, ⟨_, back⟩, dif_pos front, ?_⟩
      rw [← String.toByteArray_inj, String.toByteArray_append]
      show text.toByteArray = text.toByteArray.extract 0 n ++
        text.toByteArray.extract n text.utf8ByteSize
      have whole := ByteArray.extract_eq_extract_append_extract (a := text.toByteArray)
        (k := text.utf8ByteSize) n n.zero_le sized
      rw [← whole, ← String.size_toByteArray, ByteArray.extract_zero_size]
    · intro inside
      refine dif_neg fun front => inside (same.mpr ?_)
      exact String.Pos.Raw.isValid_iff_isValidUTF8_extract_zero.mpr ⟨sized, front⟩

theorem utf8Bytes_append (front back : String) :
    utf8Bytes (front ++ back) = utf8Bytes front ++ utf8Bytes back := by
  unfold utf8Bytes
  rw [String.toUTF8_eq_toByteArray, String.toByteArray_append, ByteArray.data_append,
    Array.toList_append]
  rfl

/-- The bytes of a text, one character after another. -/
theorem utf8Bytes_ofList (chars : List Char) :
    utf8Bytes (String.ofList chars) = chars.flatMap String.utf8EncodeChar := by
  unfold utf8Bytes
  rw [String.toUTF8_eq_toByteArray, String.toByteArray_ofList, List.utf8Encode,
    List.toList_data_toByteArray]

/-- `n` letters are `n` bytes. -/
theorem flatMap_replicate_letter (n : Nat) :
    (List.replicate n 'a').flatMap String.utf8EncodeChar = List.replicate n 97 := by
  have letter : String.utf8EncodeChar 'a' = [97] := by decide
  induction n with
  | zero => rfl
  | succ n ih => rw [List.replicate_succ, List.flatMap_cons, ih, letter]; rfl

theorem utf8Bytes_replicate (n : Nat) :
    (utf8Bytes (String.ofList (List.replicate n 'a'))).length = n := by
  rw [utf8Bytes_ofList, flatMap_replicate_letter, List.length_replicate]

end Library
