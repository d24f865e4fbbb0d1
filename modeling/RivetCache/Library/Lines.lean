/-
**Lines of a text protocol.**

A line ends with CR LF and is UTF-8. A text that holds no line feed is read back from the line it is written
as (`reads_line`), and nothing of what follows is taken.

What is ASCII in a text is ASCII in its bytes (`mem_utf8Bytes_ascii`, `utf8Bytes_ascii`).
-/

import RivetCache.Library.Reader

namespace Library

/-! ### ASCII -/

/-- A character with an ASCII byte is that byte. -/
theorem mem_utf8EncodeChar_ascii {byte : UInt8} {char : Char} (ascii : byte.toNat < 128)
    (among : byte ∈ String.utf8EncodeChar char) : char.toNat = byte.toNat := by
  unfold String.utf8EncodeChar at among
  dsimp only at among
  have same : char.toNat = char.val.toNat := rfl
  split at among
  next small =>
    rw [List.mem_singleton] at among
    rw [among, UInt8.toNat_ofNat', same]
    omega
  next =>
    -- every byte of a longer character is at least 128
    exfalso
    split at among
    next =>
      simp only [List.mem_cons, List.not_mem_nil, or_false] at among
      rcases among with rfl | rfl <;> rw [UInt8.toNat_ofNat'] at ascii <;> omega
    next =>
      split at among
      next =>
        simp only [List.mem_cons, List.not_mem_nil, or_false] at among
        rcases among with rfl | rfl | rfl <;> rw [UInt8.toNat_ofNat'] at ascii <;> omega
      next =>
        simp only [List.mem_cons, List.not_mem_nil, or_false] at among
        rcases among with rfl | rfl | rfl | rfl <;> rw [UInt8.toNat_ofNat'] at ascii <;> omega

/-- **An ASCII byte of a text is a character of it.** -/
theorem mem_utf8Bytes_ascii {byte : UInt8} {text : String} (ascii : byte.toNat < 128)
    (among : byte ∈ utf8Bytes text) : ∃ char ∈ text.toList, char.toNat = byte.toNat := by
  rw [← String.ofList_toList (s := text), utf8Bytes_ofList, List.mem_flatMap] at among
  obtain ⟨char, there, among⟩ := among
  exact ⟨char, there, mem_utf8EncodeChar_ascii ascii among⟩

/-- An ASCII character is a byte of the text. -/
theorem ascii_mem_utf8Bytes {char : Char} {text : String} (ascii : char.toNat < 128)
    (there : char ∈ text.toList) : UInt8.ofNat char.toNat ∈ utf8Bytes text := by
  have small : char.val.toNat ≤ 127 := Nat.le_of_lt_succ ascii
  rw [← String.ofList_toList (s := text), utf8Bytes_ofList, List.mem_flatMap]
  refine ⟨char, there, ?_⟩
  unfold String.utf8EncodeChar
  dsimp only
  rw [if_pos small]
  exact List.mem_singleton_self _

/-- The bytes of an ASCII text are its characters. -/
theorem utf8Bytes_ascii {chars : List Char} (ascii : ∀ char ∈ chars, char.toNat < 128) :
    utf8Bytes (String.ofList chars) = chars.map fun char => UInt8.ofNat char.toNat := by
  rw [utf8Bytes_ofList]
  induction chars with
  | nil => rfl
  | cons char chars ih =>
      have small : char.val.toNat ≤ 127 := Nat.le_of_lt_succ (ascii char List.mem_cons_self)
      rw [List.flatMap_cons, ih fun char among => ascii char (List.mem_cons_of_mem _ among),
        List.map_cons]
      unfold String.utf8EncodeChar
      dsimp only
      rw [if_pos small]
      rfl

/-! ### Lines -/

/-- CR LF. -/
def crlf : List UInt8 := [13, 10]

/-- `read_until`: the bytes up to one, and with it. -/
def readUntil (stop : UInt8) : List UInt8 → List UInt8 × List UInt8
  | [] => ([], [])
  | byte :: rest =>
      if byte = stop then ([byte], rest)
      else (byte :: (readUntil stop rest).1, (readUntil stop rest).2)

/-- A line of at most so many bytes, with its end. -/
def readLine {ε : Type} (max : Nat) (invalid notText : ε) : Reader ε String := fun input =>
  let line := (readUntil 10 input).1
  if line.length = 0 ∨ line.length > max ∨ ¬ crlf <:+ line then .error invalid
  else
    match fromUtf8 (line.take (line.length - 2)) with
    | none => .error notText
    | some text => .ok (text, (readUntil 10 input).2)

theorem readUntil_append {stop : UInt8} {line : List UInt8} (absent : stop ∉ line)
    (rest : List UInt8) : readUntil stop (line ++ stop :: rest) = (line ++ [stop], rest) := by
  induction line with
  | nil => simp [readUntil]
  | cons byte line ih =>
      rw [List.mem_cons, not_or] at absent
      show readUntil stop (byte :: (line ++ stop :: rest)) = _
      rw [readUntil, if_neg (Ne.symm absent.1), ih absent.2]
      rfl

theorem readUntil_length (stop : UInt8) (input : List UInt8) :
    (readUntil stop input).1.length + (readUntil stop input).2.length = input.length := by
  induction input with
  | nil => rfl
  | cons byte rest ih =>
      unfold readUntil
      split
      · simp only [List.length_cons, List.length_nil]
        omega
      · simp only [List.length_cons]
        omega

/-- The byte a line is read up to is at its end only. -/
theorem readUntil_front (stop : UInt8) (input : List UInt8) :
    stop ∉ (readUntil stop input).1.dropLast := by
  induction input with
  | nil => exact List.not_mem_nil
  | cons byte rest ih =>
      unfold readUntil
      split
      · exact List.not_mem_nil
      next other =>
        cases line : (readUntil stop rest).1 with
        | nil => exact List.not_mem_nil
        | cons second others =>
            rw [line] at ih
            rw [List.dropLast_cons_cons, List.mem_cons, not_or]
            exact ⟨Ne.symm other, ih⟩

/-- **What a line is read as**: a text without a line feed, and short enough. -/
theorem readLine_ok {ε : Type} {max : Nat} {invalid notText : ε} {input rest : List UInt8}
    {text : String} (read : readLine max invalid notText input = .ok (text, rest)) :
    '\n' ∉ text.toList ∧ (utf8Bytes text).length + 2 ≤ max := by
  have front := readUntil_front 10 input
  unfold readLine at read
  dsimp only at read
  split at read
  next => cases read
  next fine =>
    simp only [not_or, Decidable.not_not, Nat.not_lt, gt_iff_lt] at fine
    obtain ⟨-, short, body, line⟩ := fine
    split at read
    next => cases read
    next text' decoded =>
      cases read
      rw [← line] at decoded short front
      have length : (body ++ crlf).length = body.length + 2 := by
        rw [List.length_append]
        rfl
      rw [length, Nat.add_sub_cancel, List.take_left] at decoded
      have bytes := fromUtf8_some decoded
      refine ⟨fun there => front ?_, by rw [bytes, ← length]; exact short⟩
      have among : (10 : UInt8) ∈ utf8Bytes text := ascii_mem_utf8Bytes (by decide) there
      rw [bytes] at among
      have cut : (body ++ crlf).dropLast = body ++ [13] := by
        rw [List.dropLast_append_of_ne_nil (by decide)]
        rfl
      rw [cut]
      exact List.mem_append_left _ among

theorem readLine_shortens {ε : Type} (max : Nat) (invalid notText : ε) :
    (readLine max invalid notText).Shortens := by
  intro input value rest read
  have parts := readUntil_length 10 input
  unfold readLine at read
  dsimp only at read
  split at read
  next => cases read
  next fine =>
    split at read
    next => cases read
    next =>
      cases read
      omega

/-- **A line is read back.** -/
theorem reads_line {ε : Type} {max : Nat} {text : String} (invalid notText : ε)
    (single : '\n' ∉ text.toList) (short : (utf8Bytes text).length + 2 ≤ max) :
    Reads (readLine max invalid notText) (utf8Bytes text ++ crlf) text := by
  intro rest
  have absent : (10 : UInt8) ∉ utf8Bytes text ++ [13] := by
    intro among
    rcases List.mem_append.mp among with among | among
    · obtain ⟨char, there, same⟩ := mem_utf8Bytes_ascii (by decide) among
      rw [show char = '\n' from Char.toNat_inj.mp same] at there
      exact single there
    · cases List.mem_singleton.mp among
  have cut : readUntil 10 (utf8Bytes text ++ crlf ++ rest) = (utf8Bytes text ++ crlf, rest) := by
    have found := readUntil_append absent rest
    rw [List.append_assoc, List.append_assoc] at found
    rw [List.append_assoc]
    exact found
  have length : (utf8Bytes text ++ crlf).length = (utf8Bytes text).length + 2 := by
    rw [List.length_append]
    rfl
  unfold readLine
  dsimp only
  rw [cut, if_neg]
  · rw [length, Nat.add_sub_cancel, List.take_left, fromUtf8_utf8Bytes]
  · rw [length]
    rintro (none | long | open_)
    · omega
    · omega
    · exact open_ (List.suffix_append _ _)

end Library
