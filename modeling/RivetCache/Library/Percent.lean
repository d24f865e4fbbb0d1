/-
**Percent-encoding.**

`Escaped bytes plain` says that `bytes` are an encoding of `plain`: a `%` with two hexadecimal digits is the
byte they tell, a `+` is a space, and every other byte is itself. A text is an encoding, or it is one up to a
`%` that two digits do not follow (`escaped_or_broken`).

`percentEncode` escapes every byte that is not unreserved, and is an encoding (`escaped_percentEncode`) with
none of the characters that have a meaning of their own (`mem_percentEncode`).
-/

import RivetCache.Library.Digits

namespace Library

/-- The value of a hexadecimal digit. -/
def hexDigitValue (byte : UInt8) : Option Nat := digitValue 16 (Char.ofNat byte.toNat)

/-- **An encoding** of bytes. -/
inductive Escaped : List UInt8 → List UInt8 → Prop
  | nil : Escaped [] []
  | escape {high low : UInt8} {first second : Nat} {rest plain : List UInt8} :
      hexDigitValue high = some first → hexDigitValue low = some second → Escaped rest plain →
      Escaped (37 :: high :: low :: rest) (UInt8.ofNat (16 * first + second) :: plain)
  | plus {rest plain : List UInt8} : Escaped rest plain → Escaped (43 :: rest) (32 :: plain)
  | other {byte : UInt8} {rest plain : List UInt8} :
      byte ≠ 37 → byte ≠ 43 → Escaped rest plain → Escaped (byte :: rest) (byte :: plain)

/-- Two digits do not follow: something else does. -/
def NotDigits : List UInt8 → Prop
  | high :: low :: _ => hexDigitValue high = none ∨ hexDigitValue low = none
  | _ => False

theorem NotDigits.bytes {tail : List UInt8} (other : NotDigits tail) : ∃ high low rest,
    tail = high :: low :: rest ∧ (hexDigitValue high = none ∨ hexDigitValue low = none) := by
  unfold NotDigits at other
  split at other
  next high low rest => exact ⟨high, low, rest, rfl, other⟩
  next => exact absurd other id

/-- What comes after a `%` is not two digits. -/
def BrokenEscape (tail : List UInt8) : Prop := tail.length < 2 ∨ NotDigits tail

variable {bytes plain more later front : List UInt8} {byte : UInt8}

/-- One encoding after another. -/
theorem Escaped.append (first : Escaped bytes plain) (second : Escaped more later) :
    Escaped (bytes ++ more) (plain ++ later) := by
  induction first with
  | nil => exact second
  | escape high low _ ih => exact .escape high low ih
  | plus _ ih => exact .plus ih
  | other notPercent notPlus _ ih => exact .other notPercent notPlus ih

/-- **Every text is an encoding**, or is one up to an escape that is broken. -/
theorem escaped_or_broken (bytes : List UInt8) :
    (∃ plain, Escaped bytes plain) ∨
      ∃ front plain tail, bytes = front ++ 37 :: tail ∧ Escaped front plain ∧ BrokenEscape tail := by
  induction size : bytes.length using Nat.strong_induction_on generalizing bytes with
  | _ size ih =>
    subst size
    -- what is read of the rest is read after what was read already
    have after (front plain rest : List UInt8) (split : bytes = front ++ rest) (some_ : front ≠ [])
        (read : Escaped front plain) :
        (∃ plain, Escaped bytes plain) ∨
          ∃ front plain tail, bytes = front ++ 37 :: tail ∧ Escaped front plain ∧ BrokenEscape tail := by
      have positive := List.length_pos_iff.mpr some_
      rcases ih rest.length (by rw [split, List.length_append]; omega) rest rfl with
        ⟨others, fine⟩ | ⟨before, others, tail, same, fine, broken⟩
      · exact .inl ⟨_, split ▸ read.append fine⟩
      · refine .inr ⟨front ++ before, _, tail, ?_, read.append fine, broken⟩
        rw [split, same, List.append_assoc]
    cases bytes with
    | nil => exact .inl ⟨[], .nil⟩
    | cons byte rest =>
        by_cases percent : byte = 37
        · subst percent
          by_cases broken : BrokenEscape rest
          · exact .inr ⟨[], [], rest, rfl, .nil, broken⟩
          · unfold BrokenEscape at broken
            obtain ⟨long, digits⟩ := not_or.mp broken
            obtain ⟨high, low, rest, rfl⟩ : ∃ high low others, rest = high :: low :: others := by
              match rest, long with
              | high :: low :: others, _ => exact ⟨high, low, others, rfl⟩
              | [_], long => exact absurd (by simp) long
              | [], long => exact absurd (by simp) long
            obtain ⟨highDigit, lowDigit⟩ := not_or.mp digits
            obtain ⟨first, highDigit⟩ := Option.ne_none_iff_exists'.mp highDigit
            obtain ⟨second, lowDigit⟩ := Option.ne_none_iff_exists'.mp lowDigit
            exact after [37, high, low] _ rest rfl (by simp) (.escape highDigit lowDigit .nil)
        · by_cases plus : byte = 43
          · subst plus
            exact after [43] _ rest rfl (by simp) (.plus .nil)
          · exact after [byte] _ rest rfl (by simp) (.other percent plus .nil)

/-! ### Encoding -/

/-- A letter, a digit, `-`, `_`, `.` or `~`. -/
def unreserved (byte : UInt8) : Bool :=
  (48 ≤ byte && byte ≤ 57) || (65 ≤ byte && byte ≤ 90) || (97 ≤ byte && byte ≤ 122) ||
    byte == 45 || byte == 95 || byte == 46 || byte == 126

/-- An upper-case hexadecimal digit. -/
def upperHex (n : Nat) : UInt8 := UInt8.ofNat (if n < 10 then 48 + n else 55 + n)

/-- A byte, escaped unless it is unreserved. -/
def percentByte (byte : UInt8) : List UInt8 :=
  if unreserved byte then [byte]
  else [37, upperHex (byte.toNat / 16), upperHex (byte.toNat % 16)]

/-- Bytes, each escaped unless it is unreserved. -/
def percentEncode (bytes : List UInt8) : List UInt8 := bytes.flatMap percentByte

theorem hexDigitValue_upperHex {n : Nat} (small : n < 16) : hexDigitValue (upperHex n) = some n := by
  have all : ∀ n < 16, hexDigitValue (upperHex n) = some n := by decide
  exact all n small

theorem unreserved_upperHex {n : Nat} (small : n < 16) : unreserved (upperHex n) = true := by
  have all : ∀ n < 16, unreserved (upperHex n) = true := by decide
  exact all n small

theorem unreserved_ascii (plain : unreserved byte = true) : byte.toNat < 128 := by
  simp only [unreserved, Bool.or_eq_true, Bool.and_eq_true, decide_eq_true_eq, beq_iff_eq,
    UInt8.le_iff_toNat_le, ← UInt8.toNat_inj] at plain
  have sizes : (57 : UInt8).toNat = 57 ∧ (90 : UInt8).toNat = 90 ∧ (122 : UInt8).toNat = 122 ∧
      (45 : UInt8).toNat = 45 ∧ (95 : UInt8).toNat = 95 ∧ (46 : UInt8).toNat = 46 ∧
        (126 : UInt8).toNat = 126 := by decide
  omega

theorem escaped_percentByte (byte : UInt8) : Escaped (percentByte byte) [byte] := by
  unfold percentByte
  by_cases plain : unreserved byte = true
  · rw [if_pos plain]
    exact .other (by rintro rfl; exact absurd plain (by decide))
      (by rintro rfl; exact absurd plain (by decide)) .nil
  · rw [if_neg plain]
    have bound := byte.toNat_lt
    have escaped := Escaped.escape (hexDigitValue_upperHex (n := byte.toNat / 16) (by omega))
      (hexDigitValue_upperHex (n := byte.toNat % 16) (by omega)) .nil
    rwa [Nat.div_add_mod, UInt8.ofNat_toNat] at escaped

/-- **What is encoded** is an encoding of it. -/
theorem escaped_percentEncode (bytes : List UInt8) : Escaped (percentEncode bytes) bytes := by
  induction bytes with
  | nil => exact .nil
  | cons byte rest ih => exact (escaped_percentByte byte).append ih

/-- An encoding is made of unreserved bytes and of `%`. -/
theorem mem_percentEncode (among : byte ∈ percentEncode bytes) :
    unreserved byte = true ∨ byte = 37 := by
  obtain ⟨source, -, among⟩ := List.mem_flatMap.mp among
  have bound := source.toNat_lt
  unfold percentByte at among
  by_cases plain : unreserved source = true
  · rw [if_pos plain, List.mem_singleton] at among
    exact .inl (among ▸ plain)
  · rw [if_neg plain] at among
    simp only [List.mem_cons, List.not_mem_nil, or_false] at among
    rcases among with rfl | rfl | rfl
    · exact .inr rfl
    · exact .inl (unreserved_upperHex (by omega))
    · exact .inl (unreserved_upperHex (by omega))

end Library
