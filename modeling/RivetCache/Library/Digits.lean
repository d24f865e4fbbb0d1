/-
**Numbers in text.**

`readDigits` is the value of a run of digits; `parseUnsigned` and `parseSigned` read a number that may have a
sign, within bounds. The digits of a number are `Nat.toDigits`, which are read back
(`parseUnsigned_toDigits`, `parseSigned_repr`).

`fixedDigits` are the digits of a number that is padded with zeros to a width. Texts of one width are in the
order of their numbers (`fixedDigits_lt`).
-/

import Mathlib.Tactic

namespace Library

/-- `char::to_digit`. -/
def digitValue (radix : Nat) (digit : Char) : Option Nat :=
  let code := digit.toNat
  let value :=
    if 48 ≤ code ∧ code ≤ 57 then code - 48
    else if 97 ≤ code ∧ code ≤ 122 then code - 87
    else if 65 ≤ code ∧ code ≤ 90 then code - 55
    else radix
  if value < radix then some value else none

/-- The value of digits after a number. -/
def readDigits (radix : Nat) : List Char → Nat → Option Nat
  | [], value => some value
  | digit :: rest, value =>
      (digitValue radix digit).bind fun next => readDigits radix rest (radix * value + next)

/-- The value of digits, of which there are some. -/
def digitsValue (radix : Nat) (digits : List Char) : Option Nat :=
  if digits.isEmpty then none else readDigits radix digits 0

/-- `from_str_radix` of an unsigned integer: a `+` may come first. -/
def parseUnsigned (radix max : Nat) (text : List Char) : Option Nat :=
  (digitsValue radix (if text.head? = some '+' then text.tail else text)).filter
    fun value => decide (value ≤ max)

/-- `from_str_radix` of a signed integer of so many values on each side of zero. -/
def parseSigned (radix half : Nat) (text : List Char) : Option Int :=
  if text.head? = some '-' then
    ((digitsValue radix text.tail).filter fun value => decide (value ≤ half)).map
      fun value : Nat => -Int.ofNat value
  else (parseUnsigned radix (half - 1) text).map Int.ofNat

/-- A letter or a digit of ASCII. -/
def AlphaNumeric (char : Char) : Prop :=
  (48 ≤ char.toNat ∧ char.toNat ≤ 57) ∨ (65 ≤ char.toNat ∧ char.toNat ≤ 90) ∨
    (97 ≤ char.toNat ∧ char.toNat ≤ 122)

/-! ### Digits are read back -/

variable {radix n : Nat}

theorem digitValue_lt {digit : Char} {value : Nat} (read : digitValue radix digit = some value) :
    value < radix := by
  unfold digitValue at read
  dsimp only at read
  by_cases small : (if 48 ≤ digit.toNat ∧ digit.toNat ≤ 57 then digit.toNat - 48
    else if 97 ≤ digit.toNat ∧ digit.toNat ≤ 122 then digit.toNat - 87
    else if 65 ≤ digit.toNat ∧ digit.toNat ≤ 90 then digit.toNat - 55 else radix) < radix
  · rw [if_pos small] at read
    cases read
    exact small
  · rw [if_neg small] at read
    cases read

theorem digitValue_alphaNumeric {digit : Char} {value : Nat}
    (read : digitValue radix digit = some value) : AlphaNumeric digit := by
  by_contra other
  unfold AlphaNumeric at other
  obtain ⟨digit_, upper, lower⟩ : ¬ _ ∧ ¬ _ ∧ ¬ _ := by simpa only [not_or] using other
  unfold digitValue at read
  dsimp only at read
  rw [if_neg digit_, if_neg lower, if_neg upper, if_neg (lt_irrefl radix)] at read
  cases read

/-- What has the value of a number are letters and digits. -/
theorem readDigits_alphaNumeric {digits : List Char} {value : Nat}
    (read : readDigits radix digits value = some n) : ∀ digit ∈ digits, AlphaNumeric digit := by
  induction digits generalizing value with
  | nil => exact fun digit among => by cases among
  | cons first rest ih =>
      obtain ⟨next, valued, others⟩ := Option.bind_eq_some_iff.mp read
      intro digit among
      rcases List.mem_cons.mp among with rfl | among
      · exact digitValue_alphaNumeric valued
      · exact ih others digit among

theorem digitsValue_alphaNumeric {digits : List Char} (read : digitsValue radix digits = some n) :
    ∀ digit ∈ digits, AlphaNumeric digit := by
  unfold digitsValue at read
  split at read
  · cases read
  · exact readDigits_alphaNumeric read

/-- **Digits are read** as the number they stand for. -/
theorem parseUnsigned_digits {digits : List Char} {max : Nat}
    (value : digitsValue radix digits = some n) (within : n ≤ max) :
    parseUnsigned radix max digits = some n := by
  have unsigned : digits.head? ≠ some '+' := by
    intro first
    have plus := digitsValue_alphaNumeric value '+' (List.mem_of_mem_head? first)
    revert plus
    unfold AlphaNumeric
    decide
  unfold parseUnsigned
  rw [if_neg unsigned, value, Option.filter_some_pos (by simp [within])]

theorem digitValue_digitChar (base : radix ≤ 16) (small : n < radix) :
    digitValue radix n.digitChar = some n := by
  have value : digitValue radix n.digitChar = if n < radix then some n else none := by
    have below : n < 16 := by omega
    interval_cases n <;> rfl
  rw [value, if_pos small]

theorem readDigits_append (digits more : List Char) (value : Nat) :
    readDigits radix (digits ++ more) value =
      (readDigits radix digits value).bind fun value => readDigits radix more value := by
  induction digits generalizing value with
  | nil => rfl
  | cons digit rest ih =>
      show (digitValue radix digit).bind _ = ((digitValue radix digit).bind _).bind _
      cases digitValue radix digit with
      | none => rfl
      | some next => exact ih _

/-- **The digits of a number have its value.** -/
theorem readDigits_toDigits (above : 1 < radix) (base : radix ≤ 16) (n : Nat) :
    readDigits radix (Nat.toDigits radix n) 0 = some n := by
  induction n using Nat.strongRecOn with
  | ind n ih =>
      rcases Nat.lt_or_ge n radix with small | large
      · rw [Nat.toDigits_of_lt_base small]
        show (digitValue radix n.digitChar).bind _ = _
        rw [digitValue_digitChar base small]
        simp [readDigits]
      · rw [Nat.toDigits_of_base_le above large, readDigits_append,
          ih _ (Nat.div_lt_self (by omega) above)]
        show (digitValue radix (n % radix).digitChar).bind _ = _
        rw [digitValue_digitChar base (Nat.mod_lt n (by omega))]
        simp [readDigits, Nat.div_add_mod]

/-- Every digit of a number is one. -/
theorem digit_of_mem_toDigits (above : 1 < radix) (base : radix ≤ 16) {digit : Char}
    (among : digit ∈ Nat.toDigits radix n) : ∃ value < radix, digit = value.digitChar := by
  induction n using Nat.strongRecOn with
  | ind n ih =>
      rcases Nat.lt_or_ge n radix with small | large
      · rw [Nat.toDigits_of_lt_base small, List.mem_singleton] at among
        exact ⟨n, small, among⟩
      · rw [Nat.toDigits_of_base_le above large, List.mem_append, List.mem_singleton] at among
        rcases among with among | last
        · exact ih _ (Nat.div_lt_self (by omega) above) among
        · exact ⟨n % radix, Nat.mod_lt n (by omega), last⟩

theorem digitsValue_toDigits (above : 1 < radix) (base : radix ≤ 16) (n : Nat) :
    digitsValue radix (Nat.toDigits radix n) = some n := by
  unfold digitsValue
  rw [if_neg (by simp [List.isEmpty_iff, Nat.toDigits_ne_nil])]
  exact readDigits_toDigits above base n

/-- A number begins with a digit. -/
theorem head_toDigits (above : 1 < radix) (base : radix ≤ 16) {sign : Char}
    (first : (Nat.toDigits radix n).head? = some sign) : ∃ value < radix, sign = value.digitChar :=
  digit_of_mem_toDigits above base (List.mem_of_mem_head? first)

theorem not_digitChar {sign : Char} (other : sign = '+' ∨ sign = '-') (small : n < 16) :
    sign ≠ n.digitChar := by
  rcases other with rfl | rfl <;> interval_cases n <;> decide

/-- A number has no sign. -/
theorem head_toDigits_ne (above : 1 < radix) (base : radix ≤ 16) {sign : Char}
    (other : sign = '+' ∨ sign = '-') : (Nat.toDigits radix n).head? ≠ some sign := by
  intro first
  obtain ⟨value, small, same⟩ := head_toDigits above base first
  exact not_digitChar other (by omega) same

/-- **A number is read back.** -/
theorem parseUnsigned_toDigits (above : 1 < radix) (base : radix ≤ 16) {max : Nat}
    (within : n ≤ max) : parseUnsigned radix max (Nat.toDigits radix n) = some n :=
  parseUnsigned_digits (digitsValue_toDigits above base n) within

/-- **An integer is read back**, with its sign. -/
theorem parseSigned_repr {value : Int} {half : Nat} (low : -(half : Int) ≤ value)
    (high : value < half) : parseSigned 10 half (toString value).toList = some value := by
  unfold parseSigned
  rw [Int.toString_eq_repr, Int.repr_eq_if]
  by_cases negative : 0 ≤ value
  · rw [if_pos negative, Nat.toList_repr,
      if_neg (head_toDigits_ne (by decide) (by decide) (.inr rfl)),
      parseUnsigned_toDigits (by decide) (by decide) (by omega)]
    exact congrArg some (Int.toNat_of_nonneg negative)
  · have text : ("-" ++ (-value).toNat.repr).toList = '-' :: Nat.toDigits 10 (-value).toNat := by
      rw [String.toList_append, Nat.toList_repr]
      rfl
    rw [if_neg negative, text, List.head?_cons, if_pos rfl, List.tail_cons,
      digitsValue_toDigits (by decide) (by decide), Option.filter_some_pos (by simp; omega), Option.map_some, Int.ofNat_eq_natCast]
    congr 1
    omega

/-- An integer that is read is within its bounds. -/
theorem parseSigned_bounds {half : Nat} {text : List Char} {value : Int} (some_ : 0 < half)
    (read : parseSigned radix half text = some value) : -(half : Int) ≤ value ∧ value < half := by
  unfold parseSigned at read
  split at read
  · obtain ⟨n, kept, rfl⟩ := Option.map_eq_some_iff.mp read
    have below := of_decide_eq_true (Option.filter_eq_some_iff.mp kept).2
    rw [Int.ofNat_eq_natCast]
    omega
  · obtain ⟨n, kept, rfl⟩ := Option.map_eq_some_iff.mp read
    have below := of_decide_eq_true (Option.filter_eq_some_iff.mp kept).2
    rw [Int.ofNat_eq_natCast]
    omega

/-- What an integer is written with. -/
theorem mem_repr {value : Int} {char : Char} (among : char ∈ (toString value).toList) :
    char = '-' ∨ ∃ digit < 10, char = digit.digitChar := by
  rw [Int.toString_eq_repr, Int.repr_eq_if] at among
  by_cases negative : 0 ≤ value
  · rw [if_pos negative, Nat.toList_repr] at among
    exact .inr (digit_of_mem_toDigits (by decide) (by decide) among)
  · rw [if_neg negative, String.toList_append, Nat.toList_repr, List.mem_append] at among
    rcases among with sign | among
    · exact .inl (List.mem_singleton.mp sign)
    · exact .inr (digit_of_mem_toDigits (by decide) (by decide) among)

/-- A digit is a printable ASCII character. -/
theorem digitChar_ascii (small : n < 16) : 32 < n.digitChar.toNat ∧ n.digitChar.toNat < 127 := by
  interval_cases n <;> decide

/-- An integer is written in printable ASCII. -/
theorem repr_ascii {value : Int} {char : Char} (among : char ∈ (toString value).toList) :
    32 < char.toNat ∧ char.toNat < 127 := by
  rcases mem_repr among with rfl | ⟨digit, small, rfl⟩
  · decide
  · exact digitChar_ascii (by omega)

/-- The digits of a number that fits. -/
theorem length_toDigits_le (above : 1 < radix) {width : Nat} (some_ : 0 < width)
    (fits : n < radix ^ width) : (Nat.toDigits radix n).length ≤ width :=
  (Nat.length_toDigits_le_iff above some_).mpr fits

/-- The digits of an integer that fits, and its sign. -/
theorem length_repr_le {value : Int} {width : Nat} (some_ : 0 < width)
    (low : -(10 ^ width : Int) < value) (high : value < 10 ^ width) :
    (toString value).toList.length ≤ width + 1 := by
  rw [Int.toString_eq_repr, Int.repr_eq_if]
  by_cases negative : 0 ≤ value
  · rw [if_pos negative, Nat.toList_repr]
    have digits : (Nat.toDigits 10 value.toNat).length ≤ width :=
      length_toDigits_le (by decide) some_ (by zify; omega)
    omega
  · rw [if_neg negative, String.toList_append, Nat.toList_repr, List.length_append]
    have digits : (Nat.toDigits 10 (-value).toNat).length ≤ width :=
      length_toDigits_le (by decide) some_ (by zify; omega)
    have sign : "-".toList.length = 1 := rfl
    omega

/-! ### Digits of a width -/

section

variable {width m : Nat}

/-- The lowest digits of a number, so many. -/
def fixedDigits : Nat → Nat → List Char
  | 0, _ => []
  | width + 1, n => fixedDigits width (n / 10) ++ [(n % 10).digitChar]

@[simp] theorem length_fixedDigits (width n : Nat) : (fixedDigits width n).length = width := by
  induction width generalizing n with
  | zero => rfl
  | succ width ih => rw [fixedDigits, List.length_append, ih, List.length_singleton]

/-- Of two lists of one length the order is told by the first difference. -/
theorem append_lt {left right : List Char} (less : left < right) (same : left.length = right.length)
    (tail tail' : List Char) : left ++ tail < right ++ tail' := by
  induction left generalizing right with
  | nil =>
      rw [List.length_nil, eq_comm, List.length_eq_zero_iff] at same
      rw [same] at less
      exact absurd less (List.not_lt_nil _)
  | cons first left ih =>
      cases right with
      | nil => cases same
      | cons first' right =>
          rw [List.cons_lt_cons_iff] at less
          rw [List.cons_append, List.cons_append, List.cons_lt_cons_iff]
          rcases less with less | ⟨rfl, less⟩
          · exact .inl less
          · exact .inr ⟨rfl, ih less (Nat.succ.inj same)⟩

theorem digitChar_lt (order : m < n) (small : n < 10) : m.digitChar < n.digitChar := by
  interval_cases n <;> interval_cases m <;> decide

/-- **The order of numbers is the order of their digits.** -/
theorem fixedDigits_lt (order : m < n) (fits : n < 10 ^ width) :
    fixedDigits width m < fixedDigits width n := by
  induction width generalizing m n with
  | zero => rw [pow_zero] at fits; omega
  | succ width ih =>
      rw [pow_succ] at fits
      unfold fixedDigits
      rcases Nat.lt_or_ge (m / 10) (n / 10) with less | same
      · exact append_lt (ih less (by omega)) (by simp) _ _
      · have front : m / 10 = n / 10 := by omega
        rw [front]
        refine List.append_left_lt ?_
        rw [List.cons_lt_cons_iff]
        exact .inl (digitChar_lt (by omega) (Nat.mod_lt _ (by decide)))

/-- Digits side by side. -/
theorem fixedDigits_append (front back m : Nat) {n : Nat} (fits : n < 10 ^ back) :
    fixedDigits (front + back) (m * 10 ^ back + n) = fixedDigits front m ++ fixedDigits back n := by
  induction back generalizing n with
  | zero =>
      rw [pow_zero] at fits ⊢
      obtain rfl : n = 0 := by omega
      simp [fixedDigits]
  | succ back ih =>
      rw [pow_succ] at fits
      have tens : m * 10 ^ (back + 1) = 10 * (m * 10 ^ back) := by ring
      have shorter : (m * 10 ^ (back + 1) + n) / 10 = m * 10 ^ back + n / 10 := by omega
      have last : (m * 10 ^ (back + 1) + n) % 10 = n % 10 := by omega
      show fixedDigits (front + back + 1) _ = _
      rw [fixedDigits, shorter, last, ih (by omega), List.append_assoc]
      rfl

theorem fixedDigits_zero (width : Nat) : fixedDigits width 0 = List.replicate width '0' := by
  induction width with
  | zero => rfl
  | succ width ih =>
      rw [fixedDigits, Nat.zero_div, ih, List.replicate_succ']
      rfl

/-- **A number padded with zeros** is written with so many digits. -/
theorem padded_eq (some_ : 0 < width) (fits : n < 10 ^ width) :
    List.replicate (width - (Nat.toDigits 10 n).length) '0' ++ Nat.toDigits 10 n =
      fixedDigits width n := by
  induction width generalizing n with
  | zero => exact absurd some_ (Nat.lt_irrefl 0)
  | succ width ih =>
      rcases Nat.lt_or_ge n 10 with small | large
      · rw [Nat.toDigits_of_lt_base small, fixedDigits, Nat.div_eq_of_lt small,
          Nat.mod_eq_of_lt small, fixedDigits_zero]
        rfl
      · rw [pow_succ] at fits
        have wide : 0 < width := by
          rcases Nat.eq_zero_or_pos width with rfl | positive
          · rw [pow_zero] at fits
            omega
          · exact positive
        rw [Nat.toDigits_of_base_le (by decide) large, fixedDigits, ← ih wide (by omega),
          List.length_append, List.length_singleton, Nat.add_sub_add_right, List.append_assoc]

end

end Library
