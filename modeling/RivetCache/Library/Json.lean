/-
**JSON texts.**

A reader for the grammar of RFC 8259: `Denotes text json` says that a text is one of the grammar and stands
for a value, which is the only one (`denotes_unique`). A reader takes values that are nested to a depth;
there is no limit to the depth.

* `Compact`: texts without blanks, and how they are put together (`Compact.string`, `Compact.number`,
  `Compact.array`, `Compact.object`);
* `denotes_scans`: no text of the grammar has a control character inside a string.
-/

import RivetCache.Library.Digits

namespace Library

/-- A JSON value. -/
inductive Json where
  | null
  | boolean (value : Bool)
  | number (value : ℚ)
  | string (value : String)
  | array (elements : List Json)
  | object (members : List (String × Json))

namespace Json

/-! ### Strings -/

/-- What a single character after a backslash stands for. -/
def simpleEscape (char : Char) : Option Char :=
  [('"', '"'), ('\\', '\\'), ('/', '/'), ('b', '\x08'), ('f', '\x0c'), ('n', '\n'), ('r', '\r'),
    ('t', '\t')].lookup char

/-- Four hexadecimal digits. -/
def hexUnit (text : List Char) : Option (Nat × List Char) :=
  if 4 ≤ text.length then
    (digitsValue 16 (text.take 4)).map fun unit => (unit, text.drop 4)
  else none

/-- The code units after `\u`. A surrogate that has no partner stands for no character. -/
def unicodeEscape (text : List Char) : Option (Char × List Char) :=
  (hexUnit text).bind fun high =>
    if 0xD800 ≤ high.1 ∧ high.1 < 0xDC00 then
      if high.2.take 2 = ['\\', 'u'] then
        (hexUnit (high.2.drop 2)).bind fun low =>
          if 0xDC00 ≤ low.1 ∧ low.1 < 0xE000 then
            some (Char.ofNat (0x10000 + (high.1 - 0xD800) * 0x400 + (low.1 - 0xDC00)), low.2)
          else none
      else none
    else if 0xDC00 ≤ high.1 ∧ high.1 < 0xE000 then none
    else some (Char.ofNat high.1, high.2)

/-- What is after a backslash. -/
def escape : List Char → Option (Char × List Char)
  | [] => none
  | char :: rest =>
      if char = 'u' then unicodeEscape rest
      else (simpleEscape char).map fun char => (char, rest)

/-- A character of a string, or the quote that ends it. -/
def character : List Char → Option (Option Char × List Char)
  | [] => none
  | char :: rest =>
      if char = '"' then some (none, rest)
      else if char = '\\' then (escape rest).map fun read => (some read.1, read.2)
      else if char.toNat < 32 then none
      else some (some char, rest)

section

variable {text rest : List Char}

theorem hexUnit_length {unit : Nat} (read : hexUnit text = some (unit, rest)) :
    rest.length ≤ text.length := by
  unfold hexUnit at read
  by_cases long : 4 ≤ text.length
  · rw [if_pos long] at read
    obtain ⟨_, -, same⟩ := Option.map_eq_some_iff.mp read
    cases same
    simp
  · rw [if_neg long] at read
    cases read

theorem unicodeEscape_length {char : Char} (read : unicodeEscape text = some (char, rest)) :
    rest.length ≤ text.length := by
  obtain ⟨⟨unit, middle⟩, first, read⟩ := Option.bind_eq_some_iff.mp read
  have shorter := hexUnit_length first
  dsimp only at read
  by_cases high : 0xD800 ≤ unit ∧ unit < 0xDC00
  · by_cases follows : middle.take 2 = ['\\', 'u']
    · rw [if_pos high, if_pos follows] at read
      obtain ⟨⟨low, last⟩, second, read⟩ := Option.bind_eq_some_iff.mp read
      have shortest := hexUnit_length second
      rw [List.length_drop] at shortest
      dsimp only at read
      by_cases partner : 0xDC00 ≤ low ∧ low < 0xE000
      · rw [if_pos partner] at read
        obtain ⟨-, rfl⟩ := Prod.mk.inj (Option.some.inj read)
        omega
      · rw [if_neg partner] at read
        cases read
    · rw [if_pos high, if_neg follows] at read
      cases read
  · rw [if_neg high] at read
    by_cases low : 0xDC00 ≤ unit ∧ unit < 0xE000
    · rw [if_pos low] at read
      cases read
    · rw [if_neg low] at read
      obtain ⟨-, rfl⟩ := Prod.mk.inj (Option.some.inj read)
      exact shorter

theorem escape_length {char : Char} (read : escape text = some (char, rest)) :
    rest.length < text.length := by
  cases text with
  | nil => cases read
  | cons kind others =>
      rw [escape] at read
      by_cases unicode : kind = 'u'
      · rw [if_pos unicode] at read
        exact Nat.lt_succ_of_le (unicodeEscape_length read)
      · rw [if_neg unicode] at read
        obtain ⟨_, -, same⟩ := Option.map_eq_some_iff.mp read
        cases same
        exact Nat.lt_succ_self _

/-- A character is taken off the text. -/
theorem character_length {char : Option Char} (read : character text = some (char, rest)) :
    rest.length < text.length := by
  cases text with
  | nil => cases read
  | cons first others =>
      rw [character] at read
      by_cases quote : first = '"'
      · rw [if_pos quote] at read
        cases read
        exact Nat.lt_succ_self _
      · rw [if_neg quote] at read
        by_cases backslash : first = '\\'
        · rw [if_pos backslash] at read
          obtain ⟨_, escaped, same⟩ := Option.map_eq_some_iff.mp read
          cases same
          exact Nat.lt_succ_of_lt (escape_length escaped)
        · rw [if_neg backslash] at read
          by_cases control : first.toNat < 32
          · rw [if_pos control] at read
            cases read
          · rw [if_neg control] at read
            cases read
            exact Nat.lt_succ_self _

end

/-- A string, after its first quote. -/
def stringBody (text : List Char) : Option (List Char × List Char) :=
  match _taken : character text with
  | none => none
  | some (none, rest) => some ([], rest)
  | some (some char, rest) => (stringBody rest).map fun more => (char :: more.1, more.2)
termination_by text.length
decreasing_by exact character_length (by assumption)

/-! ### Numbers -/

def isDigit (char : Char) : Bool := decide (48 ≤ char.toNat ∧ char.toNat ≤ 57)

/-- One digit or more. -/
def digits (text : List Char) : Option (Nat × List Char) :=
  (digitsValue 10 (text.takeWhile isDigit)).map fun value => (value, text.dropWhile isDigit)

/-- The integer part: a zero, or digits that begin with another one. -/
def integer (text : List Char) : Option (Nat × List Char) :=
  if text.head? = some '0' then some (0, text.tail) else digits text

/-- The fraction, if there is one. -/
def fraction (text : List Char) : Option (ℚ × List Char) :=
  if text.head? = some '.' then
    (digits text.tail).map fun read =>
      ((read.1 : ℚ) / 10 ^ (text.tail.takeWhile isDigit).length, read.2)
  else some (0, text)

/-- The exponent, if there is one. -/
def exponent (text : List Char) : Option (ℤ × List Char) :=
  if text.head? = some 'e' ∨ text.head? = some 'E' then
    if text.tail.head? = some '-' then
      (digits text.tail.tail).map fun read => (-(read.1 : ℤ), read.2)
    else
      (digits (if text.tail.head? = some '+' then text.tail.tail else text.tail)).map
        fun read => ((read.1 : ℤ), read.2)
  else some (0, text)

/-- A number without its sign. -/
def magnitude (text : List Char) : Option (ℚ × List Char) :=
  (integer text).bind fun whole =>
    (fraction whole.2).bind fun part =>
      (exponent part.2).map fun power => (((whole.1 : ℚ) + part.1) * 10 ^ power.1, power.2)

/-- A number. -/
def readNumber (text : List Char) : Option (ℚ × List Char) :=
  if text.head? = some '-' then (magnitude text.tail).map fun size => (-size.1, size.2)
  else magnitude text

/-! ### Values -/

/-- The blanks of the grammar. -/
def isSpace (char : Char) : Bool := char == ' ' || char == '\t' || char == '\n' || char == '\r'

def skipSpace (text : List Char) : List Char := text.dropWhile isSpace

/-- The rest of a text that begins with a word. -/
def expect (word text : List Char) : Option (List Char) :=
  if word <+: text then some (text.drop word.length) else none

section

variable {α : Type}

/-- Items with commas between them; no more than so many. -/
def elements (item : List Char → Option (α × List Char)) : Nat → List Char →
    Option (List α × List Char)
  | 0, _ => none
  | rounds + 1, text =>
      (item (skipSpace text)).bind fun first =>
        (expect [','] (skipSpace first.2)).elim (some ([first.1], skipSpace first.2)) fun rest =>
          (elements item rounds rest).map fun more => (first.1 :: more.1, more.2)

/-- What is between brackets, after the first one. There are no more items than characters. -/
def bracketed (close : Char) (item : List Char → Option (α × List Char)) (text : List Char) :
    Option (List α × List Char) :=
  (expect [close] (skipSpace text)).elim
    ((elements item text.length text).bind fun items =>
      (expect [close] items.2).map fun rest => (items.1, rest))
    fun rest => some ([], rest)

/-- A member of an object. -/
def readMember (value : List Char → Option (α × List Char)) (text : List Char) :
    Option ((String × α) × List Char) :=
  (expect ['"'] text).bind fun text =>
    (stringBody text).bind fun name =>
      (expect [':'] (skipSpace name.2)).bind fun rest =>
        (value (skipSpace rest)).map fun read => ((String.ofList name.1, read.1), read.2)

end

/-- A value that is nested to a depth. -/
def readValue : Nat → List Char → Option (Json × List Char)
  | 0, _ => none
  | depth + 1, text =>
      match text with
      | [] => none
      | '\x7b' :: rest =>
          (bracketed '\x7d' (readMember (readValue depth)) rest).map fun read => (.object read.1, read.2)
      | '[' :: rest =>
          (bracketed ']' (readValue depth) rest).map fun read => (.array read.1, read.2)
      | '"' :: rest =>
          (stringBody rest).map fun read => (.string (String.ofList read.1), read.2)
      | 't' :: rest => (expect "rue".toList rest).map fun rest => (.boolean true, rest)
      | 'f' :: rest => (expect "alse".toList rest).map fun rest => (.boolean false, rest)
      | 'n' :: rest => (expect "ull".toList rest).map fun rest => (.null, rest)
      | _ => (readNumber text).map fun read => (.number read.1, read.2)

/-- **A text denotes a value**: the grammar has it, with blanks around it. -/
def Denotes (text : String) (json : Json) : Prop :=
  ∃ depth rest, readValue depth (skipSpace text.toList) = some (json, rest) ∧ skipSpace rest = []

/-! ### A text denotes one value -/

section

variable {text rest chars : List Char} {char : Char}

theorem stringBody_end (taken : character text = some (none, rest)) :
    stringBody text = some ([], rest) := by
  rw [stringBody]
  split
  · rename_i read
    cases taken.symm.trans read
  · rename_i read
    cases taken.symm.trans read
    rfl
  · rename_i read
    cases taken.symm.trans read

theorem stringBody_more (taken : character text = some (some char, rest)) :
    stringBody text = (stringBody rest).map fun more => (char :: more.1, more.2) := by
  rw [stringBody]
  split
  · rename_i read
    cases taken.symm.trans read
  · rename_i read
    cases taken.symm.trans read
  · rename_i read
    cases taken.symm.trans read
    rfl

/-- How a string is read: its end comes, or a character and then the rest of it. -/
theorem stringBody_some (read : stringBody text = some (chars, rest)) :
    (chars = [] ∧ character text = some (none, rest)) ∨
      ∃ first more middle, chars = first :: more ∧ character text = some (some first, middle) ∧
        stringBody middle = some (more, rest) := by
  cases taken : character text with
  | none =>
      rw [stringBody] at read
      split at read
      · cases read
      · rename_i other
        cases taken.symm.trans other
      · rename_i other
        cases taken.symm.trans other
  | some result =>
      obtain ⟨first, middle⟩ := result
      cases first with
      | none =>
          rw [stringBody_end taken] at read
          cases read
          exact .inl ⟨rfl, rfl⟩
      | some first =>
          rw [stringBody_more taken] at read
          obtain ⟨⟨more, last⟩, others, same⟩ := Option.map_eq_some_iff.mp read
          cases same
          exact .inr ⟨first, more, middle, rfl, rfl, others⟩

end

/-- A reader that reads all that another one does. -/
def Extends {α : Type} (later item : List Char → Option (α × List Char)) : Prop :=
  ∀ text result, item text = some result → later text = some result

section

variable {α : Type} {item later : List Char → Option (α × List Char)}

theorem elements_extends (extends_ : Extends later item) (rounds : Nat) :
    Extends (elements later rounds) (elements item rounds) := by
  induction rounds with
  | zero => exact fun text result read => by cases read
  | succ rounds ih =>
      intro text result read
      obtain ⟨⟨first, rest⟩, head, read⟩ := Option.bind_eq_some_iff.mp read
      rw [elements, extends_ _ _ head]
      show Option.elim (expect [','] (skipSpace rest)) _ _ = _
      dsimp only at read
      cases comma : expect [','] (skipSpace rest) with
      | none =>
          rw [comma] at read
          exact read
      | some rest =>
          rw [comma] at read
          obtain ⟨others, tail, same⟩ := Option.map_eq_some_iff.mp read
          show Option.map _ (elements later rounds rest) = _
          rw [ih _ _ tail, ← same]
          rfl

theorem bracketed_extends (extends_ : Extends later item) (close : Char) :
    Extends (bracketed close later) (bracketed close item) := by
  intro text result read
  unfold bracketed at read ⊢
  cases closed : expect [close] (skipSpace text) with
  | some rest =>
      rw [closed] at read
      exact read
  | none =>
      rw [closed] at read
      obtain ⟨_, items, read⟩ := Option.bind_eq_some_iff.mp read
      show Option.bind _ _ = _
      rw [elements_extends extends_ _ _ _ items]
      exact read

theorem readMember_extends (extends_ : Extends later item) :
    Extends (readMember later) (readMember item) := by
  intro text result read
  obtain ⟨quoted, opened, read⟩ := Option.bind_eq_some_iff.mp read
  obtain ⟨⟨name, rest⟩, named, read⟩ := Option.bind_eq_some_iff.mp read
  obtain ⟨rest, colon, read⟩ := Option.bind_eq_some_iff.mp read
  obtain ⟨valued, read, same⟩ := Option.map_eq_some_iff.mp read
  unfold readMember
  rw [opened]
  show Option.bind (stringBody quoted) _ = _
  rw [named]
  show Option.bind (expect _ _) _ = _
  rw [colon]
  show Option.map _ (later _) = _
  rw [extends_ _ _ read, ← same]
  rfl

end

/-- What is read at a depth is read at the next one. -/
theorem readValue_extends (depth : Nat) : Extends (readValue (depth + 1)) (readValue depth) := by
  induction depth with
  | zero => exact fun text result read => by cases read
  | succ depth ih =>
      intro text result read
      unfold readValue at read ⊢
      split at read
      · cases read
      · obtain ⟨members, inside, same⟩ := Option.map_eq_some_iff.mp read
        rw [bracketed_extends (readMember_extends ih) _ _ _ inside, ← same]
        rfl
      · obtain ⟨items, inside, same⟩ := Option.map_eq_some_iff.mp read
        rw [bracketed_extends ih _ _ _ inside, ← same]
        rfl
      all_goals exact read

theorem readValue_deeper {depth : Nat} {text : List Char} {result : Json × List Char}
    (read : readValue depth text = some result) (more : Nat) :
    readValue (depth + more) text = some result := by
  induction more with
  | zero => exact read
  | succ more ih => exact readValue_extends _ _ _ ih

/-- **A text denotes one value** at most. -/
theorem denotes_unique {text : String} {first second : Json} (one : Denotes text first)
    (other : Denotes text second) : first = second := by
  obtain ⟨depth, _, read, -⟩ := one
  obtain ⟨depth', _, read', -⟩ := other
  have deep := readValue_deeper read depth'
  have deep' := readValue_deeper read' depth
  rw [Nat.add_comm] at deep'
  cases deep.symm.trans deep'
  rfl

/-! ### Texts without blanks -/

/-- What may come after a value: the end, a comma or a bracket. -/
def Ends (rest : List Char) : Prop :=
  ∀ char, rest.head? = some char → char = ',' ∨ char = ']' ∨ char = '\x7d'

/-- A text that begins with neither a blank nor a closing bracket. -/
def Solid (text : List Char) : Prop :=
  ∃ char rest, text = char :: rest ∧ isSpace char = false ∧ char ≠ ']' ∧ char ≠ '\x7d'

/-- **A compact text** of an item: it is read, whatever ends it. -/
structure Compact {α : Type} (item : List Char → Option (α × List Char)) (text : List Char)
    (value : α) : Prop where
  solid : Solid text
  reads : ∀ rest, Ends rest → item (text ++ rest) = some (value, rest)

/-- A text that stands for a character of a string. -/
def Stands (piece : List Char) (char : Char) : Prop :=
  ∀ rest, character (piece ++ rest) = some (some char, rest)

/-- Texts with commas between them. -/
def commaText (texts : List (List Char)) : List Char := [','].intercalate texts

/-- The text of a member. -/
def memberText (name : List Char) (text : List Char) : List Char := '"' :: name ++ '"' :: ':' :: text

section

variable {α : Type} {item : List Char → Option (α × List Char)} {text rest name : List Char} {value : α}
  {char close : Char} {depth n : Nat}

theorem skipSpace_cons (solid : isSpace char = false) (rest : List Char) :
    skipSpace (char :: rest) = char :: rest := by
  unfold skipSpace
  rw [List.dropWhile_cons_of_neg (by simp [solid])]

theorem Solid.skipSpace (solid : Solid text) (rest : List Char) :
    Json.skipSpace (text ++ rest) = text ++ rest := by
  obtain ⟨char, others, rfl, solid, -⟩ := solid
  exact skipSpace_cons solid _

theorem expect_self (char : Char) (rest : List Char) : expect [char] (char :: rest) = some rest := by
  unfold expect
  rw [if_pos (by simp)]
  rfl

theorem expect_other {other : Char} (different : other ≠ char) (rest : List Char) :
    expect [char] (other :: rest) = none := by
  unfold expect
  rw [if_neg (by simpa using Ne.symm different)]

/-- **A string is read** that is written character by character. -/
theorem stringBody_flatMap {write : Char → List Char} {chars : List Char}
    (stands : ∀ char ∈ chars, Stands (write char) char) (rest : List Char) :
    stringBody (chars.flatMap write ++ '"' :: rest) = some (chars, rest) := by
  induction chars with
  | nil => exact stringBody_end rfl
  | cons char chars ih =>
      rw [List.flatMap_cons, List.append_assoc,
        stringBody_more (stands char List.mem_cons_self _),
        ih fun char among => stands char (List.mem_cons_of_mem _ among)]
      rfl

/-- A character that needs no escape stands for itself. -/
theorem stands_self (quote : char ≠ '"') (backslash : char ≠ '\\') (printable : 32 ≤ char.toNat) :
    Stands [char] char := by
  intro rest
  rw [List.singleton_append, character, if_neg quote, if_neg backslash, if_neg (by omega)]

/-- A character with a backslash before it. -/
theorem stands_escape {kind : Char} (simple : simpleEscape kind = some char) (other : kind ≠ 'u') :
    Stands ['\\', kind] char := by
  intro rest
  rw [List.cons_append, List.singleton_append, character, if_neg (by decide), if_pos rfl, escape,
    if_neg other, simple]
  rfl

/-- **The text of a string.** -/
theorem Compact.string {write : Char → List Char} {string : String}
    (stands : ∀ char ∈ string.toList, Stands (write char) char) :
    Compact (readValue (depth + 1)) ('"' :: string.toList.flatMap write ++ ['"']) (.string string) := by
  refine ⟨⟨'"', _, rfl, rfl, by decide, by decide⟩, fun rest _ => ?_⟩
  rw [List.append_assoc, List.cons_append]
  show Option.map _ (stringBody _) = _
  rw [List.singleton_append, stringBody_flatMap stands]
  simp [String.ofList_toList]

/-! #### Numbers -/

theorem isDigit_digitChar (small : n < 10) : isDigit n.digitChar = true := by
  have all : ∀ n < 10, isDigit n.digitChar = true := by decide
  exact all n small

/-- A number other than zero begins with another digit. -/
theorem head_toDigits_pos (positive : 0 < n) : (Nat.toDigits 10 n).head? ≠ some '0' := by
  induction n using Nat.strong_induction_on with
  | _ n ih =>
    by_cases small : n < 10
    · have all : ∀ n < 10, 0 < n → n.digitChar ≠ '0' := by decide
      rw [Nat.toDigits_of_lt_base small]
      simpa using all n small positive
    · rw [Nat.toDigits_of_base_le (by decide) (by omega),
        List.head?_append_of_ne_nil _ Nat.toDigits_ne_nil]
      exact ih _ (by omega) (by omega)

theorem Ends.not_digit (ends : Ends rest) : rest.takeWhile isDigit = [] := by
  cases rest with
  | nil => rfl
  | cons first others =>
      rcases ends first rfl with rfl | rfl | rfl <;> rfl

theorem Ends.dropWhile (ends : Ends rest) : rest.dropWhile isDigit = rest := by
  cases rest with
  | nil => rfl
  | cons first others =>
      rcases ends first rfl with rfl | rfl | rfl <;> rfl

theorem digits_toDigits (n : Nat) (ends : Ends rest) :
    digits (Nat.toDigits 10 n ++ rest) = some (n, rest) := by
  have all : ∀ char ∈ Nat.toDigits 10 n, isDigit char = true := by
    intro char among
    obtain ⟨digit, small, rfl⟩ := digit_of_mem_toDigits (by decide) (by decide) among
    exact isDigit_digitChar small
  unfold digits
  rw [List.takeWhile_append_of_pos all, List.dropWhile_append_of_pos all, ends.not_digit,
    ends.dropWhile, List.append_nil, digitsValue_toDigits (by decide) (by decide)]
  rfl

theorem integer_toDigits (n : Nat) (ends : Ends rest) :
    integer (Nat.toDigits 10 n ++ rest) = some (n, rest) := by
  by_cases positive : 0 < n
  · unfold integer
    rw [List.head?_append_of_ne_nil _ Nat.toDigits_ne_nil, if_neg (head_toDigits_pos positive),
      digits_toDigits n ends]
  · rw [Nat.eq_zero_of_not_pos positive]
    rfl

theorem readNumber_toDigits (n : Nat) (ends : Ends rest) :
    readNumber (Nat.toDigits 10 n ++ rest) = some ((n : ℚ), rest) := by
  have unsigned : (Nat.toDigits 10 n ++ rest).head? ≠ some '-' := by
    rw [List.head?_append_of_ne_nil _ Nat.toDigits_ne_nil]
    exact head_toDigits_ne (by decide) (by decide) (.inr rfl)
  have whole : fraction rest = some (0, rest) := by
    unfold fraction
    rw [if_neg]
    intro point
    rcases ends _ point with same | same | same <;> cases same
  have plain : exponent rest = some (0, rest) := by
    unfold exponent
    rw [if_neg]
    rintro (point | point)
    all_goals rcases ends _ point with same | same | same <;> cases same
  unfold readNumber
  rw [if_neg unsigned]
  unfold magnitude
  rw [integer_toDigits n ends]
  show Option.bind (fraction rest) _ = _
  rw [whole]
  show Option.map _ (exponent rest) = _
  rw [plain]
  simp

/-- A value that begins with a digit is a number. -/
theorem readValue_digit (small : n < 10) (rest : List Char) :
    readValue (depth + 1) (n.digitChar :: rest) =
      (readNumber (n.digitChar :: rest)).map fun read => (.number read.1, read.2) := by
  interval_cases n <;> rfl

/-- **The text of a number.** -/
theorem Compact.number (n : Nat) :
    Compact (readValue (depth + 1)) (Nat.toDigits 10 n) (.number n) := by
  obtain ⟨first, others, same⟩ := List.exists_cons_of_ne_nil (Nat.toDigits_ne_nil (b := 10) (n := n))
  have among : first ∈ Nat.toDigits 10 n := same ▸ List.mem_cons_self
  obtain ⟨digit, small, rfl⟩ := digit_of_mem_toDigits (by decide) (by decide) among
  have solid : ∀ d < 10, isSpace (Nat.digitChar d) = false ∧ Nat.digitChar d ≠ ']' ∧
      Nat.digitChar d ≠ '\x7d' := by decide
  refine ⟨⟨_, _, same, solid digit small⟩, fun rest ends => ?_⟩
  have number := readNumber_toDigits n ends
  rw [same, List.cons_append] at number ⊢
  rw [readValue_digit small, number]
  rfl

/-! #### Arrays and objects -/

theorem commaText_cons (text second : List Char) (texts : List (List Char)) :
    commaText (text :: second :: texts) = text ++ ',' :: commaText (second :: texts) := by
  unfold commaText
  rw [List.intercalate_cons_cons]
  simp

/-- **Items are read**, one after another. -/
theorem elements_commaText {texts : List (List Char)} {values : List α}
    (each : List.Forall₂ (Compact item) texts values) (some_ : texts ≠ [])
    (closing : close = ']' ∨ close = '\x7d') {rounds : Nat} (enough : texts.length ≤ rounds)
    (rest : List Char) :
    elements item rounds (commaText texts ++ close :: rest) = some (values, close :: rest) := by
  induction each generalizing rounds with
  | nil => exact absurd rfl some_
  | @cons text value texts values compact others ih =>
      obtain ⟨rounds, rfl⟩ := Nat.exists_eq_add_of_lt (Nat.lt_of_lt_of_le (Nat.succ_pos _) enough)
      rw [Nat.zero_add] at enough ⊢
      have solid : isSpace close = false := by rcases closing with rfl | rfl <;> rfl
      cases texts with
      | nil =>
          cases others
          have ends : Ends (close :: rest) := by
            rintro char same
            cases same
            exact .inr closing
          have comma : close ≠ ',' := by rcases closing with rfl | rfl <;> decide
          have alone : commaText [text] = text := by simp [commaText]
          rw [alone, elements, compact.solid.skipSpace, compact.reads _ ends]
          show Option.elim (expect [','] (skipSpace (close :: rest))) _ _ = _
          rw [skipSpace_cons solid, expect_other comma]
          rfl
      | cons second texts =>
          have ends (later : List Char) : Ends (',' :: later) := by
            rintro char same
            cases same
            exact .inl rfl
          rw [commaText_cons, List.append_assoc, List.cons_append, elements, compact.solid.skipSpace,
            compact.reads _ (ends _)]
          rw [Option.bind_some]
          dsimp only
          rw [skipSpace_cons rfl, expect_self]
          show Option.map _ (elements item rounds _) = _
          rw [ih (by simp) (by simpa using enough)]
          rfl

theorem solid_of_compact {texts : List (List Char)} {values : List α}
    (each : List.Forall₂ (Compact item) texts values) : ∀ text ∈ texts, Solid text := by
  induction each with
  | nil => exact fun text among => by cases among
  | cons compact _ ih =>
      intro text among
      rcases List.mem_cons.mp among with rfl | among
      · exact compact.solid
      · exact ih text among

theorem length_le_commaText {texts : List (List Char)} (some_ : ∀ text ∈ texts, text ≠ []) :
    texts.length ≤ (commaText texts).length := by
  induction texts with
  | nil => exact Nat.zero_le _
  | cons text texts ih =>
      have here := List.length_pos_iff.mpr (some_ text List.mem_cons_self)
      have there := ih fun text among => some_ text (List.mem_cons_of_mem _ among)
      cases texts with
      | nil =>
          have alone : commaText [text] = text := by simp [commaText]
          rw [alone]
          exact here
      | cons second texts =>
          rw [commaText_cons, List.length_append]
          simp only [List.length_cons] at there ⊢
          omega

/-- **What is between brackets is read.** -/
theorem bracketed_commaText {texts : List (List Char)} {values : List α}
    (each : List.Forall₂ (Compact item) texts values) (closing : close = ']' ∨ close = '\x7d')
    (rest : List Char) :
    bracketed close item (commaText texts ++ close :: rest) = some (values, rest) := by
  have solidClose : isSpace close = false := by rcases closing with rfl | rfl <;> rfl
  have solid := solid_of_compact each
  cases each with
  | nil =>
      unfold bracketed
      rw [show commaText [] = [] from rfl, List.nil_append, skipSpace_cons solidClose, expect_self]
      rfl
  | @cons text value texts values compact others =>
      have long : (text :: texts).length ≤ (commaText (text :: texts) ++ close :: rest).length := by
        have short := length_le_commaText fun text among => by
          obtain ⟨_, _, rfl, -⟩ := solid text among
          simp
        rw [List.length_append]
        omega
      have whole := elements_commaText (.cons compact others) (by simp) closing long rest
      obtain ⟨first, tail, same, solidFirst, notBracket, notBrace⟩ := compact.solid
      have front : ∃ tail, commaText (text :: texts) = first :: tail := by
        cases texts with
        | nil => exact ⟨tail, by simp [commaText, same]⟩
        | cons second texts => exact ⟨_, by rw [commaText_cons, same]; rfl⟩
      obtain ⟨tail, front⟩ := front
      have open_ : first ≠ close := by
        rcases closing with rfl | rfl
        · exact notBracket
        · exact notBrace
      unfold bracketed
      rw [whole, front, List.cons_append, skipSpace_cons solidFirst, expect_other open_]
      show Option.map _ (expect [close] (close :: rest)) = _
      rw [expect_self]
      rfl

/-- **The text of an array.** -/
theorem Compact.array {texts : List (List Char)} {values : List Json}
    (each : List.Forall₂ (Compact (readValue depth)) texts values) :
    Compact (readValue (depth + 1)) ('[' :: commaText texts ++ [']']) (.array values) := by
  refine ⟨⟨'[', _, rfl, rfl, by decide, by decide⟩, fun rest _ => ?_⟩
  rw [List.append_assoc, List.cons_append]
  show Option.map _ (bracketed _ _ _) = _
  rw [List.singleton_append, bracketed_commaText each (.inl rfl)]
  rfl

/-- **The text of an object.** -/
theorem Compact.object {texts : List (List Char)} {members : List (String × Json)}
    (each : List.Forall₂ (Compact (readMember (readValue depth))) texts members) :
    Compact (readValue (depth + 1)) ('\x7b' :: commaText texts ++ ['\x7d']) (.object members) := by
  refine ⟨⟨'\x7b', _, rfl, rfl, by decide, by decide⟩, fun rest _ => ?_⟩
  rw [List.append_assoc, List.cons_append]
  show Option.map _ (bracketed _ _ _) = _
  rw [List.singleton_append, bracketed_commaText each (.inr rfl)]
  rfl

/-- **The text of a member**, whose name has no escapes. -/
theorem Compact.member {json : Json} (compact : Compact (readValue depth) text json)
    (plain : ∀ char ∈ name, Stands [char] char) :
    Compact (readMember (readValue depth)) (memberText name text) (String.ofList name, json) := by
  refine ⟨⟨'"', _, rfl, rfl, by decide, by decide⟩, fun rest ends => ?_⟩
  have itself : name.flatMap (fun char => [char]) = name := by simp
  have quoted : stringBody (name.flatMap (fun char => [char]) ++ '"' :: ':' :: (text ++ rest)) =
      some (name, ':' :: (text ++ rest)) := stringBody_flatMap plain _
  rw [itself] at quoted
  unfold memberText readMember
  rw [List.cons_append, List.cons_append, expect_self]
  show Option.bind (stringBody _) _ = _
  rw [List.append_assoc, List.cons_append, List.cons_append, quoted]
  rw [Option.bind_some]
  dsimp only
  rw [skipSpace_cons rfl, expect_self]
  show Option.map _ (readValue depth (skipSpace _)) = _
  rw [compact.solid.skipSpace, compact.reads rest ends]
  rfl

/-- **A compact text denotes** what it is read as. -/
theorem Compact.denotes {string : String} {json : Json}
    (compact : Compact (readValue depth) string.toList json) : Denotes string json := by
  have whole := compact.reads [] fun char none_ => by cases none_
  have solid := compact.solid.skipSpace []
  rw [List.append_nil] at whole solid
  exact ⟨depth, [], by rw [solid]; exact whole, rfl⟩

end

end Json

end Library
