/-
**What no JSON text has.**

A text is scanned character by character: a place is outside the strings, inside one, or after a backslash.
Inside a string a control character ends the scan. Every text of the grammar is scanned to its end
(`denotes_scans`), so a text with a control character inside a string denotes nothing.

* `Faithful`: a compact text that denotes its value under a condition, and is no text of the grammar
  otherwise; how such texts are put together (`Faithful.string`, `Faithful.number`, `Faithful.array`,
  `Faithful.object`);
* `Faithful.denotes_iff`: when such a text denotes its value.
-/

import RivetCache.Library.Json

namespace Library

namespace Json

/-- Where a scan stands. -/
inductive Place where
  | outside
  | inside
  | escaped
  deriving DecidableEq

/-- Where a scan stands after a character. -/
def Place.next : Place → Char → Option Place
  | .outside, char => some (if char = '"' then .inside else .outside)
  | .inside, char =>
      if char = '"' then some .outside
      else if char = '\\' then some .escaped
      else if char.toNat < 32 then none
      else some .inside
  | .escaped, char => if char.toNat < 32 then none else some .inside

/-- Where a scan stands after a text. -/
def Place.scan : Place → List Char → Option Place
  | place, [] => some place
  | place, char :: rest => (place.next char).bind fun place => place.scan rest

/-- A scan from one place to another takes what is before the rest of a text. -/
def Passes (start stop : Place) (text rest : List Char) : Prop :=
  ∃ front, text = front ++ rest ∧ start.scan front = some stop

section

variable {start middle stop : Place} {text more rest front : List Char} {char : Char}

theorem scan_append (start : Place) (front rest : List Char) :
    start.scan (front ++ rest) = (start.scan front).bind fun place => place.scan rest := by
  induction front generalizing start with
  | nil => rfl
  | cons char front ih =>
      show (start.next char).bind _ = ((start.next char).bind _).bind _
      cases start.next char with
      | none => rfl
      | some place => exact ih place

theorem Passes.refl (start : Place) (text : List Char) : Passes start start text text :=
  ⟨[], rfl, rfl⟩

theorem Passes.trans (first : Passes start middle text more) (second : Passes middle stop more rest) :
    Passes start stop text rest := by
  obtain ⟨front, rfl, scanned⟩ := first
  obtain ⟨back, rfl, scanned'⟩ := second
  refine ⟨front ++ back, (List.append_assoc _ _ _).symm, ?_⟩
  rw [scan_append, scanned]
  exact scanned'

theorem Passes.one (next : start.next char = some stop) (rest : List Char) :
    Passes start stop (char :: rest) rest :=
  ⟨[char], rfl, by simp [Place.scan, next]⟩

/-- A text without a quote. -/
def unquoted (text : List Char) : Bool := text.all fun char => char != '"'

theorem unquoted_mem (plain : unquoted text = true) : ∀ char ∈ text, char ≠ '"' :=
  fun char among => bne_iff_ne.mp (List.all_eq_true.mp plain char among)

/-- Outside the strings, whatever is not a quote stays there. -/
theorem Passes.plain (others : ∀ char ∈ front, char ≠ '"') (rest : List Char) :
    Passes .outside .outside (front ++ rest) rest := by
  refine ⟨front, rfl, ?_⟩
  induction front with
  | nil => rfl
  | cons char front ih =>
      show ((if char = '"' then Place.inside else .outside).scan front) = _
      rw [if_neg (others char List.mem_cons_self)]
      exact ih fun char among => others char (List.mem_cons_of_mem _ among)

/-- Inside a string, letters and digits stay there. -/
theorem Passes.alphaNumeric (plain : ∀ char ∈ front, AlphaNumeric char) (rest : List Char) :
    Passes .inside .inside (front ++ rest) rest := by
  refine ⟨front, rfl, ?_⟩
  induction front with
  | nil => rfl
  | cons char front ih =>
      have here := plain char List.mem_cons_self
      unfold AlphaNumeric at here
      have quote : char ≠ '"' := by
        rintro rfl
        exact absurd here (by decide)
      have backslash : char ≠ '\\' := by
        rintro rfl
        exact absurd here (by decide)
      show Option.bind (if char = '"' then _ else _) _ = _
      rw [if_neg quote, if_neg backslash, if_neg (by omega)]
      exact ih fun char among => plain char (List.mem_cons_of_mem _ among)

/-! ### Strings -/

theorem hexUnit_passes {unit : Nat} (read : hexUnit text = some (unit, rest)) :
    Passes .inside .inside text rest := by
  unfold hexUnit at read
  by_cases long : 4 ≤ text.length
  · rw [if_pos long] at read
    obtain ⟨_, valued, same⟩ := Option.map_eq_some_iff.mp read
    cases same
    have passes := Passes.alphaNumeric (digitsValue_alphaNumeric valued) (text.drop 4)
    rwa [List.take_append_drop] at passes
  · rw [if_neg long] at read
    cases read

theorem unicodeEscape_passes (read : unicodeEscape text = some (char, rest)) :
    Passes .inside .inside text rest := by
  obtain ⟨⟨unit, middle⟩, first, read⟩ := Option.bind_eq_some_iff.mp read
  have begins := hexUnit_passes first
  dsimp only at read
  by_cases high : 0xD800 ≤ unit ∧ unit < 0xDC00
  · by_cases follows : middle.take 2 = ['\\', 'u']
    · rw [if_pos high, if_pos follows] at read
      obtain ⟨⟨low, last⟩, second, read⟩ := Option.bind_eq_some_iff.mp read
      have ends := hexUnit_passes second
      have between : Passes .inside .inside middle (middle.drop 2) :=
        ⟨_, (List.take_append_drop 2 middle).symm, by rw [follows]; decide⟩
      dsimp only at read
      by_cases partner : 0xDC00 ≤ low ∧ low < 0xE000
      · rw [if_pos partner] at read
        obtain ⟨-, rfl⟩ := Prod.mk.inj (Option.some.inj read)
        exact begins.trans (between.trans ends)
      · rw [if_neg partner] at read
        cases read
    · rw [if_pos high, if_neg follows] at read
      cases read
  · rw [if_neg high] at read
    by_cases low : 0xDC00 ≤ unit ∧ unit < 0xE000
    · rw [if_pos low] at read
      cases read
    · rw [if_neg low] at read
      obtain ⟨-, rfl⟩ := Prod.mk.inj (Option.some.inj read)
      exact begins

theorem simpleEscape_printable {kind : Char} (simple : simpleEscape kind = some char) :
    ¬ kind.toNat < 32 := by
  intro control
  have all : ∀ n < 32, simpleEscape (Char.ofNat n) = none := by decide
  have none_ := all _ control
  rw [Char.ofNat_toNat, simple] at none_
  cases none_

theorem escape_passes (read : escape text = some (char, rest)) :
    Passes .escaped .inside text rest := by
  cases text with
  | nil => cases read
  | cons kind others =>
      rw [escape] at read
      by_cases unicode : kind = 'u'
      · rw [if_pos unicode] at read
        rw [unicode]
        exact (Passes.one (by decide) others).trans (unicodeEscape_passes read)
      · rw [if_neg unicode] at read
        obtain ⟨_, simple, same⟩ := Option.map_eq_some_iff.mp read
        cases same
        have next : Place.next .escaped kind = some .inside := if_neg (simpleEscape_printable simple)
        exact Passes.one next _

/-- Where the scan of a string stands after a character, or after its end. -/
def afterCharacter (char : Option Char) : Place := if char = none then .outside else .inside

theorem character_passes {char : Option Char} (read : character text = some (char, rest)) :
    Passes .inside (afterCharacter char) text rest := by
  cases text with
  | nil => cases read
  | cons first others =>
      rw [character] at read
      by_cases quote : first = '"'
      · rw [if_pos quote] at read
        cases read
        have next : Place.next .inside first = some .outside := if_pos quote
        exact Passes.one next _
      · rw [if_neg quote] at read
        by_cases backslash : first = '\\'
        · rw [if_pos backslash] at read
          obtain ⟨_, escaped, same⟩ := Option.map_eq_some_iff.mp read
          cases same
          rw [backslash]
          have next : Place.next .inside '\\' = some .escaped := by decide
          exact (Passes.one next others).trans (escape_passes escaped)
        · rw [if_neg backslash] at read
          by_cases control : first.toNat < 32
          · rw [if_pos control] at read
            cases read
          · rw [if_neg control] at read
            cases read
            refine Passes.one ?_ _
            show (if first = '"' then _ else _) = _
            rw [if_neg quote, if_neg backslash, if_neg control]
            rfl

/-- A string is scanned to its end. -/
theorem stringBody_passes {chars : List Char} (read : stringBody text = some (chars, rest)) :
    Passes .inside .outside text rest := by
  induction chars generalizing text with
  | nil =>
      rcases stringBody_some read with ⟨-, ends⟩ | ⟨_, _, _, same, -⟩
      · exact character_passes ends
      · cases same
  | cons char chars ih =>
      rcases stringBody_some read with ⟨same, -⟩ | ⟨_, _, _, same, first, others⟩
      · cases same
      · cases same
        exact (character_passes first).trans (ih others)

/-! ### Numbers -/

theorem takeWhile_passes {keeps : Char → Bool} (quote : keeps '"' = false) (text : List Char) :
    Passes .outside .outside text (text.dropWhile keeps) := by
  have kept : ∀ char ∈ text.takeWhile keeps, char ≠ '"' := by
    intro char among same
    have keeps_ := List.all_eq_true.mp List.all_takeWhile char among
    rw [same, quote] at keeps_
    cases keeps_
  have passes := Passes.plain kept (text.dropWhile keeps)
  rwa [List.takeWhile_append_dropWhile] at passes

theorem tail_passes (first : text.head? = some char) (other : char ≠ '"') :
    Passes .outside .outside text text.tail := by
  cases text with
  | nil => cases first
  | cons head others =>
      cases first
      exact Passes.one (by simp [Place.next, other]) _

theorem digits_passes {value : Nat} (read : digits text = some (value, rest)) :
    Passes .outside .outside text rest := by
  obtain ⟨_, -, same⟩ := Option.map_eq_some_iff.mp read
  cases same
  exact takeWhile_passes (by decide) text

theorem integer_passes {value : Nat} (read : integer text = some (value, rest)) :
    Passes .outside .outside text rest := by
  unfold integer at read
  by_cases zero : text.head? = some '0'
  · rw [if_pos zero] at read
    cases read
    exact tail_passes zero (by decide)
  · rw [if_neg zero] at read
    exact digits_passes read

theorem fraction_passes {value : ℚ} (read : fraction text = some (value, rest)) :
    Passes .outside .outside text rest := by
  unfold fraction at read
  by_cases point : text.head? = some '.'
  · rw [if_pos point] at read
    obtain ⟨_, run, same⟩ := Option.map_eq_some_iff.mp read
    cases same
    exact (tail_passes point (by decide)).trans (digits_passes run)
  · rw [if_neg point] at read
    cases read
    exact .refl _ _

theorem exponent_passes {value : ℤ} (read : exponent text = some (value, rest)) :
    Passes .outside .outside text rest := by
  unfold exponent at read
  by_cases letter : text.head? = some 'e' ∨ text.head? = some 'E'
  · rw [if_pos letter] at read
    have begins : Passes .outside .outside text text.tail := by
      rcases letter with small | capital
      · exact tail_passes small (by decide)
      · exact tail_passes capital (by decide)
    refine begins.trans ?_
    by_cases minus : text.tail.head? = some '-'
    · rw [if_pos minus] at read
      obtain ⟨_, run, same⟩ := Option.map_eq_some_iff.mp read
      cases same
      exact (tail_passes minus (by decide)).trans (digits_passes run)
    · rw [if_neg minus] at read
      obtain ⟨_, run, same⟩ := Option.map_eq_some_iff.mp read
      cases same
      by_cases plus : text.tail.head? = some '+'
      · rw [if_pos plus] at run
        exact (tail_passes plus (by decide)).trans (digits_passes run)
      · rw [if_neg plus] at run
        exact digits_passes run
  · rw [if_neg letter] at read
    cases read
    exact .refl _ _

theorem magnitude_passes {value : ℚ} (read : magnitude text = some (value, rest)) :
    Passes .outside .outside text rest := by
  obtain ⟨_, whole, read⟩ := Option.bind_eq_some_iff.mp read
  obtain ⟨_, part, read⟩ := Option.bind_eq_some_iff.mp read
  obtain ⟨_, power, same⟩ := Option.map_eq_some_iff.mp read
  cases same
  exact (integer_passes whole).trans ((fraction_passes part).trans (exponent_passes power))

theorem readNumber_passes {value : ℚ} (read : readNumber text = some (value, rest)) :
    Passes .outside .outside text rest := by
  unfold readNumber at read
  by_cases minus : text.head? = some '-'
  · rw [if_pos minus] at read
    obtain ⟨_, size, same⟩ := Option.map_eq_some_iff.mp read
    cases same
    exact (tail_passes minus (by decide)).trans (magnitude_passes size)
  · rw [if_neg minus] at read
    exact magnitude_passes read

/-! ### Values -/

theorem skipSpace_passes (text : List Char) : Passes .outside .outside text (skipSpace text) :=
  takeWhile_passes (by decide) text

theorem expect_some {word : List Char} (read : expect word text = some rest) : text = word ++ rest := by
  unfold expect at read
  by_cases begins : word <+: text
  · rw [if_pos begins] at read
    obtain ⟨others, rfl⟩ := begins
    cases read
    simp
  · rw [if_neg begins] at read
    cases read

theorem expect_passes {word : List Char} (plain : unquoted word = true)
    (read : expect word text = some rest) : Passes .outside .outside text rest := by
  rw [expect_some read]
  exact .plain (unquoted_mem plain) rest

end

/-- A reader whose items are scanned to their end. -/
def Scans {α : Type} (item : List Char → Option (α × List Char)) : Prop :=
  ∀ text result, item text = some result → Passes .outside .outside text result.2

section

variable {α : Type} {item : List Char → Option (α × List Char)}

theorem elements_scans (scans : Scans item) (rounds : Nat) : Scans (elements item rounds) := by
  induction rounds with
  | zero => exact fun text result read => by cases read
  | succ rounds ih =>
      intro text result read
      obtain ⟨first, head, read⟩ := Option.bind_eq_some_iff.mp read
      refine (skipSpace_passes text).trans ((scans _ _ head).trans
        ((skipSpace_passes first.2).trans ?_))
      cases comma : expect [','] (skipSpace first.2) with
      | none =>
          rw [comma] at read
          cases read
          exact .refl _ _
      | some rest =>
          rw [comma] at read
          obtain ⟨more, later, same⟩ := Option.map_eq_some_iff.mp read
          have others := ih _ _ later
          cases same
          exact (expect_passes (by decide) comma).trans others

theorem bracketed_scans (scans : Scans item) {close : Char} (bracket : unquoted [close] = true) :
    Scans (bracketed close item) := by
  intro text result read
  unfold bracketed at read
  cases closed : expect [close] (skipSpace text) with
  | some rest =>
      rw [closed] at read
      cases read
      exact (skipSpace_passes text).trans (expect_passes bracket closed)
  | none =>
      rw [closed] at read
      obtain ⟨_, items, read⟩ := Option.bind_eq_some_iff.mp read
      obtain ⟨_, ends, same⟩ := Option.map_eq_some_iff.mp read
      cases same
      exact (elements_scans scans _ _ _ items).trans (expect_passes bracket ends)

theorem readMember_scans (scans : Scans item) : Scans (readMember item) := by
  intro text result read
  obtain ⟨quoted, opened, read⟩ := Option.bind_eq_some_iff.mp read
  obtain ⟨⟨name, rest⟩, named, read⟩ := Option.bind_eq_some_iff.mp read
  obtain ⟨later, colon, read⟩ := Option.bind_eq_some_iff.mp read
  obtain ⟨valued, inside, same⟩ := Option.map_eq_some_iff.mp read
  cases same
  rw [expect_some opened]
  have next : Place.next .outside '"' = some .inside := by decide
  exact (Passes.one next quoted).trans ((stringBody_passes named).trans
    ((skipSpace_passes rest).trans ((expect_passes (by decide) colon).trans
      ((skipSpace_passes later).trans (scans _ _ inside)))))

end

/-- **A value is scanned to its end.** -/
theorem readValue_scans (depth : Nat) : Scans (readValue depth) := by
  induction depth with
  | zero => exact fun text result read => by cases read
  | succ depth ih =>
      intro text result read
      unfold readValue at read
      split at read
      · cases read
      · obtain ⟨_, members, same⟩ := Option.map_eq_some_iff.mp read
        cases same
        exact (Passes.one (by decide) _).trans
          (bracketed_scans (readMember_scans ih) (by decide) _ _ members)
      · obtain ⟨_, items, same⟩ := Option.map_eq_some_iff.mp read
        cases same
        exact (Passes.one (by decide) _).trans (bracketed_scans ih (by decide) _ _ items)
      · obtain ⟨_, chars, same⟩ := Option.map_eq_some_iff.mp read
        cases same
        exact (Passes.one (by decide) _).trans (stringBody_passes chars)
      · obtain ⟨_, word, same⟩ := Option.map_eq_some_iff.mp read
        cases same
        exact (Passes.one (by decide) _).trans (expect_passes (by decide) word)
      · obtain ⟨_, word, same⟩ := Option.map_eq_some_iff.mp read
        cases same
        exact (Passes.one (by decide) _).trans (expect_passes (by decide) word)
      · obtain ⟨_, word, same⟩ := Option.map_eq_some_iff.mp read
        cases same
        exact (Passes.one (by decide) _).trans (expect_passes (by decide) word)
      · obtain ⟨_, number, same⟩ := Option.map_eq_some_iff.mp read
        cases same
        exact readNumber_passes number

/-- **No text of the grammar** has a control character inside a string. -/
theorem denotes_scans {text : String} {json : Json} (denotes : Denotes text json) :
    Place.scan .outside text.toList = some .outside := by
  obtain ⟨depth, rest, read, blank⟩ := denotes
  have whole := (skipSpace_passes text.toList).trans ((readValue_scans depth _ _ read).trans
    (skipSpace_passes rest))
  rw [blank] at whole
  obtain ⟨front, same, scanned⟩ := whole
  rw [List.append_nil] at same
  rw [same, scanned]

/-! ### Texts that are faithful under a condition -/

/-- A text after which a scan is outside the strings, or is over; outside only under a condition. -/
def Closes (text : List Char) (fine : Prop) : Prop :=
  (Place.scan .outside text = some .outside ∧ fine) ∨ Place.scan .outside text = none

/-- **A faithful text**: it is read as its value under a condition, and ends every scan otherwise. -/
structure Faithful {α : Type} (item : List Char → Option (α × List Char)) (text : List Char) (value : α)
    (fine : Prop) : Prop where
  compact : fine → Compact item text value
  closes : Closes text fine

section

variable {α ι : Type} {item : List Char → Option (α × List Char)} {text more name : List Char}
  {fine other : Prop} {depth : Nat} {json : Json}

theorem Closes.append (first : Closes text fine) (second : Closes more other) :
    Closes (text ++ more) (fine ∧ other) := by
  unfold Closes at *
  rw [scan_append]
  rcases first with ⟨scanned, holds⟩ | over_
  · rw [scanned]
    rcases second with ⟨scanned', holds'⟩ | over'
    · exact .inl ⟨scanned', holds, holds'⟩
    · exact .inr over'
  · rw [over_]
    exact .inr rfl

theorem Closes.imp (closes : Closes text fine) (weaker : fine → other) : Closes text other :=
  Or.imp (fun scanned => ⟨scanned.1, weaker scanned.2⟩) id closes

theorem Closes.of_passes (passes : Passes .outside .outside text []) : Closes text True := by
  obtain ⟨front, rfl, scanned⟩ := passes
  rw [List.append_nil]
  exact .inl ⟨scanned, trivial⟩

theorem Closes.plain (plain : unquoted text = true) : Closes text True := by
  have passes := Passes.plain (unquoted_mem plain) []
  rw [List.append_nil] at passes
  exact .of_passes passes

/-- What stays inside a string, or ends the scan; it stays only under a condition. -/
def StaysInside (piece : List Char) (fine : Prop) : Prop :=
  (Place.scan .inside piece = some .inside ∧ fine) ∨ Place.scan .inside piece = none

theorem staysInside_flatMap {write : Char → List Char} {fine : Char → Prop}
    (each : ∀ char, StaysInside (write char) (fine char)) (chars : List Char) :
    StaysInside (chars.flatMap write) (∀ char ∈ chars, fine char) := by
  induction chars with
  | nil => exact .inl ⟨rfl, fun char among => by cases among⟩
  | cons char chars ih =>
      unfold StaysInside
      rw [List.flatMap_cons, scan_append]
      rcases each char with ⟨scanned, holds⟩ | over_
      · rw [scanned]
        rcases ih with ⟨scanned', holds'⟩ | over'
        · refine .inl ⟨scanned', fun other among => ?_⟩
          rcases List.mem_cons.mp among with rfl | among
          · exact holds
          · exact holds' other among
        · exact .inr over'
      · rw [over_]
        exact .inr rfl

/-- A text between quotes. -/
theorem Closes.quoted (stays : StaysInside text fine) : Closes ('"' :: text ++ ['"']) fine := by
  unfold Closes
  have opened : Place.scan .outside ('"' :: text ++ ['"']) = Place.scan .inside (text ++ ['"']) := rfl
  rw [opened, scan_append]
  rcases stays with ⟨scanned, holds⟩ | over_
  · rw [scanned]
    exact .inl ⟨rfl, holds⟩
  · rw [over_]
    exact .inr rfl

/-- **A string** that is written character by character. -/
theorem Faithful.string {write : Char → List Char} {fine : Char → Prop}
    (stands : ∀ char, fine char → Stands (write char) char)
    (each : ∀ char, StaysInside (write char) (fine char)) (value : String) :
    Faithful (readValue (depth + 1)) ('"' :: value.toList.flatMap write ++ ['"']) (.string value)
      (∀ char ∈ value.toList, fine char) where
  compact holds := Compact.string fun char among => stands char (holds char among)
  closes := .quoted (staysInside_flatMap each _)

/-- **A number.** -/
theorem Faithful.number (n : Nat) :
    Faithful (readValue (depth + 1)) (Nat.toDigits 10 n) (.number n) True where
  compact _ := .number n
  closes := by
    refine .plain (List.all_eq_true.mpr fun char among => bne_iff_ne.mpr ?_)
    obtain ⟨digit, small, rfl⟩ := digit_of_mem_toDigits (by decide) (by decide) among
    have all : ∀ d < 10, Nat.digitChar d ≠ '"' := by decide
    exact all digit small

/-- The same condition in other words. -/
theorem Faithful.imp {value : α} (faithful : Faithful item text value fine) (same : fine ↔ other) :
    Faithful item text value other where
  compact holds := faithful.compact (same.mpr holds)
  closes := faithful.closes.imp same.mp

theorem Closes.commas {list : List ι} {text : ι → List Char} {fine : ι → Prop}
    (each : ∀ index ∈ list, Closes (text index) (fine index)) :
    Closes (commaText (list.map text)) (∀ index ∈ list, fine index) := by
  induction list with
  | nil => exact .inl ⟨rfl, fun index among => by cases among⟩
  | cons first rest ih =>
      have head := each first List.mem_cons_self
      have tail := ih fun index among => each index (List.mem_cons_of_mem _ among)
      cases rest with
      | nil =>
          have alone : commaText ([first].map text) = text first := by simp [commaText]
          rw [alone]
          exact head.imp fun holds index among => List.mem_singleton.mp among ▸ holds
      | cons second rest =>
          have comma : Closes [','] True := .plain (by decide)
          have whole := head.append (comma.append tail)
          rw [List.map_cons, List.map_cons, commaText_cons]
          refine whole.imp fun parts index among => ?_
          rcases List.mem_cons.mp among with rfl | among
          · exact parts.1
          · exact parts.2.2 index among

theorem compact_map {list : List ι} {text : ι → List Char} {value : ι → α}
    (each : ∀ index ∈ list, Compact item (text index) (value index)) :
    List.Forall₂ (Compact item) (list.map text) (list.map value) := by
  induction list with
  | nil => exact .nil
  | cons first rest ih =>
      exact .cons (each first List.mem_cons_self)
        (ih fun index among => each index (List.mem_cons_of_mem _ among))

/-- **An array.** -/
theorem Faithful.array {list : List ι} {text : ι → List Char} {value : ι → Json} {fine : ι → Prop}
    (each : ∀ index ∈ list, Faithful (readValue depth) (text index) (value index) (fine index)) :
    Faithful (readValue (depth + 1)) ('[' :: commaText (list.map text) ++ [']'])
      (.array (list.map value)) (∀ index ∈ list, fine index) where
  compact holds := .array (compact_map fun index among => (each index among).compact (holds index among))
  closes := by
    have front : Closes ['['] True := .plain (by decide)
    have back : Closes [']'] True := .plain (by decide)
    exact ((front.append (Closes.commas fun index among => (each index among).closes)).append back).imp
      fun parts => parts.1.2

/-- A member of an object, as it is written, and when its value is faithful. -/
structure Member where
  name : String
  text : List Char
  json : Json
  fine : Prop

/-- A name that needs no escapes. -/
def plainName (name : List Char) : Bool :=
  name.all fun char => char != '"' && char != '\\' && decide (32 ≤ char.toNat)

theorem plainName_mem (plain : plainName name = true) :
    ∀ char ∈ name, char ≠ '"' ∧ char ≠ '\\' ∧ 32 ≤ char.toNat := by
  intro char among
  have each := List.all_eq_true.mp plain char among
  simp only [Bool.and_eq_true, bne_iff_ne, decide_eq_true_eq] at each
  exact ⟨each.1.1, each.1.2, each.2⟩

theorem closes_plainName (plain : plainName name = true) : Closes ('"' :: name ++ ['"']) True := by
  refine .quoted (.inl ⟨?_, trivial⟩)
  have each := plainName_mem plain
  clear plain
  induction name with
  | nil => rfl
  | cons char name ih =>
      obtain ⟨quote, backslash, printable⟩ := each char List.mem_cons_self
      show Option.bind (if char = '"' then _ else _) _ = _
      rw [if_neg quote, if_neg backslash, if_neg (by omega)]
      exact ih fun char among => each char (List.mem_cons_of_mem _ among)

/-- **An object**, whose names have no escapes. -/
theorem Faithful.object {members : List Member}
    (each : ∀ member ∈ members, Faithful (readValue depth) member.text member.json member.fine)
    (plain : ∀ member ∈ members, plainName member.name.toList = true) :
    Faithful (readValue (depth + 1))
      ('\x7b' :: commaText (members.map fun member => memberText member.name.toList member.text) ++
        ['\x7d'])
      (.object (members.map fun member => (member.name, member.json)))
      (∀ member ∈ members, member.fine) where
  compact holds := by
    refine .object (compact_map fun member among => ?_)
    have named : ∀ char ∈ member.name.toList, Stands [char] char := by
      intro char there
      obtain ⟨quote, backslash, printable⟩ := plainName_mem (plain member among) char there
      exact stands_self quote backslash printable
    have compact := Compact.member ((each member among).compact (holds member among)) named
    rwa [String.ofList_toList] at compact
  closes := by
    have front : Closes ['\x7b'] True := .plain (by decide)
    have back : Closes ['\x7d'] True := .plain (by decide)
    have colon : Closes [':'] True := .plain (by decide)
    have inside : Closes (commaText (members.map fun member =>
        memberText member.name.toList member.text)) (∀ member ∈ members, member.fine) := by
      refine .commas fun member among => ?_
      have whole := (closes_plainName (plain member among)).append (colon.append (each member among).closes)
      have same : '"' :: member.name.toList ++ ['"'] ++ ([':'] ++ member.text) =
          memberText member.name.toList member.text := by simp [memberText]
      rw [same] at whole
      exact whole.imp fun parts => parts.2.2
    exact ((front.append inside).append back).imp fun parts => parts.1.2

/-- **When a faithful text denotes its value**: exactly under its condition; otherwise it is no text of
the grammar. -/
theorem Faithful.denotes_iff {string : String}
    (faithful : Faithful (readValue depth) string.toList json fine) :
    (Denotes string json ↔ fine) ∧ ((∃ other, Denotes string other) ↔ fine) := by
  have scanned {other : Json} (denotes : Denotes string other) : fine := by
    rcases faithful.closes with ⟨-, holds⟩ | over_
    · exact holds
    · rw [denotes_scans denotes] at over_
      cases over_
  have holds (holds : fine) : Denotes string json := (faithful.compact holds).denotes
  exact ⟨⟨scanned, holds⟩, fun ⟨_, denotes⟩ => scanned denotes, fun fine => ⟨json, holds fine⟩⟩

end

end Json

end Library
