/-
**Glob patterns over bytes.**

The patterns of a key-value server: `*` matches any bytes, `?` one byte, `[…]` one byte of a class (with
`^` negated, with ranges), and a backslash takes the byte after it literally. A class that is not closed
ends with the pattern.

* `globMatch_prefix`: a pattern of plain bytes and a final `*` matches what begins with these bytes.
-/

import Mathlib.Tactic

namespace Library

/-- What a class holds. -/
inductive GlobItem where
  | byte (byte : UInt8)
  | range (low high : UInt8)
  deriving DecidableEq

/-- A part of a pattern. -/
inductive GlobToken where
  | many
  | any
  | byte (byte : UInt8)
  | oneOf (negated : Bool) (items : List GlobItem)
  deriving DecidableEq

/-- The items of a class, and what follows it. -/
def globClass : List UInt8 → List GlobItem × List UInt8
  | [] => ([], [])
  | 92 :: byte :: rest =>
      let parsed := globClass rest
      (.byte byte :: parsed.1, parsed.2)
  | 93 :: rest => ([], rest)
  | low :: 45 :: high :: rest =>
      let parsed := globClass rest
      (.range (min low high) (max low high) :: parsed.1, parsed.2)
  | byte :: rest =>
      let parsed := globClass rest
      (.byte byte :: parsed.1, parsed.2)

/-- The parts of a pattern. There are no more of them than bytes, which is the fuel. -/
def globTokens : Nat → List UInt8 → List GlobToken
  | 0, _ => []
  | _ + 1, [] => []
  | fuel + 1, byte :: rest =>
      if byte = 42 then .many :: globTokens fuel rest
      else if byte = 63 then .any :: globTokens fuel rest
      else if byte = 91 then
        let negated := rest.head? == some 94
        let parsed := globClass (if negated then rest.drop 1 else rest)
        .oneOf negated parsed.1 :: globTokens fuel parsed.2
      else if byte = 92 then
        match rest with
        | [] => [.byte 92]
        | escaped :: rest => .byte escaped :: globTokens fuel rest
      else .byte byte :: globTokens fuel rest

/-- Whether an item holds a byte. -/
def GlobItem.holds : GlobItem → UInt8 → Bool
  | .byte item, given => given == item
  | .range low high, given => decide (low ≤ given) && decide (given ≤ high)

/-- Whether a part matches one byte. -/
def GlobToken.accepts : GlobToken → UInt8 → Bool
  | .many, _ => false
  | .any, _ => true
  | .byte expected, given => given == expected
  | .oneOf negated items, given => (items.any fun item => item.holds given) != negated

/-- Whether the parts match a text. -/
def matchTokens : List GlobToken → List UInt8 → Bool
  | [], text => text.isEmpty
  | .many :: rest, text => text.tails.any (matchTokens rest)
  | token :: rest, text =>
      match text with
      | [] => false
      | byte :: text => token.accepts byte && matchTokens rest text

/-- **Whether a pattern matches a text.** -/
def globMatch (pattern text : List UInt8) : Bool :=
  matchTokens (globTokens pattern.length pattern) text

/-! ### Plain patterns -/

/-- A byte that stands for itself. -/
def PlainByte (byte : UInt8) : Prop := byte ≠ 42 ∧ byte ≠ 63 ∧ byte ≠ 91 ∧ byte ≠ 92

instance (byte : UInt8) : Decidable (PlainByte byte) :=
  inferInstanceAs (Decidable (byte ≠ 42 ∧ byte ≠ 63 ∧ byte ≠ 91 ∧ byte ≠ 92))

theorem globTokens_plain {literal : List UInt8} (plain : ∀ byte ∈ literal, PlainByte byte) :
    globTokens (literal ++ [42]).length (literal ++ [42]) =
      literal.map GlobToken.byte ++ [GlobToken.many] := by
  induction literal with
  | nil => rfl
  | cons byte rest ih =>
      obtain ⟨many, any, opening, escape⟩ := plain byte List.mem_cons_self
      show globTokens ((rest ++ [42]).length + 1) (byte :: (rest ++ [42])) = _
      have later := ih fun other mem => plain other (List.mem_cons_of_mem _ mem)
      simp only [globTokens, if_neg many, if_neg any, if_neg opening, if_neg escape, later]
      rfl

theorem matchTokens_prefix (literal text : List UInt8) :
    matchTokens (literal.map GlobToken.byte ++ [GlobToken.many]) text = true ↔ literal <+: text := by
  induction literal generalizing text with
  | nil =>
      refine iff_of_true ?_ List.nil_prefix
      show text.tails.any (matchTokens []) = true
      rw [List.any_eq_true]
      exact ⟨[], (List.mem_tails [] text).mpr List.nil_suffix, rfl⟩
  | cons byte rest ih =>
      cases text with
      | nil => exact iff_of_false Bool.false_ne_true (by simp)
      | cons first text =>
          show ((first == byte) && matchTokens (rest.map GlobToken.byte ++ [GlobToken.many]) text) =
            true ↔ _
          rw [Bool.and_eq_true, beq_iff_eq, ih, List.cons_prefix_cons]
          exact and_congr_left' eq_comm

/-- **Plain bytes and a final `*`** match what begins with these bytes. -/
theorem globMatch_prefix {literal : List UInt8} (plain : ∀ byte ∈ literal, PlainByte byte)
    (text : List UInt8) : globMatch (literal ++ [42]) text = true ↔ literal <+: text := by
  unfold globMatch
  rw [globTokens_plain plain]
  exact matchTokens_prefix literal text

end Library
