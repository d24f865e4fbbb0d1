/-
**Little-endian byte strings.**

`leBytes width n` is the `width` lowest bytes of `n`, the lowest first; `ofLeBytes` reads them back
(`ofLeBytes_leBytes`). Together they are a bijection between the byte strings of a width and the numbers
that fit it (`leBytes_ofLeBytes`, `ofLeBytes_lt`).

An encoding of several fields is unambiguous where each field tells its own length: a number has a fixed
width (`leBytes_append_inj`), and a byte string stands behind its length (`lengthPrefixed_append_inj`).
-/

import Mathlib.Tactic

namespace Library

/-- The lowest bytes of a number, the lowest first. -/
def leBytes : Nat → Nat → List UInt8
  | 0, _ => []
  | width + 1, n => UInt8.ofNat n :: leBytes width (n / 256)

/-- The number a byte string stands for, the lowest byte first. -/
def ofLeBytes : List UInt8 → Nat
  | [] => 0
  | byte :: rest => byte.toNat + 256 * ofLeBytes rest

@[simp] theorem leBytes_length (width n : Nat) : (leBytes width n).length = width := by
  induction width generalizing n with
  | zero => rfl
  | succ width ih => simp [leBytes, ih]

/-- **Reading back** the bytes of a number that fits. -/
theorem ofLeBytes_leBytes {width n : Nat} (fits : n < 256 ^ width) :
    ofLeBytes (leBytes width n) = n := by
  induction width generalizing n with
  | zero =>
      have zero : n = 0 := by simpa using fits
      rw [zero]
      rfl
  | succ width ih =>
      have smaller : n / 256 < 256 ^ width := by
        rw [Nat.div_lt_iff_lt_mul (by omega)]
        rwa [pow_succ] at fits
      show (UInt8.ofNat n).toNat + 256 * ofLeBytes (leBytes width (n / 256)) = n
      rw [ih smaller, UInt8.toNat_ofNat']
      omega

/-- A byte string stands for a number that fits its length. -/
theorem ofLeBytes_lt (bytes : List UInt8) : ofLeBytes bytes < 256 ^ bytes.length := by
  induction bytes with
  | nil => simp [ofLeBytes]
  | cons byte rest ih =>
      have low : byte.toNat < 256 := byte.toNat_lt
      show byte.toNat + 256 * ofLeBytes rest < 256 ^ (rest.length + 1)
      rw [pow_succ]
      omega

/-- **Writing back** the number of a byte string. -/
theorem leBytes_ofLeBytes (bytes : List UInt8) : leBytes bytes.length (ofLeBytes bytes) = bytes := by
  induction bytes with
  | nil => rfl
  | cons byte rest ih =>
      have low : byte.toNat < 256 := byte.toNat_lt
      have quotient : (byte.toNat + 256 * ofLeBytes rest) / 256 = ofLeBytes rest := by omega
      have head : UInt8.ofNat (byte.toNat + 256 * ofLeBytes rest) = byte := by
        apply UInt8.toNat.inj
        rw [UInt8.toNat_ofNat']
        omega
      show UInt8.ofNat (byte.toNat + 256 * ofLeBytes rest) ::
        leBytes rest.length ((byte.toNat + 256 * ofLeBytes rest) / 256) = byte :: rest
      rw [quotient, ih, head]

/-! ### Fields -/

/-- Numbers that fit are determined by their bytes. -/
theorem leBytes_inj {width m n : Nat} (mFits : m < 256 ^ width) (nFits : n < 256 ^ width)
    (same : leBytes width m = leBytes width n) : m = n := by
  have read := congrArg ofLeBytes same
  rwa [ofLeBytes_leBytes mFits, ofLeBytes_leBytes nFits] at read

/-- A number in front of other bytes. -/
theorem leBytes_append_inj {width m n : Nat} (mFits : m < 256 ^ width) (nFits : n < 256 ^ width)
    {left right : List UInt8} (same : leBytes width m ++ left = leBytes width n ++ right) :
    m = n ∧ left = right := by
  obtain ⟨numbers, rest⟩ := List.append_inj same (by rw [leBytes_length, leBytes_length])
  exact ⟨leBytes_inj mFits nFits numbers, rest⟩

/-- Bytes behind their length, a number of eight bytes. -/
def lengthPrefixed (bytes : List UInt8) : List UInt8 := leBytes 8 bytes.length ++ bytes

theorem lengthPrefixed_length (bytes : List UInt8) :
    (lengthPrefixed bytes).length = 8 + bytes.length := by
  unfold lengthPrefixed
  rw [List.length_append, leBytes_length]

/-- **Bytes behind their length**, in front of other bytes. -/
theorem lengthPrefixed_append_inj {first second left right : List UInt8}
    (firstShort : first.length < 2 ^ 64) (secondShort : second.length < 2 ^ 64)
    (same : lengthPrefixed first ++ left = lengthPrefixed second ++ right) :
    first = second ∧ left = right := by
  unfold lengthPrefixed at same
  rw [List.append_assoc, List.append_assoc] at same
  obtain ⟨lengths, rest⟩ := leBytes_append_inj (by omega) (by omega) same
  exact List.append_inj rest lengths

/-- **Fields of one width**, one after another. -/
theorem flatMap_inj {α β : Type} {field : α → List β} {width : Nat}
    (wide : ∀ value, (field value).length = width) (injective : Function.Injective field)
    {first second : List α} (lengths : first.length = second.length)
    (same : first.flatMap field = second.flatMap field) : first = second := by
  induction first generalizing second with
  | nil => exact (List.length_eq_zero_iff.mp lengths.symm).symm
  | cons value rest ih =>
      cases second with
      | nil => cases lengths
      | cons other others =>
          rw [List.flatMap_cons, List.flatMap_cons] at same
          obtain ⟨here, later⟩ := List.append_inj same (by rw [wide, wide])
          rw [injective here, ih (Nat.succ.inj lengths) later]

end Library
