/-
**What every module reads: I/O errors, durations, expiry.**

`io::Result` is `Except IoError`; a fallible call on shared state returns the state as well, since a
`?` leaves behind what was changed before it. `lib.rs` and `kv.rs` hold one `is_expired` each, with
the same body, and compute the expiry of a write in the same way.
-/

import RivetCache.Library.Saturating

namespace RivetCache

open Library

/-- The largest length of a vector, `isize::MAX`. -/
def isizeMax : Nat := 2 ^ 63 - 1

/-- The `io::ErrorKind`s the crate produces or tests for. -/
inductive ErrorKind where
  | invalidInput
  | invalidData
  | unexpectedEof
  | notFound
  | alreadyExists
  | wouldBlock
  | brokenPipe
  | permissionDenied
  | timedOut
  | unsupported
  | other
  deriving DecidableEq, Repr

/-- `io::Error`: its kind and its text. -/
structure IoError where
  kind : ErrorKind
  message : String
  deriving DecidableEq, Repr

/-- How a call ends that does not return: with an `io::Error`, or with a panic. -/
inductive Fault where
  | error (error : IoError)
  | panic
  deriving DecidableEq

/-- `is_corruption_error`. -/
def isCorruptionError (error : IoError) : Bool :=
  match error.kind with
  | .invalidData => true
  | .unexpectedEof => true
  | _ => false

/-- `char::is_whitespace`: the white space of Unicode. -/
def isWhitespace (char : Char) : Bool :=
  let code := char.toNat
  (9 ≤ code && code ≤ 13) || code == 32 || code == 133 || code == 160 || code == 5760 ||
    (8192 ≤ code && code ≤ 8202) || code == 8232 || code == 8233 || code == 8239 ||
    code == 8287 || code == 12288

/-- `trim().is_empty()`. -/
def isBlank (text : String) : Bool := text.toList.all isWhitespace

/-- `str::replace` of a character. -/
def replaceChar (char : Char) (piece : List Char) (text : List Char) : List Char :=
  text.flatMap fun other => if other = char then piece else [other]

/-- `std::time::Duration`, in nanoseconds. -/
structure Duration where
  nanos : Nat
  deriving DecidableEq, Repr

namespace Duration

def zero : Duration := ⟨0⟩

def fromSecs (secs : Nat) : Duration := ⟨secs * 1000000000⟩

def isZero (ttl : Duration) : Bool := ttl.nanos == 0

def asSecs (ttl : Duration) : Nat := ttl.nanos / 1000000000

end Duration

/-- `is_expired`: zero never expires. -/
def isExpired (expiresAt now : Nat) : Bool := expiresAt != 0 && decide (expiresAt ≤ now)

/-- The expiry of a write: `0` for a zero TTL, otherwise at least one second from now. -/
def expiryAt (now : Nat) (ttl : Duration) : Nat :=
  if ttl.isZero then 0 else satAdd now (max ttl.asSecs 1)

theorem isExpired_false_iff {expiresAt now : Nat} :
    isExpired expiresAt now = false ↔ expiresAt = 0 ∨ now < expiresAt := by
  unfold isExpired
  by_cases zero : expiresAt = 0 <;> simp [zero]

theorem isExpired_true_iff {expiresAt now : Nat} :
    isExpired expiresAt now = true ↔ expiresAt ≠ 0 ∧ expiresAt ≤ now := by
  unfold isExpired
  simp

@[simp] theorem isExpired_zero (now : Nat) : isExpired 0 now = false := by
  simp [isExpired]

/-- What has expired stays expired. -/
theorem isExpired_mono {expiresAt earlier later : Nat} (order : earlier ≤ later)
    (expired : isExpired expiresAt earlier = true) : isExpired expiresAt later = true := by
  rw [isExpired_true_iff] at expired ⊢
  exact ⟨expired.1, expired.2.trans order⟩

@[simp] theorem expiryAt_zero (now : Nat) : expiryAt now Duration.zero = 0 := rfl

/-- **A non-zero TTL, however short, expires.** -/
theorem expiryAt_ne_zero {now : Nat} {ttl : Duration} (positive : ttl.isZero = false) :
    expiryAt now ttl ≠ 0 := by
  unfold expiryAt
  rw [positive]
  exact (satAdd_pos (by omega)).ne'

end RivetCache
