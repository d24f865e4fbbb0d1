/-
**`connectors.rs`: the protocol of a Redis server.**

`readRespOn` is `read_resp` on a stack of so many frames; the calls are nested as the arrays are, and
`none` says that the stack has no frame left. `RespValue.encoded` is the encoding of the protocol, and
`RespValue.Within` says of a value that it keeps the limits of the reader.

* `readRespOn_encoded`: a value within the limits is read back, and what follows it is left;
* `readRespOn_within`: every value that is read is within the limits;
* `readResp_exact`: both, for the commands of the client as well, and ten frames are enough for any input.
-/

import RivetCache.Connectors.Redis
import RivetCache.Library.Digits
import RivetCache.Library.Lines
import RivetCache.Remote.Codec

set_option linter.unusedSectionVars false

namespace RivetCache

open Library

/-! ### The reader -/

/-- `protocol_error` of `connectors.rs`, as a reader fails with it. -/
def respError (message : String) : Fault := .error (connectorError message)

/-- `read_resp_line`. -/
def readRespLine (max : Nat) : Reader Fault String :=
  readLine max (respError "invalid RESP line") (respError "RESP line is not UTF-8")

/-- `expect_crlf`. -/
def expectCrlf : Reader Fault Unit := do
  let ending ← readExactly 2
  Reader.reject (ending != crlf) (respError "RESP bulk value missing CRLF")

/-- `read_resp`, a line that is parsed as an `i64`. -/
def readRespNumber (invalid : String) : Reader Fault Int := do
  let line ← readRespLine 64
  Reader.require (parseSigned 10 (2 ^ 63) line.toList) (respError invalid)

/-- `usize::try_from` of an `i64`. -/
def toUsize (value : Int) : Option Nat := if 0 ≤ value then some value.toNat else none

/-- `read_resp`, a bulk value. -/
def readRespBulk (maxBytes : Nat) : Reader Fault RespValue := do
  let length ← readRespNumber "invalid RESP bulk length"
  if length = -1 then pure (.bulk none)
  else
    let length ← Reader.require (toUsize length) (respError "negative RESP bulk length")
    let _ ← Reader.reject (decide (length > maxBytes)) (respError "RESP bulk value exceeds limit")
    let _ ← zeroVec length
    let bytes ← readExactly length
    let _ ← expectCrlf
    pure (.bulk (some bytes))

/-- `read_resp`, an array of what `element` reads. -/
def readRespArray (element : Reader (Option Fault) RespValue) : Reader (Option Fault) RespValue := do
  let count ← (readRespNumber "invalid RESP array length").rename some
  if count = -1 then pure (.array none)
  else
    let count ← Reader.require (toUsize count) (some (respError "negative RESP array length"))
    let _ ← Reader.reject (decide (count > 4096)) (some (respError "RESP array exceeds element limit"))
    let values ← Reader.times count element
    pure (.array (some values))

/-- `read_resp`, on a stack of so many frames. -/
def readRespOn (maxBytes : Nat) : Nat → Nat → Reader (Option Fault) RespValue
  | 0, _ => fun _ => .error none
  | frames + 1, depth => do
      let _ ← Reader.reject (decide (depth > 8)) (some (respError "RESP nesting exceeds limit"))
      let kind ← readU8.rename some
      if kind = 43 then
        let line ← (readRespLine 4096).rename some
        pure (.simple line)
      else if kind = 45 then
        let line ← (readRespLine 8192).rename some
        pure (.error line)
      else if kind = 58 then
        let value ← (readRespNumber "invalid RESP integer").rename some
        pure (.integer value)
      else if kind = 36 then (readRespBulk maxBytes).rename some
      else if kind = 42 then readRespArray (readRespOn maxBytes frames (depth + 1))
      else Reader.require none (some (respError "unsupported RESP type"))

/-- `expect_simple_ok`, the replies that are accepted. -/
def expectSimpleOk (value : RespValue) (operation : String) : Except IoError Unit :=
  match value with
  | .simple value =>
      if value.toList.map Char.toLower = ['o', 'k'] then .ok ()
      else .error (connectorError s!"Redis {operation} returned {(RespValue.simple value).debug}")
  | .error error => .error ⟨.permissionDenied, s!"Redis {operation} failed: {error}"⟩
  | other => .error (connectorError s!"Redis {operation} returned {other.debug}")

/-- A result of the client, as a reader ends with it. -/
def orFail (result : Except IoError Unit) : Reader (Option Fault) Unit := fun input =>
  match result with
  | .ok () => .ok ((), input)
  | .error error => .error (some (.error error))

/-- `RedisKvTier::command`, what is read of the stream: the reply to `AUTH` where there are credentials, and
the reply to the command. -/
def commandReply (maxBytes frames : Nat) (auth : Bool) : Reader (Option Fault) RespValue := do
  let _ ← if auth then
      readRespOn maxBytes frames 0 >>= fun value => orFail (expectSimpleOk value "AUTH")
    else pure ()
  readRespOn maxBytes frames 0

/-! ### The encoding -/

/-- The decimal digits of a number, as bytes. -/
def decimalBytes (value : Int) : List UInt8 := utf8Bytes (toString value)

mutual

/-- The encoding of a value. -/
def RespValue.encoded : RespValue → List UInt8
  | .simple value => 43 :: (utf8Bytes value ++ crlf)
  | .error value => 45 :: (utf8Bytes value ++ crlf)
  | .integer value => 58 :: (decimalBytes value ++ crlf)
  | .bulk none => 36 :: (decimalBytes (-1) ++ crlf)
  | .bulk (some bytes) => 36 :: (decimalBytes bytes.length ++ crlf ++ (bytes ++ crlf))
  | .array none => 42 :: (decimalBytes (-1) ++ crlf)
  | .array (some values) => 42 :: (decimalBytes values.length ++ crlf ++ RespValue.encodedAll values)

/-- The encodings of values, one after another. -/
def RespValue.encodedAll : List RespValue → List UInt8
  | [] => []
  | value :: rest => value.encoded ++ RespValue.encodedAll rest

end

/-- `write_resp_command`. -/
def writeRespCommand (arguments : List (List UInt8)) : Except IoError (List UInt8) :=
  if arguments.isEmpty then .error ⟨.invalidInput, "empty Redis command"⟩
  else
    .ok (utf8Bytes s!"*{arguments.length}\r\n" ++ arguments.flatMap fun argument =>
      utf8Bytes s!"${argument.length}\r\n" ++ argument ++ crlf)

/-- **A value within the limits of the reader**, at a depth: lines of the lengths it takes, 64-bit integers,
bulk values no longer than a buffer and the limit, arrays of so many elements, and no deeper. -/
inductive RespValue.Within (maxBytes : Nat) : Nat → RespValue → Prop
  | simple {depth : Nat} {value : String} : depth ≤ 8 → '\n' ∉ value.toList →
      (utf8Bytes value).length + 2 ≤ 4096 → Within maxBytes depth (.simple value)
  | error {depth : Nat} {value : String} : depth ≤ 8 → '\n' ∉ value.toList →
      (utf8Bytes value).length + 2 ≤ 8192 → Within maxBytes depth (.error value)
  | integer {depth : Nat} {value : Int} : depth ≤ 8 → -2 ^ 63 ≤ value → value < 2 ^ 63 →
      Within maxBytes depth (.integer value)
  | nullBulk {depth : Nat} : depth ≤ 8 → Within maxBytes depth (.bulk none)
  | bulk {depth : Nat} {bytes : List UInt8} : depth ≤ 8 → bytes.length ≤ maxBytes →
      bytes.length ≤ isizeMax → Within maxBytes depth (.bulk (some bytes))
  | nullArray {depth : Nat} : depth ≤ 8 → Within maxBytes depth (.array none)
  | array {depth : Nat} {values : List RespValue} : depth ≤ 8 → values.length ≤ 4096 →
      (∀ value ∈ values, Within maxBytes (depth + 1) value) → Within maxBytes depth (.array (some values))

/-! ### A value is read back -/

section

variable {maxBytes frames depth : Nat}

/-- **An integer is read back.** -/
theorem reads_respNumber {value : Int} (invalid : String) (low : -2 ^ 63 ≤ value)
    (high : value < 2 ^ 63) :
    Reads (readRespNumber invalid) (decimalBytes value ++ crlf) value := by
  have single : '\n' ∉ (toString value).toList := fun among =>
    absurd (repr_ascii among).1 (by decide)
  have bytes : (decimalBytes value).length = (toString value).toList.length := by
    unfold decimalBytes
    conv_lhs => rw [← String.ofList_toList (s := toString value)]
    rw [utf8Bytes_ascii fun char among => (repr_ascii among).2.trans (by decide), List.length_map]
  have length := @length_repr_le value 19 (by decide) (by omega) (by omega)
  have line : Reads (readRespLine 64) (decimalBytes value ++ crlf) (toString value) :=
    reads_line _ _ single (by unfold decimalBytes at bytes; omega)
  have parsed : parseSigned 10 (2 ^ 63) (toString value).toList = some value :=
    parseSigned_repr (by push_cast; omega) (by push_cast; omega)
  refine line.last ?_
  rw [parsed]
  exact Reads.require _ _

theorem toUsize_ofNat (n : Nat) : toUsize n = some n := by
  unfold toUsize
  rw [if_pos (by omega), Int.toNat_natCast]

theorem reads_expectCrlf : Reads expectCrlf crlf () := by
  have ending : Reads (readExactly 2) crlf crlf := Reads.exact endOfStream crlf
  exact ending.last (Reads.reject (by decide) _)

/-- **A bulk value is read back**, whatever its bytes. -/
theorem reads_bulk {bytes : List UInt8} (within : bytes.length ≤ maxBytes)
    (allocated : bytes.length ≤ isizeMax) :
    Reads (readRespBulk maxBytes) (decimalBytes bytes.length ++ crlf ++ (bytes ++ crlf))
      (.bulk (some bytes)) := by
  have fits : isizeMax < 2 ^ 63 := by decide
  refine (reads_respNumber _ (by omega) (by omega)).bind ?_
  rw [if_neg (by omega), toUsize_ofNat]
  refine Reads.check (Reads.require _ _) (Reads.check (Reads.reject ?_ _)
    (Reads.check (Reads.reject ?_ _) ((Reads.exact _ _).bind (reads_expectCrlf.last (Reads.pure _)))))
  · rw [decide_eq_false_iff_not]
    omega
  · rw [decide_eq_false_iff_not]
    omega

theorem reads_nullBulk : Reads (readRespBulk maxBytes) (decimalBytes (-1) ++ crlf) (.bulk none) :=
  (reads_respNumber _ (by decide) (by decide)).last (Reads.pure _)

theorem RespValue.encodedAll_eq (values : List RespValue) :
    RespValue.encodedAll values = values.flatMap RespValue.encoded := by
  induction values with
  | nil => rfl
  | cons value values ih =>
      rw [RespValue.encodedAll, ih, List.flatMap_cons]

/-- **An array is read back** where its elements are. -/
theorem reads_array {element : Reader (Option Fault) RespValue} {values : List RespValue}
    (few : values.length ≤ 4096)
    (each : ∀ value ∈ values, Reads element value.encoded value) :
    Reads (readRespArray element) (decimalBytes values.length ++ crlf ++ RespValue.encodedAll values)
      (.array (some values)) := by
  refine ((reads_respNumber _ (by omega) (by omega)).rename some).bind ?_
  rw [if_neg (by omega), toUsize_ofNat, RespValue.encodedAll_eq]
  refine Reads.check (Reads.require _ _) (Reads.check (Reads.reject ?_ _)
    ((Reads.times each).last (Reads.pure _)))
  rw [decide_eq_false_iff_not]
  omega

theorem reads_nullArray {element : Reader (Option Fault) RespValue} :
    Reads (readRespArray element) (decimalBytes (-1) ++ crlf) (.array none) :=
  ((reads_respNumber _ (by decide) (by decide)).rename some).last (Reads.pure _)

/-- A call reads the kind of a value, and goes on by it. -/
theorem reads_respKind {kind : UInt8} {bytes : List UInt8} {value : RespValue}
    {next : UInt8 → Reader (Option Fault) RespValue} (shallow : depth ≤ 8)
    (read : Reads (next kind) bytes value) :
    Reads (Reader.reject (decide (depth > 8)) (some (respError "RESP nesting exceeds limit")) >>=
      fun _ => readU8.rename some >>= next) (kind :: bytes) value := by
  refine Reads.check (Reads.reject ?_ _) (((reads_u8 kind).rename some).bind read)
  rw [decide_eq_false_iff_not]
  omega

/-- **A value within the limits is read back**, on a stack that reaches past the deepest of them. -/
theorem readRespOn_encoded {value : RespValue} (within : value.Within maxBytes depth)
    (stack : 9 ≤ frames + depth) : Reads (readRespOn maxBytes frames depth) value.encoded value := by
  induction within generalizing frames with
  | simple shallow single short =>
      obtain ⟨frames, rfl⟩ : ∃ n, frames = n + 1 := ⟨frames - 1, by omega⟩
      exact reads_respKind shallow (((reads_line _ _ single short).rename some).last (Reads.pure _))
  | error shallow single short =>
      obtain ⟨frames, rfl⟩ : ∃ n, frames = n + 1 := ⟨frames - 1, by omega⟩
      exact reads_respKind shallow (((reads_line _ _ single short).rename some).last (Reads.pure _))
  | integer shallow low high =>
      obtain ⟨frames, rfl⟩ : ∃ n, frames = n + 1 := ⟨frames - 1, by omega⟩
      exact reads_respKind shallow (((reads_respNumber _ low high).rename some).last (Reads.pure _))
  | nullBulk shallow =>
      obtain ⟨frames, rfl⟩ : ∃ n, frames = n + 1 := ⟨frames - 1, by omega⟩
      exact reads_respKind shallow (reads_nullBulk.rename some)
  | bulk shallow within allocated =>
      obtain ⟨frames, rfl⟩ : ∃ n, frames = n + 1 := ⟨frames - 1, by omega⟩
      exact reads_respKind shallow ((reads_bulk within allocated).rename some)
  | nullArray shallow =>
      obtain ⟨frames, rfl⟩ : ∃ n, frames = n + 1 := ⟨frames - 1, by omega⟩
      exact reads_respKind shallow reads_nullArray
  | array shallow few _ ih =>
      obtain ⟨frames, rfl⟩ : ∃ n, frames = n + 1 := ⟨frames - 1, by omega⟩
      exact reads_respKind shallow (reads_array few fun value among => ih value among (by omega))

/-! ### What is read is within the limits -/

variable {input rest : List UInt8} {value : RespValue}

theorem readRespNumber_ok {invalid : String} {number : Int}
    (read : readRespNumber invalid input = .ok (number, rest)) :
    -2 ^ 63 ≤ number ∧ number < 2 ^ 63 := by
  obtain ⟨line, left, -, parsed⟩ := Reader.bind_ok.mp read
  have bounds := parseSigned_bounds (by decide) (Reader.require_ok.mp parsed).1
  push_cast at bounds
  exact bounds

theorem readExactly_ok {n : Nat} {bytes : List UInt8}
    (read : readExactly n input = .ok (bytes, rest)) : bytes.length = n := by
  obtain ⟨enough, rfl, -⟩ := Reader.exact_ok.mp read
  rw [List.length_take, Nat.min_eq_left enough]

theorem readRespBulk_ok (shallow : depth ≤ 8)
    (read : readRespBulk maxBytes input = .ok (value, rest)) : value.Within maxBytes depth := by
  obtain ⟨length, left, -, read⟩ := Reader.bind_ok.mp read
  split at read
  next =>
    obtain ⟨rfl, -⟩ := Reader.pure_ok.mp read
    exact .nullBulk shallow
  next =>
    obtain ⟨size, left, sized, read⟩ := Reader.bind_ok.mp read
    obtain ⟨_, left, fits, read⟩ := Reader.bind_ok.mp read
    obtain ⟨_, left, allocated, read⟩ := Reader.bind_ok.mp read
    obtain ⟨bytes, left, body, read⟩ := Reader.bind_ok.mp read
    obtain ⟨_, left, -, read⟩ := Reader.bind_ok.mp read
    obtain ⟨rfl, -⟩ := Reader.pure_ok.mp read
    have same := readExactly_ok body
    have within := of_decide_eq_false (Reader.reject_ok.mp fits).1
    have reserved := of_decide_eq_false (Reader.reject_ok.mp allocated).1
    exact .bulk shallow (by omega) (by omega)

theorem readRespArray_ok {element : Reader (Option Fault) RespValue} (shallow : depth ≤ 8)
    (each : ∀ before after value, element before = .ok (value, after) →
      value.Within maxBytes (depth + 1))
    (read : readRespArray element input = .ok (value, rest)) : value.Within maxBytes depth := by
  obtain ⟨count, left, -, read⟩ := Reader.bind_ok.mp read
  split at read
  next =>
    obtain ⟨rfl, -⟩ := Reader.pure_ok.mp read
    exact .nullArray shallow
  next =>
    obtain ⟨size, left, sized, read⟩ := Reader.bind_ok.mp read
    obtain ⟨_, left, fits, read⟩ := Reader.bind_ok.mp read
    obtain ⟨values, left, body, read⟩ := Reader.bind_ok.mp read
    obtain ⟨rfl, -⟩ := Reader.pure_ok.mp read
    have few := of_decide_eq_false (Reader.reject_ok.mp fits).1
    obtain ⟨length, read⟩ := Reader.times_ok body
    refine .array shallow (by omega) fun value among => ?_
    obtain ⟨before, after, there⟩ := read value among
    exact each before after value there

/-- **Every value that is read is within the limits.** -/
theorem readRespOn_within (read : readRespOn maxBytes frames depth input = .ok (value, rest)) :
    value.Within maxBytes depth := by
  induction frames generalizing depth input value rest with
  | zero => cases read
  | succ frames ih =>
      obtain ⟨_, left, level, read⟩ := Reader.bind_ok.mp read
      obtain ⟨kind, left, -, read⟩ := Reader.bind_ok.mp read
      have shallow : depth ≤ 8 := Nat.not_lt.mp (of_decide_eq_false (Reader.reject_ok.mp level).1)
      split at read
      · obtain ⟨line, left, line_read, read⟩ := Reader.bind_ok.mp read
        obtain ⟨rfl, -⟩ := Reader.pure_ok.mp read
        obtain ⟨single, short⟩ := readLine_ok (Reader.rename_ok.mp line_read)
        exact .simple shallow single short
      split at read
      · obtain ⟨line, left, line_read, read⟩ := Reader.bind_ok.mp read
        obtain ⟨rfl, -⟩ := Reader.pure_ok.mp read
        obtain ⟨single, short⟩ := readLine_ok (Reader.rename_ok.mp line_read)
        exact .error shallow single short
      split at read
      · obtain ⟨number, left, number_read, read⟩ := Reader.bind_ok.mp read
        obtain ⟨rfl, -⟩ := Reader.pure_ok.mp read
        obtain ⟨low, high⟩ := readRespNumber_ok (Reader.rename_ok.mp number_read)
        exact .integer shallow low high
      split at read
      · exact readRespBulk_ok shallow (Reader.rename_ok.mp read)
      split at read
      · exact readRespArray_ok shallow (fun _ _ _ there => ih there) read
      · cases (Reader.require_ok.mp read).1

/-! ### The depth of the calls -/

/-- **A stack of ten frames is enough**: a call at depth nine calls no further. -/
theorem readRespOn_framed (stack : 10 ≤ frames + depth) (level : depth ≤ 9) :
    Reader.Avoids none (readRespOn maxBytes frames depth) := by
  induction frames generalizing depth with
  | zero => omega
  | succ frames ih =>
      have renamed {α : Type} (reader : Reader Fault α) : Reader.Avoids none (reader.rename some) :=
        .rename (fun _ => Option.some_ne_none _) reader
      have named (fault : Fault) : some fault ≠ none := Option.some_ne_none fault
      intro input failed
      rcases Reader.bind_error.mp failed with deep | ⟨_, left, shallow, failed⟩
      · exact Reader.Avoids.reject (named _) _ _ deep
      have inner : Reader.Avoids none (readRespOn maxBytes frames (depth + 1)) := by
        have below := of_decide_eq_false (Reader.reject_ok.mp shallow).1
        exact ih (by omega) (by omega)
      have array : Reader.Avoids none (readRespArray (readRespOn maxBytes frames (depth + 1))) := by
        refine (renamed _).bind fun count => ?_
        split
        · exact .pure _
        · exact (Reader.Avoids.require (named _) _).bind fun _ =>
            (Reader.Avoids.reject (named _) _).bind fun _ => (inner.times _).bind fun _ => .pure _
      rcases Reader.bind_error.mp failed with early | ⟨kind, left', -, failed⟩
      · exact renamed _ _ early
      revert failed
      split
      · exact (renamed _).bind (fun _ => .pure _) _
      split
      · exact (renamed _).bind (fun _ => .pure _) _
      split
      · exact (renamed _).bind (fun _ => .pure _) _
      split
      · exact renamed _ _
      split
      · exact array _
      · exact Reader.Avoids.require (named _) _ _

/-! ### Commands -/

/-- A command, as a value: its arguments are bulk values. -/
def commandValue (arguments : List (List UInt8)) : RespValue :=
  .array (some (arguments.map fun argument => .bulk (some argument)))

/-- A header is written as the encoding has it. -/
theorem header_bytes (kind : String) (count : Nat) :
    utf8Bytes (toString kind ++ toString count ++ toString "\r\n") =
      utf8Bytes kind ++ (decimalBytes count ++ crlf) := by
  have ending : utf8Bytes "\r\n" = crlf := by decide
  have digits : toString (count : Int) = toString count := rfl
  unfold decimalBytes
  rw [utf8Bytes_append, utf8Bytes_append, List.append_assoc, digits, ← ending]
  rfl

/-- **A command is written as its value is encoded.** -/
theorem writeRespCommand_ok {arguments : List (List UInt8)} {bytes : List UInt8}
    (written : writeRespCommand arguments = .ok bytes) : bytes = (commandValue arguments).encoded := by
  unfold writeRespCommand at written
  split at written
  next => cases written
  next =>
    have star : utf8Bytes "*" = [42] := by decide
    have dollar : utf8Bytes "$" = [36] := by decide
    have body (argument : List UInt8) :
        utf8Bytes (toString "$" ++ toString argument.length ++ toString "\r\n") ++ argument ++ crlf =
          (RespValue.bulk (some argument)).encoded := by
      rw [header_bytes, dollar, List.append_assoc]
      exact congrArg (List.cons 36) (List.append_assoc _ _ _)
    cases written
    show _ = 42 :: (decimalBytes (arguments.map _).length ++ crlf ++ RespValue.encodedAll _)
    rw [header_bytes, star, RespValue.encodedAll_eq, List.length_map, List.flatMap_map]
    simp only [body]
    simp

/-- A command is within the limits where its arguments are few and short. -/
theorem commandValue_within {arguments : List (List UInt8)} :
    (commandValue arguments).Within maxBytes 0 ↔ arguments.length ≤ 4096 ∧
      ∀ argument ∈ arguments, argument.length ≤ maxBytes ∧ argument.length ≤ isizeMax := by
  constructor
  · intro within
    cases within with
    | array _ few each =>
        rw [List.length_map] at few
        refine ⟨few, fun argument among => ?_⟩
        have bulk := each _ (List.mem_map_of_mem among)
        cases bulk with
        | bulk _ short allocated => exact ⟨short, allocated⟩
  · rintro ⟨few, short⟩
    refine .array (by omega) (by rwa [List.length_map]) fun value among => ?_
    obtain ⟨argument, there, rfl⟩ := List.mem_map.mp among
    exact .bulk (by omega) (short argument there).1 (short argument there).2

/-- **The reply to a command is read after the reply to `AUTH`**, and as it would be without. -/
theorem commandReply_encoded (within : value.Within maxBytes 0) (stack : 9 ≤ frames) :
    Reads (commandReply maxBytes frames true) ((RespValue.simple "OK").encoded ++ value.encoded) value ∧
      Reads (commandReply maxBytes frames false) value.encoded value := by
  have reply : Reads (readRespOn maxBytes frames 0) value.encoded value :=
    readRespOn_encoded within (by omega)
  have granted : RespValue.Within maxBytes 0 (.simple "OK") :=
    .simple (by omega) (by decide) (by decide)
  have accepted : Reads (orFail (expectSimpleOk (.simple "OK") "AUTH")) [] () := fun _ => rfl
  exact ⟨((readRespOn_encoded granted (by omega)).last accepted).bind reply,
    fun rest => reply rest⟩

end

end RivetCache
