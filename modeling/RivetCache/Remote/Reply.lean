/-
**One reply for one request.**

A reply is a status, and what belongs to the status: an entry after the `OK` of a `GET`, a message after an
`ERROR`, nothing otherwise (`IsReply`). The status of a `GET` is written before the entry is encoded. Where
the tier answers an entry the encoder refuses, the error reply follows the `OK` (`Unsendable`); a `PUT` that
announces a payload no allocation can hold ends the handler before it writes (`Oversized`). Every other
request has exactly one reply, whatever its bytes and whatever the tier answers.

* `handleConnection_one_reply`: this, in both directions, and that an error is always told.
-/

import RivetCache.Remote.Codec

set_option linter.unusedSectionVars false

namespace RivetCache

open Library

variable {τ : Type}

/-! ### The protocol -/

/-- The opcode of a request, where it has one. -/
def requestOp (request : List UInt8) : Option UInt8 :=
  match readRequestHeader request with
  | .error _ => none
  | .ok (op, _) => some op

/-- **A reply of the protocol** to a request of that opcode. -/
inductive IsReply (limits : RemoteLimits) (op : Option UInt8) : List UInt8 → Prop
  | entry (entry : KvTierEntry) : op = some opGet → 0 < entry.block.bytes.bytes.length →
      entry.block.bytes.bytes.length ≤ limits.maxPayloadBytes →
      IsReply limits op (tagged statusOk ++ entryBytes entry)
  | done : op ≠ some opGet → IsReply limits op (tagged statusOk)
  | miss : op = some opGet → IsReply limits op (tagged statusMiss)
  | error (message : List UInt8) : message.length ≤ maxErrorBytes →
      IsReply limits op (tagged statusError ++ (leBytes 4 message.length ++ message))

/-- **The tier answers an entry that cannot be sent**: the request is a `GET` of a key that is read, and
the payload answered is empty or over the limit. -/
def Unsendable (tier : KvTier τ) (limits : RemoteLimits) (request : List UInt8) (state : τ) : Prop :=
  ∃ rest key left entry, readRequestHeader request = .ok (opGet, rest) ∧
    readKey limits rest = .ok (key, left) ∧ (tier.get key state).1 = .ok (some entry) ∧
      (entry.block.bytes.bytes.length = 0 ∨
        limits.maxPayloadBytes < entry.block.bytes.bytes.length)

/-- **A payload is announced that no allocation can hold**: the request is a `PUT` of a key that is read,
with a pin flag, and the length after it is within the limit and above `isize::MAX`. -/
def Oversized (limits : RemoteLimits) (request : List UInt8) : Prop :=
  ∃ rest key left, readRequestHeader request = .ok (opPut, rest) ∧
    readKey limits rest = .ok (key, left) ∧ 17 ≤ left.length ∧
      (left[8]? = some 0 ∨ left[8]? = some 1) ∧
      isizeMax < ofLeBytes ((left.drop 9).take 8) ∧
      ofLeBytes ((left.drop 9).take 8) ≤ limits.maxPayloadBytes

/-- An error reply is a reply to any request. -/
theorem errorResponse_isReply (limits : RemoteLimits) (op : Option UInt8) (message : String) :
    IsReply limits op (errorResponse message) :=
  .error _ (List.length_take_le _ _)

/-! ### A length no allocation can hold -/

section

variable {input rest : List UInt8}

theorem number_ok {width n : Nat} :
    Reader.number endOfStream width input = .ok (n, rest) ↔
      width ≤ input.length ∧ n = ofLeBytes (input.take width) ∧ rest = input.drop width := by
  unfold Reader.number
  rw [Reader.bind_ok]
  constructor
  · rintro ⟨bytes, left, taken, ended⟩
    obtain ⟨enough, rfl, rfl⟩ := Reader.exact_ok.mp taken
    obtain ⟨rfl, rfl⟩ := Reader.pure_ok.mp ended
    exact ⟨enough, rfl, rfl⟩
  · rintro ⟨enough, rfl, rfl⟩
    exact ⟨_, _, Reader.exact_ok.mpr ⟨enough, rfl, rfl⟩, Reader.pure_ok.mpr ⟨rfl, rfl⟩⟩

theorem ofLeBytes_take_lt (input : List UInt8) : ofLeBytes (input.take 8) < 2 ^ 64 := by
  have bound := ofLeBytes_lt (input.take 8)
  have wide : 256 ^ (input.take 8).length ≤ 256 ^ 8 :=
    Nat.pow_le_pow_right (by decide) (List.length_take_le _ _)
  have same : 256 ^ 8 = 2 ^ 64 := by decide
  omega

/-- Eight bytes are a `u64`. -/
theorem exists_u64 (input : List UInt8) :
    ∃ value : UInt64, value.toNat = ofLeBytes (input.take 8) :=
  ⟨UInt64.ofNat (ofLeBytes (input.take 8)),
    by rw [UInt64.toNat_ofNat', Nat.mod_eq_of_lt (ofLeBytes_take_lt input)]⟩

theorem readRemoteU64_ok {value : UInt64} :
    readRemoteU64 input = .ok (value, rest) ↔
      8 ≤ input.length ∧ value.toNat = ofLeBytes (input.take 8) ∧ rest = input.drop 8 := by
  have held : (UInt64.ofNat (ofLeBytes (input.take 8))).toNat = ofLeBytes (input.take 8) := by
    rw [UInt64.toNat_ofNat', Nat.mod_eq_of_lt (ofLeBytes_take_lt input)]
  unfold readRemoteU64
  rw [Reader.bind_ok]
  constructor
  · rintro ⟨n, left, taken, ended⟩
    obtain ⟨enough, rfl, rfl⟩ := number_ok.mp taken
    obtain ⟨rfl, rfl⟩ := Reader.pure_ok.mp ended
    exact ⟨enough, held, rfl⟩
  · rintro ⟨enough, same, rfl⟩
    refine ⟨_, _, number_ok.mpr ⟨enough, rfl, rfl⟩, Reader.pure_ok.mpr ⟨?_, rfl⟩⟩
    exact UInt64.toNat.inj (same.trans held.symm)

theorem readU8_ok {value : UInt8} :
    readU8 input = .ok (value, rest) ↔ input = value :: rest := by
  unfold readU8
  rw [bind_apply]
  cases input with
  | nil => exact iff_of_false (fun nothing => by cases nothing) fun nothing => by cases nothing
  | cons byte left =>
      have read : Reader.number endOfStream 1 (byte :: left) = .ok (byte.toNat, left) :=
        number_ok.mpr ⟨by simp, by simp [ofLeBytes], rfl⟩
      rw [read]
      show Except.ok (UInt8.ofNat byte.toNat, left) = .ok (value, rest) ↔ _
      rw [UInt8.ofNat_toNat]
      constructor <;> rintro ⟨⟩ <;> rfl

/-- **Where `read_entry` panics.** -/
theorem readRemoteEntry_panic {key : KvBlockKey} {limits : RemoteLimits} :
    readRemoteEntry key limits input = .error .panic ↔
      17 ≤ input.length ∧ (input[8]? = some 0 ∨ input[8]? = some 1) ∧
        isizeMax < ofLeBytes ((input.drop 9).take 8) ∧
        ofLeBytes ((input.drop 9).take 8) ≤ limits.maxPayloadBytes := by
  constructor
  · intro panicked
    obtain ⟨expiresAt, after_expiry, expiry, at_flag⟩ := NoPanic.readRemoteU64.later panicked
    obtain ⟨flag, after_flag, flagged, at_pin⟩ := NoPanic.readU8.later at_flag
    obtain ⟨pinned, after_pin, pin, at_length⟩ := (NoPanic.require _ _).later at_pin
    obtain ⟨len, after_length, length, at_limit⟩ := NoPanic.readRemoteU64.later at_length
    obtain ⟨_, after_limit, limit, at_buffer⟩ := (NoPanic.reject _ _).later at_limit
    obtain ⟨_, _, rfl⟩ := readRemoteU64_ok.mp expiry
    have flag_first := readU8_ok.mp flagged
    have there : input[8]? = some flag := by
      rw [← List.head?_drop, flag_first]
      rfl
    have nine : after_flag = input.drop 9 := by
      rw [show (9 : Nat) = 8 + 1 from rfl, ← List.drop_drop, flag_first]
      rfl
    have is_pin : flag = 0 ∨ flag = 1 := by
      unfold Reader.require pinOfByte at pin
      by_contra neither
      rw [not_or] at neither
      rw [if_neg neither.1, if_neg neither.2] at pin
      cases pin
    have unmoved : after_pin = after_flag := by
      unfold Reader.require at pin
      split at pin <;> cases pin
      rfl
    rw [unmoved, nine] at length
    obtain ⟨enough, counted, _⟩ := readRemoteU64_ok.mp length
    have limited : len.toNat ≤ limits.maxPayloadBytes := by
      unfold Reader.reject at limit
      split at limit
      case isTrue => cases limit
      case isFalse fine =>
        rw [decide_eq_true_eq, not_or] at fine
        omega
    rcases panic_bind.mp at_buffer with large | ⟨_, _, _, at_bytes⟩
    · have above : len.toNat > isizeMax := by
        unfold zeroVec Reader.reject at large
        split at large
        case isTrue above => exact of_decide_eq_true above
        case isFalse => cases large
      rw [List.length_drop] at enough
      rw [← counted]
      refine ⟨by omega, ?_, above, limited⟩
      rw [there]
      exact is_pin.imp (congrArg some) (congrArg some)
    · obtain ⟨_, _, _, late⟩ := (NoPanic.readBytes _).later at_bytes
      cases late
  · rintro ⟨long, flag, above, limited⟩
    obtain ⟨expiresAt, expiry⟩ := exists_u64 input
    obtain ⟨len, counted⟩ := exists_u64 (input.drop 9)
    have nine : ∀ byte, input[8]? = some byte → input.drop 8 = byte :: input.drop 9 := by
      intro byte here
      obtain ⟨inside, rfl⟩ := List.getElem?_eq_some_iff.mp here
      exact List.drop_eq_getElem_cons inside
    obtain ⟨byte, pinned, here, pin⟩ : ∃ byte pinned, input[8]? = some byte ∧
        pinOfByte byte = some pinned := by
      rcases flag with zero | one
      · exact ⟨0, false, zero, rfl⟩
      · exact ⟨1, true, one, rfl⟩
    refine panic_bind.mpr (Or.inr ⟨expiresAt, input.drop 8,
      readRemoteU64_ok.mpr ⟨by omega, expiry, rfl⟩, ?_⟩)
    refine panic_bind.mpr (Or.inr ⟨byte, input.drop 9, readU8_ok.mpr (nine byte here), ?_⟩)
    refine panic_bind.mpr (Or.inr ⟨pinned, input.drop 9, by unfold Reader.require; rw [pin], ?_⟩)
    refine panic_bind.mpr (Or.inr ⟨len, (input.drop 9).drop 8, readRemoteU64_ok.mpr
      ⟨by rw [List.length_drop]; omega, counted, rfl⟩, ?_⟩)
    rw [← counted] at above limited
    have fine : decide (len.toNat = 0 ∨ len.toNat > limits.maxPayloadBytes) = false := by
      rw [decide_eq_false_iff_not]
      omega
    refine panic_bind.mpr (Or.inr ⟨(), (input.drop 9).drop 8, by rw [fine]; rfl, ?_⟩)
    refine panic_bind.mpr (Or.inl ?_)
    unfold zeroVec Reader.reject
    rw [if_pos (decide_eq_true above)]

end

/-! ### The cases of the handler -/

/-- **One reply**, and where the request fails with an error it is that error. -/
structure OneReply (limits : RemoteLimits) (op : Option UInt8) (served : Connection τ) : Prop where
  reply : IsReply limits op served.written
  told : ∀ error, served.outcome = .error (.error error) →
    served.written = errorResponse error.message

section

variable {limits : RemoteLimits} {op : Option UInt8} {state : τ}

/-- A request that fails before anything is written is told the error. -/
theorem oneReply_failed {fault : Fault} (sober : fault ≠ .panic) (state : τ) :
    OneReply limits op (Connection.failed fault state).told := by
  cases fault with
  | panic => exact absurd rfl sober
  | error error =>
      refine ⟨errorResponse_isReply limits op error.message, fun other same => ?_⟩
      cases same
      rfl

theorem oneReply_simple (called : Except IoError Unit × τ) (other : op ≠ some opGet) :
    OneReply limits op (Connection.simple called).told := by
  rcases called with ⟨error | ⟨⟩, state⟩
  · exact oneReply_failed (fun panic => by cases panic) state
  · exact ⟨.done other, fun error same => by cases same⟩

/-- **A request that begins with a key** is answered by what serves the key. -/
theorem oneReply_withKey {input : List UInt8} {serve : KvBlockKey → List UInt8 → Connection τ} :
    OneReply limits op (withKey limits input state serve).told ↔
      ∀ key left, readKey limits input = .ok (key, left) → OneReply limits op (serve key left).told := by
  unfold withKey
  cases read : readKey limits input with
  | error fault =>
      refine iff_of_true (oneReply_failed (fun panic => ?_) state) fun key left same => by cases same
      exact NoPanic.readKey limits input (panic ▸ read)
  | ok taken =>
      obtain ⟨key, left⟩ := taken
      constructor
      · rintro replied key' left' ⟨⟩
        exact replied
      · exact fun replied => replied key left rfl

/-- An `OK` and then an error reply: no reply to a `GET`. -/
theorem not_isReply_ok_error (message : String) :
    ¬ IsReply limits (some opGet) (tagged statusOk ++ errorResponse message) := by
  generalize same : tagged statusOk ++ errorResponse message = written
  intro reply
  cases reply with
  | entry entry _ _ _ =>
      have bodies := List.append_cancel_left same
      -- the byte after the first eight is the status of the error, and no pin flag
      have ninth := congrArg (fun bytes => bytes[8]?) bodies
      have flag : (entryBytes entry)[8]? = some (if entry.pinned then 1 else 0) := by
        unfold entryBytes u64Bytes
        rw [List.getElem?_append_right (by rw [leBytes_length]), leBytes_length]
        rfl
      have status : (errorResponse message)[8]? = some statusError := rfl
      rw [flag, status] at ninth
      cases pin : entry.pinned <;> rw [pin] at ninth <;> revert ninth <;> decide
  | done other => exact other rfl
  | miss _ =>
      have length := congrArg List.length same
      simp [errorResponse, tagged, remoteMagic] at length
  | error bytes _ =>
      have ninth := congrArg (fun bytes => bytes[8]?) same
      have first : (tagged statusOk ++ errorResponse message)[8]? = some statusOk := rfl
      have second : (tagged statusError ++ (leBytes 4 bytes.length ++ bytes))[8]? =
        some statusError := rfl
      rw [first, second] at ninth
      revert ninth
      decide

/-- **A `GET`**: the entry answered must be one that is encoded. -/
theorem oneReply_serveGet (tier : KvTier τ) (key : KvBlockKey) :
    OneReply limits (some opGet) (serveGet tier limits key state).told ↔
      ¬ ∃ entry, (tier.get key state).1 = .ok (some entry) ∧
        (entry.block.bytes.bytes.length = 0 ∨
          limits.maxPayloadBytes < entry.block.bytes.bytes.length) := by
  unfold serveGet
  rcases tier.get key state with ⟨error | answer, after⟩
  · refine iff_of_true (oneReply_failed (fun panic => by cases panic) after) ?_
    rintro ⟨entry, ⟨⟩, _⟩
  · cases answer with
    | none =>
        refine iff_of_true ⟨.miss rfl, fun error same => by cases same⟩ ?_
        rintro ⟨entry, ⟨⟩, _⟩
    | some entry =>
        unfold writeEntryBody
        by_cases bad : entry.block.bytes.bytes.length = 0 ∨
            entry.block.bytes.bytes.length > limits.maxPayloadBytes
        · simp only [if_pos bad]
          refine iff_of_false (fun replied => not_isReply_ok_error _ replied.reply) ?_
          exact not_not.mpr ⟨entry, rfl, bad⟩
        · simp only [if_neg bad]
          refine iff_of_true ⟨.entry entry rfl (by omega) (by omega), fun error same => by cases same⟩ ?_
          rintro ⟨other, ⟨⟩, refused⟩
          exact bad refused

/-- **A `PUT`**: the length announced must be one that is allocated. -/
theorem oneReply_servePut (tier : KvTier τ) (key : KvBlockKey) (input : List UInt8)
    (other : op ≠ some opGet) :
    OneReply limits op (servePut tier limits key input state).told ↔
      readRemoteEntry key limits input ≠ .error .panic := by
  unfold servePut
  cases read : readRemoteEntry key limits input with
  | error fault =>
      by_cases panic : fault = .panic
      · subst panic
        refine iff_of_false (fun replied => ?_) (fun sober => sober rfl)
        have reply : IsReply limits op [] := replied.reply
        generalize same : ([] : List UInt8) = written at reply
        cases reply <;> simp [tagged, remoteMagic] at same
      · exact iff_of_true (oneReply_failed panic state) fun same => panic (Except.error.inj same)
  | ok taken => exact iff_of_true (oneReply_simple _ other) fun same => by cases same

end

/-! ### One reply -/

/-- **One reply for one request**: unless the request is a `GET` whose entry cannot be sent, or a `PUT`
that announces what no allocation can hold. -/
theorem handleConnection_one_reply (tier : KvTier τ) (limits : RemoteLimits) (request : List UInt8)
    (state : τ) :
    OneReply limits (requestOp request) (handleConnection tier limits request state) ↔
      ¬ Unsendable tier limits request state ∧ ¬ Oversized limits request := by
  unfold handleConnection serveRequest requestOp
  cases header : readRequestHeader request with
  | error fault =>
      refine iff_of_true (oneReply_failed (fun panic => ?_) state) ⟨?_, ?_⟩
      · exact NoPanic.readRequestHeader request (panic ▸ header)
      · rintro ⟨rest, key, left, entry, opened, _⟩
        rw [header] at opened
        cases opened
      · rintro ⟨rest, key, left, opened, _⟩
        rw [header] at opened
        cases opened
  | ok taken =>
      obtain ⟨op, rest⟩ := taken
      -- the two conditions are about the opcode that was read
      have get_only : op ≠ opGet → ¬ Unsendable tier limits request state := by
        rintro other ⟨rest', key, left, entry, opened, _⟩
        rw [header] at opened
        cases opened
        exact other rfl
      have put_only : op ≠ opPut → ¬ Oversized limits request := by
        rintro other ⟨rest', key, left, opened, _⟩
        rw [header] at opened
        cases opened
        exact other rfl
      have named : ∀ {opcode}, op ≠ opcode → some op ≠ some opcode := fun other same =>
        other (Option.some.inj same)
      dsimp only
      by_cases is_get : op = opGet
      · subst is_get
        rw [if_pos rfl, oneReply_withKey]
        constructor
        · refine fun replied => ⟨?_, put_only (by decide)⟩
          rintro ⟨rest', key, left, entry, opened, read, answered, refused⟩
          rw [header] at opened
          cases opened
          exact (oneReply_serveGet tier key).mp (replied key left read) ⟨entry, answered, refused⟩
        · rintro ⟨sendable, _⟩ key left read
          refine (oneReply_serveGet tier key).mpr ?_
          rintro ⟨entry, answered, refused⟩
          exact sendable ⟨rest, key, left, entry, header, read, answered, refused⟩
      rw [if_neg is_get]
      by_cases is_put : op = opPut
      · subst is_put
        rw [if_pos rfl, oneReply_withKey]
        constructor
        · refine fun replied => ⟨get_only is_get, ?_⟩
          rintro ⟨rest', key, left, opened, read, announced⟩
          rw [header] at opened
          cases opened
          exact (oneReply_servePut tier key left (named is_get)).mp (replied key left read)
            (readRemoteEntry_panic.mpr announced)
        · rintro ⟨_, allocated⟩ key left read
          refine (oneReply_servePut tier key left (named is_get)).mpr fun panicked => ?_
          exact allocated ⟨rest, key, left, header, read, readRemoteEntry_panic.mp panicked⟩
      rw [if_neg is_put]
      refine iff_of_true ?_ ⟨get_only is_get, put_only is_put⟩
      by_cases is_remove : op = opRemove
      · rw [if_pos is_remove]
        exact oneReply_withKey.mpr fun key left _ => oneReply_simple _ (named is_get)
      rw [if_neg is_remove]
      by_cases is_clear : op = opClear
      · rw [if_pos is_clear]
        exact oneReply_simple _ (named is_get)
      rw [if_neg is_clear]
      by_cases is_ping : op = opPing
      · rw [if_pos is_ping]
        exact oneReply_simple _ (named is_get)
      rw [if_neg is_ping]
      exact oneReply_failed (fun panic => by cases panic) state

/-! ### A client's requests -/

section

variable {served : KvTier τ} {limits : RemoteLimits} {key : KvBlockKey} {state : τ}

/-- A request with a key is served with that key. -/
theorem serve_key (state : τ) (wire : WireKey limits key) (op : UInt8) (body : List UInt8)
    (serve : KvBlockKey → List UInt8 → Connection τ) :
    readRequestHeader (tagged op ++ (remoteKeyBytes key ++ body)) =
        .ok (op, remoteKeyBytes key ++ body) ∧
      withKey limits (remoteKeyBytes key ++ body) state serve = serve key body := by
  refine ⟨reads_tagged _ op _, ?_⟩
  unfold withKey
  rw [reads_key wire body]

theorem handle_get (wire : WireKey limits key) :
    handleConnection served limits (tagged opGet ++ remoteKeyBytes key) state =
      (serveGet served limits key state).told := by
  obtain ⟨header, keyed⟩ := serve_key state wire opGet []
    fun key _ => serveGet served limits key state
  rw [List.append_nil] at header keyed
  unfold handleConnection serveRequest
  rw [header]
  dsimp only
  rw [if_pos rfl, keyed]

theorem handle_put {entry : KvTierEntry} (wire : WireKey limits entry.block.key)
    (body : WireEntry limits entry) :
    handleConnection served limits
        (tagged opPut ++ (remoteKeyBytes entry.block.key ++ entryBytes entry)) state =
      (Connection.simple (served.put entry state)).told := by
  obtain ⟨header, keyed⟩ := serve_key state wire opPut (entryBytes entry)
    fun key input => servePut served limits key input state
  have read := reads_entry body entry.block.key []
  rw [List.append_nil] at read
  unfold handleConnection serveRequest
  rw [header]
  dsimp only
  rw [if_neg (by decide), if_pos rfl, keyed]
  unfold servePut
  rw [read]
  rfl

theorem handle_remove (wire : WireKey limits key) :
    handleConnection served limits (tagged opRemove ++ remoteKeyBytes key) state =
      (Connection.simple (served.remove key state)).told := by
  obtain ⟨header, keyed⟩ := serve_key state wire opRemove []
    fun key _ => .simple (served.remove key state)
  rw [List.append_nil] at header keyed
  unfold handleConnection serveRequest
  rw [header]
  dsimp only
  rw [if_neg (by decide), if_neg (by decide), if_pos rfl, keyed]

theorem handle_clear :
    handleConnection served limits (tagged opClear ++ []) state =
      (Connection.simple (served.clear state)).told := by
  have header : readRequestHeader (tagged opClear ++ []) = .ok (opClear, []) := reads_tagged _ _ _
  unfold handleConnection serveRequest
  rw [header]
  rfl

end

/-! ### A reply that is none -/

/-- A tier that answers one entry to every key. -/
def constantTier (entry : KvTierEntry) : KvTier Unit where
  name := "constant"
  get _ state := (.ok (some entry), state)
  put _ state := (.ok (), state)
  remove _ state := (.ok (), state)
  clear state := (.ok (), state)
  health state := (.ok (), state)

/-- A key of the model `m`. -/
def remoteKey (blockIndex : UInt32) : KvBlockKey :=
  ⟨"m", Vector.replicate 32 0, blockIndex, 0, 1, 0, 1, 1⟩

/-- An entry of three bytes. -/
def threeBytes (blockIndex : UInt32) : KvTierEntry :=
  ⟨⟨remoteKey blockIndex, ⟨[1, 2, 3], by simp⟩⟩, 0, false⟩

theorem remoteKey_wire (blockIndex : UInt32) {limits : RemoteLimits} (room : 1 ≤ limits.maxModelBytes) :
    WireKey limits (remoteKey blockIndex) := by
  have bytes : utf8Bytes (remoteKey blockIndex).modelFingerprint = [109] :=
    (by decide : utf8Bytes "m" = [109])
  have one : (1 : UInt32) ≠ 0 := by decide
  refine ⟨?_, ?_, ?_, one, one⟩ <;> rw [bytes]
  · decide
  · exact room
  · decide

/-- **An `OK` and then an error**: an entry of three bytes where two are allowed. -/
theorem ok_then_error :
    handleConnection (constantTier (threeBytes 0)) ⟨2, 1⟩ (tagged opGet ++ remoteKeyBytes (remoteKey 0))
          () =
        ⟨tagged statusOk ++ errorResponse "KV payload exceeds remote protocol limits",
          .error (.error ⟨.invalidInput, "KV payload exceeds remote protocol limits"⟩), ()⟩ ∧
      ¬ IsReply ⟨2, 1⟩ (some opGet)
        (tagged statusOk ++ errorResponse "KV payload exceeds remote protocol limits") := by
  refine ⟨?_, not_isReply_ok_error _⟩
  rw [handle_get (remoteKey_wire 0 (Nat.le_refl _))]
  rfl

end RivetCache
