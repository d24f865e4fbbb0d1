/-
**A tier behind a connection, as a tier.**

`TcpKvTier` over a served tier is a tier again (`TcpKvTier.kvTier`), a panic of the client counted as an error of
the call. It keeps the laws of the served tier for *all* keys and entries: a key that the client does not write
or the server does not take, and an entry that one of them refuses, fail their calls before the served tier is
called, and a reply that cannot be sent is an error of the client.

* `lossyTier_remote`: it holds what the served tier holds, and an entry fits where it fits the served tier or is
  above the limit.
-/

import RivetCache.Remote.RoundTrip
import RivetCache.Remote.Transparent
import RivetCache.Tiers.Lossy

set_option linter.unusedSectionVars false

namespace RivetCache

open Library

variable {τ α : Type} {served : KvTier τ} {limits : RemoteLimits} {key : KvBlockKey} {state : τ}
  {error : IoError}

/-! ### Faults -/

/-- The result of a call that may panic, a panic counted as an error: the caller gets no answer. -/
def settled : Except Fault α → Except IoError α
  | .ok value => .ok value
  | .error (.error error) => .error error
  | .error .panic => .error ⟨.other, "panicked"⟩

theorem settled_ok {result : Except Fault α} {value : α} :
    settled result = .ok value ↔ result = .ok value := by
  unfold settled
  split
  · simp
  · simp
  · simp

theorem settled_error {result : Except Fault α} (failed : settled result = .error error) :
    ∃ fault, result = .error fault := by
  unfold settled at failed
  split at failed
  · cases failed
  · exact ⟨_, rfl⟩
  · exact ⟨_, rfl⟩

namespace TcpKvTier

/-- `impl KvTier for TcpKvTier`, over the tier that the server serves. -/
def kvTier (name : String) (served : KvTier τ) (limits : RemoteLimits) : KvTier τ where
  name := name
  get key state := (settled (get served limits key state).1, (get served limits key state).2)
  put entry state := (settled (put served limits entry state).1, (put served limits entry state).2)
  remove key state := (settled (remove served limits key state).1, (remove served limits key state).2)
  clear state := (settled (clear served limits state).1, (clear served limits state).2)
  health state := (settled (health served limits state).1, (health served limits state).2)

end TcpKvTier

/-! ### Requests that the served tier does not see -/

/-- **A request whose key is not read** leaves the tier alone, and is answered with an error. -/
theorem handle_unread (served : KvTier τ) (state : τ) {op : UInt8} {input : List UInt8} {fault : Fault}
    (keyed : op = opGet ∨ op = opPut ∨ op = opRemove) (unread : readKey limits input = .error fault) :
    handleConnection served limits (tagged op ++ input) state = (Connection.failed fault state).told := by
  have header : readRequestHeader (tagged op ++ input) = .ok (op, input) := reads_tagged _ op input
  have failed : ∀ serve, withKey limits input state serve = .failed fault state := by
    intro serve
    unfold withKey
    rw [unread]
  unfold handleConnection serveRequest
  rw [header]
  dsimp only
  rcases keyed with rfl | rfl | rfl <;> simp only [failed, ↓reduceIte] <;> rfl

theorem told_failed_tier (fault : Fault) (state : τ) : (Connection.failed fault state).told.tier = state := by
  cases fault <;> rfl

/-- The client reads an error from a request that failed. -/
theorem received_told_failed (next : UInt8 → Reader Fault α) (fault : Fault) (state : τ)
    (fails : next statusError = readRemoteError >>= fun error => throw (.error error)) :
    ∃ failure, received (readStatus >>= next) (Connection.failed fault state).told.written =
      .error failure := by
  cases fault with
  | panic => exact ⟨endOfStream, rfl⟩
  | error error =>
      obtain ⟨failure, read⟩ := received_error (α := α)
        (leBytes 4 ((utf8Bytes error.message).take maxErrorBytes).length ++
          (utf8Bytes error.message).take maxErrorBytes)
      refine ⟨.error failure, (received_tagged _ next statusError _).trans ?_⟩
      rw [fails]
      exact read

theorem readKey_nil (limits : RemoteLimits) : readKey limits [] = .error endOfStream := rfl

/-- **A key that does not go over the wire**: the client writes no key, or the server does not take it. -/
theorem unwired (refused : ¬ WireKey limits key) :
    (∃ error, writeKey key limits = .error error) ∨
      (writeKey key limits = .ok (remoteKeyBytes key) ∧ ∀ rest, readKey limits (remoteKeyBytes key ++ rest) =
        .error (protocolError "remote KV key has an empty token or layer range")) := by
  cases written : writeKey key limits with
  | error error => exact Or.inl ⟨error, rfl⟩
  | ok bytes =>
      obtain ⟨filled, within, counted, rfl⟩ := writeKey_ok.mp written
      refine Or.inr ⟨rfl, (writeKey_read_back limits key _ written).2 fun ranges => ?_⟩
      exact refused ⟨filled, within, counted, ranges.1, ranges.2⟩

/-- **A call with such a key** fails, and leaves the served tier as it was. -/
theorem exchange_unwired (served : KvTier τ) (state : τ) (refused : ¬ WireKey limits key) {op : UInt8}
    (keyed : op = opGet ∨ op = opPut ∨ op = opRemove) (next : UInt8 → Reader Fault α)
    (fails : next statusError = readRemoteError >>= fun error => throw (.error error)) :
    (∃ fault, (TcpKvTier.exchange served limits (tagged op) (writeKey key limits) (readStatus >>= next)
        state).1 = .error fault) ∧
      (TcpKvTier.exchange served limits (tagged op) (writeKey key limits) (readStatus >>= next)
        state).2 = state := by
  unfold TcpKvTier.exchange
  rcases unwired refused with ⟨error, unwritten⟩ | ⟨written, unread⟩
  · rw [unwritten]
    refine ⟨⟨_, rfl⟩, ?_⟩
    have cut := handle_unread served state keyed (readKey_nil limits)
    rw [List.append_nil] at cut
    rw [cut, told_failed_tier]
  · rw [written]
    have taken := unread []
    rw [List.append_nil] at taken
    simp only [handle_unread served state keyed taken]
    exact ⟨received_told_failed next _ state fails, told_failed_tier _ state⟩

/-- A `PING` calls the tier's `health`. -/
theorem handle_ping : (handleConnection served limits (tagged opPing ++ []) state).tier =
    (served.health state).2 := by
  have header : readRequestHeader (tagged opPing ++ []) = .ok (opPing, []) := reads_tagged _ _ _
  unfold handleConnection serveRequest
  rw [header]
  rcases served.health state with ⟨error | ⟨⟩, after⟩ <;> rfl

/-! ### Entries that are not read -/

/-- What `read_entry` has tested of an entry that it returns. -/
theorem readRemoteEntry_ok {input rest : List UInt8} {entry : KvTierEntry}
    (read : readRemoteEntry key limits input = .ok (entry, rest)) :
    (input[8]? = some 0 ∨ input[8]? = some 1) ∧ ofLeBytes ((input.drop 9).take 8) ≠ 0 ∧
      ofLeBytes ((input.drop 9).take 8) ≤ limits.maxPayloadBytes ∧
      ofLeBytes ((input.drop 9).take 8) ≤ isizeMax := by
  obtain ⟨expiresAt, after_expiry, expiry, read⟩ := Reader.bind_ok.mp read
  obtain ⟨flag, after_flag, flagged, read⟩ := Reader.bind_ok.mp read
  obtain ⟨pinned, after_pin, pin, read⟩ := Reader.bind_ok.mp read
  obtain ⟨len, after_length, length, read⟩ := Reader.bind_ok.mp read
  obtain ⟨_, after_limit, limit, read⟩ := Reader.bind_ok.mp read
  obtain ⟨_, after_vec, vec, _⟩ := Reader.bind_ok.mp read
  obtain ⟨_, _, rfl⟩ := readRemoteU64_ok.mp expiry
  have first := readU8_ok.mp flagged
  have there : input[8]? = some flag := by
    rw [← List.head?_drop, first]
    rfl
  have nine : after_flag = input.drop 9 := by
    rw [show (9 : Nat) = 8 + 1 from rfl, ← List.drop_drop, first]
    rfl
  obtain ⟨flag_pin, rfl⟩ := Reader.require_ok.mp pin
  obtain ⟨_, counted, _⟩ := readRemoteU64_ok.mp length
  rw [nine] at counted
  have allowed := (Reader.reject_ok.mp limit).1
  have allocated := (Reader.reject_ok.mp vec).1
  rw [decide_eq_false_iff_not] at allowed allocated
  rw [there, ← counted]
  refine ⟨?_, by omega, by omega, by omega⟩
  unfold pinOfByte at flag_pin
  by_contra neither
  rw [not_or] at neither
  rw [if_neg fun zero => neither.1 (congrArg some zero), if_neg fun one => neither.2 (congrArg some one)]
    at flag_pin
  cases flag_pin

/-- An error reply is no entry. -/
theorem readRemoteEntry_errorResponse (message : String) {taken : KvTierEntry × List UInt8} :
    readRemoteEntry key limits (errorResponse message) ≠ .ok taken := by
  intro read
  have flag : (errorResponse message)[8]? = some statusError := rfl
  rcases (readRemoteEntry_ok read).1 with zero | one
  · rw [flag] at zero
    revert zero
    decide
  · rw [flag] at one
    revert one
    decide

/-- **The bytes of an entry are read** where it goes over the wire. -/
theorem readRemoteEntry_entryBytes {entry : KvTierEntry} {taken : KvTierEntry × List UInt8}
    (read : readRemoteEntry key limits (entryBytes entry) = .ok taken) :
    WireEntry limits entry ∧ taken = (entry.under key, []) := by
  have front : (entryBytes entry).drop 9 =
      leBytes 8 entry.block.bytes.bytes.length ++ entry.block.bytes.bytes := by
    unfold entryBytes u64Bytes
    rw [List.drop_append, List.drop_of_length_le (by rw [leBytes_length]; decide), leBytes_length]
    rfl
  have length : ofLeBytes (((entryBytes entry).drop 9).take 8) = entry.block.bytes.bytes.length := by
    rw [front, List.take_left' (leBytes_length 8 _), ofLeBytes_leBytes entry.block.bytes.short]
  obtain ⟨_, filled, within, allocated⟩ := readRemoteEntry_ok read
  rw [length] at filled within allocated
  have wire : WireEntry limits entry := ⟨Nat.pos_of_ne_zero filled, within, allocated⟩
  have back := reads_entry wire key []
  rw [List.append_nil, read] at back
  exact ⟨wire, Except.ok.inj back⟩

/-! ### The laws -/

namespace TcpKvTier

variable {contents : τ → KvBlockKey → Option KvTierEntry} {fits : KvTierEntry → Prop}

/-- The client reads an entry of a reply only where the served tier answered it. -/
theorem serveGet_answers {answer : Option KvTierEntry}
    (read : received (readGetReply key limits) (serveGet served limits key state).told.written = .ok answer) :
    (served.get key state).1 = .ok none ∧ answer = none ∨
      ∃ entry, (served.get key state).1 = .ok (some entry) ∧ answer = some (entry.under key) := by
  unfold serveGet at read
  rcases answered : served.get key state with ⟨error | held, after⟩
  · rw [answered] at read
    obtain ⟨failure, fails⟩ := received_error (α := Option KvTierEntry)
      (leBytes 4 ((utf8Bytes error.message).take maxErrorBytes).length ++
        (utf8Bytes error.message).take maxErrorBytes)
    have told : received (readGetReply key limits) (errorResponse error.message) = .error (.error failure) :=
      (received_tagged _ _ statusError _).trans fails
    rw [show (Connection.failed (.error error) after).told.written = errorResponse error.message from rfl,
      told] at read
    cases read
  · cases held with
    | none =>
        refine Or.inl ⟨rfl, ?_⟩
        rw [answered] at read
        exact (Except.ok.inj ((received_tagged _ _ statusMiss []).symm.trans read)).symm
    | some entry =>
        refine Or.inr ⟨entry, rfl, ?_⟩
        rw [answered] at read
        dsimp only at read
        have body : ∀ bytes, received (readGetReply key limits) (tagged statusOk ++ bytes) = .ok answer →
            ∃ taken, readRemoteEntry key limits bytes = .ok taken ∧ answer = some taken.1 := by
          intro bytes read
          have entered : received (readRemoteEntry key limits >>= fun entry => pure (some entry)) bytes =
              .ok answer := (received_tagged _ _ statusOk bytes).symm.trans read
          unfold received at entered
          rw [bind_apply] at entered
          cases parsed : readRemoteEntry key limits bytes with
          | error fault =>
              rw [parsed] at entered
              cases entered
          | ok taken =>
              rw [parsed] at entered
              exact ⟨taken, rfl, (Except.ok.inj entered).symm⟩
        cases sent : writeEntryBody entry limits with
        | error error =>
            rw [sent] at read
            obtain ⟨taken, garbled, _⟩ := body (errorResponse error.message) read
            exact absurd garbled (readRemoteEntry_errorResponse error.message)
        | ok bytes =>
            rw [sent] at read
            have encoded : bytes = entryBytes entry := by
              unfold writeEntryBody at sent
              split at sent
              · cases sent
              · exact (Except.ok.inj sent).symm
            subst encoded
            obtain ⟨taken, taken_ok, rfl⟩ := body (entryBytes entry) read
            rw [(readRemoteEntry_entryBytes taken_ok).2]

theorem serveGet_tier : (serveGet served limits key state).told.tier = (served.get key state).2 := by
  unfold serveGet
  rcases served.get key state with ⟨error | answer, after⟩
  · rfl
  · cases answer with
    | none => rfl
    | some entry =>
        dsimp only
        cases writeEntryBody entry limits <;> rfl

/-- `readGetReply`, from the status on. -/
theorem readGetReply_fails (key : KvBlockKey) (limits : RemoteLimits) :
    ∃ next : UInt8 → Reader Fault (Option KvTierEntry),
    readGetReply key limits = readStatus >>= next ∧
      next statusError = readRemoteError >>= fun error => throw (.error error) :=
  ⟨_, rfl, rfl⟩

theorem expectSimpleResponse_fails : ∃ next : UInt8 → Reader Fault Unit,
    expectSimpleResponse = readStatus >>= next ∧
      next statusError = readRemoteError >>= fun error => throw (.error error) :=
  ⟨_, rfl, rfl⟩

/-- **`get`**: what is answered is held. -/
theorem get_lossy (laws : LossyTier served contents fits) :
    (∀ answer, (get served limits key state).1 = .ok answer → answer = contents state key) ∧
      contents (get served limits key state).2 = contents state := by
  by_cases wire : WireKey limits key
  · unfold get exchange
    rw [wire.written]
    dsimp only
    rw [handle_get wire]
    refine ⟨fun answer read => ?_, by rw [serveGet_tier, laws.get]⟩
    rcases serveGet_answers read with ⟨missed, rfl⟩ | ⟨entry, held, rfl⟩
    · exact laws.got state key none missed
    · have here := laws.got state key _ held
      have same : entry.under key = entry := by
        rw [← laws.keyed state key entry here.symm]
        rfl
      rw [same, here]
  · obtain ⟨next, same, fails⟩ := readGetReply_fails key limits
    unfold get
    rw [same]
    obtain ⟨⟨fault, failed⟩, kept⟩ :=
      exchange_unwired served state wire (Or.inl rfl) next fails
    rw [failed, kept]
    exact ⟨fun answer read => (by cases read), rfl⟩

/-- A call that the served tier answers with success or an error is passed on. -/
theorem carries_error {seen : Except Fault Unit} {called : Except IoError Unit} (carried : Carries seen called) :
    (seen = .ok () ↔ called = .ok ()) ∧ ((∃ fault, seen = .error fault) ↔ ∃ error, called = .error error) := by
  rcases called with error | ⟨⟩
  · obtain ⟨failure, rfl⟩ := carried
    exact ⟨by simp, iff_of_true ⟨_, rfl⟩ ⟨_, rfl⟩⟩
  · have seen_ok : seen = .ok () := carried
    subst seen_ok
    exact ⟨iff_of_true rfl rfl, by simp⟩

/-- **A `put` that the server does not read** fails, and leaves the served tier as it was, whether the entry is
written or not. -/
theorem put_unread {entry : KvTierEntry} (small : ¬ entry.block.bytes.bytes.length > limits.maxPayloadBytes)
    (written : writeKey entry.block.key limits = .ok (remoteKeyBytes entry.block.key))
    (unread : ∀ input, (input = [] ∨ input = entryBytes entry) →
      ∃ fault, handleConnection served limits (tagged opPut ++ (remoteKeyBytes entry.block.key ++ input)) state =
        (Connection.failed fault state).told) :
    (∃ fault, (put served limits entry state).1 = .error fault) ∧ (put served limits entry state).2 = state := by
  obtain ⟨next, simple, fails⟩ := expectSimpleResponse_fails
  unfold put exchange
  rw [if_neg small, written]
  dsimp only
  cases sent : writeEntryBody entry limits with
  | error error =>
      obtain ⟨fault, failed⟩ := unread [] (Or.inl rfl)
      rw [List.append_nil] at failed
      dsimp only
      rw [failed, told_failed_tier]
      exact ⟨⟨_, rfl⟩, rfl⟩
  | ok bytes =>
      have encoded : bytes = entryBytes entry := by
        unfold writeEntryBody at sent
        split at sent
        · cases sent
        · exact (Except.ok.inj sent).symm
      obtain ⟨fault, failed⟩ := unread bytes (Or.inr encoded)
      dsimp only
      rw [List.append_assoc, failed, told_failed_tier, simple]
      exact ⟨received_told_failed next fault state fails, rfl⟩

/-- The server does not read an entry that does not go over the wire. -/
theorem handle_unread_entry {entry : KvTierEntry} (wire : WireKey limits entry.block.key)
    (refused : ¬ WireEntry limits entry) {input : List UInt8} (possible : input = [] ∨ input = entryBytes entry) :
    ∃ fault, handleConnection served limits (tagged opPut ++ (remoteKeyBytes entry.block.key ++ input)) state =
      (Connection.failed fault state).told := by
  obtain ⟨header, keyed⟩ := serve_key state wire opPut input
    fun key input => servePut served limits key input state
  cases read : readRemoteEntry entry.block.key limits input with
  | ok taken =>
      rcases possible with rfl | rfl
      · cases read
      · exact absurd (readRemoteEntry_entryBytes read).1 refused
  | error fault =>
      refine ⟨fault, ?_⟩
      unfold handleConnection serveRequest
      rw [header]
      dsimp only
      rw [if_neg (by decide), if_pos rfl, keyed]
      unfold servePut
      rw [read]

/-- **`put`**: it is a `put` of the served tier, of an entry within the limit; or it fails, and the served tier
is as it was. -/
theorem put_lossy (entry : KvTierEntry) :
    (entry.block.bytes.bytes.length ≤ limits.maxPayloadBytes ∧
        (put served limits entry state).2 = (served.put entry state).2 ∧
        Carries (put served limits entry state).1 (served.put entry state).1) ∨
      ((∃ fault, (put served limits entry state).1 = .error fault) ∧
        (put served limits entry state).2 = state) := by
  by_cases large : entry.block.bytes.bytes.length > limits.maxPayloadBytes
  · refine Or.inr ?_
    unfold put
    rw [if_pos large]
    exact ⟨⟨_, rfl⟩, rfl⟩
  by_cases wire : WireKey limits entry.block.key
  · by_cases body : WireEntry limits entry
    · exact Or.inl ⟨Nat.le_of_not_lt large, put_carries wire body⟩
    · exact Or.inr (put_unread large wire.written fun input possible => handle_unread_entry wire body possible)
  · refine Or.inr ?_
    rcases unwired wire with ⟨error, unwritten⟩ | ⟨written, unread⟩
    · have cut := handle_unread served state (Or.inr (Or.inl rfl)) (readKey_nil limits)
      rw [List.append_nil] at cut
      unfold put
      rw [if_neg large, unwritten]
      dsimp only
      rw [cut, told_failed_tier]
      exact ⟨⟨_, rfl⟩, rfl⟩
    · exact put_unread large written fun input _ =>
        ⟨_, handle_unread served state (Or.inr (Or.inl rfl)) (unread input)⟩

/-- **`remove`**: it is a `remove` of the served tier; or it fails, and the served tier is as it was. -/
theorem remove_lossy :
    ((remove served limits key state).2 = (served.remove key state).2 ∧
        Carries (remove served limits key state).1 (served.remove key state).1) ∨
      ((∃ fault, (remove served limits key state).1 = .error fault) ∧
        (remove served limits key state).2 = state) := by
  by_cases wire : WireKey limits key
  · exact Or.inl (remove_carries wire)
  · obtain ⟨next, simple, fails⟩ := expectSimpleResponse_fails
    unfold remove
    rw [simple]
    exact Or.inr (exchange_unwired served state wire (Or.inr (Or.inr rfl)) next fails)

/-- **A tier behind a connection keeps the laws**: an entry fits where it is above the limit, and refused, or
fits the served tier. -/
theorem lossyTier_remote (laws : LossyTier served contents fits) (name : String) (limits : RemoteLimits) :
    LossyTier (kvTier name served limits) contents fun entry =>
      entry.block.bytes.bytes.length ≤ limits.maxPayloadBytes → fits entry where
  keyed := laws.keyed
  got state key answer answered := (get_lossy laws).1 answer (settled_ok.mp answered)
  get state key := (get_lossy laws).2
  put state entry accepted := by
    rcases put_lossy entry with ⟨_, same, carried⟩ | ⟨⟨fault, failed⟩, _⟩
    · obtain ⟨kept, possible, updated⟩ :=
        laws.put state entry ((carries_error carried).1.mp (settled_ok.mp accepted))
      exact ⟨kept, possible, (congrArg contents same).trans updated⟩
    · rw [settled_ok.mp accepted] at failed
      cases failed
  putFits state entry fit accepted := by
    rcases put_lossy entry with ⟨within, same, carried⟩ | ⟨⟨fault, failed⟩, _⟩
    · exact (congrArg contents same).trans
        (laws.putFits state entry (fit within) ((carries_error carried).1.mp (settled_ok.mp accepted)))
    · rw [settled_ok.mp accepted] at failed
      cases failed
  putFailed state entry error refused := by
    rcases put_lossy entry with ⟨_, same, carried⟩ | ⟨_, same⟩
    · obtain ⟨error, failed⟩ := (carries_error carried).2.mp (settled_error refused)
      exact (congrArg contents same).trans (laws.putFailed state entry error failed)
    · exact congrArg contents same
  remove state key removed := by
    rcases remove_lossy with ⟨same, carried⟩ | ⟨⟨fault, failed⟩, _⟩
    · exact (congrArg contents same).trans
        (laws.remove state key ((carries_error carried).1.mp (settled_ok.mp removed)))
    · rw [settled_ok.mp removed] at failed
      cases failed
  removeFailed state key error refused := by
    rcases remove_lossy with ⟨same, carried⟩ | ⟨_, same⟩
    · obtain ⟨error, failed⟩ := (carries_error carried).2.mp (settled_error refused)
      exact (congrArg contents same).trans (laws.removeFailed state key error failed)
    · exact congrArg contents same
  clear state cleared := by
    obtain ⟨same, carried⟩ := clear_carries
    exact (congrArg contents same).trans
      (laws.clear state ((carries_error carried).1.mp (settled_ok.mp cleared)))
  clearFailed state error refused := by
    obtain ⟨same, carried⟩ := clear_carries
    obtain ⟨error, failed⟩ := (carries_error carried).2.mp (settled_error refused)
    exact (congrArg contents same).trans (laws.clearFailed state error failed)
  health state := by
    show contents (health served limits state).2 = contents state
    unfold health exchange
    dsimp only
    rw [handle_ping, laws.health]

end TcpKvTier

end RivetCache
