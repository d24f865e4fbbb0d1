/-
**The tier behind the connection.**

The client's encoder, the server and the client's decoder, one after another, are the served tier: `put`,
`remove` and `clear` are its own, an error it returns is an error of the client, and `get` answers what it
answers. A reply carries no key, so an entry that is answered is of the key that was asked for.

* `tcpKvTier_transparent`: this, for every tier, every limits, every key and every entry that go over the
  wire;
* `answered_under_another_key`: what a tier answers under another key is renamed.
-/

import RivetCache.Remote.Reply

set_option linter.unusedSectionVars false

namespace RivetCache

open Library

variable {τ : Type} {served : KvTier τ} {limits : RemoteLimits} {key : KvBlockKey} {state : τ}

/-! ### What the client reads -/

/-- A call of the client answers what a call of the tier did: success, or an error. -/
def Carries (seen : Except Fault Unit) : Except IoError Unit → Prop
  | .ok () => seen = .ok ()
  | .error _ => ∃ error, seen = .error (.error error)

theorem received_tagged {α : Type} (error : Fault) (next : UInt8 → Reader Fault α) (tag : UInt8)
    (body : List UInt8) :
    received (readTagged error >>= next) (tagged tag ++ body) = received (next tag) body := by
  unfold received
  rw [bind_apply, reads_tagged error tag body]
  rfl

/-- An error that is read fails the call. -/
theorem received_error {α : Type} (input : List UInt8) :
    ∃ error, received (readRemoteError >>= fun error => (throw (.error error) : Reader Fault α))
      input = .error (.error error) := by
  unfold received
  rw [bind_apply]
  cases read : readRemoteError input with
  | error fault =>
      cases fault with
      | error error => exact ⟨error, rfl⟩
      | panic => exact absurd read (NoPanic.readRemoteError input)
  | ok taken => exact ⟨taken.1, rfl⟩

theorem received_simple (called : Except IoError Unit × τ) :
    Carries (received expectSimpleResponse (Connection.simple called).told.written) called.1 ∧
      (Connection.simple called).told.tier = called.2 := by
  rcases called with ⟨error | ⟨⟩, state⟩
  · obtain ⟨failure, fails⟩ := received_error (α := Unit)
      (leBytes 4 ((utf8Bytes error.message).take maxErrorBytes).length ++
        (utf8Bytes error.message).take maxErrorBytes)
    exact ⟨⟨failure, (received_tagged _ _ statusError _).trans fails⟩, rfl⟩
  · exact ⟨rfl, rfl⟩

section Get

variable {after : τ}

/-- An error of the tier is an error of the client. -/
theorem received_get_error {error : IoError} (answered : served.get key state = (.error error, after)) :
    (serveGet served limits key state).told.tier = after ∧ ∃ failure,
      received (readGetReply key limits) (serveGet served limits key state).told.written =
        .error (.error failure) := by
  unfold serveGet
  rw [answered]
  obtain ⟨failure, fails⟩ := received_error (α := Option KvTierEntry)
    (leBytes 4 ((utf8Bytes error.message).take maxErrorBytes).length ++
      (utf8Bytes error.message).take maxErrorBytes)
  exact ⟨rfl, failure, (received_tagged _ _ statusError _).trans fails⟩

theorem received_get_none (answered : served.get key state = (.ok none, after)) :
    (serveGet served limits key state).told.tier = after ∧
      received (readGetReply key limits) (serveGet served limits key state).told.written =
        .ok none := by
  unfold serveGet
  rw [answered]
  exact ⟨rfl, received_tagged _ _ statusMiss []⟩

/-- **An entry of the tier is the client's**, under the key asked for. -/
theorem received_get_some {entry : KvTierEntry}
    (answered : served.get key state = (.ok (some entry), after)) (wire : WireEntry limits entry) :
    (serveGet served limits key state).told.tier = after ∧
      received (readGetReply key limits) (serveGet served limits key state).told.written =
        .ok (some (entry.under key)) := by
  unfold serveGet
  rw [answered]
  dsimp only
  rw [wire.written]
  refine ⟨rfl, (received_tagged _ _ statusOk (entryBytes entry)).trans ?_⟩
  have read := reads_entry wire key []
  rw [List.append_nil] at read
  show received (readRemoteEntry key limits >>= fun entry => pure (some entry)) (entryBytes entry) = _
  unfold received
  rw [bind_apply, read]
  rfl

end Get

/-! ### The tier behind the connection -/

/-- **What the client's `get` answers**, where the served tier answers `answer`. -/
def CarriesEntry (limits : RemoteLimits) (key : KvBlockKey)
    (seen : Except Fault (Option KvTierEntry)) : Except IoError (Option KvTierEntry) → Prop
  | .ok none => seen = .ok none
  | .ok (some entry) => WireEntry limits entry → seen = .ok (some (entry.under key))
  | .error _ => ∃ error, seen = .error (.error error)

namespace TcpKvTier

theorem get_carries (wire : WireKey limits key) :
    (get served limits key state).2 = (served.get key state).2 ∧
      CarriesEntry limits key (get served limits key state).1 (served.get key state).1 := by
  unfold get exchange
  rw [wire.written]
  dsimp only
  rw [handle_get wire]
  rcases answered : served.get key state with ⟨error | answer, after⟩
  · exact received_get_error answered
  · cases answer with
    | none => exact received_get_none answered
    | some entry =>
        refine ⟨?_, fun sent => (received_get_some answered sent).2⟩
        unfold serveGet
        rw [answered]
        dsimp only
        cases writeEntryBody entry limits <;> rfl

theorem put_carries {entry : KvTierEntry} (wire : WireKey limits entry.block.key)
    (body : WireEntry limits entry) :
    (put served limits entry state).2 = (served.put entry state).2 ∧
      Carries (put served limits entry state).1 (served.put entry state).1 := by
  have within := body.within
  unfold put exchange
  rw [if_neg (by omega), wire.written, body.written]
  dsimp only
  rw [List.append_assoc, handle_put wire body]
  exact (received_simple _).symm

theorem remove_carries (wire : WireKey limits key) :
    (remove served limits key state).2 = (served.remove key state).2 ∧
      Carries (remove served limits key state).1 (served.remove key state).1 := by
  unfold remove exchange
  rw [wire.written]
  dsimp only
  rw [handle_remove wire]
  exact (received_simple _).symm

theorem clear_carries :
    (clear served limits state).2 = (served.clear state).2 ∧
      Carries (clear served limits state).1 (served.clear state).1 := by
  unfold clear exchange
  dsimp only
  rw [handle_clear]
  exact (received_simple _).symm

end TcpKvTier

/-- **The tier behind the connection is the served tier**: for every key and every entry that go over the
wire, in every state. -/
theorem tcpKvTier_transparent (served : KvTier τ) (limits : RemoteLimits) (state : τ) :
    (∀ key, WireKey limits key →
      (TcpKvTier.get served limits key state).2 = (served.get key state).2 ∧
        CarriesEntry limits key (TcpKvTier.get served limits key state).1 (served.get key state).1) ∧
    (∀ entry, WireKey limits entry.block.key → WireEntry limits entry →
      (TcpKvTier.put served limits entry state).2 = (served.put entry state).2 ∧
        Carries (TcpKvTier.put served limits entry state).1 (served.put entry state).1) ∧
    (∀ key, WireKey limits key →
      (TcpKvTier.remove served limits key state).2 = (served.remove key state).2 ∧
        Carries (TcpKvTier.remove served limits key state).1 (served.remove key state).1) ∧
    (TcpKvTier.clear served limits state).2 = (served.clear state).2 ∧
      Carries (TcpKvTier.clear served limits state).1 (served.clear state).1 :=
  ⟨fun _ wire => TcpKvTier.get_carries wire, fun _ wire body => TcpKvTier.put_carries wire body,
    fun _ wire => TcpKvTier.remove_carries wire, TcpKvTier.clear_carries⟩

/-! ### What is not carried -/

/-- A key of a model of `n` bytes. -/
def modelOfLength (n : Nat) : KvBlockKey :=
  { remoteKey 0 with modelFingerprint := String.ofList (List.replicate n 'a') }

/-- A model longer than a `u32` counts is refused by the client. -/
theorem get_long_model (served : KvTier τ) (limits : RemoteLimits) (state : τ)
    (long : 2 ^ 32 - 1 < (utf8Bytes key.modelFingerprint).length) :
    (TcpKvTier.get served limits key state).1 =
      .error (.error ⟨.invalidInput, "model fingerprint exceeds remote protocol limits"⟩) := by
  unfold TcpKvTier.get TcpKvTier.exchange writeKey
  dsimp only
  rw [if_pos (Or.inr (Or.inr long))]

/-- **What a tier answers under another key is renamed**, and a model of four gigabytes is refused whatever
`max_model_bytes` allows. -/
theorem answered_under_another_key :
    (WireKey ⟨3, 1⟩ (remoteKey 0) ∧ WireEntry ⟨3, 1⟩ (threeBytes 1) ∧
      ((constantTier (threeBytes 1)).get (remoteKey 0) ()).1 = .ok (some (threeBytes 1)) ∧
      (TcpKvTier.get (constantTier (threeBytes 1)) ⟨3, 1⟩ (remoteKey 0) ()).1 =
        .ok (some (threeBytes 0)) ∧ threeBytes 0 ≠ threeBytes 1) ∧
    ((utf8Bytes (modelOfLength (2 ^ 32)).modelFingerprint).length ≤ 2 ^ 33 ∧
      (TcpKvTier.get (constantTier (threeBytes 1)) ⟨3, 2 ^ 33⟩ (modelOfLength (2 ^ 32)) ()).1 =
        .error (.error ⟨.invalidInput, "model fingerprint exceeds remote protocol limits"⟩)) := by
  have wire : WireKey ⟨3, 1⟩ (remoteKey 0) := remoteKey_wire 0 (Nat.le_refl _)
  have entry : WireEntry ⟨3, 1⟩ (threeBytes 1) := ⟨by decide, by decide, by decide⟩
  have length : (utf8Bytes (modelOfLength (2 ^ 32)).modelFingerprint).length = 2 ^ 32 :=
    utf8Bytes_replicate _
  refine ⟨⟨wire, entry, rfl, ?_, by decide⟩, by rw [length]; decide, get_long_model _ _ _ ?_⟩
  · have carried : CarriesEntry ⟨3, 1⟩ (remoteKey 0)
        (TcpKvTier.get (constantTier (threeBytes 1)) ⟨3, 1⟩ (remoteKey 0) ()).1
        (.ok (some (threeBytes 1))) := (TcpKvTier.get_carries wire).2
    exact carried entry
  · rw [length]
    decide

end RivetCache
