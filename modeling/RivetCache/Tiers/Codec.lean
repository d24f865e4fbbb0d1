/-
**A tier of encoded payloads, as a tier.**

`CodecKvTier` accepts an entry that it will refuse to decode: one above its limit. What it can still answer is
what the tier below holds and `get` decodes (`CodecKvTier.readable`); with a codec that round-trips, that is the
entry put, or nothing.

* `lossyTier_codec`: an entry fits where it is within the limit and its frame fits the tier below.
-/

import RivetCache.Codec.Frame
import RivetCache.Tiers.Remote

set_option linter.unusedSectionVars false

namespace RivetCache

open Library

namespace CodecKvTier

variable {τ : Type} {digest : Digest} {tier : CodecKvTier τ} {codec : PayloadCodec}
  {contents : τ → KvBlockKey → Option KvTierEntry} {fits : KvTierEntry → Prop} {entry : KvTierEntry}

/-- `impl KvTier for CodecKvTier`. -/
def kvTier (digest : Digest) (tier : CodecKvTier τ) : KvTier τ where
  name := tier.name
  get key state := (settled (tier.get digest key state).1, (tier.get digest key state).2)
  put entry state := (settled (tier.put digest entry state).1, (tier.put digest entry state).2)
  remove := tier.inner.remove
  clear := tier.inner.clear
  health := tier.inner.health

/-- What `get` makes of an entry below, where it decodes it. -/
def decoded (digest : Digest) (tier : CodecKvTier τ) (entry : KvTierEntry) : Option KvTierEntry :=
  (tier.unframe digest entry).toOption

/-- What the tier can still answer, where the tier below holds `contents`. -/
def readable (digest : Digest) (tier : CodecKvTier τ) (contents : τ → KvBlockKey → Option KvTierEntry)
    (state : τ) (key : KvBlockKey) : Option KvTierEntry :=
  (contents state key).bind (tier.decoded digest)

/-- An entry fits where it is within the limit and its frame fits below. -/
def Fits (digest : Digest) (tier : CodecKvTier τ) (codec : PayloadCodec) (fits : KvTierEntry → Prop)
    (entry : KvTierEntry) : Prop :=
  entry.block.bytes.bytes.length ≤ tier.maxDecodedBytes ∧
    ∀ frame, encodeFrame digest codec entry.block.bytes = .ok frame →
      fits ⟨⟨entry.block.key, frame⟩, entry.expiresAt, entry.pinned⟩

/-- Decoding keeps the key. -/
theorem decoded_key {stored : KvTierEntry} (found : tier.decoded digest stored = some entry) :
    entry.block.key = stored.block.key := by
  unfold decoded unframe at found
  cases frame : decodeFrame digest tier.registry stored.block.bytes tier.maxDecodedBytes with
  | error fault =>
      rw [frame] at found
      cases found
  | ok bytes =>
      rw [frame] at found
      dsimp only [bind, Except.bind] at found
      cases made : KvBlock.new stored.block.key bytes with
      | error error =>
          rw [made] at found
          cases found
      | ok block =>
          rw [made] at found
          have same : (⟨block, stored.expiresAt, stored.pinned⟩ : KvTierEntry) = entry :=
            Option.some.inj found
          subst same
          unfold KvBlock.new at made
          split at made
          · cases made
          · cases made
            rfl

/-- **What `get` answers** is what the entry below decodes to. -/
theorem get_answers {state : τ} {key : KvBlockKey} {answer : Option KvTierEntry}
    (answered : (tier.get digest key state).1 = .ok answer) :
    ∃ below, (tier.inner.get key state).1 = .ok below ∧ answer = below.bind (tier.decoded digest) := by
  unfold get at answered
  rcases read : tier.inner.get key state with ⟨error | below, after⟩
  · rw [read] at answered
    cases answered
  · refine ⟨below, rfl, ?_⟩
    rw [read] at answered
    cases below with
    | none => exact (Except.ok.inj answered).symm
    | some stored =>
        show answer = (tier.unframe digest stored).toOption
        dsimp only at answered
        cases unframed : tier.unframe digest stored with
        | error fault =>
            rw [unframed] at answered
            cases answered
        | ok entry =>
            rw [unframed] at answered
            exact (Except.ok.inj answered).symm

theorem get_tier (state : τ) (key : KvBlockKey) :
    (tier.get digest key state).2 = (tier.inner.get key state).2 := by
  unfold get
  rcases tier.inner.get key state with ⟨error | below, after⟩
  · rfl
  · cases below <;> rfl

/-- **What a stored frame decodes to**: the entry, within the limit; nothing, above it. -/
theorem decoded_frame (writes : tier.registry.get tier.writeCodec = some codec)
    (roundTrips : codec.RoundTrips) {frame : Payload}
    (framing : encodeFrame digest codec entry.block.bytes = .ok frame) :
    tier.decoded digest ⟨⟨entry.block.key, frame⟩, entry.expiresAt, entry.pinned⟩ =
      if entry.block.bytes.bytes.length ≤ tier.maxDecodedBytes then some entry else none := by
  obtain ⟨filled, encoded, encoding, framed, short⟩ := encodeFrame_ok framing
  have name : codec.name = tier.writeCodec := tier.registry.named _ codec writes
  have valid : validName codec.name = true := name ▸ tier.registry.valid _ codec writes
  have known : tier.registry.get codec.name = some codec := name ▸ writes
  unfold decoded
  by_cases within : entry.block.bytes.bytes.length ≤ tier.maxDecodedBytes
  · have decodes := (decodeFrame_frame_iff filled known valid encoding framed short tier.maxDecodedBytes).mpr
      ⟨within, roundTrips _ _ within⟩
    rw [if_pos within, (unframe_eq_ok entry.block.key entry.expiresAt entry.pinned filled).mpr decodes]
    rfl
  · have refused := decodeFrame_frame filled known valid framed short tier.maxDecodedBytes
    rw [if_neg within] at refused ⊢
    unfold unframe
    rw [refused]
    rfl

/-- A `put` that fails leaves what the tier below holds. -/
theorem put_failed (laws : LossyTier tier.inner contents fits) {state : τ} {fault : Fault}
    (refused : (tier.put digest entry state).1 = .error fault) :
    contents (tier.put digest entry state).2 = contents state := by
  unfold put at refused ⊢
  cases framing : tier.framed digest entry with
  | error fault => rfl
  | ok encoded =>
      rw [framing] at refused
      dsimp only at refused ⊢
      rcases called : tier.inner.put encoded state with ⟨error | ⟨⟩, after⟩
      · have kept := laws.putFailed state encoded error (by rw [called])
        rwa [called] at kept
      · rw [called] at refused
        cases refused

/-- What is readable after one key below was changed. -/
theorem readable_update {state after : τ} {key : KvBlockKey} {kept : Option KvTierEntry}
    (updated : contents after = Function.update (contents state) key kept) :
    tier.readable digest contents after =
      Function.update (tier.readable digest contents state) key (kept.bind (tier.decoded digest)) := by
  funext asked
  unfold readable
  rw [updated, Function.update_apply, Function.update_apply]
  split <;> rfl

/-- What is readable, where the tier below holds the same. -/
theorem readable_congr {state after : τ} (same : contents after = contents state) :
    tier.readable digest contents after = tier.readable digest contents state := by
  funext asked
  unfold readable
  rw [same]

/-- **A tier of encoded payloads keeps the laws**, with a codec that round-trips. -/
theorem lossyTier_codec (laws : LossyTier tier.inner contents fits)
    (writes : tier.registry.get tier.writeCodec = some codec) (roundTrips : codec.RoundTrips) :
    LossyTier (tier.kvTier digest) (tier.readable digest contents) (tier.Fits digest codec fits) where
  keyed state key entry present := by
    obtain ⟨stored, held, found⟩ := Option.bind_eq_some_iff.mp present
    exact (decoded_key found).trans (laws.keyed state key stored held)
  got state key answer answered := by
    obtain ⟨below, read, rfl⟩ := get_answers (settled_ok.mp answered)
    rw [laws.got state key below read]
    rfl
  get state key := readable_congr ((congrArg contents (get_tier state key)).trans (laws.get state key))
  put state entry accepted := by
    have stored : tier.put digest entry state = (.ok (), (tier.put digest entry state).2) :=
      Prod.ext (settled_ok.mp accepted) rfl
    obtain ⟨frame, framing, below⟩ := put_ok writes stored
    obtain ⟨kept, possible, updated⟩ := laws.put state _ (by rw [below])
    rw [below] at updated
    refine ⟨kept.bind (tier.decoded digest), ?_, readable_update updated⟩
    rcases possible with rfl | rfl
    · exact Or.inl rfl
    · show tier.decoded digest _ = none ∨ tier.decoded digest _ = some entry
      rw [decoded_frame writes roundTrips framing]
      split
      · exact Or.inr rfl
      · exact Or.inl rfl
  putFits state entry fit accepted := by
    have stored : tier.put digest entry state = (.ok (), (tier.put digest entry state).2) :=
      Prod.ext (settled_ok.mp accepted) rfl
    obtain ⟨frame, framing, below⟩ := put_ok writes stored
    have updated := laws.putFits state _ (fit.2 frame framing) (by rw [below])
    rw [below] at updated
    have read : (some (⟨⟨entry.block.key, frame⟩, entry.expiresAt, entry.pinned⟩ : KvTierEntry)).bind
        (tier.decoded digest) = some entry := by
      rw [Option.bind_some, decoded_frame writes roundTrips framing, if_pos fit.1]
    exact (readable_update updated).trans (by rw [read])
  putFailed state entry error refused := by
    obtain ⟨fault, failed⟩ := settled_error refused
    exact readable_congr (put_failed laws failed)
  remove state key removed := readable_update (laws.remove state key removed)
  removeFailed state key error refused := readable_congr (laws.removeFailed state key error refused)
  clear state cleared := by
    funext key
    show (contents (tier.inner.clear state).2 key).bind _ = none
    rw [laws.clear state cleared]
    rfl
  clearFailed state error refused := readable_congr (laws.clearFailed state error refused)
  health state := readable_congr (laws.health state)

end CodecKvTier

end RivetCache
