/-
**The blocks of a token sequence.**

`block_keys` cuts the tokens into blocks. The digest in a key is of all tokens up to the end of its
block, so a key stands for a prefix and not for the tokens of one block.

* `tiled`: the blocks are numbered from zero and tile the tokens, all but the last of full length;
* `blockKeys_shared`: two sequences share the key of a block where they agree up to its end.
-/

import RivetCache.Kv.Identity
import RivetCache.Library.Interval

set_option linter.unusedSectionVars false

namespace RivetCache

open Library

/-- The tokens of a block, as an interval. -/
def KvBlockKey.interval (key : KvBlockKey) : Nat × Nat :=
  (key.tokenStart.toNat, key.tokenStart.toNat + key.tokenCount.toNat)

namespace KvCaptureRequest

variable {digest : Digest} {request : KvCaptureRequest} {keys : List KvBlockKey}

/-! ### Cutting -/

/-- Where block number `index` begins: behind `index` full blocks, or at the end. -/
def cutPoint (request : KvCaptureRequest) (index : Nat) : Nat :=
  min (index * request.blockTokens) request.tokens.length

/-- **The key of block number `index`**, with the values the fields stand for. -/
structure ExactKey (digest : Digest) (request : KvCaptureRequest) (index : Nat) (key : KvBlockKey) :
    Prop where
  blockIndex : key.blockIndex.toNat = index
  tokenStart : key.tokenStart.toNat = index * request.blockTokens
  interval : key.interval = (request.cutPoint index, request.cutPoint (index + 1))
  sequenceHash : key.sequenceHash =
    digest (sequenceBytes (request.tokens.take (request.cutPoint (index + 1))))
  modelFingerprint : key.modelFingerprint = request.modelFingerprint
  layerStart : key.layerStart = request.layerStart
  layerCount : key.layerCount = request.layerCount
  layoutVersion : key.layoutVersion = request.layoutVersion

/-- What the checks of `block_keys` have established. -/
structure Accepted (digest : Digest) (request : KvCaptureRequest) (keys : List KvBlockKey) : Prop where
  blockTokens : 0 < request.blockTokens
  tokens : request.tokens.length < 2 ^ 32
  blocks : request.blockCount < 2 ^ 32
  keys : keys = (List.range request.blockCount).map (request.blockKey digest)

theorem accepted (cut : request.blockKeys digest = .ok keys) : Accepted digest request keys := by
  unfold blockKeys at cut
  split_ifs at cut with zero _ long many
  cases cut
  exact ⟨Nat.pos_of_ne_zero zero, by omega, by omega, rfl⟩

namespace Accepted

/-- A block is not empty: it begins before the end. -/
theorem starts_inside (accepted : Accepted digest request keys) {index : Nat}
    (inside : index < request.blockCount) :
    index * request.blockTokens < request.tokens.length := by
  have positive := accepted.blockTokens
  have enough := (Nat.le_div_iff_mul_le positive).mp (Nat.succ_le_of_lt inside)
  rw [Nat.succ_mul] at enough
  omega

/-- The blocks reach the end. -/
theorem covers (accepted : Accepted digest request keys) :
    request.tokens.length ≤ request.blockCount * request.blockTokens := by
  have positive := accepted.blockTokens
  have least := Nat.lt_mul_div_succ (request.tokens.length + request.blockTokens - 1) positive
  change _ < request.blockTokens * (request.blockCount + 1) at least
  rw [Nat.mul_add, Nat.mul_one, Nat.mul_comm] at least
  omega

theorem chunk_length (index : Nat) :
    (request.chunk index).length =
      min request.blockTokens (request.tokens.length - index * request.blockTokens) := by
  unfold chunk
  rw [List.length_take, List.length_drop]

/-- **One round of the loop** makes the key of its block: nothing saturates, and nothing is truncated. -/
theorem exactKey (accepted : Accepted digest request keys) {index : Nat}
    (inside : index < request.blockCount) :
    ExactKey digest request index (request.blockKey digest index) := by
  have starts := accepted.starts_inside inside
  have short := accepted.tokens
  have few := accepted.blocks
  have chunk : (request.chunk index).length = _ := chunk_length index
  have start : satMul index request.blockTokens = index * request.blockTokens :=
    Nat.min_eq_left (by unfold u64Max; omega)
  have finish : satAdd (index * request.blockTokens) (request.chunk index).length =
      request.cutPoint (index + 1) := by
    rw [satAdd_of_le (by unfold u64Max; omega)]
    unfold cutPoint
    rw [Nat.succ_mul]
    omega
  have here : request.cutPoint index = index * request.blockTokens := Nat.min_eq_left starts.le
  have word {n : Nat} (small : n < 2 ^ 32) : (UInt32.ofNat n).toNat = n := by
    rw [UInt32.toNat_ofNat', Nat.mod_eq_of_lt small]
  unfold blockKey KvBlockKey.fromPrefix
  dsimp only
  rw [start, finish]
  refine ⟨word (by omega), word (by omega), ?_, rfl, rfl, rfl, rfl, rfl⟩
  show (_, _) = _
  dsimp only
  rw [word (by omega), word (by omega), ← finish, satAdd_of_le (by unfold u64Max; omega), here]

theorem length (accepted : Accepted digest request keys) : keys.length = request.blockCount := by
  rw [accepted.keys, List.length_map, List.length_range]

theorem key (accepted : Accepted digest request keys) {index : Nat} (inside : index < keys.length) :
    ExactKey digest request index keys[index] := by
  obtain rfl := accepted.keys
  rw [List.getElem_map, List.getElem_range]
  rw [accepted.length] at inside
  exact accepted.exactKey inside

end Accepted

/-! ### Tiling -/

/-- **The keys tile the tokens**: they are numbered from zero, their blocks follow one another from the
first token to the last, and all but the last are full. -/
structure Tiled (digest : Digest) (request : KvCaptureRequest) (keys : List KvBlockKey) : Prop where
  exact : ∀ (index : Nat) (inside : index < keys.length), ExactKey digest request index keys[index]
  tiles : Tiles 0 (keys.map KvBlockKey.interval) request.tokens.length
  full : ∀ (index : Nat) (inside : index < keys.length), index + 1 < keys.length →
    keys[index].tokenCount.toNat = request.blockTokens
  filled : ∀ key ∈ keys, 0 < key.tokenCount.toNat

theorem tiled (cut : request.blockKeys digest = .ok keys) : Tiled digest request keys := by
  have accepted := accepted cut
  have increasing : ∀ index, index < request.blockCount →
      request.cutPoint index < request.cutPoint (index + 1) := by
    intro index inside
    have starts := accepted.starts_inside inside
    have positive := accepted.blockTokens
    unfold cutPoint
    rw [Nat.succ_mul]
    omega
  have size {index : Nat} (inside : index < keys.length) :
      keys[index].tokenCount.toNat = request.cutPoint (index + 1) - request.cutPoint index := by
    have ends := (accepted.key inside).interval
    unfold KvBlockKey.interval at ends
    rw [Prod.mk.injEq] at ends
    omega
  refine ⟨fun index inside => accepted.key inside, ?_, fun index inside more => ?_, fun key there => ?_⟩
  · have cuts := @tiles_cut request.cutPoint 0 request.blockCount
      fun index _ below => increasing index (by omega)
    have first : request.cutPoint 0 = 0 := by
      unfold cutPoint
      omega
    have last : request.cutPoint (0 + request.blockCount) = request.tokens.length := by
      rw [Nat.zero_add]
      exact Nat.min_eq_right accepted.covers
    rw [first, last, ← List.range_eq_range'] at cuts
    have intervals : keys.map KvBlockKey.interval = (List.range request.blockCount).map fun index =>
        (request.cutPoint index, request.cutPoint (index + 1)) := by
      rw [accepted.keys, List.map_map]
      refine List.map_congr_left fun index inside => ?_
      exact (accepted.exactKey (List.mem_range.mp inside)).interval
    rwa [intervals]
  · rw [size inside]
    rw [accepted.length] at inside more
    have next := accepted.starts_inside more
    have starts := accepted.starts_inside inside
    unfold cutPoint
    rw [Nat.min_eq_left next.le, Nat.min_eq_left starts.le, Nat.succ_mul]
    omega
  · obtain ⟨index, inside, rfl⟩ := List.mem_iff_getElem.mp there
    rw [size inside]
    rw [accepted.length] at inside
    have := increasing index inside
    omega

/-! ### Sharing -/

/-- What is hashed for the prefixes of a request. -/
def prefixInputs (request : KvCaptureRequest) : Set (List UInt8) :=
  {bytes | ∃ taken, taken <+: request.tokens ∧ bytes = sequenceBytes taken}

/-- Two requests that differ in their tokens alone. -/
structure Alike (request other : KvCaptureRequest) : Prop where
  modelFingerprint : request.modelFingerprint = other.modelFingerprint
  layerStart : request.layerStart = other.layerStart
  layerCount : request.layerCount = other.layerCount
  layoutVersion : request.layoutVersion = other.layoutVersion
  blockTokens : request.blockTokens = other.blockTokens

/-- **A key is shared** by two sequences that agree up to the end of its block, where the blocks have
the same length: and by no others, where the digest has no collision among their prefixes. -/
theorem blockKeys_shared {other : KvCaptureRequest} {others : List KvBlockKey}
    (cut : request.blockKeys digest = .ok keys) (otherCut : other.blockKeys digest = .ok others)
    (alike : Alike request other)
    (collisionFree : Set.InjOn digest (request.prefixInputs ∪ other.prefixInputs))
    {index : Nat} (inside : index < keys.length) (otherInside : index < others.length) :
    keys[index] = others[index] ↔
      request.tokens.take keys[index].interval.2 = other.tokens.take others[index].interval.2 ∧
        keys[index].tokenCount = others[index].tokenCount := by
  have here := (accepted cut).key inside
  have there := (accepted otherCut).key otherInside
  have short := (accepted cut).tokens
  have otherShort := (accepted otherCut).tokens
  have hash := here.sequenceHash
  have otherHash := there.sequenceHash
  rw [show request.cutPoint (index + 1) = keys[index].interval.2 by rw [here.interval]] at hash
  rw [show other.cutPoint (index + 1) = others[index].interval.2 by rw [there.interval]] at otherHash
  constructor
  · intro same
    refine ⟨?_, by rw [same]⟩
    rw [same, otherHash] at hash
    have inputs := collisionFree (Or.inr ⟨_, List.take_prefix _ _, rfl⟩)
      (Or.inl ⟨_, List.take_prefix _ _, rfl⟩) hash
    rw [same]
    refine (sequenceBytes_inj ?_ ?_ inputs).symm
    · rw [List.length_take]
      omega
    · rw [List.length_take]
      omega
  · rintro ⟨agree, counts⟩
    have starts := here.tokenStart.trans (alike.blockTokens ▸ there.tokenStart.symm)
    have indices := here.blockIndex.trans there.blockIndex.symm
    have hashes := hash.trans (agree ▸ otherHash.symm)
    have models := here.modelFingerprint.trans (alike.modelFingerprint.trans there.modelFingerprint.symm)
    have layers := here.layerStart.trans (alike.layerStart.trans there.layerStart.symm)
    have layerCounts := here.layerCount.trans (alike.layerCount.trans there.layerCount.symm)
    have layouts := here.layoutVersion.trans (alike.layoutVersion.trans there.layoutVersion.symm)
    generalize keys[index] = key at *
    generalize others[index] = otherKey at *
    cases key
    cases otherKey
    dsimp only at starts indices hashes models layers layerCounts layouts counts
    rw [models, hashes, UInt32.toNat.inj indices, UInt32.toNat.inj starts, counts, layers, layerCounts,
      layouts]

/-- **Block keys tile their sequence, and are shared exactly along common prefixes.** -/
theorem blockKeys_tile_and_share (digest : Digest) :
    (∀ (request : KvCaptureRequest) (keys : List KvBlockKey), request.blockKeys digest = .ok keys →
      Tiled digest request keys) ∧
    (∀ (request other : KvCaptureRequest) (keys others : List KvBlockKey),
      request.blockKeys digest = .ok keys → other.blockKeys digest = .ok others → Alike request other →
      Set.InjOn digest (request.prefixInputs ∪ other.prefixInputs) →
      ∀ (index : Nat) (inside : index < keys.length) (otherInside : index < others.length),
        (keys[index] = others[index] ↔
          request.tokens.take keys[index].interval.2 = other.tokens.take others[index].interval.2 ∧
            keys[index].tokenCount = others[index].tokenCount)) :=
  ⟨fun _ _ cut => tiled cut, fun _ _ _ _ cut otherCut alike collisionFree _ inside otherInside =>
    blockKeys_shared cut otherCut alike collisionFree inside otherInside⟩

/-- One token, in blocks of one. -/
def oneToken (token : UInt32) : KvCaptureRequest where
  modelFingerprint := "a"
  tokens := [token]
  blockTokens := 1
  layerStart := 0
  layerCount := 1
  layoutVersion := 1

/-- The SHA-256 digests of what is hashed for no token, for the token 1 and for the token 2. -/
def tokenDigest : Digest := fun bytes =>
  if bytes = sequenceBytes [] then
    ⟨#[88, 248, 70, 4, 166, 224, 196, 251, 78, 88, 246, 97, 186, 138, 38, 143, 197, 143, 70, 126, 63,
      177, 138, 34, 231, 134, 6, 250, 17, 18, 248, 37], rfl⟩
  else if bytes = sequenceBytes [1] then
    ⟨#[72, 58, 26, 6, 15, 30, 52, 20, 148, 140, 100, 181, 147, 122, 159, 227, 120, 227, 190, 116, 144,
      152, 146, 100, 40, 62, 76, 178, 18, 55, 120, 121], rfl⟩
  else
    ⟨#[10, 120, 191, 238, 247, 25, 72, 245, 235, 75, 20, 147, 234, 32, 209, 224, 94, 202, 83, 17, 89,
      108, 210, 0, 61, 168, 81, 14, 154, 116, 128, 44], rfl⟩

/-- Different tokens, different keys. -/
theorem blockKeys_tile_and_share_tokens :
    Tiled tokenDigest (oneToken 1) [(oneToken 1).blockKey tokenDigest 0] ∧
      (oneToken 1).blockKey tokenDigest 0 ≠ (oneToken 2).blockKey tokenDigest 0 := by
  obtain ⟨tile, share⟩ := blockKeys_tile_and_share tokenDigest
  have cut (token : UInt32) : (oneToken token).blockKeys tokenDigest =
      .ok [(oneToken token).blockKey tokenDigest 0] := by
    have one : (oneToken token).blockCount = 1 := Nat.div_one _
    unfold blockKeys
    rw [one]
    have layers : (1 : UInt32) ≠ 0 := by decide
    exact (if_neg Nat.one_ne_zero).trans (if_neg layers)
  have inputs : (oneToken 1).prefixInputs ∪ (oneToken 2).prefixInputs ⊆
      {sequenceBytes [], sequenceBytes [1], sequenceBytes [2]} := by
    rintro _ (⟨taken, inside, rfl⟩ | ⟨taken, inside, rfl⟩)
    · rcases List.prefix_cons_iff.mp inside with rfl | ⟨rest, rfl, empty⟩
      · exact Or.inl rfl
      · rw [List.prefix_nil.mp empty]
        exact Or.inr (Or.inl rfl)
    · rcases List.prefix_cons_iff.mp inside with rfl | ⟨rest, rfl, empty⟩
      · exact Or.inl rfl
      · rw [List.prefix_nil.mp empty]
        exact Or.inr (Or.inr rfl)
  have collisionFree : Set.InjOn tokenDigest
      {sequenceBytes [], sequenceBytes [1], sequenceBytes [2]} := by
    rintro _ (rfl | rfl | rfl) _ (rfl | rfl | rfl) digests <;>
      first
        | rfl
        | exact absurd digests (by decide)
  refine ⟨tile _ _ (cut 1), fun same => ?_⟩
  have shared := share _ _ _ _ (cut 1) (cut 2) ⟨rfl, rfl, rfl, rfl, rfl⟩
    (collisionFree.mono inputs) 0 (by decide) (by decide)
  have tokens := (shared.mp same).1
  exact absurd tokens (by decide)

end KvCaptureRequest

end RivetCache
