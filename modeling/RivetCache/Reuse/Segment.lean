/-
**What `best_segment` answers.**

A span is made of complete blocks of a record that lie inside a common run of the query and the tokens of
the record, each block starting where the one before it ends (`Tiles`).

* `bestSegment_sound`: the tokens the span promises are those of the query, its keys tile exactly the
  source range it names, and it is long enough;
* `bestSegment_best`: no run of complete blocks inside the first longest common run of a record is longer;
* `blocks_outside_longest_run`: a run of blocks elsewhere in the query is not looked for.
-/

import RivetCache.Reuse.Search

set_option linter.unusedSectionVars false

namespace RivetCache

open Library

/-! ### Blocks that tile a range -/

/-- The first block starts at `low`, each next one where the one before it ends, the last ends at `high`. -/
def Tiles : Nat → List KvBlockKey → Nat → Prop
  | low, [], high => low = high
  | low, key :: rest, high =>
      key.tokenStart.toNat = low ∧ Tiles (low + key.tokenCount.toNat) rest high

/-- The end of a block does not saturate. -/
theorem satAdd_block (key : KvBlockKey) :
    satAdd key.tokenStart.toNat key.tokenCount.toNat =
      key.tokenStart.toNat + key.tokenCount.toNat := by
  have start := key.tokenStart.toNat_lt
  have count := key.tokenCount.toNat_lt
  refine satAdd_of_le ?_
  unfold u64Max
  omega

namespace Tiles

variable {low high : Nat} {keys : List KvBlockKey} {key : KvBlockKey}

theorem low_le_high (tiles : Tiles low keys high) : low ≤ high := by
  induction keys generalizing low with
  | nil => exact le_of_eq tiles
  | cons first rest ih => exact (Nat.le_add_right _ _).trans (ih tiles.2)

/-- A block lies inside the range. -/
theorem inside (tiles : Tiles low keys high) (mem : key ∈ keys) :
    low ≤ key.tokenStart.toNat ∧ key.tokenStart.toNat + key.tokenCount.toNat ≤ high := by
  induction keys generalizing low with
  | nil => cases mem
  | cons first rest ih =>
      obtain ⟨start, later⟩ := tiles
      rcases List.mem_cons.mp mem with rfl | deeper
      · exact ⟨start.ge, start ▸ later.low_le_high⟩
      · obtain ⟨after, before⟩ := ih later deeper
        exact ⟨(Nat.le_add_right _ _).trans after, before⟩

/-- The range ends where the last block does. -/
theorem last (tiles : Tiles low keys high) (final : keys.getLast? = some key) :
    high = key.tokenStart.toNat + key.tokenCount.toNat := by
  induction keys generalizing low with
  | nil => cases final
  | cons first rest ih =>
      obtain ⟨start, later⟩ := tiles
      cases rest with
      | nil =>
          have same : first = key := Option.some.inj final
          rw [← same, start]
          exact Eq.symm later
      | cons second rest => exact ih later (by rwa [List.getLast?_cons_cons] at final)

theorem sorted (tiles : Tiles low keys high) : keys.Pairwise startsBefore := by
  induction keys generalizing low with
  | nil => exact List.Pairwise.nil
  | cons first rest ih =>
      obtain ⟨start, later⟩ := tiles
      refine List.pairwise_cons.mpr ⟨fun other mem => ?_, ih later⟩
      have after := (later.inside mem).1
      show first.tokenStart ≤ other.tokenStart
      rw [UInt32.le_iff_toNat_le]
      omega

/-- All blocks are taken. -/
theorem takeContiguous (tiles : Tiles low keys high) : RivetCache.takeContiguous low keys = keys := by
  induction keys generalizing low with
  | nil => rfl
  | cons first rest ih =>
      obtain ⟨rfl, later⟩ := tiles
      unfold RivetCache.takeContiguous
      rw [if_neg (fun different => different rfl), satAdd_block, ih later]

/-- **The blocks inside a part** of the range tile a range. From the first of them on, they are the blocks
up to the end of that part. -/
theorem blocksInside (tiles : Tiles low keys high) (least most : Nat) :
    ∃ low' high', Tiles low' (blocksInside least most keys) high' ∧ (least ≤ low → low' = low) := by
  induction keys generalizing low with
  | nil => exact ⟨low, low, rfl, fun _ => rfl⟩
  | cons first rest ih =>
      obtain ⟨start, later⟩ := tiles
      obtain ⟨low', high', tail, next⟩ := ih later
      unfold RivetCache.blocksInside
      rw [List.filter_cons]
      split
      case isTrue kept =>
        simp only [Bool.and_eq_true, decide_eq_true_eq] at kept
        have joined := next (by omega)
        exact ⟨low, high', ⟨start, joined ▸ tail⟩, fun _ => rfl⟩
      case isFalse dropped =>
        simp only [Bool.and_eq_true, decide_eq_true_eq, satAdd_block, not_and] at dropped
        by_cases before : least ≤ low
        · -- the first block ends too far on, and so do those after it
          have none_left : RivetCache.blocksInside least most rest = [] := by
            refine List.filter_eq_nil_iff.mpr fun other mem => ?_
            have after := (later.inside mem).1
            have beyond := dropped (by omega)
            simp only [Bool.and_eq_true, decide_eq_true_eq, satAdd_block]
            omega
          exact ⟨low, low, by rw [show List.filter _ rest = [] from none_left]; rfl, fun _ => rfl⟩
        · exact ⟨low', high', tail, fun least_le => absurd least_le before⟩

end Tiles

/-- What the loop takes tiles a range. -/
theorem takeContiguous_tiles (expected : Nat) (keys : List KvBlockKey) :
    ∃ high, Tiles expected (takeContiguous expected keys) high := by
  induction keys generalizing expected with
  | nil => exact ⟨expected, rfl⟩
  | cons key rest ih =>
      unfold takeContiguous
      split
      case isTrue => exact ⟨expected, rfl⟩
      case isFalse same =>
        have start : key.tokenStart.toNat = expected := not_not.mp same
        rw [← start, satAdd_block]
        obtain ⟨high, tiles⟩ := ih (key.tokenStart.toNat + key.tokenCount.toNat)
        exact ⟨high, rfl, tiles⟩

theorem takeContiguous_sublist (expected : Nat) (keys : List KvBlockKey) :
    (takeContiguous expected keys).Sublist keys := by
  induction keys generalizing expected with
  | nil => exact List.Sublist.slnil
  | cons key rest ih =>
      unfold takeContiguous
      split
      · exact List.nil_sublist _
      · exact (ih _).cons_cons key

/-! ### Alignment -/

/-- The blocks of a record inside a range of its tokens, in order. -/
def SegmentRecord.inside (record : SegmentRecord) (raw : RawMatch) : List KvBlockKey :=
  (blocksInside raw.sourceStart (raw.sourceStart + raw.len) record.blockKeys).insertionSort startsBefore

theorem SegmentRecord.mem_inside {record : SegmentRecord} {raw : RawMatch} {key : KvBlockKey} :
    key ∈ record.inside raw ↔
      key ∈ record.blockKeys ∧ raw.sourceStart ≤ key.tokenStart.toNat ∧
        key.tokenStart.toNat + key.tokenCount.toNat ≤ raw.sourceStart + raw.len := by
  unfold SegmentRecord.inside
  rw [(List.perm_insertionSort startsBefore _).mem_iff]
  unfold blocksInside
  simp [satAdd_block]

/-- **What `align_to_blocks` answers**, where there is a block inside the match. -/
structure Aligned (record : SegmentRecord) (raw : RawMatch) (span : ReuseSpan) : Prop where
  tiles : Tiles span.sourceStart span.sourceKeys (span.sourceStart + span.matchedTokens)
  first : ∃ key rest, record.inside raw = key :: rest ∧ span.sourceStart = key.tokenStart.toNat ∧
    span.sourceKeys = takeContiguous key.tokenStart.toNat (key :: rest)
  queryStart : span.queryStart = satAdd raw.queryStart (span.sourceStart - raw.sourceStart)

theorem alignToBlocks_cons {record : SegmentRecord} {raw : RawMatch}
    (short : raw.sourceStart + raw.len ≤ u64Max) {key : KvBlockKey} {rest : List KvBlockKey}
    (blocks : record.inside raw = key :: rest) :
    ∃ span, alignToBlocks record raw = some span ∧ Aligned record raw span := by
  obtain ⟨high, tiles⟩ := takeContiguous_tiles key.tokenStart.toNat (key :: rest)
  have taken : takeContiguous key.tokenStart.toNat (key :: rest) =
      key :: takeContiguous (satAdd key.tokenStart.toNat key.tokenCount.toNat) rest := by
    rw [takeContiguous, if_neg (fun different => different rfl)]
  cases final : (takeContiguous key.tokenStart.toNat (key :: rest)).getLast? with
  | none =>
      rw [taken] at final
      simp at final
  | some last =>
      have ending := tiles.last final
      have order := tiles.low_le_high
      refine ⟨⟨satAdd raw.queryStart (key.tokenStart.toNat - raw.sourceStart), key.tokenStart.toNat,
        last.tokenStart.toNat + last.tokenCount.toNat - key.tokenStart.toNat,
        takeContiguous key.tokenStart.toNat (key :: rest)⟩, ?_, ?_, ⟨key, rest, blocks, rfl, rfl⟩, rfl⟩
      · have head : (takeContiguous key.tokenStart.toNat (key :: rest)).head? = some key := by
          rw [taken]
          rfl
        unfold SegmentRecord.inside at blocks
        unfold alignToBlocks
        simp only [if_neg (Nat.not_lt.mpr short), blocks, head, final]
      · show Tiles key.tokenStart.toNat (takeContiguous key.tokenStart.toNat (key :: rest))
          (key.tokenStart.toNat +
            (last.tokenStart.toNat + last.tokenCount.toNat - key.tokenStart.toNat))
        rw [← ending, Nat.add_sub_cancel' order]
        exact tiles

theorem alignToBlocks_some {record : SegmentRecord} {raw : RawMatch} {span : ReuseSpan}
    (aligned : alignToBlocks record raw = some span) : Aligned record raw span := by
  have short : raw.sourceStart + raw.len ≤ u64Max := by
    by_contra long
    unfold alignToBlocks at aligned
    rw [if_pos (by omega)] at aligned
    cases aligned
  cases blocks : record.inside raw with
  | nil =>
      unfold SegmentRecord.inside at blocks
      unfold alignToBlocks at aligned
      simp only [if_neg (Nat.not_lt.mpr short), blocks] at aligned
      cases aligned
  | cons key rest =>
      obtain ⟨other, answered, holds⟩ := alignToBlocks_cons short blocks
      rw [answered] at aligned
      cases aligned
      exact holds

/-! ### Soundness -/

/-- **A span that may be restored**: the tokens it promises are those of the query, and its keys are
blocks of the record that tile exactly its source range. -/
structure ReuseSpan.Sound (query : Tokens) (record : SegmentRecord) (span : ReuseSpan) : Prop where
  agree : Agree query.val record.tokens.val span.queryStart span.sourceStart span.matchedTokens
  keys : ∀ key ∈ span.sourceKeys, key ∈ record.blockKeys
  tiles : Tiles span.sourceStart span.sourceKeys (span.sourceStart + span.matchedTokens)

variable {query : Tokens} {record : SegmentRecord} {raw : RawMatch} {span : ReuseSpan}

namespace Aligned

/-- A key of the span is a block inside the match. -/
theorem mem (aligned : Aligned record raw span) {key : KvBlockKey} (mem : key ∈ span.sourceKeys) :
    key ∈ record.blockKeys ∧ raw.sourceStart ≤ key.tokenStart.toNat ∧
      key.tokenStart.toNat + key.tokenCount.toNat ≤ raw.sourceStart + raw.len := by
  obtain ⟨first, rest, blocks, _, taken⟩ := aligned.first
  rw [taken] at mem
  have inside := (takeContiguous_sublist _ _).subset mem
  rw [← blocks] at inside
  exact SegmentRecord.mem_inside.mp inside

/-- The span lies inside the match. -/
theorem bounds (aligned : Aligned record raw span) :
    raw.sourceStart ≤ span.sourceStart ∧
      span.sourceStart + span.matchedTokens ≤ raw.sourceStart + raw.len := by
  obtain ⟨first, rest, blocks, start, taken⟩ := aligned.first
  rw [takeContiguous, if_neg (fun different => different rfl)] at taken
  have first_inside := aligned.mem (taken ▸ List.mem_cons_self)
  cases final : span.sourceKeys.getLast? with
  | none =>
      rw [taken] at final
      simp at final
  | some last =>
      have last_inside := aligned.mem (List.mem_of_getLast? final)
      rw [aligned.tiles.last final, start]
      exact ⟨first_inside.2.1, last_inside.2.2⟩

/-- What is aligned inside a common run is sound. -/
theorem sound (aligned : Aligned record raw span)
    (agree : Agree query.val record.tokens.val raw.queryStart raw.sourceStart raw.len) :
    span.Sound query record := by
  obtain ⟨low, high⟩ := aligned.bounds
  refine ⟨?_, fun key mem => (aligned.mem mem).1, aligned.tiles⟩
  have part := agree.part (span.sourceStart - raw.sourceStart) span.matchedTokens (by omega)
  rw [Nat.add_sub_cancel' low] at part
  have room := part.inLeft
  have size := query.property
  rw [aligned.queryStart, satAdd_of_le (by unfold u64Max; omega)]
  exact part

end Aligned

/-- What the loop of `best_segment` offers of one record. -/
def SegmentRecord.candidate (record : SegmentRecord) (query : Tokens) (minMatchTokens : Nat) :
    Option ReuseSpan :=
  match longestCommonSubstring query.val record.tokens.val with
  | none => none
  | some raw =>
      if raw.len < minMatchTokens then none
      else (alignToBlocks record raw).filter fun span => decide (minMatchTokens ≤ span.matchedTokens)

/-- A candidate is aligned inside what the search found, and long enough. -/
theorem SegmentRecord.candidate_some {minMatchTokens : Nat} :
    record.candidate query minMatchTokens = some span ↔
      ∃ raw, longestCommonSubstring query.val record.tokens.val = some raw ∧
        minMatchTokens ≤ raw.len ∧ alignToBlocks record raw = some span ∧
          minMatchTokens ≤ span.matchedTokens := by
  unfold SegmentRecord.candidate
  cases longestCommonSubstring query.val record.tokens.val with
  | none => simp
  | some raw =>
      by_cases short : raw.len < minMatchTokens
      · simp [short]
      · simp only [if_neg short, Option.filter_eq_some_iff, decide_eq_true_eq, Option.some.injEq,
          exists_eq_left', Nat.not_lt.mp short, true_and]

namespace SegmentIndex

variable {minMatchTokens : Nat} {best : Option ReuseSpan}

/-- The body of the loop replaces the best span by the candidate of the record, or not. -/
theorem consider_eq (query : Tokens) (minMatchTokens : Nat) (best : Option ReuseSpan)
    (record : SegmentRecord) :
    consider query minMatchTokens best record =
      match record.candidate query minMatchTokens with
      | none => best
      | some span => if span.replaces best then some span else best := by
  unfold consider SegmentRecord.candidate
  cases longestCommonSubstring query.val record.tokens.val with
  | none => rfl
  | some raw =>
      dsimp only
      split
      · rfl
      · cases alignToBlocks record raw with
        | none => rfl
        | some span =>
            by_cases long : minMatchTokens ≤ span.matchedTokens
            · simp [Option.filter, long, Nat.not_lt.mpr long]
            · simp [Option.filter, long, Nat.not_le.mp long]

/-- A span is the best one so far, or it is offered now. -/
theorem consider_from (done : consider query minMatchTokens best record = some span) :
    best = some span ∨ record.candidate query minMatchTokens = some span := by
  rw [consider_eq] at done
  cases offered : record.candidate query minMatchTokens with
  | none =>
      rw [offered] at done
      exact Or.inl done
  | some other =>
      rw [offered] at done
      dsimp only at done
      split at done
      · exact Or.inr done
      · exact Or.inl done

/-- The best span so far is given up for a longer one only. -/
theorem consider_keeps (query : Tokens) (minMatchTokens : Nat) (record : SegmentRecord)
    (current : ReuseSpan) :
    ∃ span, consider query minMatchTokens (some current) record = some span ∧
      current.matchedTokens ≤ span.matchedTokens := by
  rw [consider_eq]
  cases record.candidate query minMatchTokens with
  | none => exact ⟨current, rfl, Nat.le_refl _⟩
  | some span =>
      dsimp only
      split
      case isTrue better =>
        refine ⟨span, rfl, ?_⟩
        simp only [ReuseSpan.replaces, Bool.or_eq_true, Bool.and_eq_true, decide_eq_true_eq,
          beq_iff_eq] at better
        omega
      case isFalse => exact ⟨current, rfl, Nat.le_refl _⟩

/-- What a record offers is taken, or what is kept is as long. -/
theorem consider_offers (best : Option ReuseSpan)
    (offered : record.candidate query minMatchTokens = some span) :
    ∃ kept, consider query minMatchTokens best record = some kept ∧
      span.matchedTokens ≤ kept.matchedTokens := by
  rw [consider_eq, offered]
  dsimp only
  split
  case isTrue => exact ⟨span, rfl, Nat.le_refl _⟩
  case isFalse worse =>
    cases best with
    | none => exact absurd rfl worse
    | some current =>
        refine ⟨current, rfl, ?_⟩
        simp only [ReuseSpan.replaces, Bool.or_eq_true, decide_eq_true_eq, not_or] at worse
        omega

/-! ### The loop over the records -/

theorem fold_from (records : List SegmentRecord)
    (done : records.foldl (consider query minMatchTokens) best = some span) :
    best = some span ∨ ∃ record ∈ records, record.candidate query minMatchTokens = some span := by
  induction records generalizing best with
  | nil => exact Or.inl done
  | cons record rest ih =>
      rcases ih done with first | ⟨other, mem, offered⟩
      · rcases consider_from first with before | now
        · exact Or.inl before
        · exact Or.inr ⟨record, List.mem_cons_self, now⟩
      · exact Or.inr ⟨other, List.mem_cons_of_mem _ mem, offered⟩

theorem fold_keeps (query : Tokens) (minMatchTokens : Nat) (records : List SegmentRecord)
    (current : ReuseSpan) :
    ∃ span, records.foldl (consider query minMatchTokens) (some current) = some span ∧
      current.matchedTokens ≤ span.matchedTokens := by
  induction records generalizing current with
  | nil => exact ⟨current, rfl, Nat.le_refl _⟩
  | cons record rest ih =>
      obtain ⟨next, taken, longer⟩ := consider_keeps query minMatchTokens record current
      obtain ⟨span, answered, longest⟩ := ih next
      refine ⟨span, ?_, longer.trans longest⟩
      rw [List.foldl_cons, taken]
      exact answered

theorem fold_offers (best : Option ReuseSpan) (records : List SegmentRecord) (mem : record ∈ records)
    (offered : record.candidate query minMatchTokens = some span) :
    ∃ kept, records.foldl (consider query minMatchTokens) best = some kept ∧
      span.matchedTokens ≤ kept.matchedTokens := by
  induction records generalizing best with
  | nil => cases mem
  | cons first rest ih =>
      rcases List.mem_cons.mp mem with rfl | deeper
      · obtain ⟨next, taken, longer⟩ := consider_offers best offered
        obtain ⟨kept, answered, longest⟩ := fold_keeps query minMatchTokens rest next
        refine ⟨kept, ?_, longer.trans longest⟩
        rw [List.foldl_cons, taken]
        exact answered
      · exact ih _ deeper

/-- **A span that is answered** is the candidate of a record of that model. -/
theorem bestSegment_from {records : SegmentIndex} {modelFingerprint : String}
    (found : bestSegment modelFingerprint query minMatchTokens records = .ok (some span)) :
    ∃ record ∈ records, record.modelFingerprint = modelFingerprint ∧
      record.candidate query minMatchTokens = some span := by
  unfold bestSegment at found
  split_ifs at found
  · cases found
  · rcases fold_from _ (Except.ok.inj found) with nothing | ⟨record, mem, offered⟩
    · cases nothing
    · obtain ⟨inside, same⟩ := List.mem_filter.mp mem
      exact ⟨record, inside, beq_iff_eq.mp same, offered⟩

/-- **A span may be restored.** Of every index, whatever was registered and removed: a span that
`best_segment` answers is sound for a record of that model, and long enough. -/
theorem bestSegment_sound {records : SegmentIndex} {modelFingerprint : String}
    (found : bestSegment modelFingerprint query minMatchTokens records = .ok (some span)) :
    ∃ record ∈ records, record.modelFingerprint = modelFingerprint ∧ span.Sound query record ∧
      minMatchTokens ≤ span.matchedTokens := by
  obtain ⟨record, inside, same, offered⟩ := bestSegment_from found
  obtain ⟨raw, matched, _, aligned, long⟩ := SegmentRecord.candidate_some.mp offered
  exact ⟨record, inside, same,
    (alignToBlocks_some aligned).sound (longestCommonSubstring_agrees matched).2, long⟩

end SegmentIndex

/-! ### The blocks of a record -/

/-- The keys that `validate_record` accepts tile a range, where no position saturates. -/
theorem validateKeys_tiles {modelFingerprint : String} {tokens : Tokens} {first : KvBlockKey}
    (small : tokens.val.length < 2 ^ 32) {expectedStart : UInt32} {keys : List KvBlockKey}
    (valid : validateKeys modelFingerprint tokens first expectedStart keys = .ok ()) :
    ∃ high, Tiles expectedStart.toNat keys high := by
  induction keys generalizing expectedStart with
  | nil => exact ⟨_, rfl⟩
  | cons key rest ih =>
      unfold validateKeys at valid
      split_ifs at valid with identity beyond
      simp only [not_or, not_not] at identity
      rw [satAdd_block] at beyond
      obtain ⟨high, tiles⟩ := ih valid
      refine ⟨high, congrArg UInt32.toNat identity.2.2.2.2.2.2, ?_⟩
      have exact_end : (satAddU32 key.tokenStart key.tokenCount).toNat =
          expectedStart.toNat + key.tokenCount.toNat := by
        unfold satAddU32
        rw [← identity.2.2.2.2.2.2, UInt32.toNat_ofNat', Nat.min_eq_left (by omega),
          Nat.mod_eq_of_lt (by omega)]
      rwa [exact_end] at tiles

theorem SegmentRecord.tiles (record : SegmentRecord) (small : record.tokens.val.length < 2 ^ 32) :
    ∃ low high, Tiles low record.blockKeys high := by
  have valid := record.valid
  unfold validateRecord at valid
  split at valid
  case isTrue => cases valid
  case isFalse =>
    split at valid
    case h_1 => cases valid
    case h_2 first rest blocks =>
      obtain ⟨high, tiles⟩ := validateKeys_tiles small valid
      exact ⟨_, high, blocks ▸ tiles⟩

/-- **All blocks inside the match are taken**: they tile one range. -/
theorem SegmentRecord.inside_tiles (record : SegmentRecord)
    (small : record.tokens.val.length < 2 ^ 32) (raw : RawMatch) :
    ∃ low high, Tiles low (record.inside raw) high := by
  obtain ⟨low, high, tiles⟩ := record.tiles small
  obtain ⟨low', high', inside, _⟩ :=
    tiles.blocksInside raw.sourceStart (raw.sourceStart + raw.len)
  refine ⟨low', high', ?_⟩
  unfold SegmentRecord.inside
  rwa [inside.sorted.insertionSort_eq]

/-! ### The best of them -/

/-- A run of complete blocks of a record, of so many tokens, inside the first longest common run of the
query and its tokens. -/
def SegmentRecord.HasRun (record : SegmentRecord) (query : Tokens) (length : Nat) : Prop :=
  ∃ queryStart sourceStart len, Longest query.val record.tokens.val queryStart sourceStart len ∧
    ∃ keys low, keys ≠ [] ∧ (∀ key ∈ keys, key ∈ record.blockKeys) ∧
      Tiles low keys (low + length) ∧ sourceStart ≤ low ∧ low + length ≤ sourceStart + len

theorem Tokens.length_le (tokens : Tokens) : tokens.val.length ≤ u64Max := by
  have size := tokens.property
  unfold u64Max
  omega

/-- A candidate is such a run. -/
theorem SegmentRecord.candidate_run {minMatchTokens : Nat}
    (offered : record.candidate query minMatchTokens = some span) :
    record.HasRun query span.matchedTokens := by
  obtain ⟨raw, matched, _, answered, _⟩ := candidate_some.mp offered
  have aligned := alignToBlocks_some answered
  obtain ⟨low, high⟩ := aligned.bounds
  refine ⟨_, _, _, longestCommonSubstring_longest record.tokens.length_le matched,
    span.sourceKeys, span.sourceStart, ?_, fun key mem => (aligned.mem mem).1, aligned.tiles, low, high⟩
  obtain ⟨key, rest, _, _, taken⟩ := aligned.first
  rw [taken, takeContiguous, if_neg (fun different => different rfl)]
  exact List.cons_ne_nil _ _

/-- **The candidate is the longest such run.** -/
theorem SegmentRecord.run_candidate (small : record.tokens.val.length < 2 ^ 32) {length : Nat}
    (run : record.HasRun query length) {minMatchTokens : Nat} (long : minMatchTokens ≤ length) :
    ∃ span, record.candidate query minMatchTokens = some span ∧ length ≤ span.matchedTokens := by
  obtain ⟨queryStart, sourceStart, len, longest, keys, low, nonempty, blocks, tiles, least, most⟩ := run
  cases matched : longestCommonSubstring query.val record.tokens.val with
  | none =>
      have zero := longestCommonSubstring_none record.tokens.length_le matched longest.agree
      exact absurd zero longest.positive.ne'
  | some raw =>
      obtain ⟨_, rfl, rfl⟩ :=
        longest.unique (longestCommonSubstring_longest record.tokens.length_le matched)
      obtain ⟨low', high', whole⟩ := record.inside_tiles small raw
      -- every block of the run is among those inside the match
      have among : ∀ key ∈ keys, key ∈ record.inside raw := by
        intro key mem
        have bounds := tiles.inside mem
        exact mem_inside.mpr ⟨blocks key mem, by omega, by omega⟩
      cases inside : record.inside raw with
      | nil =>
          obtain ⟨key, mem⟩ := List.exists_mem_of_ne_nil keys nonempty
          have nowhere := among key mem
          rw [inside] at nowhere
          cases nowhere
      | cons first rest =>
          obtain ⟨span, answered, aligned⟩ := alignToBlocks_cons
            (longest.agree.inRight.trans record.tokens.length_le) inside
          rw [inside] at whole among
          have start : first.tokenStart.toNat = low' := whole.1
          obtain ⟨first', rest', inside', from_first, taken⟩ := aligned.first
          rw [inside] at inside'
          cases inside'
          rw [start, whole.takeContiguous] at taken
          have ends : span.sourceStart + span.matchedTokens = high' := by
            have spanned := aligned.tiles
            rw [taken] at spanned
            rw [spanned.last (List.getLast?_eq_getLast_of_ne_nil (List.cons_ne_nil first rest)),
              whole.last (List.getLast?_eq_getLast_of_ne_nil (List.cons_ne_nil first rest))]
          have begins : low' ≤ low := by
            obtain ⟨key, later, rfl⟩ := List.exists_cons_of_ne_nil nonempty
            rw [← tiles.1]
            exact (whole.inside (among key List.mem_cons_self)).1
          have finishes : low + length ≤ high' := by
            have final := List.getLast?_eq_getLast_of_ne_nil nonempty
            rw [tiles.last final]
            exact (whole.inside (among _ (List.getLast_mem nonempty))).2
          have enough : length ≤ span.matchedTokens := by omega
          exact ⟨span, candidate_some.mpr ⟨raw, matched, by omega, answered, by omega⟩, enough⟩

/-- **The longest run inside the first longest common runs is answered.** Over records of fewer than
`2 ^ 32` tokens, whose positions a block key can name. -/
theorem SegmentIndex.bestSegment_best (records : SegmentIndex) (modelFingerprint : String)
    (query : Tokens) {minMatchTokens : Nat} (positive : 0 < minMatchTokens)
    (small : ∀ record ∈ records, record.modelFingerprint = modelFingerprint →
      record.tokens.val.length < 2 ^ 32) :
    ∃ best, records.bestSegment modelFingerprint query minMatchTokens = .ok best ∧
      (∀ record ∈ records, record.modelFingerprint = modelFingerprint →
        ∀ length, record.HasRun query length → minMatchTokens ≤ length →
          ∃ span, best = some span ∧ length ≤ span.matchedTokens) ∧
      (∀ span, best = some span → minMatchTokens ≤ span.matchedTokens ∧
        ∃ record ∈ records, record.modelFingerprint = modelFingerprint ∧
          record.HasRun query span.matchedTokens) := by
  cases answered : records.bestSegment modelFingerprint query minMatchTokens with
  | error error =>
      unfold bestSegment at answered
      rw [if_neg (by omega)] at answered
      split at answered <;> cases answered
  | ok best =>
      refine ⟨best, rfl, ?_, ?_⟩
      · intro record mem same length run long
        obtain ⟨offer, offered, longer⟩ := record.run_candidate (small record mem same) run long
        have chosen : record ∈ records.filter fun record =>
            record.modelFingerprint == modelFingerprint :=
          List.mem_filter.mpr ⟨mem, beq_iff_eq.mpr same⟩
        obtain ⟨span, kept, longest⟩ := fold_offers none _ chosen offered
        refine ⟨span, ?_, longer.trans longest⟩
        -- a query that has a run is not empty
        have filled : query.val.isEmpty = false := by
          obtain ⟨_, _, _, agreed, _⟩ := run
          have positive := agreed.positive
          have inLeft := agreed.agree.inLeft
          rw [← Bool.not_eq_true, List.isEmpty_iff]
          intro empty
          rw [empty, List.length_nil] at inLeft
          omega
        unfold bestSegment at answered
        rw [if_neg (by omega), filled, if_neg Bool.false_ne_true, kept] at answered
        exact (Except.ok.inj answered).symm
      · rintro span rfl
        obtain ⟨record, mem, same, offered⟩ := bestSegment_from answered
        obtain ⟨_, _, _, _, long⟩ := SegmentRecord.candidate_some.mp offered
        exact ⟨long, record, mem, same, record.candidate_run offered⟩

/-! ### A block run elsewhere -/

/-- The key of three tokens. -/
def tripleKey (start : UInt32) : KvBlockKey :=
  ⟨"m", Vector.replicate 32 0, start / 3, start, 3, 0, 1, 1⟩

/-- Six tokens in two blocks. -/
def sixTokens : SegmentRecord where
  modelFingerprint := "m"
  tokens := ⟨[1, 2, 3, 4, 5, 6], by decide⟩
  blockKeys := [tripleKey 0, tripleKey 3]
  valid := by decide

/-- A query that holds the second block. -/
def secondBlock : Tokens := ⟨[9, 4, 5, 6], by decide⟩

theorem secondBlock_sound :
    SegmentIndex.bestSegment "m" secondBlock 3 [sixTokens] =
        .ok (some ⟨1, 3, 3, [tripleKey 3]⟩) ∧
      ∃ record ∈ [sixTokens], record.modelFingerprint = "m" ∧
        (⟨1, 3, 3, [tripleKey 3]⟩ : ReuseSpan).Sound secondBlock record ∧ 3 ≤ 3 := by
  have found : SegmentIndex.bestSegment "m" secondBlock 3 [sixTokens] =
      .ok (some ⟨1, 3, 3, [tripleKey 3]⟩) := by decide
  exact ⟨found, SegmentIndex.bestSegment_sound found⟩

theorem secondBlock_best :
    ∃ span, SegmentIndex.bestSegment "m" secondBlock 3 [sixTokens] = .ok (some span) ∧
      3 ≤ span.matchedTokens := by
  obtain ⟨best, answered, longest, _⟩ :=
    SegmentIndex.bestSegment_best [sixTokens] "m" secondBlock (by decide : 0 < 3)
      (fun record mem _ => by rw [List.mem_singleton.mp mem]; decide)
  have raw : longestCommonSubstring secondBlock.val sixTokens.tokens.val = some ⟨1, 3, 3⟩ := by decide
  have run : sixTokens.HasRun secondBlock 3 :=
    ⟨1, 3, 3, longestCommonSubstring_longest (Tokens.length_le _) raw, [tripleKey 3], 3,
      List.cons_ne_nil _ _, fun key mem => List.mem_cons_of_mem _ mem, ⟨rfl, rfl⟩, Nat.le_refl _,
      Nat.le_refl _⟩
  obtain ⟨span, rfl, long⟩ :=
    longest sixTokens List.mem_cons_self rfl 3 run (Nat.le_refl _)
  exact ⟨span, answered, long⟩

/-- A query that holds four of the tokens across the blocks, and then the first block. -/
def straddling : Tokens := ⟨[2, 3, 4, 5, 9, 1, 2, 3], by decide⟩

/-- **A block that occurs in the query is not found**: four tokens across two blocks are the longest
common run, and no block lies inside them. -/
theorem blocks_outside_longest_run :
    SegmentIndex.register "m" sixTokens.tokens sixTokens.blockKeys [] = .ok [sixTokens] ∧
      Agree straddling.val sixTokens.tokens.val 5 0 3 ∧ Tiles 0 [tripleKey 0] 3 ∧
      SegmentIndex.bestSegment "m" straddling 3 [sixTokens] = .ok none :=
  ⟨by decide, ⟨by decide, by decide, by decide⟩, ⟨rfl, rfl⟩, by decide⟩

end RivetCache
