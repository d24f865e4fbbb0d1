/-
**Where a relocated restore writes.**

The blocks that an adapter accepts follow one another, so moved to a target they follow one another there.
The loop of `restore_relocated` computes the start of a block only when the blocks before it are written, and
the end of the last block never: the claim that nothing is written out of range, or before everything has been
tested, holds where no block `Overruns` (`restoreRelocated_placed`), and fails otherwise.

* `relocate_contiguous`: where a block goes;
* `reached`: the slices that start in range, in order;
* `restoreRelocated_same`: the two adapters do the same, under their own texts.
-/

import RivetCache.Adapters.Model

set_option linter.unusedSectionVars false

namespace RivetCache

open Library

variable {ρ : Type}

/-! ### The places of the blocks -/

/-- The slice and the bytes of a block that is moved to `start`. -/
def placeAt (start : Nat) (block : KvBlock) : KvSlice × Payload :=
  (⟨UInt32.ofNat start, block.key.tokenCount, block.key.layerStart, block.key.layerCount,
    block.key.layoutVersion⟩, block.bytes)

/-- The number of tokens of the blocks. -/
def totalTokens (blocks : List KvBlock) : Nat := (blocks.map fun block => block.key.tokenCount.toNat).sum

/-- The writes put the blocks one after another from `start` on, each with its own bytes and identity. -/
inductive Tiled : Nat → List KvBlock → List (KvSlice × Payload) → Prop
  | nil (start : Nat) : Tiled start [] []
  | cons {start : Nat} {block : KvBlock} {rest : List KvBlock} {slice : KvSlice}
      {later : List (KvSlice × Payload)} (begins : slice.tokenStart.toNat = start)
      (counts : slice.tokenCount = block.key.tokenCount)
      (layers : slice.layerStart = block.key.layerStart ∧ slice.layerCount = block.key.layerCount)
      (layout : slice.layoutVersion = block.key.layoutVersion)
      (others : Tiled (start + block.key.tokenCount.toNat) rest later) :
      Tiled start (block :: rest) ((slice, block.bytes) :: later)

/-- Every block starts in range, and the last one ends there. -/
def Fits : Nat → List KvBlock → Prop
  | start, [] => start ≤ 2 ^ 32
  | start, block :: rest => start < 2 ^ 32 ∧ Fits (start + block.key.tokenCount.toNat) rest

/-- The writes of the blocks that start in range. -/
def reached : Nat → List KvBlock → List (KvSlice × Payload)
  | _, [] => []
  | start, block :: rest =>
      if start < 2 ^ 32 then placeAt start block :: reached (start + block.key.tokenCount.toNat) rest
      else []

/-- **The promise of a relocated restore**: a restore that succeeds has written the blocks one after another
from the target on, in range; and an error that `write_slice` has not raised comes before any write. -/
structure PlacedWell (blocks : List KvBlock) (target : UInt32) (result : Except IoError Unit)
    (calls : List ((KvSlice × Payload) × Except IoError Unit)) : Prop where
  placed : result = .ok () → ∃ writes, calls = acceptedRecords writes ∧
    Tiled target.toNat blocks writes ∧ target.toNat + totalTokens blocks ≤ 2 ^ 32
  clean : Clean result calls

/-! ### Blocks that follow one another -/

section

variable {mismatch overflow unordered : String} {first : KvBlockKey} {source target expected : UInt32}
  {start : Nat} {blocks front rest : List KvBlock} {block item : KvBlock}
  {arguments : List (KvSlice × Payload)} {error : IoError}

/-- The blocks are accepted, and `start` is where the first one goes. -/
structure Shifts (mismatch overflow : String) (first : KvBlockKey) (source target expected : UInt32)
    (start : Nat) (blocks : List KvBlock) : Prop where
  follow : checkRestoreBlocks mismatch overflow first expected blocks = .ok ()
  order : source.toNat ≤ expected.toNat
  begins : start = target.toNat + (expected.toNat - source.toNat)

/-- The block that comes next, and what is left. -/
theorem Shifts.next (shifts : Shifts mismatch overflow first source target expected start (block :: rest)) :
    block.key.tokenStart = expected ∧
      Shifts mismatch overflow first source target (expected + block.key.tokenCount)
        (start + block.key.tokenCount.toNat) rest := by
  obtain ⟨follow, order, begins⟩ := shifts
  unfold checkRestoreBlocks at follow
  split at follow
  case isTrue => cases follow
  case isFalse alike =>
    split at follow
    case isTrue => cases follow
    case isFalse short =>
      simp only [not_or, not_not] at alike
      have sum : (expected + block.key.tokenCount).toNat =
          expected.toNat + block.key.tokenCount.toNat := by
        rw [UInt32.toNat_add, Nat.mod_eq_of_lt (by omega)]
      exact ⟨alike.2.2.2.2.2, follow, by omega, by omega⟩

/-- **Where a block goes**: to `start`, if that is in range. -/
theorem relocate_contiguous (unordered : String)
    (shifts : Shifts mismatch overflow first source target expected start (block :: rest)) :
    relocate unordered source target block =
      if start < 2 ^ 32 then .ok (placeAt start block)
      else .error ⟨.invalidInput, "relocated token range overflow"⟩ := by
  have here := shifts.next.1
  obtain ⟨_, order, begins⟩ := shifts
  have distance : (expected - source).toNat = expected.toNat - source.toNat :=
    UInt32.toNat_sub_of_le _ _ (UInt32.le_iff_toNat_le.mpr order)
  unfold relocate
  rw [here, if_neg (by rw [UInt32.lt_iff_toNat_lt]; omega)]
  dsimp only
  rw [distance, ← begins]
  by_cases inside : start < 2 ^ 32
  · rw [if_neg (by omega), if_pos inside]
    have place : target + (expected - source) = UInt32.ofNat start := by
      apply UInt32.toNat.inj
      rw [UInt32.toNat_add, distance, ← begins, UInt32.toNat_ofNat']
    rw [place]
    rfl
  · rw [if_pos (by omega), if_neg inside]

/-- The text for blocks that are out of order is of no use: they are in order. -/
theorem relocate_texts (unordered other : String)
    (shifts : Shifts mismatch overflow first source target expected start blocks) :
    ∀ block ∈ blocks, relocate unordered source target block = relocate other source target block := by
  induction blocks generalizing expected start with
  | nil => exact fun _ mem => by cases mem
  | cons block rest ih =>
      intro candidate mem
      rcases List.mem_cons.mp mem with rfl | later
      · rw [relocate_contiguous unordered shifts, relocate_contiguous other shifts]
      · exact ih shifts.next.2 candidate later

/-- **All blocks have a place**: their slices are those in range, one after another. -/
theorem relocated_all (shifts : Shifts mismatch overflow first source target expected start blocks)
    (checked : blocks.map (relocate unordered source target) = arguments.map .ok) :
    arguments = reached start blocks ∧ Tiled start blocks arguments := by
  induction blocks generalizing expected start arguments with
  | nil =>
      rw [List.map_nil, eq_comm, List.map_eq_nil_iff] at checked
      subst checked
      exact ⟨rfl, .nil start⟩
  | cons block rest ih =>
      cases arguments with
      | nil => cases checked
      | cons argument others =>
          rw [List.map_cons, List.map_cons, List.cons.injEq, relocate_contiguous unordered shifts] at checked
          obtain ⟨here, later⟩ := checked
          split at here
          case isFalse => cases here
          case isTrue inside =>
            cases here
            obtain ⟨same, tiles⟩ := ih shifts.next.2 later
            unfold reached
            rw [if_pos inside, ← same]
            have begins : (UInt32.ofNat start).toNat = start := by
              rw [UInt32.toNat_ofNat', Nat.mod_eq_of_lt inside]
            exact ⟨rfl, .cons begins rfl ⟨rfl, rfl⟩ rfl tiles⟩

/-- **A block has no place**: the slices in range are those before it. -/
theorem relocated_front
    (shifts : Shifts mismatch overflow first source target expected start (front ++ item :: rest))
    (checked : front.map (relocate unordered source target) = arguments.map .ok)
    (fails : relocate unordered source target item = .error error) :
    arguments = reached start (front ++ item :: rest) ∧ ¬Fits start (front ++ item :: rest) := by
  induction front generalizing expected start arguments with
  | nil =>
      rw [List.map_nil, eq_comm, List.map_eq_nil_iff] at checked
      subst checked
      rw [List.nil_append] at shifts ⊢
      rw [relocate_contiguous unordered shifts] at fails
      split at fails
      case isTrue => cases fails
      case isFalse outside =>
        unfold reached Fits
        rw [if_neg outside]
        exact ⟨rfl, fun fits => outside fits.1⟩
  | cons block front ih =>
      cases arguments with
      | nil => cases checked
      | cons argument others =>
          rw [List.cons_append] at shifts ⊢
          rw [List.map_cons, List.map_cons, List.cons.injEq, relocate_contiguous unordered shifts] at checked
          obtain ⟨here, later⟩ := checked
          split at here
          case isFalse => cases here
          case isTrue inside =>
            cases here
            obtain ⟨same, outside⟩ := ih shifts.next.2 later
            unfold reached Fits
            rw [if_pos inside, ← same]
            exact ⟨rfl, fun fits => outside fits.2⟩

/-- Every block has a place, or a first one has none; it is not the first of all. -/
theorem relocated_cases (unordered : String)
    (shifts : Shifts mismatch overflow first source target expected start blocks) :
    blocks.map (relocate unordered source target) = (reached start blocks).map .ok ∨
      ∃ front item rest error, blocks = front ++ item :: rest ∧ (start < 2 ^ 32 → front ≠ []) ∧
        front.map (relocate unordered source target) = (reached start blocks).map .ok ∧
        relocate unordered source target item = .error error := by
  induction blocks generalizing expected start with
  | nil => exact Or.inl rfl
  | cons block rest ih =>
      have here := relocate_contiguous unordered shifts
      by_cases inside : start < 2 ^ 32
      · rw [if_pos inside] at here
        unfold reached
        rw [if_pos inside, List.map_cons, List.map_cons, here]
        rcases ih shifts.next.2 with all | ⟨front, item, others, error, split, _, checked, fails⟩
        · exact Or.inl (by rw [all])
        · refine Or.inr ⟨block :: front, item, others, error, by rw [split]; rfl,
            fun _ => List.cons_ne_nil _ _, ?_, fails⟩
          rw [List.map_cons, here, checked]
      · rw [if_neg inside] at here
        unfold reached
        rw [if_neg inside]
        exact Or.inr ⟨[], block, rest, _, rfl, fun absurd => (inside absurd).elim, rfl, here⟩

/-- Where all blocks have a place, they fit if the last one ends in range. -/
theorem fits_of_relocated (shifts : Shifts mismatch overflow first source target expected start blocks)
    (checked : blocks.map (relocate unordered source target) = arguments.map .ok) :
    Fits start blocks ↔ start + totalTokens blocks ≤ 2 ^ 32 := by
  induction blocks generalizing expected start arguments with
  | nil => exact Iff.rfl
  | cons block rest ih =>
      cases arguments with
      | nil => cases checked
      | cons argument others =>
          rw [List.map_cons, List.map_cons, List.cons.injEq, relocate_contiguous unordered shifts] at checked
          obtain ⟨here, later⟩ := checked
          split at here
          case isFalse => cases here
          case isTrue inside =>
            have total : totalTokens (block :: rest) = block.key.tokenCount.toNat + totalTokens rest := by
              unfold totalTokens
              rw [List.map_cons, List.sum_cons]
            rw [total, ← Nat.add_assoc, ← ih shifts.next.2 later]
            exact and_iff_right inside

end

/-! ### The loop -/

/-- **The blocks overrun the positions**: one of them starts out of range, or the last one ends there, and
the runtime accepts the writes of those that start in range. -/
structure Overruns (write : KvSlice × Payload → ρ → Except IoError Unit × ρ) (blocks : List KvBlock)
    (target : UInt32) (runtime : ρ) : Prop where
  outside : ¬Fits target.toNat blocks
  accepted : ∃ after, Accepts write (reached target.toNat blocks) runtime after

section

variable {mismatch overflow : String} {first : KvBlockKey} {source target expected : UInt32}
  {blocks : List KvBlock} {write : KvSlice × Payload → ρ → Except IoError Unit × ρ} {runtime : ρ}

/-- **The loop keeps the promise** exactly where no blocks overrun. -/
theorem placedWell_iff (unordered : String)
    (shifts : Shifts mismatch overflow first source target expected target.toNat blocks) :
    PlacedWell blocks target
        (checkedCalls (relocate unordered source target) (recorded write) blocks (runtime, [])).1
        (checkedCalls (relocate unordered source target) (recorded write) blocks (runtime, [])).2.2 ↔
      ¬Overruns write blocks target runtime := by
  have clean := clean_iff (relocate unordered source target) write blocks runtime
  have in_range : target.toNat < 2 ^ 32 := target.toNat_lt
  constructor
  · rintro ⟨placed, untouched⟩ ⟨outside, after, accepts⟩
    rcases relocated_cases unordered shifts with all | ⟨front, item, rest, error, split, late, checked, fails⟩
    · have run := checkedCalls_append [] all accepts []
      rw [List.append_nil] at run
      obtain ⟨_, _, _, room⟩ := placed (congrArg Prod.fst run)
      exact outside ((fits_of_relocated shifts all).mpr room)
    · exact clean.mp untouched
        ⟨front, item, rest, _, after, error, split, late in_range, checked, accepts, fails⟩
  · intro within
    refine ⟨fun succeeded => ?_, clean.mpr ?_⟩
    · obtain ⟨result, after, records, run, ends⟩ := checkedCalls_cases (relocate unordered source target)
        write blocks runtime []
      rw [run] at succeeded ⊢
      dsimp only at succeeded ⊢
      cases ends with
      | stopped => cases succeeded
      | refused => cases succeeded
      | finished arguments checked accepts =>
          obtain ⟨same, tiled⟩ := relocated_all shifts checked
          subst same
          refine ⟨_, rfl, tiled, ?_⟩
          by_contra outside
          exact within ⟨fun fits => outside ((fits_of_relocated shifts checked).mp fits), after, accepts⟩
    · rintro ⟨front, item, rest, arguments, after, error, rfl, _, checked, accepts, fails⟩
      obtain ⟨rfl, outside⟩ := relocated_front shifts checked fails
      exact within ⟨outside, after, accepts⟩

end

/-! ### The two adapters -/

/-- The interface, with a record of the writes. -/
def VllmKvApi.recording (api : VllmKvApi ρ) :
    VllmKvApi (ρ × List ((KvSlice × Payload) × Except IoError Unit)) where
  readSlice slice s := ((api.readSlice slice s.1).1, (api.readSlice slice s.1).2, s.2)
  writeSlice := recorded api.writeSlice
  recomputeRanges tokens ranges s :=
    ((api.recomputeRanges tokens ranges s.1).1, (api.recomputeRanges tokens ranges s.1).2, s.2)

/-- What an adapter's restore has done, on a runtime whose writes are recorded. -/
def LlamaCppAdapter.relocated (api : VllmKvApi ρ) (name : String) (blocks : List KvBlock)
    (target : UInt32) (runtime : ρ) :
    Except IoError Unit × (ρ × List ((KvSlice × Payload) × Except IoError Unit)) :=
  (LlamaCppAdapter.mk name api.recording.toLlamaCppKvApi).restoreRelocated blocks target (runtime, [])

/-- What an adapter's restore has done, on a runtime whose writes are recorded. -/
def VllmAdapter.relocated (api : VllmKvApi ρ) (name : String) (blocks : List KvBlock)
    (target : UInt32) (runtime : ρ) :
    Except IoError Unit × (ρ × List ((KvSlice × Payload) × Except IoError Unit)) :=
  (VllmAdapter.mk name api.recording).restoreRelocated blocks target (runtime, [])

section

variable {blocks : List KvBlock} {target : UInt32} {runtime : ρ}

/-- **The tests of the two adapters** agree, but for their texts. -/
theorem checkRestoreBlocks_texts (mismatch overflow mismatch' overflow' : String) (first : KvBlockKey)
    (expected : UInt32) (blocks : List KvBlock) :
    (checkRestoreBlocks mismatch overflow first expected blocks).mapError IoError.kind =
      (checkRestoreBlocks mismatch' overflow' first expected blocks).mapError IoError.kind := by
  induction blocks generalizing expected with
  | nil => rfl
  | cons block rest ih =>
      unfold checkRestoreBlocks
      split
      · rfl
      · split
        · rfl
        · exact ih _

theorem validateRestoreBlocks_same (blocks : List KvBlock) :
    (LlamaCppAdapter.validateRestoreBlocks blocks).mapError IoError.kind =
      (VllmAdapter.validateRestoreBlocks blocks).mapError IoError.kind := by
  cases blocks with
  | nil => rfl
  | cons first rest => exact checkRestoreBlocks_texts _ _ _ _ first.key first.key.tokenStart (first :: rest)

/-- Blocks that are accepted move to the target. -/
theorem shifts_of_valid {noBlocks mismatch overflow : String} {first : KvBlock} {rest : List KvBlock}
    (valid : validateRestoreBlocks noBlocks mismatch overflow (first :: rest) = .ok ()) :
    Shifts mismatch overflow first.key first.key.tokenStart target first.key.tokenStart target.toNat
      (first :: rest) where
  follow := valid
  order := Nat.le_refl _
  begins := by rw [Nat.sub_self, Nat.add_zero]

/-- A restore of blocks that are not accepted writes nothing. -/
theorem placedWell_refused {error : IoError} :
    PlacedWell blocks target (.error error) [] where
  placed succeeded := by cases succeeded
  clean _ _ _ := rfl

/-- **A restore that tests its blocks and then enters the loop** keeps its promise exactly where the blocks
are refused or do not overrun. -/
theorem restored_placed {noBlocks mismatch overflow : String} (unordered : String)
    {write : KvSlice × Payload → ρ → Except IoError Unit × ρ}
    {restored : Except IoError Unit × (ρ × List ((KvSlice × Payload) × Except IoError Unit))}
    (refused : ∀ error, validateRestoreBlocks noBlocks mismatch overflow blocks = .error error →
      restored = (.error error, runtime, []))
    (accepted : ∀ first rest, blocks = first :: rest →
      validateRestoreBlocks noBlocks mismatch overflow (first :: rest) = .ok () →
      restored = checkedCalls (relocate unordered first.key.tokenStart target) (recorded write)
        (first :: rest) (runtime, [])) :
    PlacedWell blocks target restored.1 restored.2.2 ↔
      (validateRestoreBlocks noBlocks mismatch overflow blocks = .ok () →
        ¬Overruns write blocks target runtime) := by
  cases valid : validateRestoreBlocks noBlocks mismatch overflow blocks with
  | error error =>
      rw [refused error valid]
      exact iff_of_true placedWell_refused fun accepted => by cases accepted
  | ok _ =>
      cases blocks with
      | nil => cases valid
      | cons first rest =>
          rw [accepted first rest rfl valid]
          refine (placedWell_iff unordered (shifts_of_valid valid)).trans ?_
          exact ⟨fun within _ => within, fun within => within rfl⟩

namespace LlamaCppAdapter

theorem relocated_refused {error : IoError} (refused : validateRestoreBlocks blocks = .error error)
    (api : VllmKvApi ρ) (name : String) :
    relocated api name blocks target runtime = (.error error, runtime, []) := by
  unfold relocated restoreRelocated
  rw [refused]

theorem relocated_valid {first : KvBlock} {rest : List KvBlock}
    (valid : validateRestoreBlocks (first :: rest) = .ok ()) (api : VllmKvApi ρ) (name : String) :
    relocated api name (first :: rest) target runtime =
      checkedCalls (relocate "KV blocks are not token ordered" first.key.tokenStart target)
        (recorded api.writeSlice) (first :: rest) (runtime, []) := by
  unfold relocated restoreRelocated
  rw [valid]
  rfl

theorem relocated_placed (api : VllmKvApi ρ) (name : String) :
    PlacedWell blocks target (relocated api name blocks target runtime).1
        (relocated api name blocks target runtime).2.2 ↔
      (validateRestoreBlocks blocks = .ok () → ¬Overruns api.writeSlice blocks target runtime) := by
  refine restored_placed "KV blocks are not token ordered" (fun error refused => relocated_refused refused api name) ?_
  rintro first rest rfl valid
  exact relocated_valid valid api name

end LlamaCppAdapter

namespace VllmAdapter

theorem relocated_refused {error : IoError} (refused : validateRestoreBlocks blocks = .error error)
    (api : VllmKvApi ρ) (name : String) :
    relocated api name blocks target runtime = (.error error, runtime, []) := by
  unfold relocated restoreRelocated
  split
  case h_1 other raised =>
    rw [refused] at raised
    cases raised
    rfl
  case h_2 valid =>
    rw [refused] at valid
    cases valid

theorem relocated_valid {first : KvBlock} {rest : List KvBlock}
    (valid : validateRestoreBlocks (first :: rest) = .ok ()) (api : VllmKvApi ρ) (name : String) :
    relocated api name (first :: rest) target runtime =
      checkedCalls (relocate "unordered KV blocks" first.key.tokenStart target)
        (recorded api.writeSlice) (first :: rest) (runtime, []) := by
  unfold relocated restoreRelocated
  split
  case h_1 other raised =>
    rw [valid] at raised
    cases raised
  case h_2 => rfl

theorem relocated_placed (api : VllmKvApi ρ) (name : String) :
    PlacedWell blocks target (relocated api name blocks target runtime).1
        (relocated api name blocks target runtime).2.2 ↔
      (validateRestoreBlocks blocks = .ok () → ¬Overruns api.writeSlice blocks target runtime) := by
  refine restored_placed "unordered KV blocks" (fun error refused => relocated_refused refused api name) ?_
  rintro first rest rfl valid
  exact relocated_valid valid api name

end VllmAdapter

/-- The two adapters accept the same blocks. -/
theorem valid_same (blocks : List KvBlock) :
    LlamaCppAdapter.validateRestoreBlocks blocks = .ok () ↔
      VllmAdapter.validateRestoreBlocks blocks = .ok () := by
  have tests := validateRestoreBlocks_same blocks
  constructor
  · intro one
    cases two : VllmAdapter.validateRestoreBlocks blocks with
    | error error => rw [one, two] at tests; cases tests
    | ok _ => rfl
  · intro two
    cases one : LlamaCppAdapter.validateRestoreBlocks blocks with
    | error error => rw [one, two] at tests; cases tests
    | ok _ => rfl

/-- **The two adapters do the same**: they make the same writes and end alike, under their own texts. -/
theorem relocated_same (api : VllmKvApi ρ) (name other : String) :
    (LlamaCppAdapter.relocated api name blocks target runtime).2 =
        (VllmAdapter.relocated api other blocks target runtime).2 ∧
      (LlamaCppAdapter.relocated api name blocks target runtime).1.mapError IoError.kind =
        (VllmAdapter.relocated api other blocks target runtime).1.mapError IoError.kind := by
  have tests := validateRestoreBlocks_same blocks
  cases one : LlamaCppAdapter.validateRestoreBlocks blocks with
  | error error =>
      cases two : VllmAdapter.validateRestoreBlocks blocks with
      | ok _ => rw [one, two] at tests; cases tests
      | error error' =>
          rw [LlamaCppAdapter.relocated_refused one, VllmAdapter.relocated_refused two]
          rw [one, two] at tests
          exact ⟨rfl, tests ▸ rfl⟩
  | ok _ =>
      have two := (valid_same blocks).mp one
      cases blocks with
      | nil => cases one
      | cons first rest =>
          have alike : ∀ block ∈ first :: rest,
              relocate "KV blocks are not token ordered" first.key.tokenStart target block =
                relocate "unordered KV blocks" first.key.tokenStart target block :=
            relocate_texts _ _ (shifts_of_valid one)
          rw [LlamaCppAdapter.relocated_valid one, VllmAdapter.relocated_valid two,
            checkedCalls_congr alike]
          exact ⟨rfl, rfl⟩

/-- **`restore_relocated` of both adapters**, for every list of blocks, target and runtime: it keeps its
promise exactly where the blocks are refused or do not overrun; and the adapters do the same. -/
theorem restoreRelocated_placed (api : VllmKvApi ρ) (name other : String) (blocks : List KvBlock)
    (target : UInt32) (runtime : ρ) :
    (PlacedWell blocks target (LlamaCppAdapter.relocated api name blocks target runtime).1
        (LlamaCppAdapter.relocated api name blocks target runtime).2.2 ↔
      (LlamaCppAdapter.validateRestoreBlocks blocks = .ok () →
        ¬Overruns api.writeSlice blocks target runtime)) ∧
    (PlacedWell blocks target (VllmAdapter.relocated api other blocks target runtime).1
        (VllmAdapter.relocated api other blocks target runtime).2.2 ↔
      (VllmAdapter.validateRestoreBlocks blocks = .ok () →
        ¬Overruns api.writeSlice blocks target runtime)) ∧
    (LlamaCppAdapter.relocated api name blocks target runtime).2 =
        (VllmAdapter.relocated api other blocks target runtime).2 ∧
      (LlamaCppAdapter.relocated api name blocks target runtime).1.mapError IoError.kind =
        (VllmAdapter.relocated api other blocks target runtime).1.mapError IoError.kind :=
  ⟨LlamaCppAdapter.relocated_placed api name, VllmAdapter.relocated_placed api other,
    relocated_same api name other⟩

end

/-! ### Runs on fixed inputs -/

/-- A runtime that takes every write, and has nothing to read. -/
def acceptingApi : VllmKvApi Unit where
  readSlice _ runtime := (.error ⟨.notFound, "mock KV slice not found"⟩, runtime)
  writeSlice _ runtime := (.ok (), runtime)
  recomputeRanges _ _ runtime := (.ok (), runtime)

/-- A block of two tokens. -/
def pairBlock (index start : UInt32) : KvBlock where
  key := ⟨"m", Vector.replicate 32 0, index, start, 2, 0, 8, 1⟩
  bytes := ⟨[1, 9], by simp⟩

/-- **Two blocks at the end of the positions**: the first one is written, and then the second one overflows;
and one block that ends out of range is written without an error. -/
theorem relocated_overrun :
    (¬PlacedWell [pairBlock 0 0, pairBlock 1 2] 4294967294
        (VllmAdapter.relocated acceptingApi "v" [pairBlock 0 0, pairBlock 1 2] 4294967294 ()).1
        (VllmAdapter.relocated acceptingApi "v" [pairBlock 0 0, pairBlock 1 2] 4294967294 ()).2.2) ∧
      ¬PlacedWell [pairBlock 0 0] 4294967295
        (LlamaCppAdapter.relocated acceptingApi "l" [pairBlock 0 0] 4294967295 ()).1
        (LlamaCppAdapter.relocated acceptingApi "l" [pairBlock 0 0] 4294967295 ()).2.2 := by
  constructor
  · rintro ⟨_, clean⟩
    have untouched := clean ⟨.invalidInput, "relocated token range overflow"⟩ (by decide) (by decide)
    revert untouched
    decide
  · rintro ⟨placed, _⟩
    obtain ⟨_, _, _, room⟩ := placed (by decide)
    revert room
    decide

end RivetCache
