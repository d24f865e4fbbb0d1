/-
**`llama_cpp.rs`, `vllm.rs`: adapters of runtimes.**

Both adapters read and write the KV cache of a runtime slice by slice, through an interface that the host
provides. They test the blocks of a restore in the same way, under their own texts, and `restore_relocated`
moves each block by the distance of the first to the target.

The interface has a state of its own type; a call may fail and leave another state.
-/

import RivetCache.Kv.Capture
import RivetCache.Reuse.Quality
import RivetCache.Library.Checked

set_option linter.unusedSectionVars false

namespace RivetCache

open Library

variable {ρ : Type}

/-! ### The traits -/

/-- `RelocatableRuntimeKvAdapter`. -/
structure RelocatableRuntimeKvAdapter (ρ : Type) extends RuntimeKvAdapter ρ where
  restoreRelocated : List KvBlock → UInt32 → ρ → Except IoError Unit × ρ

/-- `QualityAwareRuntimeKvAdapter`. -/
structure QualityAwareRuntimeKvAdapter (ρ : Type) extends RelocatableRuntimeKvAdapter ρ where
  recomputeRanges : Tokens → List TokenRange → ρ → Except IoError Unit × ρ

/-- `LlamaKvSlice`, `VllmKvSlice`. -/
structure KvSlice where
  tokenStart : UInt32
  tokenCount : UInt32
  layerStart : UInt32
  layerCount : UInt32
  layoutVersion : UInt32
  deriving DecidableEq

/-- `from_key`. -/
def KvSlice.fromKey (key : KvBlockKey) : KvSlice :=
  ⟨key.tokenStart, key.tokenCount, key.layerStart, key.layerCount, key.layoutVersion⟩

/-- `LlamaCppKvApi`, over the state of a runtime. -/
structure LlamaCppKvApi (ρ : Type) where
  readSlice : KvSlice → ρ → Except IoError Payload × ρ
  writeSlice : KvSlice × Payload → ρ → Except IoError Unit × ρ

/-- `VllmKvApi`. -/
structure VllmKvApi (ρ : Type) extends LlamaCppKvApi ρ where
  recomputeRanges : Tokens → List TokenRange → ρ → Except IoError Unit × ρ

/-! ### Testing the blocks of a restore -/

/-- `validate_restore_blocks`, the loop. -/
def checkRestoreBlocks (mismatch overflow : String) (first : KvBlockKey) :
    UInt32 → List KvBlock → Except IoError Unit
  | _, [] => .ok ()
  | expectedStart, block :: rest =>
      if block.bytes.bytes.isEmpty ∨ block.key.modelFingerprint ≠ first.modelFingerprint ∨
          block.key.layerStart ≠ first.layerStart ∨ block.key.layerCount ≠ first.layerCount ∨
          block.key.layoutVersion ≠ first.layoutVersion ∨ block.key.tokenStart ≠ expectedStart then
        .error ⟨.invalidInput, mismatch⟩
      -- `checked_add`
      else if 2 ^ 32 ≤ expectedStart.toNat + block.key.tokenCount.toNat then
        .error ⟨.invalidInput, overflow⟩
      else checkRestoreBlocks mismatch overflow first (expectedStart + block.key.tokenCount) rest

/-- `validate_restore_blocks`, under the texts of an adapter. -/
def validateRestoreBlocks (noBlocks mismatch overflow : String) (blocks : List KvBlock) :
    Except IoError Unit :=
  match blocks with
  | [] => .error ⟨.invalidInput, noBlocks⟩
  | first :: rest =>
      checkRestoreBlocks mismatch overflow first.key first.key.tokenStart (first :: rest)

/-- `validate_restore_blocks` accepts no empty list. -/
theorem validateRestoreBlocks_ne_nil {noBlocks mismatch overflow : String} {blocks : List KvBlock}
    (valid : validateRestoreBlocks noBlocks mismatch overflow blocks = .ok ()) : blocks ≠ [] := by
  rintro rfl
  cases valid

/-! ### Reading and writing slices -/

/-- `capture`, the loop. -/
def captureSlices (readSlice : KvSlice → ρ → Except IoError Payload × ρ) :
    List KvBlockKey → ρ → Except IoError (List KvBlock) × ρ
  | [], runtime => (.ok [], runtime)
  | key :: rest, runtime =>
      andThen (readSlice (.fromKey key) runtime) fun bytes runtime =>
        match KvBlock.new key bytes with
        | .error error => (.error error, runtime)
        | .ok block =>
            andThen (captureSlices readSlice rest runtime) fun blocks runtime =>
              (.ok (block :: blocks), runtime)

/-- `capture`. -/
def captureWith (readSlice : KvSlice → ρ → Except IoError Payload × ρ) (digest : Digest)
    (request : KvCaptureRequest) (runtime : ρ) : Except IoError (List KvBlock) × ρ :=
  match request.blockKeys digest with
  | .error error => (.error error, runtime)
  | .ok keys => captureSlices readSlice keys runtime

/-- `restore_relocated`, where a block goes. -/
def relocate (unordered : String) (sourceStart target : UInt32) (block : KvBlock) :
    Except IoError (KvSlice × Payload) :=
  -- `checked_sub`
  if block.key.tokenStart < sourceStart then .error ⟨.invalidInput, unordered⟩
  else
    let relative := block.key.tokenStart - sourceStart
    -- `checked_add`
    if 2 ^ 32 ≤ target.toNat + relative.toNat then
      .error ⟨.invalidInput, "relocated token range overflow"⟩
    else
      .ok (⟨target + relative, block.key.tokenCount, block.key.layerStart, block.key.layerCount,
        block.key.layoutVersion⟩, block.bytes)

/-- `restore`, where a block goes. -/
def inPlace (block : KvBlock) : Except IoError (KvSlice × Payload) :=
  .ok (.fromKey block.key, block.bytes)

/-! ### `llama_cpp.rs` -/

/-- `LlamaCppAdapter`. -/
structure LlamaCppAdapter (ρ : Type) where
  name : String
  api : LlamaCppKvApi ρ

namespace LlamaCppAdapter

/-- `validate_restore_blocks` of `llama_cpp.rs`. -/
def validateRestoreBlocks (blocks : List KvBlock) : Except IoError Unit :=
  RivetCache.validateRestoreBlocks "no KV blocks to restore"
    "runtime restore requires contiguous blocks with shared model/layer/layout identity"
    "token range overflow" blocks

/-- `restore`. -/
def restore (adapter : LlamaCppAdapter ρ) (blocks : List KvBlock) (runtime : ρ) :
    Except IoError Unit × ρ :=
  match validateRestoreBlocks blocks with
  | .error error => (.error error, runtime)
  | .ok () => checkedCalls inPlace adapter.api.writeSlice blocks runtime

/-- `restore_relocated`. -/
def restoreRelocated (adapter : LlamaCppAdapter ρ) (blocks : List KvBlock) (target : UInt32)
    (runtime : ρ) : Except IoError Unit × ρ :=
  match validateRestoreBlocks blocks with
  | .error error => (.error error, runtime)
  | .ok () =>
      match blocks.head? with
      | none => (.error ⟨.invalidInput, "no KV blocks to restore"⟩, runtime)
      | some first =>
          checkedCalls (relocate "KV blocks are not token ordered" first.key.tokenStart target)
            adapter.api.writeSlice blocks runtime

/-- The adapter as a trait object. -/
def runtime (adapter : LlamaCppAdapter ρ) (digest : Digest) : RelocatableRuntimeKvAdapter ρ where
  runtimeName := adapter.name
  capture := captureWith adapter.api.readSlice digest
  restore := adapter.restore
  restoreRelocated := adapter.restoreRelocated

end LlamaCppAdapter

/-! ### `vllm.rs` -/

/-- `VllmAdapter`. -/
structure VllmAdapter (ρ : Type) where
  name : String
  api : VllmKvApi ρ

namespace VllmAdapter

/-- `validate_restore_blocks` of `vllm.rs`. -/
def validateRestoreBlocks (blocks : List KvBlock) : Except IoError Unit :=
  RivetCache.validateRestoreBlocks "no vLLM KV blocks"
    "vLLM restore requires contiguous blocks with shared model/layer/layout identity"
    "vLLM token range overflow" blocks

/-- `restore`. -/
def restore (adapter : VllmAdapter ρ) (blocks : List KvBlock) (runtime : ρ) :
    Except IoError Unit × ρ :=
  match validateRestoreBlocks blocks with
  | .error error => (.error error, runtime)
  | .ok () => checkedCalls inPlace adapter.api.writeSlice blocks runtime

/-- `restore_relocated`: `blocks[0]` does not panic, as no empty list is accepted. -/
def restoreRelocated (adapter : VllmAdapter ρ) (blocks : List KvBlock) (target : UInt32)
    (runtime : ρ) : Except IoError Unit × ρ :=
  match valid : validateRestoreBlocks blocks with
  | .error error => (.error error, runtime)
  | .ok () =>
      checkedCalls (relocate "unordered KV blocks"
        (blocks.head (validateRestoreBlocks_ne_nil valid)).key.tokenStart target)
        adapter.api.writeSlice blocks runtime

/-- The adapter as a trait object. -/
def runtime (adapter : VllmAdapter ρ) (digest : Digest) : QualityAwareRuntimeKvAdapter ρ where
  runtimeName := adapter.name
  capture := captureWith adapter.api.readSlice digest
  restore := adapter.restore
  restoreRelocated := adapter.restoreRelocated
  recomputeRanges := adapter.api.recomputeRanges

end VllmAdapter

end RivetCache
