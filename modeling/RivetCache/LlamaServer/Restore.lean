/-
**What the cache remembers of a slot.**

The receipt of a `capture` is made of the bytes it has read, and a `restore` takes what the cache answers.
In a run whose captures replace what memory holds of a slot, and whose lookups find an older state of the
persistent tier covered by a memory copy (`Permitted`), the cache serves nothing of the slot but the last
bytes captured.

* `capture_cases`: what a `capture` does to the cache;
* `served_call`, `served_put`: the calls of the cache;
* `served_step`: every step keeps `Served`.
-/

import RivetCache.Cache.Current
import RivetCache.Cache.LastWrite
import RivetCache.LlamaServer.Model

set_option linter.unusedSectionVars false

namespace RivetCache

open Library

variable {σ ς : Type} {bridge : LlamaServerSlotBridge σ ς} {digest : Digest}
  {s : SlotState σ ς} {amb : Ambient}

/-! ### Runs -/

/-- A call of a bridge. -/
inductive SlotCall where
  | capture (amb : Ambient) (slotId : UInt32) (modelFingerprint logicalIdentity : String)
      (pinned : Bool)
  | restore (amb : Ambient) (slotId : UInt32) (modelFingerprint logicalIdentity : String)
  | contains (amb : Ambient) (modelFingerprint logicalIdentity : String)

def SlotCall.ambient : SlotCall → Ambient
  | .capture amb _ _ _ _ => amb
  | .restore amb _ _ _ => amb
  | .contains amb _ _ => amb

/-- A state, and the last receipt that a `capture` of a slot has returned, with the bytes it captured. -/
structure SlotTraced (σ ς : Type) where
  state : SlotState σ ς
  last : Option (LlamaServerSlotReceipt × List UInt8)

namespace LlamaServerSlotBridge

/-- The bytes that a `capture` reads. -/
def capturedBytes (bridge : LlamaServerSlotBridge σ ς) (slotId : UInt32) (key : String)
    (s : SlotState σ ς) : Option (List UInt8) :=
  match bridge.saveSlot slotId (slotFilenameForKey key) s with
  | (.error _, _) => none
  | (.ok action, s) => (bridge.savedState (slotFilenameForKey key) action s.dir).toOption

/-- The state a call leaves. -/
def step (bridge : LlamaServerSlotBridge σ ς) (digest : Digest) (call : SlotCall)
    (s : SlotState σ ς) : SlotState σ ς :=
  match call with
  | .capture amb slotId model identity pinned =>
      (bridge.capture digest amb slotId model identity pinned s).2
  | .restore amb slotId model identity => (bridge.restore digest amb slotId model identity s).2
  | .contains amb model identity => (bridge.contains amb model identity s).2

/-- The receipt of a `capture`, and the bytes. -/
def captured (bridge : LlamaServerSlotBridge σ ς) (digest : Digest) (amb : Ambient)
    (slotId : UInt32) (model identity key : String) (pinned : Bool) (s : SlotState σ ς) :
    Option (LlamaServerSlotReceipt × List UInt8) :=
  match (bridge.capture digest amb slotId model identity pinned s).1,
      bridge.capturedBytes slotId key s with
  | .ok receipt, some bytes => some (receipt, bytes)
  | _, _ => none

/-- One call, with the last receipt of a model and an identity. -/
def trace (bridge : LlamaServerSlotBridge σ ς) (digest : Digest) (model identity key : String)
    (call : SlotCall) (t : SlotTraced σ ς) : SlotTraced σ ς where
  state := bridge.step digest call t.state
  last :=
    match call with
    | .capture amb slotId model' identity' pinned =>
        if model' = model ∧ identity' = identity then
          (bridge.captured digest amb slotId model identity key pinned t.state).or t.last
        else t.last
    | _ => t.last

/-! ### What the calls do to the cache -/

theorem removeSlotFile_cache (filename : String) (s : SlotState σ ς) :
    (removeSlotFile filename s).2.cache = s.cache := rfl

theorem saveSlot_cache (slotId : UInt32) (filename : String) (s : SlotState σ ς) :
    (bridge.saveSlot slotId filename s).2.cache = s.cache := by
  unfold saveSlot
  refine andThen_preserves (P := fun after : SlotState σ ς => after.cache = s.cache) ?_ ?_
  · exact removeSlotFile_cache filename s
  · exact fun _ _ _ same => same

theorem loadSlot_cache (slotId : UInt32) (key : String) (bytes : List UInt8) (s : SlotState σ ς) :
    (bridge.loadSlot digest slotId key bytes s).2.cache = s.cache := by
  unfold loadSlot
  refine andThen_preserves (P := fun after : SlotState σ ς => after.cache = s.cache) rfl ?_
  intro action left _ same
  split
  · exact same
  · split <;> exact same

theorem writeSlotFileAtomic_cache (filename : String) (bytes : List UInt8) (s : SlotState σ ς) :
    (bridge.writeSlotFileAtomic filename bytes s).2.cache = s.cache := by
  unfold writeSlotFileAtomic
  split
  · rfl
  · split
    · rfl
    · dsimp only
      split <;> rfl

/-- `restore` reads the cache once. -/
theorem materialize_cache (amb : Ambient) (key : String) (s : SlotState σ ς) :
    (bridge.materialize amb key s).2.cache = (bridge.cache.get amb key s.cache).2 := by
  unfold materialize
  dsimp only
  split
  · rfl
  · rfl
  · split
    · rfl
    · refine andThen_preserves
        (P := fun after : SlotState σ ς => after.cache = (bridge.cache.get amb key s.cache).2) rfl ?_
      intro _ left _ same
      refine andThen_preserves
        (P := fun after : SlotState σ ς => after.cache = (bridge.cache.get amb key s.cache).2) ?_ ?_
      · exact (writeSlotFileAtomic_cache _ _ left).trans same
      · exact fun _ _ _ same => same

theorem restore_cache {model identity key : String}
    (named : bridge.cacheKey model identity = .ok key) (slotId : UInt32) (s : SlotState σ ς) :
    (bridge.restore digest amb slotId model identity s).2.cache =
      bridge.cache.step (.get amb key) s.cache := by
  unfold restore
  rw [named]
  refine andThen_preserves
    (P := fun after : SlotState σ ς => after.cache = (bridge.cache.get amb key s.cache).2) ?_ ?_
  · exact materialize_cache amb key s
  · intro bytes left _ same
    exact (loadSlot_cache slotId key bytes left).trans same

theorem contains_cache {model identity key : String}
    (named : bridge.cacheKey model identity = .ok key) (s : SlotState σ ς) :
    (bridge.contains amb model identity s).2.cache = bridge.cache.step (.get amb key) s.cache := by
  unfold contains
  rw [named]
  rfl

/-- A call of a slot without a key does nothing. -/
theorem unnamed_cache (digest : Digest) {model identity : String} {error : IoError}
    (unnamed : bridge.cacheKey model identity = .error error) (slotId : UInt32) (pinned : Bool)
    (s : SlotState σ ς) :
    bridge.capture digest amb slotId model identity pinned s = (.error error, s) ∧
      bridge.restore digest amb slotId model identity s = (.error error, s) ∧
      bridge.contains amb model identity s = (.error error, s) := by
  unfold capture restore contains
  rw [unnamed]
  exact ⟨rfl, rfl, rfl⟩

/-! ### What a `capture` does -/

/-- What is known of bytes that were read from a slot file. -/
theorem savedState_ok {filename : String} {action : LlamaServerSlotAction} {dir : SlotDir}
    {bytes : List UInt8} (read : bridge.savedState filename action dir = .ok bytes) :
    validSlotFilename filename = true ∧ dir.lookup filename = some (.file bytes) ∧
      bytes.length ≠ 0 ∧ bytes.length ≤ bridge.maxStateBytes := by
  have file : bridge.readSlotFile filename dir = .ok bytes := by
    unfold savedState at read
    split at read
    · cases read
    case h_2 found file =>
      split at read
      · cases read
        exact file
      · split at read
        · cases read
        · cases read
          exact file
  unfold readSlotFile validateSlotFilename at file
  by_cases valid : validSlotFilename filename = true
  · rw [if_pos valid] at file
    dsimp only at file
    refine ⟨valid, ?_⟩
    split at file
    · cases file
    · cases file
    case h_3 found there =>
      unfold validateStateLen at file
      split at file
      case h_1 => cases file
      case h_2 fine =>
        cases file
        split at fine
        · cases fine
        · exact ⟨there, by omega, by omega⟩
  · rw [if_neg valid] at file
    cases file

variable {contents : σ → String → Option StoredEntry} {domain : String → Prop}

/-- **What a `capture` does**: it puts the bytes it has read and returns their receipt, or it fails and
leaves the cache as it was. -/
theorem capture_cases (digest : Digest) (backed : bridge.cache.Backed contents domain)
    (faultless : amb.Faultless)
    (indexed : ContextCache.Indexed domain s.cache) {model identity key : String}
    (named : bridge.cacheKey model identity = .ok key) (slotId : UInt32) (pinned : Bool) :
    (∃ action bytes, bridge.capturedBytes slotId key s = some bytes ∧
      bytes.length ≠ 0 ∧ bytes.length ≤ bridge.maxStateBytes ∧
      validSlotFilename (slotFilenameForKey key) = true ∧
      bridge.cache.keyStrategy.Accepts key ∧
      (bridge.capture digest amb slotId model identity pinned s).1 =
        .ok (receiptFor digest key bytes action) ∧
      (bridge.capture digest amb slotId model identity pinned s).2.cache =
        bridge.cache.step (.put amb key bytes none pinned) s.cache) ∨
    ((∃ error, (bridge.capture digest amb slotId model identity pinned s).1 = .error error) ∧
      (bridge.capture digest amb slotId model identity pinned s).2.cache = s.cache) := by
  have kept : (bridge.saveSlot slotId (slotFilenameForKey key) s).2.cache = s.cache :=
    saveSlot_cache slotId (slotFilenameForKey key) s
  unfold capture capturedBytes
  rw [named]
  dsimp only
  generalize bridge.saveSlot slotId (slotFilenameForKey key) s = saved at kept ⊢
  obtain ⟨answer, left⟩ := saved
  change left.cache = s.cache at kept
  cases answer with
  | error error => exact Or.inr ⟨⟨error, rfl⟩, kept⟩
  | ok action =>
      rw [andThen_ok]
      dsimp only
      unfold storeState
      cases read : bridge.savedState (slotFilenameForKey key) action left.dir with
      | error error => exact Or.inr ⟨⟨error, rfl⟩, kept⟩
      | ok bytes =>
          obtain ⟨valid, there, filled, short⟩ := savedState_ok read
          have nonempty : bytes ≠ [] := fun empty => filled (by rw [empty]; rfl)
          by_cases accepted : bridge.cache.keyStrategy.Accepts key
          · have stored := ContextCache.put_ok backed faultless indexed accepted bytes none pinned
            left
            refine ⟨action, bytes, rfl, filled, short, valid, accepted, ?_, ?_⟩
            · dsimp only
              unfold cleanUp removeSlotFile removeSlotFileIfRegular validateSlotFilename
              rw [kept, stored, if_pos valid, there]
            · show (bridge.cache.put amb key bytes none pinned left.cache).2 = _
              rw [kept]
              rfl
          · right
            have same : (bridge.cache.put amb key bytes none pinned s.cache).2 = s.cache :=
              ContextCache.put_idle (Or.inl accepted) none pinned
            obtain ⟨error, failed⟩ : ∃ error,
                (bridge.cache.put amb key bytes none pinned s.cache).1 = .error error := by
              unfold ContextCache.put
              split
              case h_1 error _ => exact ⟨error, rfl⟩
              case h_2 fine => exact absurd fine accepted
            refine ⟨⟨error, ?_⟩, ?_⟩
            · dsimp only
              rw [kept, failed]
              rfl
            · show (bridge.cache.put amb key bytes none pinned left.cache).2 = _
              rw [kept]
              exact same

/-! ### The run -/

/-- Where the persistent tier lists other bytes of the slot than the last ones captured, memory holds a
copy. -/
def Covered (bridge : LlamaServerSlotBridge σ ς) (contents : σ → String → Option StoredEntry)
    (key : String) (t : SlotTraced σ ς) : Prop :=
  ∀ receipt bytes, t.last = some (receipt, bytes) →
    (bridge.cache.slot contents t.state.cache key).Outdated bytes →
      (bridge.cache.slot contents t.state.cache key).memory ≠ none

/-- The cache key that a call looks up. -/
def looksUp (bridge : LlamaServerSlotBridge σ ς) : SlotCall → Option String
  | .capture _ _ _ _ _ => none
  | .restore _ _ model identity => (bridge.cacheKey model identity).toOption
  | .contains _ model identity => (bridge.cacheKey model identity).toOption

/-- **The steps of a run** for one slot, by its cache key. A `capture` of the slot replaces what memory
holds of it: its bytes fit the memory tier, or memory holds no other ones. A `restore` or a `contains` of
the slot finds it covered. The rest is what the environment promises: no call of the store fails, and no
other slot has the same cache key. -/
structure Permitted (bridge : LlamaServerSlotBridge σ ς)
    (contents : σ → String → Option StoredEntry) (model identity key : String) (call : SlotCall)
    (t : SlotTraced σ ς) : Prop where
  replaces : ∀ amb slotId pinned bytes, call = .capture amb slotId model identity pinned →
    bridge.capturedBytes slotId key t.state = some bytes →
      bridge.cache.fitsMemory bytes = true ∨
        (bridge.cache.slot contents t.state.cache key).Remembers bytes
  covered : bridge.looksUp call = some key → bridge.Covered contents key t
  faultless : call.ambient.Faultless
  apart : ∀ amb slotId model' identity' pinned,
    call = .capture amb slotId model' identity' pinned →
      bridge.cacheKey model' identity' = .ok key → model' = model ∧ identity' = identity

/-- What is known of the last receipt: it is that of the bytes, and memory holds no others. -/
structure LastCapture (bridge : LlamaServerSlotBridge σ ς) (digest : Digest)
    (contents : σ → String → Option StoredEntry) (key : String) (cache : CacheState σ)
    (receipt : LlamaServerSlotReceipt) (bytes : List UInt8) : Prop where
  receipt : ∃ action, receipt = receiptFor digest key bytes action
  filled : bytes.length ≠ 0
  short : bytes.length ≤ bridge.maxStateBytes
  valid : validSlotFilename (slotFilenameForKey key) = true
  accepted : bridge.cache.keyStrategy.Accepts key
  remembers : (bridge.cache.slot contents cache key).Remembers bytes

/-- **The invariant**: the cache is coherent, nothing of the slot expires, and memory holds nothing of the
slot but the last bytes captured. -/
structure Served (bridge : LlamaServerSlotBridge σ ς) (digest : Digest)
    (contents : σ → String → Option StoredEntry) (key : String) (t : SlotTraced σ ς) : Prop where
  coherent : bridge.cache.AllCoherent contents t.state.cache
  unexpiring : (bridge.cache.slot contents t.state.cache key).Unexpiring
  last : ∀ receipt bytes, t.last = some (receipt, bytes) →
    bridge.LastCapture digest contents key t.state.cache receipt bytes

variable {model identity key : String} {t after : SlotTraced σ ς}

/-- A covered slot is current. -/
theorem Served.current (served : Served bridge digest contents key t)
    (covered : bridge.Covered contents key t) {receipt : LlamaServerSlotReceipt}
    {bytes : List UInt8} (captured : t.last = some (receipt, bytes)) :
    (bridge.cache.slot contents t.state.cache key).Current bytes :=
  ⟨(served.last receipt bytes captured).remembers, covered receipt bytes captured⟩

/-- A step that leaves the cache alone. -/
theorem served_idle (served : Served bridge digest contents key t)
    (same : after.state.cache = t.state.cache) (last : after.last = t.last) :
    Served bridge digest contents key after := by
  refine ⟨same ▸ served.coherent, ?_, ?_⟩
  · rw [same]
    exact served.unexpiring
  · rw [same, last]
    exact served.last

/-- **A call of the cache that captures nothing of the slot.** -/
theorem served_call (backed : bridge.cache.Backed contents domain)
    (served : Served bridge digest contents key t) (call : Call)
    (faultless : call.ambient.Faultless)
    (steps : after.state.cache = bridge.cache.step call t.state.cache) (last : after.last = t.last)
    (harmless : (∃ amb own, call = .get amb own ∧ (own = key → bridge.Covered contents key t)) ∨
      ∃ amb own value ttl pinned, call = .put amb own value ttl pinned ∧ own ≠ key) :
    Served bridge digest contents key after := by
  have indexed := served.coherent.indexed backed
  have coherent := ContextCache.step_coherent backed faultless.quiet served.coherent
  have step := ContextCache.step_slot backed faultless.quiet indexed key
  rw [← steps] at coherent step
  generalize effect : bridge.cache.slot contents after.state.cache key = slot at step
  have both : slot.Unexpiring ∧ ∀ receipt bytes, t.last = some (receipt, bytes) →
      slot.Remembers bytes := by
    cases step with
    | elsewhere _ unconcerned fades =>
        refine ⟨fun copy held => served.unexpiring copy (fades.holds held), ?_⟩
        intro receipt bytes captured
        exact fades.remembers (served.last receipt bytes captured).remembers
    | idle nothing =>
        exact ⟨served.unexpiring, fun receipt bytes captured =>
          (served.last receipt bytes captured).remembers⟩
    | put amb value ttl pinned result _ called accepted nonempty own =>
        rcases harmless with ⟨_, _, other, _⟩ | ⟨_, _, _, _, _, other, foreign⟩
        · rw [called] at other
          cases other
        · rw [called] at other
          cases other
          exact absurd rfl foreign
    | get amb result _ called accepted own =>
        refine ⟨fun copy held => served.unexpiring copy (own.holds held), ?_⟩
        intro receipt bytes captured
        rcases harmless with ⟨_, _, looked, covered⟩ | ⟨_, _, _, _, _, other, _⟩
        · rw [called] at looked
          cases looked
          exact own.remembers (served.current (covered rfl) captured) served.unexpiring
        · rw [called] at other
          cases other
    | emptied deleting =>
        rcases harmless with ⟨_, _, other, _⟩ | ⟨_, _, _, _, _, other, _⟩ <;>
          rcases deleting with ⟨_, called⟩ | ⟨_, called⟩ <;> rw [called] at other <;> cases other
  refine ⟨coherent, effect ▸ both.1, fun receipt bytes captured => ?_⟩
  rw [last] at captured
  exact { served.last receipt bytes captured with
    remembers := effect ▸ both.2 receipt bytes captured }

/-- **A `capture` of the slot**, which puts the bytes. -/
theorem served_put (backed : bridge.cache.Backed contents domain)
    (eternal : bridge.cache.defaultTtl.isZero = true)
    (served : Served bridge digest contents key t) (faultless : amb.Faultless)
    {bytes : List UInt8} {pinned : Bool} (action : LlamaServerSlotAction)
    (filled : bytes.length ≠ 0) (short : bytes.length ≤ bridge.maxStateBytes)
    (valid : validSlotFilename (slotFilenameForKey key) = true)
    (accepted : bridge.cache.keyStrategy.Accepts key)
    (replaces : bridge.cache.fitsMemory bytes = true ∨
      (bridge.cache.slot contents t.state.cache key).Remembers bytes)
    (steps : after.state.cache = bridge.cache.step (.put amb key bytes none pinned) t.state.cache)
    (last : after.last = some (receiptFor digest key bytes action, bytes)) :
    Served bridge digest contents key after := by
  have indexed := served.coherent.indexed backed
  have nonempty : bytes ≠ [] := fun empty => filled (by rw [empty]; rfl)
  have coherent : bridge.cache.AllCoherent contents
      (bridge.cache.step (.put amb key bytes none pinned) t.state.cache) :=
    ContextCache.step_coherent backed faultless.quiet served.coherent
  rw [← steps] at coherent
  obtain ⟨result, left, done, touches, _⟩ :=
    ContextCache.put_slot backed faultless.quiet indexed accepted nonempty none pinned
  have same : after.state.cache = left := by
    rw [steps]
    exact congrArg Prod.snd done
  have own := touches.own
  rw [own.succeeded (faultless .write)] at own
  rw [← same] at own
  refine ⟨coherent, fun copy held => ?_, fun receipt other captured => ?_⟩
  · rcases own.holds held with before | new
    · exact served.unexpiring copy before
    · rw [new]
      show expiryAt amb.now bridge.cache.defaultTtl = 0
      unfold expiryAt
      rw [if_pos eternal]
  · rw [last] at captured
    cases captured
    exact ⟨⟨action, rfl⟩, filled, short, valid, accepted, own.remembers replaces⟩

/-- **Every step keeps the invariant.** -/
theorem served_step (backed : bridge.cache.Backed contents domain)
    (named : bridge.cacheKey model identity = .ok key)
    (eternal : bridge.cache.defaultTtl.isZero = true) {call : SlotCall}
    (permitted : Permitted bridge contents model identity key call t)
    (served : Served bridge digest contents key t) :
    Served bridge digest contents key (bridge.trace digest model identity key call t) := by
  have indexed := served.coherent.indexed backed
  cases call with
  | restore amb slotId model' identity' =>
      cases own : bridge.cacheKey model' identity' with
      | error error =>
          exact served_idle served
            (congrArg (fun done => done.2.cache) (unnamed_cache digest own slotId false t.state).2.1) rfl
      | ok key' =>
          exact served_call backed served (.get amb key') permitted.faultless
            (restore_cache own slotId t.state) rfl
            (Or.inl ⟨amb, key', rfl, fun same => permitted.covered (by
              show (bridge.cacheKey model' identity').toOption = some key
              rw [own, same]
              rfl)⟩)
  | contains amb model' identity' =>
      cases own : bridge.cacheKey model' identity' with
      | error error =>
          exact served_idle served
            (congrArg (fun done => done.2.cache) (unnamed_cache digest own 0 false t.state).2.2) rfl
      | ok key' =>
          exact served_call backed served (.get amb key') permitted.faultless
            (contains_cache own t.state) rfl
            (Or.inl ⟨amb, key', rfl, fun same => permitted.covered (by
              show (bridge.cacheKey model' identity').toOption = some key
              rw [own, same]
              rfl)⟩)
  | capture amb slotId model' identity' pinned =>
      have faultless : amb.Faultless := permitted.faultless
      have foreign : bridge.cacheKey model' identity' ≠ .ok key →
          (bridge.trace digest model identity key (.capture amb slotId model' identity' pinned) t).last
            = t.last := by
        intro different
        refine if_neg ?_
        rintro ⟨rfl, rfl⟩
        exact different named
      cases own : bridge.cacheKey model' identity' with
      | error error =>
          refine served_idle served ?_ (foreign (by rw [own]; intro same; cases same))
          exact congrArg (fun done => done.2.cache) (unnamed_cache digest own slotId pinned t.state).1
      | ok key' =>
          have cases_of := capture_cases digest backed faultless indexed own slotId pinned
          by_cases same : key' = key
          · subst same
            obtain ⟨rfl, rfl⟩ := permitted.apart amb slotId model' identity' pinned rfl own
            have last : (bridge.trace digest model' identity' key'
                (.capture amb slotId model' identity' pinned) t).last =
                (bridge.captured digest amb slotId model' identity' key' pinned t.state).or t.last :=
              if_pos ⟨rfl, rfl⟩
            unfold captured at last
            rcases cases_of with ⟨action, bytes, read, filled, short, valid, accepted, answer, steps⟩ |
              ⟨⟨error, failed⟩, steps⟩
            · rw [answer, read] at last
              exact served_put backed eternal served faultless action filled short valid accepted
                (permitted.replaces amb slotId pinned bytes rfl read) steps last
            · rw [failed] at last
              exact served_idle served steps last
          · have last := foreign (by
              rw [own]
              intro equal
              cases equal
              exact same rfl)
            rcases cases_of with ⟨action, bytes, _, _, _, _, _, _, steps⟩ | ⟨_, steps⟩
            · exact served_call backed served (.put amb key' bytes none pinned) faultless
                steps last (Or.inr ⟨amb, key', bytes, none, pinned, rfl, same⟩)
            · exact served_idle served steps last

end LlamaServerSlotBridge

end RivetCache
