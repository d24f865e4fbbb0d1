/-
**Capturing the blocks of a runtime, and restoring them.**

`capture_from` asks an adapter for the blocks of a request and puts them, once their keys are the ones
requested, in order. `restore_into` gets every block before it calls the adapter.

* `capture_refused`: blocks of other keys are not put;
* `putBlocks_first`: what the puts leave in the first tier, whatever the write policy;
* `restoreInto_cases`: the adapter is called once, with all the blocks, or a `get` missed or failed and the
  adapter is not called;
* `captured_restored`: what was captured is restored. `stillHeld_eternal`: blocks without a TTL do not expire.
-/

import RivetCache.Kv.Prefix
import RivetCache.Kv.WriteThrough

set_option linter.unusedSectionVars false

namespace RivetCache

open Library

/-! ### The adapter -/

/-- `RuntimeKvAdapter`, over the state of a runtime. -/
structure RuntimeKvAdapter (ρ : Type) where
  runtimeName : String
  capture : KvCaptureRequest → ρ → Except IoError (List KvBlock) × ρ
  restore : List KvBlock → ρ → Except IoError Unit × ρ

variable {τ : Nat → Type} {ρ : Type}

namespace KvEngine

/-- `capture_from`, the loop. -/
def putBlocks (engine : KvEngine τ) (ttl : Option Duration) (pinned : Bool) :
    List KvBlock → KvProgram Unit
  | [] => pure ()
  | block :: rest => do
      engine.put block ttl pinned
      engine.putBlocks ttl pinned rest

/-- `capture_from`, the test of what the adapter has returned. -/
def mismatched (blocks : List KvBlock) (expected : List KvBlockKey) : Bool :=
  blocks.length != expected.length ||
    (blocks.zip expected).any fun pair => pair.1.key != pair.2

/-- `capture_from`. -/
def captureFrom (engine : KvEngine τ) (digest : Digest) (adapter : RuntimeKvAdapter ρ)
    (request : KvCaptureRequest) (ttl : Option Duration) (pinned : Bool) (s : KvState τ × ρ) :
    Except IoError Nat × (KvState τ × ρ) :=
  match request.blockKeys digest with
  | .error error => (.error error, s)
  | .ok expected =>
      match adapter.capture request s.2 with
      | (.error error, runtime) => (.error error, s.1, runtime)
      | (.ok blocks, runtime) =>
          if mismatched blocks expected then
            (.error ⟨.invalidData, s!"runtime adapter {adapter.runtimeName} returned blocks that do "
              ++ "not match the capture request"⟩, s.1, runtime)
          else
            match engine.run (engine.putBlocks ttl pinned blocks) s.1 with
            | (.error error, left) => (.error error, left, runtime)
            | (.ok (), left) => (.ok blocks.length, left, runtime)

/-- `restore_into`, the loop. -/
def gather (engine : KvEngine τ) : List KvBlockKey → KvProgram (Option (List KvBlock))
  | [] => pure (some [])
  | key :: rest => do
      match ← engine.get key with
      | none => pure none
      | some block => do
          match ← engine.gather rest with
          | none => pure none
          | some blocks => pure (some (block :: blocks))

/-- `restore_into`. -/
def restoreInto (engine : KvEngine τ) (adapter : RuntimeKvAdapter ρ) (keys : List KvBlockKey)
    (s : KvState τ × ρ) : Except IoError Bool × (KvState τ × ρ) :=
  match engine.run (engine.gather keys) s.1 with
  | (.error error, left) => (.error error, left, s.2)
  | (.ok none, left) => (.ok false, left, s.2)
  | (.ok (some blocks), left) =>
      match adapter.restore blocks s.2 with
      | (.error error, runtime) => (.error error, left, runtime)
      | (.ok (), runtime) => (.ok true, left, runtime)

end KvEngine

/-! ### The keys of a request -/

/-- The keys of a request are different: their block numbers are. -/
theorem KvCaptureRequest.blockKeys_nodup {digest : Digest} {request : KvCaptureRequest}
    {keys : List KvBlockKey} (cut : request.blockKeys digest = .ok keys) : keys.Nodup := by
  unfold blockKeys at cut
  split_ifs at cut with _ _ _ many
  cases cut
  refine List.Nodup.map_on ?_ List.nodup_range
  intro first before second after same
  have index : (UInt32.ofNat first).toNat = (UInt32.ofNat second).toNat :=
    congrArg (fun key : KvBlockKey => key.blockIndex.toNat) same
  rw [UInt32.toNat_ofNat', UInt32.toNat_ofNat'] at index
  have := List.mem_range.mp before
  have := List.mem_range.mp after
  rwa [Nat.mod_eq_of_lt (by omega), Nat.mod_eq_of_lt (by omega)] at index

namespace KvEngine

variable {engine : KvEngine τ}
  {contents : (index : Nat) → τ index → KvBlockKey → Option KvTierEntry}

/-- The test compares the keys. -/
theorem mismatched_iff {blocks : List KvBlock} {keys : List KvBlockKey} :
    mismatched blocks keys = false ↔ blocks.map KvBlock.key = keys := by
  induction blocks generalizing keys with
  | nil => cases keys <;> simp [mismatched]
  | cons block rest ih =>
      cases keys with
      | nil => simp [mismatched]
      | cons key others =>
          rw [List.map_cons, List.cons.injEq, ← ih]
          simp only [mismatched, List.length_cons, List.zip_cons_cons, List.any_cons, bne,
            Bool.or_eq_false_iff, Bool.not_eq_false', beq_iff_eq, Nat.add_right_cancel_iff]
          tauto

/-- **Nothing is stored** unless the adapter has returned the blocks of the request, in order. -/
theorem capture_refused {digest : Digest} {adapter : RuntimeKvAdapter ρ} {request : KvCaptureRequest}
    {s : KvState τ} {runtime : ρ}
    (different : ∀ keys blocks, request.blockKeys digest = .ok keys →
      (adapter.capture request runtime).1 = .ok blocks → blocks.map KvBlock.key ≠ keys)
    (ttl : Option Duration) (pinned : Bool) :
    (engine.captureFrom digest adapter request ttl pinned (s, runtime)).2.1 = s ∧
      ∃ error, (engine.captureFrom digest adapter request ttl pinned (s, runtime)).1 =
        .error error := by
  unfold captureFrom
  cases cut : request.blockKeys digest with
  | error error => exact ⟨rfl, error, rfl⟩
  | ok keys =>
      dsimp only
      cases answer : adapter.capture request runtime with
      | mk result after =>
          cases result with
          | error error => exact ⟨rfl, error, rfl⟩
          | ok blocks =>
              have apart := different keys blocks cut (congrArg Prod.fst answer)
              have unlike : mismatched blocks keys = true := by
                rw [← Bool.not_eq_false]
                exact fun alike => apart (mismatched_iff.mp alike)
              dsimp only
              rw [if_pos unlike]
              exact ⟨rfl, _, rfl⟩

/-! ### The first tier -/

/-- The loop of `put` leaves alone the tiers it does not write. -/
theorem putEach_elsewhere {entry : KvTierEntry} {index : Nat} {tiers earlier : List Nat}
    (elsewhere : index ∉ tiers) {s after : KvState τ}
    (done : engine.run (engine.putEach entry tiers earlier) s = (.ok (), after)) :
    after.held contents index = s.held contents index := by
  induction tiers generalizing earlier s with
  | nil =>
      cases done
      rfl
  | cons tier rest ih =>
      rw [List.mem_cons, not_or] at elsewhere
      unfold putEach run at done
      obtain ⟨outcome, middle, attempted, next⟩ := Program.run_bind_ok.mp done
      cases outcome with
      | error error =>
          obtain ⟨_, _, _, failed⟩ := Program.run_bind_ok.mp next
          cases failed
      | ok _ =>
          rw [ih elsewhere.2 next]
          have accepted := Program.run_attempt_ok.mp attempted
          unfold putEntryTo at accepted
          obtain ⟨_, _, put⟩ := Program.run_done_bind_ok.mp accepted
          have left : (engine.handle (.put tier entry) s).2 = middle := congrArg Prod.snd put
          rw [← left]
          exact held_setTier_of_ne s elsewhere.1 _

/-- **`put` writes the first tier**, whatever the write policy. -/
theorem put_first (mapLike : engine.MapTiers contents) (inside : 0 < engine.count) {block : KvBlock}
    {ttl : Option Duration} {pinned : Bool} {s after : KvState τ}
    (done : engine.run (engine.put block ttl pinned) s = (.ok (), after)) :
    after.held contents 0 =
      Function.update (s.held contents 0) block.key (some (engine.written block ttl pinned s)) := by
  obtain ⟨reads, _, putting⟩ := run_put engine block ttl pinned s
  rw [putting] at done
  obtain ⟨_, middle, written, counted⟩ := andThen_eq_ok.mp done
  cases counted
  show middle.held contents 0 = _
  have direct : ∀ {left : KvState τ}, engine.run (engine.putEntryTo 0
      (engine.written block ttl pinned s)) { s with reads := reads } = (.ok (), left) →
      left.held contents 0 = Function.update (s.held contents 0) block.key
        (some (engine.written block ttl pinned s)) := by
    intro left put
    rw [run_putEntryTo inside] at put
    have held := held_put (mapLike 0 inside) _ (congrArg Prod.fst put)
    rw [congrArg Prod.snd put] at held
    rw [held]
    exact Function.update_self _ _ _
  unfold putEntry at written
  cases policy : engine.writePolicy with
  | primary =>
      rw [policy] at written
      exact direct written
  | all =>
      rw [policy] at written
      obtain ⟨count, same⟩ := Nat.exists_eq_add_of_lt inside
      have first : List.range engine.count = 0 :: (List.range count).map Nat.succ := by
        rw [same, Nat.zero_add, List.range_succ_eq_map]
      rw [first] at written
      unfold putEach run at written
      obtain ⟨outcome, left, attempted, next⟩ := Program.run_bind_ok.mp written
      cases outcome with
      | error error =>
          obtain ⟨_, _, _, failed⟩ := Program.run_bind_ok.mp next
          cases failed
      | ok _ =>
          rw [putEach_elsewhere (by simp) next]
          exact direct (Program.run_attempt_ok.mp attempted)

/-- **What the puts leave in the first tier**: every block, and the other keys as they were. -/
theorem putBlocks_first (mapLike : engine.MapTiers contents) (inside : 0 < engine.count)
    {ttl : Option Duration} {pinned : Bool} {blocks : List KvBlock} {s after : KvState τ}
    (distinct : (blocks.map KvBlock.key).Nodup)
    (done : engine.run (engine.putBlocks ttl pinned blocks) s = (.ok (), after)) :
    (∀ block ∈ blocks, ∃ entry, after.held contents 0 block.key = some entry ∧
      entry.block = block ∧ ∃ t, entry.expiresAt = engine.expiry ttl t) ∧
    ∀ key ∉ blocks.map KvBlock.key, after.held contents 0 key = s.held contents 0 key := by
  induction blocks generalizing s with
  | nil =>
      cases done
      exact ⟨fun _ member => (List.not_mem_nil member).elim, fun _ _ => rfl⟩
  | cons block rest ih =>
      rw [List.map_cons, List.nodup_cons] at distinct
      unfold putBlocks run at done
      obtain ⟨_, middle, first, next⟩ := Program.run_bind_ok.mp done
      have written := put_first mapLike inside first
      obtain ⟨present, others⟩ := ih distinct.2 next
      refine ⟨fun other member => ?_, fun key absent => ?_⟩
      · rcases List.mem_cons.mp member with rfl | later
        · rw [others _ distinct.1, written, Function.update_self]
          exact ⟨_, rfl, rfl, s, rfl⟩
        · exact present other later
      · rw [List.map_cons, List.mem_cons, not_or] at absent
        rw [others key absent.2, written, Function.update_of_ne absent.1]

/-! ### Getting all the blocks -/

/-- Nothing has written or removed the keys in the first tier, and no entry there expires before a
`restore_into` of the keys has read it. -/
structure StillHeld (engine : KvEngine τ)
    (contents : (index : Nat) → τ index → KvBlockKey → Option KvTierEntry) (keys : List KvBlockKey)
    (s later : KvState τ) : Prop where
  kept : ∀ key ∈ keys, later.held contents 0 key = s.held contents 0 key
  live : ∀ key ∈ keys, ∀ entry, later.held contents 0 key = some entry →
    ∀ position < keys.length, entry.expired (engine.clock (later.reads + position)) = false

/-- The gets of tiers do not fail. -/
def GetsSucceed (engine : KvEngine τ) : Prop :=
  ∀ index < engine.count, ∀ key state, ∃ answer, ((engine.tier index).get key state).1 = .ok answer

/-- The first tier serves without promotion. -/
theorem run_serve_first (copies : ∀ bytes, engine.allocator.copy bytes = .ok bytes)
    (entry : KvTierEntry) (s : KvState τ) :
    ∃ after, engine.run (engine.serve entry 0) s = (.ok (some entry.block), after) ∧
      after.tiers = s.tiers ∧ after.reads = s.reads := by
  have still : (engine.promoteOnRead && decide (0 < 0)) = false := Bool.and_false _
  unfold serve run
  simp only [still, Bool.false_eq_true, if_false, copies]
  exact ⟨_, rfl, rfl, rfl⟩

/-- A live entry of a tier is served. -/
theorem run_getFrom_hit {key : KvBlockKey} {now tier : Nat} {entry : KvTierEntry}
    {s : KvState τ} (found : ((engine.tier tier).get key (s.tiers tier)).1 = .ok (some entry))
    (live : entry.expired now = false) (rest : List Nat) :
    engine.run (engine.getFrom key now (tier :: rest)) s =
      engine.run (engine.serve entry tier) (engine.handle (.get tier key) s).2 := by
  have asked : engine.run (tierGet tier key) s =
      (.ok (some entry), (engine.handle (.get tier key) s).2) := Prod.ext found rfl
  unfold run at asked
  unfold getFrom run
  rw [Program.run_bind, asked, andThen_ok]
  dsimp only
  rw [if_neg (by rw [live]; exact Bool.false_ne_true)]

/-- **`get` of a key that the first tier holds** serves that block and changes no map. -/
theorem get_first (mapLike : engine.MapTiers contents) (answers : engine.GetsSucceed)
    (inside : 0 < engine.count) (copies : ∀ bytes, engine.allocator.copy bytes = .ok bytes)
    {key : KvBlockKey} {entry : KvTierEntry} {s : KvState τ}
    (held : s.held contents 0 key = some entry)
    (live : entry.expired (engine.clock s.reads) = false) :
    ∃ after, engine.run (engine.get key) s = (.ok (some entry.block), after) ∧
      after.held contents = s.held contents ∧ after.reads = s.reads + 1 := by
  obtain ⟨count, same⟩ := Nat.exists_eq_add_of_lt inside
  have first : List.range engine.count = 0 :: (List.range count).map Nat.succ := by
    rw [same, Nat.zero_add, List.range_succ_eq_map]
  let timed : KvState τ := (engine.handle .now s).2
  obtain ⟨answer, answered⟩ := answers 0 inside key (timed.tiers 0)
  have found : answer = some entry :=
    (got_held (mapLike 0 inside) timed answered).trans held
  rw [found] at answered
  obtain ⟨after, served, tiers, reads⟩ :=
    run_serve_first copies entry (engine.handle (.get 0 key) timed).2
  refine ⟨after, ?_, ?_, reads⟩
  · have getting : engine.run (engine.get key) s =
        engine.run (engine.getFrom key (engine.clock s.reads) (List.range engine.count)) timed :=
      Program.run_bind _ _ s
    rw [getting, first, run_getFrom_hit answered live]
    exact served
  · have same_maps : after.held contents = (engine.handle (.get 0 key) timed).2.held contents := by
      unfold KvState.held
      rw [tiers]
    rw [same_maps]
    exact held_get (mapLike 0 inside) timed key

/-- The gets of a `restore_into`, all with a block. -/
inductive Hits (engine : KvEngine τ) : List KvBlockKey → List KvBlock → KvState τ → KvState τ → Prop
  | nil (s : KvState τ) : Hits engine [] [] s s
  | cons {key : KvBlockKey} {rest : List KvBlockKey} {block : KvBlock} {blocks : List KvBlock}
      {s middle after : KvState τ} (hit : engine.run (engine.get key) s = (.ok (some block), middle))
      (others : Hits engine rest blocks middle after) :
      Hits engine (key :: rest) (block :: blocks) s after

/-- **The first tier holds the blocks**: every `get` hits. -/
theorem hits_of_held (mapLike : engine.MapTiers contents) (answers : engine.GetsSucceed)
    (inside : 0 < engine.count) (copies : ∀ bytes, engine.allocator.copy bytes = .ok bytes)
    {blocks : List KvBlock} {s : KvState τ}
    (held : ∀ block ∈ blocks, ∃ entry, s.held contents 0 block.key = some entry ∧
      entry.block = block)
    (live : ∀ block ∈ blocks, ∀ entry, s.held contents 0 block.key = some entry →
      ∀ position < blocks.length, entry.expired (engine.clock (s.reads + position)) = false) :
    ∃ after, engine.Hits (blocks.map KvBlock.key) blocks s after ∧
      after.held contents = s.held contents := by
  induction blocks generalizing s with
  | nil => exact ⟨s, .nil s, rfl⟩
  | cons block rest ih =>
      obtain ⟨entry, present, same⟩ := held block List.mem_cons_self
      have now := live block List.mem_cons_self entry present 0 (Nat.succ_pos _)
      obtain ⟨middle, hit, maps, reads⟩ := get_first mapLike answers inside copies present now
      rw [same] at hit
      obtain ⟨after, others, last⟩ := ih (s := middle)
        (fun other member => by
          rw [maps]
          exact held other (List.mem_cons_of_mem _ member))
        (fun other member found there position before => by
          rw [maps] at there
          have later := live other (List.mem_cons_of_mem _ member) found there (position + 1)
            (Nat.succ_lt_succ before)
          rw [reads]
          rwa [Nat.add_assoc, Nat.add_comm 1 position])
      exact ⟨after, .cons hit others, last.trans maps⟩

/-- All gets hit: all blocks are there. -/
theorem Hits.gather {keys : List KvBlockKey} {blocks : List KvBlock} {s after : KvState τ}
    (hits : engine.Hits keys blocks s after) :
    engine.run (engine.gather keys) s = (.ok (some blocks), after) := by
  induction hits with
  | nil s => rfl
  | cons hit others ih =>
      unfold run at hit ih
      unfold KvEngine.gather run
      rw [Program.run_bind, hit, andThen_ok, Program.run_bind, ih, andThen_ok]
      rfl

/-- A `get` without a block: a miss, or an error. -/
inductive Stops (engine : KvEngine τ) (key : KvBlockKey) (s after : KvState τ) :
    Except IoError (Option (List KvBlock)) → Prop
  | miss (missed : engine.run (engine.get key) s = (.ok none, after)) :
      Stops engine key s after (.ok none)
  | failed (error : IoError) (raised : engine.run (engine.get key) s = (.error error, after)) :
      Stops engine key s after (.error error)

/-- **The loop of `restore_into`**: all gets hit, or a first one does not. -/
theorem gather_cases (engine : KvEngine τ) (keys : List KvBlockKey) (s : KvState τ) :
    (∃ blocks after, engine.Hits keys blocks s after) ∨
    ∃ hit key rest blocks middle after answer, keys = hit ++ key :: rest ∧
      engine.Hits hit blocks s middle ∧ engine.Stops key middle after answer ∧
      engine.run (engine.gather keys) s = (answer, after) := by
  induction keys generalizing s with
  | nil => exact Or.inl ⟨[], s, .nil s⟩
  | cons key rest ih =>
      rcases outcome : engine.run (engine.get key) s with ⟨result, middle⟩
      have step : engine.run (engine.gather (key :: rest)) s =
          andThen (engine.run (engine.get key) s) fun found s =>
            Program.run engine.handle (match found with
              | none => pure none
              | some block => do
                  match ← engine.gather rest with
                  | none => pure none
                  | some blocks => pure (some (block :: blocks))) s := Program.run_bind _ _ s
      cases result with
      | error error =>
          refine Or.inr ⟨[], key, rest, [], s, middle, .error error, rfl, .nil s,
            .failed error outcome, ?_⟩
          rw [step, outcome]
          rfl
      | ok found =>
          cases found with
          | none =>
              refine Or.inr ⟨[], key, rest, [], s, middle, .ok none, rfl, .nil s, .miss outcome, ?_⟩
              rw [step, outcome]
              rfl
          | some block =>
              rcases ih middle with ⟨blocks, after, hits⟩ |
                ⟨hit, stopping, left, blocks, last, after, answer, split, hits, stops, gathered⟩
              · exact Or.inl ⟨block :: blocks, after, .cons outcome hits⟩
              · refine Or.inr ⟨key :: hit, stopping, left, block :: blocks, last, after, answer,
                  by rw [split]; rfl, .cons outcome hits, stops, ?_⟩
                rw [step, outcome, andThen_ok, Program.run_bind]
                unfold run at gathered
                rw [gathered]
                cases stops <;> rfl

/-! ### Restoring -/

/-- The adapter is called with the blocks. -/
def called (adapter : RuntimeKvAdapter ρ) (blocks : List KvBlock) (left : KvState τ) (runtime : ρ) :
    Except IoError Bool × (KvState τ × ρ) :=
  ((adapter.restore blocks runtime).1.map fun _ => true, left, (adapter.restore blocks runtime).2)

/-- All gets hit: the adapter is called once. -/
theorem restoreInto_hits {adapter : RuntimeKvAdapter ρ} {keys : List KvBlockKey}
    {blocks : List KvBlock} {s left : KvState τ} (hits : engine.Hits keys blocks s left)
    (runtime : ρ) :
    engine.restoreInto adapter keys (s, runtime) = called adapter blocks left runtime := by
  unfold restoreInto called
  rw [hits.gather]
  dsimp only
  rcases adapter.restore blocks runtime with ⟨result, after⟩
  cases result <;> rfl

/-- **`restore_into` of any keys**: all gets hit and the adapter is called once, with all the blocks; or a
first `get` misses or fails, and the adapter is not called. -/
theorem restoreInto_cases (engine : KvEngine τ) (adapter : RuntimeKvAdapter ρ)
    (keys : List KvBlockKey) (s : KvState τ) (runtime : ρ) :
    (∃ blocks left, engine.Hits keys blocks s left ∧
      engine.restoreInto adapter keys (s, runtime) = called adapter blocks left runtime) ∨
    ∃ hit key rest blocks middle left, keys = hit ++ key :: rest ∧
      engine.Hits hit blocks s middle ∧
      ((engine.run (engine.get key) middle = (.ok none, left) ∧
          engine.restoreInto adapter keys (s, runtime) = (.ok false, left, runtime)) ∨
        ∃ error, engine.run (engine.get key) middle = (.error error, left) ∧
          engine.restoreInto adapter keys (s, runtime) = (.error error, left, runtime)) := by
  rcases engine.gather_cases keys s with ⟨blocks, left, hits⟩ |
    ⟨hit, key, rest, blocks, middle, left, answer, split, hits, stops, gathered⟩
  · exact Or.inl ⟨blocks, left, hits, restoreInto_hits hits runtime⟩
  · refine Or.inr ⟨hit, key, rest, blocks, middle, left, split, hits, ?_⟩
    unfold restoreInto
    rw [gathered]
    cases stops with
    | miss missed => exact Or.inl ⟨missed, rfl⟩
    | failed error raised => exact Or.inr ⟨error, raised, rfl⟩

/-- **What a successful `capture_from` has done**: it has put the blocks of the request. -/
theorem capture_done {digest : Digest} {adapter : RuntimeKvAdapter ρ} {request : KvCaptureRequest}
    {ttl : Option Duration} {pinned : Bool} {s after : KvState τ} {runtime left : ρ} {count : Nat}
    (done : engine.captureFrom digest adapter request ttl pinned (s, runtime) =
      (.ok count, after, left)) :
    ∃ keys blocks, request.blockKeys digest = .ok keys ∧
      (adapter.capture request runtime).1 = .ok blocks ∧ blocks.map KvBlock.key = keys ∧
      count = keys.length ∧
      engine.run (engine.putBlocks ttl pinned blocks) s = (.ok (), after) := by
  unfold captureFrom at done
  split at done
  · cases done
  case h_2 keys cut =>
    dsimp only at done
    split at done
    · cases done
    case h_2 blocks runtime' answered =>
      split at done
      · cases done
      case isFalse alike =>
        rw [Bool.not_eq_true] at alike
        have same := mismatched_iff.mp alike
        split at done
        · cases done
        case h_2 stored put =>
          cases done
          refine ⟨keys, blocks, cut, congrArg Prod.fst answered, same, ?_, put⟩
          rw [← same, List.length_map]

/-- Blocks captured without a TTL do not expire. -/
theorem stillHeld_eternal (mapLike : engine.MapTiers contents) (inside : 0 < engine.count)
    {digest : Digest} {adapter : RuntimeKvAdapter ρ} {request : KvCaptureRequest} {pinned : Bool}
    {s after : KvState τ} {runtime left : ρ} {count : Nat} {keys : List KvBlockKey}
    (done : engine.captureFrom digest adapter request none pinned (s, runtime) =
      (.ok count, after, left))
    (cut : request.blockKeys digest = .ok keys) : engine.StillHeld contents keys after after := by
  obtain ⟨found, blocks, cut_again, _, same, _, put⟩ := capture_done done
  rw [cut] at cut_again
  cases cut_again
  have distinct : (blocks.map KvBlock.key).Nodup := same ▸ KvCaptureRequest.blockKeys_nodup cut
  refine ⟨fun _ _ => rfl, fun key member entry held position before => ?_⟩
  rw [← same] at member
  obtain ⟨block, present, rfl⟩ := List.mem_map.mp member
  obtain ⟨stored, there, _, _, expires⟩ :=
    (putBlocks_first mapLike inside distinct put).1 block present
  rw [held] at there
  cases there
  unfold KvTierEntry.expired
  rw [expires]
  rfl

/-- **Capturing, then restoring.** Over map-like tiers whose gets do not fail, with an allocator that copies
and any write policy and promotion: a `capture_from` that succeeds counts the keys of the request, and as
long as nothing writes these keys and nothing of them expires, `restore_into` of the keys calls the adapter
once, with the captured blocks in the order of the keys. A `capture_from` stores nothing unless the adapter
returned the blocks of the request. And `restore_into` of any keys calls the adapter once, if every `get`
hits, or not at all, if one misses or fails. -/
theorem captured_restored (mapLike : engine.MapTiers contents) (answers : engine.GetsSucceed)
    (inside : 0 < engine.count) (copies : ∀ bytes, engine.allocator.copy bytes = .ok bytes)
    (digest : Digest) (source : RuntimeKvAdapter ρ) {ρ' : Type} (target : RuntimeKvAdapter ρ')
    (request : KvCaptureRequest) (ttl : Option Duration) (pinned : Bool) (s : KvState τ)
    (runtime : ρ) :
    (∀ count after left,
      engine.captureFrom digest source request ttl pinned (s, runtime) = (.ok count, after, left) →
      ∃ keys blocks, request.blockKeys digest = .ok keys ∧
        (source.capture request runtime).1 = .ok blocks ∧ blocks.map KvBlock.key = keys ∧
        count = keys.length ∧
        ∀ later, engine.StillHeld contents keys after later → ∀ other : ρ', ∃ last,
          engine.restoreInto target keys (later, other) = called target blocks last other) ∧
    ((∀ keys blocks, request.blockKeys digest = .ok keys →
        (source.capture request runtime).1 = .ok blocks → blocks.map KvBlock.key ≠ keys) →
      (engine.captureFrom digest source request ttl pinned (s, runtime)).2.1 = s ∧
        ∃ error, (engine.captureFrom digest source request ttl pinned (s, runtime)).1 =
          .error error) ∧
    ∀ (keys : List KvBlockKey) (other : ρ'),
      (∃ blocks left, engine.Hits keys blocks s left ∧
        engine.restoreInto target keys (s, other) = called target blocks left other) ∨
      ∃ hit key rest blocks middle left, keys = hit ++ key :: rest ∧
        engine.Hits hit blocks s middle ∧
        ((engine.run (engine.get key) middle = (.ok none, left) ∧
            engine.restoreInto target keys (s, other) = (.ok false, left, other)) ∨
          ∃ error, engine.run (engine.get key) middle = (.error error, left) ∧
            engine.restoreInto target keys (s, other) = (.error error, left, other)) := by
  refine ⟨fun count after left done => ?_, fun different => capture_refused different ttl pinned,
    fun keys other => engine.restoreInto_cases target keys s other⟩
  obtain ⟨keys, blocks, cut, captured, same, counted, put⟩ := capture_done done
  refine ⟨keys, blocks, cut, captured, same, counted, fun later still other => ?_⟩
  have distinct : (blocks.map KvBlock.key).Nodup := same ▸ KvCaptureRequest.blockKeys_nodup cut
  have member : ∀ block ∈ blocks, block.key ∈ keys :=
    fun block inside => same ▸ List.mem_map_of_mem inside
  have stored := (putBlocks_first mapLike inside distinct put).1
  obtain ⟨last, hits, _⟩ := hits_of_held mapLike answers inside copies (s := later)
    (fun block present => by
      rw [still.kept block.key (member block present)]
      obtain ⟨entry, held, own, _⟩ := stored block present
      exact ⟨entry, held, own⟩)
    (fun block present entry held position before =>
      still.live block.key (member block present) entry held position (by
        rwa [← same, List.length_map]))
  rw [same] at hits
  exact ⟨last, restoreInto_hits hits other⟩

/-! ### A recording adapter -/

/-- `RecordingAdapter`, with all the calls of `restore`. -/
def recordingAdapter : RuntimeKvAdapter (List (List KvBlock)) where
  runtimeName := "recording-test-runtime"
  capture request calls :=
    (match request.blockKeys zeroDigest with
      | .error error => .error error
      | .ok keys => .ok (keys.mapIdx fun index key => ⟨key, ⟨[UInt8.ofNat (index + 1)], by simp⟩⟩),
      calls)
  restore blocks calls := (.ok (), calls ++ [blocks])

/-- Four tokens, in blocks of two. -/
def fourTokens : KvCaptureRequest := ⟨"runtime-model", [1, 2, 3, 4], 2, 0, 8, 1⟩

/-- Two blocks over two memory tiers. -/
theorem captured_restored_recorded :
    ∃ after keys blocks,
      twoMemoryTiers.captureFrom zeroDigest recordingAdapter fourTokens none false
        (KvState.pair MemoryTier.empty MemoryTier.empty, []) = (.ok 2, after, []) ∧
      fourTokens.blockKeys zeroDigest = .ok keys ∧ blocks.map KvBlock.key = keys ∧
      ∃ last, twoMemoryTiers.restoreInto recordingAdapter keys (after, []) =
        (.ok true, last, [blocks]) := by
  have done : twoMemoryTiers.captureFrom zeroDigest recordingAdapter fourTokens none false
      (KvState.pair MemoryTier.empty MemoryTier.empty, []) = (.ok 2, _, []) := rfl
  have inside : 0 < twoMemoryTiers.count := by decide
  have answers : twoMemoryTiers.GetsSucceed := by
    intro index _ key state
    match index, state with
    | 0, state => exact ⟨_, rfl⟩
    | _ + 1, state => exact ⟨_, rfl⟩
  obtain ⟨keys, blocks, cut, _, same, _, restored⟩ :=
    (captured_restored twoMemoryTiers_mapTiers answers inside (fun _ => rfl) zeroDigest
      recordingAdapter recordingAdapter fourTokens none false
      (KvState.pair MemoryTier.empty MemoryTier.empty) []).1 2 _ [] done
  obtain ⟨last, called⟩ :=
    restored _ (stillHeld_eternal twoMemoryTiers_mapTiers inside done cut) []
  exact ⟨_, keys, blocks, done, cut, same, last, called⟩

end KvEngine

end RivetCache
