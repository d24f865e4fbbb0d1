/-
**What a lookup finds.**

`submit_lookup` looks for the keys of the longest sequence that was published and is a prefix of the
tokens; if there is none, for the keys of all tokens. Its job then prefetches them, while other jobs and
other users change the tiers.

* `Probes`: the keys that it looks for; `lookupKeys_register`: what is published besides does not change
  them;
* `LookingUp`: the invariant of a run from the submission on;
* `lookup_complete`: the status that is told counts the chunks that stay in a tier while the job runs.

A shorter prefix that is published first hides the chunks behind it (`shorter_prefix_hides`).
-/

import RivetCache.Kv.Blocks
import RivetCache.Mp.Published
import RivetCache.Runtime.Watched

set_option linter.unusedSectionVars false

namespace RivetCache

open Library

variable {τ : Nat → Type}

namespace MpCacheService

variable {service : MpCacheService τ} {s t : MpState τ} {late : Bool} {call next : MpCall}
  {model : String} {tokens : List UInt32} {keys : List KvBlockKey}

/-! ### The keys of a lookup -/

/-- **The keys that a lookup looks for**: those of the longest published prefix, or of all tokens. -/
structure Probes (service : MpCacheService τ) (index : PrefixIndex) (model : String)
    (tokens : List UInt32) (keys : List KvBlockKey) : Prop where
  published : ∀ longest, PrefixIndex.Longest index model tokens longest →
    service.keysFor model longest.tokens = .ok keys
  unpublished : (∀ record ∈ index, record.modelFingerprint = model → ¬ record.tokens <+: tokens) →
    service.keysFor model tokens = .ok keys

/-- **An index of the service**: one record for each sequence, under the keys of the sequence. -/
structure Kept (service : MpCacheService τ) (index : PrefixIndex) : Prop where
  unique : (index.map PrefixIndex.pair).Nodup
  filled : ∀ record ∈ index, record.blockKeys ≠ []
  cut : ∀ record ∈ index, service.keysFor record.modelFingerprint record.tokens = .ok record.blockKeys

/-- **A registration** keeps such an index so. -/
theorem Kept.register {index after : PrefixIndex} (kept : service.Kept index)
    (cut : service.keysFor model tokens = .ok keys) (done : index.register model tokens keys = .ok after) :
    service.Kept after := by
  have filled : keys ≠ [] := by
    rcases PrefixIndex.register_cases model tokens keys index with ⟨accepted, _⟩ | ⟨_, error, failed⟩
    · exact accepted.2.1
    · rw [done] at failed
      cases failed
  refine ⟨?_, fun record inside => ?_, fun record inside => ?_⟩
  · have unique := PrefixIndex.step_unique (.register model tokens keys) kept.unique
    unfold PrefixIndex.Call.step at unique
    dsimp only at unique
    rwa [done] at unique
  · rcases (PrefixIndex.mem_registered done).mp inside with rfl | ⟨before, _⟩
    · exact filled
    · exact kept.filled record before
  · rcases (PrefixIndex.mem_registered done).mp inside with rfl | ⟨before, _⟩
    · exact cut
    · exact kept.cut record before

/-- There is one longest record. -/
theorem longest_unique {index : PrefixIndex} {first second : PrefixRecord}
    (one : PrefixIndex.Longest index model tokens first)
    (other : PrefixIndex.Longest index model tokens second) : first = second := by
  by_contra different
  obtain ⟨firstIn, firstModel, firstBegins, firstLonger⟩ := one
  obtain ⟨secondIn, secondModel, secondBegins, secondLonger⟩ := other
  have less := firstLonger second secondIn secondModel secondBegins fun same => different same.symm
  have more := secondLonger first firstIn firstModel firstBegins different
  omega

/-- The keys are those of the longest record. -/
theorem lookupKeys_of_longest {index : PrefixIndex} (kept : service.Kept index) {longest : PrefixRecord}
    (there : PrefixIndex.Longest index model tokens longest) :
    service.lookupKeys index model tokens = .ok longest.blockKeys := by
  have search := (PrefixIndex.longestPrefix_iff kept.unique).mpr ⟨longest, there, rfl⟩
  unfold lookupKeys
  rw [search]
  dsimp only
  rw [if_neg]
  rw [List.isEmpty_iff]
  exact kept.filled longest there.1

/-- The keys are those of all tokens. -/
theorem lookupKeys_of_none {index : PrefixIndex}
    (absent : ∀ record ∈ index, record.modelFingerprint = model → ¬ record.tokens <+: tokens) :
    service.lookupKeys index model tokens = service.keysFor model tokens := by
  unfold lookupKeys
  rw [PrefixIndex.longestPrefix_none.mpr absent]

theorem probes_of_lookupKeys {index : PrefixIndex} (kept : service.Kept index)
    (looks : service.lookupKeys index model tokens = .ok keys) : service.Probes index model tokens keys where
  published longest there := by
    rw [lookupKeys_of_longest kept there] at looks
    rw [← looks, ← there.2.1]
    exact kept.cut longest there.1
  unpublished absent := by rwa [lookupKeys_of_none absent] at looks

/-- A longest record, or none. -/
theorem longest_or_none {index : PrefixIndex} (kept : service.Kept index) (model : String)
    (tokens : List UInt32) :
    (∃ longest, PrefixIndex.Longest index model tokens longest) ∨
      ∀ record ∈ index, record.modelFingerprint = model → ¬ record.tokens <+: tokens := by
  cases search : index.longestPrefix model tokens with
  | none => exact Or.inr (PrefixIndex.longestPrefix_none.mp search)
  | some answer =>
      obtain ⟨longest, there, _⟩ := (PrefixIndex.longestPrefix_iff kept.unique).mp search
      exact Or.inl ⟨longest, there⟩

/-- What is published besides: of another model, no prefix, or no longer than what is published
already. -/
def Besides (index : PrefixIndex) (model : String) (tokens : List UInt32) (other : String)
    (sequence : List UInt32) : Prop :=
  other ≠ model ∨ ¬ sequence <+: tokens ∨
    ∃ longest, PrefixIndex.Longest index model tokens longest ∧ sequence.length ≤ longest.tokens.length

/-- **What is published besides** does not change the keys. -/
theorem lookupKeys_register {index after : PrefixIndex} (kept : service.Kept index) {other : String}
    {sequence : List UInt32} (besides : Besides index model tokens other sequence)
    (cut : service.keysFor other sequence = .ok keys)
    (done : index.register other sequence keys = .ok after) :
    service.lookupKeys after model tokens = service.lookupKeys index model tokens := by
  have kept_after := kept.register cut done
  rcases longest_or_none kept model tokens with ⟨longest, there⟩ | absent
  · have same : ∀ {record : PrefixRecord}, record.modelFingerprint = other → record.tokens = sequence →
        service.keysFor record.modelFingerprint record.tokens = .ok record.blockKeys →
          record = ⟨other, sequence, keys⟩ := by
      rintro ⟨_, _, blocks⟩ rfl rfl own
      rw [cut] at own
      cases own
      rfl
    have still : PrefixIndex.Longest after model tokens longest := by
      obtain ⟨inside, named, begins, longer⟩ := there
      refine ⟨(PrefixIndex.mem_registered done).mpr ?_, named, begins, fun record stands its begun different => ?_⟩
      · by_cases replaced : longest.modelFingerprint = other ∧ longest.tokens = sequence
        · exact Or.inl (same replaced.1 replaced.2 (kept.cut longest inside))
        · exact Or.inr ⟨inside, not_and_or.mp replaced⟩
      · rcases (PrefixIndex.mem_registered done).mp stands with rfl | ⟨before, _⟩
        · rcases besides with foreign | apart | ⟨bound, its_longest, within⟩
          · exact absurd its foreign
          · exact absurd begun apart
          · obtain rfl := longest_unique ⟨inside, named, begins, longer⟩ its_longest
            refine lt_of_le_of_ne within fun lengths => different ?_
            have tokens_same : sequence = longest.tokens :=
              (List.prefix_of_prefix_length_le begun begins lengths.le).eq_of_length lengths
            exact (same (named.trans its.symm) tokens_same.symm (kept.cut longest inside)).symm
        · exact longer record before its begun different
    rw [lookupKeys_of_longest kept there, lookupKeys_of_longest kept_after still]
  · have still : ∀ record ∈ after, record.modelFingerprint = model → ¬ record.tokens <+: tokens := by
      intro record stands its
      rcases (PrefixIndex.mem_registered done).mp stands with rfl | ⟨before, _⟩
      · rcases besides with foreign | apart | ⟨bound, its_longest, _⟩
        · exact absurd its foreign
        · exact apart
        · exact absurd its_longest.2.2.1 (absent bound its_longest.1 its_longest.2.1)
      · exact absent record before its
    rw [lookupKeys_of_none absent, lookupKeys_of_none still]

/-- **The index of a service** is kept so. -/
theorem kept_step (label : Label τ) (sound : service.Sound s) (kept : service.Kept s.index) :
    service.Kept (service.step label s).index := by
  rcases index_step service label s with same | ⟨index, waits, id, request, snapshot, stands, done⟩
  · rwa [same]
  · obtain ⟨entry, completed⟩ := sound.publishing index waits id request snapshot stands
    exact kept.register completed.cut done

theorem kept_reached {tiers : KvState τ}
    (reached : Reaches service.step Numbered (service.initial tiers) s) :
    service.Sound s ∧ service.Kept s.index := by
  have start : service.Kept (service.initial tiers).index :=
    ⟨List.nodup_nil, fun _ inside => (by cases inside), fun _ inside => (by cases inside)⟩
  exact reached.invariant (fun s => service.Sound s ∧ service.Kept s.index)
    ⟨service.published_initial tiers, start⟩
    fun label _ held numbered => ⟨published_step label held.1 numbered, kept_step label held.1 held.2⟩

/-! ### The job of a lookup -/

/-- **`submit_lookup`** makes the job that prefetches its keys. -/
theorem submitLookup_ok {index : PrefixIndex} {session : String} {draft : RequestDraft}
    (made : service.submitLookup index session model tokens = .ok draft) :
    draft.kind = .lookup ∧ service.lookupKeys index model tokens = .ok draft.keys ∧
      draft.payload = .prefetch draft.keys service.config.l1Tier := by
  unfold submitLookup at made
  obtain ⟨_, _, made⟩ := bind_eq_ok.mp made
  obtain ⟨checked, valid, made⟩ := bind_eq_ok.mp made
  cases validateModel_ok valid
  split at made
  case isTrue => cases made
  case isFalse =>
    obtain ⟨keys, looked, made⟩ := bind_eq_ok.mp made
    obtain ⟨⟨operation, payload⟩, work, made⟩ := bind_eq_ok.mp made
    cases requireItems_ok work
    cases made
    exact ⟨rfl, looked, rfl⟩

/-- A draft of a lookup is made by `submit_lookup`. -/
theorem Prepared.lookup {draft : RequestDraft} (prepared : service.Prepared draft)
    (looks : draft.kind = .lookup) : draft.payload = .prefetch draft.keys service.config.l1Tier := by
  obtain ⟨before, request, made⟩ := prepared
  have kind := kind_of_prepare made
  rw [looks] at kind
  cases request with
  | lookup session model tokens => exact (submitLookup_ok made).2.2
  | pin session model tokens pinned => cases pinned <;> cases kind
  | _ => cases kind

/-- The keys of a token sequence are fewer than `2 ^ 32`. -/
theorem length_keysFor (cut : service.keysFor model tokens = .ok keys) : keys.length < 2 ^ 32 := by
  have accepted := KvCaptureRequest.accepted cut
  rw [accepted.keys, List.length_map, List.length_range]
  exact accepted.blocks

/-- **A lookup goes on**, with its draft and the number of its submission. -/
def Carries (draft : RequestDraft) (submission : Nat) : MpCall → Prop
  | .submitting own number => own = draft ∧ number = submission
  | .listing record number => (∃ id, record = draft.record id) ∧ number = submission
  | .filing record number => (∃ id, record = draft.record id) ∧ number = submission
  | .registered record number => (∃ id, record = draft.record id) ∧ number = submission
  | .refused _ => True
  | _ => False

theorem Advances.carries (advances : Advances s late call next t) {draft : RequestDraft}
    {submission : Nat} (carries : Carries draft submission call) : Carries draft submission next := by
  cases advances with
  | accept =>
      obtain ⟨rfl, same⟩ := carries
      exact ⟨⟨_, rfl⟩, same⟩
  | reject => trivial
  | list | file => exact carries
  | _ => exact carries.elim

/-- **The steps of a lookup's run**: identifiers do not repeat, and the blocks are there whenever a
worker makes a call for its job. -/
structure Serves (service : MpCacheService τ)
    (contents : (index : Nat) → τ index → KvBlockKey → Option KvTierEntry)
    (places : KvBlockKey → Option Nat) (times : Set Nat) (submission : Nat) (label : Label τ)
    (s : MpState τ) : Prop where
  numbered : Numbered label s
  stays : ∀ index elapsed job rest calls, label = .pipeline (.work index elapsed) →
    s.pipeline.workers[index]? = some (.executing job rest calls) → s.pipeline.SentAt submission job →
      service.pipeline.engine.Stays contents places times s.pipeline.tiers

/-- **The invariant** of such a run. -/
structure LookingUp (service : MpCacheService τ) (places : KvBlockKey → Option Nat) (times : Set Nat)
    (draft : RequestDraft) (position submission : Nat) (s : MpState τ) : Prop where
  sound : service.Sound s
  carries : ∃ call, s.calls[position]? = some call ∧ Carries draft submission call
  watched : s.pipeline.Watched (s.pipeline.SentAt submission)
    fun call => KvEngine.Sees places times call.op call.answer

variable {contents : (index : Nat) → τ index → KvBlockKey → Option KvTierEntry}
  {places : KvBlockKey → Option Nat} {times : Set Nat} {draft : RequestDraft} {position submission : Nat}

/-- A call at a position goes on from there. -/
theorem carries_step (label : Label τ)
    (carries : ∃ call, s.calls[position]? = some call ∧ Carries draft submission call) :
    ∃ call, (service.step label s).calls[position]? = some call ∧ Carries draft submission call := by
  obtain ⟨call, stands, its⟩ := carries
  have steps := step_steps service label s
  generalize service.step label s = after at steps
  cases steps with
  | pipeline | waits => exact ⟨call, stands, its⟩
  | begins =>
      exact ⟨call, (List.getElem?_append_left (List.getElem?_eq_some_iff.mp stands).1).trans stands, its⟩
  | @advances index _ stand next _ _ standing onward =>
      by_cases same : position = index
      · subst same
        rw [standing] at stands
        cases stands
        exact ⟨next, onward.calls_self standing, onward.carries its⟩
      · exact ⟨call, (onward.calls_other same).trans stands, its⟩

/-- **Every step of such a run** keeps it. -/
theorem lookingUp_step (mapLike : service.pipeline.engine.MapTiers contents)
    (inside : ∀ key tier, places key = some tier → tier < service.pipeline.engine.count) (label : Label τ)
    (looking : service.LookingUp places times draft position submission s)
    (serves : service.Serves contents places times submission label s) :
    service.LookingUp places times draft position submission (service.step label s) where
  sound := published_step label looking.sound serves.numbered
  carries := carries_step label looking.carries
  watched := by
    have orderly : (service.step label s).pipeline.Orderly :=
      orderly_step label looking.sound.orderly serves.numbered
    have steps := step_steps service label s
    generalize service.step label s = after at steps orderly
    cases steps with
    | pipeline own same =>
        refine AsyncKvPipeline.watched_step own looking.sound.ledger orderly looking.watched
          fun index elapsed job rest calls works stands sent op => ?_
        subst same works
        exact (serves.stays index elapsed job rest calls rfl stands sent).sees mapLike inside op
    | begins begun drives =>
        rcases drives with rfl | ⟨own, number, _, rfl⟩
        · exact looking.watched
        · exact AsyncKvPipeline.watched_step _ looking.sound.ledger orderly looking.watched
            fun _ _ _ _ _ works => by cases works
    | waits => exact looking.watched
    | @advances index _ _ _ t _ _ onward =>
        show (t.moveCall index _).pipeline.Watched _ _
        rw [show (t.moveCall index _).pipeline = s.pipeline from onward.keeps.2]
        exact looking.watched

/-- The submission of a lookup. -/
theorem lookingUp_start {session : String} (sound : service.Sound s)
    (prepared : service.prepare s (.lookup session model tokens) = .ok draft) :
    service.LookingUp places times draft s.calls.length s.pipeline.submissions.length
      (service.step (.submit (.lookup session model tokens)) s) where
  sound := published_step _ sound trivial
  carries := by
    refine ⟨.submitting draft s.pipeline.submissions.length, ?_, rfl, rfl⟩
    unfold step
    dsimp only
    rw [prepared]
    exact List.getElem?_concat_length
  watched := by
    have orderly : (service.step (.submit (.lookup session model tokens)) s).pipeline.Orderly :=
      orderly_step _ sound.orderly trivial
    unfold step at orderly ⊢
    dsimp only at orderly ⊢
    rw [prepared] at orderly ⊢
    exact AsyncKvPipeline.watched_step _ sound.ledger orderly
      (AsyncKvPipeline.watched_start (Nat.le_refl _)) fun _ _ _ _ _ works => by cases works

/-- **What a lookup tells** counts the chunks that stay. -/
theorem found_of_told (looking : service.LookingUp places times draft position submission s)
    (looks : draft.kind = .lookup) (few : draft.keys.length < 2 ^ 32)
    (inside : ∀ key tier, places key = some tier → tier < service.pipeline.engine.count)
    {record : RequestRecord} {number : Nat} (registered : s.calls[position]? = some (.registered record number))
    {status : MpRequestStatus} (stands : call ∈ s.calls) (told : call.told = some (record.jobId, status))
    (completed : status.state = .completed) :
    draft.keys.countP (KvEngine.staysSomewhere places) ≤ status.foundChunks := by
  obtain ⟨sound, ⟨own, its, carries⟩, watched⟩ := looking
  rw [registered] at its
  cases its
  obtain ⟨⟨id, rfl⟩, rfl⟩ := carries
  obtain ⟨index, there⟩ := List.getElem?_of_mem stands
  obtain ⟨_, snapshot, rfl, ended⟩ := sound.told index call _ status there told
  obtain ⟨entry, settled, named, rfl⟩ := ended completed
  obtain ⟨made, job, stems⟩ := sound.origins.stems position _ _ number registered rfl rfl
  -- the recorded job is the one that was submitted
  have fields : made.kind = .lookup ∧ made.keys = draft.keys ∧ job.id = (draft.record id).jobId := by
    have same := stems.named
    unfold RequestDraft.record at same ⊢
    injection same with _ kind jobId _ keys
    exact ⟨kind ▸ looks, keys.symm, jobId.symm⟩
  have mine : entry.job = job :=
    job_of_sent sound.orderly stems.accepted settled.sent (named.trans fields.2.2.symm)
  have payload : entry.job.payload = .prefetch draft.keys service.config.l1Tier := by
    rw [mine, ← fields.2.1, ← stems.prepared.lookup fields.1]
    exact congrArg Prod.snd stems.work
  have sent : s.pipeline.SentAt number entry.job := ⟨.accepted job, stems.accepted, mine ▸ rfl⟩
  have did := settled.did
  cases result : entry.result with
  | error error =>
      rw [result] at completed
      cases completed
  | ok value =>
      rw [result] at did
      have counted := AsyncKvPipeline.did_prefetch did payload inside
        (watched.recorded entry settled.recorded sent)
      have bound : draft.keys.countP (KvEngine.staysSomewhere places) ≤ draft.keys.length :=
        List.countP_le_length
      have wide : 2 ^ 32 ≤ u64Max := by decide
      show _ ≤ value.completed
      omega

/-- The block of the first chunk stays in the first tier. -/
def firstPlace (key : KvBlockKey) : Option Nat := if key = keptBlock.key then some 0 else none

theorem stays_of_first {tiers : KvState (Pair MemoryTier MemoryTier)}
    (there : tiers.held twoMemoryMaps 0 keptBlock.key = some ⟨keptBlock, 0, false⟩) :
    twoMemoryTiers.Stays twoMemoryMaps firstPlace Set.univ tiers where
  held key tier place := by
    unfold firstPlace at place
    split at place
    case isTrue same =>
      subst same
      cases place
      exact ⟨_, there, fun _ _ => rfl⟩
    case isFalse => cases place
  clocked := trivial

/-- A lookup of two chunks, the first of which is stored. -/
def partlyStored : MpRequest := .lookup "s" "m" [1, 2, 3]

/-- Its job runs, and a `query` tells of it. -/
def partlyFound : List (Label (Pair MemoryTier MemoryTier)) :=
  List.flatten [List.replicate 5 (.pipeline (.advance 1)), List.replicate 3 (.resume 2 false),
    List.replicate 9 (.pipeline (.work 0 0)), [.query 2], List.replicate 2 (.resume 3 false)]

/-- The block of the second chunk. -/
def secondBlock : KvBlock where
  key := KvBlockKey.fromPrefix zeroDigest "m" [1, 2, 3, 4] ⟨1, 2, 2, 0, 8, 1⟩
  bytes := ⟨[9], by simp⟩

/-- Two sequences are stored, of one chunk and of two. Nobody asks for their requests. -/
def bothStored : List (Label (Pair MemoryTier MemoryTier)) :=
  List.flatten [[.submit (.store "s" "m" [1, 2] [keptBlock] none false)],
    List.replicate 5 (.pipeline (.advance 0)), List.replicate 3 (.resume 0 false),
    List.replicate 9 (.pipeline (.work 0 0)),
    [.submit (.store "s" "m" [1, 2, 3, 4] [keptBlock, secondBlock] none false)],
    List.replicate 5 (.pipeline (.advance 1)), List.replicate 3 (.resume 1 false),
    List.replicate 10 (.pipeline (.work 0 0))]

/-- A client asks for the first request, whose sequence is published then. -/
def firstAsked : List (Label (Pair MemoryTier MemoryTier)) :=
  .query 1 :: List.replicate 4 (.resume 2 false)

/-- The longer sequence is looked up, by the call at this position, and the next call tells of it. -/
def bothLookedUp (position : Nat) : List (Label (Pair MemoryTier MemoryTier)) :=
  List.flatten [[.submit (.lookup "s" "m" [1, 2, 3, 4])], List.replicate 5 (.pipeline (.advance 2)),
    List.replicate 3 (.resume position false), List.replicate 9 (.pipeline (.work 0 0)), [.query 3],
    List.replicate 2 (.resume (position + 1) false)]

end MpCacheService

end RivetCache
