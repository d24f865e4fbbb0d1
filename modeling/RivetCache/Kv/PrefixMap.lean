/-
**`PrefixIndex` is a map, and looks up the longest prefix.**

The index is a list that `register` and `remove_model` rewrite. Whatever their sequence, it holds one
record for each pair of a model and tokens: the one that stands (`Standing`), whose registration was the
latest accepted one and whose model was not removed since.

* `after_unique`, `mem_after`: the list is that map;
* `longestPrefix_iff`, `longestPrefix_none`: the answer of `longest_prefix`, in terms of the map;
* `removeModel_count`: what `remove_model` removes, and counts;
* `prefixIndex_map`: all of it.
-/

import RivetCache.Kv.Prefix

set_option linter.unusedSectionVars false

namespace RivetCache

namespace PrefixIndex

/-! ### Calls -/

/-- A call that rewrites the index. -/
inductive Call where
  | register (modelFingerprint : String) (tokens : List UInt32) (blockKeys : List KvBlockKey)
  | removeModel (modelFingerprint : String)

/-- What a call leaves. -/
def Call.step : Call → PrefixIndex → PrefixIndex
  | .register modelFingerprint tokens blockKeys, records =>
      match PrefixIndex.register modelFingerprint tokens blockKeys records with
      | .ok after => after
      | .error _ => records
  | .removeModel modelFingerprint, records => (PrefixIndex.removeModel modelFingerprint records).2

/-- The index after some calls. -/
def after (calls : List Call) : PrefixIndex := calls.foldl (fun records call => call.step records) []

/-! ### The map -/

/-- A registration that is accepted. -/
def Registrable (modelFingerprint : String) (tokens : List UInt32) (blockKeys : List KvBlockKey) : Prop :=
  tokens ≠ [] ∧ blockKeys ≠ [] ∧ ∀ key ∈ blockKeys, key.modelFingerprint = modelFingerprint

/-- A call after which an older record of the pair is gone. -/
def Call.Ends (modelFingerprint : String) (tokens : List UInt32) : Call → Prop
  | .register model sequence blockKeys =>
      Registrable model sequence blockKeys ∧ model = modelFingerprint ∧ sequence = tokens
  | .removeModel model => model = modelFingerprint

/-- **The block keys of the latest accepted registration** of a pair, that was not removed since. -/
def Standing (calls : List Call) (modelFingerprint : String) (tokens : List UInt32)
    (blockKeys : List KvBlockKey) : Prop :=
  ∃ earlier later, calls = earlier ++ .register modelFingerprint tokens blockKeys :: later ∧
    Registrable modelFingerprint tokens blockKeys ∧ ∀ call ∈ later, ¬ call.Ends modelFingerprint tokens

variable {modelFingerprint : String} {tokens : List UInt32} {blockKeys : List KvBlockKey}
  {records : PrefixIndex} {calls : List Call}

theorem not_standing_nil : ¬ Standing [] modelFingerprint tokens blockKeys := by
  rintro ⟨earlier, later, split, _⟩
  simp at split

/-- **One more call.** -/
theorem standing_concat {call : Call} :
    Standing (calls ++ [call]) modelFingerprint tokens blockKeys ↔
      (call = .register modelFingerprint tokens blockKeys ∧
        Registrable modelFingerprint tokens blockKeys) ∨
      (Standing calls modelFingerprint tokens blockKeys ∧ ¬ call.Ends modelFingerprint tokens) := by
  constructor
  · rintro ⟨earlier, later, split, accepted, kept⟩
    rcases List.eq_nil_or_concat later with rfl | ⟨front, last, rfl⟩
    · obtain ⟨_, here⟩ := List.append_inj' split rfl
      exact Or.inl ⟨List.singleton_inj.mp here, accepted⟩
    · rw [List.concat_eq_append] at split kept
      rw [← List.cons_append, ← List.append_assoc] at split
      obtain ⟨front_split, here⟩ := List.append_inj' split rfl
      obtain rfl := List.singleton_inj.mp here
      exact Or.inr ⟨⟨earlier, front, front_split, accepted,
        fun other there => kept other (List.mem_append_left _ there)⟩,
        kept call (List.mem_append_right _ (List.mem_singleton_self call))⟩
  · rintro (⟨rfl, accepted⟩ | ⟨⟨earlier, later, rfl, accepted, kept⟩, keeps⟩)
    · exact ⟨calls, [], rfl, accepted, fun _ inside => by cases inside⟩
    · refine ⟨earlier, later ++ [call], by rw [List.append_assoc, List.cons_append], accepted,
        fun other inside => ?_⟩
      rcases List.mem_append.mp inside with there | here
      · exact kept other there
      · rwa [List.mem_singleton.mp here]

/-! ### One call -/

/-- **`register`**: the record of the pair is replaced, or the registration is rejected. -/
theorem register_cases (modelFingerprint : String) (tokens : List UInt32) (blockKeys : List KvBlockKey)
    (records : PrefixIndex) :
    (Registrable modelFingerprint tokens blockKeys ∧
      register modelFingerprint tokens blockKeys records = .ok (records.filter (fun record =>
        record.modelFingerprint != modelFingerprint || record.tokens != tokens) ++
          [⟨modelFingerprint, tokens, blockKeys⟩])) ∨
    (¬ Registrable modelFingerprint tokens blockKeys ∧
      ∃ error, register modelFingerprint tokens blockKeys records = .error error) := by
  unfold register
  split
  case isTrue empty =>
    refine Or.inr ⟨fun accepted => ?_, _, rfl⟩
    rw [Bool.or_eq_true, List.isEmpty_iff, List.isEmpty_iff] at empty
    exact empty.elim accepted.1 accepted.2.1
  case isFalse filled =>
    rw [Bool.or_eq_true, List.isEmpty_iff, List.isEmpty_iff, not_or] at filled
    split
    case isTrue foreign =>
      refine Or.inr ⟨fun accepted => ?_, _, rfl⟩
      obtain ⟨key, inside, other⟩ := List.any_eq_true.mp foreign
      exact bne_iff_ne.mp other (accepted.2.2 key inside)
    case isFalse own =>
      refine Or.inl ⟨⟨filled.1, filled.2, fun key inside => ?_⟩, rfl⟩
      by_contra other
      exact own (List.any_eq_true.mpr ⟨key, inside, bne_iff_ne.mpr other⟩)

/-- What a registration that is accepted leaves. -/
theorem mem_registered {after : PrefixIndex}
    (done : register modelFingerprint tokens blockKeys records = .ok after) {record : PrefixRecord} :
    record ∈ after ↔ record = ⟨modelFingerprint, tokens, blockKeys⟩ ∨
      record ∈ records ∧ (record.modelFingerprint ≠ modelFingerprint ∨ record.tokens ≠ tokens) := by
  rcases register_cases modelFingerprint tokens blockKeys records with ⟨_, same⟩ | ⟨_, error, failed⟩
  · rw [done] at same
    cases same
    rw [List.mem_append, List.mem_filter, List.mem_singleton, Bool.or_eq_true, bne_iff_ne, bne_iff_ne,
      or_comm]
  · rw [done] at failed
    cases failed

/-- **What a call leaves**: what it registers, and what it does not end. -/
theorem mem_step {call : Call} {record : PrefixRecord} :
    record ∈ call.step records ↔
      (call = .register record.modelFingerprint record.tokens record.blockKeys ∧
        Registrable record.modelFingerprint record.tokens record.blockKeys) ∨
      (record ∈ records ∧ ¬ call.Ends record.modelFingerprint record.tokens) := by
  cases call with
  | register model sequence keys =>
      unfold Call.step
      dsimp only
      rcases register_cases model sequence keys records with ⟨accepted, done⟩ | ⟨rejected, error, done⟩
      · rw [done]
        dsimp only
        rw [mem_registered done]
        refine or_congr ⟨?_, ?_⟩ (and_congr_right fun _ => ⟨?_, ?_⟩)
        · rintro rfl
          exact ⟨rfl, accepted⟩
        · rintro ⟨same, _⟩
          cases same
          rfl
        · rintro other ⟨_, rfl, rfl⟩
          exact other.elim (fun different => different rfl) fun different => different rfl
        · intro keeps
          by_contra same
          rw [not_or, not_ne_iff, not_ne_iff] at same
          exact keeps ⟨accepted, same.1.symm, same.2.symm⟩
      · rw [done]
        refine ⟨fun inside => Or.inr ⟨inside, fun ends => rejected ends.1⟩, ?_⟩
        rintro (⟨same, accepted⟩ | ⟨inside, _⟩)
        · cases same
          exact absurd accepted rejected
        · exact inside
  | removeModel model =>
      show record ∈ List.filter _ records ↔ _
      rw [List.mem_filter, bne_iff_ne]
      refine ⟨fun kept => Or.inr ⟨kept.1, fun ends => kept.2 ends.symm⟩, ?_⟩
      rintro (⟨same, _⟩ | ⟨inside, keeps⟩)
      · cases same
      · exact ⟨inside, fun same => keeps same.symm⟩

/-- What a record is found by. -/
def pair (record : PrefixRecord) : String × List UInt32 := (record.modelFingerprint, record.tokens)

/-- **One record for each pair**, kept by every call. -/
theorem step_unique (call : Call) (unique : (records.map pair).Nodup) :
    ((call.step records).map pair).Nodup := by
  have filtered (keep : PrefixRecord → Bool) : ((records.filter keep).map pair).Nodup :=
    unique.sublist (List.filter_sublist.map pair)
  cases call with
  | register model sequence keys =>
      unfold Call.step
      dsimp only
      rcases register_cases model sequence keys records with ⟨_, done⟩ | ⟨_, error, done⟩
      · rw [done]
        dsimp only
        rw [List.map_append]
        refine List.Nodup.append (filtered _) (List.nodup_singleton _) ?_
        rintro _ there here
        obtain ⟨record, kept, rfl⟩ := List.mem_map.mp there
        rw [List.map_singleton, List.mem_singleton] at here
        obtain ⟨sameModel, sameTokens⟩ := Prod.mk.inj here
        have other := (List.mem_filter.mp kept).2
        simp [sameModel, sameTokens] at other
      · rw [done]
        exact unique
  | removeModel model => exact filtered _

/-! ### Runs -/

theorem after_concat (calls : List Call) (call : Call) :
    after (calls ++ [call]) = call.step (after calls) := by
  unfold after
  rw [List.foldl_append]
  rfl

/-- **At most one record for each pair**, after every sequence of calls. -/
theorem after_unique (calls : List Call) : ((after calls).map pair).Nodup := by
  induction calls using List.reverseRecOn with
  | nil => exact List.nodup_nil
  | append_singleton earlier call ih =>
      rw [after_concat]
      exact step_unique call ih

/-- **The records are those that stand.** -/
theorem mem_after {record : PrefixRecord} :
    record ∈ after calls ↔ Standing calls record.modelFingerprint record.tokens record.blockKeys := by
  induction calls using List.reverseRecOn with
  | nil => exact ⟨fun inside => (by cases inside), fun standing => absurd standing not_standing_nil⟩
  | append_singleton earlier call ih => rw [after_concat, mem_step, standing_concat, ih]

/-- A pair has one record. -/
theorem record_eq (unique : (records.map pair).Nodup) {first second : PrefixRecord}
    (firstIn : first ∈ records) (secondIn : second ∈ records) (same : pair first = pair second) :
    first = second :=
  List.inj_on_of_nodup_map unique firstIn secondIn same

/-! ### The longest prefix -/

/-- `max_by_key` finds nothing among nothing. -/
theorem longest_none {candidates : List PrefixRecord} {best : Option PrefixRecord} :
    longest candidates best = none ↔ candidates = [] ∧ best = none := by
  induction candidates generalizing best with
  | nil => simp [longest]
  | cons record rest ih =>
      cases best with
      | none => simp [longest, ih]
      | some best =>
          unfold longest
          split <;> simp [ih]

/-- `max_by_key` finds one of the longest. -/
theorem longest_some {candidates : List PrefixRecord} {best : Option PrefixRecord} {found : PrefixRecord}
    (search : longest candidates best = some found) :
    (found ∈ candidates ∨ best = some found) ∧
      ∀ record, record ∈ candidates ∨ best = some record →
        record.tokens.length ≤ found.tokens.length := by
  induction candidates generalizing best with
  | nil =>
      change best = some found at search
      refine ⟨Or.inr search, fun record inside => ?_⟩
      rcases inside with inside | here
      · cases inside
      · rw [search] at here
        cases here
        exact Nat.le_refl _
  | cons record rest ih =>
      cases best with
      | none =>
          obtain ⟨origin, bound⟩ := ih search
          refine ⟨Or.inl ?_, fun other inside => ?_⟩
          · rcases origin with there | here
            · exact List.mem_cons_of_mem _ there
            · cases here
              exact List.mem_cons_self
          · rcases inside with inside | here
            · rcases List.mem_cons.mp inside with rfl | there
              · exact bound other (Or.inr rfl)
              · exact bound other (Or.inl there)
            · cases here
      | some best =>
          unfold longest at search
          obtain ⟨origin, bound⟩ := ih search
          split at origin
          case isTrue shorter =>
            rw [if_pos shorter] at bound
            have here := bound record (Or.inr rfl)
            refine ⟨Or.inl ?_, fun other inside => ?_⟩
            · rcases origin with there | here
              · exact List.mem_cons_of_mem _ there
              · cases here
                exact List.mem_cons_self
            · rcases inside with inside | before
              · rcases List.mem_cons.mp inside with rfl | there
                · exact here
                · exact bound other (Or.inl there)
              · cases before
                exact shorter.trans here
          case isFalse longer =>
            rw [if_neg longer] at bound
            have here := bound best (Or.inr rfl)
            refine ⟨?_, fun other inside => ?_⟩
            · exact origin.imp (fun there => List.mem_cons_of_mem _ there) id
            · rcases inside with inside | before
              · rcases List.mem_cons.mp inside with rfl | there
                · omega
                · exact bound other (Or.inl there)
              · cases before
                exact here

/-- What `longest_prefix` searches. -/
theorem mem_candidates {record : PrefixRecord} :
    (record ∈ records.filter fun record =>
      record.modelFingerprint == modelFingerprint && record.tokens.isPrefixOf tokens) ↔
      record ∈ records ∧ record.modelFingerprint = modelFingerprint ∧ record.tokens <+: tokens := by
  rw [List.mem_filter, Bool.and_eq_true, beq_iff_eq, List.isPrefixOf_iff_prefix]

/-- **No answer** where no record of the model is a prefix. -/
theorem longestPrefix_none :
    longestPrefix modelFingerprint tokens records = none ↔
      ∀ record ∈ records, record.modelFingerprint = modelFingerprint → ¬ record.tokens <+: tokens := by
  unfold longestPrefix
  rw [Option.map_eq_none_iff, longest_none, List.eq_nil_iff_forall_not_mem]
  constructor
  · rintro ⟨empty, _⟩ record inside model begins
    exact empty record (mem_candidates.mpr ⟨inside, model, begins⟩)
  · refine fun absent => ⟨fun record inside => ?_, rfl⟩
    obtain ⟨there, model, begins⟩ := mem_candidates.mp inside
    exact absent record there model begins

/-- A record that `longest_prefix` answers with: all others of the model are shorter, or no prefixes. -/
def Longest (records : PrefixIndex) (modelFingerprint : String) (tokens : List UInt32)
    (record : PrefixRecord) : Prop :=
  record ∈ records ∧ record.modelFingerprint = modelFingerprint ∧ record.tokens <+: tokens ∧
    ∀ other ∈ records, other.modelFingerprint = modelFingerprint → other.tokens <+: tokens →
      other ≠ record → other.tokens.length < record.tokens.length

/-- **The answer is the longest record** that is a prefix, where a pair has one record. -/
theorem longestPrefix_iff (unique : (records.map pair).Nodup) {answer : PrefixMatch} :
    longestPrefix modelFingerprint tokens records = some answer ↔
      ∃ record, Longest records modelFingerprint tokens record ∧
        answer = ⟨record.tokens.length, record.blockKeys⟩ := by
  unfold longestPrefix
  rw [Option.map_eq_some_iff]
  have strict : ∀ {first second : PrefixRecord}, first ∈ records → second ∈ records →
      first.modelFingerprint = second.modelFingerprint → first.tokens <+: tokens →
      second.tokens <+: tokens → first.tokens.length = second.tokens.length → first = second := by
    intro first second firstIn secondIn models firstBegins secondBegins lengths
    refine record_eq unique firstIn secondIn (Prod.ext models ?_)
    exact (List.prefix_of_prefix_length_le firstBegins secondBegins lengths.le).eq_of_length lengths
  constructor
  · rintro ⟨record, search, rfl⟩
    obtain ⟨origin, bound⟩ := longest_some search
    rcases origin with here | before
    · obtain ⟨inside, model, begins⟩ := mem_candidates.mp here
      refine ⟨record, ⟨inside, model, begins, fun other there otherModel otherBegins different => ?_⟩, rfl⟩
      have shorter := bound other (Or.inl (mem_candidates.mpr ⟨there, otherModel, otherBegins⟩))
      refine Nat.lt_of_le_of_ne shorter fun lengths => different ?_
      exact strict there inside (otherModel.trans model.symm) otherBegins begins lengths
    · cases before
  · rintro ⟨record, ⟨inside, model, begins, longer⟩, rfl⟩
    have here := mem_candidates.mpr ⟨inside, model, begins⟩
    cases search : longest (records.filter fun record =>
        record.modelFingerprint == modelFingerprint && record.tokens.isPrefixOf tokens) none with
    | none =>
        rw [(longest_none.mp search).1] at here
        cases here
    | some found =>
        refine ⟨found, rfl, ?_⟩
        obtain ⟨origin, bound⟩ := longest_some search
        have least := bound record (Or.inl here)
        have same : found = record := by
          by_contra different
          rcases origin with there | before
          · obtain ⟨foundIn, foundModel, foundBegins⟩ := mem_candidates.mp there
            have := longer found foundIn foundModel foundBegins different
            omega
          · cases before
        rw [same]

/-- **The order of the records does not matter.** -/
theorem longestPrefix_perm {others : PrefixIndex} (unique : (records.map pair).Nodup)
    (same : others.Perm records) :
    longestPrefix modelFingerprint tokens others = longestPrefix modelFingerprint tokens records := by
  have otherUnique : (others.map pair).Nodup := (same.map pair).nodup_iff.mpr unique
  refine Option.ext fun answer => ?_
  rw [longestPrefix_iff unique, longestPrefix_iff otherUnique]
  simp only [Longest, same.mem_iff]

/-! ### Removing a model -/

/-- What `remove_model` leaves. -/
theorem mem_removeModel {record : PrefixRecord} :
    record ∈ (removeModel modelFingerprint records).2 ↔
      record ∈ records ∧ record.modelFingerprint ≠ modelFingerprint := by
  show record ∈ List.filter _ records ↔ _
  rw [List.mem_filter, bne_iff_ne]

/-- **`remove_model` counts what it removes**: the sequences that the model has a record for. -/
theorem removeModel_count (unique : (records.map pair).Nodup) :
    (removeModel modelFingerprint records).1 =
      Set.ncard {tokens | ∃ blockKeys, (⟨modelFingerprint, tokens, blockKeys⟩ : PrefixRecord) ∈ records} := by
  have removed : (removeModel modelFingerprint records).1 =
      (records.filter fun record => record.modelFingerprint == modelFingerprint).length := by
    have all := List.length_eq_length_filter_add
      (l := records) fun record => record.modelFingerprint == modelFingerprint
    show records.length -
      (records.filter fun record => !(record.modelFingerprint == modelFingerprint)).length = _
    omega
  have different : ((records.filter fun record =>
      record.modelFingerprint == modelFingerprint).map PrefixRecord.tokens).Nodup := by
    refine List.Nodup.map_on ?_ ((unique.of_map pair).filter _)
    intro first firstIn second secondIn same
    have firstThere := List.mem_filter.mp firstIn
    have secondThere := List.mem_filter.mp secondIn
    refine record_eq unique firstThere.1 secondThere.1 (Prod.ext ?_ same)
    exact (beq_iff_eq.mp firstThere.2).trans (beq_iff_eq.mp secondThere.2).symm
  have sequences : {tokens | ∃ blockKeys, (⟨modelFingerprint, tokens, blockKeys⟩ : PrefixRecord) ∈ records} =
      ↑((records.filter fun record =>
        record.modelFingerprint == modelFingerprint).map PrefixRecord.tokens).toFinset := by
    ext tokens
    rw [Set.mem_ofPred_eq, Finset.mem_coe, List.mem_toFinset, List.mem_map]
    constructor
    · rintro ⟨blockKeys, inside⟩
      exact ⟨_, List.mem_filter.mpr ⟨inside, beq_iff_eq.mpr rfl⟩, rfl⟩
    · rintro ⟨record, inside, rfl⟩
      obtain ⟨there, model⟩ := List.mem_filter.mp inside
      rw [← beq_iff_eq.mp model]
      exact ⟨record.blockKeys, there⟩
  rw [removed, sequences, Set.ncard_coe_finset, List.toFinset_card_of_nodup different, List.length_map]

/-! ### The index -/

/-- **The index after some calls, as a map** from a model and tokens to block keys. -/
structure IsMap (calls : List Call) : Prop where
  unique : ((after calls).map pair).Nodup
  latest : ∀ modelFingerprint tokens blockKeys,
    (⟨modelFingerprint, tokens, blockKeys⟩ : PrefixRecord) ∈ after calls ↔
      Standing calls modelFingerprint tokens blockKeys
  misses : ∀ modelFingerprint tokens, longestPrefix modelFingerprint tokens (after calls) = none ↔
    ∀ begun blockKeys, Standing calls modelFingerprint begun blockKeys → ¬ begun <+: tokens
  longest : ∀ modelFingerprint tokens matchedTokens blockKeys,
    longestPrefix modelFingerprint tokens (after calls) = some ⟨matchedTokens, blockKeys⟩ ↔
      ∃ begun, Standing calls modelFingerprint begun blockKeys ∧ begun <+: tokens ∧
        begun.length = matchedTokens ∧
        ∀ other otherKeys, Standing calls modelFingerprint other otherKeys → other <+: tokens →
          other ≠ begun → other.length < begun.length
  unordered : ∀ modelFingerprint tokens (others : PrefixIndex), others.Perm (after calls) →
    longestPrefix modelFingerprint tokens others = longestPrefix modelFingerprint tokens (after calls)
  removes : ∀ modelFingerprint record, record ∈ (removeModel modelFingerprint (after calls)).2 ↔
    record ∈ after calls ∧ record.modelFingerprint ≠ modelFingerprint
  counts : ∀ modelFingerprint, (removeModel modelFingerprint (after calls)).1 =
    Set.ncard {tokens | ∃ blockKeys, Standing calls modelFingerprint tokens blockKeys}
  rejects : ∀ modelFingerprint tokens blockKeys, ¬ Registrable modelFingerprint tokens blockKeys →
    (∃ error, register modelFingerprint tokens blockKeys (after calls) = .error error) ∧
      after (calls ++ [.register modelFingerprint tokens blockKeys]) = after calls

/-- **`PrefixIndex` is a map where the last registration wins**, with longest-prefix lookup. -/
theorem prefixIndex_map (calls : List Call) : IsMap calls where
  unique := after_unique calls
  latest _ _ _ := mem_after
  misses modelFingerprint tokens := by
    rw [longestPrefix_none]
    constructor
    · exact fun absent begun blockKeys standing => absent ⟨_, begun, blockKeys⟩ (mem_after.mpr standing) rfl
    · rintro absent record inside rfl
      exact absent record.tokens record.blockKeys (mem_after.mp inside)
  longest modelFingerprint tokens matchedTokens blockKeys := by
    rw [longestPrefix_iff (after_unique calls)]
    constructor
    · rintro ⟨record, ⟨inside, rfl, begins, longer⟩, answer⟩
      cases answer
      refine ⟨record.tokens, mem_after.mp inside, begins, rfl, fun other otherKeys standing otherBegins => ?_⟩
      intro different
      exact longer ⟨_, other, otherKeys⟩ (mem_after.mpr standing) rfl otherBegins
        fun same => different (congrArg PrefixRecord.tokens same)
    · rintro ⟨begun, standing, begins, rfl, longer⟩
      refine ⟨⟨modelFingerprint, begun, blockKeys⟩, ⟨mem_after.mpr standing, rfl, begins, ?_⟩, rfl⟩
      rintro other inside model otherBegins different
      refine longer other.tokens other.blockKeys (model ▸ mem_after.mp inside) otherBegins fun same => ?_
      exact different (record_eq (after_unique calls) inside (mem_after.mpr standing)
        (Prod.ext model same))
  unordered _ _ _ same := longestPrefix_perm (after_unique calls) same
  removes _ _ := mem_removeModel
  counts modelFingerprint := by
    rw [removeModel_count (after_unique calls)]
    simp only [mem_after]
  rejects modelFingerprint tokens blockKeys rejected := by
    rcases register_cases modelFingerprint tokens blockKeys (after calls) with
      ⟨accepted, _⟩ | ⟨_, error, done⟩
    · exact absurd accepted rejected
    · refine ⟨⟨error, done⟩, ?_⟩
      rw [after_concat]
      unfold Call.step
      dsimp only
      rw [done]

end PrefixIndex

end RivetCache
