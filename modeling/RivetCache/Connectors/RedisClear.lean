/-
**What `clear` of a Redis tier deletes.**

On a server that does what its manual says, a `clear` that succeeds deletes exactly the keys that match
`namespace:*` as a glob (`clear_value`). These are the entries of the tier only where the namespace is
plain and nothing else on the server begins with `namespace:`.

* `clear_isolated`: when the entries of the tier go and everything else stays;
* `plainRedis`: a server that keeps a list;
* `clear_takes_nested_namespace`: a namespace that begins with another one and a colon is cleared with it.
-/

import RivetCache.Connectors.Redis
import RivetCache.Kv.Tier

set_option linter.unusedSectionVars false

namespace RivetCache

open Library

variable {σ : Type} {server : RedisServer σ} {tier : RedisKvTier}

/-! ### One page -/

/-- **A page that is deleted** without an error: its keys are gone, and no other. -/
theorem deletePage_value (documented : server.Documented) {keys : List (List UInt8)} {state after : σ}
    (deleted : RedisKvTier.deletePage server keys state = (.ok (), after)) :
    server.value after = (fun key => if key ∈ keys then none else server.value state key) ∧
      (after = state ∨ after = (server.command (utf8Bytes "DEL" :: keys) state).2) := by
  unfold RedisKvTier.deletePage at deleted
  split at deleted
  case isTrue empty =>
    cases deleted
    rw [List.isEmpty_iff.mp empty]
    exact ⟨by simp, Or.inl rfl⟩
  case isFalse =>
    split at deleted
    case h_1 => cases deleted
    case h_2 removed left answered =>
      split at deleted
      case isFalse => cases deleted
      case isTrue counted =>
        cases deleted
        have removes := documented.del_removes keys state removed (by rw [answered]) counted
        rw [answered] at removes
        exact ⟨removes, Or.inr (by rw [answered])⟩
    case h_3 => cases deleted

/-- **What a round does** that succeeds: a page is listed and deleted, and it is the last one, or the
rounds after it succeed. -/
theorem clearRounds_succ {pattern cursor : List UInt8} {rounds : Nat} {state after : σ}
    (cleared : RedisKvTier.clearRounds server pattern (rounds + 1) cursor state = (.ok (), after)) :
    ∃ next keys left,
      ScanReply (server.command (scanCommand cursor pattern) state).1 next keys ∧
        RedisKvTier.deletePage server keys
          (server.command (scanCommand cursor pattern) state).2 = (.ok (), left) ∧
        ((next = zeroCursor ∧ after = left) ∨
          (next ≠ zeroCursor ∧
            RedisKvTier.clearRounds server pattern rounds next left = (.ok (), after))) := by
  obtain ⟨response, scanned, answered, listed⟩ := andThen_eq_ok.mp cleared
  cases page : scanPage response with
  | error error =>
      rw [page] at listed
      cases listed
  | ok fields =>
      obtain ⟨next, values⟩ := fields
      rw [page] at listed
      dsimp only at listed
      cases keyed : bulkKeys values with
      | error error =>
          rw [keyed] at listed
          cases listed
      | ok keys =>
          rw [keyed] at listed
          obtain ⟨⟨⟩, left, deleted, continued⟩ := andThen_eq_ok.mp listed
          refine ⟨next, keys, left, ⟨response, values, by rw [answered], page, keyed⟩,
            by rw [answered]; exact deleted, ?_⟩
          split at continued
          case isTrue zero =>
            cases continued
            exact Or.inl ⟨zero, rfl⟩
          case isFalse more => exact Or.inr ⟨more, continued⟩

/-! ### The whole iteration -/

/-- **What the rounds leave**, where they succeed: keys that do not match are untouched, and a key that is
there at the end was missed by the iteration. The induction is on the rounds. -/
theorem clearRounds_value (documented : server.Documented) {pattern cursor : List UInt8} {rounds : Nat}
    {state after : σ}
    (cleared : RedisKvTier.clearRounds server pattern rounds cursor state = (.ok (), after))
    (key : List UInt8) :
    (globMatch pattern key = false → server.value after key = server.value state key) ∧
      (server.value after key ≠ none →
        server.value state key ≠ none ∧ ScanMisses server pattern key cursor state) := by
  induction rounds generalizing cursor state with
  | zero => cases cleared
  | succ rounds ih =>
      obtain ⟨next, keys, left, reply, deleted, continued⟩ := clearRounds_succ cleared
      obtain ⟨gone, reached⟩ := deletePage_value documented deleted
      have scanned := documented.scan_keeps cursor pattern state
      have matching := documented.scan_matches cursor pattern state next keys reply
      have here : server.value left key = if key ∈ keys then none else server.value state key := by
        rw [gone, scanned]
      have unmatched : globMatch pattern key = false → server.value left key = server.value state key := by
        intro apart
        rw [here, if_neg]
        intro listed
        rw [matching key listed] at apart
        cases apart
      have spared : server.value left key ≠ none → key ∉ keys ∧ server.value state key ≠ none := by
        rw [here]
        split
        · exact fun some_there => absurd rfl some_there
        · exact fun some_there => ⟨‹_›, some_there⟩
      rcases continued with ⟨rfl, rfl⟩ | ⟨more, continued⟩
      · refine ⟨unmatched, fun there => ?_⟩
        obtain ⟨unlisted, before⟩ := spared there
        exact ⟨before, .last before reply unlisted⟩
      · obtain ⟨kept, missed⟩ := ih continued
        refine ⟨fun apart => (kept apart).trans (unmatched apart), fun there => ?_⟩
        obtain ⟨at_left, later⟩ := missed there
        obtain ⟨unlisted, before⟩ := spared at_left
        exact ⟨before, .next before reply unlisted more unlisted reached later⟩

/-- **What a `clear` that succeeds deletes**: the keys that match. -/
theorem clear_value (documented : server.Documented) {state after : σ}
    (cleared : tier.clear server state = (.ok (), after)) (key : List UInt8) :
    server.value after key =
      if globMatch (keyPrefix tier.keyNamespace ++ [42]) key then none else server.value state key := by
  obtain ⟨kept, missed⟩ := clearRounds_value documented cleared key
  split
  case isTrue matched =>
    by_contra there
    exact documented.scan_complete _ key state matched (missed there).2
  case isFalse apart => exact kept (Bool.not_eq_true _ ▸ apart)

/-! ### The entries of a tier -/

/-- A key that the tier writes an entry under. -/
def RedisKvTier.Owns (tier : RedisKvTier) (digest : Digest) (key : List UInt8) : Prop :=
  ∃ block, key = tier.redisKey digest block

/-- **The namespaces are isolated**: the entries of the tier are gone, and every other key has the value it
had. -/
def Isolated (server : RedisServer σ) (digest : Digest) (tier : RedisKvTier) (state after : σ) : Prop :=
  ∀ key, (tier.Owns digest key → server.value after key = none) ∧
    (¬ tier.Owns digest key → server.value after key = server.value state key)

/-- A namespace whose characters stand for themselves in a glob. -/
def PlainNamespace (keyNamespace : String) : Prop :=
  ∀ byte ∈ utf8Bytes keyNamespace, PlainByte byte

variable {digest : Digest}

/-- **Two namespaces share no key.** -/
theorem owns_apart {other : RedisKvTier} (different : other.keyNamespace ≠ tier.keyNamespace)
    {key : List UInt8} (owned : other.Owns digest key) : ¬ tier.Owns digest key := by
  rintro ⟨block, rfl⟩
  obtain ⟨block', same⟩ := owned
  have parts := List.append_inj' same (by rw [cacheKey_length, cacheKey_length])
  have bytes := List.append_inj' parts.1 rfl
  exact different (utf8Bytes_inj bytes.1).symm

/-- A pattern of a plain namespace matches what begins with the namespace and a colon. -/
theorem plain_match {keyNamespace : String} (plain : PlainNamespace keyNamespace) (key : List UInt8) :
    globMatch (keyPrefix keyNamespace ++ [42]) key = true ↔ keyPrefix keyNamespace <+: key := by
  refine globMatch_prefix (fun byte mem => ?_) key
  rcases List.mem_append.mp mem with inside | colon
  · exact plain byte inside
  · rw [List.mem_singleton.mp colon]
    decide

/-- **The keys of another namespace** begin with this one and a colon where the namespace itself does. -/
theorem prefix_of_owned {other : RedisKvTier} (different : other.keyNamespace ≠ tier.keyNamespace)
    {key : List UInt8} (owned : other.Owns digest key) :
    keyPrefix tier.keyNamespace <+: key ↔
      keyPrefix tier.keyNamespace <+: utf8Bytes other.keyNamespace := by
  obtain ⟨block, rfl⟩ := owned
  unfold RedisKvTier.redisKey
  constructor
  · intro begins
    have whole := List.prefix_append (keyPrefix other.keyNamespace) (block.cacheKey digest)
    rcases List.prefix_or_prefix_of_prefix begins whole with short | long
    · -- the colon of the prefix is inside the other namespace, or it is the same colon
      obtain ⟨tail, same⟩ := short
      rcases List.eq_nil_or_concat tail with rfl | ⟨front, last, rfl⟩
      · rw [List.append_nil] at same
        exact absurd (utf8Bytes_inj (List.append_inj' same rfl).1).symm different
      · rw [List.concat_eq_append, ← List.append_assoc] at same
        exact ⟨front, (List.append_inj' same rfl).1⟩
    · -- no colon is among the digits
      obtain ⟨tail, same⟩ := long
      rw [← same, List.prefix_append_right_inj] at begins
      rcases List.eq_nil_or_concat tail with rfl | ⟨front, last, rfl⟩
      · rw [List.append_nil] at same
        exact absurd (utf8Bytes_inj (List.append_inj' same rfl).1) different
      · rw [List.concat_eq_append, ← List.append_assoc] at same
        have colon : last = 58 := by
          have ends := (List.append_inj' same rfl).2
          exact (List.cons.inj ends).1
        exfalso
        refine cacheKey_digits digest block (begins.subset ?_)
        rw [List.concat_eq_append, colon]
        exact List.mem_append_right _ List.mem_cons_self
  · rintro ⟨tail, same⟩
    refine ⟨tail ++ [58] ++ block.cacheKey digest, ?_⟩
    rw [← List.append_assoc, ← List.append_assoc, same]
    rfl

/-! ### Isolation -/

/-- **When `clear` isolates namespaces.** A `clear` that succeeds removes the entries of the tier and
leaves every other key, if and only if of the keys on the server the pattern matches the entries of the
tier and no other. For a plain namespace: if and only if nothing else begins with it and a colon; of
another tier this is so where the other namespace does. -/
theorem clear_isolated (documented : server.Documented) {state after : σ}
    (cleared : tier.clear server state = (.ok (), after)) (digest : Digest) :
    (Isolated server digest tier state after ↔
      ∀ key, server.value state key ≠ none →
        (globMatch (keyPrefix tier.keyNamespace ++ [42]) key = true ↔ tier.Owns digest key)) ∧
    (PlainNamespace tier.keyNamespace →
      (Isolated server digest tier state after ↔
        ∀ key, server.value state key ≠ none → keyPrefix tier.keyNamespace <+: key →
          tier.Owns digest key) ∧
      ∀ other : RedisKvTier, other.keyNamespace ≠ tier.keyNamespace →
        ∀ key, other.Owns digest key → server.value state key ≠ none →
          (server.value after key = server.value state key ↔
            ¬ keyPrefix tier.keyNamespace <+: utf8Bytes other.keyNamespace)) := by
  have values := clear_value documented cleared
  have general : Isolated server digest tier state after ↔
      ∀ key, server.value state key ≠ none →
        (globMatch (keyPrefix tier.keyNamespace ++ [42]) key = true ↔ tier.Owns digest key) := by
    constructor
    · intro isolated key there
      obtain ⟨gone, kept⟩ := isolated key
      rw [values key] at gone kept
      constructor
      · intro matched
        by_contra foreign
        rw [if_pos matched] at kept
        exact there (kept foreign).symm
      · intro owned
        by_contra apart
        rw [if_neg apart] at gone
        exact there (gone owned)
    · intro exact_match key
      rw [values key]
      by_cases there : server.value state key = none
      · rw [there, ite_self]
        exact ⟨fun _ => rfl, fun _ => rfl⟩
      · have same := exact_match key there
        constructor
        · exact fun owned => if_pos (same.mpr owned)
        · exact fun foreign => if_neg fun matched => foreign (same.mp matched)
  refine ⟨general, fun plain => ⟨general.trans ?_, ?_⟩⟩
  · refine forall_congr' fun key => imp_congr_right fun _ => ?_
    rw [plain_match plain key]
    refine ⟨Iff.mp, fun begins => ⟨begins, ?_⟩⟩
    rintro ⟨block, rfl⟩
    exact List.prefix_append _ _
  · intro other different key owned there
    rw [values key, ← prefix_of_owned different owned, ← plain_match plain key]
    by_cases matched : globMatch (keyPrefix tier.keyNamespace ++ [42]) key = true
    · rw [if_pos matched]
      exact iff_of_false (fun same => there same.symm) (not_not.mpr matched)
    · rw [if_neg matched]
      exact iff_of_true rfl matched

/-! ### A server that keeps a list -/

/-- A server that keeps its keys and values in a list, and lists all keys on one page. -/
def plainRedis : RedisServer (List (List UInt8 × List UInt8)) where
  command := fun arguments state =>
    if arguments.head? = some (utf8Bytes "SCAN") then
      (.ok (.array (some [.bulk (some zeroCursor),
        .array (some (((state.map Prod.fst).filter
          (globMatch ((arguments[3]?).getD []))).map fun key => .bulk (some key)))])), state)
    else if arguments.head? = some (utf8Bytes "DEL") then
      (.ok (.integer (state.countP fun entry => arguments.tail.contains entry.1)),
        state.filter fun entry => !arguments.tail.contains entry.1)
    else (.ok (.error "ERR unknown command"), state)
  value := fun state key => state.lookup key

theorem bulkKeys_map (keys : List (List UInt8)) :
    bulkKeys (keys.map fun key => .bulk (some key)) = .ok keys := by
  induction keys with
  | nil => rfl
  | cons key rest ih =>
      rw [List.map_cons, bulkKeys, ih]

theorem plainRedis_scan (cursor pattern : List UInt8) (state : List (List UInt8 × List UInt8)) :
    plainRedis.command (scanCommand cursor pattern) state =
      (.ok (.array (some [.bulk (some zeroCursor),
        .array (some (((state.map Prod.fst).filter (globMatch pattern)).map
          fun key => .bulk (some key)))])), state) := by
  simp [plainRedis, scanCommand]

theorem plainRedis_del (keys : List (List UInt8)) (state : List (List UInt8 × List UInt8)) :
    plainRedis.command (utf8Bytes "DEL" :: keys) state =
      (.ok (.integer (state.countP fun entry => keys.contains entry.1)),
        state.filter fun entry => !keys.contains entry.1) := by
  have other : utf8Bytes "DEL" ≠ utf8Bytes "SCAN" := by decide
  unfold plainRedis
  dsimp only
  rw [if_neg (by simpa using other)]
  exact if_pos List.head?_cons

/-- The page of a `SCAN`. -/
theorem plainRedis_reply {cursor pattern next : List UInt8} {keys : List (List UInt8)}
    {state : List (List UInt8 × List UInt8)} :
    ScanReply (plainRedis.command (scanCommand cursor pattern) state).1 next keys ↔
      next = zeroCursor ∧ keys = (state.map Prod.fst).filter (globMatch pattern) := by
  rw [plainRedis_scan]
  constructor
  · rintro ⟨response, values, ⟨⟩, ⟨⟩, listed⟩
    rw [bulkKeys_map] at listed
    cases listed
    exact ⟨rfl, rfl⟩
  · rintro ⟨rfl, rfl⟩
    exact ⟨_, _, rfl, rfl, bulkKeys_map _⟩

theorem lookup_ne_none {key : List UInt8} {state : List (List UInt8 × List UInt8)} :
    state.lookup key ≠ none ↔ key ∈ state.map Prod.fst := by
  induction state with
  | nil => simp
  | cons entry rest ih =>
      rw [List.lookup_cons, List.map_cons, List.mem_cons, ← ih]
      by_cases same : key = entry.1
      · simp [same]
      · rw [beq_eq_false_iff_ne.mpr same]
        exact (or_iff_right same).symm

theorem lookup_filter (keys : List (List UInt8)) (key : List UInt8)
    (state : List (List UInt8 × List UInt8)) :
    (state.filter fun entry => !keys.contains entry.1).lookup key =
      if key ∈ keys then none else state.lookup key := by
  induction state with
  | nil => simp
  | cons entry rest ih =>
      by_cases named : entry.1 ∈ keys
      · rw [List.filter_cons_of_neg (by simpa using named), ih, List.lookup_cons]
        split
        case isTrue => rfl
        case isFalse unnamed =>
          have apart : key ≠ entry.1 := fun same => unnamed (same ▸ named)
          rw [beq_eq_false_iff_ne.mpr apart]
      · rw [List.filter_cons_of_pos (by simpa using named), List.lookup_cons, List.lookup_cons, ih]
        by_cases same : key = entry.1
        · rw [same, beq_self_eq_true]
          show some entry.2 = if entry.1 ∈ keys then none else some entry.2
          rw [if_neg named]
        · rw [beq_eq_false_iff_ne.mpr same]

/-- **The list server** does what the manual says. -/
theorem plainRedis_documented : plainRedis.Documented where
  scan_keeps := fun cursor pattern state => by rw [plainRedis_scan]
  scan_matches := by
    intro cursor pattern state next keys reply key listed
    rw [(plainRedis_reply.mp reply).2] at listed
    exact (List.mem_filter.mp listed).2
  scan_complete := by
    intro pattern key state matched missed
    have listed : ∀ {cursor next : List UInt8} {state : List (List UInt8 × List UInt8)}
        {keys : List (List UInt8)}, plainRedis.value state key ≠ none →
        ScanReply (plainRedis.command (scanCommand cursor pattern) state).1 next keys →
        key ∈ keys := by
      intro cursor next state keys there reply
      rw [(plainRedis_reply.mp reply).2]
      exact List.mem_filter.mpr ⟨lookup_ne_none.mp there, matched⟩
    cases missed with
    | last there reply unlisted => exact unlisted (listed there reply)
    | next there reply unlisted => exact unlisted (listed there reply)
  del_removes := by
    intro keys state removed answered counted
    funext key
    rw [plainRedis_del]
    exact lookup_filter keys key state

/-- A `clear` on the list server succeeds. -/
theorem plainRedis_clear (tier : RedisKvTier) (state : List (List UInt8 × List UInt8)) :
    ∃ after, tier.clear plainRedis state = (.ok (), after) := by
  unfold RedisKvTier.clear
  rw [show (100000 : Nat) = 99999 + 1 from rfl, RedisKvTier.clearRounds, plainRedis_scan]
  simp only [andThen_ok, scanPage, bulkKeys_map]
  unfold RedisKvTier.deletePage
  by_cases empty : ((state.map Prod.fst).filter
      (globMatch (keyPrefix tier.keyNamespace ++ [42]))).isEmpty = true
  · rw [if_pos empty, andThen_ok, if_pos trivial]
    exact ⟨state, rfl⟩
  · rw [if_neg empty, plainRedis_del]
    dsimp only
    rw [if_pos (Int.natCast_nonneg _), andThen_ok, if_pos trivial]
    exact ⟨_, rfl⟩

/-- A tier of a namespace. -/
def redisTierOf (keyNamespace : String) : RedisKvTier := ⟨"redis", "localhost:6379", keyNamespace, 1024⟩

/-- A server with one entry of the namespace. -/
def oneEntry (keyNamespace : String) : List (List UInt8 × List UInt8) :=
  [((redisTierOf keyNamespace).redisKey zeroDigest KvBlockKey.sample, [])]

theorem oneEntry_value {keyNamespace : String} {key : List UInt8} :
    plainRedis.value (oneEntry keyNamespace) key ≠ none ↔
      key = (redisTierOf keyNamespace).redisKey zeroDigest KvBlockKey.sample :=
  lookup_ne_none.trans List.mem_singleton

theorem plainNamespace_a : PlainNamespace "a" := by
  have bytes : utf8Bytes "a" = [97] := rfl
  intro byte inside
  rw [bytes, List.mem_singleton] at inside
  subst inside
  decide

/-- **The entries of a namespace inside another one** are deleted with it. Both are accepted. -/
theorem clear_takes_nested_namespace :
    RedisKvTier.withDialer "redis" "localhost:6379" "a" 1024 = .ok (redisTierOf "a") ∧
      RedisKvTier.withDialer "redis" "localhost:6379" "a:b" 1024 = .ok (redisTierOf "a:b") ∧
      plainRedis.value (oneEntry "a:b") ((redisTierOf "a:b").redisKey zeroDigest KvBlockKey.sample) ≠ none ∧
      ∃ after, (redisTierOf "a").clear plainRedis (oneEntry "a:b") = (.ok (), after) ∧
        plainRedis.value after ((redisTierOf "a:b").redisKey zeroDigest KvBlockKey.sample) = none := by
  obtain ⟨after, cleared⟩ := plainRedis_clear (redisTierOf "a") (oneEntry "a:b")
  refine ⟨rfl, rfl, oneEntry_value.mpr rfl, after, cleared, ?_⟩
  have inside : keyPrefix "a" <+: (redisTierOf "a:b").redisKey zeroDigest KvBlockKey.sample :=
    (by decide : keyPrefix "a" <+: keyPrefix "a:b").trans (List.prefix_append _ _)
  rw [clear_value plainRedis_documented cleared]
  exact if_pos ((plain_match plainNamespace_a _).mpr inside)

/-- A server with entries of one namespace. -/
theorem clear_isolated_alone :
    ∃ after, (redisTierOf "a").clear plainRedis (oneEntry "a") = (.ok (), after) ∧
      Isolated plainRedis zeroDigest (redisTierOf "a") (oneEntry "a") after := by
  obtain ⟨after, cleared⟩ := plainRedis_clear (redisTierOf "a") (oneEntry "a")
  refine ⟨after, cleared,
    ((clear_isolated plainRedis_documented cleared zeroDigest).2 plainNamespace_a).1.mpr ?_⟩
  intro key there _
  exact ⟨KvBlockKey.sample, oneEntry_value.mp there⟩

end RivetCache
