/-
**What a tier on an S3 bucket answers.**

A client that gets no answer does not know whether its request was carried out: a `PUT` that ends in an error may
have stored its object. The calls of a tier are logged as attempts, confirmed where the call succeeded
(`KvTier.attempted`). Over any run against a service that does what it documents (`HttpClient.Serves`):

* `s3_answers`: what `get` answers was put, and no confirmed call about its key came after; after a confirmed call
  that no other follows, it is what that call left; and a `get` that the service answers succeeds, since every
  object is an envelope;
* `s3_succeeds`: so do the other calls, since every request is authentic (`OnBucket.answered`).
-/

import RivetCache.Connectors.S3Signed
import RivetCache.Library.Attempts
import RivetCache.Tiers.Lossy

set_option linter.unusedSectionVars false

namespace RivetCache

open Library

/-! ### Attempts -/

/-- A call, on the tier and on the log of what was attempted, newest first. -/
def KvTier.attempted {τ : Type} (tier : KvTier τ) :
    TierCall → τ × List (Attempt KvBlockKey KvTierEntry) → τ × List (Attempt KvBlockKey KvTierEntry)
  | .get key, (state, log) => ((tier.get key state).2, log)
  | .put entry, (state, log) =>
      ((tier.put entry state).2, .write entry.block.key entry (tier.put entry state).1.isOk :: log)
  | .remove key, (state, log) => ((tier.remove key state).2, .erase key (tier.remove key state).1.isOk :: log)
  | .clear, (state, log) => ((tier.clear state).2, .eraseAll (tier.clear state).1.isOk :: log)
  | .health, (state, log) => ((tier.health state).2, log)

/-- The keys of a call are among some. -/
def TierCall.Within (keys : Set KvBlockKey) : TierCall → Prop
  | .get key => key ∈ keys
  | .put entry => entry.block.key ∈ keys
  | .remove key => key ∈ keys
  | .clear => True
  | .health => True

/-! ### The service -/

/-- **A client of a bucket**, as the service documents it. An answer tells what there is; a request that is
answered with success was carried out, and one that is not may have been before the call returns; an authentic
request is answered with success, or with 404 where there is no object, unless the service itself fails. -/
structure HttpClient.Serves {σ : Type} (client : HttpClient σ) (hash : List UInt8 → List UInt8)
    (secretOf : List UInt8 → Option (List UInt8)) (objects : σ → List UInt8 → Option (List UInt8)) : Prop where
  found : ∀ request state response, request.method = "GET" → (client.execute request state).1 = .ok response →
    response.status = 200 → objects state (utf8Bytes request.path) = some response.body
  missing : ∀ request state response, request.method = "GET" → (client.execute request state).1 = .ok response →
    response.status = 404 → objects state (utf8Bytes request.path) = none
  answered : ∀ request state response, (client.execute request state).1 = .ok response →
    authentic hash secretOf request.received = true → response.status < 500 →
      (request.method = "GET" → response.status = 200 ∨ response.status = 404) ∧
      (request.method = "PUT" ∨ request.method = "HEAD" → response.status = 200) ∧
      (request.method = "DELETE" → response.status = 204)
  reads : ∀ request state, request.method = "GET" ∨ request.method = "HEAD" →
    objects (client.execute request state).2 = objects state
  put : ∀ request state, request.method = "PUT" →
    objects (client.execute request state).2 = objects state ∨
      objects (client.execute request state).2 =
        Function.update (objects state) (utf8Bytes request.path) (some request.body)
  putDone : ∀ request state response, request.method = "PUT" → (client.execute request state).1 = .ok response →
    response.status = 200 ∨ response.status = 201 ∨ response.status = 204 →
      objects (client.execute request state).2 =
        Function.update (objects state) (utf8Bytes request.path) (some request.body)
  delete : ∀ request state, request.method = "DELETE" →
    objects (client.execute request state).2 = objects state ∨
      objects (client.execute request state).2 = Function.update (objects state) (utf8Bytes request.path) none
  deleteDone : ∀ request state response, request.method = "DELETE" →
    (client.execute request state).1 = .ok response →
      response.status = 200 ∨ response.status = 204 ∨ response.status = 404 →
        objects (client.execute request state).2 = Function.update (objects state) (utf8Bytes request.path) none

namespace S3KvTier

variable {σ : Type} {digest : Digest} {tier : S3KvTier σ} {secretOf : List UInt8 → Option (List UInt8)}
  {objects : σ → List UInt8 → Option (List UInt8)}

/-- **A tier on a bucket**: what it signs is plain, the service has its secret, and its clock gives a date and a
time and leaves the bucket alone. -/
structure OnBucket (digest : Digest) (tier : S3KvTier σ) (secretOf : List UInt8 → Option (List UInt8))
    (objects : σ → List UInt8 → Option (List UInt8)) : Prop where
  plain : tier.Plain
  known : secretOf (utf8Bytes tier.credentials.accessKey) = some (utf8Bytes tier.credentials.secretKey)
  serves : tier.client.Serves (hashOf digest) secretOf objects
  stamped : ∀ state stamp, (tier.clock.timestamp state).1 = .ok stamp → Stamped stamp
  clock : ∀ state, objects (tier.clock.timestamp state).2 = objects state

/-- Where the object of a key is. -/
def place (digest : Digest) (tier : S3KvTier σ) (key : KvBlockKey) : List UInt8 :=
  utf8Bytes (tier.objectPath digest key)

/-- **Objects are apart** where the cache keys are. -/
theorem place_inj {key other : KvBlockKey} (same : tier.place digest key = tier.place digest other) :
    key.cacheKey digest = other.cacheKey digest := by
  have slash : utf8Bytes "/" = [47] := by decide
  have each : ∀ key : KvBlockKey, tier.place digest key =
      47 :: ([47].intercalate (tier.folderParts.map utf8Bytes) ++ 47 :: key.cacheKey digest) := by
    intro key
    have ascii : ∀ byte ∈ key.cacheKey digest, byte.toNat < 128 :=
      fun byte there => unreserved_ascii (hexEncode_unreserved there)
    have folder : tier.folderParts.map utf8Bytes ≠ [] := by simp [folderParts]
    unfold place objectPath
    rw [utf8Bytes_append, utf8Bytes_intercalate, slash, List.map_append, List.map_singleton,
      utf8Bytes_asciiText ascii, intercalate_append folder (List.cons_ne_nil _ _), List.intercalate_singleton]
    rfl
  rw [each, each, List.cons_inj_right, List.append_cancel_left_eq, List.cons_inj_right] at same
  exact same

/-! ### One request -/

/-- A request has no time and is not sent, or is sent at some time. -/
theorem request_cases (digest : Digest) (tier : S3KvTier σ) (method path : String) (body : List UInt8)
    (state : σ) :
    (∃ error, tier.request digest method path body state = (.error error, (tier.clock.timestamp state).2)) ∨
    ∃ stamp, (tier.clock.timestamp state).1 = .ok stamp ∧
      tier.request digest method path body state =
        tier.client.execute (tier.signedRequest digest stamp method path body) (tier.clock.timestamp state).2 := by
  unfold request
  rcases read : tier.clock.timestamp state with ⟨stamp, between⟩
  cases stamp with
  | error error => exact Or.inl ⟨error, rfl⟩
  | ok stamp => exact Or.inr ⟨stamp, rfl, rfl⟩

/-- **A request is not refused**: it is authentic, so that its answer is the one for its method. -/
theorem OnBucket.answered (on : OnBucket digest tier secretOf objects) (method : String) {path : String}
    (canonical : canonicalUri (utf8Bytes path) = utf8Bytes path) (body : List UInt8) (state : σ)
    (response : HttpResponse) (received : (tier.request digest method path body state).1 = .ok response)
    (fine : response.status < 500) :
    (method = "GET" → response.status = 200 ∨ response.status = 404) ∧
      (method = "PUT" ∨ method = "HEAD" → response.status = 200) ∧
      (method = "DELETE" → response.status = 204) := by
  rcases tier.request_cases digest method path body state with ⟨error, sent⟩ | ⟨stamp, timed, sent⟩
  · rw [sent] at received
    cases received
  · rw [sent] at received
    exact on.serves.answered _ _ _ received
      (request_authentic digest on.plain (on.stamped state stamp timed) on.known canonical method body) fine

/-- `get` and `health` change no object. -/
theorem OnBucket.read_request (on : OnBucket digest tier secretOf objects) {method : String}
    (reads : method = "GET" ∨ method = "HEAD") (path : String) (body : List UInt8) (state : σ) :
    objects (tier.request digest method path body state).2 = objects state := by
  rcases tier.request_cases digest method path body state with ⟨error, sent⟩ | ⟨stamp, _, sent⟩
  · rw [sent]
    exact on.clock state
  · rw [sent, on.serves.reads _ _ reads, on.clock]

/-- The state after a request whose response is looked at. -/
theorem andThen_response {α ε τ β : Type} (first : Except ε α × τ) (answer : α → Except ε β) :
    (andThen first fun response state => (answer response, state)).2 = first.2 := by
  rcases first with ⟨_ | _, state⟩ <;> rfl

theorem OnBucket.get_objects (on : OnBucket digest tier secretOf objects) (key : KvBlockKey) (state : σ) :
    objects (tier.get digest key state).2 = objects state := by
  unfold get
  rw [andThen_response]
  exact on.read_request (Or.inl rfl) _ _ state

theorem OnBucket.health_objects (on : OnBucket digest tier secretOf objects) (state : σ) :
    objects (tier.health digest state).2 = objects state := by
  unfold health
  rw [andThen_response]
  exact on.read_request (Or.inr rfl) _ _ state

/-- **A response that is looked at**: where a success was carried out, and anything else may have been, what is
confirmed was carried out. -/
theorem settled_objects {before updated : List UInt8 → Option (List UInt8)}
    (reply : Except IoError HttpResponse × σ) (success : HttpResponse → Prop) [DecidablePred success]
    (error : HttpResponse → IoError) (either : objects reply.2 = before ∨ objects reply.2 = updated)
    (done : ∀ response, reply.1 = .ok response → success response → objects reply.2 = updated) :
    ((andThen reply fun response state => ((if success response then .ok () else .error (error response) :
        Except IoError Unit), state)).1.isOk = false ∧ objects reply.2 = before) ∨ objects reply.2 = updated := by
  rcases either with same | carried
  · rcases reply with ⟨_ | response, after⟩
    · exact Or.inl ⟨rfl, same⟩
    · by_cases successful : success response
      · exact Or.inr (done response rfl successful)
      · refine Or.inl ⟨?_, same⟩
        rw [andThen_ok, if_neg successful]
        rfl
  · exact Or.inr carried

/-- A response of success. -/
theorem succeeded {reply : Except IoError HttpResponse × σ} {response : HttpResponse}
    (received : reply.1 = .ok response) (success : HttpResponse → Prop) [DecidablePred success]
    (error : HttpResponse → IoError) (successful : success response) :
    (andThen reply fun response state => ((if success response then .ok () else .error (error response) :
      Except IoError Unit), state)).1 = .ok () := by
  rcases reply with ⟨_, after⟩
  cases received
  rw [andThen_ok, if_pos successful]

/-- **What `put` does**: it stores the envelope, or fails and stores nothing. -/
theorem OnBucket.put_objects (on : OnBucket digest tier secretOf objects) (entry : KvTierEntry) (state : σ) :
    ((tier.put digest entry state).1.isOk = false ∧ objects (tier.put digest entry state).2 = objects state) ∨
    objects (tier.put digest entry state).2 =
        Function.update (objects state) (tier.place digest entry.block.key) (some (envelope entry)) ∧
      entry.block.bytes.bytes ≠ [] ∧ (envelope entry).length ≤ tier.config.maxValueBytes := by
  unfold put
  cases encoded : Connectors.encodeEntry entry with
  | error error => exact Or.inl ⟨rfl, rfl⟩
  | ok body =>
      obtain ⟨filled, rfl⟩ := encodeTierEntry_ok.mp (Connectors.encodeEntry_ok.mp encoded)
      dsimp only
      split
      · exact Or.inl ⟨rfl, rfl⟩
      · next fits =>
          rw [andThen_response]
          rcases tier.request_cases digest "PUT" (tier.objectPath digest entry.block.key) (envelope entry)
            state with ⟨error, sent⟩ | ⟨stamp, _, sent⟩
          · rw [sent]
            exact Or.inl ⟨rfl, on.clock state⟩
          · rw [sent, ← on.clock state]
            refine (settled_objects _ (fun response => response.status = 200 ∨ response.status = 201 ∨
              response.status = 204) _ (on.serves.put _ _ rfl) fun response received success => ?_).imp id
                fun stored => ⟨stored, filled, Nat.le_of_not_lt fits⟩
            exact on.serves.putDone _ _ response rfl received success

/-- **What `remove` does**: it deletes the object, or fails and deletes nothing. -/
theorem OnBucket.remove_objects (on : OnBucket digest tier secretOf objects) (key : KvBlockKey) (state : σ) :
    ((tier.remove digest key state).1.isOk = false ∧ objects (tier.remove digest key state).2 = objects state) ∨
    objects (tier.remove digest key state).2 = Function.update (objects state) (tier.place digest key) none := by
  unfold remove
  rw [andThen_response]
  rcases tier.request_cases digest "DELETE" (tier.objectPath digest key) [] state with
    ⟨error, sent⟩ | ⟨stamp, _, sent⟩
  · rw [sent]
    exact Or.inl ⟨rfl, on.clock state⟩
  · rw [sent, ← on.clock state]
    refine settled_objects _ (fun response => response.status = 200 ∨ response.status = 204 ∨
      response.status = 404) _ (on.serves.delete _ _ rfl) fun response received success => ?_
    exact on.serves.deleteDone _ _ response rfl received success

/-! ### The bucket and the log -/

/-- An entry that `put` may have stored under a key. -/
def Storable (tier : S3KvTier σ) (key : KvBlockKey) (entry : KvTierEntry) : Prop :=
  entry.block.key = key ∧ entry.block.bytes.bytes ≠ [] ∧ (envelope entry).length ≤ tier.config.maxValueBytes

/-- An object is the envelope of what is held, or there is none. -/
def Stands (digest : Digest) (tier : S3KvTier σ) (objects : σ → List UInt8 → Option (List UInt8)) (state : σ)
    (key : KvBlockKey) (held : Option KvTierEntry) : Prop :=
  objects state (tier.place digest key) = held.map envelope ∧ ∀ entry ∈ held, tier.Storable key entry

/-- **The bucket is one that the attempts allow.** -/
def Agrees (digest : Digest) (tier : S3KvTier σ) (objects : σ → List UInt8 → Option (List UInt8))
    (keys : Set KvBlockKey) (traced : σ × List (Attempt KvBlockKey KvTierEntry)) : Prop :=
  ∀ key ∈ keys, ∃ held, Possible key traced.2 held ∧ tier.Stands digest objects traced.1 key held

section

variable {keys : Set KvBlockKey} {state after : σ} {log : List (Attempt KvBlockKey KvTierEntry)}
  {attempt : Attempt KvBlockKey KvTierEntry}

theorem agrees_empty (empty : ∀ key ∈ keys, objects state (tier.place digest key) = none) :
    tier.Agrees digest objects keys (state, []) :=
  fun key among => ⟨none, rfl, empty key among, fun entry held => by cases held⟩

/-- No object changes, and nothing is attempted. -/
theorem Agrees.same (agrees : tier.Agrees digest objects keys (state, log))
    (unchanged : objects after = objects state) : tier.Agrees digest objects keys (after, log) := by
  intro key among
  obtain ⟨held, possible, stands⟩ := agrees key among
  refine ⟨held, possible, ?_, stands.2⟩
  rw [unchanged]
  exact stands.1

/-- No object changes, and the attempt is not confirmed. -/
theorem Agrees.unsure (agrees : tier.Agrees digest objects keys (state, log))
    (unconfirmed : attempt.confirmed = false) (unchanged : objects after = objects state) :
    tier.Agrees digest objects keys (after, attempt :: log) := by
  intro key among
  obtain ⟨held, possible, stands⟩ := agrees.same unchanged key among
  exact ⟨held, ⟨held, possible, Attempt.moves_same unconfirmed⟩, stands⟩

/-- **The attempt is carried out**: the object of its key is what it leaves, and no other changes. -/
theorem Agrees.done (agrees : tier.Agrees digest objects keys (state, log))
    (apart : Set.InjOn (KvBlockKey.cacheKey digest) keys) {written : KvBlockKey} (inside : written ∈ keys)
    (about : ∀ key, attempt.Touches key ↔ written = key)
    (storable : ∀ entry ∈ attempt.result, tier.Storable written entry)
    (updated : objects after =
      Function.update (objects state) (tier.place digest written) (attempt.result.map envelope)) :
    tier.Agrees digest objects keys (after, attempt :: log) := by
  intro key among
  obtain ⟨held, possible, stands⟩ := agrees key among
  by_cases here : written = key
  · subst here
    refine ⟨attempt.result, ⟨held, possible, Attempt.moves_result ((about written).mpr rfl)⟩, ?_, storable⟩
    rw [updated, Function.update_self]
  · have elsewhere : tier.place digest key ≠ tier.place digest written :=
      fun same => here (apart inside among (place_inj same).symm)
    refine ⟨held, ⟨held, possible, (Attempt.moves_other (mt (about key).mp here)).mpr rfl⟩, ?_, stands.2⟩
    rw [updated, Function.update_of_ne elsewhere]
    exact stands.1

/-- **A call keeps the agreement.** -/
theorem OnBucket.agrees_attempted (on : OnBucket digest tier secretOf objects)
    (apart : Set.InjOn (KvBlockKey.cacheKey digest) keys) (call : TierCall)
    (traced : σ × List (Attempt KvBlockKey KvTierEntry)) (agrees : tier.Agrees digest objects keys traced)
    (within : call.Within keys) :
    tier.Agrees digest objects keys ((tier.kvTier digest).attempted call traced) := by
  obtain ⟨state, log⟩ := traced
  cases call with
  | get key => exact agrees.same (on.get_objects key state)
  | health => exact agrees.same (on.health_objects state)
  | clear => exact agrees.unsure rfl rfl
  | put entry =>
      rcases on.put_objects entry state with ⟨failed, same⟩ | ⟨stored, filled, fits⟩
      · exact agrees.unsure failed same
      · refine agrees.done apart within (fun key => Iff.rfl) ?_ stored
        intro other among
        cases among
        exact ⟨rfl, filled, fits⟩
  | remove key =>
      rcases on.remove_objects key state with ⟨failed, same⟩ | deleted
      · exact agrees.unsure failed same
      · exact agrees.done apart within (fun other => Iff.rfl) (fun entry among => by cases among) deleted

/-! ### What is answered -/

/-- An envelope that stands is decoded. -/
theorem decode_storable {key : KvBlockKey} {entry : KvTierEntry} (storable : tier.Storable key entry) :
    Connectors.decodeEntry key (envelope entry) tier.config.maxValueBytes = .ok entry := by
  obtain ⟨rfl, filled, fits⟩ := storable
  exact (Connectors.decodeEntry_ok fits).mpr (decode_encode (encodeTierEntry_ok.mpr ⟨filled, rfl⟩))

/-- A `GET` that succeeds brings what stands, and 404 tells that nothing does. -/
theorem OnBucket.received_stands (on : OnBucket digest tier secretOf objects) {key : KvBlockKey}
    {held : Option KvTierEntry} (stands : tier.Stands digest objects state key held) (response : HttpResponse)
    (received : (tier.request digest "GET" (tier.objectPath digest key) [] state).1 = .ok response) :
    (response.status = 200 →
      (Connectors.decodeEntry key response.body tier.config.maxValueBytes).map some = .ok held) ∧
    (response.status = 404 → held = none) := by
  rcases tier.request_cases digest "GET" (tier.objectPath digest key) [] state with
    ⟨error, sent⟩ | ⟨stamp, _, sent⟩
  · rw [sent] at received
    cases received
  · rw [sent] at received
    constructor
    · intro status
      have there := on.serves.found _ _ response rfl received status
      rw [on.clock] at there
      have same := stands.1.symm.trans there
      cases held with
      | none => cases same
      | some entry =>
          rw [← Option.some.inj same, decode_storable (stands.2 entry rfl)]
          rfl
    · intro status
      have there := on.serves.missing _ _ response rfl received status
      rw [on.clock] at there
      exact Option.map_eq_none_iff.mp (stands.1.symm.trans there)

/-- **What `get` answers** is what stands; and where the service answers and does not fail, `get` does not either. -/
theorem OnBucket.get_stands (on : OnBucket digest tier secretOf objects) {key : KvBlockKey}
    {held : Option KvTierEntry} (stands : tier.Stands digest objects state key held) :
    (∀ answer, (tier.get digest key state).1 = .ok answer → answer = held) ∧
    ∀ response, (tier.request digest "GET" (tier.objectPath digest key) [] state).1 = .ok response →
      response.status < 500 → (tier.get digest key state).1 = .ok held := by
  have read := on.received_stands stands
  have answered := on.answered "GET" (objectPath_canonical digest on.plain key) [] state
  unfold get
  generalize tier.request digest "GET" (tier.objectPath digest key) [] state = reply at read answered ⊢
  rcases reply with ⟨_ | response, after⟩
  · exact ⟨fun answer given => (by cases given), fun response received => by cases received⟩
  · rw [andThen_ok]
    constructor
    · intro answer given
      split at given
      · next status => exact Except.ok.inj (given.symm.trans ((read response rfl).1 status))
      · split at given
        · next status => rw [(read response rfl).2 status, ← Except.ok.inj given]
        · cases given
    · rintro _ ⟨⟩ fine
      rcases (answered response rfl fine).1 rfl with status | status
      · rw [if_pos status]
        exact (read response rfl).1 status
      · rw [if_neg (by rw [status]; decide), if_pos status, (read response rfl).2 status]

end

end S3KvTier

/-! ### A bucket -/

/-- What a bucket does with a request that is authentic. -/
def carriedOut (request : HttpRequest) (bucket : List UInt8 → Option (List UInt8)) :
    Except IoError HttpResponse × (List UInt8 → Option (List UInt8)) :=
  if request.method = "PUT" then
    (.ok ⟨200, [], []⟩, Function.update bucket (utf8Bytes request.path) (some request.body))
  else if request.method = "DELETE" then
    (.ok ⟨204, [], []⟩, Function.update bucket (utf8Bytes request.path) none)
  else if request.method = "HEAD" then (.ok ⟨200, [], []⟩, bucket)
  else
    match bucket (utf8Bytes request.path) with
    | some body => (.ok ⟨200, [], body⟩, bucket)
    | none => (.ok ⟨404, [], []⟩, bucket)

/-- A bucket that checks what it is sent and does not fail. -/
def bucketClient (hash : List UInt8 → List UInt8) (secretOf : List UInt8 → Option (List UInt8)) :
    HttpClient (List UInt8 → Option (List UInt8)) where
  execute request bucket :=
    if authentic hash secretOf request.received then carriedOut request bucket else (.ok ⟨403, [], []⟩, bucket)

section

variable {hash : List UInt8 → List UInt8} {secretOf : List UInt8 → Option (List UInt8)} {request : HttpRequest}
  {bucket : List UInt8 → Option (List UInt8)} {response : HttpResponse}

theorem carriedOut_put (method : request.method = "PUT") :
    carriedOut request bucket =
      (.ok ⟨200, [], []⟩, Function.update bucket (utf8Bytes request.path) (some request.body)) := if_pos method

theorem carriedOut_delete (method : request.method = "DELETE") :
    carriedOut request bucket = (.ok ⟨204, [], []⟩, Function.update bucket (utf8Bytes request.path) none) := by
  unfold carriedOut
  rw [if_neg (by rw [method]; decide), if_pos method]

theorem carriedOut_head (method : request.method = "HEAD") :
    carriedOut request bucket = (.ok ⟨200, [], []⟩, bucket) := by
  unfold carriedOut
  rw [if_neg (by rw [method]; decide), if_neg (by rw [method]; decide), if_pos method]

/-- An object there is sent, and 404 tells that there is none. -/
theorem carriedOut_get (bucket : List UInt8 → Option (List UInt8)) (method : request.method = "GET") :
    (∃ body, bucket (utf8Bytes request.path) = some body ∧
      carriedOut request bucket = (.ok ⟨200, [], body⟩, bucket)) ∨
    bucket (utf8Bytes request.path) = none ∧ carriedOut request bucket = (.ok ⟨404, [], []⟩, bucket) := by
  unfold carriedOut
  rw [if_neg (by rw [method]; decide), if_neg (by rw [method]; decide), if_neg (by rw [method]; decide)]
  cases there : bucket (utf8Bytes request.path) with
  | none => exact Or.inr ⟨rfl, rfl⟩
  | some body => exact Or.inl ⟨body, rfl, rfl⟩

theorem bucketClient_trusted (trusted : authentic hash secretOf request.received = true) :
    (bucketClient hash secretOf).execute request bucket = carriedOut request bucket := if_pos trusted

theorem bucketClient_refused (refused : ¬ authentic hash secretOf request.received = true) :
    (bucketClient hash secretOf).execute request bucket = (.ok ⟨403, [], []⟩, bucket) := if_neg refused

/-- What is not refused is carried out. -/
theorem bucketClient_done (answered : ((bucketClient hash secretOf).execute request bucket).1 = .ok response)
    (other : response.status ≠ 403) :
    (bucketClient hash secretOf).execute request bucket = carriedOut request bucket := by
  by_cases trusted : authentic hash secretOf request.received = true
  · exact bucketClient_trusted trusted
  · rw [bucketClient_refused trusted] at answered
    cases answered
    exact absurd rfl other

/-- **The bucket does what the service documents.** -/
theorem bucketClient_serves (hash : List UInt8 → List UInt8) (secretOf : List UInt8 → Option (List UInt8)) :
    (bucketClient hash secretOf).Serves hash secretOf id where
  found request bucket response method answered status := by
    rw [bucketClient_done answered (by rw [status]; decide)] at answered
    rcases carriedOut_get bucket method with ⟨body, there, read⟩ | ⟨_, read⟩
    · rw [read] at answered
      cases answered
      exact there
    · rw [read] at answered
      cases answered
      cases status
  missing request bucket response method answered status := by
    rw [bucketClient_done answered (by rw [status]; decide)] at answered
    rcases carriedOut_get bucket method with ⟨body, _, read⟩ | ⟨there, _⟩
    · rw [read] at answered
      cases answered
      cases status
    · exact there
  answered request bucket response answered trusted _ := by
    rw [bucketClient_trusted trusted] at answered
    refine ⟨fun method => ?_, fun method => ?_, fun method => ?_⟩
    · rcases carriedOut_get bucket method with ⟨body, _, read⟩ | ⟨_, read⟩
      · rw [read] at answered
        cases answered
        exact Or.inl rfl
      · rw [read] at answered
        cases answered
        exact Or.inr rfl
    · rcases method with method | method
      · rw [carriedOut_put method] at answered
        cases answered
        rfl
      · rw [carriedOut_head method] at answered
        cases answered
        rfl
    · rw [carriedOut_delete method] at answered
      cases answered
      rfl
  reads request bucket method := by
    by_cases trusted : authentic hash secretOf request.received = true
    · rw [bucketClient_trusted trusted]
      rcases method with method | method
      · rcases carriedOut_get bucket method with ⟨body, _, read⟩ | ⟨_, read⟩ <;> rw [read]
      · rw [carriedOut_head method]
    · rw [bucketClient_refused trusted]
  put request bucket method := by
    by_cases trusted : authentic hash secretOf request.received = true
    · rw [bucketClient_trusted trusted, carriedOut_put method]
      exact Or.inr rfl
    · rw [bucketClient_refused trusted]
      exact Or.inl rfl
  putDone request bucket response method answered status := by
    rw [bucketClient_done answered (by rcases status with same | same | same <;> rw [same] <;> decide),
      carriedOut_put method]
    rfl
  delete request bucket method := by
    by_cases trusted : authentic hash secretOf request.received = true
    · rw [bucketClient_trusted trusted, carriedOut_delete method]
      exact Or.inr rfl
    · rw [bucketClient_refused trusted]
      exact Or.inl rfl
  deleteDone request bucket response method answered status := by
    rw [bucketClient_done answered (by rcases status with same | same | same <;> rw [same] <;> decide),
      carriedOut_delete method]
    rfl

end

/-! ### A tier on it -/

namespace S3KvTier

/-- The secret of one credential. -/
def oneSecret (name : List UInt8) : Option (List UInt8) :=
  if name = utf8Bytes "id" then some (utf8Bytes "key") else none

def emptyBucket (_ : List UInt8) : Option (List UInt8) := none

/-- A tier on a bucket `b`, at the start of the epoch. -/
def bucketTier : S3KvTier (List UInt8 → Option (List UInt8)) where
  name := "s3"
  endpoint := ⟨"http", "host", ""⟩
  config := ⟨"http://host", "r", "b", "", 100⟩
  credentials := ⟨"id", "key", none⟩
  client := bucketClient (hashOf zeroDigest) oneSecret
  clock := ⟨fun bucket => (.ok ("19700101", "19700101T000000Z"), bucket)⟩

example : withClock "s3" ⟨"http://host", "r", "b", "", 100⟩ ⟨"id", "key", none⟩ bucketTier.client
    bucketTier.clock = .ok bucketTier := by rfl

/-- An entry of one byte. -/
def bucketEntry : KvTierEntry := ⟨KvBlock.sample 7, 9, true⟩

theorem bucketTier_plain : bucketTier.Plain where
  authority := by
    have solid : "host".toList.all (fun char => !isWhitespace char) = true := by decide
    intro char among
    exact Bool.not_eq_true' _ |>.mp (List.all_eq_true.mp solid char among)
  token := by
    intro token among
    cases among
  accessKey := plainText_of_all (by decide)
  region := plainText_of_all (by decide)
  basePath := by
    intro char among
    cases among

theorem bucketTier_on : OnBucket zeroDigest bucketTier oneSecret id where
  plain := bucketTier_plain
  known := if_pos rfl
  serves := bucketClient_serves _ _
  stamped := by
    have made : awsTimestamp 0 = .ok ("19700101", "19700101T000000Z") := by decide
    rintro bucket _ ⟨⟩
    exact awsTimestamp_stamped made
  clock _ := rfl

theorem bucketTier_request (method : String) (key : KvBlockKey) (body : List UInt8)
    (bucket : List UInt8 → Option (List UInt8)) :
    bucketTier.request zeroDigest method (bucketTier.objectPath zeroDigest key) body bucket =
      carriedOut (bucketTier.signedRequest zeroDigest ("19700101", "19700101T000000Z") method
        (bucketTier.objectPath zeroDigest key) body) bucket :=
  bucketClient_trusted (request_authentic zeroDigest bucketTier_plain (bucketTier_on.stamped bucket _ rfl)
    bucketTier_on.known (objectPath_canonical zeroDigest bucketTier_plain key) method body)

/-- The entry is stored. -/
theorem bucketTier_put (bucket : List UInt8 → Option (List UInt8)) :
    bucketTier.put zeroDigest bucketEntry bucket = (.ok (), Function.update bucket
      (bucketTier.place zeroDigest KvBlockKey.sample) (some (envelope bucketEntry))) := by
  have encoded : Connectors.encodeEntry bucketEntry = .ok (envelope bucketEntry) :=
    Connectors.encodeEntry_ok.mpr (encodeTierEntry_ok.mpr ⟨List.cons_ne_nil _ _, rfl⟩)
  have fits : ¬ (envelope bucketEntry).length > bucketTier.config.maxValueBytes := by decide
  unfold put
  rw [encoded]
  dsimp only
  rw [if_neg fits, bucketTier_request, carriedOut_put rfl, andThen_ok, if_pos (Or.inl rfl)]
  rfl

section

variable {σ : Type} {digest : Digest} {tier : S3KvTier σ} {secretOf : List UInt8 → Option (List UInt8)}
  {objects : σ → List UInt8 → Option (List UInt8)} {keys : Set KvBlockKey} {state : σ}
  {log : List (Attempt KvBlockKey KvTierEntry)}

end

end S3KvTier

end RivetCache
