/-
**`mp.rs`: the multiprocess cache service.**

`MpCacheService` names the jobs of a pipeline by session: it checks a request, submits its job, and
registers the request under its session and under its identifier. Stores that have completed are published
in a `PrefixIndex`, when somebody asks for them.

What the clients share is two maps, the index and the pipeline; every access to one of them is one step,
as in the pipeline itself. A call stands before its next step (`MpCall`), and `MpCacheService.step` takes
one step of one call, or of one thread of the pipeline. A call that submits a job waits for its
submission among the submissions of the pipeline.

`transfer_mode` and `engine_kind`, which no function reads, are left out.
-/

import RivetCache.Kv.Prefix
import RivetCache.Library.Run
import RivetCache.Runtime.Model

set_option linter.unusedSectionVars false

namespace RivetCache

open Library

/-! ### Requests -/

/-- `MpCacheConfig`. -/
structure MpCacheConfig where
  blockTokens : Nat
  layerStart : UInt32
  layerCount : UInt32
  layoutVersion : UInt32
  l1Tier : Nat

/-- `MpCacheConfig::validate`. -/
def MpCacheConfig.validate (config : MpCacheConfig) : Except IoError MpCacheConfig :=
  if config.blockTokens = 0 ∨ config.layerCount = 0 then
    .error ⟨.invalidInput, "MP cache requires non-zero block_tokens and layer_count"⟩
  else .ok config

/-- `MpRequestKind`. -/
inductive MpRequestKind where
  | lookup
  | store
  | retrieve
  | pin
  | unpin
  | delete
  | clear
  | health
  deriving DecidableEq, Repr

/-- `MpRequestStatus`. -/
structure MpRequestStatus where
  requestId : Nat
  kind : MpRequestKind
  state : AsyncKvJobState
  foundChunks : Nat
  totalChunks : Nat
  missedChunks : Nat
  bytes : Nat
  error : Option String
  deriving DecidableEq

/-- `RequestRecord`. -/
structure RequestRecord where
  session : String
  kind : MpRequestKind
  jobId : Nat
  total : Nat
  keys : List KvBlockKey
  model : String
  tokens : List UInt32
  prefixIndexed : Bool
  deriving DecidableEq

/-- `MpRequestTicket`. -/
structure MpRequestTicket where
  requestId : Nat
  kind : MpRequestKind
  totalChunks : Nat
  deriving DecidableEq

/-- `register`, the ticket of a record. -/
def RequestRecord.ticket (record : RequestRecord) : MpRequestTicket :=
  ⟨record.jobId, record.kind, record.total⟩

/-- A request that was checked: the job to submit, and the record but for the identifier of the job. -/
structure RequestDraft where
  operation : AsyncKvOperation
  payload : AsyncKvPayload
  session : String
  kind : MpRequestKind
  total : Nat
  keys : List KvBlockKey
  model : String
  tokens : List UInt32
  prefixIndexed : Bool

/-- The record of a request whose job was accepted. -/
def RequestDraft.record (draft : RequestDraft) (jobId : Nat) : RequestRecord :=
  ⟨draft.session, draft.kind, jobId, draft.total, draft.keys, draft.model, draft.tokens,
    draft.prefixIndexed⟩

/-- `status`. -/
def mpStatus (record : RequestRecord) (snapshot : AsyncKvJobSnapshot) : MpRequestStatus where
  requestId := record.jobId
  kind := record.kind
  state := snapshot.state
  foundChunks := (snapshot.result.map AsyncKvResult.completed).getD 0
  totalChunks := (snapshot.result.map AsyncKvResult.requested).getD record.total
  missedChunks := (snapshot.result.map AsyncKvResult.missed).getD 0
  bytes := (snapshot.result.map AsyncKvResult.bytes).getD 0
  error := snapshot.error.map AsyncKvError.message

/-- `validate_id`. A byte of the alphabet is a character of it. -/
def validateId (value kind : String) : Except IoError String :=
  if value.isEmpty || decide (value.utf8ByteSize > 256) ||
      !value.toList.all fun c => c.isAlphanum || c == '-' || c == '_' || c == '.' || c == ':' then
    .error ⟨.invalidInput, s!"invalid MP {kind} id"⟩
  else .ok value

/-- `validate_model`. A zero byte is a zero character. -/
def validateModel (value : String) : Except IoError String :=
  if value.isEmpty || decide (value.utf8ByteSize > 4096) || value.toList.contains (Char.ofNat 0) then
    .error ⟨.invalidInput, "invalid model fingerprint"⟩
  else .ok value

/-- The `submit_*` methods, with what they are called with. -/
inductive MpRequest where
  | lookup (session model : String) (tokens : List UInt32)
  | store (session model : String) (tokens : List UInt32) (blocks : List KvBlock)
      (ttl : Option Duration) (pinned : Bool)
  | retrieve (session model : String) (tokens : List UInt32)
  | retrieveLookup (session : String) (lookupRequestId : Nat)
  | pin (session model : String) (tokens : List UInt32) (pinned : Bool)
  | delete (session model : String) (tokens : List UInt32)
  | clear (session : String)
  | health (session : String)

/-! ### The service -/

/-- A call of the service, before its next step. Calls that submit a job keep the number of their
submission. -/
inductive MpCall where
  /-- `submit_*`: in `AsyncKvPipeline::submit` -/
  | submitting (draft : RequestDraft) (submission : Nat)
  /-- `register`: `sessions.entry(..).or_default().insert` -/
  | listing (record : RequestRecord) (submission : Nat)
  /-- `register`: `requests.insert` -/
  | filing (record : RequestRecord) (submission : Nat)
  /-- `submit_*` returned the ticket of the record -/
  | registered (record : RequestRecord) (submission : Nat)
  /-- `submit_*` returned an error -/
  | refused (error : IoError)
  /-- `query`: `pipeline.snapshot` -/
  | looking (id : Nat)
  /-- `wait`: `pipeline.wait` -/
  | polling (id : Nat)
  /-- `query` and `wait`: `record` -/
  | fetching (waits : Bool) (id : Nat) (snapshot : AsyncKvJobSnapshot)
  /-- `finalize_prefix`: `prefix.register` -/
  | publishing (waits : Bool) (id : Nat) (record : RequestRecord) (snapshot : AsyncKvJobSnapshot)
  /-- `finalize_prefix`: `requests.get_mut` -/
  | marking (waits : Bool) (id : Nat) (record : RequestRecord) (snapshot : AsyncKvJobSnapshot)
  /-- `query` returned -/
  | queried (id : Nat) (answer : Except IoError (Option MpRequestStatus))
  /-- `wait` returned -/
  | waited (id : Nat) (answer : Except IoError MpRequestStatus)
  /-- `wait` returned, its deadline out of the range of the clock -/
  | overflowed (id : Nat) (error : IoError)
  /-- `retrieve_result`: `pipeline.snapshot` -/
  | retrieving (id : Nat)
  /-- `retrieve_result` returned -/
  | retrieved (id : Nat) (answer : Except IoError (Option (List KvBlock)))
  /-- `end_session`: `sessions.remove` -/
  | ending (session : String)
  /-- `end_session`: `requests.remove`, for each identifier taken -/
  | dropping (session : String) (ids : Finset Nat)
  /-- `end_session` returned how many requests it removed -/
  | ended (session : String) (ids : Finset Nat) (count : Nat)

/-- The maps, the index, the pipeline, and where each call stands. A session without requests is the
same as none. -/
structure MpState (τ : Nat → Type) where
  pipeline : PipelineState τ
  requests : Nat → Option RequestRecord
  sessions : String → Finset Nat
  index : PrefixIndex
  calls : List MpCall

/-- `MpCacheService`. -/
structure MpCacheService (τ : Nat → Type) where
  engine : KvEngine τ
  pipeline : AsyncKvPipeline τ
  digest : Digest
  config : MpCacheConfig
  someTokens : config.blockTokens ≠ 0
  someLayers : config.layerCount ≠ 0
  inside : config.l1Tier < engine.count

variable {τ : Nat → Type}

namespace MpState

/-- A call goes on to its next step. -/
def moveCall (s : MpState τ) (index : Nat) (next : MpCall) : MpState τ :=
  { s with calls := s.calls.set index next }

/-- A call begins. -/
def beginCall (s : MpState τ) (call : MpCall) : MpState τ := { s with calls := s.calls ++ [call] }

/-- `register`, the session. -/
def listRequest (s : MpState τ) (session : String) (id : Nat) : MpState τ :=
  let listed := insert id (s.sessions session)
  { s with sessions := Function.update s.sessions session listed }

/-- `register`, the request. -/
def fileRequest (s : MpState τ) (record : RequestRecord) : MpState τ :=
  { s with requests := Function.update s.requests record.jobId (some record) }

/-- `end_session`, the session. -/
def closeSession (s : MpState τ) (session : String) : MpState τ :=
  { s with sessions := Function.update s.sessions session ∅ }

/-- `record`. -/
def record (s : MpState τ) (id : Nat) : Option RequestRecord := s.requests id

/-- `end_session`, the requests: those taken are removed. -/
def dropRequests (s : MpState τ) (ids : Finset Nat) : MpState τ :=
  { s with requests := fun id => if id ∈ ids then none else s.requests id }

/-- `end_session`, the count: the requests taken that were there. -/
def countRequests (s : MpState τ) (ids : Finset Nat) : Nat :=
  (ids.filter fun id => (s.requests id).isSome).card

end MpState

namespace MpCacheService

open MpState

/-- `MpCacheService::new`. -/
def new (engine : KvEngine τ) (pipeline : AsyncKvPipeline τ) (digest : Digest)
    (config : MpCacheConfig) : Except IoError (MpCacheService τ) :=
  if zero : config.blockTokens = 0 ∨ config.layerCount = 0 then
    .error ⟨.invalidInput, "MP cache requires non-zero block_tokens and layer_count"⟩
  else if outside : config.l1Tier ≥ engine.count then
    .error ⟨.invalidInput, "MP L1 tier index is outside the configured KV engine"⟩
  else .ok ⟨engine, pipeline, digest, config, fun none => zero (Or.inl none),
    fun none => zero (Or.inr none), Nat.lt_of_not_ge outside⟩

variable (service : MpCacheService τ)

/-- A new service, on an index of its own. -/
def initial (tiers : KvState τ) : MpState τ where
  pipeline := service.pipeline.initial tiers
  requests _ := none
  sessions _ := ∅
  index := []
  calls := []

/-- `keys_for`. -/
def keysFor (model : String) (tokens : List UInt32) : Except IoError (List KvBlockKey) :=
  KvCaptureRequest.blockKeys service.digest
    ⟨model, tokens, service.config.blockTokens, service.config.layerStart,
      service.config.layerCount, service.config.layoutVersion⟩

/-! ### Submitting -/

/-- `invalid`. -/
def invalid {α : Type} (message : String) : Except IoError α := .error ⟨.invalidInput, message⟩

/-- `submit_lookup`, the keys it looks for: those of the longest stored prefix, if there is one. -/
def lookupKeys (index : PrefixIndex) (model : String) (tokens : List UInt32) :
    Except IoError (List KvBlockKey) :=
  match index.longestPrefix model tokens with
  | some found =>
      if found.blockKeys.isEmpty then service.keysFor model tokens else .ok found.blockKeys
  | none => service.keysFor model tokens

/-- `submit_lookup`, up to its job. -/
def submitLookup (index : PrefixIndex) (session model : String) (tokens : List UInt32) :
    Except IoError RequestDraft := do
  let session ← validateId session "session"
  let model ← validateModel model
  if tokens.isEmpty then invalid "MP lookup requires at least one token"
  let keys ← service.lookupKeys index model tokens
  let (operation, payload) ← AsyncKvPipeline.submitPrefetch keys service.config.l1Tier
  pure ⟨operation, payload, session, .lookup, keys.length, keys, model, tokens, true⟩

/-- `submit_store`, the blocks are those of the keys. -/
def blocksMatch (blocks : List KvBlock) (keys : List KvBlockKey) : Bool :=
  !(decide (blocks.length ≠ keys.length) ||
    (blocks.zip keys).any fun pair => pair.1.key != pair.2)

/-- `submit_store`, up to its job. -/
def submitStore (session model : String) (tokens : List UInt32) (blocks : List KvBlock)
    (ttl : Option Duration) (pinned : Bool) : Except IoError RequestDraft := do
  let session ← validateId session "session"
  let model ← validateModel model
  if tokens.isEmpty || blocks.isEmpty then invalid "MP store requires tokens and KV blocks"
  let keys ← service.keysFor model tokens
  if !blocksMatch blocks keys then
    .error ⟨.invalidData, "MP store blocks do not match configured token/chunk identity"⟩
  let (operation, payload) ← AsyncKvPipeline.submitStore blocks ttl pinned
  pure ⟨operation, payload, session, .store, keys.length, keys, model, tokens, false⟩

/-- `submit_retrieve`, up to its job. -/
def submitRetrieve (session model : String) (tokens : List UInt32) :
    Except IoError RequestDraft := do
  let session ← validateId session "session"
  let model ← validateModel model
  let keys ← service.keysFor model tokens
  if keys.isEmpty then invalid "MP retrieve requires at least one token"
  let (operation, payload) ← AsyncKvPipeline.submitRetrieve keys
  pure ⟨operation, payload, session, .retrieve, keys.length, keys, model, tokens, true⟩

/-- `submit_retrieve_lookup`, up to its job. -/
def submitRetrieveLookup (requests : Nat → Option RequestRecord) (session : String)
    (lookupRequestId : Nat) : Except IoError RequestDraft := do
  let session ← validateId session "session"
  match requests lookupRequestId with
  | none => .error ⟨.notFound, s!"unknown MP lookup request {lookupRequestId}"⟩
  | some lookup =>
      if lookup.kind ≠ .lookup then invalid "retrieve_lookup requires a lookup request id"
      let (operation, payload) ← AsyncKvPipeline.submitRetrieve lookup.keys
      pure ⟨operation, payload, session, .retrieve, lookup.total, lookup.keys, lookup.model,
        lookup.tokens, true⟩

/-- `submit_pin`, up to its job. -/
def submitPin (session model : String) (tokens : List UInt32) (pinned : Bool) :
    Except IoError RequestDraft := do
  let session ← validateId session "session"
  let model ← validateModel model
  let keys ← service.keysFor model tokens
  if keys.isEmpty then invalid "MP pin operation requires at least one token"
  let (operation, payload) ← AsyncKvPipeline.submitSetPinned keys pinned
  pure ⟨operation, payload, session, if pinned then .pin else .unpin, keys.length, keys, model,
    tokens, true⟩

/-- `submit_delete`, up to its job. -/
def submitDelete (session model : String) (tokens : List UInt32) : Except IoError RequestDraft := do
  let session ← validateId session "session"
  let model ← validateModel model
  let keys ← service.keysFor model tokens
  if keys.isEmpty then invalid "MP delete requires at least one token"
  let (operation, payload) ← AsyncKvPipeline.submitInvalidate keys
  pure ⟨operation, payload, session, .delete, keys.length, keys, model, tokens, true⟩

/-- `submit_clear`, up to its job. -/
def submitClear (session : String) : Except IoError RequestDraft := do
  let session ← validateId session "session"
  let (operation, payload) := AsyncKvPipeline.submitClear
  pure ⟨operation, payload, session, .clear, 1, [], "", [], true⟩

/-- `submit_health`, up to its job. -/
def submitHealth (session : String) : Except IoError RequestDraft := do
  let session ← validateId session "session"
  let (operation, payload) := AsyncKvPipeline.submitHealth
  pure ⟨operation, payload, session, .health, 1, [], "", [], true⟩

/-- A `submit_*` method, up to its job. It reads the index or the requests once at most. -/
def prepare (s : MpState τ) : MpRequest → Except IoError RequestDraft
  | .lookup session model tokens => service.submitLookup s.index session model tokens
  | .store session model tokens blocks ttl pinned =>
      service.submitStore session model tokens blocks ttl pinned
  | .retrieve session model tokens => service.submitRetrieve session model tokens
  | .retrieveLookup session lookupRequestId =>
      submitRetrieveLookup s.requests session lookupRequestId
  | .pin session model tokens pinned => service.submitPin session model tokens pinned
  | .delete session model tokens => service.submitDelete session model tokens
  | .clear session => submitClear session
  | .health session => submitHealth session

/-! ### The steps of the calls -/

/-- `query` or `wait` returns a status. -/
def answered (waits : Bool) (id : Nat) (status : MpRequestStatus) : MpCall :=
  if waits then .waited id (.ok status) else .queried id (.ok (some status))

/-- `query` or `wait` returns an error. -/
def failedWith (waits : Bool) (id : Nat) (error : IoError) : MpCall :=
  if waits then .waited id (.error error) else .queried id (.error error)

/-- The test of `finalize_prefix`. -/
def publishes (record : RequestRecord) (snapshot : AsyncKvJobSnapshot) : Bool :=
  !(decide (record.kind ≠ .store) || record.prefixIndexed || decide (snapshot.state ≠ .completed))

/-- `finalize_prefix`, the mark on the request. -/
def markIndexed (s : MpState τ) (id : Nat) : MpState τ :=
  match s.requests id with
  | some current =>
      let marked := { current with prefixIndexed := true }
      { s with requests := Function.update s.requests id (some marked) }
  | none => s

/-- The next step of a call; `late` tells whether the deadline of a `wait` has passed. -/
def callStep (s : MpState τ) (index : Nat) (late : Bool) : MpCall → MpState τ
  | .submitting draft submission =>
      match s.pipeline.submissions[submission]? with
      | some (.accepted job) => s.moveCall index (.listing (draft.record job.id) submission)
      | some (.rejected _ error) => s.moveCall index (.refused error)
      | _ => s
  | .listing record submission =>
      (s.listRequest record.session record.jobId).moveCall index (.filing record submission)
  | .filing record submission =>
      (s.fileRequest record).moveCall index (.registered record submission)
  | .looking id =>
      match s.pipeline.snapshot id with
      | some snapshot => s.moveCall index (.fetching false id snapshot)
      | none => s.moveCall index (.queried id (.ok none))
  | .polling id =>
      match s.pipeline.waitRound id late with
      | some (.ok snapshot) => s.moveCall index (.fetching true id snapshot)
      | some (.error error) => s.moveCall index (.waited id (.error error))
      | none => s
  | .fetching waits id snapshot =>
      match s.record id with
      | some record =>
          s.moveCall index (if publishes record snapshot then .publishing waits id record snapshot
            else answered waits id (mpStatus record snapshot))
      | none =>
          s.moveCall index (if waits then
              .waited id (.error ⟨.notFound, s!"unknown MP request {id}"⟩)
            else .queried id (.ok none))
  | .publishing waits id record snapshot =>
      match s.index.register record.model record.tokens record.keys with
      | .ok index' => { s with index := index' }.moveCall index (.marking waits id record snapshot)
      | .error error => s.moveCall index (failedWith waits id error)
  | .marking waits id record snapshot =>
      (markIndexed s record.jobId).moveCall index (answered waits id (mpStatus record snapshot))
  | .retrieving id =>
      s.moveCall index (.retrieved id
        (match s.pipeline.snapshot id with
        | none => .ok none
        | some snapshot =>
            if snapshot.operation ≠ .retrieve then invalid "request is not a retrieve operation"
            else .ok (snapshot.result.map AsyncKvResult.blocks)))
  | .ending session =>
      (s.closeSession session).moveCall index (.dropping session (s.sessions session))
  | .dropping session ids =>
      (s.dropRequests ids).moveCall index (.ended session ids (s.countRequests ids))
  | _ => s

/-- The steps of the clients, and of the threads of the pipeline. -/
inductive Label (τ : Nat → Type) where
  /-- a step of the pipeline: its workers, and those who use it by themselves -/
  | pipeline (label : AsyncKvPipeline.Label τ)
  /-- a client calls a `submit_*` method -/
  | submit (request : MpRequest)
  /-- a client calls `query` -/
  | query (id : Nat)
  /-- a client calls `wait`; `fits` tells whether the clock can tell the deadline -/
  | wait (id : Nat) (fits : Bool)
  /-- a client calls `retrieve_result` -/
  | retrieveResult (id : Nat)
  /-- a client calls `end_session` -/
  | endSession (session : String)
  /-- the next step of a call -/
  | resume (index : Nat) (late : Bool)

/-- One step. -/
def step : Label τ → MpState τ → MpState τ
  | .pipeline label, s => { s with pipeline := service.pipeline.step label s.pipeline }
  | .submit request, s =>
      match service.prepare s request with
      | .error error => s.beginCall (.refused error)
      | .ok draft =>
          let begun := service.pipeline.step (.submit draft.operation draft.payload) s.pipeline
          { s with pipeline := begun }.beginCall
            (.submitting draft s.pipeline.submissions.length)
  | .query id, s => s.beginCall (.looking id)
  | .wait id fits, s =>
      s.beginCall (if fits then .polling id
        else .overflowed id ⟨.timedOut, "async job timeout overflow"⟩)
  | .retrieveResult id, s => s.beginCall (.retrieving id)
  | .endSession session, s => s.beginCall (.ending session)
  | .resume index late, s =>
      match s.calls[index]? with
      | some call => callStep s index late call
      | none => s

end MpCacheService

end RivetCache
