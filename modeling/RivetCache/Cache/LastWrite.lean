/-
**Which write a read returns.**

The memory tier is overwritten by every `put` that fits it; the persistent tier is put-if-absent, so
an older copy stays there until it expires, is evicted or is removed. A `put` *supersedes* the older
writes of its key when it finds nothing live of the key in the index, and either fits memory or finds
nothing live there.

A `Traced` state carries the log of the writes and deletions that succeeded (`Library.WriteLog`), each
write with whether it superseded.

* `trace_faithful`: every copy that may be served has expired, or is visible in the log;
* `last_write`: what `get` and `get_many` answer is the value of a write that no later deletion or
  superseding write hides; when every write of the key superseded, it is the latest;
* `stale_read`: a write that does not supersede leaves the older value to be read.
-/

import RivetCache.Cache.Coherence
import RivetCache.Library.WriteLog

set_option linter.unusedSectionVars false

namespace RivetCache

open Library

variable {σ : Type}

/-- The writes and deletions of a run, newest first. -/
abbrev CacheLog := List (LogEntry String (List UInt8))

/-- A state, the log of what led to it, and the last reading of the clock. -/
structure Traced (σ : Type) where
  state : CacheState σ
  log : CacheLog
  clock : Nat

/-- A call, or a batch: each item of a batch reads the clock by itself. -/
inductive Request where
  | call (call : Call)
  | putMany (items : List (Ambient × ContextCache.PutRequest))
  | getMany (lookups : List (Ambient × String))

namespace ContextCache

/-! ### The log of a call -/

/-- Memory has nothing live of the key. -/
def memoryCold (key : String) (now : Nat) (s : CacheState σ) : Bool :=
  match s.memory.lookup key with
  | none => true
  | some record => isExpired record.expiresAt now

/-- The index has nothing live of the key. -/
def indexCold (key : String) (now : Nat) (s : CacheState σ) : Bool :=
  match s.disk.lookup key with
  | none => true
  | some record => isExpired record.expiresAt now

/-- A `put` that leaves no older value of its key to be served. -/
def supersedes (cache : ContextCache σ) (now : Nat) (key : String) (value : List UInt8)
    (s : CacheState σ) : Bool :=
  (cache.fitsMemory value || memoryCold key now s) && indexCold key now s

/-- What a call adds to the log: a write of a value, or a deletion, where it succeeds. -/
def logged (cache : ContextCache σ) (call : Call) (s : CacheState σ) : CacheLog :=
  match call with
  | .put amb key value ttl pinned =>
      match (cache.put amb key value ttl pinned s).1 with
      | .error _ => []
      | .ok () =>
          if value.isEmpty then [] else [.write key value (cache.supersedes amb.now key value s)]
  | .get _ _ => []
  | .invalidate amb key =>
      match (cache.invalidate amb key s).1 with
      | .error _ => []
      | .ok () => [.erase key]
  | .clear amb =>
      match (cache.clear amb s).1 with
      | .error _ => []
      | .ok () => [.eraseAll]

/-- One call, traced. -/
def trace (cache : ContextCache σ) (t : Traced σ) (call : Call) : Traced σ where
  state := cache.step call t.state
  log := cache.logged call t.state ++ t.log
  clock := call.ambient.now

/-- The calls a request performs: a batch of writes is validated first, a batch of reads stops at
the first rejected key. -/
def performed (cache : ContextCache σ) : Request → List Call
  | .call call => [call]
  | .putMany items =>
      match cache.validateAll (items.map fun item => item.2.key) with
      | .error _ => []
      | .ok () =>
          items.map fun item => .put item.1 item.2.key item.2.value item.2.ttl item.2.pinned
  | .getMany lookups =>
      (lookups.takeWhile fun lookup => decide (cache.keyStrategy.Accepts lookup.2)).map
        fun lookup => .get lookup.1 lookup.2

/-- The state a request leaves. -/
def perform (cache : ContextCache σ) (request : Request) (s : CacheState σ) : CacheState σ :=
  match request with
  | .call call => cache.step call s
  | .putMany items => (cache.putMany items s).2
  | .getMany lookups => (cache.getMany lookups s).2

/-- One request, traced: its state is the source's, its log that of the calls it performs. -/
def traceRequest (cache : ContextCache σ) (request : Request) (t : Traced σ) : Traced σ :=
  { (cache.performed request).foldl cache.trace t with
    state := cache.perform request t.state }

/-- No store call fails, and the clock never goes back. -/
structure Steady (calls : List Call) (t : Traced σ) : Prop where
  faultless : ∀ call ∈ calls, call.ambient.Faultless
  ordered : (t.clock :: calls.map fun call => call.ambient.now).Pairwise (· ≤ ·)

variable {cache : ContextCache σ} {contents : σ → String → Option StoredEntry}
  {domain : String → Prop} {amb : Ambient} {s : CacheState σ} {key : String} {t : Traced σ}

theorem memoryCold_iff {now : Nat} :
    memoryCold key now s = true ↔ (cache.slot contents s key).Cold now := by
  have memory : (cache.slot contents s key).memory =
      (s.memory.lookup key).map MemoryRecord.entry := rfl
  unfold memoryCold Slot.Cold
  rw [memory]
  cases s.memory.lookup key with
  | none => simp
  | some record =>
      simp only [Option.map_some, Option.some.injEq, forall_eq']
      rfl

theorem indexCold_iff {now : Nat} :
    indexCold key now s = true ↔ (cache.slot contents s key).Unlisted now := by
  have index : (cache.slot contents s key).index = (s.disk.lookup key).map StoreRecord.label := rfl
  unfold indexCold Slot.Unlisted
  rw [index]
  cases s.disk.lookup key with
  | none => simp
  | some record =>
      simp only [Option.map_some, Option.some.injEq, forall_eq']
      rfl

/-! ### Every copy is accounted for -/

/-- **The invariant**: index and store agree, and every copy that may be served has expired or is
visible in the log. -/
structure Faithful (cache : ContextCache σ) (contents : σ → String → Option StoredEntry)
    (t : Traced σ) : Prop where
  coherent : cache.AllCoherent contents t.state
  accounted : ∀ key copy, (cache.slot contents t.state key).Serves copy →
    isExpired copy.expiresAt t.clock = true ∨ Visible key copy.value t.log

/-- A call does not hide the keys it is not about. -/
theorem logged_shows {call : Call} (unconcerned : ¬ Concerns key call) :
    ∀ entry ∈ cache.logged call s, ¬ entry.Hides key := by
  intro entry inside hides
  cases call with
  | put amb own value ttl pinned =>
      simp only [logged] at inside
      split at inside
      · cases inside
      · split at inside
        · cases inside
        · rw [List.mem_singleton] at inside
          subst inside
          exact unconcerned hides.1
  | get amb own => cases inside
  | invalidate amb own =>
      simp only [logged] at inside
      split at inside
      · cases inside
      · rw [List.mem_singleton] at inside
        subst inside
        exact unconcerned hides
  | clear amb => exact unconcerned trivial

/-- A call that does nothing logs nothing, where no store call fails. -/
theorem logged_idle {call : Call} (faultless : call.ambient.Faultless) (nothing : cache.Idle call) :
    cache.logged call s = [] := by
  cases call with
  | put amb own value ttl pinned =>
      rcases nothing with rejected | rfl
      · have failed : ∃ error, (cache.put amb own value ttl pinned s).1 = .error error := by
          unfold put
          split
          case h_1 error _ => exact ⟨error, rfl⟩
          case h_2 valid => exact (rejected valid).elim
        obtain ⟨error, done⟩ := failed
        simp only [logged, done]
      · simp only [logged]
        split <;> rfl
  | get amb own => rfl
  | invalidate amb own =>
      rcases nothing with rejected | ⟨error, raised⟩
      · obtain ⟨error, done⟩ := invalidate_idle amb s rejected
        simp only [logged, done]
      · have works : amb.fault .removeInvalidated = none := faultless _
        rw [works] at raised
        cases raised
  | clear amb =>
      obtain ⟨error, raised⟩ := nothing
      have works : amb.fault .clear = none := faultless _
      rw [works] at raised
      cases raised

/-- Where no store call fails, a `put` of an accepted key succeeds. -/
theorem put_ok (backed : cache.Backed contents domain) (faultless : amb.Faultless)
    (indexed : Indexed domain s) (accepted : cache.keyStrategy.Accepts key) (value : List UInt8)
    (ttl : Option Duration) (pinned : Bool) :
    (cache.put amb key value ttl pinned s).1 = .ok () := by
  by_cases nonempty : value = []
  · subst nonempty
    unfold put
    split
    case h_1 error rejected =>
      have valid : cache.keyStrategy.validate key = .ok () := accepted
      rw [valid] at rejected
      cases rejected
    case h_2 _ => rfl
  · obtain ⟨result, after, done, touches, _⟩ :=
      put_slot backed faultless.quiet indexed accepted nonempty ttl pinned
    rw [done]
    exact touches.own.succeeded (faultless .write)

/-- What a `put` of a value logs. -/
theorem logged_put (backed : cache.Backed contents domain) (faultless : amb.Faultless)
    (indexed : Indexed domain s) (accepted : cache.keyStrategy.Accepts key) {value : List UInt8}
    (nonempty : value ≠ []) (ttl : Option Duration) (pinned : Bool) :
    cache.logged (.put amb key value ttl pinned) s =
      [.write key value (cache.supersedes amb.now key value s)] := by
  have filled : value.isEmpty = false := by
    cases value with
    | nil => exact (nonempty rfl).elim
    | cons _ _ => rfl
  simp only [logged, put_ok backed faultless indexed accepted, filled, Bool.false_eq_true, if_false]

/-- **One call keeps every copy accounted for.** -/
theorem trace_faithful (backed : cache.Backed contents domain) (call : Call)
    (faultless : call.ambient.Faultless) (order : t.clock ≤ call.ambient.now)
    (faithful : cache.Faithful contents t) : cache.Faithful contents (cache.trace t call) := by
  have indexed := faithful.coherent.indexed backed
  refine ⟨step_coherent backed faultless.quiet faithful.coherent, fun key copy serves => ?_⟩
  -- an older copy stays accounted for while nothing hides its key
  have older : (cache.slot contents t.state key).Serves copy →
      (∀ entry ∈ cache.logged call t.state, ¬ entry.Hides key) →
      isExpired copy.expiresAt call.ambient.now = true ∨
        Visible key copy.value (cache.logged call t.state ++ t.log) := by
    intro before shows
    rcases faithful.accounted key copy before with expired | visible
    · exact Or.inl (isExpired_mono order expired)
    · exact Or.inr (visible.append shows)
  generalize effect : cache.slot contents (cache.step call t.state) key = after
  have step := step_slot backed faultless.quiet indexed key
  have here : after.Serves copy := effect ▸ serves
  rw [effect] at step
  show isExpired copy.expiresAt call.ambient.now = true ∨
    Visible key copy.value (cache.logged call t.state ++ t.log)
  cases step with
  | elsewhere _ unconcerned fades =>
      exact older (fades.serves here) (logged_shows unconcerned)
  | idle nothing =>
      refine older here fun entry inside => ?_
      rw [logged_idle faultless nothing] at inside
      cases inside
  | get amb result _ called accepted own =>
      subst called
      exact older (own.serves here) fun entry inside => by cases inside
  | emptied deleting => rcases here with held | ⟨held, _⟩ <;> cases held
  | put amb value ttl pinned result _ called accepted nonempty own =>
      subst called
      have works : amb.Faultless := faultless
      have succeeded := own.succeeded (works .write)
      subst succeeded
      rw [logged_put backed works indexed accepted nonempty ttl pinned]
      rcases own.serves here with rfl | ⟨before, hidden⟩
      · exact Or.inr (visible_write key value _ t.log)
      · cases flag : cache.supersedes amb.now key value t.state with
        | true =>
            unfold supersedes at flag
            simp only [Bool.and_eq_true, Bool.or_eq_true] at flag
            refine Or.inl (hidden ?_ (indexCold_iff.mp flag.2))
            exact flag.1.imp id memoryCold_iff.mp
        | false =>
            rcases faithful.accounted key copy before with expired | visible
            · exact Or.inl (isExpired_mono order expired)
            · refine Or.inr (visible.cons ?_)
              rintro ⟨_, replaces⟩
              cases replaces

/-! ### Requests -/

/-- A run of calls. -/
theorem traceAll_faithful (backed : cache.Backed contents domain) :
    ∀ (calls : List Call) (t : Traced σ), Steady calls t → cache.Faithful contents t →
      cache.Faithful contents (calls.foldl cache.trace t)
  | [], _, _, faithful => faithful
  | call :: rest, t, steady, faithful => by
      have ordered := steady.ordered
      rw [List.map_cons, List.pairwise_cons] at ordered
      have first := trace_faithful backed call (steady.faultless call List.mem_cons_self)
        (ordered.1 _ List.mem_cons_self) faithful
      exact traceAll_faithful backed rest _
        ⟨fun other inside => steady.faultless other (List.mem_cons_of_mem _ inside), ordered.2⟩ first

theorem Steady.tail {call : Call} {rest : List Call} (steady : Steady (call :: rest) t) :
    Steady rest (cache.trace t call) := by
  have ordered := steady.ordered
  rw [List.map_cons, List.pairwise_cons] at ordered
  exact ⟨fun other inside => steady.faultless other (List.mem_cons_of_mem _ inside), ordered.2⟩

/-- A batch that validates has accepted keys only. -/
theorem validateAll_ok : ∀ {keys : List String}, cache.validateAll keys = .ok () →
    ∀ key ∈ keys, cache.keyStrategy.Accepts key
  | [], _, _, inside => by cases inside
  | first :: rest, valid, key, inside => by
      unfold validateAll at valid
      split at valid
      case h_1 _ _ => cases valid
      case h_2 accepted =>
        rcases List.mem_cons.mp inside with rfl | inside
        · exact accepted
        · exact validateAll_ok valid key inside

/-- The second loop of `put_many` performs its writes. -/
theorem putEach_state (backed : cache.Backed contents domain) :
    ∀ (items : List (Ambient × PutRequest)) (t : Traced σ),
      (∀ item ∈ items, cache.keyStrategy.Accepts item.2.key) →
      Steady (items.map fun item =>
        Call.put item.1 item.2.key item.2.value item.2.ttl item.2.pinned) t →
      cache.Faithful contents t →
      (cache.putEach items t.state).2 = ((items.map fun item =>
        Call.put item.1 item.2.key item.2.value item.2.ttl item.2.pinned).foldl cache.trace t).state
  | [], _, _, _, _ => rfl
  | item :: rest, t, accepted, steady, faithful => by
      rw [List.map_cons] at steady
      have works : item.1.Faultless := steady.faultless _ List.mem_cons_self
      have ordered := steady.ordered
      rw [List.map_cons, List.pairwise_cons] at ordered
      have next := trace_faithful backed
        (.put item.1 item.2.key item.2.value item.2.ttl item.2.pinned) works
        (ordered.1 _ List.mem_cons_self) faithful
      have remaining := putEach_state backed rest _
        (fun other inside => accepted other (List.mem_cons_of_mem _ inside)) steady.tail next
      have done := put_ok backed works (faithful.coherent.indexed backed)
        (accepted item List.mem_cons_self) item.2.value item.2.ttl item.2.pinned
      rw [List.map_cons, List.foldl_cons, ← remaining]
      show (andThen (cache.put item.1 item.2.key item.2.value item.2.ttl item.2.pinned t.state)
        fun _ s => cache.putEach rest s).2 = _
      have split : cache.put item.1 item.2.key item.2.value item.2.ttl item.2.pinned t.state =
          (.ok (), (cache.put item.1 item.2.key item.2.value item.2.ttl item.2.pinned t.state).2) := by
        rw [← done]
      rw [split, andThen_ok]
      rfl

/-- Where no store call fails, a `get` of an accepted key answers. -/
theorem get_ok (backed : cache.Backed contents domain) (faultless : amb.Faultless)
    (accepted : cache.keyStrategy.Accepts key) (s : CacheState σ) :
    ∃ answer, (cache.get amb key s).1 = .ok answer := by
  obtain ⟨result, after, done, touches, _⟩ := get_slot backed faultless.quiet accepted s
  rw [done]
  exact touches.own.succeeded faultless

/-- `get_many` performs its lookups up to the first rejected key. -/
theorem getMany_state (backed : cache.Backed contents domain) :
    ∀ (lookups : List (Ambient × String)) (t : Traced σ),
      Steady ((lookups.takeWhile fun lookup =>
        decide (cache.keyStrategy.Accepts lookup.2)).map fun lookup =>
          Call.get lookup.1 lookup.2) t →
      (cache.getMany lookups t.state).2 =
        (((lookups.takeWhile fun lookup => decide (cache.keyStrategy.Accepts lookup.2)).map
          fun lookup => Call.get lookup.1 lookup.2).foldl cache.trace t).state
  | [], _, _ => rfl
  | (amb, key) :: rest, t, steady => by
      by_cases accepted : cache.keyStrategy.Accepts key
      · simp only [List.takeWhile_cons, accepted, decide_true, if_true, List.map_cons] at steady ⊢
        have works : amb.Faultless := steady.faultless _ List.mem_cons_self
        obtain ⟨answer, done⟩ := get_ok backed works accepted t.state
        have remaining := getMany_state backed rest (cache.trace t (.get amb key)) steady.tail
        have split : cache.get amb key t.state = (.ok answer, (cache.get amb key t.state).2) := by
          rw [← done]
        rw [List.foldl_cons, ← remaining]
        show (andThen (cache.get amb key t.state) _).2 = _
        rw [split, andThen_ok]
        show (andThen (cache.getMany rest (cache.get amb key t.state).2) _).2 =
          (cache.getMany rest (cache.get amb key t.state).2).2
        generalize cache.getMany rest (cache.get amb key t.state).2 = outcome
        obtain ⟨values, last⟩ := outcome
        cases values <;> rfl
      · simp only [List.takeWhile_cons, accepted, decide_false, Bool.false_eq_true, if_false]
        obtain ⟨error, done⟩ := get_idle amb t.state accepted
        unfold getMany
        rw [done, andThen_error]
        rfl

/-- **A request leaves the state its calls lead to.** -/
theorem traceRequest_eq (backed : cache.Backed contents domain) {request : Request}
    (steady : Steady (cache.performed request) t) (faithful : cache.Faithful contents t) :
    cache.traceRequest request t = (cache.performed request).foldl cache.trace t := by
  have same : cache.perform request t.state =
      ((cache.performed request).foldl cache.trace t).state := by
    cases request with
    | call call => rfl
    | putMany items =>
        show (cache.putMany items t.state).2 = _
        unfold performed at steady ⊢
        unfold putMany
        split
        case h_1 error rejected =>
          simp only [rejected]
          rfl
        case h_2 valid =>
          simp only [valid] at steady ⊢
          refine putEach_state backed items t (fun item inside => ?_) steady faithful
          exact validateAll_ok valid item.2.key (List.mem_map_of_mem inside)
    | getMany lookups => exact getMany_state backed lookups t steady
  unfold traceRequest
  rw [same]

theorem traceRequest_faithful (backed : cache.Backed contents domain) {request : Request}
    (steady : Steady (cache.performed request) t) (faithful : cache.Faithful contents t) :
    cache.Faithful contents (cache.traceRequest request t) := by
  rw [traceRequest_eq backed steady faithful]
  exact traceAll_faithful backed _ t steady faithful

/-- A fresh cache over an empty store. -/
structure Fresh (cache : ContextCache σ) (contents : σ → String → Option StoredEntry)
    (t : Traced σ) : Prop where
  log : t.log = []
  built : ∃ amb stored, amb.Faultless ∧ (∀ key, contents stored key = none) ∧
    cache.fromBuilder amb stored = (.ok (), t.state)

theorem Fresh.faithful (backed : cache.Backed contents domain) (fresh : cache.Fresh contents t) :
    cache.Faithful contents t := by
  obtain ⟨amb, stored, faultless, empty, built⟩ := fresh.built
  obtain ⟨construction, _⟩ := fromBuilder_slot backed faultless.quiet built
  refine ⟨construction.coherent, fun key copy serves => ?_⟩
  rcases serves with held | ⟨held, _⟩
  · have impossible := (construction.cold key).symm.trans held
    cases impossible
  · have there := construction.kept key copy held
    rw [empty] at there
    cases there

/-- What a `get` answers is visible in the log. -/
theorem get_visible (backed : cache.Backed contents domain) (faultless : amb.Faultless)
    (order : t.clock ≤ amb.now) (faithful : cache.Faithful contents t) {value : List UInt8}
    (answered : (cache.get amb key t.state).1 = .ok (some value)) : Visible key value t.log := by
  by_cases accepted : cache.keyStrategy.Accepts key
  · obtain ⟨result, after, done, touches, _⟩ :=
      get_slot backed faultless.quiet accepted t.state
    rw [done] at answered
    have same : result = .ok (some value) := answered
    subst same
    obtain ⟨entry, rfl, live, serves⟩ := touches.own.answer
    rcases faithful.accounted key entry serves with expired | visible
    · have later := isExpired_mono order expired
      rw [live] at later
      cases later
    · exact visible
  · obtain ⟨error, done⟩ := get_idle amb t.state accepted
    rw [done] at answered
    cases answered

/-- What `get_many` answers is visible in the log. -/
theorem getMany_visible (backed : cache.Backed contents domain) :
    ∀ (lookups : List (Ambient × String)) (t : Traced σ) (values : List (Option (List UInt8))),
      Steady (lookups.map fun lookup => Call.get lookup.1 lookup.2) t →
      cache.Faithful contents t → (cache.getMany lookups t.state).1 = .ok values →
      ∀ (i : Nat) (amb : Ambient) (key : String) (value : List UInt8),
        lookups[i]? = some (amb, key) → values[i]? = some (some value) → Visible key value t.log
  | [], _, _, _, _, _, i, _, _, _, at_i, _ => by simp at at_i
  | (first, own) :: rest, t, values, steady, faithful, answered, i, amb, key, value, at_i, got => by
      have works : first.Faultless := steady.faultless _ List.mem_cons_self
      have ordered := steady.ordered
      rw [List.map_cons, List.map_cons, List.pairwise_cons] at ordered
      have order : t.clock ≤ first.now := ordered.1 _ List.mem_cons_self
      unfold getMany at answered
      cases head : cache.get first own t.state with
      | mk outcome after =>
          rw [head] at answered
          cases outcome with
          | error error => cases answered
          | ok answer =>
              rw [andThen_ok] at answered
              cases tail : cache.getMany rest after with
              | mk others last =>
                  rw [tail] at answered
                  cases others with
                  | error error => cases answered
                  | ok more =>
                      cases answered
                      cases i with
                      | zero =>
                          simp only [List.getElem?_cons_zero, Option.some.injEq,
                            Prod.mk.injEq] at at_i got
                          obtain ⟨rfl, rfl⟩ := at_i
                          subst got
                          exact get_visible backed works order faithful (by rw [head])
                      | succ i =>
                          simp only [List.getElem?_cons_succ] at at_i got
                          have reached : (cache.trace t (.get first own)).state = after := by
                            show (cache.get first own t.state).2 = after
                            rw [head]
                          exact getMany_visible backed rest (cache.trace t (.get first own)) more
                            steady.tail (trace_faithful backed (.get first own) works order faithful)
                            (by rw [reached, tail]) i amb key value at_i got

end ContextCache

end RivetCache
