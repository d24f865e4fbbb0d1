/-
**`events.rs`: the event bus.**

A publication takes a number, reads the clock, copies the list of the subscribers under the lock, and calls one
subscriber after another; other calls of the bus go on in between, and also inside a subscriber. So a call of the
bus stands before its next step (`BusCall`), and `KvEventBus.step` takes one step of one call. A subscriber is
known by a value of any type `σ`; what it does when it is called is not the bus's, only whether it panics, and so
is the drop of the last reference to it (`Outside`).

* `KvEventBus.step`: one access of the shared state, what the call returns, and what is noted of it;
* `Bus.advance`: a new call of the bus, or one step of one of them, with the log of the notes.
-/

import RivetCache.Base
import RivetCache.Library.Log
import RivetCache.Library.Run
import RivetCache.Library.SortedMap

set_option linter.unusedSectionVars false

namespace RivetCache.Events

open Library

/-! ### Events -/

/-- `KvEventKind`. -/
inductive KvEventKind where
  | lookup
  | store
  | retrieve
  | move
  | prefetch
  | invalidate
  | pin
  | unpin
  | clear
  | health
  | controller
  deriving DecidableEq

/-- `KvEventKind::as_str`. -/
def KvEventKind.asStr : KvEventKind → String
  | .lookup => "lookup"
  | .store => "store"
  | .retrieve => "retrieve"
  | .move => "move"
  | .prefetch => "prefetch"
  | .invalidate => "invalidate"
  | .pin => "pin"
  | .unpin => "unpin"
  | .clear => "clear"
  | .health => "health"
  | .controller => "controller"

/-- `KvEventStatus`. -/
inductive KvEventStatus where
  | started
  | completed
  | miss
  | error
  deriving DecidableEq

/-- `KvEventStatus::as_str`. -/
def KvEventStatus.asStr : KvEventStatus → String
  | .started => "started"
  | .completed => "completed"
  | .miss => "miss"
  | .error => "error"

/-- `KvEvent`. -/
structure KvEvent where
  sequence : Nat
  timestampMicros : Nat
  requestId : Option Nat
  kind : KvEventKind
  status : KvEventStatus
  modelFingerprint : Option String
  tier : Option String
  blocks : Nat
  bytes : Nat
  durationMicros : Nat
  detail : Option String
  deriving DecidableEq

/-- `KvEvent::new`. -/
def KvEvent.new (kind : KvEventKind) (status : KvEventStatus) : KvEvent where
  sequence := 0
  timestampMicros := 0
  requestId := none
  kind := kind
  status := status
  modelFingerprint := none
  tier := none
  blocks := 0
  bytes := 0
  durationMicros := 0
  detail := none

/-- `now_micros`: the microseconds since the epoch, or nothing where the clock is before it. -/
def nowMicros (clock : Option Nat) : Except IoError Nat :=
  match clock with
  | none => .error ⟨.other, "system clock is before Unix epoch"⟩
  | some micros => .ok (min micros u64Max)

/-! ### The bus -/

variable {σ : Type}

/-- `KvEventBus`. -/
structure KvEventBus (σ : Type) where
  subscribers : SortedMap Nat σ
  poisoned : Bool
  nextSubscriber : Nat
  nextSequence : Nat
  published : Nat
  subscriberFailures : Nat

/-- `KvEventBus::new`. -/
def KvEventBus.new : KvEventBus σ := ⟨SortedMap.empty, false, 0, 0, 0, 0⟩

/-- How a call of the bus ends. -/
inductive BusAnswer where
  | subscribed (id : Nat)
  | unsubscribed (found : Bool)
  | published (event : KvEvent)
  | failed (error : IoError)
  | panicked
  deriving DecidableEq

/-- A call of the bus, before its next step. -/
inductive BusCall (σ : Type) where
  | subscribe (subscriber : σ)
  /-- `subscribe`, before `write`. -/
  | insert (id : Nat) (subscriber : σ)
  | unsubscribe (id : Nat)
  | publish (event : KvEvent)
  /-- `publish`, before `now_micros`. -/
  | stamp (event : KvEvent)
  /-- `publish`, before `read`. -/
  | collect (event : KvEvent)
  /-- `publish`, at the head of its loop. -/
  | deliver (event : KvEvent) (rest : List (Nat × σ))
  /-- `publish`, in a subscriber. -/
  | calling (event : KvEvent) (rest : List (Nat × σ))
  /-- `publish`, after a subscriber that panicked. -/
  | failing (event : KvEvent) (rest : List (Nat × σ))
  /-- `publish`, before the drop of the reference to the subscriber. -/
  | release (event : KvEvent) (rest : List (Nat × σ))
  | ended (answer : BusAnswer)

/-- What a step meets that is not the bus's: the clock, a panic in a subscriber, and a panic in its drop. -/
structure Outside where
  clock : Option Nat
  panics : Bool
  dropPanics : Bool

/-- What is noted of a step. -/
inductive BusNote (σ : Type) where
  | began
  | numbered (id : Nat)
  | subscribed (id : Nat) (subscriber : σ)
  | unsubscribed (id : Nat)
  | sequenced (sequence : Nat)
  | collected (subscribers : List (Nat × σ))
  | delivered (subscriber : Nat × σ) (event : KvEvent)
  | failed
  | returned (answer : BusAnswer)

def registryPoisoned : IoError := ⟨.other, "event subscriber registry lock poisoned"⟩

/-- The end of a call. -/
def BusCall.finish (answer : BusAnswer) (bus : KvEventBus σ) (before : List (BusNote σ)) :
    BusCall σ × KvEventBus σ × List (BusNote σ) :=
  (.ended answer, bus, before ++ [.returned answer])

/-- **One step of a call of the bus.** -/
def KvEventBus.step (outside : Outside) (bus : KvEventBus σ) :
    BusCall σ → BusCall σ × KvEventBus σ × List (BusNote σ)
  | .subscribe subscriber =>
      let id := satAdd bus.nextSubscriber 1
      (.insert id subscriber, { bus with nextSubscriber := fetchAdd bus.nextSubscriber 1 }, [.numbered id])
  | .insert id subscriber =>
      if bus.poisoned then
        BusCall.finish (if outside.dropPanics then .panicked else .failed registryPoisoned) bus []
      else
        -- a subscriber that was there under the number is dropped under the lock
        let panics := (bus.subscribers.lookup id).isSome && outside.dropPanics
        BusCall.finish (if panics then .panicked else .subscribed id)
          { bus with subscribers := bus.subscribers.insert id subscriber, poisoned := panics }
          [.subscribed id subscriber]
  | .unsubscribe id =>
      if bus.poisoned then BusCall.finish (.failed registryPoisoned) bus []
      else
        let found := (bus.subscribers.lookup id).isSome
        let panics := found && outside.dropPanics
        BusCall.finish (if panics then .panicked else .unsubscribed found)
          { bus with subscribers := bus.subscribers.erase id, poisoned := panics } [.unsubscribed id]
  | .publish event =>
      let sequence := satAdd bus.nextSequence 1
      (.stamp { event with sequence }, { bus with nextSequence := fetchAdd bus.nextSequence 1 },
        [.sequenced sequence])
  | .stamp event =>
      match nowMicros outside.clock with
      | .error error => BusCall.finish (.failed error) bus []
      | .ok micros => (.collect { event with timestampMicros := micros }, bus, [])
  | .collect event =>
      if bus.poisoned then BusCall.finish (.failed registryPoisoned) bus []
      else (.deliver event bus.subscribers.entries, bus, [.collected bus.subscribers.entries])
  | .deliver event [] =>
      BusCall.finish (.published event) { bus with published := fetchAdd bus.published 1 } []
  | .deliver event (subscriber :: rest) => (.calling event rest, bus, [.delivered subscriber event])
  | .calling event rest => (if outside.panics then .failing event rest else .release event rest, bus, [])
  | .failing event rest =>
      (.release event rest, { bus with subscriberFailures := fetchAdd bus.subscriberFailures 1 }, [.failed])
  | .release event rest =>
      if outside.dropPanics then BusCall.finish .panicked bus []
      else (.deliver event rest, bus, [])
  | .ended answer => (.ended answer, bus, [])

/-! ### Runs -/

/-- A call that is begun: `subscribe`, `unsubscribe` or `publish`. -/
inductive BusRequest (σ : Type) where
  | subscribe (subscriber : σ)
  | unsubscribe (id : Nat)
  | publish (event : KvEvent)

def BusRequest.call : BusRequest σ → BusCall σ
  | .subscribe subscriber => .subscribe subscriber
  | .unsubscribe id => .unsubscribe id
  | .publish event => .publish event

/-- The bus, the calls of it by their numbers, and the log of their notes. -/
structure Bus (σ : Type) where
  bus : KvEventBus σ
  calls : List (BusCall σ)
  log : List (Nat × BusNote σ)

def Bus.new : Bus σ := ⟨.new, [], []⟩

/-- What happens next: a call begins, or one of the calls takes a step. -/
inductive BusLabel (σ : Type) where
  | begin (request : BusRequest σ)
  | resume (call : Nat) (outside : Outside)

/-- **One step of the system.** -/
def Bus.advance : BusLabel σ → Bus σ → Bus σ
  | .begin request, all =>
      ⟨all.bus, all.calls ++ [request.call], all.log ++ Log.noted all.calls.length [.began]⟩
  | .resume number outside, all =>
      match all.calls[number]? with
      | none => all
      | some call =>
          let stepped := all.bus.step outside call
          ⟨stepped.2.1, all.calls.set number stepped.1, all.log ++ Log.noted number stepped.2.2⟩

end RivetCache.Events
