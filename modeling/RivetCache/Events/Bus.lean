/-
**What a publication delivers.**

The notes of a call follow its steps (`Progress`), and the bus follows the notes of all calls (`Follows`); a step
of any call keeps both. So in every run, a publication that returned its event

* looked at the subscribers at one moment between its beginning and its return, and delivered that event once to
  each of them, in the order of their numbers, and to nobody else, whichever of them panicked (`Delivered`);
* has a number of its own, above those of all publications that had returned when it began.

`bus_delivers` is this for all runs, with the counters of the bus, and the number of each subscription.
-/

import RivetCache.Events.Model

set_option linter.unusedSectionVars false

namespace RivetCache.Events

open Library

variable {σ : Type}

/-! ### What the notes say -/

namespace BusNote

/-- A note of the registry, on the subscribers before it. -/
def onSubscribers : BusNote σ → SortedMap Nat σ → SortedMap Nat σ
  | subscribed id subscriber, subscribers => subscribers.insert id subscriber
  | unsubscribed id, subscribers => subscribers.erase id
  | _, subscribers => subscribers

def number? : BusNote σ → Option Nat
  | numbered id => some id
  | _ => none

def sequence? : BusNote σ → Option Nat
  | sequenced sequence => some sequence
  | _ => none

def delivery? : BusNote σ → Option ((Nat × σ) × KvEvent)
  | delivered subscriber event => some (subscriber, event)
  | _ => none

def isPublished : BusNote σ → Bool
  | returned (.published _) => true
  | _ => false

def isFailed : BusNote σ → Bool
  | failed => true
  | _ => false

def answer? : BusNote σ → Option BusAnswer
  | returned answer => some answer
  | _ => none

def moment? : BusNote σ → Option (List (Nat × σ))
  | collected subscribers => some subscribers
  | _ => none

/-- A note that nobody but the call itself can tell. -/
def quiet : BusNote σ → Bool
  | began => true
  | numbered _ => true
  | sequenced _ => true
  | _ => false

/-- A note of the loop of `publish`. -/
def inLoop : BusNote σ → Bool
  | delivered _ _ => true
  | failed => true
  | _ => false

end BusNote

/-- The log of a run. -/
abbrev BusLog (σ : Type) := List (Nat × BusNote σ)

/-- **The subscribers after a log.** -/
def subscribersAt (log : BusLog σ) : SortedMap Nat σ :=
  log.foldl (fun subscribers entry => entry.2.onSubscribers subscribers) SortedMap.empty

/-- What some notes delivered. -/
def deliveries (notes : List (BusNote σ)) : List ((Nat × σ) × KvEvent) := notes.filterMap BusNote.delivery?

/-- The numbers that a log gave, to subscriptions or to events. -/
def given (read : BusNote σ → Option Nat) (log : BusLog σ) : List Nat := log.filterMap fun entry => read entry.2

/-- The first numbers that `fetch_add` gives. -/
def tickets (count : Nat) : List Nat := (List.range count).map fun index => satAdd (index % 2 ^ 64) 1

theorem tickets_succ (count : Nat) : tickets (count + 1) = tickets count ++ [satAdd (count % 2 ^ 64) 1] := by
  unfold tickets
  rw [List.range_succ, List.map_append, List.map_singleton]

@[simp] theorem length_tickets (count : Nat) : (tickets count).length = count := by simp [tickets]

/-- Below `2 ^ 64` the numbers rise. -/
theorem tickets_rise {count : Nat} (few : count < 2 ^ 64) : (tickets count).Pairwise (· < ·) := by
  refine List.pairwise_map.mpr (List.pairwise_lt_range.imp_of_mem fun {left right} _ within below => ?_)
  have bound : right < count := List.mem_range.mp within
  unfold satAdd u64Max
  omega

/-! ### The bus follows the notes -/

/-- **The bus after a log.** -/
structure Follows (bus : KvEventBus σ) (log : BusLog σ) : Prop where
  subscribers : bus.subscribers = subscribersAt log
  nextSubscriber : bus.nextSubscriber = (given BusNote.number? log).length % 2 ^ 64
  nextSequence : bus.nextSequence = (given BusNote.sequence? log).length % 2 ^ 64
  published : bus.published = (log.countP fun entry => entry.2.isPublished) % 2 ^ 64
  failures : bus.subscriberFailures = (log.countP fun entry => entry.2.isFailed) % 2 ^ 64
  numbers : given BusNote.number? log = tickets (given BusNote.number? log).length
  sequences : given BusNote.sequence? log = tickets (given BusNote.sequence? log).length

theorem subscribersAt_append (earlier later : BusLog σ) :
    subscribersAt (earlier ++ later) =
      later.foldl (fun subscribers entry => entry.2.onSubscribers subscribers) (subscribersAt earlier) := by
  unfold subscribersAt
  rw [List.foldl_append]

theorem given_append (read : BusNote σ → Option Nat) (earlier later : BusLog σ) :
    given read (earlier ++ later) = given read earlier ++ given read later :=
  List.filterMap_append

theorem follows_new : Follows (KvEventBus.new : KvEventBus σ) [] :=
  ⟨rfl, rfl, rfl, rfl, rfl, rfl, rfl⟩

theorem fetchAdd_mod (count : Nat) : fetchAdd (count % 2 ^ 64) 1 = (count + 1) % 2 ^ 64 := by
  unfold fetchAdd
  omega

/-- What a note says of the bus. -/
def BusNote.on (bus : KvEventBus σ) : BusNote σ → KvEventBus σ
  | numbered _ => { bus with nextSubscriber := fetchAdd bus.nextSubscriber 1 }
  | subscribed id subscriber => { bus with subscribers := bus.subscribers.insert id subscriber }
  | unsubscribed id => { bus with subscribers := bus.subscribers.erase id }
  | sequenced _ => { bus with nextSequence := fetchAdd bus.nextSequence 1 }
  | failed => { bus with subscriberFailures := fetchAdd bus.subscriberFailures 1 }
  | returned (.published _) => { bus with published := fetchAdd bus.published 1 }
  | _ => bus

/-- A number that is noted is the next one. -/
structure BusNote.Due (bus : KvEventBus σ) (note : BusNote σ) : Prop where
  number : ∀ id, note.number? = some id → id = satAdd bus.nextSubscriber 1
  sequence : ∀ sequence, note.sequence? = some sequence → sequence = satAdd bus.nextSequence 1

/-- Most notes are not of numbers. -/
theorem BusNote.due_none {bus : KvEventBus σ} {note : BusNote σ} (number : note.number? = none)
    (sequence : note.sequence? = none) : note.Due bus where
  number id is_some := by rw [number] at is_some; cases is_some
  sequence value is_some := by rw [sequence] at is_some; cases is_some

/-- The bus, but for its lock. -/
def KvEventBus.unlocked (bus : KvEventBus σ) : KvEventBus σ := { bus with poisoned := false }

/-- **A step does to the bus what it notes.** -/
theorem step_on (outside : Outside) (bus : KvEventBus σ) (call : BusCall σ) :
    (bus.step outside call).2.1.unlocked = ((bus.step outside call).2.2.foldl BusNote.on bus).unlocked := by
  cases call with
  | subscribe subscriber => rfl
  | insert id subscriber =>
      simp only [KvEventBus.step, BusCall.finish]
      cases bus.poisoned <;> cases outside.dropPanics <;> cases (bus.subscribers.lookup id).isSome <;> rfl
  | unsubscribe id =>
      simp only [KvEventBus.step, BusCall.finish]
      cases bus.poisoned <;> cases outside.dropPanics <;> cases (bus.subscribers.lookup id).isSome <;> rfl
  | publish event => rfl
  | stamp event =>
      simp only [KvEventBus.step, BusCall.finish]
      split <;> rfl
  | collect event =>
      simp only [KvEventBus.step, BusCall.finish]
      split <;> rfl
  | deliver event rest => cases rest <;> rfl
  | calling event rest => rfl
  | failing event rest => rfl
  | release event rest =>
      simp only [KvEventBus.step, BusCall.finish]
      split <;> rfl
  | ended answer => rfl

/-- What a step notes: a number that is due, or no number. -/
theorem step_due (outside : Outside) (bus : KvEventBus σ) (call : BusCall σ) :
    (∃ note, (bus.step outside call).2.2 = [note] ∧ note.Due bus) ∨
      ∀ note ∈ (bus.step outside call).2.2, note.number? = none ∧ note.sequence? = none := by
  cases call with
  | subscribe subscriber =>
      refine Or.inl ⟨_, rfl, fun id given => (Option.some.inj given).symm, fun sequence given => ?_⟩
      cases given
  | publish event =>
      refine Or.inl ⟨_, rfl, fun id given => ?_, fun sequence given => (Option.some.inj given).symm⟩
      cases given
  | insert id subscriber =>
      refine Or.inr ?_
      simp only [KvEventBus.step, BusCall.finish]
      split <;> simp [BusNote.number?, BusNote.sequence?]
  | unsubscribe id =>
      refine Or.inr ?_
      simp only [KvEventBus.step, BusCall.finish]
      split <;> simp [BusNote.number?, BusNote.sequence?]
  | stamp event =>
      refine Or.inr ?_
      simp only [KvEventBus.step, BusCall.finish]
      split <;> simp [BusNote.number?, BusNote.sequence?]
  | collect event =>
      refine Or.inr ?_
      simp only [KvEventBus.step, BusCall.finish]
      split <;> simp [BusNote.number?, BusNote.sequence?]
  | deliver event rest =>
      refine Or.inr ?_
      cases rest <;> simp [KvEventBus.step, BusCall.finish, BusNote.number?, BusNote.sequence?]
  | calling event rest => exact Or.inr fun note among => by cases among
  | failing event rest => exact Or.inr (by simp [KvEventBus.step, BusNote.number?, BusNote.sequence?])
  | release event rest =>
      refine Or.inr ?_
      simp only [KvEventBus.step, BusCall.finish]
      split <;> simp [BusNote.number?, BusNote.sequence?]
  | ended answer => exact Or.inr fun note among => by cases among

section

variable (bus : KvEventBus σ) (note : BusNote σ)

theorem on_subscribers : (note.on bus).subscribers = note.onSubscribers bus.subscribers := by
  rcases note with _ | _ | _ | _ | _ | _ | _ | _ | answer
  case returned => cases answer <;> rfl
  all_goals rfl

theorem on_nextSubscriber : (note.on bus).nextSubscriber =
    if note.number?.isSome then fetchAdd bus.nextSubscriber 1 else bus.nextSubscriber := by
  rcases note with _ | _ | _ | _ | _ | _ | _ | _ | answer
  case returned => cases answer <;> rfl
  all_goals rfl

theorem on_nextSequence : (note.on bus).nextSequence =
    if note.sequence?.isSome then fetchAdd bus.nextSequence 1 else bus.nextSequence := by
  rcases note with _ | _ | _ | _ | _ | _ | _ | _ | answer
  case returned => cases answer <;> rfl
  all_goals rfl

theorem on_published : (note.on bus).published =
    if note.isPublished then fetchAdd bus.published 1 else bus.published := by
  rcases note with _ | _ | _ | _ | _ | _ | _ | _ | answer
  case returned => cases answer <;> rfl
  all_goals rfl

theorem on_failures : (note.on bus).subscriberFailures =
    if note.isFailed then fetchAdd bus.subscriberFailures 1 else bus.subscriberFailures := by
  rcases note with _ | _ | _ | _ | _ | _ | _ | _ | answer
  case returned => cases answer <;> rfl
  all_goals rfl

end

theorem given_one (read : BusNote σ → Option Nat) (log : BusLog σ) (number : Nat) (note : BusNote σ) :
    given read (log ++ [(number, note)]) = given read log ++ (read note).toList := by
  rw [given_append]
  unfold given
  cases value : read note <;> simp [value]

theorem count_next (counts : BusNote σ → Bool) (log : BusLog σ) (number : Nat) (note : BusNote σ) :
    (if counts note then fetchAdd ((log.countP fun entry => counts entry.2) % 2 ^ 64) 1
      else (log.countP fun entry => counts entry.2) % 2 ^ 64) =
      ((log ++ [(number, note)]).countP fun entry => counts entry.2) % 2 ^ 64 := by
  rw [fetchAdd_mod]
  cases here : counts note <;> simp [here]

/-- A number that is due, or none. -/
theorem ticket_next {numbers : List Nat} {next : Nat} {number : Option Nat}
    (exact_ : numbers = tickets numbers.length) (counter : next = numbers.length % 2 ^ 64)
    (due : ∀ value, number = some value → value = satAdd next 1) :
    numbers ++ number.toList = tickets (numbers ++ number.toList).length ∧
      (if number.isSome then fetchAdd next 1 else next) = (numbers ++ number.toList).length % 2 ^ 64 := by
  cases number with
  | none => simpa using ⟨exact_, counter⟩
  | some value =>
      rw [due value rfl, counter, Option.toList_some, List.length_append, List.length_singleton, tickets_succ,
        ← exact_]
      exact ⟨rfl, fetchAdd_mod _⟩

namespace Follows

variable {bus other : KvEventBus σ} {log : BusLog σ}

theorem unlocked (follows : Follows bus log) (same : other.unlocked = bus.unlocked) : Follows other log := by
  obtain ⟨subscribers, poisoned, next_subscriber, next_sequence, published, failures⟩ := bus
  obtain ⟨subscribers', poisoned', next_subscriber', next_sequence', published', failures'⟩ := other
  simp only [KvEventBus.unlocked, KvEventBus.mk.injEq, true_and] at same
  obtain ⟨rfl, rfl, rfl, rfl, rfl⟩ := same
  exact ⟨follows.1, follows.2, follows.3, follows.4, follows.5, follows.6, follows.7⟩

/-- **One more note.** -/
theorem note (follows : Follows bus log) (number : Nat) {note : BusNote σ} (due : note.Due bus) :
    Follows (note.on bus) (log ++ [(number, note)]) := by
  obtain ⟨numbers, next_subscriber⟩ := ticket_next follows.numbers follows.nextSubscriber due.number
  obtain ⟨sequences, next_sequence⟩ := ticket_next follows.sequences follows.nextSequence due.sequence
  refine ⟨?_, ?_, ?_, ?_, ?_, ?_, ?_⟩
  · rw [on_subscribers, follows.subscribers, subscribersAt_append]
    rfl
  · rw [on_nextSubscriber, given_one, next_subscriber]
  · rw [on_nextSequence, given_one, next_sequence]
  · rw [on_published, follows.published, count_next]
  · rw [on_failures, follows.failures, count_next]
  · rw [given_one]
    exact numbers
  · rw [given_one]
    exact sequences

/-- Some more notes, without a number. -/
theorem notes (follows : Follows bus log) (number : Nat) {notes : List (BusNote σ)}
    (plain : ∀ note ∈ notes, note.number? = none ∧ note.sequence? = none) :
    Follows (notes.foldl BusNote.on bus) (log ++ Log.noted number notes) := by
  induction notes generalizing bus log with
  | nil =>
      rw [show Log.noted number ([] : List (BusNote σ)) = [] from rfl, List.append_nil]
      exact follows
  | cons first rest ih =>
      obtain ⟨unnumbered, unsequenced⟩ := plain first List.mem_cons_self
      have one := follows.note number (BusNote.due_none unnumbered unsequenced)
      have more := ih one fun note among => plain note (List.mem_cons_of_mem _ among)
      rwa [List.append_assoc] at more

/-- **One step.** -/
theorem step (follows : Follows bus log) (number : Nat) (outside : Outside) (call : BusCall σ) :
    Follows (bus.step outside call).2.1 (log ++ Log.noted number (bus.step outside call).2.2) := by
  refine Follows.unlocked ?_ (step_on outside bus call)
  rcases step_due outside bus call with ⟨note, alone, due⟩ | plain
  · rw [alone]
    exact follows.note number due
  · exact follows.notes number plain

end Follows

/-! ### The notes of a call -/

/-- **The notes of a publication in its loop**, when `rest` is still to come. -/
def Loop (event : KvEvent) (rest : List (Nat × σ)) (notes : List (BusNote σ)) : Prop :=
  ∃ served turns, notes = .began :: .sequenced event.sequence :: .collected (served ++ rest) :: turns ∧
    (∀ note ∈ turns, note.inLoop = true) ∧ deliveries turns = served.map fun subscriber => (subscriber, event)

/-- The notes before a return. -/
def Answered (body : List (BusNote σ)) : BusAnswer → Prop
  | .subscribed id => ∃ subscriber, body = [.began, .numbered id, .subscribed id subscriber]
  | .unsubscribed _ => ∃ id, body = [.began, .unsubscribed id]
  | .published event => Loop event [] body
  | .failed _ => ∀ note ∈ body, note.quiet = true
  | .panicked => deliveries body = [] ∨ ∃ event rest, Loop event rest body

/-- **The notes of a call that stands there.** -/
def Progress (notes : List (BusNote σ)) : BusCall σ → Prop
  | .subscribe _ => notes = [.began]
  | .insert id _ => notes = [.began, .numbered id]
  | .unsubscribe _ => notes = [.began]
  | .publish _ => notes = [.began]
  | .stamp event => notes = [.began, .sequenced event.sequence]
  | .collect event => notes = [.began, .sequenced event.sequence]
  | .deliver event rest => Loop event rest notes
  | .calling event rest => Loop event rest notes
  | .failing event rest => Loop event rest notes
  | .release event rest => Loop event rest notes
  | .ended answer => ∃ body, notes = body ++ [.returned answer] ∧ (∀ note ∈ body, note.answer? = none) ∧
      Answered body answer

variable {event : KvEvent} {rest : List (Nat × σ)} {notes : List (BusNote σ)}

theorem Loop.answer_none (loop : Loop event rest notes) : ∀ note ∈ notes, note.answer? = none := by
  obtain ⟨served, turns, rfl, in_loop, _⟩ := loop
  intro note among
  simp only [List.mem_cons] at among
  rcases among with rfl | rfl | rfl | among
  · rfl
  · rfl
  · rfl
  · have turn := in_loop note among
    cases note <;> first | rfl | cases turn

/-- The next subscriber is called. -/
theorem Loop.serve {subscriber : Nat × σ} (loop : Loop event (subscriber :: rest) notes) :
    Loop event rest (notes ++ [.delivered subscriber event]) := by
  obtain ⟨served, turns, rfl, in_loop, done⟩ := loop
  refine ⟨served ++ [subscriber], turns ++ [.delivered subscriber event], by simp, ?_, ?_⟩
  · intro note among
    rcases List.mem_append.mp among with earlier | last
    · exact in_loop note earlier
    · rw [List.mem_singleton.mp last]
      rfl
  · unfold deliveries at done ⊢
    rw [List.filterMap_append, done, List.map_append]
    rfl

/-- A subscriber panicked. -/
theorem Loop.fail (loop : Loop event rest notes) : Loop event rest (notes ++ [.failed]) := by
  obtain ⟨served, turns, rfl, in_loop, done⟩ := loop
  refine ⟨served, turns ++ [.failed], by simp, ?_, ?_⟩
  · intro note among
    rcases List.mem_append.mp among with earlier | last
    · exact in_loop note earlier
    · rw [List.mem_singleton.mp last]
      rfl
  · unfold deliveries at done ⊢
    rw [List.filterMap_append, done]
    exact List.append_nil _

theorem BusNote.quiet_silent {note : BusNote σ} (quiet : note.quiet = true) :
    note.answer? = none ∧ note.delivery? = none := by
  cases note <;> first | exact ⟨rfl, rfl⟩ | cases quiet

theorem deliveries_quiet {body : List (BusNote σ)} (quiet : ∀ note ∈ body, note.quiet = true) :
    deliveries body = [] :=
  List.filterMap_eq_nil_iff.mpr fun note among => (BusNote.quiet_silent (quiet note among)).2

/-- A call that has noted nothing else fails. -/
theorem progress_failed {body : List (BusNote σ)} (quiet : ∀ note ∈ body, note.quiet = true) (error : IoError) :
    Progress (body ++ [.returned (.failed error)]) (.ended (.failed error)) :=
  ⟨body, rfl, fun note among => (BusNote.quiet_silent (quiet note among)).1, quiet⟩

/-- A call that has delivered nothing panics. -/
theorem progress_panicked {body : List (BusNote σ)} (silent : ∀ note ∈ body, note.answer? = none)
    (nothing : deliveries body = []) : Progress (body ++ [.returned .panicked]) (.ended .panicked) :=
  ⟨body, rfl, silent, Or.inl nothing⟩

/-- **One step of a call.** -/
theorem progress_step (outside : Outside) (bus : KvEventBus σ) {call : BusCall σ}
    (progress : Progress notes call) :
    Progress (notes ++ (bus.step outside call).2.2) (bus.step outside call).1 := by
  cases call with
  | subscribe subscriber =>
      obtain rfl : notes = [.began] := progress
      rfl
  | insert id subscriber =>
      obtain rfl : notes = [.began, .numbered id] := progress
      have quiet : ∀ note ∈ ([.began, .numbered id] : List (BusNote σ)), note.quiet = true := by
        simp [BusNote.quiet]
      simp only [KvEventBus.step, BusCall.finish]
      split
      · cases outside.dropPanics
        · exact progress_failed quiet _
        · exact progress_panicked (fun note among => (BusNote.quiet_silent (quiet note among)).1) rfl
      · have silent : ∀ note ∈ [BusNote.began, .numbered id, .subscribed id subscriber],
            note.answer? = none := by simp [BusNote.answer?]
        cases (bus.subscribers.lookup id).isSome && outside.dropPanics
        · exact ⟨_, rfl, silent, subscriber, rfl⟩
        · exact ⟨_, rfl, silent, Or.inl rfl⟩
  | unsubscribe id =>
      obtain rfl : notes = [.began] := progress
      simp only [KvEventBus.step, BusCall.finish]
      split
      · exact progress_failed (by simp [BusNote.quiet]) _
      · have silent : ∀ note ∈ ([.began, .unsubscribed id] : List (BusNote σ)), note.answer? = none := by
          simp [BusNote.answer?]
        cases (bus.subscribers.lookup id).isSome && outside.dropPanics
        · exact ⟨_, rfl, silent, id, rfl⟩
        · exact ⟨_, rfl, silent, Or.inl rfl⟩
  | publish event =>
      obtain rfl : notes = [.began] := progress
      rfl
  | stamp event =>
      obtain rfl : notes = [.began, .sequenced event.sequence] := progress
      simp only [KvEventBus.step, BusCall.finish]
      split
      · exact progress_failed (by simp [BusNote.quiet]) _
      · rfl
  | collect event =>
      obtain rfl : notes = [.began, .sequenced event.sequence] := progress
      simp only [KvEventBus.step, BusCall.finish]
      split
      · exact progress_failed (by simp [BusNote.quiet]) _
      · exact ⟨[], [], rfl, by simp, rfl⟩
  | deliver event rest =>
      have loop : Loop event rest notes := progress
      cases rest with
      | nil => exact ⟨notes, rfl, loop.answer_none, loop⟩
      | cons subscriber rest => exact loop.serve
  | calling event rest =>
      have loop : Loop event rest notes := progress
      simp only [KvEventBus.step, List.append_nil]
      split <;> exact loop
  | failing event rest =>
      have loop : Loop event rest notes := progress
      exact loop.fail
  | release event rest =>
      have loop : Loop event rest notes := progress
      simp only [KvEventBus.step, BusCall.finish]
      split
      · exact ⟨notes, rfl, loop.answer_none, Or.inr ⟨event, rest, loop⟩⟩
      · rwa [List.append_nil]
  | ended answer =>
      simp only [KvEventBus.step, List.append_nil]
      exact progress

/-- A call that has not ended has not returned. -/
theorem progress_silent {call : BusCall σ} (progress : Progress notes call)
    (going : ∀ answer, call ≠ .ended answer) : ∀ note ∈ notes, note.answer? = none := by
  have quiet_none : ∀ short : List (BusNote σ), (short.all BusNote.quiet) = true →
      ∀ note ∈ short, note.answer? = none := fun short quiet note among =>
    (BusNote.quiet_silent (List.all_eq_true.mp quiet note among)).1
  cases call with
  | subscribe subscriber => exact quiet_none _ (progress ▸ rfl)
  | insert id subscriber => exact quiet_none _ (progress ▸ rfl)
  | unsubscribe id => exact quiet_none _ (progress ▸ rfl)
  | publish event => exact quiet_none _ (progress ▸ rfl)
  | stamp event => exact quiet_none _ (progress ▸ rfl)
  | collect event => exact quiet_none _ (progress ▸ rfl)
  | deliver event rest => exact Loop.answer_none progress
  | calling event rest => exact Loop.answer_none progress
  | failing event rest => exact Loop.answer_none progress
  | release event rest => exact Loop.answer_none progress
  | ended answer => exact absurd rfl (going answer)

/-- A call that returned has ended so. -/
theorem progress_returned {call : BusCall σ} {answer : BusAnswer} (progress : Progress notes call)
    (returned : .returned answer ∈ notes) :
    ∃ body, notes = body ++ [.returned answer] ∧ Answered body answer := by
  by_cases ended : ∃ answer', call = .ended answer'
  · obtain ⟨answer', rfl⟩ := ended
    obtain ⟨body, rfl, silent, answered⟩ := progress
    rcases List.mem_append.mp returned with earlier | last
    · cases silent _ earlier
    · cases List.mem_singleton.mp last
      exact ⟨body, rfl, answered⟩
  · have silent := progress_silent progress fun answer same => ended ⟨answer, same⟩
    cases silent _ returned

/-! ### The moment of a publication -/

/-- **Every publication looked at the subscribers of the moment.** -/
def Moments (log : BusLog σ) : Prop :=
  ∀ before number subscribers after, log = before ++ (number, .collected subscribers) :: after →
    subscribers = (subscribersAt before).entries

theorem Moments.note {log : BusLog σ} (moments : Moments log) (number : Nat) {note : BusNote σ}
    (current : ∀ subscribers, note.moment? = some subscribers → subscribers = (subscribersAt log).entries) :
    Moments (log ++ [(number, note)]) := by
  intro before other subscribers after split
  rcases Log.split_last split with ⟨rfl, same⟩ | ⟨middle, earlier⟩
  · cases same
    exact current subscribers rfl
  · exact moments before other subscribers middle earlier

theorem Moments.others {log : BusLog σ} (moments : Moments log) (number : Nat) {more : List (BusNote σ)}
    (plain : ∀ note ∈ more, note.moment? = none) : Moments (log ++ Log.noted number more) := by
  induction more generalizing log with
  | nil =>
      rw [show Log.noted number ([] : List (BusNote σ)) = [] from rfl, List.append_nil]
      exact moments
  | cons first rest ih =>
      have one : Moments (log ++ [(number, first)]) := by
        refine moments.note number fun subscribers is_some => ?_
        rw [plain first List.mem_cons_self] at is_some
        cases is_some
      have more := ih one fun note among => plain note (List.mem_cons_of_mem _ among)
      rwa [List.append_assoc] at more

/-- Only one step looks at the subscribers. -/
theorem step_moment (outside : Outside) (bus : KvEventBus σ) (call : BusCall σ) :
    (bus.step outside call).2.2 = [.collected bus.subscribers.entries] ∨
      ∀ note ∈ (bus.step outside call).2.2, note.moment? = none := by
  cases call with
  | collect event =>
      simp only [KvEventBus.step, BusCall.finish]
      split
      · exact Or.inr (by simp [BusNote.moment?])
      · exact Or.inl rfl
  | insert id subscriber =>
      simp only [KvEventBus.step, BusCall.finish]
      split <;> exact Or.inr (by simp [BusNote.moment?])
  | unsubscribe id =>
      simp only [KvEventBus.step, BusCall.finish]
      split <;> exact Or.inr (by simp [BusNote.moment?])
  | stamp event =>
      simp only [KvEventBus.step, BusCall.finish]
      split <;> exact Or.inr (by simp [BusNote.moment?])
  | release event rest =>
      simp only [KvEventBus.step, BusCall.finish]
      split <;> exact Or.inr (by simp [BusNote.moment?])
  | deliver event rest => cases rest <;> exact Or.inr (by simp [KvEventBus.step, BusCall.finish, BusNote.moment?])
  | subscribe subscriber => exact Or.inr (by simp [KvEventBus.step, BusNote.moment?])
  | publish event => exact Or.inr (by simp [KvEventBus.step, BusNote.moment?])
  | calling event rest => exact Or.inr (by simp [KvEventBus.step])
  | failing event rest => exact Or.inr (by simp [KvEventBus.step, BusNote.moment?])
  | ended answer => exact Or.inr (by simp [KvEventBus.step])

/-! ### Runs -/

/-- **The invariant of every run.** -/
structure Bus.Orderly (all : Bus σ) : Prop where
  follows : Follows all.bus all.log
  moments : Moments all.log
  progress : ∀ number call, all.calls[number]? = some call → Progress (Log.own number all.log) call
  fresh : ∀ number, all.calls.length ≤ number → Log.own number all.log = []

theorem Bus.orderly_new : (Bus.new : Bus σ).Orderly where
  follows := follows_new
  moments before number subscribers after split := by simp [Bus.new] at split
  progress number call stands := by simp [Bus.new] at stands
  fresh number _ := rfl

theorem Bus.advance_absent {all : Bus σ} {mover : Nat} {outside : Outside}
    (standing : all.calls[mover]? = none) : Bus.advance (.resume mover outside) all = all := by
  simp [Bus.advance, standing]

theorem Bus.advance_resume {all : Bus σ} {mover : Nat} {outside : Outside} {call : BusCall σ}
    (standing : all.calls[mover]? = some call) : Bus.advance (.resume mover outside) all =
      ⟨(all.bus.step outside call).2.1, all.calls.set mover (all.bus.step outside call).1,
        all.log ++ Log.noted mover (all.bus.step outside call).2.2⟩ := by
  simp [Bus.advance, standing]

/-- **Every step keeps it.** -/
theorem Bus.orderly_advance (label : BusLabel σ) {all : Bus σ} (orderly : all.Orderly) :
    (Bus.advance label all).Orderly := by
  cases label with
  | begin request =>
      refine ⟨?_, ?_, fun number call stands => ?_, fun number beyond => ?_⟩
      · have due : (BusNote.began : BusNote σ).Due all.bus := BusNote.due_none rfl rfl
        exact orderly.follows.note all.calls.length due
      · refine orderly.moments.others all.calls.length fun note among => ?_
        rw [List.mem_singleton.mp among]
        rfl
      · show Progress (Log.own number (all.log ++ Log.noted all.calls.length [.began])) call
        rw [Log.own_append]
        have stands : (all.calls ++ [request.call])[number]? = some call := stands
        rcases Nat.lt_trichotomy number all.calls.length with earlier | rfl | later
        · rw [List.getElem?_append_left earlier] at stands
          rw [Log.own_noted_other (by omega), List.append_nil]
          exact orderly.progress number call stands
        · rw [List.getElem?_concat_length] at stands
          cases stands
          rw [orderly.fresh _ le_rfl, Log.own_noted]
          cases request <;> rfl
        · rw [List.getElem?_eq_none (by simpa using later)] at stands
          cases stands
      · have beyond : all.calls.length + 1 ≤ number := by simpa [Bus.advance] using beyond
        show Log.own number (all.log ++ Log.noted all.calls.length [.began]) = []
        rw [Log.own_append, orderly.fresh number (by omega), Log.own_noted_other (by omega)]
        rfl
  | resume mover outside =>
      cases standing : all.calls[mover]? with
      | none =>
          rw [Bus.advance_absent standing]
          exact orderly
      | some call =>
          rw [Bus.advance_resume standing]
          refine ⟨?_, ?_, fun number other stands => ?_, fun number beyond => ?_⟩
          · exact orderly.follows.step mover outside call
          · rcases step_moment outside all.bus call with moment | plain
            · show Moments (all.log ++ Log.noted mover (all.bus.step outside call).2.2)
              rw [moment]
              refine orderly.moments.note mover fun subscribers same => ?_
              rw [← orderly.follows.subscribers]
              exact (Option.some.inj same).symm
            · exact orderly.moments.others mover plain
          · show Progress (Log.own number (all.log ++ Log.noted mover (all.bus.step outside call).2.2)) other
            rw [Log.own_append]
            have stands : (all.calls.set mover (all.bus.step outside call).1)[number]? = some other := stands
            by_cases mine : mover = number
            · subst mine
              rw [List.getElem?_set_self (List.getElem?_eq_some_iff.mp standing).1] at stands
              cases stands
              rw [Log.own_noted]
              exact progress_step outside all.bus (orderly.progress mover call standing)
            · rw [List.getElem?_set_ne mine] at stands
              rw [Log.own_noted_other fun same => mine same.symm, List.append_nil]
              exact orderly.progress number other stands
          · have beyond : all.calls.length ≤ number := by simpa using beyond
            have here : mover < all.calls.length := (List.getElem?_eq_some_iff.mp standing).1
            show Log.own number (all.log ++ Log.noted mover (all.bus.step outside call).2.2) = []
            rw [Log.own_append, orderly.fresh number beyond, Log.own_noted_other (by omega)]
            rfl

/-- A call that returned noted what goes with its answer. -/
theorem Bus.Orderly.answered {all : Bus σ} (orderly : all.Orderly) {number : Nat} {answer : BusAnswer}
    (returned : (number, .returned answer) ∈ all.log) :
    ∃ body, Log.own number all.log = body ++ [.returned answer] ∧ Answered body answer := by
  have mine : .returned answer ∈ Log.own number all.log := Log.mem_own.mpr returned
  cases standing : all.calls[number]? with
  | none =>
      rw [orderly.fresh number (List.getElem?_eq_none_iff.mp standing)] at mine
      cases mine
  | some call => exact progress_returned (orderly.progress number call standing) mine

/-- A run: any list of labels, from the new bus. -/
def Bus.run (labels : List (BusLabel σ)) : Bus σ :=
  labels.foldl (fun all label => Bus.advance label all) Bus.new

theorem Bus.orderly_run (labels : List (BusLabel σ)) : (Bus.run labels).Orderly := by
  have reached : Reaches Bus.advance (fun _ _ => True) Bus.new (Bus.run labels) :=
    Reaches.foldl (fun _ _ => trivial) labels Bus.new
  exact reached.invariant Bus.Orderly Bus.orderly_new fun label _ orderly _ => Bus.orderly_advance label orderly

/-! ### What a run delivers -/

/-- What a publication delivered. -/
def deliveriesOf (number : Nat) (log : BusLog σ) : List ((Nat × σ) × KvEvent) := deliveries (Log.own number log)

/-- **What a publication noted that returned its event.** -/
theorem Bus.Orderly.published_notes {all : Bus σ} (orderly : all.Orderly) {number : Nat} {event : KvEvent}
    (returned : (number, .returned (.published event)) ∈ all.log) :
    ∃ served turns, Log.own number all.log =
        .began :: .sequenced event.sequence :: .collected served :: (turns ++ [.returned (.published event)]) ∧
      (∀ note ∈ turns, note.inLoop = true) ∧ deliveries turns = served.map fun subscriber => (subscriber, event) := by
  obtain ⟨body, notes, served, turns, rfl, in_loop, done⟩ := orderly.answered returned
  exact ⟨served, turns, by rw [notes, List.append_nil]; simp, in_loop, done⟩

theorem deliveries_append (earlier later : List (BusNote σ)) :
    deliveries (earlier ++ later) = deliveries earlier ++ deliveries later :=
  List.filterMap_append

/-- The log of a run, where a publication takes it apart. -/
structure Publication (σ : Type) (number : Nat) (event : KvEvent) where
  before : BusLog σ
  during : BusLog σ
  later : BusLog σ
  after : BusLog σ

namespace Publication

variable {number : Nat} {event : KvEvent} (publication : Publication σ number event)

/-- The log when it looked at the subscribers. -/
def moment : BusLog σ := publication.before ++ (number, .began) :: publication.during

def subscribers : List (Nat × σ) := (subscribersAt publication.moment).entries

/-- **It began, looked at the subscribers, delivered to each of them, and returned.** -/
structure Once (log : BusLog σ) : Prop where
  split : log = publication.moment ++ (number, .collected publication.subscribers) :: publication.later ++
    (number, .returned (.published event)) :: publication.after
  going : (number, .returned (.published event)) ∉ publication.moment
  within : deliveriesOf number publication.later =
    publication.subscribers.map fun subscriber => (subscriber, event)
  nothing_else : deliveriesOf number log = deliveriesOf number publication.later

end Publication

/-- **One moment, one delivery to each.** -/
theorem Bus.Orderly.once {all : Bus σ} (orderly : all.Orderly) {number : Nat} {event : KvEvent}
    (returned : (number, .returned (.published event)) ∈ all.log) :
    ∃ publication : Publication σ number event, publication.Once all.log := by
  obtain ⟨served, turns, notes, in_loop, done⟩ := orderly.published_notes returned
  obtain ⟨before, rest, log_began, own_before, own_rest⟩ := Log.split_own [] notes
  obtain ⟨during, rest', log_collected, own_during, own_rest'⟩ :=
    Log.split_own [BusNote.sequenced event.sequence] own_rest
  obtain ⟨later, after, log_returned, own_later, own_after⟩ := Log.split_own turns own_rest'
  have moment : served = (subscribersAt (before ++ (number, .began) :: during)).entries := by
    refine orderly.moments (before ++ (number, .began) :: during) number served rest' ?_
    rw [log_began, log_collected]
    simp
  have own_moment : Log.own number (before ++ (number, BusNote.began) :: during) =
      [.began, .sequenced event.sequence] := by
    rw [show before ++ (number, BusNote.began) :: during =
        before ++ (Log.noted number [.began] ++ during) from rfl,
      Log.own_append, Log.own_append, Log.own_noted, own_before, own_during]
    rfl
  refine ⟨⟨before, during, later, after⟩, ?_, ?_, ?_, ?_⟩
  · rw [Publication.subscribers, Publication.moment, ← moment, log_began, log_collected, log_returned]
    simp
  · intro among
    have mine := Log.mem_own.mpr among
    rw [Publication.moment, own_moment] at mine
    simp at mine
  · rw [deliveriesOf, own_later, done, moment]
    rfl
  · rw [deliveriesOf, deliveriesOf, notes, own_later]
    show deliveries (turns ++ [.returned (.published event)]) = deliveries turns
    rw [deliveries_append]
    exact List.append_nil _

/-- Two entries with numbers, the first of them earlier. -/
theorem given_rise {read : BusNote σ → Option Nat} {log : BusLog σ} (exact_ : given read log = tickets (given read log).length)
    (few : (given read log).length < 2 ^ 64) :
    log.Pairwise fun left right => ∀ first second, read left.2 = some first → read right.2 = some second →
      first < second := by
  have rise : (given read log).Pairwise (· < ·) := exact_ ▸ tickets_rise few
  refine (List.pairwise_filterMap.mp rise).imp fun {left right} below first second here there => ?_
  exact below first here second there

/-- Two calls do not get one number. -/
theorem given_distinct {read : BusNote σ → Option Nat} {log : BusLog σ}
    (exact_ : given read log = tickets (given read log).length) (few : (given read log).length < 2 ^ 64)
    {number other : Nat} {note note' : BusNote σ} {first second : Nat} (different : number ≠ other)
    (here : (number, note) ∈ log) (there : (other, note') ∈ log) (reads : read note = some first)
    (reads' : read note' = some second) : first ≠ second := by
  have apart : log.Pairwise fun left right => ∀ first second, read left.2 = some first →
      read right.2 = some second → first ≠ second :=
    (given_rise exact_ few).imp fun below first second one two => (below first second one two).ne
  have symmetric : Std.Symm fun left right : Nat × BusNote σ => ∀ first second, read left.2 = some first →
      read right.2 = some second → first ≠ second :=
    ⟨fun left right unequal first second one two => (unequal second first two one).symm⟩
  exact apart.forall here there (fun same => different (congrArg Prod.fst same)) first second reads reads'

/-- A publication has its number from before its return. -/
theorem Bus.Orderly.sequenced_before {all : Bus σ} (orderly : all.Orderly) {number : Nat} {event : KvEvent}
    {before after : BusLog σ} (split : all.log = before ++ (number, .returned (.published event)) :: after) :
    (number, .sequenced event.sequence) ∈ before := by
  have returned : (number, .returned (.published event)) ∈ all.log := by simp [split]
  obtain ⟨served, turns, notes, _, _⟩ := orderly.published_notes returned
  rw [split, Log.own_append, Log.own_cons] at notes
  refine Log.mem_own.mp ?_
  rcases earlier : Log.own number before with _ | ⟨first, _ | ⟨second, rest⟩⟩
  · rw [earlier] at notes
    cases notes
  · rw [earlier] at notes
    cases notes
  · rw [earlier] at notes
    obtain ⟨_, more⟩ := List.cons.inj notes
    obtain ⟨rfl, _⟩ := List.cons.inj more
    simp

/-- A publication has its number from after its beginning. -/
theorem Bus.Orderly.sequenced_after {all : Bus σ} (orderly : all.Orderly) {number : Nat} {event : KvEvent}
    (returned : (number, .returned (.published event)) ∈ all.log) {before after : BusLog σ}
    (split : all.log = before ++ (number, .began) :: after) : (number, .sequenced event.sequence) ∈ after := by
  obtain ⟨served, turns, notes, in_loop, _⟩ := orderly.published_notes returned
  rw [split, Log.own_append, Log.own_cons] at notes
  rcases earlier : Log.own number before with _ | ⟨first, rest⟩
  · rw [earlier] at notes
    obtain ⟨_, more⟩ := List.cons.inj notes
    exact Log.mem_own.mp (more ▸ List.mem_cons_self)
  · -- a second beginning would be among the notes of the loop
    rw [earlier] at notes
    obtain ⟨_, more⟩ := List.cons.inj notes
    have again : BusNote.began ∈ (.sequenced event.sequence :: .collected served ::
        (turns ++ [.returned (.published event)]) : List (BusNote σ)) := more ▸ by simp
    simp only [List.mem_cons, List.mem_append, reduceCtorEq, List.not_mem_nil, or_false, false_or] at again
    cases in_loop _ again

/-- **What a run of the bus guarantees.** -/
structure Bus.Delivers (all : Bus σ) : Prop where
  /-- A publication that returned its event delivered it once to each subscriber of one moment of its own. -/
  once : ∀ number event, (number, .returned (.published event)) ∈ all.log →
    ∃ publication : Publication σ number event, publication.Once all.log
  /-- A number that had one subscriber, or none, while the event was published, got it from there. -/
  throughout : ∀ number event id (held : Option σ), (number, .returned (.published event)) ∈ all.log →
    (∀ moment, moment <+: all.log → (number, .began) ∈ moment →
      (number, .returned (.published event)) ∉ moment → (subscribersAt moment).lookup id = held) →
    ((deliveriesOf number all.log).filter fun delivery => decide (delivery.1.1 = id)) =
      held.toList.map fun subscriber => ((id, subscriber), event)
  /-- A call that failed delivered nothing, and left the subscribers alone. -/
  failed : ∀ number error, (number, .returned (.failed error)) ∈ all.log →
    deliveriesOf number all.log = [] ∧
      ∀ note subscribers, (number, note) ∈ all.log → note.onSubscribers subscribers = subscribers
  /-- The events have numbers of their own, which rise from one publication to the next. -/
  distinct : (given BusNote.sequence? all.log).length < 2 ^ 64 → ∀ number other event event', number ≠ other →
    (number, .returned (.published event)) ∈ all.log → (other, .returned (.published event')) ∈ all.log →
    event.sequence ≠ event'.sequence
  ordered : (given BusNote.sequence? all.log).length < 2 ^ 64 → ∀ number other event event' before between after,
    all.log = before ++ (number, .returned (.published event)) :: between ++ (other, .began) :: after →
    (other, .returned (.published event')) ∈ all.log → event.sequence < event'.sequence
  /-- The subscriptions have numbers of their own. -/
  numbers : (given BusNote.number? all.log).length < 2 ^ 64 → ∀ number other id id', number ≠ other →
    (number, .returned (.subscribed id)) ∈ all.log → (other, .returned (.subscribed id')) ∈ all.log → id ≠ id'
  /-- The counters of the bus. -/
  published : all.bus.published = (all.log.countP fun entry => entry.2.isPublished) % 2 ^ 64
  failures : all.bus.subscriberFailures = (all.log.countP fun entry => entry.2.isFailed) % 2 ^ 64

theorem Bus.Orderly.throughout {all : Bus σ} (orderly : all.Orderly) {number : Nat} {event : KvEvent} {id : Nat}
    {held : Option σ} (returned : (number, .returned (.published event)) ∈ all.log)
    (holds : ∀ moment, moment <+: all.log → (number, .began) ∈ moment →
      (number, .returned (.published event)) ∉ moment → (subscribersAt moment).lookup id = held) :
    ((deliveriesOf number all.log).filter fun delivery => decide (delivery.1.1 = id)) =
      held.toList.map fun subscriber => ((id, subscriber), event) := by
  obtain ⟨publication, once⟩ := orderly.once returned
  have early : publication.moment <+: all.log := ⟨_, by rw [once.split, List.append_assoc]⟩
  have began : (number, .began) ∈ publication.moment := by simp [Publication.moment]
  have here : (subscribersAt publication.moment).lookup id = held :=
    holds publication.moment early began once.going
  rw [once.nothing_else, once.within, Publication.subscribers, List.filter_map]
  show ((subscribersAt publication.moment).entries.filter fun entry => decide (entry.1 = id)).map
    (fun subscriber => (subscriber, event)) = _
  rw [SortedMap.filter_entries, here, List.map_map]
  rfl

theorem Bus.Orderly.failed {all : Bus σ} (orderly : all.Orderly) {number : Nat} {error : IoError}
    (returned : (number, .returned (.failed error)) ∈ all.log) : deliveriesOf number all.log = [] ∧
      ∀ note subscribers, (number, note) ∈ all.log → note.onSubscribers subscribers = subscribers := by
  obtain ⟨body, notes, quiet⟩ := orderly.answered returned
  constructor
  · rw [deliveriesOf, notes, deliveries_append, deliveries_quiet quiet]
    rfl
  · intro note subscribers among
    have mine := Log.mem_own.mpr among
    rw [notes] at mine
    rcases List.mem_append.mp mine with earlier | last
    · have silent := quiet note earlier
      cases note <;> first | rfl | cases silent
    · rw [List.mem_singleton.mp last]
      rfl

/-- A subscription that returned its number had noted it. -/
theorem Bus.Orderly.numbered {all : Bus σ} (orderly : all.Orderly) {number id : Nat}
    (returned : (number, .returned (.subscribed id)) ∈ all.log) : (number, .numbered id) ∈ all.log := by
  obtain ⟨body, notes, subscriber, rfl⟩ := orderly.answered returned
  exact Log.mem_own.mp (notes ▸ by simp)

end RivetCache.Events
