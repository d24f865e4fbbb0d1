/-
**What a prefetch counts, from the answers it got.**

Other users of the engine change its tiers between the calls of a prefetch. A block that stays in one
tier all the time, unexpired at every reading of the clock, is found all the same: the prefetch asks
that tier, unless it has the block already, or another tier answers before.

* `Stays`: the blocks that stay, and the readings; `Sees`: what an engine that keeps them answers;
* `prefetchKey_populates`: the turn of a block that stays populates the destination;
* `prefetchWorker_counts`: so a prefetch counts these blocks at least.
-/

import RivetCache.Kv.Tier
import RivetCache.Library.Transcript

set_option linter.unusedSectionVars false

namespace RivetCache

open Library

variable {τ : Nat → Type} {engine : KvEngine τ}
  {contents : (index : Nat) → τ index → KvBlockKey → Option KvTierEntry}

namespace KvEngine

/-! ### Blocks that stay -/

/-- **The blocks that stay are there**: each in the tier that `places` says, unexpired at the readings
of the clock in `times`; and the next reading is one of them. -/
structure Stays (engine : KvEngine τ)
    (contents : (index : Nat) → τ index → KvBlockKey → Option KvTierEntry)
    (places : KvBlockKey → Option Nat) (times : Set Nat) (s : KvState τ) : Prop where
  held : ∀ key tier, places key = some tier →
    ∃ entry, s.held contents tier key = some entry ∧ ∀ now ∈ times, entry.expired now = false
  clocked : engine.clock s.reads ∈ times

/-- An answer that agrees with it. -/
def Sees (places : KvBlockKey → Option Nat) (times : Set Nat) : (op : KvOp) → op.Answer → Prop
  | .now, reading => ∃ now ∈ times, reading = now
  | .get tier key, answer => places key = some tier → ∀ found : Option KvTierEntry, answer = .ok found →
      ∃ entry, found = some entry ∧ ∀ now ∈ times, entry.expired now = false
  | _, _ => True

/-- The calls of a program that got such answers. -/
def AllSee (places : KvBlockKey → Option Nat) (times : Set Nat)
    (calls : List (Call KvOp KvOp.Answer)) : Prop :=
  ∀ call ∈ calls, Sees places times call.op call.answer

variable {places : KvBlockKey → Option Nat} {times : Set Nat}

/-- **Where the blocks are there, the answers agree.** -/
theorem Stays.sees (mapLike : engine.MapTiers contents)
    (inside : ∀ key tier, places key = some tier → tier < engine.count) {s : KvState τ}
    (stays : engine.Stays contents places times s) (op : KvOp) :
    Sees places times op (engine.handle op s).1 := by
  cases op with
  | now => exact ⟨_, stays.clocked, rfl⟩
  | get tier key =>
      intro place found answered
      obtain ⟨entry, there, unexpired⟩ := stays.held key tier place
      have read := got_held (mapLike tier (inside key tier place)) s answered
      exact ⟨entry, read.trans there, unexpired⟩
  | _ => trivial

/-! ### The calls of a prefetch -/

section

variable {calls : List (Call KvOp KvOp.Answer)} {index tier destination reading : Nat} {key : KvBlockKey}

theorem makes_tierGet {found : Option KvTierEntry} (made : (tierGet index key).Makes calls (.ok found)) :
    calls = [⟨.get index key, .ok found⟩] := by
  obtain ⟨answer, rest, rfl, rfl, rfl⟩ := made
  rfl

theorem makes_now (made : now.Makes calls (.ok reading)) : calls = [⟨.now, reading⟩] := by
  obtain ⟨answer, rest, rfl, rfl, same⟩ := made
  cases same
  rfl

/-- The tier of a block that stays does answer with it. -/
theorem AllSee.got {found : Option KvTierEntry} (sees : AllSee places times [⟨.get index key, .ok found⟩])
    (place : places key = some index) (time : reading ∈ times) :
    ∃ entry, found = some entry ∧ entry.expired reading = false := by
  obtain ⟨entry, same, unexpired⟩ := sees _ (List.mem_singleton_self _) place found rfl
  exact ⟨entry, same, unexpired reading time⟩

theorem AllSee.append {earlier later : List (Call KvOp KvOp.Answer)}
    (sees : AllSee places times (earlier ++ later)) :
    AllSee places times earlier ∧ AllSee places times later :=
  ⟨fun call inside => sees call (List.mem_append_left _ inside),
    fun call inside => sees call (List.mem_append_right _ inside)⟩

/-- **A block that stays is found**, or another copy of it before. -/
theorem findSource_found {tiers : List Nat} {found : Option (Nat × KvTierEntry)}
    (made : (findSource key reading destination tiers).Makes calls (.ok found))
    (sees : AllSee places times calls) (time : reading ∈ times) (place : places key = some tier)
    (inside : tier ∈ tiers) (other : tier ≠ destination) : found ≠ none := by
  induction tiers generalizing calls with
  | nil => cases inside
  | cons source rest ih =>
      unfold findSource at made
      split at made
      case isTrue here =>
        refine ih made sees ((List.mem_cons.mp inside).resolve_left fun same => ?_)
        exact other (same.trans here)
      case isFalse =>
        obtain ⟨answer, own, later, rfl, got, others⟩ := Program.makes_bind_ok made
        obtain ⟨mine, rest_sees⟩ := sees.append
        rw [makes_tierGet got] at mine
        have passed : ∀ {more : List (Call KvOp KvOp.Answer)}, AllSee places times more →
            (findSource key reading destination rest).Makes more (.ok found) →
            (∀ entry, answer = some entry → entry.expired reading = true) → found ≠ none := by
          intro more more_sees search gone
          refine ih search more_sees ((List.mem_cons.mp inside).resolve_left fun same => ?_)
          subst same
          obtain ⟨entry, here, unexpired⟩ := mine.got place time
          rw [gone entry here] at unexpired
          cases unexpired
        cases answer with
        | none => exact passed rest_sees others fun _ same => by cases same
        | some entry =>
            dsimp only at others
            split at others
            case isTrue expired =>
              obtain ⟨_, _, last, rfl, _, search⟩ := Program.makes_bind_ok others
              refine passed rest_sees.append.2 search fun read same => ?_
              cases same
              exact expired
            case isFalse =>
              obtain ⟨_, same⟩ := others
              cases same
              exact Option.some_ne_none _

/-- **The turn of a block that stays** populates the destination. -/
theorem prefetchKey_populates {populated : Bool}
    (made : (engine.prefetchKey key destination).Makes calls (.ok populated))
    (sees : AllSee places times calls) (place : places key = some tier) (inside : tier < engine.count) :
    populated = true := by
  unfold prefetchKey at made
  obtain ⟨reading, clocked, later, rfl, read, turn⟩ := Program.makes_bind_ok made
  obtain ⟨first, later_sees⟩ := sees.append
  rw [makes_now read] at first
  obtain ⟨_, time, rfl⟩ := first _ (List.mem_singleton_self _)
  obtain ⟨answer, own, last, rfl, got, rest⟩ := Program.makes_bind_ok turn
  obtain ⟨mine, last_sees⟩ := later_sees.append
  rw [makes_tierGet got] at mine
  have fetches : ∀ {more : List (Call KvOp KvOp.Answer)}, AllSee places times more →
      (engine.fetchKey key reading destination).Makes more (.ok populated) →
      (∀ entry, answer = some entry → entry.expired reading = true) → populated = true := by
    intro more more_sees fetch gone
    have other : tier ≠ destination := by
      rintro rfl
      obtain ⟨entry, here, unexpired⟩ := mine.got place time
      rw [gone entry here] at unexpired
      cases unexpired
    unfold fetchKey at fetch
    obtain ⟨found, searching, after, rfl, search, copies⟩ := Program.makes_bind_ok fetch
    have there := findSource_found search more_sees.append.1 time place (List.mem_range.mpr inside) other
    obtain ⟨⟨source, entry⟩, rfl⟩ := Option.ne_none_iff_exists'.mp there
    obtain ⟨_, _, _, rfl, _, _, same⟩ := Program.makes_bind_ok copies
    cases same
    rfl
  cases answer with
  | none => exact fetches last_sees rest fun _ same => by cases same
  | some entry =>
      dsimp only at rest
      split at rest
      case isTrue expired =>
        obtain ⟨_, _, after, rfl, _, fetch⟩ := Program.makes_bind_ok rest
        refine fetches last_sees.append.2 fetch fun read same => ?_
        cases same
        exact expired
      case isFalse =>
        obtain ⟨_, same⟩ := rest
        cases same
        rfl

/-- Does the block stay? -/
def staysSomewhere (places : KvBlockKey → Option Nat) (key : KvBlockKey) : Bool := (places key).isSome

/-- The turns of the keys, after those that have counted `populated`. -/
theorem prefetchEach_counts {keys : List KvBlockKey} {populated missed : Nat} {counts : Nat × Nat}
    (inside : ∀ key tier, places key = some tier → tier < engine.count)
    (made : (engine.prefetchEach destination keys populated missed).Makes calls (.ok counts))
    (sees : AllSee places times calls) :
    min (populated + keys.countP (staysSomewhere places)) u64Max ≤ counts.1 := by
  induction keys generalizing populated missed calls with
  | nil =>
      obtain ⟨_, same⟩ := made
      cases same
      exact Nat.min_le_left _ _
  | cons key rest ih =>
      unfold prefetchEach at made
      obtain ⟨copied, own, later, rfl, turn, others⟩ := Program.makes_bind_ok made
      obtain ⟨own_sees, later_sees⟩ := sees.append
      cases copied with
      | true =>
          have counted := ih others later_sees
          unfold satAdd at counted
          rw [List.countP_cons]
          split <;> omega
      | false =>
          have nowhere : staysSomewhere places key = false := by
            cases place : places key with
            | none =>
                unfold staysSomewhere
                rw [place]
                rfl
            | some tier => cases prefetchKey_populates turn own_sees place (inside key tier place)
          have counted := ih others later_sees
          rwa [List.countP_cons_of_neg (by rw [nowhere]; exact Bool.false_ne_true)]

/-- **A prefetch counts the blocks that stay**, as far as the counter goes. -/
theorem prefetchWorker_counts {keys : List KvBlockKey} {report : PrefetchReport}
    (inside : ∀ key tier, places key = some tier → tier < engine.count)
    (made : (engine.prefetchWorker keys destination).Makes calls (.ok report))
    (sees : AllSee places times calls) :
    min (keys.countP (staysSomewhere places)) u64Max ≤ report.populated := by
  unfold prefetchWorker at made
  obtain ⟨_, checking, later, rfl, _, rest⟩ := Program.makes_bind_ok made
  obtain ⟨⟨populated, missed⟩, turns, last, rfl, each, ended⟩ := Program.makes_bind_ok rest
  obtain ⟨_, _, _, rfl, _, _, same⟩ := Program.makes_bind_ok ended
  cases same
  have counted := prefetchEach_counts inside each sees.append.2.append.1
  rwa [Nat.zero_add] at counted

end

end KvEngine

end RivetCache
