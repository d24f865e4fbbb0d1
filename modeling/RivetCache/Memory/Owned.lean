/-
**Who holds a region of pinned memory.**

* `PoolEffect`: what a step can do, said once;
* `Owned`: each region that was ever allocated is in one place: in one lease, in the cache once, or among the
  deallocated ones once; the counter of cached bytes is their sum and within the limit; a lease fits its
  region and has the node it was asked for;
* `pool_owned`: it holds in every state that steps reach, as long as no region is cached that takes the sum
  past a `u64`, and a call takes the least cached region that serves it, if there is one;
* `unlimited_wraps`: where the limit is the greatest `usize`, two regions of half the numbers make the counter
  wrap.
-/

import RivetCache.Memory.Pool

set_option linter.unusedSectionVars false

namespace RivetCache

open Library

variable {σ : Type} {allocator : PageAllocator σ}

/-! ### The cache -/

/-- The bytes of regions. -/
def totalCapacity (cached : List Region) : Nat := (cached.map fun region => region.capacity.toNat).sum

/-- How often a region is among others. -/
def countSerial (serial : Nat) (cached : List Region) : Nat :=
  (cached.map fun region => region.serial).count serial

/-- **The choice of a cached region**: it serves the request, and no other that does is smaller. -/
structure BestFit (bytes : UInt64) (node : Option UInt32) (cached : List Region) (region : Region) :
    Prop where
  among : region ∈ cached
  serves : region.serves bytes node = true
  least : ∀ other ∈ cached, other.serves bytes node = true →
    region.capacity.toNat ≤ other.capacity.toNat

section

variable {bytes : UInt64} {node : Option UInt32} {inner : PoolInner σ} {region : Region}

theorem selectCached_some {cached : List Region} {index : Nat}
    (selected : selectCached bytes node cached = some index) :
    ∃ region, cached[index]? = some region ∧ BestFit bytes node cached region := by
  obtain ⟨⟨region, index'⟩, found, same⟩ := Option.map_eq_some_iff.mp selected
  cases same
  obtain ⟨among, least⟩ := minByKey_least found
  obtain ⟨among, serves⟩ := List.mem_filter.mp among
  have there := List.mem_zipIdx_iff_getElem?.mp among
  refine ⟨region, there, List.mem_of_getElem? there, serves, fun other listed serves' => ?_⟩
  obtain ⟨place, there'⟩ := List.mem_iff_getElem?.mp listed
  exact least (other, place) (List.mem_filter.mpr ⟨List.mem_zipIdx_iff_getElem?.mpr there', serves'⟩)

theorem selectCached_none {cached : List Region} (nothing : selectCached bytes node cached = none) :
    ∀ other ∈ cached, other.serves bytes node = false := by
  intro other listed
  by_contra serves
  have empty := minByKey_none (Option.map_eq_none_iff.mp nothing)
  obtain ⟨place, there⟩ := List.mem_iff_getElem?.mp listed
  have kept : (other, place) ∈ cached.zipIdx.filter fun entry => entry.1.serves bytes node :=
    List.mem_filter.mpr ⟨List.mem_zipIdx_iff_getElem?.mpr there, Bool.eq_true_of_not_eq_false serves⟩
  rw [empty] at kept
  exact List.not_mem_nil kept

/-- **What the lock section of `acquire` does**: it takes the best fit out of the cache, or finds that no
region serves. -/
theorem takeCached_cases (bytes : UInt64) (node : Option UInt32) (inner : PoolInner σ) :
    (takeCached bytes node inner = (.ok none, inner) ∧
        ∀ other ∈ inner.cached, other.serves bytes node = false) ∨
      ∃ region rest, BestFit bytes node inner.cached region ∧ (region :: rest).Perm inner.cached ∧
        takeCached bytes node inner = (.ok (some ⟨some region, bytes⟩),
          { inner with
            cached := rest
            cachedBytes := inner.cachedBytes - region.capacity
            reuses := inner.reuses + 1 }) := by
  unfold takeCached
  cases selected : selectCached bytes node inner.cached with
  | none => exact .inl ⟨rfl, selectCached_none selected⟩
  | some index =>
      obtain ⟨region, there, best⟩ := selectCached_some selected
      obtain ⟨rest, removed, perm⟩ := swapRemove_perm there
      refine .inr ⟨region, rest, best, perm, ?_⟩
      simp only [removed]

/-- **What the drop of a lease does** to its region: it is deallocated, or cached within the limit. -/
theorem dropLease_cases (region : Region) (len : UInt64) (inner : PoolInner σ) :
    dropLease allocator ⟨some region, len⟩ inner = (some region, dropRegion allocator region inner) ∨
      (region.capacity ≤ inner.maxCachedBytes ∧
        saturatingAdd inner.cachedBytes region.capacity ≤ inner.maxCachedBytes ∧
        dropLease allocator ⟨some region, len⟩ inner =
          (none, { inner with
            cachedBytes := inner.cachedBytes + region.capacity
            cached := inner.cached ++ [region] })) := by
  unfold dropLease
  by_cases large : region.capacity > inner.maxCachedBytes
  · exact .inl (if_pos large)
  · by_cases full : saturatingAdd inner.cachedBytes region.capacity > inner.maxCachedBytes
    · left
      simp only [large, full, if_true, if_false]
    · right
      refine ⟨UInt64.not_lt.mp large, UInt64.not_lt.mp full, ?_⟩
      simp only [large, full, if_false]

end

/-! ### What a step can do -/

namespace PinnedMemoryPool

/-- How often a region is in a lease. -/
def leased (pool : PinnedMemoryPool σ) (serial : Nat) : Nat :=
  total (fun lent => if lent.lease.region.map (fun region => region.serial) = some serial then 1 else 0)
    pool.leases

/-- **A region is kept exactly** when its lease is dropped: it is not kept, or the sum is a `u64`. -/
def KeepsExactly (label : PoolStep σ) (pool : PinnedMemoryPool σ) : Prop :=
  match label with
  | .drop lease => ∀ lent region, pool.leases.lookup lease = some lent →
      lent.lease.region = some region →
        region.capacity ≤ pool.inner.maxCachedBytes →
          saturatingAdd pool.inner.cachedBytes region.capacity ≤ pool.inner.maxCachedBytes →
            pool.inner.cachedBytes.toNat + region.capacity.toNat < 2 ^ 64
  | _ => True

/-- The calls after a step had been made, or were made by it. -/
structure Called (pool next : PinnedMemoryPool σ) : Prop where
  asked : pool.asked ≤ next.asked
  called : ∀ handle call, next.calls.lookup handle = some call →
    (∃ before, pool.calls.lookup handle = some before) ∨ handle = pool.asked ∧ handle < next.asked

/-- **What a step can do** to the regions, and what follows where it keeps exactly. -/
inductive PoolEffect (exactly : Prop) (pool next : PinnedMemoryPool σ) : Prop
  /-- Nothing. -/
  | idle (cached : next.inner.cached = pool.inner.cached)
      (cachedBytes : next.inner.cachedBytes = pool.inner.cachedBytes)
      (leases : next.leases = pool.leases) (freed : next.freed = pool.freed)
      (made : next.made = pool.made) (calls : Called pool next)
  /-- A cached region is lent. -/
  | reused {handle : Nat} {bytes : UInt64} {node : Option UInt32} {missed : Bool} {region : Region}
      {rest : List Region} (called : pool.calls.lookup handle = some ⟨bytes, node, missed⟩)
      (best : BestFit bytes node pool.inner.cached region)
      (perm : (region :: rest).Perm pool.inner.cached) (cached : next.inner.cached = rest)
      (cachedBytes : next.inner.cachedBytes = pool.inner.cachedBytes - region.capacity)
      (leases : next.leases = pool.leases.insert handle ⟨⟨some region, bytes⟩, bytes, node⟩)
      (freed : next.freed = pool.freed) (made : next.made = pool.made)
      (calls : next.calls = pool.calls.erase handle) (asked : next.asked = pool.asked)
  /-- A region is allocated and lent. -/
  | allocated {handle : Nat} {bytes : UInt64} {node : Option UInt32} {missed : Bool} {pointer : UInt64}
      (called : pool.calls.lookup handle = some ⟨bytes, node, missed⟩)
      (cached : next.inner.cached = pool.inner.cached)
      (cachedBytes : next.inner.cachedBytes = pool.inner.cachedBytes)
      (leases : next.leases = pool.leases.insert handle
        ⟨⟨some ⟨pointer, bytes, node, pool.made⟩, bytes⟩, bytes, node⟩)
      (freed : next.freed = pool.freed) (made : next.made = pool.made + 1)
      (calls : next.calls = pool.calls.erase handle) (asked : next.asked = pool.asked)
  /-- The region of a lease is cached. -/
  | kept {handle : Nat} {lent : Lent} {region : Region} (held : pool.leases.lookup handle = some lent)
      (own : lent.lease.region = some region) (small : region.capacity ≤ pool.inner.maxCachedBytes)
      (room : saturatingAdd pool.inner.cachedBytes region.capacity ≤ pool.inner.maxCachedBytes)
      (sum : exactly → pool.inner.cachedBytes.toNat + region.capacity.toNat < 2 ^ 64)
      (cached : next.inner.cached = pool.inner.cached ++ [region])
      (cachedBytes : next.inner.cachedBytes = pool.inner.cachedBytes + region.capacity)
      (leases : next.leases = pool.leases.erase handle) (freed : next.freed = pool.freed)
      (made : next.made = pool.made) (calls : next.calls = pool.calls) (asked : next.asked = pool.asked)
  /-- The region of a lease is deallocated. -/
  | freed {handle : Nat} {lent : Lent} {region : Region} (held : pool.leases.lookup handle = some lent)
      (own : lent.lease.region = some region) (cached : next.inner.cached = pool.inner.cached)
      (cachedBytes : next.inner.cachedBytes = pool.inner.cachedBytes)
      (leases : next.leases = pool.leases.erase handle)
      (freed : next.freed = pool.freed ++ [region.serial])
      (made : next.made = pool.made) (calls : next.calls = pool.calls) (asked : next.asked = pool.asked)
  /-- A lease without a region goes. -/
  | hollow {handle : Nat} {lent : Lent} (held : pool.leases.lookup handle = some lent)
      (own : lent.lease.region = none)

variable {pool next : PinnedMemoryPool σ}

theorem Called.same (calls : next.calls = pool.calls) (asked : next.asked = pool.asked) :
    Called pool next :=
  ⟨asked.symm.le, fun _ call present => .inl ⟨call, calls ▸ present⟩⟩

theorem Called.erase {handle : Nat} (calls : next.calls = pool.calls.erase handle)
    (asked : next.asked = pool.asked) : Called pool next := by
  refine ⟨asked.symm.le, fun other call present => .inl ⟨call, ?_⟩⟩
  rw [calls, lookup_erase_eq] at present
  by_cases own : other = handle
  · rw [if_pos own] at present
    cases present
  · rwa [if_neg own] at present

theorem acquire_effect (bytes : UInt64) (node : Option UInt32) (pool : PinnedMemoryPool σ) :
    PoolEffect (KeepsExactly (.acquire bytes node) pool) pool (step allocator (.acquire bytes node) pool) := by
  simp only [step]
  cases acquireCheck allocator bytes node pool.inner with
  | error error => exact .idle rfl rfl rfl rfl rfl (.same rfl rfl)
  | ok _ =>
      refine .idle rfl rfl rfl rfl rfl ⟨Nat.le_succ _, fun handle call present => ?_⟩
      rw [lookup_insert_eq] at present
      by_cases own : handle = pool.asked
      · exact .inr ⟨own, own ▸ Nat.lt_succ_self _⟩
      · rw [if_neg own] at present
        exact .inl ⟨call, present⟩

theorem look_effect (handle : Nat) (pool : PinnedMemoryPool σ) :
    PoolEffect (KeepsExactly (.look handle) pool) pool (step allocator (.look handle) pool) := by
  simp only [step]
  split
  · rename_i bytes node called
    rcases takeCached_cases bytes node pool.inner with ⟨nothing, -⟩ | ⟨region, rest, best, perm, taken⟩
    · rw [nothing]
      refine .idle rfl rfl rfl rfl rfl ⟨le_rfl, fun other call present => .inl ?_⟩
      rw [lookup_insert_eq] at present
      by_cases own : other = handle
      · exact ⟨_, own ▸ called⟩
      · rw [if_neg own] at present
        exact ⟨call, present⟩
    · rw [taken]
      exact .reused called best perm rfl rfl rfl rfl rfl rfl rfl
  · exact .idle rfl rfl rfl rfl rfl (.same rfl rfl)

theorem allocate_effect (handle : Nat) (pool : PinnedMemoryPool σ) :
    PoolEffect (KeepsExactly (.allocate handle) pool) pool (step allocator (.allocate handle) pool) := by
  simp only [step]
  split
  · rename_i bytes node called
    unfold allocateRegion
    cases answer : allocator.allocate bytes node pool.inner.allocator with
    | mk result state =>
        cases result with
        | error error => exact .idle rfl rfl rfl rfl rfl (.erase rfl rfl)
        | ok pointer => exact .allocated called rfl rfl rfl rfl rfl rfl rfl
  · exact .idle rfl rfl rfl rfl rfl (.same rfl rfl)

theorem drop_effect (handle : Nat) (pool : PinnedMemoryPool σ) :
    PoolEffect (KeepsExactly (.drop handle) pool) pool (step allocator (.drop handle) pool) := by
  simp only [step]
  cases held : pool.leases.lookup handle with
  | none => exact .idle rfl rfl rfl rfl rfl (.same rfl rfl)
  | some lent =>
      obtain ⟨⟨region, len⟩, bytes, node⟩ := lent
      cases region with
      | none => exact .hollow held rfl
      | some region =>
          rcases @dropLease_cases σ allocator region len pool.inner with gone | ⟨small, room, kept⟩
          · simp only [gone]
            exact .freed held rfl rfl rfl rfl rfl rfl rfl rfl
          · simp only [kept]
            exact .kept held rfl small room (fun exactly => exactly _ region held rfl small room) rfl rfl
              rfl (List.append_nil _) rfl rfl rfl

/-- **What a step can do.** -/
theorem step_effect (label : PoolStep σ) (pool : PinnedMemoryPool σ) :
    PoolEffect (KeepsExactly label pool) pool (step allocator label pool) := by
  cases label with
  | acquire bytes node => exact acquire_effect bytes node pool
  | look handle => exact look_effect handle pool
  | allocate handle => exact allocate_effect handle pool
  | drop handle => exact drop_effect handle pool
  | outside state => exact .idle rfl rfl rfl rfl rfl (.same rfl rfl)

/-- No step changes the limit. -/
theorem step_limit (label : PoolStep σ) (pool : PinnedMemoryPool σ) :
    (step allocator label pool).inner.maxCachedBytes = pool.inner.maxCachedBytes := by
  cases label with
  | acquire bytes node =>
      simp only [step]
      cases acquireCheck allocator bytes node pool.inner <;> rfl
  | look handle =>
      simp only [step]
      split
      · rename_i bytes node called
        rcases takeCached_cases bytes node pool.inner with ⟨nothing, -⟩ | ⟨region, rest, -, -, taken⟩
        · rw [nothing]
        · rw [taken]
      · rfl
  | allocate handle =>
      simp only [step]
      split
      · rename_i bytes node called
        unfold allocateRegion
        cases answer : allocator.allocate bytes node pool.inner.allocator with
        | mk result state => cases result <;> rfl
      · rfl
  | drop handle =>
      simp only [step]
      cases held : pool.leases.lookup handle with
      | none => rfl
      | some lent =>
          obtain ⟨⟨region, len⟩, bytes, node⟩ := lent
          cases region with
          | none => rfl
          | some region =>
              rcases @dropLease_cases σ allocator region len pool.inner with gone | ⟨-, -, kept⟩
              · simp only [gone, dropRegion]
              · simp only [kept]
  | outside state => rfl

/-! ### The invariant -/

/-- **Regions are owned.** -/
structure Owned (pool : PinnedMemoryPool σ) : Prop where
  placed : ∀ serial, pool.leased serial + countSerial serial pool.inner.cached +
    pool.freed.count serial = if serial < pool.made then 1 else 0
  lent : ∀ handle lent, pool.leases.lookup handle = some lent → ∃ region,
    lent.lease.region = some region ∧ lent.lease.len = lent.bytes ∧
      lent.bytes ≤ region.capacity ∧ region.numaNode = lent.node
  waiting : ∀ handle call, pool.calls.lookup handle = some call → pool.leases.lookup handle = none
  unasked : ∀ handle, pool.asked ≤ handle → pool.leases.lookup handle = none
  called : ∀ handle call, pool.calls.lookup handle = some call → handle < pool.asked

/-- **The cached bytes are counted**, within the limit. -/
structure BytesCounted (pool : PinnedMemoryPool σ) : Prop where
  counted : pool.inner.cachedBytes.toNat = totalCapacity pool.inner.cached
  within : totalCapacity pool.inner.cached ≤ pool.inner.maxCachedBytes.toNat

theorem owned_new (limit : UInt64) (state : σ) : (withAllocator limit state).Owned where
  placed serial := rfl
  lent _ _ present := by cases present
  waiting _ _ present := by cases present
  unasked _ _ := rfl
  called _ _ present := by cases present

theorem bytesCounted_new (limit : UInt64) (state : σ) : (withAllocator limit state).BytesCounted where
  counted := rfl
  within := Nat.zero_le _

section

variable {handle : Nat} {lent : Lent} {region : Region} {rest : List Region} {serial : Nat}

theorem leased_insert (absent : pool.leases.lookup handle = none)
    (leases : next.leases = pool.leases.insert handle lent) (own : lent.lease.region = some region)
    (serial : Nat) :
    next.leased serial = (if region.serial = serial then 1 else 0) + pool.leased serial := by
  unfold leased
  rw [leases, total_insert_absent _ absent, own]
  simp

theorem leased_erase (held : pool.leases.lookup handle = some lent)
    (leases : next.leases = pool.leases.erase handle) (own : lent.lease.region = some region)
    (serial : Nat) :
    next.leased serial + (if region.serial = serial then 1 else 0) = pool.leased serial := by
  have erased := total_erase (fun lent : Lent =>
    if lent.lease.region.map (fun region => region.serial) = some serial then 1 else 0) held
  unfold leased
  rw [leases, ← erased, own]
  simp

theorem leased_congr (leases : next.leases = pool.leases) (serial : Nat) :
    next.leased serial = pool.leased serial := by
  unfold leased
  rw [leases]

theorem countSerial_perm {cached : List Region} (perm : (region :: rest).Perm cached) (serial : Nat) :
    countSerial serial cached = countSerial serial rest + (if region.serial = serial then 1 else 0) := by
  unfold countSerial
  rw [← (perm.map fun region => region.serial).count_eq, List.map_cons, List.count_cons]
  simp

theorem countSerial_append (cached : List Region) (serial : Nat) :
    countSerial serial (cached ++ [region]) =
      countSerial serial cached + (if region.serial = serial then 1 else 0) := by
  unfold countSerial
  simp [List.count_singleton]

theorem totalCapacity_perm {cached : List Region} (perm : (region :: rest).Perm cached) :
    totalCapacity cached = region.capacity.toNat + totalCapacity rest := by
  unfold totalCapacity
  rw [← (perm.map fun region : Region => region.capacity.toNat).sum_eq, List.map_cons, List.sum_cons]

/-- The leases after one more. -/
theorem Owned.lend (owned : pool.Owned)
    (leases : next.leases = pool.leases.insert handle lent) (own : lent.lease.region = some region)
    (fits : lent.lease.len = lent.bytes ∧ lent.bytes ≤ region.capacity ∧ region.numaNode = lent.node)
    (calls : next.calls = pool.calls.erase handle) (asked : next.asked = pool.asked)
    (below : handle < pool.asked)
    (placed : ∀ serial, next.leased serial + countSerial serial next.inner.cached +
      next.freed.count serial = if serial < next.made then 1 else 0) : next.Owned where
  placed := placed
  lent other there present := by
    rw [leases, lookup_insert_eq] at present
    by_cases same : other = handle
    · rw [if_pos same] at present
      cases present
      exact ⟨region, own, fits⟩
    · rw [if_neg same] at present
      exact owned.lent other there present
  waiting other call present := by
    rw [calls, lookup_erase_eq] at present
    by_cases same : other = handle
    · rw [if_pos same] at present
      cases present
    · rw [if_neg same] at present
      rw [leases, lookup_insert_eq, if_neg same]
      exact owned.waiting other call present
  unasked other unasked := by
    rw [leases, lookup_insert_eq, if_neg (by omega)]
    exact owned.unasked other (asked ▸ unasked)
  called other call present := by
    rw [calls, lookup_erase_eq] at present
    by_cases same : other = handle
    · rw [if_pos same] at present
      cases present
    · rw [if_neg same] at present
      exact asked ▸ owned.called other call present

/-- The leases after one less. -/
theorem Owned.giveBack (owned : pool.Owned) (leases : next.leases = pool.leases.erase handle)
    (calls : next.calls = pool.calls) (asked : next.asked = pool.asked)
    (placed : ∀ serial, next.leased serial + countSerial serial next.inner.cached +
      next.freed.count serial = if serial < next.made then 1 else 0) : next.Owned := by
  have fewer : ∀ other, next.leases.lookup other = none ∨
      next.leases.lookup other = pool.leases.lookup other := by
    intro other
    rw [leases, lookup_erase_eq]
    by_cases same : other = handle
    · exact .inl (if_pos same)
    · exact .inr (if_neg same)
  refine ⟨placed, fun other there present => ?_, fun other call present => ?_, fun other unasked => ?_,
    fun other call present => asked ▸ owned.called other call (calls ▸ present)⟩
  · rcases fewer other with gone | same
    · rw [gone] at present
      cases present
    · exact owned.lent other there (same ▸ present)
  · rcases fewer other with gone | same
    · exact gone
    · rw [same]
      exact owned.waiting other call (calls ▸ present)
  · rcases fewer other with gone | same
    · exact gone
    · rw [same]
      exact owned.unasked other (asked ▸ unasked)

end

/-- **A step keeps the regions owned.** -/
theorem PoolEffect.owned {exactly : Prop} (effect : PoolEffect exactly pool next) (owned : pool.Owned) :
    next.Owned := by
  cases effect with
  | idle cached cachedBytes leases freed made calls =>
      refine ⟨fun serial => ?_, fun handle lent present => ?_, fun handle call present => ?_,
        fun handle unasked => ?_, fun handle call present => ?_⟩
      · rw [leased_congr leases, cached, freed, made]
        exact owned.placed serial
      · exact owned.lent handle lent (leases ▸ present)
      · rw [leases]
        rcases calls.called handle call present with ⟨before, there⟩ | ⟨new, -⟩
        · exact owned.waiting handle before there
        · exact owned.unasked handle new.symm.le
      · rw [leases]
        exact owned.unasked handle (calls.asked.trans unasked)
      · rcases calls.called handle call present with ⟨before, there⟩ | ⟨-, below⟩
        · exact lt_of_lt_of_le (owned.called handle before there) calls.asked
        · exact below
  | @reused handle bytes node missed region rest called best perm cached cachedBytes leases freed made
      calls asked =>
      have absent := owned.waiting _ _ called
      have serves := of_decide_eq_true best.serves
      refine owned.lend leases rfl ⟨rfl, serves.2, serves.1⟩ calls asked
        (owned.called _ _ called) fun serial => ?_
      have before := owned.placed serial
      rw [countSerial_perm perm] at before
      rw [leased_insert absent leases rfl, cached, freed, made, ← before]
      omega
  | @allocated handle bytes node missed pointer called cached cachedBytes leases freed made calls
      asked =>
      have absent := owned.waiting _ _ called
      refine owned.lend leases rfl ⟨rfl, UInt64.le_refl _, rfl⟩ calls asked
        (owned.called _ _ called) fun serial => ?_
      have before := owned.placed serial
      rw [leased_insert absent leases rfl, cached, freed, made]
      by_cases new : pool.made = serial
      · rw [if_neg (by omega)] at before
        rw [if_pos new, if_pos (by omega)]
        omega
      · rw [if_neg new]
        by_cases below : serial < pool.made
        · rw [if_pos below] at before
          rw [if_pos (by omega)]
          omega
        · rw [if_neg below] at before
          rw [if_neg (by omega)]
          omega
  | @kept handle lent region held own small room sum cached cachedBytes leases freed made calls asked =>
      refine owned.giveBack leases calls asked fun serial => ?_
      have before := owned.placed serial
      have moved := leased_erase held leases own serial
      rw [cached, countSerial_append, freed, made, ← before]
      omega
  | @freed handle lent region held own cached cachedBytes leases freed made calls asked =>
      refine owned.giveBack leases calls asked fun serial => ?_
      have before := owned.placed serial
      have moved := leased_erase held leases own serial
      rw [cached, freed, made, List.count_append, ← before]
      have one : List.count serial [region.serial] = if region.serial = serial then 1 else 0 := by
        simp [List.count_singleton]
      omega
  | @hollow handle lent held own =>
      obtain ⟨region, some_, -⟩ := owned.lent handle lent held
      rw [own] at some_
      cases some_

/-- **A step that keeps exactly keeps the bytes counted.** -/
theorem PoolEffect.bytesCounted {exactly : Prop} (effect : PoolEffect exactly pool next)
    (owned : pool.Owned) (bytes : pool.BytesCounted)
    (limit : next.inner.maxCachedBytes = pool.inner.maxCachedBytes) (holds : exactly) :
    next.BytesCounted := by
  obtain ⟨counted, within⟩ := bytes
  cases effect with
  | idle cached cachedBytes =>
      refine ⟨?_, ?_⟩
      · rw [cachedBytes, cached, counted]
      · rw [cached, limit]
        exact within
  | @reused handle bytes node missed region rest called best perm cached cachedBytes =>
      have parts := totalCapacity_perm perm
      have least : region.capacity ≤ pool.inner.cachedBytes := by
        rw [UInt64.le_iff_toNat_le, counted]
        omega
      refine ⟨?_, ?_⟩
      · rw [cachedBytes, cached, UInt64.toNat_sub_of_le _ _ least, counted]
        omega
      · rw [cached, limit]
        omega
  | allocated called cached cachedBytes =>
      refine ⟨?_, ?_⟩
      · rw [cachedBytes, cached, counted]
      · rw [cached, limit]
        exact within
  | @kept handle lent region held own small room sum cached cachedBytes =>
      have fits := sum holds
      have exact_ : (pool.inner.cachedBytes + region.capacity).toNat =
          pool.inner.cachedBytes.toNat + region.capacity.toNat := by
        rw [UInt64.toNat_add, Nat.mod_eq_of_lt fits]
      have after : totalCapacity next.inner.cached =
          totalCapacity pool.inner.cached + region.capacity.toNat := by
        rw [cached]
        simp [totalCapacity]
      refine ⟨?_, ?_⟩
      · rw [cachedBytes, exact_, after, counted]
      · unfold saturatingAdd at room
        rw [if_pos fits, UInt64.le_iff_toNat_le, exact_, counted] at room
        rw [after, limit]
        exact room
  | freed held own cached cachedBytes =>
      refine ⟨?_, ?_⟩
      · rw [cachedBytes, cached, counted]
      · rw [cached, limit]
        exact within
  | @hollow handle lent held own =>
      obtain ⟨region, some_, -⟩ := owned.lent handle lent held
      rw [own] at some_
      cases some_

/-- **A step that does not keep exactly** leaves a counter that is not the sum. -/
theorem bytesCounted_iff {label : PoolStep σ} (owned : pool.Owned) (bytes : pool.BytesCounted) :
    (step allocator label pool).BytesCounted ↔ KeepsExactly label pool := by
  refine ⟨fun after => ?_, fun exactly =>
    (step_effect label pool).bytesCounted owned bytes (step_limit label pool) exactly⟩
  cases label with
  | drop handle =>
      intro lent region held own small room
      obtain ⟨⟨_, len⟩, _, _⟩ := lent
      cases own
      have kept : dropLease allocator ⟨some region, len⟩ pool.inner = (none, { pool.inner with
          cachedBytes := pool.inner.cachedBytes + region.capacity
          cached := pool.inner.cached ++ [region] }) := by
        unfold dropLease
        simp only [UInt64.not_lt.mpr small, UInt64.not_lt.mpr room, if_false]
      have counted := after.counted
      simp only [step, held, kept] at counted
      have total_ : totalCapacity (pool.inner.cached ++ [region]) =
          pool.inner.cachedBytes.toNat + region.capacity.toNat := by
        rw [bytes.counted]
        simp [totalCapacity]
      rw [total_] at counted
      exact counted ▸ UInt64.toNat_lt _
  | acquire => trivial
  | look => trivial
  | allocate => trivial
  | outside => trivial

/-- Below the greatest `usize`, every step keeps exactly. -/
theorem keepsExactly_of_limit (small : pool.inner.maxCachedBytes.toNat < 2 ^ 64 - 1)
    (label : PoolStep σ) : KeepsExactly label pool := by
  cases label with
  | drop handle =>
      intro lent region _ _ _ room
      by_contra wraps
      unfold saturatingAdd at room
      rw [if_neg wraps, UInt64.le_iff_toNat_le, UInt64.toNat_ofNat'] at room
      omega
  | acquire => trivial
  | look => trivial
  | allocate => trivial
  | outside => trivial

/-! ### Runs -/

variable {limit : UInt64} {state : σ}

theorem owned_reached (run : Reaches (step allocator) (fun _ _ => True) (withAllocator limit state) pool) :
    pool.Owned ∧ pool.inner.maxCachedBytes = limit := by
  refine run.invariant (fun pool => pool.Owned ∧ pool.inner.maxCachedBytes = limit)
    ⟨owned_new limit state, rfl⟩ fun label pool kept _ => ?_
  exact ⟨(step_effect label pool).owned kept.1, (step_limit label pool).trans kept.2⟩

theorem bytesCounted_reached
    (run : Reaches (step allocator) KeepsExactly (withAllocator limit state) pool) :
    pool.BytesCounted := by
  have both : pool.Owned ∧ pool.BytesCounted := by
    refine run.invariant (fun pool => pool.Owned ∧ pool.BytesCounted)
      ⟨owned_new limit state, bytesCounted_new limit state⟩ fun label pool kept exactly => ?_
    exact ⟨(step_effect label pool).owned kept.1, (bytesCounted_iff kept.1 kept.2).mpr exactly⟩
  exact both.2

/-- **A look finds the best fit**, if a cached region serves the call, and lends it. -/
theorem look_best {handle : Nat} {bytes : UInt64} {node : Option UInt32}
    (called : pool.calls.lookup handle = some ⟨bytes, node, false⟩)
    (cached : ∃ region ∈ pool.inner.cached, region.serves bytes node = true) :
    ∃ region, BestFit bytes node pool.inner.cached region ∧
      (step allocator (.look handle) pool).leases.lookup handle =
        some ⟨⟨some region, bytes⟩, bytes, node⟩ := by
  rcases takeCached_cases bytes node pool.inner with ⟨-, nothing⟩ | ⟨region, rest, best, -, taken⟩
  · obtain ⟨region, among, serves⟩ := cached
    rw [nothing region among] at serves
    cases serves
  · refine ⟨region, best, ?_⟩
    simp only [step, called, taken, AList.lookup_insert]

/-- **The pinned pool owns its regions.** In every state that steps reach: a region that was allocated is in
one place, once; a lease fits its region, which has the node it was asked for, and is read without a panic; a
call takes the least cached region that serves it, if there is one. The counter is the sum of the cached
bytes, and within the limit, in every run that keeps exactly, as every run does below the greatest `usize`. -/
theorem pool_owned
    (run : Reaches (step allocator) (fun _ _ => True) (withAllocator limit state) pool) :
    (∀ serial, pool.leased serial + countSerial serial pool.inner.cached + pool.freed.count serial =
      if serial < pool.made then 1 else 0) ∧
    (∀ handle lent, pool.leases.lookup handle = some lent → ∃ region,
      lent.lease.region = some region ∧ lent.lease.len = lent.bytes ∧ lent.bytes ≤ region.capacity ∧
        region.numaNode = lent.node ∧ lent.lease.deref = .ok (region.pointer, lent.bytes)) ∧
    (∀ handle bytes node, pool.calls.lookup handle = some ⟨bytes, node, false⟩ →
      (∃ region ∈ pool.inner.cached, region.serves bytes node = true) →
        ∃ region, BestFit bytes node pool.inner.cached region ∧
          (step allocator (.look handle) pool).leases.lookup handle =
            some ⟨⟨some region, bytes⟩, bytes, node⟩) ∧
    (Reaches (step allocator) KeepsExactly (withAllocator limit state) pool ∨
        limit.toNat < 2 ^ 64 - 1 →
      pool.inner.cachedBytes.toNat = totalCapacity pool.inner.cached ∧
        totalCapacity pool.inner.cached ≤ limit.toNat) := by
  obtain ⟨owned, same⟩ := owned_reached run
  refine ⟨owned.placed, fun handle lent held => ?_, fun handle bytes node => look_best, fun exactly => ?_⟩
  · obtain ⟨region, some_, len, fits, node⟩ := owned.lent handle lent held
    refine ⟨region, some_, len, fits, node, ?_⟩
    unfold PinnedLease.deref
    rw [some_, len]
  · have kept : Reaches (step allocator) KeepsExactly (withAllocator limit state) pool := by
      rcases exactly with kept | small
      · exact kept
      · refine (run.restrict (I := fun pool => pool.inner.maxCachedBytes = limit) rfl
          fun label pool same _ => ⟨keepsExactly_of_limit (same ▸ small) label, ?_⟩).1
        exact (step_limit label pool).trans same
    have bytes := bytesCounted_reached kept
    exact ⟨bytes.counted, same ▸ bytes.within⟩

/-- An allocator that hands out addresses one after another. -/
def bumpAllocator : PageAllocator UInt64 where
  name := "bump"
  allocate bytes _ next := (.ok next, next + bytes)
  deallocate _ _ _ next := next
  numaSupported _ := true

/-- A lease that came back is lent again, to a smaller request. -/
theorem pool_owned_reused :
    let steps : List (PoolStep UInt64) := [.acquire 4096 none, .look 0, .allocate 0, .drop 0,
      .acquire 1024 none, .look 1]
    let pool := steps.foldl (fun pool label => step bumpAllocator label pool) (withAllocator 32768 1)
    pool.leased 0 = 1 ∧ pool.inner.cachedBytes.toNat = totalCapacity pool.inner.cached := by
  intro steps pool
  have run : Reaches (step bumpAllocator) (fun _ _ => True) (withAllocator 32768 1) pool :=
    Reaches.foldl (fun _ _ => trivial) steps _
  obtain ⟨-, -, -, bytes⟩ := pool_owned run
  exact ⟨by decide, (bytes (.inr (by decide))).1⟩

def halfUsize : UInt64 := 9223372036854775808

def greatestUsize : UInt64 := 18446744073709551615

/-- **Where the limit is the greatest `usize`**, two cached regions of `2 ^ 63` bytes are counted as none. -/
theorem unlimited_wraps :
    let steps : List (PoolStep UInt64) := [.acquire halfUsize none, .look 0, .allocate 0,
      .acquire halfUsize none, .look 1, .allocate 1, .drop 0, .drop 1]
    let pool := steps.foldl (fun pool label => step bumpAllocator label pool)
      (withAllocator greatestUsize 1)
    Reaches (step bumpAllocator) (fun _ _ => True) (withAllocator greatestUsize 1) pool ∧
      pool.inner.cachedBytes = 0 ∧ totalCapacity pool.inner.cached = 2 ^ 64 ∧
      ¬ pool.BytesCounted := by
  intro steps pool
  have sums : pool.inner.cachedBytes = 0 ∧ totalCapacity pool.inner.cached = 2 ^ 64 := by
    decide +kernel
  refine ⟨Reaches.foldl (fun _ _ => trivial) steps _, sums.1, sums.2, fun counted => ?_⟩
  have equal := counted.counted
  rw [sums.1, sums.2] at equal
  exact absurd equal (by decide)

end PinnedMemoryPool

end RivetCache
