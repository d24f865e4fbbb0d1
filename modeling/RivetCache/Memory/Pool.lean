/-
**`memory.rs`: the pool of pinned memory.**

A `PinnedMemoryPool` lends regions of an allocator, which is a parameter: any, with a state of its own that
changes in any way between calls. A region that comes back is cached, or deallocated. `acquire` takes the lock
once; where it finds nothing cached it gives the lock back before it calls the allocator, so its parts are
steps of their own. The drop of a lease changes the pool under the lock.

Regions are known here by the number of their allocation, since an allocator may give one address twice. The
numbers of those that were deallocated are kept in order.
-/

import RivetCache.Base
import RivetCache.Library.Run
import RivetCache.Library.Table
import RivetCache.Library.Vec

set_option linter.unusedSectionVars false

namespace RivetCache

open Library

/-! ### Allocators, regions and leases -/

/-- `PageAllocator`, on a state of its own. -/
structure PageAllocator (σ : Type) where
  name : String
  allocate : UInt64 → Option UInt32 → σ → Except IoError UInt64 × σ
  deallocate : UInt64 → UInt64 → Option UInt32 → σ → σ
  numaSupported : σ → Bool

/-- `Region`, with the number of its allocation. -/
structure Region where
  pointer : UInt64
  capacity : UInt64
  numaNode : Option UInt32
  serial : Nat
  deriving DecidableEq

/-- `PinnedLease`, but for the pool that it returns to. -/
structure PinnedLease where
  region : Option Region
  len : UInt64
  deriving DecidableEq

/-- `PoolInner`. -/
structure PoolInner (σ : Type) where
  allocator : σ
  maxCachedBytes : UInt64
  cached : List Region
  cachedBytes : UInt64
  allocations : UInt64
  reuses : UInt64

/-- `PinnedPoolStats`. -/
structure PinnedPoolStats where
  cachedBytes : UInt64
  cachedRegions : UInt64
  allocations : UInt64
  reuses : UInt64
  deriving DecidableEq

/-- `usize::saturating_add`. -/
def saturatingAdd (left right : UInt64) : UInt64 :=
  if left.toNat + right.toNat < 2 ^ 64 then left + right else UInt64.ofNat (2 ^ 64 - 1)

/-- `deref`: the address and the length of the slice. -/
def PinnedLease.deref (lease : PinnedLease) : Except Fault (UInt64 × UInt64) :=
  match lease.region with
  | none => .error .panic
  | some region => .ok (region.pointer, lease.len)

section

variable {σ : Type} (allocator : PageAllocator σ)

/-- `acquire`, before it takes the lock. -/
def acquireCheck (bytes : UInt64) (node : Option UInt32) (inner : PoolInner σ) : Except IoError Unit :=
  if bytes = 0 then
    .error ⟨.invalidInput, "pinned allocation size must be greater than zero"⟩
  else if node.isSome ∧ allocator.numaSupported inner.allocator = false then
    .error ⟨.unsupported, s!"allocator {allocator.name} does not support NUMA placement"⟩
  else .ok ()

/-- A region that a request can have. -/
def Region.serves (bytes : UInt64) (node : Option UInt32) (region : Region) : Bool :=
  decide (region.numaNode = node ∧ bytes ≤ region.capacity)

/-- `acquire`, the index of the region that it selects. -/
def selectCached (bytes : UInt64) (node : Option UInt32) (cached : List Region) : Option Nat :=
  (minByKey (fun entry : Region × Nat => entry.1.capacity.toNat)
    (cached.zipIdx.filter fun entry => entry.1.serves bytes node)).map fun entry => entry.2

/-- `acquire`, under the lock: a lease of a cached region, if there is one. -/
def takeCached (bytes : UInt64) (node : Option UInt32) (inner : PoolInner σ) :
    Except Fault (Option PinnedLease) × PoolInner σ :=
  match selectCached bytes node inner.cached with
  | none => (.ok none, inner)
  | some index =>
      match swapRemove index inner.cached with
      | none => (.error .panic, inner)
      | some (region, rest) =>
          (.ok (some ⟨some region, bytes⟩),
            { inner with
              cached := rest
              cachedBytes := inner.cachedBytes - region.capacity
              reuses := inner.reuses + 1 })

/-- `acquire`, without the lock: a lease of a region that is allocated. -/
def allocateRegion (bytes : UInt64) (node : Option UInt32) (serial : Nat) (inner : PoolInner σ) :
    Except IoError PinnedLease × PoolInner σ :=
  match allocator.allocate bytes node inner.allocator with
  | (.error error, state) => (.error error, { inner with allocator := state })
  | (.ok pointer, state) =>
      (.ok ⟨some ⟨pointer, bytes, node, serial⟩, bytes⟩,
        { inner with allocator := state, allocations := inner.allocations + 1 })

/-- The drop of a region. -/
def dropRegion (region : Region) (inner : PoolInner σ) : PoolInner σ :=
  { inner with
    allocator :=
      allocator.deallocate region.pointer region.capacity region.numaNode inner.allocator }

/-- The drop of a lease: the region that it deallocates, and the pool it leaves. -/
def dropLease (lease : PinnedLease) (inner : PoolInner σ) : Option Region × PoolInner σ :=
  match lease.region with
  | none => (none, inner)
  | some region =>
      if region.capacity > inner.maxCachedBytes then (some region, dropRegion allocator region inner)
      else if saturatingAdd inner.cachedBytes region.capacity > inner.maxCachedBytes then
        (some region, dropRegion allocator region inner)
      else
        (none, { inner with
          cachedBytes := inner.cachedBytes + region.capacity
          cached := inner.cached ++ [region] })

/-- `stats`. -/
def PoolInner.stats (inner : PoolInner σ) : PinnedPoolStats :=
  ⟨inner.cachedBytes, UInt64.ofNat inner.cached.length, inner.allocations, inner.reuses⟩

/-! ### Runs -/

/-- A call of `acquire` that has not returned, and whether it has found nothing cached. -/
structure AcquireCall where
  bytes : UInt64
  node : Option UInt32
  missed : Bool
  deriving DecidableEq

/-- A lease, with what it was asked for. -/
structure Lent where
  lease : PinnedLease
  bytes : UInt64
  node : Option UInt32
  deriving DecidableEq

/-- The pool, the calls that have not returned, the leases that live, and the numbers of the regions that
were deallocated; `made` numbers the next region, `asked` the next call. -/
structure PinnedMemoryPool (σ : Type) where
  inner : PoolInner σ
  calls : Table Nat AcquireCall
  leases : Table Nat Lent
  freed : List Nat
  made : Nat
  asked : Nat

/-- `with_allocator`. -/
def PinnedMemoryPool.withAllocator (maxCachedBytes : UInt64) (state : σ) : PinnedMemoryPool σ :=
  ⟨⟨state, maxCachedBytes, [], 0, 0, 0⟩, ∅, ∅, [], 0, 0⟩

/-- A step of a thread, or of what surrounds the allocator. -/
inductive PoolStep (σ : Type) where
  | acquire (bytes : UInt64) (node : Option UInt32)
  | look (call : Nat)
  | allocate (call : Nat)
  | drop (lease : Nat)
  | outside (state : σ)

namespace PinnedMemoryPool

/-- The effect of a step. A call that ends hands out a lease of its number. -/
def step (label : PoolStep σ) (pool : PinnedMemoryPool σ) : PinnedMemoryPool σ :=
  match label with
  | .acquire bytes node =>
      match acquireCheck allocator bytes node pool.inner with
      | .error _ => pool
      | .ok () =>
          { pool with
            calls := pool.calls.insert pool.asked ⟨bytes, node, false⟩
            asked := pool.asked + 1 }
  | .look call =>
      match pool.calls.lookup call with
      | some ⟨bytes, node, false⟩ =>
          match takeCached bytes node pool.inner with
          | (.error _, inner) => { pool with inner := inner, calls := pool.calls.erase call }
          | (.ok none, inner) =>
              { pool with inner := inner, calls := pool.calls.insert call ⟨bytes, node, true⟩ }
          | (.ok (some lease), inner) =>
              { pool with
                inner := inner
                calls := pool.calls.erase call
                leases := pool.leases.insert call ⟨lease, bytes, node⟩ }
      | _ => pool
  | .allocate call =>
      match pool.calls.lookup call with
      | some ⟨bytes, node, true⟩ =>
          match allocateRegion allocator bytes node pool.made pool.inner with
          | (.error _, inner) => { pool with inner := inner, calls := pool.calls.erase call }
          | (.ok lease, inner) =>
              { pool with
                inner := inner
                calls := pool.calls.erase call
                leases := pool.leases.insert call ⟨lease, bytes, node⟩
                made := pool.made + 1 }
      | _ => pool
  | .drop lease =>
      match pool.leases.lookup lease with
      | none => pool
      | some lent =>
          let dropped := dropLease allocator lent.lease pool.inner
          { pool with
            inner := dropped.2
            leases := pool.leases.erase lease
            freed := pool.freed ++ (dropped.1.map fun region => region.serial).toList }
  | .outside state => { pool with inner := { pool.inner with allocator := state } }

end PinnedMemoryPool

end

end RivetCache
