/-
**Runs of a context cache.**

A run is a sequence of calls, each with what it meets outside the lock. `ContextCache.step` is the
effect of one call; `Library.Reaches` closes it under the calls a statement permits.
-/

import RivetCache.Cache.Evict
import RivetCache.Library.Run

set_option linter.unusedSectionVars false

namespace RivetCache

open Library

variable {σ : Type}

/-- A call of the public interface. -/
inductive Call where
  | put (amb : Ambient) (key : String) (value : List UInt8) (ttl : Option Duration) (pinned : Bool)
  | get (amb : Ambient) (key : String)
  | invalidate (amb : Ambient) (key : String)
  | clear (amb : Ambient)

/-- What a call meets outside the lock. -/
def Call.ambient : Call → Ambient
  | .put amb _ _ _ _ => amb
  | .get amb _ => amb
  | .invalidate amb _ => amb
  | .clear amb => amb

/-- The state a call leaves, whether it succeeds or fails. -/
def ContextCache.step (cache : ContextCache σ) (call : Call) (s : CacheState σ) : CacheState σ :=
  match call with
  | .put amb key value ttl pinned => (cache.put amb key value ttl pinned s).2
  | .get amb key => (cache.get amb key s).2
  | .invalidate amb key => (cache.invalidate amb key s).2
  | .clear amb => (cache.clear amb s).2

/-- A cache over the bundled volatile store, keyed by SHA-256 digests. -/
def ContextCache.volatile (maxMemoryBytes maxDiskBytes : Nat) : ContextCache VolatileStore where
  maxMemoryBytes := maxMemoryBytes
  maxDiskBytes := maxDiskBytes
  defaultTtl := Duration.zero
  store := some volatileStore
  keyStrategy := sha256KeyStrategy

/-- A key of 64 equal characters. -/
def repeatedKey (c : Char) : String := String.ofList (List.replicate 64 c)

example : sha256KeyStrategy.Accepts (repeatedKey 'a') := by decide

end RivetCache
