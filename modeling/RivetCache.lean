import RivetCache.Library.Saturating
import RivetCache.Library.Table
import RivetCache.Library.WriteLog
import RivetCache.Library.Fallible
import RivetCache.Library.Run
import RivetCache.Library.Program
import RivetCache.Library.LittleEndian
import RivetCache.Library.Census
import RivetCache.Library.Transcript
import RivetCache.Library.Checked
import RivetCache.Library.Substring
import RivetCache.Library.Interval
import RivetCache.Library.Recency
import RivetCache.Library.Parties
import RivetCache.Base
import RivetCache.Policy
import RivetCache.Store
import RivetCache.Stores.Exact
import RivetCache.Stores.Layered
import RivetCache.Stores.LayeredExact
import RivetCache.Stores.File
import RivetCache.Cache.Model
import RivetCache.Cache.Evict
import RivetCache.Cache.Run
import RivetCache.Cache.Accounting
import RivetCache.Cache.Slot
import RivetCache.Cache.Refine
import RivetCache.Cache.Restart
import RivetCache.Cache.Coherence
import RivetCache.Cache.Expiry
import RivetCache.Cache.LastWrite
import RivetCache.Cache.Pins
import RivetCache.Cache.Retention
import RivetCache.Cache.Concurrent
import RivetCache.Cache.Telemetry
import RivetCache.Kv.Model
import RivetCache.Kv.Tier
import RivetCache.Kv.Prefix
import RivetCache.Reuse.Model
import RivetCache.Reuse.Search
import RivetCache.Reuse.Segment
import RivetCache.Reuse.Quality
import RivetCache.Reuse.Boundary
import RivetCache.Kv.WriteThrough
import RivetCache.Kv.Copies
import RivetCache.Kv.Generations
import RivetCache.Kv.Deletion
import RivetCache.Kv.Envelope
import RivetCache.Kv.CacheTier
import RivetCache.Kv.Move
import RivetCache.Control.Quota
import RivetCache.Library.Vec
import RivetCache.Memory.Pool
import RivetCache.Control.Query
import RivetCache.Control.Fleet
import RivetCache.Control.Leases
import RivetCache.Control.Response
import RivetCache.Library.Percent
import RivetCache.Library.Json
import RivetCache.Library.JsonScan
import RivetCache.Runtime.Model
import RivetCache.Runtime.Counters
import RivetCache.Runtime.Places
import RivetCache.Runtime.LifeCycle
import RivetCache.Runtime.Ledger
import RivetCache.Kv.Kept
import RivetCache.Runtime.Watched
import RivetCache.Mp.Model
import RivetCache.Library.Glob
import RivetCache.Kv.Key
import RivetCache.Connectors.Redis
import RivetCache.Library.Reader
import RivetCache.Remote.Model
import RivetCache.Remote.Codec
import RivetCache.Remote.Reply
import RivetCache.Remote.Transparent
import RivetCache.Remote.RoundTrip
import RivetCache.Connectors.RedisClear
import RivetCache.Codec.Frame
import RivetCache.Library.Allocation
import RivetCache.Device.Hands
import RivetCache.Device.Linear
import RivetCache.Device.Balance
import RivetCache.Device.Put
import RivetCache.Device.Hip
import RivetCache.Device.HipRegistry
import RivetCache.LlamaServer.HandOver
import RivetCache.Kv.Capture
import RivetCache.Mp.Registry
import RivetCache.Mp.Ended
import RivetCache.Mp.Published
import RivetCache.Adapters.Model
import RivetCache.Adapters.Relocated
import RivetCache.Reuse.Apply
import RivetCache.Cache.Rounds
import RivetCache.Cache.ExactLru
import RivetCache.Stores.Format
import RivetCache.Stores.Leftover
import RivetCache.Stores.Race
import RivetCache.Tiers.Lossy
import RivetCache.Stores.LayeredAtomic
import RivetCache.Stores.LayeredRace
import RivetCache.Connectors.Envelope
import RivetCache.Connectors.NativeSdk
import RivetCache.Library.Digits
import RivetCache.Library.Lines
import RivetCache.Connectors.Resp
import RivetCache.Connectors.Chunked
import RivetCache.Library.Calendar
import RivetCache.Connectors.Timestamp
import RivetCache.Codec.Hostile
import RivetCache.Kv.Identity
import RivetCache.Kv.Blocks
import RivetCache.Kv.PrefixMap
import RivetCache.Kv.Lookup
import RivetCache.Kv.Prefetch
import RivetCache.Library.History
import RivetCache.Kv.Pinning
import RivetCache.Mp.Lookup
import RivetCache.Memory.Owned
import RivetCache.Library.ForEach
import RivetCache.Runtime.Results
import RivetCache.Distributed.Handoff
import RivetCache.Library.SortedMap
import RivetCache.Library.PrefixCode
import RivetCache.Observability.Model
import RivetCache.Observability.Kinds
import RivetCache.Observability.Render
import RivetCache.LlamaServer.Residue
import RivetCache.Tiers.Lossy
import RivetCache.Observability.Instrumented
import RivetCache.Tiers.Remote
import RivetCache.Tiers.Codec
import RivetCache.Tiers.Stack
import RivetCache.Observability.Exact
import RivetCache.Library.Log
import RivetCache.Events.Model
import RivetCache.Events.Bus
import RivetCache.Observability.Crate
import RivetCache.Library.FlatMemory
import RivetCache.Device.Flat
import RivetCache.Device.Regions
import RivetCache.Library.Attempts
import RivetCache.Library.Signature
import RivetCache.Connectors.S3Bucket
