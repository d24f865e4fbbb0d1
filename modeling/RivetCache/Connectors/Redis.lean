/-
**`connectors.rs`: a tier on a Redis server.**

The entries of a tier are the values of the server under `namespace:cache_key`. `clear` goes through the
keys of the server with `SCAN MATCH namespace:*`, and deletes what each page lists.

The server is not part of the crate. A `RedisServer` answers commands, and `Documented` is what its manual
says of the two commands `clear` sends: `SCAN` changes nothing, lists keys that match the pattern, and a
full iteration misses no key that matches and is there all the time; `DEL` removes the keys it names.
-/

import RivetCache.Kv.Key
import RivetCache.Library.Glob
import RivetCache.Library.Fallible

set_option linter.unusedSectionVars false

namespace RivetCache

open Library

/-! ### Replies -/

/-- `RespValue`. -/
inductive RespValue where
  | simple (value : String)
  | error (value : String)
  | integer (value : Int)
  | bulk (value : Option (List UInt8))
  | array (values : Option (List RespValue))

/-- The `Debug` text of a list of bytes. -/
def debugBytes (bytes : List UInt8) : String :=
  "[" ++ String.intercalate ", " (bytes.map fun byte => toString byte.toNat) ++ "]"

mutual

/-- The `Debug` text of a reply. -/
def RespValue.debug : RespValue → String
  | .simple value => s!"Simple({value.quote})"
  | .error value => s!"Error({value.quote})"
  | .integer value => s!"Integer({value})"
  | .bulk none => "Bulk(None)"
  | .bulk (some value) => s!"Bulk(Some({debugBytes value}))"
  | .array none => "Array(None)"
  | .array (some values) => "Array(Some([" ++ RespValue.debugAll values ++ "]))"

/-- The `Debug` texts of replies. -/
def RespValue.debugAll : List RespValue → String
  | [] => ""
  | [value] => value.debug
  | value :: rest => value.debug ++ ", " ++ RespValue.debugAll rest

end

/-- `protocol_error` of `connectors.rs`. -/
def connectorError (message : String) : IoError := ⟨.invalidData, message⟩

/-! ### The server -/

/-- A Redis server: what `command` reads in reply, and the values it holds. -/
structure RedisServer (σ : Type) where
  command : List (List UInt8) → σ → Except IoError RespValue × σ
  value : σ → List UInt8 → Option (List UInt8)

/-! ### The tier -/

/-- `RedisKvTier`; the credentials, the dialer and the timeouts are those of the connection. -/
structure RedisKvTier where
  name : String
  address : String
  keyNamespace : String
  maxValueBytes : Nat

/-- `is_ascii_control`, or a space. -/
def controlOrSpace (byte : UInt8) : Bool := decide (byte < 32) || byte == 127 || byte == 32

/-- `RedisKvTier::with_dialer`. -/
def RedisKvTier.withDialer (name address keyNamespace : String) (maxValueBytes : Nat) :
    Except IoError RedisKvTier :=
  if isBlank name || isBlank address || isBlank keyNamespace || maxValueBytes == 0 ||
      (utf8Bytes keyNamespace).any controlOrSpace then
    .error ⟨.invalidInput,
      "Redis tier requires valid name/address/namespace and a non-zero value limit"⟩
  else .ok ⟨name, address, keyNamespace, maxValueBytes⟩

/-- What the keys of a namespace begin with: the namespace and a colon. -/
def keyPrefix (keyNamespace : String) : List UInt8 := utf8Bytes keyNamespace ++ [58]

/-- The arguments of `SCAN`. -/
def scanCommand (cursor pattern : List UInt8) : List (List UInt8) :=
  [utf8Bytes "SCAN", cursor, utf8Bytes "MATCH", pattern, utf8Bytes "COUNT", utf8Bytes "256"]

/-- The cursor a full iteration begins and ends with. -/
def zeroCursor : List UInt8 := utf8Bytes "0"

/-- `clear`, the fields of a `SCAN` reply: the cursor and the values. -/
def scanPage : RespValue → Except IoError (List UInt8 × List RespValue)
  | .array (some [cursor, .array (some values)]) =>
      match cursor with
      | .bulk (some value) => .ok (value, values)
      | .simple value => .ok (utf8Bytes value, values)
      | _ => .error (connectorError "SCAN cursor is invalid")
  | .array (some [_, _]) => .error (connectorError "SCAN key list is invalid")
  | .array (some _) => .error (connectorError "SCAN response does not have two fields")
  | _ => .error (connectorError "SCAN returned an unexpected response")

/-- `clear`, the keys of a page. -/
def bulkKeys : List RespValue → Except IoError (List (List UInt8))
  | [] => .ok []
  | .bulk (some key) :: rest =>
      match bulkKeys rest with
      | .error error => .error error
      | .ok keys => .ok (key :: keys)
  | _ :: _ => .error (connectorError "SCAN returned a non-bulk key")

namespace RedisKvTier

variable {σ : Type} (tier : RedisKvTier) (server : RedisServer σ)

/-- `redis_key`. -/
def redisKey (digest : Digest) (key : KvBlockKey) : List UInt8 :=
  keyPrefix tier.keyNamespace ++ key.cacheKey digest

/-- `clear`, the deletion of a page. -/
def deletePage (keys : List (List UInt8)) (state : σ) : Except IoError Unit × σ :=
  if keys.isEmpty then (.ok (), state)
  else
    match server.command (utf8Bytes "DEL" :: keys) state with
    | (.error error, state) => (.error error, state)
    | (.ok (.integer removed), state) =>
        if 0 ≤ removed then (.ok (), state)
        else (.error (connectorError s!"DEL batch returned {(RespValue.integer removed).debug}"), state)
    | (.ok other, state) => (.error (connectorError s!"DEL batch returned {other.debug}"), state)

/-- `clear`, the loop. -/
def clearRounds (pattern : List UInt8) : Nat → List UInt8 → σ → Except IoError Unit × σ
  | 0, _, state =>
      (.error ⟨.other, "Redis clear exceeded the bounded SCAN iteration limit"⟩, state)
  | rounds + 1, cursor, state =>
      andThen (server.command (scanCommand cursor pattern) state) fun response state =>
        match scanPage response with
        | .error error => (.error error, state)
        | .ok (cursor, values) =>
            match bulkKeys values with
            | .error error => (.error error, state)
            | .ok keys =>
                andThen (deletePage server keys state) fun _ state =>
                  if cursor = zeroCursor then (.ok (), state)
                  else clearRounds pattern rounds cursor state

/-- `clear`. -/
def clear (state : σ) : Except IoError Unit × σ :=
  clearRounds server (keyPrefix tier.keyNamespace ++ [42]) 100000 zeroCursor state

end RedisKvTier

/-! ### What the manual says -/

/-- The reply of a `SCAN`: the next cursor and the keys of the page. -/
def ScanReply (reply : Except IoError RespValue) (next : List UInt8) (keys : List (List UInt8)) :
    Prop :=
  ∃ response values, reply = .ok response ∧ scanPage response = .ok (next, values) ∧
    bulkKeys values = .ok keys

section

variable {σ : Type} (server : RedisServer σ)

/-- **A full iteration that misses a key**: the key is there at every `SCAN`, and on no page. Between two
of them other keys may be deleted. -/
inductive ScanMisses (pattern key : List UInt8) : List UInt8 → σ → Prop
  | last {cursor : List UInt8} {state : σ} {keys : List (List UInt8)} :
      server.value state key ≠ none →
      ScanReply (server.command (scanCommand cursor pattern) state).1 zeroCursor keys → key ∉ keys →
      ScanMisses pattern key cursor state
  | next {cursor next : List UInt8} {state : σ} {keys deleted : List (List UInt8)} {after : σ} :
      server.value state key ≠ none →
      ScanReply (server.command (scanCommand cursor pattern) state).1 next keys → key ∉ keys →
      next ≠ zeroCursor → key ∉ deleted →
      (after = (server.command (scanCommand cursor pattern) state).2 ∨
        after = (server.command (utf8Bytes "DEL" :: deleted)
          (server.command (scanCommand cursor pattern) state).2).2) →
      ScanMisses pattern key next after → ScanMisses pattern key cursor state

/-- **What the manual of the server says** of `SCAN` and of `DEL`. -/
structure RedisServer.Documented (server : RedisServer σ) : Prop where
  scan_keeps : ∀ cursor pattern state,
    server.value (server.command (scanCommand cursor pattern) state).2 = server.value state
  scan_matches : ∀ cursor pattern state next keys,
    ScanReply (server.command (scanCommand cursor pattern) state).1 next keys →
      ∀ key ∈ keys, globMatch pattern key = true
  scan_complete : ∀ pattern key state, globMatch pattern key = true →
    ¬ ScanMisses server pattern key zeroCursor state
  del_removes : ∀ keys state removed,
    (server.command (utf8Bytes "DEL" :: keys) state).1 = .ok (.integer removed) → 0 ≤ removed →
      server.value (server.command (utf8Bytes "DEL" :: keys) state).2 =
        fun key => if key ∈ keys then none else server.value state key

end

end RivetCache
