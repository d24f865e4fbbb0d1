/-
**`control.rs`: requests and their answers.**

`routeRequest` answers a request to the controller; what the metrics registry renders is a parameter. The
answers about nodes and tenants, and the body of an error, are JSON that is put together as text.

* `Escapes`: a text without control characters, but for line feeds and carriage returns: the texts that
  `json_escape` is right about;
* `controller_json`: in every state that calls and requests reach, the answers denote the fields of the
  state exactly where the texts in them are such;
* `endpoint_breaks_nodes`: one heartbeat whose endpoint is a control character makes the list of nodes
  something that is not JSON.
-/

import RivetCache.Control.Fleet
import RivetCache.Control.Leases
import RivetCache.Control.Query
import RivetCache.Library.JsonScan

set_option linter.unusedSectionVars false

namespace RivetCache

open Library

/-! ### Texts -/

/-- `json_escape`. -/
def jsonEscape (value : String) : String :=
  String.ofList (replaceChar '\r' ['\\', 'r'] (replaceChar '\n' ['\\', 'n']
    (replaceChar '"' ['\\', '"'] (replaceChar '\\' ['\\', '\\'] value.toList))))

/-- A text between quotes. -/
def quoted (text : String) : String := "\"" ++ text ++ "\""

/-- An object, of its names and the texts of its values. -/
def jsonObject (members : List (String × String)) : String :=
  "\x7b" ++ ",".intercalate (members.map fun member => quoted member.1 ++ ":" ++ member.2) ++ "\x7d"

def jsonArray (items : List String) : String := "[" ++ ",".intercalate items ++ "]"

def WorkerRole.name : WorkerRole → String
  | .prefill => "prefill"
  | .decode => "decode"
  | .hybrid => "hybrid"

/-- `node_json`. -/
def nodeJson (node : FleetNode) : String :=
  jsonObject [("id", quoted (jsonEscape node.id)), ("endpoint", quoted (jsonEscape node.endpoint)),
    ("role", quoted node.role.name), ("capacity_bytes", toString node.capacityBytes),
    ("used_bytes", toString node.usedBytes),
    ("last_seen_epoch_secs", toString node.lastSeenEpochSecs)]

/-- `nodes_json`. -/
def nodesJson (nodes : List FleetNode) : String := jsonArray (nodes.map nodeJson)

/-- `TenantSnapshot`. -/
structure TenantSnapshot where
  tenant : String
  quota : TenantQuota
  usage : TenantUsage

/-- `snapshots`. -/
def snapshots (tenants : Tenants) : List TenantSnapshot :=
  (inKeyOrder tenants).map fun entry => ⟨entry.1, entry.2.quota, entry.2.usage⟩

/-- `tenants_json`, a tenant. -/
def tenantJson (tenant : TenantSnapshot) : String :=
  jsonObject [("tenant", quoted (jsonEscape tenant.tenant)),
    ("max_bytes", toString tenant.quota.maxBytes), ("max_entries", toString tenant.quota.maxEntries),
    ("max_inflight", toString tenant.quota.maxInflight),
    ("used_bytes", toString tenant.usage.usedBytes),
    ("used_entries", toString tenant.usage.usedEntries),
    ("reserved_bytes", toString tenant.usage.reservedBytes),
    ("reserved_entries", toString tenant.usage.reservedEntries),
    ("inflight", toString tenant.usage.inflight)]

/-- `tenants_json`. -/
def tenantsJson (tenants : List TenantSnapshot) : String := jsonArray (tenants.map tenantJson)

/-- `handle_connection`, the body of an error. -/
def errorJson (error : IoError) : String := jsonObject [("error", quoted (jsonEscape error.message))]

/-! ### Requests -/

/-- `required`. -/
def required (params : Table String String) (name : String) : Except IoError String :=
  ((params.lookup name).filter fun value => !value.isEmpty).elim
    (.error ⟨.invalidInput, s!"missing {name}"⟩) .ok

/-- `parse_u64`. -/
def parseU64 (params : Table String String) (name : String) : Except IoError Nat := do
  let value ← required params name
  (parseUnsigned 10 u64Max value.toList).elim (.error ⟨.invalidInput, s!"invalid {name}"⟩) .ok

/-- `route_request`, the role of a heartbeat. -/
def parseRole (params : Table String String) : Except IoError WorkerRole := do
  let role ← required params "role"
  if role = "prefill" then .ok .prefill
  else if role = "decode" then .ok .decode
  else if role = "hybrid" then .ok .hybrid
  else .error ⟨.invalidInput, "invalid worker role"⟩

/-- What a heartbeat is called with. -/
structure HeartbeatParams where
  id : String
  endpoint : String
  role : WorkerRole
  capacityBytes : Nat
  usedBytes : Nat

/-- `route_request`, what a heartbeat is called with. -/
def parseHeartbeat (params : Table String String) : Except IoError HeartbeatParams := do
  let role ← parseRole params
  let id ← required params "id"
  let endpoint ← required params "endpoint"
  let capacityBytes ← parseU64 params "capacity_bytes"
  let usedBytes ← parseU64 params "used_bytes"
  .ok ⟨id, endpoint, role, capacityBytes, usedBytes⟩

/-- `route_request`, the quota of a tenant. -/
def parseQuota (params : Table String String) : Except IoError TenantQuota := do
  let maxBytes ← parseU64 params "max_bytes"
  let maxEntries ← parseU64 params "max_entries"
  let maxInflight ← parseU64 params "max_inflight"
  .ok ⟨maxBytes, maxEntries, maxInflight⟩

/-- `CacheController`, but for its metrics. -/
structure CacheController where
  quotas : QuotaManager
  fleet : FleetRegistry

def CacheController.new : CacheController := ⟨.new, ∅⟩

/-- The status, the content type and the body of an answer. -/
structure Response where
  status : Nat
  contentType : String
  body : String
  deriving DecidableEq

def jsonResponse (body : String) : Response := ⟨200, "application/json", body⟩

/-- `io::Result` among the ways a call ends. -/
def orFault {α : Type} (result : Except IoError α) : Except Fault α :=
  match result with
  | .error error => .error (.error error)
  | .ok value => .ok value

/-- `route_request`, a heartbeat. -/
def routeHeartbeat (clock : Option Nat) (params : Table String String) (c : CacheController) :
    Except Fault Response × CacheController :=
  match parseHeartbeat params with
  | .error error => (.error (.error error), c)
  | .ok sent =>
      let done :=
        heartbeat clock sent.id sent.endpoint sent.role sent.capacityBytes sent.usedBytes c.fleet
      (orFault (done.1.map fun node => jsonResponse (nodeJson node)), { c with fleet := done.2 })

/-- `route_request`, a tenant's quota. -/
def routeQuota (segment : List Char) (params : Table String String) (c : CacheController) :
    Except Fault Response × CacheController :=
  match percentDecode (String.ofList segment) with
  | .error fault => (.error fault, c)
  | .ok tenant =>
      match parseQuota params with
      | .error error => (.error (.error error), c)
      | .ok quota =>
          let done := setQuota tenant quota c.quotas.tenants
          (orFault (done.1.map fun _ =>
              jsonResponse (jsonObject [("tenant", quoted (jsonEscape tenant)), ("ok", "true")])),
            { c with quotas := { c.quotas with tenants := done.2 } })

def tenantsPath : List Char := "/v1/tenants/".toList

/-- `route_request`. -/
def routeRequest (metrics : Except IoError String) (clock : Option Nat) (method path : String)
    (params : Table String String) (c : CacheController) : Except Fault Response × CacheController :=
  if method = "GET" ∧ path = "/health" then (.ok (jsonResponse "\x7b\"ok\":true\x7d"), c)
  else if method = "GET" ∧ path = "/metrics" then
    (orFault (metrics.map fun text => ⟨200, "text/plain; version=0.0.4", text⟩), c)
  else if method = "GET" ∧ path = "/v1/nodes" then (.ok (jsonResponse (nodesJson c.fleet.nodes)), c)
  else if method = "GET" ∧ path = "/v1/tenants" then
    (.ok (jsonResponse (tenantsJson (snapshots c.quotas.tenants))), c)
  else if method = "POST" ∧ path = "/v1/nodes/heartbeat" then routeHeartbeat clock params c
  else if method = "PUT" ∧ tenantsPath <+: path.toList then
    routeQuota (path.toList.drop tenantsPath.length) params c
  else (.ok ⟨404, "application/json", "\x7b\"error\":\"not found\"\x7d"⟩, c)

/-- `handle_connection`, what is written after a request has been routed. -/
def respond (routed : Except Fault Response) : Except Fault Response :=
  match routed with
  | .ok response => .ok response
  | .error (.error error) => .ok ⟨400, "application/json", errorJson error⟩
  | .error .panic => .error .panic

/-! ### What the texts denote -/

/-- What `json_escape` writes for a character. -/
def escapeChar (char : Char) : List Char :=
  if char = '\\' then ['\\', '\\']
  else if char = '"' then ['\\', '"']
  else if char = '\n' then ['\\', 'n']
  else if char = '\r' then ['\\', 'r']
  else [char]

/-- A character that `json_escape` is right about. -/
def EscapesChar (char : Char) : Prop := 32 ≤ char.toNat ∨ char = '\n' ∨ char = '\r'

/-- **A text that `json_escape` is right about**: its control characters are line feeds and carriage
returns. -/
def Escapes (value : String) : Prop := ∀ char ∈ value.toList, EscapesChar char

theorem escapes_printable {value : String}
    (printable : value.toList.all (fun char => decide (32 ≤ char.toNat)) = true) : Escapes value :=
  fun char among => .inl (of_decide_eq_true (List.all_eq_true.mp printable char among))

/-- The replacements, one after another, are one of each character. -/
theorem jsonEscape_toList (value : String) :
    (jsonEscape value).toList = value.toList.flatMap escapeChar := by
  unfold jsonEscape replaceChar
  rw [String.toList_ofList, List.flatMap_assoc, List.flatMap_assoc, List.flatMap_assoc]
  congr 1
  funext char
  unfold escapeChar
  by_cases backslash : char = '\\'
  · subst backslash
    rfl
  · by_cases quote : char = '"'
    · subst quote
      rfl
    · by_cases feed : char = '\n'
      · subst feed
        rfl
      · simp [backslash, quote, feed]

/-- What is written for a character stands for it. -/
theorem stands_escapeChar {char : Char} (escapes : EscapesChar char) :
    Json.Stands (escapeChar char) char := by
  unfold escapeChar
  by_cases backslash : char = '\\'
  · rw [if_pos backslash, backslash]
    exact Json.stands_escape (by decide) (by decide)
  · by_cases quote : char = '"'
    · rw [if_neg backslash, if_pos quote, quote]
      exact Json.stands_escape (by decide) (by decide)
    · by_cases feed : char = '\n'
      · rw [if_neg backslash, if_neg quote, if_pos feed, feed]
        exact Json.stands_escape (by decide) (by decide)
      · by_cases carriage : char = '\r'
        · rw [if_neg backslash, if_neg quote, if_neg feed, if_pos carriage, carriage]
          exact Json.stands_escape (by decide) (by decide)
        · rw [if_neg backslash, if_neg quote, if_neg feed, if_neg carriage]
          exact Json.stands_self quote backslash
            (escapes.resolve_right (not_or.mpr ⟨feed, carriage⟩))

/-- What is written for a character stays inside the string, but for a control character. -/
theorem staysInside_escapeChar (char : Char) :
    Json.StaysInside (escapeChar char) (EscapesChar char) := by
  unfold escapeChar Json.StaysInside EscapesChar
  by_cases backslash : char = '\\'
  · rw [if_pos backslash, backslash]
    exact .inl (by decide)
  · by_cases quote : char = '"'
    · rw [if_neg backslash, if_pos quote, quote]
      exact .inl (by decide)
    · by_cases feed : char = '\n'
      · rw [if_neg backslash, if_neg quote, if_pos feed, feed]
        exact .inl (by decide)
      · by_cases carriage : char = '\r'
        · rw [if_neg backslash, if_neg quote, if_neg feed, if_pos carriage, carriage]
          exact .inl (by decide)
        · rw [if_neg backslash, if_neg quote, if_neg feed, if_neg carriage]
          by_cases control : char.toNat < 32
          · right
            simp [Json.Place.scan, Json.Place.next, quote, backslash, control]
          · left
            refine ⟨?_, .inl (by omega)⟩
            simp [Json.Place.scan, Json.Place.next, quote, backslash, control]

section

variable {depth : Nat}

theorem quoted_toList (text : String) : (quoted text).toList = '"' :: text.toList ++ ['"'] := by
  simp [quoted]

/-- A string of the answers. -/
theorem faithful_text (value : String) :
    Json.Faithful (Json.readValue (depth + 1)) (quoted (jsonEscape value)).toList (.string value)
      (Escapes value) := by
  rw [quoted_toList, jsonEscape_toList]
  exact Json.Faithful.string (fun _ => stands_escapeChar) staysInside_escapeChar value

/-- A name of a role. -/
theorem faithful_role (role : WorkerRole) :
    Json.Faithful (Json.readValue (depth + 1)) (quoted role.name).toList (.string role.name) True := by
  have plain : Escapes role.name ∧ jsonEscape role.name = role.name := by
    cases role
    all_goals exact ⟨escapes_printable (by decide), by decide⟩
  have faithful : Json.Faithful (Json.readValue (depth + 1)) (quoted (jsonEscape role.name)).toList
      (.string role.name) (Escapes role.name) := faithful_text role.name
  rw [plain.2] at faithful
  exact faithful.imp (iff_true_intro plain.1)

/-- A number of the answers. -/
theorem faithful_number (n : Nat) :
    Json.Faithful (Json.readValue (depth + 1)) (toString n).toList (.number n) True := by
  have digits : (toString n).toList = Nat.toDigits 10 n := Nat.toList_repr
  rw [digits]
  exact Json.Faithful.number n

/-- An object of the answers, as the library writes it. -/
theorem jsonObject_toList (members : List Json.Member) :
    (jsonObject (members.map fun member => (member.name, String.ofList member.text))).toList =
      '\x7b' :: Json.commaText (members.map fun member =>
        Json.memberText member.name.toList member.text) ++ ['\x7d'] := by
  unfold jsonObject Json.commaText Json.memberText
  rw [String.toList_append, String.toList_append, String.toList_intercalate, List.map_map, List.map_map]
  have each : (fun member : Json.Member => '"' :: member.name.toList ++ '"' :: ':' :: member.text) =
      String.toList ∘ (fun member : String × String => quoted member.1 ++ ":" ++ member.2) ∘
        fun member : Json.Member => (member.name, String.ofList member.text) := by
    funext member
    simp [quoted]
  rw [each]
  rfl

theorem jsonArray_toList {α : Type} (text : α → String) (list : List α) :
    (jsonArray (list.map text)).toList =
      '[' :: Json.commaText (list.map fun item => (text item).toList) ++ [']'] := by
  unfold jsonArray Json.commaText
  rw [String.toList_append, String.toList_append, String.toList_intercalate, List.map_map]
  rfl

/-- **An object of the answers** is faithful where its members are. -/
theorem faithful_object {members : List Json.Member}
    (each : ∀ member ∈ members,
      Json.Faithful (Json.readValue depth) member.text member.json member.fine)
    (plain : ∀ member ∈ members, Json.plainName member.name.toList = true) :
    Json.Faithful (Json.readValue (depth + 1))
      (jsonObject (members.map fun member => (member.name, String.ofList member.text))).toList
      (.object (members.map fun member => (member.name, member.json)))
      (∀ member ∈ members, member.fine) := by
  rw [jsonObject_toList]
  exact Json.Faithful.object each plain

/-- A member that is a text, and one that is a number. -/
def textMember (name value : String) : Json.Member :=
  ⟨name, (quoted (jsonEscape value)).toList, .string value, Escapes value⟩

def numberMember (name : String) (n : Nat) : Json.Member := ⟨name, (toString n).toList, .number n, True⟩

theorem faithful_textMember (name value : String) :
    Json.Faithful (Json.readValue (depth + 1)) (textMember name value).text (textMember name value).json
      (textMember name value).fine := by
  unfold textMember
  dsimp only
  exact faithful_text value

theorem faithful_numberMember (name : String) (n : Nat) :
    Json.Faithful (Json.readValue (depth + 1)) (numberMember name n).text (numberMember name n).json
      (numberMember name n).fine := by
  unfold numberMember
  exact faithful_number n

end

/-! ### Nodes, tenants and errors -/

def nodeMembers (node : FleetNode) : List Json.Member :=
  [textMember "id" node.id, textMember "endpoint" node.endpoint,
    ⟨"role", (quoted node.role.name).toList, .string node.role.name, True⟩,
    numberMember "capacity_bytes" node.capacityBytes, numberMember "used_bytes" node.usedBytes,
    numberMember "last_seen_epoch_secs" node.lastSeenEpochSecs]

/-- The fields of a node. -/
def nodeValue (node : FleetNode) : Json :=
  .object [("id", .string node.id), ("endpoint", .string node.endpoint),
    ("role", .string node.role.name), ("capacity_bytes", .number node.capacityBytes),
    ("used_bytes", .number node.usedBytes),
    ("last_seen_epoch_secs", .number node.lastSeenEpochSecs)]

def nodesValue (nodes : List FleetNode) : Json := .array (nodes.map nodeValue)

def tenantMembers (tenant : TenantSnapshot) : List Json.Member :=
  [textMember "tenant" tenant.tenant, numberMember "max_bytes" tenant.quota.maxBytes,
    numberMember "max_entries" tenant.quota.maxEntries,
    numberMember "max_inflight" tenant.quota.maxInflight,
    numberMember "used_bytes" tenant.usage.usedBytes,
    numberMember "used_entries" tenant.usage.usedEntries,
    numberMember "reserved_bytes" tenant.usage.reservedBytes,
    numberMember "reserved_entries" tenant.usage.reservedEntries,
    numberMember "inflight" tenant.usage.inflight]

/-- The fields of a tenant. -/
def tenantValue (tenant : TenantSnapshot) : Json :=
  .object [("tenant", .string tenant.tenant), ("max_bytes", .number tenant.quota.maxBytes),
    ("max_entries", .number tenant.quota.maxEntries),
    ("max_inflight", .number tenant.quota.maxInflight),
    ("used_bytes", .number tenant.usage.usedBytes),
    ("used_entries", .number tenant.usage.usedEntries),
    ("reserved_bytes", .number tenant.usage.reservedBytes),
    ("reserved_entries", .number tenant.usage.reservedEntries),
    ("inflight", .number tenant.usage.inflight)]

def tenantsValue (tenants : List TenantSnapshot) : Json := .array (tenants.map tenantValue)

def errorValue (error : IoError) : Json := .object [("error", .string error.message)]

section

variable {depth : Nat}

theorem faithful_node (node : FleetNode) :
    Json.Faithful (Json.readValue (depth + 2)) (nodeJson node).toList (nodeValue node)
      (Escapes node.id ∧ Escapes node.endpoint) := by
  have each : ∀ member ∈ nodeMembers node,
      Json.Faithful (Json.readValue (depth + 1)) member.text member.json member.fine := by
    simp only [nodeMembers, List.forall_mem_cons]
    exact ⟨faithful_textMember _ _, faithful_textMember _ _, faithful_role _,
      faithful_numberMember _ _, faithful_numberMember _ _, faithful_numberMember _ _,
      fun member among => by cases among⟩
  have plain : ∀ member ∈ nodeMembers node, Json.plainName member.name.toList = true := by
    simp only [nodeMembers, textMember, numberMember, List.forall_mem_cons]
    exact ⟨by decide, by decide, by decide, by decide, by decide, by decide,
      fun member among => by cases among⟩
  have faithful := faithful_object each plain
  simp only [nodeMembers, List.map_cons, List.map_nil, textMember, numberMember,
    String.ofList_toList, List.forall_mem_cons] at faithful
  exact faithful.imp ⟨fun parts => ⟨parts.1, parts.2.1⟩, fun parts => ⟨parts.1, parts.2, trivial, trivial,
    trivial, trivial, fun member among => by cases among⟩⟩

example : nodeJson ⟨"n", "a\"b", .hybrid, 8, 5, 170⟩ = "\x7b\"id\":\"n\",\"endpoint\":\"a\\\"b\"," ++
    "\"role\":\"hybrid\",\"capacity_bytes\":8,\"used_bytes\":5,\"last_seen_epoch_secs\":170\x7d" := by
  decide +kernel

theorem faithful_tenant (tenant : TenantSnapshot) :
    Json.Faithful (Json.readValue (depth + 2)) (tenantJson tenant).toList (tenantValue tenant)
      (Escapes tenant.tenant) := by
  have each : ∀ member ∈ tenantMembers tenant,
      Json.Faithful (Json.readValue (depth + 1)) member.text member.json member.fine := by
    simp only [tenantMembers, List.forall_mem_cons]
    exact ⟨faithful_textMember _ _, faithful_numberMember _ _, faithful_numberMember _ _,
      faithful_numberMember _ _, faithful_numberMember _ _, faithful_numberMember _ _,
      faithful_numberMember _ _, faithful_numberMember _ _, faithful_numberMember _ _,
      fun member among => by cases among⟩
  have plain : ∀ member ∈ tenantMembers tenant, Json.plainName member.name.toList = true := by
    simp only [tenantMembers, textMember, numberMember, List.forall_mem_cons]
    exact ⟨by decide, by decide, by decide, by decide, by decide, by decide, by decide, by decide,
      by decide, fun member among => by cases among⟩
  have faithful := faithful_object each plain
  simp only [tenantMembers, List.map_cons, List.map_nil, textMember, numberMember,
    String.ofList_toList, List.forall_mem_cons] at faithful
  exact faithful.imp ⟨fun parts => parts.1, fun holds => ⟨holds, trivial, trivial, trivial, trivial,
    trivial, trivial, trivial, trivial, fun member among => by cases among⟩⟩

theorem faithful_nodes (nodes : List FleetNode) :
    Json.Faithful (Json.readValue (depth + 3)) (nodesJson nodes).toList (nodesValue nodes)
      (∀ node ∈ nodes, Escapes node.id ∧ Escapes node.endpoint) := by
  unfold nodesJson
  rw [jsonArray_toList]
  exact Json.Faithful.array fun node _ => faithful_node node

theorem faithful_tenants (tenants : List TenantSnapshot) :
    Json.Faithful (Json.readValue (depth + 3)) (tenantsJson tenants).toList (tenantsValue tenants)
      (∀ tenant ∈ tenants, Escapes tenant.tenant) := by
  unfold tenantsJson
  rw [jsonArray_toList]
  exact Json.Faithful.array fun tenant _ => faithful_tenant tenant

theorem faithful_error (error : IoError) :
    Json.Faithful (Json.readValue (depth + 2)) (errorJson error).toList (errorValue error)
      (Escapes error.message) := by
  have each : ∀ member ∈ [textMember "error" error.message],
      Json.Faithful (Json.readValue (depth + 1)) member.text member.json member.fine := by
    simp only [List.forall_mem_cons]
    exact ⟨faithful_textMember _ _, fun member among => by cases among⟩
  have plain : ∀ member ∈ [textMember "error" error.message], Json.plainName member.name.toList = true := by
    simp only [textMember, List.forall_mem_cons]
    exact ⟨by decide, fun member among => by cases among⟩
  have faithful := faithful_object each plain
  simp only [List.map_cons, List.map_nil, textMember, String.ofList_toList,
    List.forall_mem_cons] at faithful
  exact faithful.imp ⟨fun parts => parts.1, fun holds => ⟨holds, fun member among => by cases among⟩⟩

end

/-! ### What calls and requests reach -/

/-- A step of the controller: a call on its quotas or its fleet, or a request. -/
inductive ControllerCall where
  | quota (call : LeaseCall)
  | fleet (call : FleetCall)
  | request (metrics : Except IoError String) (clock : Option Nat) (method path : String)
      (params : Table String String)

/-- The effect of a step. -/
def CacheController.step (call : ControllerCall) (c : CacheController) : CacheController :=
  match call with
  | .quota call => { c with quotas := c.quotas.leaseStep call }
  | .fleet call => { c with fleet := c.fleet.step call }
  | .request metrics clock method path params => (routeRequest metrics clock method path params c).2

/-- What a heartbeat or a request brings as an endpoint has a property. -/
def ControllerCall.Brings (P : String → Prop) : ControllerCall → Prop
  | .quota _ => True
  | .fleet call => call.Brings P
  | .request _ _ _ _ params => ∀ endpoint, params.lookup "endpoint" = some endpoint → P endpoint

/-- What the controller keeps. -/
structure CacheController.Kept (P : String → Prop) (c : CacheController) : Prop where
  fleet : c.fleet.Kept P
  named : c.quotas.Named

variable {P : String → Prop} {c : CacheController}

theorem required_ok {params : Table String String} {name value : String}
    (found : required params name = .ok value) : params.lookup name = some value := by
  unfold required at found
  cases present : (params.lookup name).filter fun value => !value.isEmpty with
  | none =>
      rw [present] at found
      cases found
  | some other =>
      rw [present] at found
      cases found
      exact (Option.filter_eq_some_iff.mp present).1

/-- A heartbeat is called with the endpoint of its request. -/
theorem parseHeartbeat_endpoint {params : Table String String} {sent : HeartbeatParams}
    (parsed : parseHeartbeat params = .ok sent) : params.lookup "endpoint" = some sent.endpoint := by
  obtain ⟨role, -, parsed⟩ := bind_eq_ok.mp parsed
  obtain ⟨id, -, parsed⟩ := bind_eq_ok.mp parsed
  obtain ⟨endpoint, found, parsed⟩ := bind_eq_ok.mp parsed
  obtain ⟨capacityBytes, -, parsed⟩ := bind_eq_ok.mp parsed
  obtain ⟨usedBytes, -, parsed⟩ := bind_eq_ok.mp parsed
  cases parsed
  exact required_ok found

/-- **What a request does**: nothing, a heartbeat with its endpoint, or the quota of a tenant. -/
theorem routeRequest_cases (metrics : Except IoError String) (clock : Option Nat) (method path : String)
    (params : Table String String) (c : CacheController) :
    (routeRequest metrics clock method path params c).2 = c ∨
    (∃ call, (∀ P : String → Prop, (∀ endpoint, params.lookup "endpoint" = some endpoint → P endpoint) →
        FleetCall.Brings P call) ∧
      (routeRequest metrics clock method path params c).2 = { c with fleet := c.fleet.step call }) ∨
    ∃ call, (routeRequest metrics clock method path params c).2 =
      { c with quotas := c.quotas.leaseStep call } := by
  have heartbeat : (routeHeartbeat clock params c).2 = c ∨
      ∃ call, (∀ P : String → Prop, (∀ endpoint, params.lookup "endpoint" = some endpoint → P endpoint) →
        FleetCall.Brings P call) ∧
        (routeHeartbeat clock params c).2 = { c with fleet := c.fleet.step call } := by
    unfold routeHeartbeat
    cases parsed : parseHeartbeat params with
    | error error => exact .inl rfl
    | ok sent =>
        refine .inr ⟨.heartbeat clock sent.id sent.endpoint sent.role sent.capacityBytes sent.usedBytes,
          fun P brings => ?_, rfl⟩
        exact brings _ (parseHeartbeat_endpoint parsed)
  have quota (segment : List Char) : (routeQuota segment params c).2 = c ∨
      ∃ call, (routeQuota segment params c).2 = { c with quotas := c.quotas.leaseStep call } := by
    unfold routeQuota
    cases percentDecode (String.ofList segment) with
    | error fault => exact .inl rfl
    | ok tenant =>
        cases parseQuota params with
        | error error => exact .inl rfl
        | ok quota => exact .inr ⟨.call (.setQuota tenant quota), rfl⟩
  unfold routeRequest
  split
  · exact .inl rfl
  · split
    · exact .inl rfl
    · split
      · exact .inl rfl
      · split
        · exact .inl rfl
        · split
          · exact heartbeat.imp id .inl
          · split
            · exact (quota _).imp id .inr
            · exact .inl rfl

/-- **A step keeps the controller.** -/
theorem CacheController.step_kept (kept : c.Kept P) {call : ControllerCall} (brings : call.Brings P) :
    (c.step call).Kept P := by
  cases call with
  | quota call => exact ⟨kept.fleet, (QuotaManager.leaseStep_effect _ call).named kept.named⟩
  | fleet call => exact ⟨FleetRegistry.step_kept kept.fleet brings, kept.named⟩
  | request metrics clock method path params =>
      show CacheController.Kept P (routeRequest metrics clock method path params c).2
      rcases routeRequest_cases metrics clock method path params c with same | ⟨call, sent, same⟩ |
        ⟨call, same⟩
      · rwa [same]
      · rw [same]
        exact ⟨FleetRegistry.step_kept kept.fleet (sent P brings), kept.named⟩
      · rw [same]
        exact ⟨kept.fleet, (QuotaManager.leaseStep_effect _ call).named kept.named⟩

theorem CacheController.kept_reached
    (run : Reaches CacheController.step (fun call _ => call.Brings P) .new c) : c.Kept P :=
  run.invariant (CacheController.Kept P) ⟨FleetRegistry.kept_new, QuotaManager.named_new⟩
    fun _ _ kept brings => step_kept kept brings

/-- What any run keeps. -/
theorem CacheController.kept_any (run : Reaches CacheController.step (fun _ _ => True) .new c) :
    c.Kept fun _ => True := by
  refine kept_reached (run.mono fun call _ _ => ?_)
  cases call with
  | quota call => trivial
  | fleet call => cases call <;> trivial
  | request metrics clock method path params => exact fun _ _ => trivial

/-- An id has no control characters. -/
theorem escapes_id {value field : String} (valid : validateControlId value field = .ok ()) :
    Escapes value := by
  unfold validateControlId at valid
  split at valid
  case isTrue => cases valid
  case isFalse fine =>
    intro char among
    simp only [not_or, not_not] at fine
    have allowed := List.all_eq_true.mp fine.2.2 char among
    by_contra control
    unfold EscapesChar at control
    have small : char.toNat < 32 := by
      by_contra large
      exact control (.inl (by omega))
    have all : ∀ n < 32, ((Char.ofNat n).isAlphanum || Char.ofNat n == '-' || Char.ofNat n == '_' ||
        Char.ofNat n == '.' || Char.ofNat n == ':') = false := by decide
    have refused := all _ small
    rw [Char.ofNat_toNat, allowed] at refused
    cases refused

/-! ### The answers are JSON -/

theorem snapshots_named (kept : c.Kept P) : ∀ tenant ∈ snapshots c.quotas.tenants, Escapes tenant.tenant := by
  intro tenant among
  obtain ⟨entry, listed, rfl⟩ := List.mem_map.mp among
  exact escapes_id (kept.named _ _ (lookup_of_mem (List.mem_mergeSort.mp listed)))

/-- The list of nodes denotes the nodes exactly where their endpoints have no control characters. -/
theorem nodes_denote_iff (kept : c.Kept P) :
    (Json.Denotes (nodesJson c.fleet.nodes) (nodesValue c.fleet.nodes) ↔
        ∀ node ∈ c.fleet.nodes, Escapes node.endpoint) ∧
      ((∃ other, Json.Denotes (nodesJson c.fleet.nodes) other) ↔
        ∀ node ∈ c.fleet.nodes, Escapes node.endpoint) := by
  have named : ∀ node ∈ c.fleet.nodes, Escapes node.id := by
    intro node among
    obtain ⟨id, found⟩ := FleetRegistry.mem_nodes among
    obtain ⟨_, valid, -⟩ := bind_eq_ok.mp (kept.fleet.tested id node found)
    exact escapes_id valid
  have same : (∀ node ∈ c.fleet.nodes, Escapes node.id ∧ Escapes node.endpoint) ↔
      ∀ node ∈ c.fleet.nodes, Escapes node.endpoint :=
    ⟨fun both node among => (both node among).2,
      fun endpoints node among => ⟨named node among, endpoints node among⟩⟩
  exact ((@faithful_nodes 0 c.fleet.nodes).imp same).denotes_iff

/-- **The controller's JSON.** A quoted text, and the body of an error, denote their text exactly where it has
no control character but line feeds and carriage returns. In every state that calls and requests reach, the
list of nodes denotes the nodes exactly where their endpoints are such texts, as they are where every heartbeat
brought one, and the list of tenants denotes the tenants. -/
theorem controller_json (value : String) (error : IoError)
    (run : Reaches CacheController.step (fun _ _ => True) .new c) (metrics : Except IoError String)
    (clock : Option Nat) (params : Table String String) :
    (Json.Denotes (quoted (jsonEscape value)) (.string value) ↔ Escapes value) ∧
    respond (.error (.error error)) = .ok ⟨400, "application/json", errorJson error⟩ ∧
    (Json.Denotes (errorJson error) (errorValue error) ↔ Escapes error.message) ∧
    routeRequest metrics clock "GET" "/v1/nodes" params c =
      (.ok (jsonResponse (nodesJson c.fleet.nodes)), c) ∧
    (Json.Denotes (nodesJson c.fleet.nodes) (nodesValue c.fleet.nodes) ↔
      ∀ node ∈ c.fleet.nodes, Escapes node.endpoint) ∧
    (Reaches CacheController.step (fun call _ => call.Brings Escapes) .new c →
      ∀ node ∈ c.fleet.nodes, Escapes node.endpoint) ∧
    routeRequest metrics clock "GET" "/v1/tenants" params c =
      (.ok (jsonResponse (tenantsJson (snapshots c.quotas.tenants))), c) ∧
    Json.Denotes (tenantsJson (snapshots c.quotas.tenants))
      (tenantsValue (snapshots c.quotas.tenants)) := by
  have kept := CacheController.kept_any run
  refine ⟨(@faithful_text 0 value).denotes_iff.1, rfl, (@faithful_error 0 error).denotes_iff.1,
    by simp [routeRequest], (nodes_denote_iff kept).1, fun bring node among => ?_,
    by simp [routeRequest], (@faithful_tenants 0 _).denotes_iff.1.mpr (snapshots_named kept)⟩
  obtain ⟨id, found⟩ := FleetRegistry.mem_nodes among
  exact (CacheController.kept_reached bring).fleet.brought id node found

/-- A node with a plain endpoint is listed as JSON. -/
theorem controller_json_plain :
    let c := CacheController.step (.fleet (.heartbeat (some 0) "n" "a" .hybrid 1 0)) .new
    Json.Denotes (nodesJson c.fleet.nodes) (nodesValue c.fleet.nodes) := by
  intro c
  have run : Reaches CacheController.step (fun _ _ => True) .new c := Reaches.refl.step trivial
  have brings : Reaches CacheController.step (fun call _ => call.Brings Escapes) .new c :=
    Reaches.refl.step (escapes_printable (by decide))
  obtain ⟨-, -, -, -, denotes, endpoints, -⟩ :=
    controller_json "" ⟨.other, ""⟩ run (.ok "") none ∅
  exact denotes.mpr (endpoints brings)

/-- **A control character in an endpoint.** A query can hold one; a heartbeat takes it; and the list of nodes
is no JSON any more. -/
theorem endpoint_breaks_nodes :
    percentDecode "%01" = .ok "\x01" ∧
      ∃ c, Reaches CacheController.step (fun _ _ => True) .new c ∧
        (heartbeat (some 0) "n" "\x01" .hybrid 1 0 ∅).1 = .ok ⟨"n", "\x01", .hybrid, 1, 0, 0⟩ ∧
        ¬ ∃ json, Json.Denotes (nodesJson c.fleet.nodes) json := by
  have run : Reaches CacheController.step (fun _ _ => True) .new
      (CacheController.step (.fleet (.heartbeat (some 0) "n" "\x01" .hybrid 1 0)) .new) :=
    Reaches.refl.step trivial
  refine ⟨(percentDecode_iff _ _).mpr ?_, _, run, rfl, fun valid => ?_⟩
  · have zero : hexDigitValue 48 = some 0 := by decide
    have one : hexDigitValue 49 = some 1 := by decide
    exact Escaped.escape zero one .nil
  · have endpoints := (nodes_denote_iff (CacheController.kept_any run)).2.mp valid
    have among : (⟨"n", "\x01", .hybrid, 1, 0, 0⟩ : FleetNode) ∈
        (CacheController.step (.fleet (.heartbeat (some 0) "n" "\x01" .hybrid 1 0)) .new).fleet.nodes :=
      List.mem_map.mpr ⟨⟨"n", _⟩, List.mem_mergeSort.mpr (List.mem_singleton_self _), rfl⟩
    have control := endpoints _ among '\x01' (by decide)
    exact absurd control (by unfold EscapesChar; decide)

end RivetCache
