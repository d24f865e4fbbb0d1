/-
**`control.rs`: the fleet.**

A `FleetRegistry` keeps the last heartbeat of each worker. A clock that stands before the epoch is `none`.

* `FleetRegistry.Kept`: every node is under its id, has passed the checks of a heartbeat, and its endpoint
  came with one;
* `fleet_kept`: it holds in every state that any calls reach.
-/

import RivetCache.Control.Quota

set_option linter.unusedSectionVars false

namespace RivetCache

open Library

/-- `WorkerRole`. -/
inductive WorkerRole where
  | prefill
  | decode
  | hybrid
  deriving DecidableEq

/-- `FleetNode`. -/
structure FleetNode where
  id : String
  endpoint : String
  role : WorkerRole
  capacityBytes : Nat
  usedBytes : Nat
  lastSeenEpochSecs : Nat
  deriving DecidableEq

/-- `FleetRegistry`. -/
abbrev FleetRegistry := Table String FleetNode

/-- `now_epoch_secs`. -/
def nowEpochSecs (clock : Option Nat) : Except IoError Nat :=
  clock.elim (.error ⟨.other, "system clock is before Unix epoch"⟩) .ok

/-- The entries of a `BTreeMap`, in the order of their keys. -/
def inKeyOrder {V : Type} (table : Table String V) : List (Sigma fun _ : String => V) :=
  table.entries.mergeSort fun left right => decide (left.1 ≤ right.1)

/-- `heartbeat`, the tests. -/
def FleetNode.check (id endpoint : String) (capacityBytes usedBytes : Nat) : Except IoError Unit := do
  validateControlId id "node"
  if isBlank endpoint ∨ capacityBytes = 0 ∨ usedBytes > capacityBytes then
    .error ⟨.invalidInput, "invalid fleet heartbeat"⟩
  else .ok ()

/-- `heartbeat`. -/
def heartbeat (clock : Option Nat) (id endpoint : String) (role : WorkerRole)
    (capacityBytes usedBytes : Nat) (nodes : FleetRegistry) : Except IoError FleetNode × FleetRegistry :=
  match FleetNode.check id endpoint capacityBytes usedBytes with
  | .error error => (.error error, nodes)
  | .ok () =>
      match nowEpochSecs clock with
      | .error error => (.error error, nodes)
      | .ok now =>
          (.ok ⟨id, endpoint, role, capacityBytes, usedBytes, now⟩,
            nodes.insert id ⟨id, endpoint, role, capacityBytes, usedBytes, now⟩)

/-- `nodes`. -/
def FleetRegistry.nodes (nodes : FleetRegistry) : List FleetNode :=
  (inKeyOrder nodes).map fun entry => entry.2

/-- `retain`, on a list of nodes. -/
def retainFresh (now maxAge : Nat) (nodes : FleetRegistry) : FleetRegistry :=
  nodes.entries.foldl (fun kept entry =>
    if satSub now entry.2.lastSeenEpochSecs ≤ maxAge then kept else kept.erase entry.1) nodes

/-- `prune_stale`. -/
def pruneStale (clock : Option Nat) (maxAge : Duration) (nodes : FleetRegistry) :
    Except IoError Nat × FleetRegistry :=
  match nowEpochSecs clock with
  | .error error => (.error error, nodes)
  | .ok now =>
      let kept := retainFresh now maxAge.asSecs nodes
      (.ok (satSub nodes.entries.length kept.entries.length), kept)

/-! ### Runs -/

/-- A call on the registry, with the clock it meets. -/
inductive FleetCall where
  | heartbeat (clock : Option Nat) (id endpoint : String) (role : WorkerRole)
      (capacityBytes usedBytes : Nat)
  | pruneStale (clock : Option Nat) (maxAge : Duration)

/-- The effect of a call. -/
def FleetRegistry.step (call : FleetCall) (nodes : FleetRegistry) : FleetRegistry :=
  match call with
  | .heartbeat clock id endpoint role capacityBytes usedBytes =>
      (RivetCache.heartbeat clock id endpoint role capacityBytes usedBytes nodes).2
  | .pruneStale clock maxAge => (RivetCache.pruneStale clock maxAge nodes).2

/-- What a heartbeat brings as an endpoint has a property. -/
def FleetCall.Brings (P : String → Prop) : FleetCall → Prop
  | .heartbeat _ _ endpoint _ _ _ => P endpoint
  | .pruneStale _ _ => True

/-- **The registry is in order**: a node is under its id, has passed the tests, and its endpoint has the
property that every heartbeat brought. -/
structure FleetRegistry.Kept (P : String → Prop) (nodes : FleetRegistry) : Prop where
  named : ∀ id node, nodes.lookup id = some node → node.id = id
  tested : ∀ id node, nodes.lookup id = some node →
    FleetNode.check node.id node.endpoint node.capacityBytes node.usedBytes = .ok ()
  brought : ∀ id node, nodes.lookup id = some node → P node.endpoint

variable {P : String → Prop} {nodes : FleetRegistry}

theorem FleetRegistry.kept_new : FleetRegistry.Kept P ∅ where
  named _ _ present := by cases present
  tested _ _ present := by cases present
  brought _ _ present := by cases present

/-- Nodes that were there are in order. -/
theorem FleetRegistry.Kept.of_le {fewer : FleetRegistry} (kept : nodes.Kept P)
    (there : ∀ id node, fewer.lookup id = some node → nodes.lookup id = some node) : fewer.Kept P where
  named id node present := kept.named id node (there id node present)
  tested id node present := kept.tested id node (there id node present)
  brought id node present := kept.brought id node (there id node present)

/-- **A heartbeat changes one node**, or nothing. -/
theorem heartbeat_cases (clock : Option Nat) (id endpoint : String) (role : WorkerRole)
    (capacityBytes usedBytes : Nat) (nodes : FleetRegistry) :
    (heartbeat clock id endpoint role capacityBytes usedBytes nodes).2 = nodes ∨
      ∃ now, FleetNode.check id endpoint capacityBytes usedBytes = .ok () ∧
        (heartbeat clock id endpoint role capacityBytes usedBytes nodes).2 =
          nodes.insert id ⟨id, endpoint, role, capacityBytes, usedBytes, now⟩ := by
  unfold heartbeat
  cases checked : FleetNode.check id endpoint capacityBytes usedBytes with
  | error error => exact .inl rfl
  | ok _ =>
      cases nowEpochSecs clock with
      | error error => exact .inl rfl
      | ok now => exact .inr ⟨now, rfl, rfl⟩

/-- What is retained was there. -/
theorem retainFresh_lookup {now maxAge : Nat} {id : String} {node : FleetNode}
    (present : (retainFresh now maxAge nodes).lookup id = some node) : nodes.lookup id = some node := by
  have each (entries : List (Sigma fun _ : String => FleetNode)) (kept : FleetRegistry)
      (present : (entries.foldl (fun (kept : FleetRegistry) entry =>
        if satSub now entry.2.lastSeenEpochSecs ≤ maxAge then kept else kept.erase entry.1)
          kept).lookup id = some node) : kept.lookup id = some node := by
    induction entries generalizing kept with
    | nil => exact present
    | cons entry entries ih =>
        have before := ih _ present
        dsimp only at before
        by_cases fresh : satSub now entry.2.lastSeenEpochSecs ≤ maxAge
        · rwa [if_pos fresh] at before
        · rw [if_neg fresh, lookup_erase_eq] at before
          split at before
          · cases before
          · exact before
  exact each nodes.entries nodes present

/-- **A call keeps the registry in order.** -/
theorem FleetRegistry.step_kept (kept : nodes.Kept P) {call : FleetCall} (brings : call.Brings P) :
    (nodes.step call).Kept P := by
  cases call with
  | heartbeat clock id endpoint role capacityBytes usedBytes =>
      rcases heartbeat_cases clock id endpoint role capacityBytes usedBytes nodes with
        same | ⟨now, checked, same⟩
      · exact (congrArg (FleetRegistry.Kept P) same).mpr kept
      · have found (other : String) (node : FleetNode)
            (present : (nodes.insert id ⟨id, endpoint, role, capacityBytes, usedBytes, now⟩).lookup other =
              some node) :
            (other = id ∧ node = ⟨id, endpoint, role, capacityBytes, usedBytes, now⟩) ∨
              nodes.lookup other = some node := by
          rw [lookup_insert_eq] at present
          by_cases own : other = id
          · rw [if_pos own] at present
            cases present
            exact .inl ⟨own, rfl⟩
          · rw [if_neg own] at present
            exact .inr present
        refine (congrArg (FleetRegistry.Kept P) same).mpr ⟨fun other node present => ?_,
          fun other node present => ?_, fun other node present => ?_⟩
        all_goals rcases found other node present with ⟨rfl, rfl⟩ | there
        · rfl
        · exact kept.named other node there
        · exact checked
        · exact kept.tested other node there
        · exact brings
        · exact kept.brought other node there
  | pruneStale clock maxAge =>
      show FleetRegistry.Kept P (RivetCache.pruneStale clock maxAge nodes).2
      unfold RivetCache.pruneStale
      cases nowEpochSecs clock with
      | error error => exact kept
      | ok now => exact kept.of_le fun id node present => retainFresh_lookup present

/-- **The registry is in order** in every state that calls reach, whose heartbeats bring what they should. -/
theorem FleetRegistry.fleet_kept (run : Reaches FleetRegistry.step (fun call _ => call.Brings P) ∅ nodes) :
    nodes.Kept P :=
  run.invariant (FleetRegistry.Kept P) kept_new fun _ _ kept brings => step_kept kept brings

/-- A node of the list is in the registry. -/
theorem FleetRegistry.mem_nodes {node : FleetNode} (among : node ∈ nodes.nodes) :
    ∃ id, nodes.lookup id = some node := by
  obtain ⟨entry, listed, rfl⟩ := List.mem_map.mp among
  exact ⟨entry.1, lookup_of_mem (List.mem_mergeSort.mp listed)⟩

end RivetCache
