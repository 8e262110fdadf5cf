import ControlPlane.Consensus.Message.Form
import ControlPlane.Http.MediaType
import ControlPlane.Http.Percent
import ControlPlane.Http
import ControlPlane.Table.Form

/-!
# ControlPlane.Api

What clients and other nodes can ask of a node over HTTP.  A request is taken apart into a `Call`,
or refused with a status that says what is wrong with it.  This does not depend on the node.
-/

namespace ControlPlane

open Json (Form toJson member named ofJson?)
open Consensus

/-- What a node is asked for. -/
inductive Call
  | health
  | status
  | partition
  /-- To have a command applied; `done` is the answer when it was. -/
  | submit (command : Command) (done : Json)
  | vote (request : VoteRequest)
  | append (request : AppendRequest)
  | install (request : InstallRequest)

namespace Api

open Http

/-! ## Paths -/

/-- The paths that are served. -/
inductive Route
  | health
  | status
  | partition
  | dataNodes
  | storageGroups
  /-- One storage group, its name as it stands in the path. -/
  | storageGroup (name : List Char)
  | regionGroups
  | vote
  | appendEntries
  | installSnapshot
  deriving DecidableEq, Repr

/-- The beginning of the paths of storage groups. -/
def storageGroupPath : List Char := "/storage-groups/".toList

/-- The routes whose path is fixed. -/
def fixedRoutes : List (List Char × Route) :=
  [("/health".toList, .health), ("/status".toList, .status), ("/partition".toList, .partition),
    ("/data-nodes".toList, .dataNodes), ("/storage-groups".toList, .storageGroups),
    ("/region-groups".toList, .regionGroups), ("/raft/vote".toList, .vote),
    ("/raft/append_entries".toList, .appendEntries),
    ("/raft/install_snapshot".toList, .installSnapshot)]

/-- The route of a path.  The name of a storage group is one part of the path and not empty. -/
def Route.ofPath? (path : List Char) : Option Route :=
  match fixedRoutes.lookup path with
  | some route => some route
  | none =>
    if storageGroupPath.isPrefixOf path then
      let name := path.drop storageGroupPath.length
      if name.isEmpty ∨ '/' ∈ name then none else some (.storageGroup name)
    else none

/-- The methods of a route. -/
def Route.methods : Route → List String
  | .health | .status | .partition => ["GET", "HEAD"]
  | .dataNodes | .storageGroups | .regionGroups => ["POST"]
  | .storageGroup _ => ["DELETE"]
  | .vote | .appendEntries | .installSnapshot => ["POST"]

/-! ## Bodies -/

/-- The number of bytes that a body may have. -/
def maxBodyBytes : Nat := 2097152

/-- The value in the body of a request.  It has to be announced as JSON. -/
def readBody (α : Type) [Form α] (r : Request) : Except Status α :=
  if !(r.contentType.any MediaType.isJson) then .error .unsupportedMediaType
  else if maxBodyBytes < r.body.length then .error .payloadTooLarge
  else
    match Json.parseFront r.body with
    | .ok a => .ok a
    | .error .notJson => .error .badRequest
    | .error .shape => .error .unprocessable

/-- A request for region groups: the replica sets to create, by storage group. -/
structure RegionGroupsRequest where
  regionGroups : SortedMap String (List ReplicaSet)

/-- The member of a request for region groups. -/
def RegionGroupsRequest.members : List Json.Reader.Member :=
  [member (SortedMap String (List ReplicaSet)) "region_groups"]

instance : Form RegionGroupsRequest where
  toJson r := named RegionGroupsRequest.members [toJson r.regionGroups]
  ofJson? j := do
    let [regionGroups] ← j.values? | none
    return ⟨← ofJson? regionGroups⟩
  reader := Json.Reader.record RegionGroupsRequest.members

/-- The map that a request asks for, built by adding one replica set after the other.  A storage
group without replica sets leaves no trace in it. -/
def RegionGroupsRequest.map (r : RegionGroupsRequest) : RegionGroupMap :=
  RegionGroupMap.build (r.regionGroups.toList.flatMap fun (name, sets) => sets.map (name, ·))

/-- The answer when region groups were created: how many, and in how many storage groups. -/
def createdJson (m : RegionGroupMap) : Json :=
  .record [("storage_groups", .int m.size), ("region_groups", .int m.values.flatten.length)]

/-! ## Calls -/

/-- What a request to a route asks for. -/
def Route.call (r : Request) : Route → Except Status Call
  | .health => .ok .health
  | .status => .ok .status
  | .partition => .ok .partition
  | .dataNodes => do
    let location ← readBody Location r
    return .submit (.registerDataNode location) (toJson location)
  | .storageGroups => do
    let schema ← readBody StorageGroupSchema r
    return .submit (.setStorageGroup schema) (toJson schema)
  | .storageGroup name =>
    match Percent.decodeText? name with
    | some name => .ok (.submit (.deleteStorageGroup name) (.record [("deleted", .text name)]))
    | none => .error .badRequest
  | .regionGroups => do
    let groups := (← readBody RegionGroupsRequest r).map
    return .submit (.createRegionGroups groups) (createdJson groups)
  | .vote => do return .vote (← readBody VoteRequest r)
  | .appendEntries => do return .append (← readBody AppendRequest r)
  | .installSnapshot => do return .install (← readBody InstallRequest r)

/-- What a request asks for. -/
def call (r : Request) : Except Status Call :=
  match Route.ofPath? (pathOf r.target) with
  | none => .error .notFound
  | some route =>
    if r.method ∈ route.methods then route.call r else .error .methodNotAllowed

end Api

end ControlPlane
