import ControlPlane.Cli.Arguments
import ControlPlane.Cli.Replica
import ControlPlane.Http
import ControlPlane.Json.Any
import ControlPlane.StorageGroup.Form
import ControlPlane.Url

/-!
# ControlPlane.Cli.Control

The program with which operators ask a node for its state and submit commands.  Its arguments become
one request, and what comes back is shown.
-/

namespace ControlPlane.Control

open Cli Http
open Json (toJson)

/-! ## Arguments -/

/-- The node that is asked if none is named. -/
def defaultAddress : String := "http://127.0.0.1:10710"

/-- The verbs and flags. -/
def program : Verb where
  name := "control"
  flags := [{ name := "addr", short := some 'a' }]
  verbs := [
    { name := "status" },
    { name := "partition" },
    { name := "data-node"
      verbs := [{
        name := "register"
        flags := [
          { name := "id", valid := Integer.isInt32, required := true },
          { name := "endpoint", required := true }] }] },
    { name := "storage-group"
      verbs := [
        { name := "set"
          flags := [
            { name := "name", short := some 'n', required := true },
            { name := "schema-replication-factor", valid := Integer.isInt32 },
            { name := "data-replication-factor", valid := Integer.isInt32 },
            { name := "ttl-ms", valid := Integer.isInt64 }] },
        { name := "delete"
          flags := [{ name := "name", short := some 'n', required := true }] }] },
    { name := "region-group"
      verbs := [{
        name := "create"
        flags := [
          { name := "storage-group", short := some 's', required := true },
          { name := "group-type", short := some 't'
            valid := fun s => s = "schema" || s = "data" },
          { name := "region-id", short := some 'r', valid := Integer.isInt32, required := true },
          { name := "replica", arity := .many, required := true }] }] }]

/-- What the program is told to do. -/
inductive Action
  | status
  | partition
  | registerDataNode (id : Int32) (endpoint : String)
  | setStorageGroup (schema : StorageGroupSchema)
  | deleteStorageGroup (name : String)
  | createRegionGroup (storageGroup : String) (group : GroupId) (replicas : List String)

/-- A flag that is an integer of 32 bits; flags are valid once they have been read. -/
def int32Of (l : Level) (flag : String) (default : Int32) : Int32 :=
  match l.value? flag with
  | some text => (Integer.readInt32 text.toList).toOption.getD default
  | none => default

/-- A flag that is an integer of 64 bits. -/
def int64Of (l : Level) (flag : String) (default : Int64) : Int64 :=
  match l.value? flag with
  | some text => (Integer.readInt64 text.toList).toOption.getD default
  | none => default

/-- The settings of a storage group: those given, and the defaults of the others. -/
def schemaOf (l : Level) (name : String) : StorageGroupSchema :=
  let base := StorageGroupSchema.ofName name
  { base with
    ttlMs := int64Of l "ttl-ms" base.ttlMs
    schemaReplicationFactor :=
      int32Of l "schema-replication-factor" base.schemaReplicationFactor
    dataReplicationFactor := int32Of l "data-replication-factor" base.dataReplicationFactor }

/-- The region group that is meant.  It is one of data unless the flags say otherwise. -/
def groupOf (l : Level) : GroupId where
  groupType := if l.value? "group-type" = some "schema" then .schemaRegion else .dataRegion
  id := int32Of l "region-id" 0

/-- What the verbs behind the name of the program ask for. -/
def Action.ofLevels? : List Level → Option Action
  | [l] =>
    match l.verb with
    | "status" => some .status
    | "partition" => some .partition
    | _ => none
  | [group, l] =>
    match group.verb, l.verb with
    | "data-node", "register" => do
      return .registerDataNode (int32Of l "id" 0) (← l.value? "endpoint")
    | "storage-group", "set" => do return .setStorageGroup (schemaOf l (← l.value? "name"))
    | "storage-group", "delete" => do return .deleteStorageGroup (← l.value? "name")
    | "region-group", "create" => do
      return .createRegionGroup (← l.value? "storage-group") (groupOf l) (l.values "replica")
    | _, _ => none
  | _ => none

/-- The address of the node to ask, and what to do there. -/
def readArguments (args : List String) : Except Stop (String × Action) := do
  match ← program.read args with
  | root :: levels =>
    match Action.ofLevels? levels with
    | some action => return ((root.value? "addr").getD defaultAddress, action)
    | none => throw .usage
  | [] => throw .usage

/-! ## Bodies -/

/-- A record that is put together as a map: its members are in the order of their names. -/
def object (members : List (String × Json)) : Json := .record (SortedMap.ofList members).entries

/-- An endpoint, as bodies have it. -/
def endpointJson (e : Endpoint) : Json := object [("ip", toJson e.ip), ("port", toJson e.port)]

/-- A location, as bodies have it. -/
def locationJson (l : Location) : Json :=
  object [("data_node_id", toJson l.dataNodeId),
    ("internal_endpoint", endpointJson l.internalEndpoint)]

/-- The settings of a storage group, as bodies have them. -/
def schemaJson (s : StorageGroupSchema) : Json :=
  object [("name", toJson s.name), ("ttl_ms", toJson s.ttlMs),
    ("schema_replication_factor", toJson s.schemaReplicationFactor),
    ("data_replication_factor", toJson s.dataReplicationFactor),
    ("time_partition_interval_ms", toJson s.timePartitionIntervalMs)]

/-- A replica set, as bodies have it. -/
def replicaSetJson (r : ReplicaSet) : Json :=
  object [
    ("region_id",
      object [("group_type", toJson r.regionId.groupType), ("id", toJson r.regionId.id)]),
    ("data_node_locations", .list (r.locations.map locationJson))]

/-- A request for one region group of a storage group. -/
def regionGroupJson (storageGroup : String) (r : ReplicaSet) : Json :=
  object [("region_groups", object [(storageGroup, .list [replicaSetJson r])])]

/-! ## The request -/

/-- A request that has not been addressed yet. -/
structure Ask where
  method : String
  path : String
  body : Option Json := none

/-- What an action asks for.  The name of a storage group goes into the path as it is. -/
def Action.ask : Action → Except ArgumentError Ask
  | .status => .ok { method := "GET", path := "/status" }
  | .partition => .ok { method := "GET", path := "/partition" }
  | .registerDataNode id endpoint => do
    let location : Location := ⟨id, ← readEndpoint endpoint.toList⟩
    return { method := "POST", path := "/data-nodes", body := some (locationJson location) }
  | .setStorageGroup schema =>
    .ok { method := "POST", path := "/storage-groups", body := some (schemaJson schema) }
  | .deleteStorageGroup name => .ok { method := "DELETE", path := "/storage-groups/" ++ name }
  | .createRegionGroup storageGroup group replicas => do
    let locations ← replicas.mapM fun r => readReplica r.toList
    let body := regionGroupJson storageGroup ⟨group, locations⟩
    return { method := "POST", path := "/region-groups", body := some body }

/-- A request, and the URL that it goes to. -/
structure Sending where
  url : Url
  request : Request

/-- Why an action fails. -/
inductive Error
  | argument (e : ArgumentError)
  /-- The address makes no URL. -/
  | notUrl
  /-- The URL is not one of HTTP. -/
  | notHttp (url : Url)
  /-- Nothing answers there. -/
  | unanswered (url : Url)
  /-- The answer is not JSON. -/
  | notJson
  | refused (status : Status)

/-- What the program says of an error. -/
def Error.failure : Error → Failure
  | .argument e => e.failure
  | .notUrl => ⟨"builder error", none⟩
  | .notHttp url => ⟨"builder error for url (" ++ url.text ++ ")", none⟩
  | .unanswered url => ⟨"error sending request for url (" ++ url.text ++ ")", none⟩
  | .notJson => ⟨"error decoding response body", none⟩
  | .refused status => ⟨"request failed with " ++ status.label, none⟩

/-- Addresses a request. -/
def Ask.sending (a : Ask) (address : String) : Except Error Sending :=
  match Url.parse? (address ++ a.path) with
  | none => .error .notUrl
  | some url =>
    if !url.isHttp then .error (.notHttp url)
    else .ok {
      url
      request := {
        method := a.method
        target := url.target
        contentType := a.body.map fun _ => "application/json"
        body := bodyBytes a.body } }

/-- The request of an action at an address. -/
def Action.sending (a : Action) (address : String) : Except Error Sending :=
  match a.ask with
  | .error e => .error (.argument e)
  | .ok ask => ask.sending address

/-! ## The answer -/

/-- Shows what comes back, also if it says that the action failed. -/
def Sending.conclude (s : Sending) : Option Received → Ending
  | none => .failed "" (Error.unanswered s.url).failure
  | some r =>
    match Json.parseBytes (α := Json) r.body with
    | .error _ => .failed "" Error.notJson.failure
    | .ok body =>
      let output := body.pretty ++ "\n"
      if r.status.isSuccess then .done output
      else .failed output (Error.refused r.status).failure

/-- What the program sends for its arguments, or how it ends without sending anything. -/
def plan (args : List String) : Except Ending Sending :=
  match readArguments args with
  | .error stop => .error stop.ending
  | .ok (address, action) =>
    match action.sending address with
    | .error e => .error (.failed "" e.failure)
    | .ok sending => .ok sending

/-- How the program ends if its request is answered in this way. -/
def run (args : List String) (received : Option Received) : Ending :=
  match plan args with
  | .error ending => ending
  | .ok sending => sending.conclude received

end ControlPlane.Control
