import ControlPlane.Json.Form
import ControlPlane.Region

/-!
# ControlPlane.Region.Form

The JSON forms of replica sets and of their parts.
-/

namespace ControlPlane

open Json

instance : Form GroupType where
  toJson t := .text t.name
  ofJson?
    | .text "SchemaRegion" => some .schemaRegion
    | .text "DataRegion" => some .dataRegion
    | _ => none
  reader := Reader.choice [("SchemaRegion", .nothing), ("DataRegion", .nothing)]

/-- The members of a group id. -/
def GroupId.members : List Reader.Member := [member GroupType "group_type", member Int32 "id"]

instance : Form GroupId where
  toJson g := named GroupId.members [toJson g.groupType, toJson g.id]
  ofJson? j := do
    let [groupType, id] ← j.values? | none
    return ⟨← ofJson? groupType, ← ofJson? id⟩
  reader := Reader.record GroupId.members

/-- The members of an endpoint. -/
def Endpoint.members : List Reader.Member := [member String "ip", member Int32 "port"]

instance : Form Endpoint where
  toJson e := named Endpoint.members [toJson e.ip, toJson e.port]
  ofJson? j := do
    let [ip, port] ← j.values? | none
    return ⟨← ofJson? ip, ← ofJson? port⟩
  reader := Reader.record Endpoint.members

/-- The members of a location. -/
def Location.members : List Reader.Member :=
  [member Int32 "data_node_id", member Endpoint "internal_endpoint"]

instance : Form Location where
  toJson l := named Location.members [toJson l.dataNodeId, toJson l.internalEndpoint]
  ofJson? j := do
    let [dataNodeId, internalEndpoint] ← j.values? | none
    return ⟨← ofJson? dataNodeId, ← ofJson? internalEndpoint⟩
  reader := Reader.record Location.members

/-- The members of a replica set. -/
def ReplicaSet.members : List Reader.Member :=
  [member GroupId "region_id", member (List Location) "data_node_locations"]

instance : Form ReplicaSet where
  toJson r := named ReplicaSet.members [toJson r.regionId, toJson r.locations]
  ofJson? j := do
    let [regionId, locations] ← j.values? | none
    return ⟨← ofJson? regionId, ← ofJson? locations⟩
  reader := Reader.record ReplicaSet.members

end ControlPlane
