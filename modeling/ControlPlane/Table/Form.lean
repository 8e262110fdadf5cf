import ControlPlane.StorageGroup.Form
import ControlPlane.Table

/-!
# ControlPlane.Table.Form

The JSON forms of the partition table and of the reasons why it refuses a command.
-/

namespace ControlPlane

open Json

/-- The members of a table. -/
def Table.members : List Reader.Member :=
  [member (SortedMap Int32 Location) "data_nodes",
    member (SortedMap String StorageGroupPartition) "storage_groups"]

instance : Form Table where
  toJson t := named Table.members [toJson t.dataNodes, toJson t.storageGroups]
  ofJson? j := do
    let [dataNodes, storageGroups] ← j.values? | none
    return ⟨← ofJson? dataNodes, ← ofJson? storageGroups⟩
  reader := Reader.record Table.members

namespace Rejection

/-- The members of a refused storage group. -/
def invalidMembers : List Reader.Member := [member String "name", member String "reason"]

/-- The members of a region group that exists already. -/
def existingMembers : List Reader.Member := [member String "storage_group", member String "region"]

/-- The member of a data node that is known elsewhere. -/
def conflictMembers : List Reader.Member := [member Int32 "data_node_id"]

end Rejection

instance : Form Rejection where
  toJson
    | .storageGroupNotFound name => .record [("StorageGroupNotFound", toJson name)]
    | .storageGroupAlreadyExists name => .record [("StorageGroupAlreadyExists", toJson name)]
    | .invalidStorageGroup name reason =>
      .record [("InvalidStorageGroup",
        named Rejection.invalidMembers [toJson name, toJson reason])]
    | .regionGroupAlreadyExists storageGroup region =>
      .record [("RegionGroupAlreadyExists",
        named Rejection.existingMembers [toJson storageGroup, toJson region])]
    | .dataNodeConflict id =>
      .record [("DataNodeConflict", named Rejection.conflictMembers [toJson id])]
  ofJson?
    | .record [("StorageGroupNotFound", name)] => do
      return .storageGroupNotFound (← ofJson? name)
    | .record [("StorageGroupAlreadyExists", name)] => do
      return .storageGroupAlreadyExists (← ofJson? name)
    | .record [("InvalidStorageGroup", j)] => do
      let [name, reason] ← j.values? | none
      return .invalidStorageGroup (← ofJson? name) (← ofJson? reason)
    | .record [("RegionGroupAlreadyExists", j)] => do
      let [storageGroup, region] ← j.values? | none
      return .regionGroupAlreadyExists (← ofJson? storageGroup) (← ofJson? region)
    | .record [("DataNodeConflict", j)] => do
      let [id] ← j.values? | none
      return .dataNodeConflict (← ofJson? id)
    | _ => none
  reader := Reader.choice
    [("StorageGroupNotFound", .value Reader.text),
      ("StorageGroupAlreadyExists", .value Reader.text),
      ("InvalidStorageGroup", .value (Reader.record Rejection.invalidMembers)),
      ("RegionGroupAlreadyExists", .value (Reader.record Rejection.existingMembers)),
      ("DataNodeConflict", .value (Reader.record Rejection.conflictMembers))]

end ControlPlane
