import ControlPlane.State
import ControlPlane.Table.Form

/-!
# ControlPlane.State.Form

The JSON forms of the replicated state and of what applying a log entry comes to.
-/

namespace ControlPlane

open Json

/-- The members of a state. -/
def State.members : List Reader.Member :=
  [member Table "table", member UInt64 "last_applied_index"]

instance : Form State where
  toJson s := named State.members [toJson s.table, toJson s.lastAppliedIndex]
  ofJson? j := do
    let [table, lastAppliedIndex] ← j.values? | none
    return ⟨← ofJson? table, ← ofJson? lastAppliedIndex⟩
  reader := Reader.record State.members

/-- The members of a view. -/
def View.members : List Reader.Member :=
  [member (List Location) "data_nodes",
    member (SortedMap String StorageGroupPartition) "storage_groups",
    member UInt64 "last_applied_index", member (Option UInt64) "leader_id", member UInt64 "term"]

instance : Form View where
  toJson v := named View.members
    [toJson v.dataNodes, toJson v.storageGroups, toJson v.lastAppliedIndex, toJson v.leaderId,
      toJson v.term]
  ofJson? j := do
    let [dataNodes, storageGroups, lastAppliedIndex, leaderId, term] ← j.values? | none
    return ⟨← ofJson? dataNodes, ← ofJson? storageGroups, ← ofJson? lastAppliedIndex,
      ← ofJson? leaderId, ← ofJson? term⟩
  reader := Reader.record View.members

/-- The member of an entry that was passed over. -/
def Outcome.skippedMembers : List Reader.Member := [member String "reason"]

instance : Form Outcome where
  toJson
    | .applied => .text "Applied"
    | .rejected reason => .record [("Rejected", toJson reason)]
    | .skipped reason => .record [("Skipped", named Outcome.skippedMembers [toJson reason])]
  ofJson?
    | .text "Applied" => some .applied
    | .record [("Rejected", reason)] => do return .rejected (← ofJson? reason)
    | .record [("Skipped", j)] => do
      let [reason] ← j.values? | none
      return .skipped (← ofJson? reason)
    | _ => none
  reader := Reader.choice
    [("Applied", .nothing), ("Rejected", .value (Form.reader Rejection)),
      ("Skipped", .value (Reader.record Outcome.skippedMembers))]

instance : Form DecodePolicy where
  toJson p := .text p.name
  ofJson?
    | .text "halt" => some .halt
    | .text "skip" => some .skip
    | _ => none
  reader := Reader.choice [("halt", .nothing), ("skip", .nothing)]

instance : Form CommandKind where
  toJson k := .text k.name
  ofJson?
    | .text "RegisterDataNode" => some .registerDataNode
    | .text "SetStorageGroup" => some .setStorageGroup
    | .text "DeleteStorageGroup" => some .deleteStorageGroup
    | .text "CreateRegionGroups" => some .createRegionGroups
    | _ => none
  reader := Reader.choice (CommandKind.all.map fun k => (k.name, .nothing))

end ControlPlane
