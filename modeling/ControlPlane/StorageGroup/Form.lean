import ControlPlane.Region.Form
import ControlPlane.StorageGroup

/-!
# ControlPlane.StorageGroup.Form

The JSON forms of storage groups.
-/

namespace ControlPlane

open Json

/-- The members of a schema. -/
def StorageGroupSchema.members : List Reader.Member :=
  [member String "name", member Int64 "ttl_ms", member Int32 "schema_replication_factor",
    member Int32 "data_replication_factor", member Int64 "time_partition_interval_ms"]

instance : Form StorageGroupSchema where
  toJson s := named StorageGroupSchema.members
    [toJson s.name, toJson s.ttlMs, toJson s.schemaReplicationFactor,
      toJson s.dataReplicationFactor, toJson s.timePartitionIntervalMs]
  ofJson? j := do
    let [name, ttl, schemaFactor, dataFactor, interval] ← j.values? | none
    return ⟨← ofJson? name, ← ofJson? ttl, ← ofJson? schemaFactor, ← ofJson? dataFactor,
      ← ofJson? interval⟩
  reader := Reader.record StorageGroupSchema.members

/-- The members of a storage group. -/
def StorageGroupPartition.members : List Reader.Member :=
  [member StorageGroupSchema "schema", member (List ReplicaSet) "region_groups"]

instance : Form StorageGroupPartition where
  toJson p := named StorageGroupPartition.members [toJson p.schema, toJson p.regionGroups]
  ofJson? j := do
    let [schema, regionGroups] ← j.values? | none
    return ⟨← ofJson? schema, ← ofJson? regionGroups⟩
  reader := Reader.record StorageGroupPartition.members

end ControlPlane
