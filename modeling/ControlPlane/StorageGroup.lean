import ControlPlane.Region

/-!
# ControlPlane.StorageGroup

Storage groups: a named schema, and the region groups that hold its data.
-/

namespace ControlPlane

/-- The settings of a storage group.  Times are in milliseconds. -/
structure StorageGroupSchema where
  name : String
  ttlMs : Int64
  schemaReplicationFactor : Int32
  dataReplicationFactor : Int32
  timePartitionIntervalMs : Int64
  deriving DecidableEq, Repr

/-- The default settings: data never expires, one replica of everything, and time partitions of one
week. -/
def StorageGroupSchema.ofName (name : String) : StorageGroupSchema where
  name
  ttlMs := Int64.maxValue
  schemaReplicationFactor := 1
  dataReplicationFactor := 1
  timePartitionIntervalMs := 604800000

/-- A storage group in the table: its schema, and its region groups in the order of creation. -/
structure StorageGroupPartition where
  schema : StorageGroupSchema
  regionGroups : List ReplicaSet
  deriving DecidableEq, Repr

end ControlPlane
