import ControlPlane.Command
import ControlPlane.Number.Decimal
import ControlPlane.Text.Quoted

/-!
# ControlPlane.Table

The partition table: the data nodes known to the cluster, the storage groups, and their region
groups.  `Table.apply` checks a whole command before it changes anything, and depends on nothing but
the table and the command, so all nodes that apply the same commands hold the same table.
-/

namespace ControlPlane

/-- Why the table refuses a command. -/
inductive Rejection
  | storageGroupNotFound (name : String)
  | storageGroupAlreadyExists (name : String)
  | invalidStorageGroup (name reason : String)
  | regionGroupAlreadyExists (storageGroup region : String)
  | dataNodeConflict (dataNodeId : Int32)
  deriving DecidableEq, Repr

/-- The text of a rejection. -/
def Rejection.message : Rejection → String
  | .storageGroupNotFound name => "storage group " ++ name ++ " does not exist"
  | .storageGroupAlreadyExists name => "storage group " ++ name ++ " already exists"
  | .invalidStorageGroup name reason =>
    "invalid storage group " ++ Text.quoted name ++ ": " ++ reason
  | .regionGroupAlreadyExists storageGroup region =>
    "region group " ++ region ++ " already exists in storage group " ++ storageGroup
  | .dataNodeConflict id =>
    "data node " ++ Decimal.text id.toInt ++ " is already registered at a different location"

/-- The partition table. -/
structure Table where
  dataNodes : SortedMap Int32 Location
  storageGroups : SortedMap String StorageGroupPartition
  deriving DecidableEq

namespace Table

/-- The table of a new cluster. -/
def empty : Table := ⟨SortedMap.empty, SortedMap.empty⟩

instance : Inhabited Table := ⟨empty⟩

/-! ## Queries -/

/-- A storage group by name. -/
def storageGroup? (t : Table) (name : String) : Option StorageGroupPartition :=
  t.storageGroups.get? name

/-- The region groups of a storage group; none if there is no such storage group. -/
def regionGroupsOf (t : Table) (name : String) : List ReplicaSet :=
  ((t.storageGroups.get? name).map (·.regionGroups)).getD []

/-- All region groups, by storage group. -/
def regionGroups (t : Table) : List ReplicaSet :=
  t.storageGroups.values.flatMap (·.regionGroups)

/-- The number of region groups. -/
def regionGroupCount (t : Table) : Nat := t.regionGroups.length

/-- A data node by its id. -/
def dataNode? (t : Table) (id : Int32) : Option Location := t.dataNodes.get? id

/-! ## Commands -/

/-- Makes a data node known.  Registering it again at the same location changes nothing. -/
def registerDataNode (t : Table) (location : Location) : Except Rejection Table :=
  match t.dataNodes.get? location.dataNodeId with
  | none => .ok { t with dataNodes := t.dataNodes.insert location.dataNodeId location }
  | some known =>
    if known = location then .ok t else .error (.dataNodeConflict location.dataNodeId)

/-- Creates a storage group without region groups. -/
def setStorageGroup (t : Table) (schema : StorageGroupSchema) : Except Rejection Table :=
  if schema.name = "" then
    .error (.invalidStorageGroup schema.name "name must not be empty")
  else if schema.schemaReplicationFactor < 1 ∨ schema.dataReplicationFactor < 1 then
    .error (.invalidStorageGroup schema.name "replication factors must be at least 1")
  else if t.storageGroups.contains schema.name then
    .error (.storageGroupAlreadyExists schema.name)
  else
    .ok { t with storageGroups := t.storageGroups.insert schema.name ⟨schema, []⟩ }

/-- Removes a storage group with its region groups. -/
def deleteStorageGroup (t : Table) (name : String) : Except Rejection Table :=
  if t.storageGroups.contains name then
    .ok { t with storageGroups := t.storageGroups.erase name }
  else
    .error (.storageGroupNotFound name)

/-- The ids of region groups that are taken after these replica sets of one storage group are
allocated, unless one of them is taken already. -/
def allocate (storageGroup : String) :
    List GroupId → List ReplicaSet → Except Rejection (List GroupId)
  | taken, [] => .ok taken
  | taken, r :: rest =>
    if r.regionId ∈ taken then
      .error (.regionGroupAlreadyExists storageGroup r.regionId.label)
    else
      allocate storageGroup (r.regionId :: taken) rest

/-- Checks the storage groups of a command in order: each must exist, and its new region groups
must not be taken, neither in the table nor earlier in the command. -/
def allocateAll (t : Table) :
    List GroupId → List (String × List ReplicaSet) → Except Rejection (List GroupId)
  | taken, [] => .ok taken
  | taken, (name, replicaSets) :: rest =>
    if t.storageGroups.contains name then do
      let taken ← allocate name taken replicaSets
      allocateAll t taken rest
    else
      .error (.storageGroupNotFound name)

/-- Appends region groups to those of a storage group. -/
def appendRegionGroups (groups : SortedMap String StorageGroupPartition)
    (e : String × List ReplicaSet) : SortedMap String StorageGroupPartition :=
  match groups.get? e.1 with
  | some p => groups.insert e.1 { p with regionGroups := p.regionGroups ++ e.2 }
  | none => groups

/-- Creates region groups.  An id may occur only once in the whole table. -/
def createRegionGroups (t : Table) (groups : RegionGroupMap) : Except Rejection Table := do
  let _ ← t.allocateAll (t.regionGroups.map (·.regionId)) groups.entries
  return { t with storageGroups := groups.entries.foldl appendRegionGroups t.storageGroups }

/-- Applies a command: the table after it, or the reason why the table stays as it is. -/
def apply (t : Table) : Command → Except Rejection Table
  | .registerDataNode location => t.registerDataNode location
  | .setStorageGroup schema => t.setStorageGroup schema
  | .deleteStorageGroup name => t.deleteStorageGroup name
  | .createRegionGroups groups => t.createRegionGroups groups

end Table

end ControlPlane
