import ControlPlane.Number.Decimal
import ControlPlane.SortedMap
import ControlPlane.StorageGroup
import ControlPlane.Wire.Error

/-!
# ControlPlane.Command

The configuration commands, by which alone the partition table changes.  A command that creates
region groups keeps them in a sorted map, so the order in which different storage groups were added
leaves no trace in it.
-/

namespace ControlPlane

/-- The kinds of commands. -/
inductive CommandKind
  | registerDataNode
  | setStorageGroup
  | deleteStorageGroup
  | createRegionGroups
  deriving DecidableEq, Repr

namespace CommandKind

/-- Every kind, in the order of tags. -/
def all : List CommandKind :=
  [.registerDataNode, .setStorageGroup, .deleteStorageGroup, .createRegionGroups]

/-- The tag of a kind on the wire.  Logs outlive programs, so a tag is never given to another
kind. -/
def tag : CommandKind → Int32
  | .registerDataNode => 0
  | .setStorageGroup => 1
  | .deleteStorageGroup => 2
  | .createRegionGroups => 3

/-- The kind of a tag. -/
def ofTag (tag : Int32) : Except Wire.DecodeError CommandKind :=
  if tag = 0 then .ok .registerDataNode
  else if tag = 1 then .ok .setStorageGroup
  else if tag = 2 then .ok .deleteStorageGroup
  else if tag = 3 then .ok .createRegionGroups
  else .error (.unknownKind tag)

/-- The name of a kind. -/
def name : CommandKind → String
  | .registerDataNode => "RegisterDataNode"
  | .setStorageGroup => "SetStorageGroup"
  | .deleteStorageGroup => "DeleteStorageGroup"
  | .createRegionGroups => "CreateRegionGroups"

/-- A kind is shown as its name and tag. -/
def label (k : CommandKind) : String := k.name ++ "(" ++ Decimal.text k.tag.toInt ++ ")"

theorem ofTag_tag (k : CommandKind) : ofTag k.tag = .ok k := by
  cases k <;> rfl

end CommandKind

/-- The region groups that a command creates, by storage group. -/
abbrev RegionGroupMap := SortedMap String (List ReplicaSet)

namespace RegionGroupMap

/-- Appends a replica set to those of a storage group. -/
def add (m : RegionGroupMap) (storageGroup : String) (replicaSet : ReplicaSet) : RegionGroupMap :=
  m.insert storageGroup ((m.get? storageGroup).getD [] ++ [replicaSet])

/-- The map that results from adding these pairs in order. -/
def build (pairs : List (String × ReplicaSet)) : RegionGroupMap :=
  pairs.foldl (fun m p => RegionGroupMap.add m p.1 p.2) SortedMap.empty

end RegionGroupMap

/-- A configuration command. -/
inductive Command
  | registerDataNode (location : Location)
  | setStorageGroup (schema : StorageGroupSchema)
  | deleteStorageGroup (name : String)
  | createRegionGroups (groups : RegionGroupMap)
  deriving DecidableEq

/-- The kind of a command. -/
def Command.kind : Command → CommandKind
  | .registerDataNode _ => .registerDataNode
  | .setStorageGroup _ => .setStorageGroup
  | .deleteStorageGroup _ => .deleteStorageGroup
  | .createRegionGroups _ => .createRegionGroups

end ControlPlane
