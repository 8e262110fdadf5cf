import ControlPlane.Command
import ControlPlane.Region.Wire

/-!
# ControlPlane.Command.Wire

The wire form of commands: a 32-bit kind tag, then the payload of that kind.  `Command.reader` takes
one command off the front of a stream; `Command.decode` accepts exactly one command and nothing
behind it, so that a byte string has one meaning on every node.
-/

namespace ControlPlane

open Wire

namespace StorageGroupSchema

/-- The settings in order, the name first. -/
def encode (s : StorageGroupSchema) : Except EncodeError Bytes := do
  let name ← putText .storageGroupName s.name
  return name ++ putInt64 s.ttlMs ++ putInt32 s.schemaReplicationFactor
    ++ putInt32 s.dataReplicationFactor ++ putInt64 s.timePartitionIntervalMs

/-- Reads what `encode` writes. -/
def reader : Reader StorageGroupSchema := do
  let name ← Reader.text .storageGroupName
  let ttlMs ← Reader.int64 .ttl
  let schemaReplicationFactor ← Reader.int32 .schemaReplicationFactor
  let dataReplicationFactor ← Reader.int32 .dataReplicationFactor
  let timePartitionIntervalMs ← Reader.int64 .timePartitionInterval
  return { name, ttlMs, schemaReplicationFactor, dataReplicationFactor, timePartitionIntervalMs }

end StorageGroupSchema

namespace RegionGroupMap

/-- The fewest bytes of an encoded entry: the lengths of its name and of its list. -/
def minEntryLength : Nat := 8

/-- One storage group: its name, and its replica sets behind their count. -/
def encodeEntry (e : String × List ReplicaSet) : Except EncodeError Bytes := do
  let name ← putText .storageGroupName e.1
  let count ← putLength .replicaSetCount e.2.length
  let replicaSets ← putMany ReplicaSet.encode e.2
  return name ++ count ++ replicaSets

/-- The entries in order of names, behind their count. -/
def encode (m : RegionGroupMap) : Except EncodeError Bytes := do
  let count ← putLength .storageGroupCount m.size
  let entries ← putMany encodeEntry m.entries
  return count ++ entries

/-- Reads `n` more entries into a map.  Each name must be greater than all before it; this is found
as soon as the name is read. -/
def entriesReader : Nat → RegionGroupMap → Reader RegionGroupMap
  | 0, m => return m
  | n + 1, m => do
    let name ← Reader.text .storageGroupName
    if m.last?.any fun last => compare name last.1 != .gt then
      Reader.fail (.nonCanonicalOrder name)
    else
      let count ← Reader.count .replicaSetCount ReplicaSet.minLength
      let replicaSets ← Reader.many ReplicaSet.reader count
      entriesReader n (m.insert name replicaSets)

/-- Reads what `encode` writes. -/
def reader : Reader RegionGroupMap := do
  let count ← Reader.count .storageGroupCount minEntryLength
  entriesReader count SortedMap.empty

end RegionGroupMap

namespace Command

/-- The payload of a command. -/
def encodePayload : Command → Except EncodeError Bytes
  | .registerDataNode location => location.encode
  | .setStorageGroup schema => schema.encode
  | .deleteStorageGroup name => putText .storageGroupName name
  | .createRegionGroups groups => RegionGroupMap.encode groups

/-- The bytes of a command. -/
def encode (c : Command) : Except EncodeError Bytes := do
  let payload ← c.encodePayload
  return putInt32 c.kind.tag ++ payload

/-- Reads the payload of a kind. -/
def payloadReader : CommandKind → Reader Command
  | .registerDataNode => do return .registerDataNode (← Location.reader)
  | .setStorageGroup => do return .setStorageGroup (← StorageGroupSchema.reader)
  | .deleteStorageGroup => do return .deleteStorageGroup (← Reader.text .storageGroupName)
  | .createRegionGroups => do return .createRegionGroups (← RegionGroupMap.reader)

/-- Reads one command off the front of a stream. -/
def reader : Reader Command := do
  let tag ← Reader.int32 .kindTag
  match CommandKind.ofTag tag with
  | .ok kind => payloadReader kind
  | .error e => Reader.fail e

/-- The command that these bytes are, with nothing left behind it. -/
def decode (b : Bytes) : Except DecodeError Command :=
  match reader b with
  | (.ok c, []) => .ok c
  | (.ok _, rest) => .error (.trailingBytes rest.length)
  | (.error e, _) => .error e

end Command

end ControlPlane
