import ControlPlane.Region
import ControlPlane.Wire.Frame

/-!
# ControlPlane.Region.Wire

The wire form of replica sets and of their parts.  Each encoder stands beside its reader, with the
fewest bytes that an encoded value can take: a declared count of items is refused when the bytes
left are fewer than that many minimal items.
-/

namespace ControlPlane

open Wire

namespace GroupId

/-- The fewest bytes of an encoded group id. -/
def minLength : Nat := 8

/-- Type code, then number. -/
def encode (g : GroupId) : Except EncodeError Bytes :=
  .ok (putInt32 g.groupType.code ++ putInt32 g.id)

/-- Reads what `encode` writes. -/
def reader : Reader GroupId := do
  let code ← Reader.int32 .groupType
  match GroupType.ofCode? code with
  | none => Reader.fail (.unknownGroupType code)
  | some groupType =>
    let id ← Reader.int32 .groupId
    return ⟨groupType, id⟩

end GroupId

namespace Endpoint

/-- The fewest bytes of an encoded endpoint. -/
def minLength : Nat := 8

/-- Address, then port. -/
def encode (e : Endpoint) : Except EncodeError Bytes := do
  let ip ← putText .endpointIp e.ip
  return ip ++ putInt32 e.port

/-- Reads what `encode` writes. -/
def reader : Reader Endpoint := do
  let ip ← Reader.text .endpointIp
  let port ← Reader.int32 .endpointPort
  return ⟨ip, port⟩

end Endpoint

namespace Location

/-- The fewest bytes of an encoded location. -/
def minLength : Nat := 4 + Endpoint.minLength

/-- Data node, then endpoint. -/
def encode (l : Location) : Except EncodeError Bytes := do
  let endpoint ← l.internalEndpoint.encode
  return putInt32 l.dataNodeId ++ endpoint

/-- Reads what `encode` writes. -/
def reader : Reader Location := do
  let dataNodeId ← Reader.int32 .dataNodeId
  let internalEndpoint ← Endpoint.reader
  return ⟨dataNodeId, internalEndpoint⟩

end Location

namespace ReplicaSet

/-- The fewest bytes of an encoded replica set. -/
def minLength : Nat := GroupId.minLength + 4

/-- Group id, then the locations behind their count. -/
def encode (r : ReplicaSet) : Except EncodeError Bytes := do
  let regionId ← r.regionId.encode
  let count ← putLength .locationCount r.locations.length
  let locations ← putMany Location.encode r.locations
  return regionId ++ count ++ locations

/-- Reads what `encode` writes. -/
def reader : Reader ReplicaSet := do
  let regionId ← GroupId.reader
  let count ← Reader.count .locationCount Location.minLength
  let locations ← Reader.many Location.reader count
  return ⟨regionId, locations⟩

end ReplicaSet

end ControlPlane
