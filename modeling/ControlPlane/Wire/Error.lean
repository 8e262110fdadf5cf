import ControlPlane.Number.Decimal
import ControlPlane.Text.Quoted

/-!
# ControlPlane.Wire.Error

Why bytes are refused as a command, and why a command cannot be written.  Every cause is one
constructor that carries the facts; the wording is in `message`.
-/

namespace ControlPlane.Wire

/-- The fields of the wire format, as the error texts name them. -/
inductive Field
  | kindTag
  | storageGroupName
  | ttl
  | schemaReplicationFactor
  | dataReplicationFactor
  | timePartitionInterval
  | storageGroupCount
  | replicaSetCount
  | groupType
  | groupId
  | locationCount
  | dataNodeId
  | endpointIp
  | endpointPort
  deriving DecidableEq, Repr

/-- The name of a field in an error text. -/
def Field.label : Field → String
  | .kindTag => "command kind tag"
  | .storageGroupName => "storage group name"
  | .ttl => "ttl"
  | .schemaReplicationFactor => "schema replication factor"
  | .dataReplicationFactor => "data replication factor"
  | .timePartitionInterval => "time partition interval"
  | .storageGroupCount => "storage group count"
  | .replicaSetCount => "region replica set count"
  | .groupType => "consensus group type"
  | .groupId => "consensus group id"
  | .locationCount => "data node location count"
  | .dataNodeId => "data node id"
  | .endpointIp => "endpoint ip"
  | .endpointPort => "endpoint port"

/-- Why a byte string is refused. -/
inductive DecodeError
  /-- A fixed-size field lacks bytes. -/
  | truncated (field : Field) (needed remaining : Nat)
  /-- The tag names no command kind. -/
  | unknownKind (tag : Int32)
  /-- A length or count is below zero. -/
  | negativeLength (field : Field) (value : Int32)
  /-- A length or count that the bytes left could never satisfy. -/
  | countTooLarge (field : Field) (count : Int32) (remaining : Nat)
  /-- The bytes of a text are not UTF-8. -/
  | invalidUtf8 (field : Field)
  /-- The code names no consensus group type. -/
  | unknownGroupType (value : Int32)
  /-- The storage groups of a command do not come in increasing order. -/
  | nonCanonicalOrder (key : String)
  /-- Bytes are left after a complete command. -/
  | trailingBytes (count : Nat)
  deriving DecidableEq, Repr

/-- The text of a decode error. -/
def DecodeError.message : DecodeError → String
  | .truncated field needed remaining =>
    "truncated stream: needed " ++ Decimal.natural needed ++ " bytes for " ++ field.label ++ ", "
      ++ Decimal.natural remaining ++ " remaining"
  | .unknownKind tag => "unknown command kind tag " ++ Decimal.text tag.toInt
  | .negativeLength field value => "negative " ++ field.label ++ ": " ++ Decimal.text value.toInt
  | .countTooLarge field count remaining =>
    field.label ++ " of " ++ Decimal.text count.toInt ++ " cannot fit in "
      ++ Decimal.natural remaining ++ " remaining bytes"
  | .invalidUtf8 field => "invalid UTF-8 in " ++ field.label
  | .unknownGroupType value => "unknown consensus group type " ++ Decimal.text value.toInt
  | .nonCanonicalOrder key =>
    "storage group " ++ Text.quoted key ++ " is out of order or duplicated"
  | .trailingBytes count => Decimal.natural count ++ " trailing bytes after a complete command"

/-- Why a command cannot be written. -/
inductive EncodeError
  /-- A length or count exceeds what its 32-bit field can hold. -/
  | tooLarge (field : Field) (length : Nat)
  /-- The sink refused bytes. -/
  | sink (reason : String)
  deriving DecidableEq, Repr

/-- The text of an encode error. -/
def EncodeError.message : EncodeError → String
  | .tooLarge field length =>
    field.label ++ " of " ++ Decimal.natural length ++ " does not fit an int32 frame"
  | .sink reason => "failed to write command: " ++ reason

end ControlPlane.Wire
