import ControlPlane.Number.Decimal

/-!
# ControlPlane.Region

Where data lives.  A region group is a consensus group of one of two types; its replica set lists
the data nodes that hold a replica, each with the endpoint it is reached at.
-/

namespace ControlPlane

/-- What a region group stores.  Schema regions order before data regions. -/
inductive GroupType
  | schemaRegion
  | dataRegion
  deriving DecidableEq, Repr

namespace GroupType

/-- The code of a group type on the wire. -/
def code : GroupType → Int32
  | .schemaRegion => 0
  | .dataRegion => 1

/-- The group type of a code. -/
def ofCode? (c : Int32) : Option GroupType :=
  if c = 0 then some .schemaRegion else if c = 1 then some .dataRegion else none

/-- The name of a group type, in texts and in JSON. -/
def name : GroupType → String
  | .schemaRegion => "SchemaRegion"
  | .dataRegion => "DataRegion"

theorem ofCode?_eq_some_iff {c : Int32} {t : GroupType} : ofCode? c = some t ↔ c = t.code := by
  cases t <;> simp only [ofCode?, code] <;> grind

end GroupType

/-- The identity of a region group: its type, and a number within the type. -/
structure GroupId where
  groupType : GroupType
  id : Int32
  deriving DecidableEq, Repr

namespace GroupId

/-- A region group is shown as its type and number. -/
def label (g : GroupId) : String := g.groupType.name ++ "-" ++ Decimal.text g.id.toInt

/-- The order of region groups: by type, then by number. -/
def le (a b : GroupId) : Bool :=
  a.groupType.code < b.groupType.code || (a.groupType == b.groupType && a.id ≤ b.id)

/-- Region groups in order. -/
def sort (ids : List GroupId) : List GroupId := ids.mergeSort le

end GroupId

/-- An address of a data node inside the cluster. -/
structure Endpoint where
  ip : String
  port : Int32
  deriving DecidableEq, Repr

/-- An endpoint is shown as `ip:port`. -/
def Endpoint.label (e : Endpoint) : String := e.ip ++ ":" ++ Decimal.text e.port.toInt

/-- A data node and where it is reached. -/
structure Location where
  dataNodeId : Int32
  internalEndpoint : Endpoint
  deriving DecidableEq, Repr

/-- The placement of one region group: which data nodes hold a replica. -/
structure ReplicaSet where
  regionId : GroupId
  locations : List Location
  deriving DecidableEq, Repr

end ControlPlane
