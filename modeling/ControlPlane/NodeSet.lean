import ControlPlane.SortedMap

/-!
# ControlPlane.NodeSet

Finite sets of node ids, in increasing order.
-/

namespace ControlPlane

/-- A finite set of node ids. -/
structure NodeSet where
  marks : SortedMap UInt64 Unit
  deriving DecidableEq

namespace NodeSet

/-- The set of the ids in a list. -/
def ofList (ids : List UInt64) : NodeSet := ⟨SortedMap.ofList (ids.map (·, ()))⟩

/-- The ids in increasing order. -/
def toList (s : NodeSet) : List UInt64 := s.marks.keys

/-- No ids. -/
def empty : NodeSet := ⟨SortedMap.empty⟩

/-- Whether an id is in the set. -/
def contains (s : NodeSet) (id : UInt64) : Bool := s.marks.contains id

/-- Adds an id. -/
def insert (s : NodeSet) (id : UInt64) : NodeSet := ⟨s.marks.insert id ()⟩

/-- The ids of two sets. -/
def union (s t : NodeSet) : NodeSet := t.toList.foldl insert s

/-- The number of ids. -/
def size (s : NodeSet) : Nat := s.marks.size

end NodeSet

end ControlPlane
