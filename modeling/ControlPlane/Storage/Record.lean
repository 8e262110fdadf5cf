import ControlPlane.Consensus.Types
import ControlPlane.Wire.Frame

/-!
# ControlPlane.Storage.Record

Small records of fixed size at rest: votes, positions in the log, and the number of the last
snapshot.  Numbers take eight bytes, the least significant first.
-/

namespace ControlPlane.Storage

open Consensus

/-- The eight bytes of a number, least significant first. -/
def putWord (n : UInt64) : Bytes := (Wire.putInt64 n.toInt64).reverse

/-- The number in the first eight bytes, and the bytes behind it. -/
def takeWord? (b : Bytes) : Option (UInt64 × Bytes) :=
  if b.length < 8 then none
  else some (UInt64.ofNat (Wire.bigEndian (b.take 8).reverse), b.drop 8)

/-- A value with a record of fixed size. -/
class Fixed (α : Type) where
  put : α → Bytes
  take? : Bytes → Option (α × Bytes)

instance : Fixed UInt64 where
  put := putWord
  take? := takeWord?

instance : Fixed LeaderId where
  put l := putWord l.term ++ putWord l.nodeId
  take? b := do
    let (term, b) ← takeWord? b
    let (nodeId, b) ← takeWord? b
    return (⟨term, nodeId⟩, b)

instance : Fixed LogId where
  put l := Fixed.put l.leaderId ++ putWord l.index
  take? b := do
    let (leaderId, b) ← Fixed.take? b
    let (index, b) ← takeWord? b
    return (⟨leaderId, index⟩, b)

instance : Fixed Vote where
  put v := Fixed.put v.leaderId ++ [if v.committed then 1 else 0]
  take? b := do
    let (leaderId, b) ← Fixed.take? b
    match b with
    | 0 :: b => return (⟨leaderId, false⟩, b)
    | 1 :: b => return (⟨leaderId, true⟩, b)
    | _ => none

/-- The value at the front of a record. -/
def Fixed.get? {α : Type} [Fixed α] (b : Bytes) : Option α := (Fixed.take? b).map (·.1)

end ControlPlane.Storage
