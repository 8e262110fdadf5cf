import ControlPlane.SortedMap
import ControlPlane.Text.Utf8

/-!
# ControlPlane.Storage.Disk

What a node keeps across restarts: its part of the consensus log, by index, and five named values.
Everything is bytes.  The disk changes by single writes only, each of which happens as a whole or
not at all; an operation that was interrupted has done the first few of its writes.
-/

namespace ControlPlane.Storage

/-- The named values on a disk. -/
inductive Key
  | vote
  | lastPurged
  | applied
  | snapshotIndex
  | currentSnapshot
  deriving DecidableEq, Repr

/-- The contents of a disk.  The log is the map by index of a tree by the bytes of indices. -/
structure Disk where
  log : SortedMap UInt64 Bytes
  value : Key → Option Bytes

/-- One write. -/
inductive Write
  | putEntry (index : UInt64) (bytes : Bytes)
  | removeEntry (index : UInt64)
  | putValue (key : Key) (bytes : Bytes)
  /-- Several named values at once. -/
  | putValues (values : List (Key × Bytes))
  deriving DecidableEq

namespace Disk

/-- A new disk. -/
def empty : Disk := ⟨SortedMap.empty, fun _ => none⟩

instance : Inhabited Disk := ⟨empty⟩

/-- Sets a named value. -/
def putValue (d : Disk) (key : Key) (bytes : Bytes) : Disk :=
  { d with value := fun k => if k = key then some bytes else d.value k }

/-- Does one write. -/
def write (d : Disk) : Write → Disk
  | .putEntry index bytes => { d with log := d.log.insert index bytes }
  | .removeEntry index => { d with log := d.log.erase index }
  | .putValue key bytes => d.putValue key bytes
  | .putValues values => values.foldl (fun d v => d.putValue v.1 v.2) d

/-- Does writes in order. -/
def writeAll (d : Disk) (writes : List Write) : Disk := writes.foldl write d

end Disk

end ControlPlane.Storage
