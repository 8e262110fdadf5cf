import ControlPlane.Command.Wire
import ControlPlane.Table

/-!
# ControlPlane.State

The replicated state: the table, and the position in the log that it reflects.  Commands arrive as
bytes.  Bytes that are no command leave the state alone; what happens then is a matter of policy,
which the storage decides.
-/

namespace ControlPlane

/-- What applying a log entry came to. -/
inductive Outcome
  /-- The command took effect; so does an entry that holds none. -/
  | applied
  /-- The table refused the command. -/
  | rejected (reason : Rejection)
  /-- The bytes are no command and were passed over. -/
  | skipped (reason : String)
  deriving DecidableEq, Repr

/-- What a node does with a log entry whose bytes are no command. -/
inductive DecodePolicy
  /-- Stop applying. -/
  | halt
  /-- Pass over it. -/
  | skip
  deriving DecidableEq, Repr

/-- The policy as it is written in a config. -/
def DecodePolicy.name : DecodePolicy → String
  | .halt => "halt"
  | .skip => "skip"

/-- The replicated state. -/
structure State where
  table : Table
  lastAppliedIndex : UInt64
  deriving DecidableEq

/-- What a client is shown of the state, with the leader and term that the node knows of. -/
structure View where
  dataNodes : List Location
  storageGroups : SortedMap String StorageGroupPartition
  lastAppliedIndex : UInt64
  leaderId : Option UInt64
  term : UInt64

/-- The number of region groups in a view. -/
def View.regionGroupCount (v : View) : Nat :=
  (v.storageGroups.values.flatMap (·.regionGroups)).length

namespace State

/-- The state before the first log entry. -/
def initial : State := ⟨Table.empty, 0⟩

instance : Inhabited State := ⟨initial⟩

/-- Applies a command to the table; a rejected one leaves the state as it is. -/
def apply (s : State) (c : Command) : Outcome × State :=
  match s.table.apply c with
  | .ok table => (.applied, { s with table })
  | .error reason => (.rejected reason, s)

/-- Applies the command that these bytes are. -/
def applyEncoded (s : State) (bytes : Bytes) : Except Wire.DecodeError (Outcome × State) := do
  let c ← Command.decode bytes
  return s.apply c

/-- The view of a state. -/
def view (s : State) (leaderId : Option UInt64) (term : UInt64) : View where
  dataNodes := s.table.dataNodes.values
  storageGroups := s.table.storageGroups
  lastAppliedIndex := s.lastAppliedIndex
  leaderId
  term

end State

end ControlPlane
