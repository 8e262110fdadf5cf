import ControlPlane.NodeSet
import ControlPlane.Number.Decimal
import ControlPlane.State

/-!
# ControlPlane.Consensus.Types

The vocabulary of the consensus log.  Leaders are ordered by term, then by node; entries by their
leader, then by index; votes by their leader, then by whether a majority stands behind them.
-/

namespace ControlPlane

/-- A node as the cluster's membership records it. -/
structure Member where
  addr : String
  hostname : String
  deriving DecidableEq, Repr

/-- A member is shown as `hostname@addr`. -/
def Member.label (m : Member) : String := m.hostname ++ "@" ++ m.addr

/-- A member with its fields by name, as refusals to lead cite it. -/
def Member.details (m : Member) : String :=
  "PlaneNode \x7b addr: " ++ Text.quoted m.addr ++ ", hostname: " ++ Text.quoted m.hostname
    ++ " \x7d"

namespace Consensus

/-- A value that may be absent, as refusals cite it. -/
def citeOption : Option String → String
  | some s => "Some(" ++ s ++ ")"
  | none => "None"

/-- A leader: the node that a term elects.  Within a term, a later node outranks an earlier one. -/
structure LeaderId where
  term : UInt64
  nodeId : UInt64
  deriving DecidableEq, Repr

/-- A leader is shown as its term and node. -/
def LeaderId.label (l : LeaderId) : String :=
  "T" ++ Decimal.natural l.term.toNat ++ "-N" ++ Decimal.natural l.nodeId.toNat

/-- A leader with its fields by name. -/
def LeaderId.details (l : LeaderId) : String :=
  "LeaderId \x7b term: " ++ Decimal.natural l.term.toNat ++ ", node_id: "
    ++ Decimal.natural l.nodeId.toNat ++ " \x7d"

/-- The order of leaders: by term, then by node. -/
def LeaderId.compare (a b : LeaderId) : Ordering :=
  (Ord.compare a.term b.term).then (Ord.compare a.nodeId b.nodeId)

/-- The identity of a log entry: who proposed it, and its place. -/
structure LogId where
  leaderId : LeaderId
  index : UInt64
  deriving DecidableEq, Repr

/-- A log entry is shown as its leader and place. -/
def LogId.label (l : LogId) : String :=
  l.leaderId.label ++ "-" ++ Decimal.natural l.index.toNat

/-- A log entry with its fields by name. -/
def LogId.details (l : LogId) : String :=
  "LogId \x7b leader_id: " ++ l.leaderId.details ++ ", index: " ++ Decimal.natural l.index.toNat
    ++ " \x7d"

/-- The order of log entries: by leader, then by index. -/
def LogId.compare (a b : LogId) : Ordering :=
  (a.leaderId.compare b.leaderId).then (Ord.compare a.index b.index)

/-- The order of positions in a log, the empty log first. -/
def compareLast : Option LogId → Option LogId → Ordering
  | none, none => .eq
  | none, some _ => .lt
  | some _, none => .gt
  | some a, some b => a.compare b

/-- The greater of two positions. -/
def maxLast (a b : Option LogId) : Option LogId := if compareLast a b = .lt then b else a

/-- The smaller of two positions. -/
def minLast (a b : Option LogId) : Option LogId := if compareLast b a = .lt then b else a

/-- A vote: for whom, and whether a majority stands behind it, which makes it a leader's. -/
structure Vote where
  leaderId : LeaderId
  committed : Bool
  deriving DecidableEq, Repr

/-- The order of votes: by leader, then by standing. -/
def Vote.compare (a b : Vote) : Ordering :=
  (a.leaderId.compare b.leaderId).then
    (match a.committed, b.committed with
      | false, true => .lt
      | true, false => .gt
      | _, _ => .eq)

/-- The vote that precedes all others, which a new node holds. -/
def Vote.initial : Vote := ⟨⟨0, 0⟩, false⟩

/-- Who belongs to a cluster: the sets of voters, of each of which a majority is needed, and all
nodes, voters or not, by id. -/
structure Membership where
  configs : List NodeSet
  nodes : SortedMap UInt64 Member
  deriving DecidableEq

/-- The membership of a cluster that does not exist yet. -/
def Membership.empty : Membership := ⟨[], SortedMap.empty⟩

/-- The ids that vote in any of the sets, in increasing order. -/
def Membership.voters (m : Membership) : List UInt64 :=
  (NodeSet.ofList (m.configs.flatMap NodeSet.toList)).toList

/-- A membership whose voters all have a node record; those without one get an empty one. -/
def Membership.withVoters (configs : List NodeSet) (nodes : SortedMap UInt64 Member) :
    Membership where
  configs
  nodes := (configs.flatMap NodeSet.toList).foldl
    (fun ns id => if ns.contains id then ns else ns.insert id ⟨"", ""⟩) nodes

/-- Adds a node that does not vote.  A node that is there keeps its record. -/
def Membership.addNode (m : Membership) (id : UInt64) (node : Member) : Membership :=
  if m.nodes.contains id then m else { m with nodes := m.nodes.insert id node }

/-- Whether some ids are a majority of a set. -/
def isMajority (ids : List UInt64) (set : NodeSet) : Bool :=
  set.size < 2 * (set.toList.filter ids.contains).length

/-- Whether some ids are a majority of every set of voters. -/
def Membership.isQuorum (m : Membership) (ids : List UInt64) : Bool :=
  m.configs.all (isMajority ids)

/-- A membership with the entry that brought it. -/
structure StoredMembership where
  logId : Option LogId
  membership : Membership
  deriving DecidableEq

/-- The membership before any entry. -/
def StoredMembership.initial : StoredMembership := ⟨none, Membership.empty⟩

/-- What a log entry holds. -/
inductive Payload
  | blank
  | normal (command : Bytes)
  | membership (membership : Membership)
  deriving DecidableEq

/-- An entry of the consensus log. -/
structure Entry where
  logId : LogId
  payload : Payload
  deriving DecidableEq

/-- What is known of a snapshot: the last entry that it covers, the membership in force there, and
a name that no other snapshot has. -/
structure SnapshotMeta where
  lastLogId : Option LogId
  lastMembership : StoredMembership
  snapshotId : String
  deriving DecidableEq

/-- A snapshot: the bytes of a state, and what is known of them. -/
structure Snapshot where
  about : SnapshotMeta
  data : Bytes
  deriving DecidableEq

end Consensus

end ControlPlane
