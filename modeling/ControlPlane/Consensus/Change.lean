import ControlPlane.Consensus.Types

/-!
# ControlPlane.Consensus.Change

Changes to who belongs to a cluster.  Nodes are added as members that do not vote, or as voters.  A
change of the voters takes two steps: first the old and the new voters decide together, then the new
ones alone.
-/

namespace ControlPlane.Consensus

/-- A change to the membership. -/
inductive ChangeMembers
  /-- Nodes that belong to the cluster are to vote. -/
  | addVoterIds (ids : NodeSet)
  /-- Nodes are added, and are to vote. -/
  | addVoters (nodes : SortedMap UInt64 Member)
  /-- Nodes are added that do not vote.  A node that is there keeps its record. -/
  | addNodes (nodes : SortedMap UInt64 Member)

/-- Why a membership is not changed. -/
inductive ChangeError
  /-- The membership in force is not committed yet. -/
  | inProgress (committed effective : Option LogId)
  /-- A set of voters would be empty. -/
  | emptyMembership
  /-- A voter would have no node record. -/
  | learnerNotFound (id : UInt64)
  deriving DecidableEq

/-- The text of a membership that is not changed. -/
def ChangeError.message : ChangeError → String
  | .inProgress committed effective =>
    "the cluster is already undergoing a configuration change at log "
      ++ citeOption (effective.map LogId.details)
      ++ ", last committed membership log id: " ++ citeOption (committed.map LogId.details)
  | .emptyMembership => "new membership can not be empty"
  | .learnerNotFound id =>
    "Learner " ++ Decimal.natural id.toNat
      ++ " not found: add it as learner before adding it as a voter"

/-- Whether an id is in one of some sets of voters. -/
def votes (configs : List NodeSet) (id : UInt64) : Bool := configs.any (·.contains id)

/-- The sets of voters on the way to one set: that alone if it decides already, and else together
with the last set that does. -/
def coherent (configs : List NodeSet) (goal : NodeSet) : List NodeSet :=
  if goal ∈ configs then [goal]
  else
    match configs.getLast? with
    | some last => [last, goal]
    | none => [goal]

namespace Membership

/-- Whether a node belongs to the cluster, as a voter or else. -/
def contains (m : Membership) (id : UInt64) : Bool := votes m.configs id || m.nodes.contains id

/-- Adds nodes that do not vote.  A node that is there keeps its record. -/
def addNodes (m : Membership) (nodes : SortedMap UInt64 Member) : Membership :=
  nodes.toList.foldl (fun m e => m.addNode e.1 e.2) m

/-- The set of voters that was added last. -/
def lastConfig (m : Membership) : NodeSet := m.configs.getLast?.getD .empty

/-- The membership on the way to a set of voters.  Voters that are voters no more do not belong to
the cluster any longer, unless they are to be retained. -/
def nextCoherent (m : Membership) (goal : NodeSet) (retain : Bool) : Membership where
  configs := coherent m.configs goal
  nodes :=
    if retain then m.nodes
    else m.nodes.filterKeys fun id => !votes m.configs id || votes (coherent m.configs goal) id

/-- A membership, if no set of voters in it is empty and each voter has a node record. -/
def ensureValid (m : Membership) : Except ChangeError Membership :=
  if m.configs.any (·.size = 0) then .error .emptyMembership
  else
    match m.voters.find? fun id => !m.nodes.contains id with
    | some id => .error (.learnerNotFound id)
    | none => .ok m

/-- The membership that a change makes of one. -/
def change (m : Membership) (retain : Bool) : ChangeMembers → Except ChangeError Membership
  | .addVoterIds ids => (m.nextCoherent (m.lastConfig.union ids) retain).ensureValid
  | .addVoters nodes =>
    ((m.addNodes nodes).nextCoherent (m.lastConfig.union (.ofList nodes.keys)) retain).ensureValid
  | .addNodes nodes => (m.addNodes nodes).ensureValid

end Membership

end ControlPlane.Consensus
