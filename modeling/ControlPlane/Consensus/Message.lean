import ControlPlane.Consensus.Types

/-!
# ControlPlane.Consensus.Message

What nodes say to each other: a candidate asks for a vote, a leader sends entries, and to a node
that is far behind it sends a snapshot in pieces.  A node that has stopped answers everything with
the reason.
-/

namespace ControlPlane.Consensus

/-! ## Votes -/

/-- A candidate asks for a vote.  Its log counts too. -/
structure VoteRequest where
  vote : Vote
  lastLogId : Option LogId
  deriving DecidableEq, Repr

/-- The answer: the vote that the node holds now, and the end of its log. -/
structure VoteResponse where
  vote : Vote
  granted : Bool
  lastLogId : Option LogId
  deriving DecidableEq, Repr

/-! ## Entries -/

/-- A leader sends entries, those behind a position; without any it only says that it is there. -/
structure AppendRequest where
  vote : Vote
  previous : Option LogId
  entries : List Entry
  leaderCommit : Option LogId
  deriving DecidableEq

/-- The answer to entries. -/
inductive AppendResponse
  /-- The node has all of them. -/
  | success
  /-- The node has those up to here. -/
  | partialSuccess (upTo : Option LogId)
  /-- The node lacks the entry in front of them. -/
  | conflict
  /-- The node holds a later vote. -/
  | higherVote (vote : Vote)
  deriving DecidableEq, Repr

/-! ## Snapshots -/

/-- A leader sends a piece of a snapshot. -/
structure InstallRequest where
  vote : Vote
  about : SnapshotMeta
  offset : UInt64
  data : Bytes
  /-- Whether this is the last piece. -/
  done : Bool
  deriving DecidableEq

/-- The answer to a piece: the vote that the node holds. -/
structure InstallResponse where
  vote : Vote
  deriving DecidableEq, Repr

/-- A place in a snapshot that is sent. -/
structure Segment where
  id : String
  offset : UInt64
  deriving DecidableEq, Repr

/-- Why a piece is refused: it continues a snapshot that the node does not know. -/
inductive InstallError
  | mismatch (expected got : Segment)
  deriving DecidableEq, Repr

/-! ## Nodes that have stopped -/

/-- The name of a snapshot together with the positions that it covers. -/
structure Signature where
  lastLogId : Option LogId
  lastMembershipLogId : Option LogId
  snapshotId : String
  deriving DecidableEq, Repr

/-- What a failing access to the storage was about. -/
inductive FaultSubject
  | store
  | vote
  | logs
  | log (id : LogId)
  | apply (id : LogId)
  | stateMachine
  | snapshot (signature : Option Signature)
  | nothing
  deriving DecidableEq, Repr

/-- What a failing access to the storage did. -/
inductive FaultVerb
  | read
  | write
  | seek
  | delete
  deriving DecidableEq, Repr

/-- What lies behind a failure, in words; behind it there may be another. -/
inductive Cause
  | mk (kind : Option String) (message : String) (source : Option Cause) (context : List String)
    (trace : Option String)
  deriving Repr

/-- A failing access to the storage. -/
structure StorageFault where
  subject : FaultSubject
  verb : FaultVerb
  cause : Cause
  trace : Option String
  deriving Repr

/-- Why a node takes no part any more. -/
inductive Fatal
  | storage (fault : StorageFault)
  | panicked
  | stopped
  deriving Repr

/-- Why a request has no answer: a reason of its own, or that the node has stopped. -/
inductive Refusal (ε : Type)
  | request (reason : ε)
  | fatal (reason : Fatal)
  deriving Repr

/-- The answer to a request that may be refused. -/
abbrev Answer (ε α : Type) : Type := Except (Refusal ε) α

end ControlPlane.Consensus
