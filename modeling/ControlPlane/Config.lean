import ControlPlane.Number.Decimal
import ControlPlane.State

/-!
# ControlPlane.Config

The settings of a node, their defaults, and the conditions under which a node accepts them.
-/

namespace ControlPlane

/-- Another node of the cluster, as an operator names it. -/
structure Peer where
  nodeId : UInt64
  addr : String
  isVoter : Bool
  deriving DecidableEq, Repr

/-- The intervals of the consensus protocol, in milliseconds. -/
structure Timing where
  heartbeatIntervalMs : UInt64 := 500
  electionTimeoutMinMs : UInt64 := 1500
  electionTimeoutMaxMs : UInt64 := 3000
  deriving DecidableEq, Repr

/-- The settings of a node. -/
structure Config where
  nodeId : UInt64 := 1
  hostname : Option String := none
  bindAddr : String := "0.0.0.0"
  bindPort : UInt16 := 10710
  advertiseAddr : Option String := none
  dataDir : String := "/var/lib/metaplane"
  peers : List Peer := []
  bootstrap : Bool := false
  raft : Timing := {}
  onDecodeError : DecodePolicy := .halt
  statusIntervalSecs : UInt64 := 30
  deriving DecidableEq, Repr

namespace Config

/-- The settings of a node that is told nothing. -/
def default : Config := {}

instance : Inhabited Config := ⟨default⟩

/-- Why settings are refused. -/
inductive Invalid
  | electionMinTooSmall
  | electionMaxTooSmall
  | peersIncludeSelf (nodeId : UInt64)
  deriving DecidableEq, Repr

/-- The text for refused settings. -/
def Invalid.message : Invalid → String
  | .electionMinTooSmall =>
    "raft.election_timeout_min_ms must exceed raft.heartbeat_interval_ms"
  | .electionMaxTooSmall =>
    "raft.election_timeout_max_ms must exceed raft.election_timeout_min_ms"
  | .peersIncludeSelf nodeId =>
    "peers must not include this node (" ++ Decimal.natural nodeId.toNat ++ ")"

/-- Settings are accepted if heartbeats come faster than elections start, elections start at
different times, and no peer is the node itself. -/
def validate (c : Config) : Except Invalid Unit :=
  if c.raft.electionTimeoutMinMs ≤ c.raft.heartbeatIntervalMs then
    .error .electionMinTooSmall
  else if c.raft.electionTimeoutMaxMs ≤ c.raft.electionTimeoutMinMs then
    .error .electionMaxTooSmall
  else if c.peers.any (·.nodeId == c.nodeId) then
    .error (.peersIncludeSelf c.nodeId)
  else .ok ()

/-- The address that the node listens at. -/
def listenAddr (c : Config) : String := c.bindAddr ++ ":" ++ Decimal.natural c.bindPort.toNat

/-- The address that others reach the node at: by default the local one. -/
def effectiveAdvertiseAddr (c : Config) : String :=
  c.advertiseAddr.getD ("127.0.0.1:" ++ Decimal.natural c.bindPort.toNat)

end Config

end ControlPlane
