import ControlPlane.Config
import ControlPlane.Node
import ControlPlane.Number.Decimal

/-!
# ControlPlane.Cluster

Several nodes that reach each other at their addresses.  The messages of an exchange are delivered
at once: what a leader writes is offered to every member that is reached, is committed when a
majority of the voters have it, and the members learn of that before the next exchange begins.
-/

namespace ControlPlane

open Consensus

/-- A node with the settings that it runs with. -/
structure Site where
  config : Config
  node : Node
  running : Bool

/-- The nodes of a cluster, in the order in which they were started. -/
structure Cluster where
  sites : List Site

namespace Cluster

/-- No nodes. -/
def empty : Cluster := ⟨[]⟩

instance : Inhabited Cluster := ⟨empty⟩

/-- The node at a place. -/
def node? (c : Cluster) (i : Nat) : Option Node := c.sites[i]?.map (·.node)

/-- Puts a node at a place, where there was one. -/
def setNode (c : Cluster) (i : Nat) (n : Node) : Cluster :=
  ⟨c.sites.modify i fun s => { s with node := n }⟩

/-- Where a node runs that is reached at an address. -/
def reach? (c : Cluster) (addr : String) : Option Nat :=
  c.sites.findIdx? fun s =>
    s.running && s.node.fatal.isNone && s.config.effectiveAdvertiseAddr == addr

/-! ## Replication -/

/-- Sends the log of a leader to another node, and tells whether that has it now. -/
def offer (c : Cluster) (leader : Node) (id : UInt64) : Bool × Cluster :=
  match (leader.addressOf id).bind c.reach? with
  | none => (false, c)
  | some i =>
    match c.node? i with
    | none => (false, c)
    | some n =>
      let (answer, n) := n.answerAppend leader.appendRequest
      (answer = .success, c.setNode i n)

/-- Sends the log of a leader to other nodes, and returns those that have it now. -/
def offerAll (c : Cluster) (leader : Node) : List UInt64 → List UInt64 × Cluster
  | [] => ([], c)
  | id :: rest =>
    let (has, c) := c.offer leader id
    let (others, c) := c.offerAll leader rest
    (if has then id :: others else others, c)

/-- The members of a leader's cluster other than itself. -/
def others (leader : Node) : List UInt64 := leader.membership.nodes.keys.filter (· ≠ leader.id)

/-- Sends the log of the node at a place to all members.  If a majority of the voters have it then,
it is committed, and the members are told.  Returns what the entries came to. -/
def replicate (c : Cluster) (i : Nat) : List Outcome × Cluster :=
  match c.node? i with
  | none => ([], c)
  | some leader =>
    let (having, c) := c.offerAll leader (others leader)
    if leader.membership.isQuorum (leader.id :: having) then
      let (outcomes, leader) := leader.commit leader.lastLogId
      (outcomes, ((c.setNode i leader).offerAll leader (others leader)).2)
    else ([], c)

/-! ## Writing -/

/-- Why a leader does not take a write. -/
inductive WriteError
  /-- The node has stopped. -/
  | fatal (reason : Fatal)
  /-- The node does not lead. -/
  | forward (leader : Node.Forward)
  /-- The membership is not changed like this. -/
  | change (reason : ChangeError)
  /-- It waits, for a majority to have the entry or for a node to have the log. -/
  | waiting

/-- The text of a reason why a node has stopped. -/
def fatalMessage : Fatal → String
  | .storage fault =>
    match fault.cause with
    | .mk _ message _ _ _ => message
  | .panicked => "panicked"
  | .stopped => "raft stopped"

/-- The text of a write that is not taken. -/
def WriteError.message : WriteError → String
  | .fatal reason => fatalMessage reason
  | .forward leader => leader.message
  | .change reason => reason.message
  | .waiting => "waiting"

/-- Puts an entry into the log of the node at a place and has it committed.  Returns where it is in
the log, and what it came to, once it was applied as the end of the log. -/
def write (c : Cluster) (i : Nat) (payload : Payload) :
    Except WriteError (LogId × Outcome) × Cluster :=
  match c.node? i with
  | none => (.error (.fatal .stopped), c)
  | some n =>
    match n.fatal with
    | some reason => (.error (.fatal reason), c)
    | none =>
      if n.leads then
        let (id, n) := n.propose payload
        let (outcomes, c) := (c.setNode i n).replicate i
        match outcomes.getLast? with
        | some outcome =>
          if n.lastLogId = some id then (.ok (id, outcome), c) else (.error .waiting, c)
        | none => (.error .waiting, c)
      else (.error (.forward n.forward), c)

/-- Why a command that was submitted has no effect. -/
inductive SubmitError
  /-- It has no bytes. -/
  | encoding (e : Wire.EncodeError)
  | write (e : WriteError)
  /-- The table refuses it. -/
  | rejected (reason : Rejection)
  /-- Its bytes were passed over. -/
  | skipped (kind : CommandKind) (id : LogId) (reason : String)

/-- The text of a command without effect. -/
def SubmitError.message : SubmitError → String
  | .encoding e => e.message
  | .write e => "Raft write failed: " ++ e.message
  | .rejected reason => reason.message
  | .skipped kind id reason =>
    kind.label ++ " at " ++ id.label ++ " was skipped: " ++ reason

/-- Submits a command at the node at a place. -/
def submit (c : Cluster) (i : Nat) (command : Command) : Except SubmitError Unit × Cluster :=
  match command.encode with
  | .error e => (.error (.encoding e), c)
  | .ok bytes =>
    match c.write i (.normal bytes) with
    | (.error e, c) => (.error (.write e), c)
    | (.ok (_, .applied), c) => (.ok (), c)
    | (.ok (_, .rejected reason), c) => (.error (.rejected reason), c)
    | (.ok (id, .skipped reason), c) => (.error (.skipped command.kind id reason), c)

/-! ## Members -/

/-- Has a change to the membership committed at the node at a place, and returns what the membership
is then. -/
def commitChange (c : Cluster) (i : Nat) (retain : Bool) (change : ChangeMembers) :
    Except WriteError Membership × Cluster :=
  match c.node? i with
  | none => (.error (.fatal .stopped), c)
  | some n =>
    match n.fatal, n.changedMembership retain change with
    | some reason, _ => (.error (.fatal reason), c)
    | none, .error reason => (.error (.change reason), c)
    | none, .ok m =>
      match c.write i (.membership m) with
      | (.error e, c) => (.error e, c)
      | (.ok _, c) => (.ok m, c)

/-- Changes the membership at the node at a place.  If more than one set of voters decides then, a
second change, which adds nobody, leaves the last. -/
def changeMembership (c : Cluster) (i : Nat) (retain : Bool) (change : ChangeMembers) :
    Except WriteError Membership × Cluster :=
  match c.commitChange i retain change with
  | (.error e, c) => (.error e, c)
  | (.ok m, c) =>
    if m.configs.length = 1 then (.ok m, c)
    else c.commitChange i retain (.addVoterIds .empty)

/-- How many entries a node may be behind the leader and still count as up to date. -/
def replicationLagThreshold : Nat := 5000

/-- The end of a leader's log, if the node of an id is reached and has it. -/
def matched (c : Cluster) (leader : Node) (id : UInt64) : Option LogId :=
  leader.lastLogId.filter fun last =>
    (((leader.addressOf id).bind c.reach?).bind c.node?).any (·.hasEntry last)

/-- Whether a node is up to date, as far as the leader at a place knows. -/
def isUpToDate (c : Cluster) (i : Nat) (id : UInt64) : Bool :=
  (c.node? i).all fun leader =>
    leader.id = id || (Node.nextIndex leader.lastLogId).toNat
      - (Node.nextIndex (c.matched leader id)).toNat ≤ replicationLagThreshold

/-- Adds a node that does not vote at the node at a place.  If asked to, it waits until the new node
is up to date. -/
def addLearner (c : Cluster) (i : Nat) (id : UInt64) (node : Member) (blocking : Bool) :
    Except WriteError Membership × Cluster :=
  match c.commitChange i true (.addNodes (SortedMap.empty.insert id node)) with
  | (.error e, c) => (.error e, c)
  | (.ok m, c) => if blocking && !c.isUpToDate i id then (.error .waiting, c) else (.ok m, c)

/-- How a peer is recorded in the membership. -/
def peerMember (p : Peer) : Member := ⟨p.addr, "node-" ++ Decimal.natural p.nodeId.toNat⟩

/-- Adds a peer at the node at a place.  Its address is noted in any case. -/
def addPeer (c : Cluster) (i : Nat) (p : Peer) : Except WriteError Unit × Cluster :=
  match c.node? i with
  | none => (.error (.fatal .stopped), c)
  | some n =>
    let c := c.setNode i (n.register p.nodeId p.addr)
    let (added, c) :=
      if p.isVoter then
        c.changeMembership i false (.addNodes (SortedMap.empty.insert p.nodeId (peerMember p)))
      else c.addLearner i p.nodeId (peerMember p) true
    (added.map fun _ => (), c)

/-- Adds peers one after the other, until one cannot be added. -/
def addPeers (c : Cluster) (i : Nat) : List Peer → Cluster
  | [] => c
  | p :: rest =>
    match c.addPeer i p with
    | (.error _, c) => c
    | (.ok (), c) => c.addPeers i rest

/-! ## Starting -/

/-- Asks other nodes for their votes, and returns those that grant it. -/
def requestVotes (c : Cluster) (candidate : Node) : List UInt64 → List UInt64 × Cluster
  | [] => ([], c)
  | id :: rest =>
    match (candidate.addressOf id).bind c.reach? with
    | none => c.requestVotes candidate rest
    | some i =>
      match c.node? i with
      | none => c.requestVotes candidate rest
      | some n =>
        let (answer, n) := n.answerVote candidate.voteRequest
        let (granting, c) := (c.setNode i n).requestVotes candidate rest
        (if answer.granted then id :: granting else granting, c)

/-- The membership of a new cluster, of a node and its voting peers. -/
def initialMembership (n : Node) (voters : List Peer) : Membership :=
  let nodes := voters.foldl (fun m p => m.insert p.nodeId (peerMember p))
    (SortedMap.empty.insert n.id n.self)
  ⟨[NodeSet.ofList nodes.keys], nodes⟩

/-- Begins a cluster of the node at a place and those of its peers that are to vote, unless it
belongs to one already; the node stands for election and leads if it wins. -/
def initializeNode (c : Cluster) (i : Nat) (peers : List Peer) : Cluster :=
  match c.node? i with
  | none => c
  | some n =>
    let voters := peers.filter (·.isVoter)
    let n := voters.foldl (fun n p => n.register p.nodeId p.addr) n
    if n.isNew then
      let n := (n.initializeLog (initialMembership n voters)).elect
      let (granting, c) := (c.setNode i n).requestVotes n (others n)
      if n.membership.isQuorum (n.id :: granting) then
        ((c.setNode i n.lead).replicate i).2
      else c
    else c.setNode i n

/-- Runs the node at a place.  Without peers it is a cluster of its own; one that is to begin a
cluster does so, and adds the peers that are not to vote; any other notes where its peers are and
waits. -/
def run (c : Cluster) (i : Nat) : Cluster :=
  match c.sites[i]? with
  | none => c
  | some site =>
    let peers := site.config.peers
    if peers.isEmpty then c.initializeNode i []
    else if site.config.bootstrap then
      (c.initializeNode i peers).addPeers i (peers.filter (!·.isVoter))
    else c.setNode i (peers.foldl (fun n p => n.register p.nodeId p.addr) site.node)

/-- Lets the leaders among the nodes reach those that were not there before. -/
def settle (c : Cluster) : Cluster :=
  (List.range c.sites.length).foldl
    (fun c i =>
      match c.sites[i]? with
      | some site => if site.running && site.node.leads then (c.replicate i).2 else c
      | none => c) c

/-- The name of a node that is not given one. -/
def defaultHostname : String := "localhost"

/-- The node of some settings, on a storage that may have been used before.  There is none if the
intervals do not suit the consensus or the storage cannot be read. -/
def boot (config : Config) (storage : Storage) : Option Node :=
  let t := config.raft
  if t.heartbeatIntervalMs < t.electionTimeoutMinMs ∧
      t.electionTimeoutMinMs < t.electionTimeoutMaxMs then
    let self : Member :=
      ⟨config.effectiveAdvertiseAddr, config.hostname.getD defaultHostname⟩
    (Node.resume config.nodeId self storage).toOption
  else none

/-- Starts a node on a new disk. -/
def start (c : Cluster) (config : Config) : Option Cluster := do
  let n ← boot config (Storage.create config.onDecodeError)
  let c : Cluster := ⟨c.sites ++ [⟨config, n, true⟩]⟩
  return (c.run (c.sites.length - 1)).settle

/-- Starts the node at a place again, on the disk that it had. -/
def restart (c : Cluster) (i : Nat) : Option Cluster := do
  let site ← c.sites[i]?
  let storage ← Storage.open? site.node.storage.disk site.config.onDecodeError
  let n ← boot site.config storage
  return ((Cluster.mk (c.sites.set i ⟨site.config, n, true⟩)).run i).settle

/-- Stops the node at a place. -/
def stop (c : Cluster) (i : Nat) : Cluster :=
  ⟨c.sites.modify i fun s =>
    { s with running := false, node := { s.node with fatal := some .stopped } }⟩

end Cluster

end ControlPlane
