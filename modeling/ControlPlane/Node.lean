import ControlPlane.Consensus.Change
import ControlPlane.Consensus.Message
import ControlPlane.Number.Decimal
import ControlPlane.Storage

/-!
# ControlPlane.Node

A node's part in the consensus: the vote that it holds, how much of its log is committed, and which
membership is in force.  What must survive a restart is in the storage; the rest is found there
again by `Node.resume`.
-/

namespace ControlPlane

open Consensus

/-- The memberships that matter to a node: the newest in its log, which is in force, and the one
before, which returns should the newest be dropped. -/
structure Memberships where
  committed : StoredMembership
  effective : StoredMembership
  deriving DecidableEq

/-- A snapshot of which some pieces have arrived. -/
structure Incoming where
  id : String
  data : Bytes
  deriving DecidableEq

/-- A node. -/
structure Node where
  id : UInt64
  /-- How the node presents itself to others. -/
  self : Member
  /-- Where the node reaches others, if not where the membership says. -/
  addresses : SortedMap UInt64 String
  storage : Storage
  vote : Vote
  committed : Option LogId
  /-- How much of the log a leader is known to have, and which leader. -/
  accepted : LeaderId × Option LogId
  memberships : Memberships
  incoming : Option Incoming
  /-- Why the node takes no part any more, if so. -/
  fatal : Option Fatal

namespace Memberships

/-- A membership is appended to the log.  There is at most one that is not committed, so the one
that was in force is committed now. -/
def append (m : Memberships) (new : StoredMembership) : Memberships := ⟨m.effective, new⟩

/-- Memberships of an entry, if it has one. -/
def appendEntry (m : Memberships) (e : Entry) : Memberships :=
  match e.payload with
  | .membership membership => m.append ⟨some e.logId, membership⟩
  | _ => m

/-- The log is dropped from an index on. -/
def truncate (m : Memberships) (index : UInt64) : Memberships :=
  match m.effective.logId with
  | some id => if index ≤ id.index then { m with effective := m.committed } else m
  | none => m

/-- The log is committed up to a position. -/
def commit (m : Memberships) (upTo : Option LogId) : Memberships :=
  if compareLast upTo m.effective.logId = .lt then m else { m with committed := m.effective }

/-- A membership is known to be committed, from a snapshot.  It is in force too unless the log has a
newer one. -/
def learn (m : Memberships) (new : StoredMembership) : Memberships where
  effective :=
    match new.logId, m.effective.logId with
    | none, some _ => m.effective
    | some a, some b => if a.index < b.index then m.effective else new
    | _, none => new
  committed := if compareLast m.committed.logId new.logId = .lt then new else m.committed

end Memberships

namespace Node

/-! ## Starting -/

/-- The index behind a position. -/
def nextIndex : Option LogId → UInt64
  | some id => id.index + 1
  | none => 0

/-- The memberships in entries that follow one. -/
def membershipsAfter (applied : StoredMembership) (entries : List Entry) : Memberships :=
  entries.foldl Memberships.appendEntry ⟨applied, applied⟩

/-- A node on a storage that may have been used before. -/
def resume (id : UInt64) (self : Member) (storage : Storage) : Except Storage.Error Node := do
  let vote ← storage.readVote
  let (lastApplied, applied) ← storage.applied
  let ahead ← storage.entries (.included (nextIndex lastApplied)) .unbounded
  return {
    id, self, storage
    addresses := SortedMap.empty.insert id self.addr
    vote := vote.getD Vote.initial
    committed := lastApplied
    accepted := (⟨0, 0⟩, none)
    memberships := membershipsAfter applied ahead
    incoming := none
    fatal := none }

/-! ## What a node knows -/

/-- The end of the log. -/
def lastLogId (n : Node) : Option LogId := n.storage.logState.toOption.bind (·.last)

/-- The leader that the node follows, itself if it leads. -/
def leader? (n : Node) : Option UInt64 :=
  if n.vote.committed then some n.vote.leaderId.nodeId else none

/-- Whether the node leads. -/
def leads (n : Node) : Bool := n.leader? = some n.id

/-- The membership in force. -/
def membership (n : Node) : Membership := n.memberships.effective.membership

/-- The membership that a change makes of the one in force, which has to be committed. -/
def changedMembership (n : Node) (retain : Bool) (change : ChangeMembers) :
    Except ChangeError Membership :=
  if n.memberships.effective.logId = n.memberships.committed.logId then
    n.membership.change retain change
  else .error (.inProgress n.memberships.committed.logId n.memberships.effective.logId)

/-- The view of the state that clients get. -/
def view (n : Node) : View := n.storage.state.view n.leader? n.vote.leaderId.term

/-- Where the node reaches another. -/
def addressOf (n : Node) (id : UInt64) : Option String :=
  n.addresses.get? id <|> (n.membership.nodes.get? id).map (·.addr)

/-- Notes where another node is reached. -/
def register (n : Node) (id : UInt64) (addr : String) : Node :=
  { n with addresses := n.addresses.insert id addr }

/-- A refusal to write: the leader to ask instead, as far as it is known. -/
structure Forward where
  leader : Option UInt64
  member : Option Member
  deriving DecidableEq, Repr

/-- Where a node that does not lead sends its clients. -/
def forward (n : Node) : Forward :=
  ⟨n.leader?, n.leader?.bind fun id => n.membership.nodes.get? id⟩

/-- The text of a refusal to write. -/
def Forward.message (f : Forward) : String :=
  "has to forward request to: "
    ++ citeOption (f.leader.map fun id => Decimal.natural id.toNat) ++ ", "
    ++ citeOption (f.member.map Member.details)

/-! ## The log -/

/-- Takes part no more because the storage failed. -/
def halt (n : Node) (e : Storage.Error) : Node :=
  let cause (message : String) : Cause := .mk none message none [] none
  let fault : StorageFault :=
    match e with
    | .undecodable id reason => ⟨.apply id, .read, cause reason.message, none⟩
    | .unreadable .logs => ⟨.logs, .read, cause "unreadable", none⟩
    | .unreadable .vote => ⟨.vote, .read, cause "unreadable", none⟩
    | .unreadable .stateMachine => ⟨.stateMachine, .read, cause "unreadable", none⟩
    | .unreadable .snapshot => ⟨.snapshot none, .read, cause "unreadable", none⟩
  { n with fatal := some (.storage fault) }

/-- Appends entries to the log.  A membership among them is in force from then on. -/
def appendEntries (n : Node) (entries : List Entry) : Node :=
  { n with
    storage := n.storage.append entries
    memberships := entries.foldl Memberships.appendEntry n.memberships }

/-- The identity of the entry at an index. -/
def logIdAt? (n : Node) (index : UInt64) : Option LogId :=
  match n.storage.entries (.included index) (.included index) with
  | .ok (e :: _) => some e.logId
  | _ => none

/-- Whether the log has an entry.  What is committed, all leaders have. -/
def hasEntry (n : Node) (id : LogId) : Bool :=
  id.index < nextIndex n.committed || n.logIdAt? id.index = some id

/-- Drops the log from an index on, if there is an entry at the index. -/
def truncate (n : Node) (index : UInt64) : Node :=
  if (n.logIdAt? index).isSome then
    { n with
      storage := n.storage.truncate index
      memberships := n.memberships.truncate index }
  else n

/-- Commits the log up to a position, if that is ahead, and applies what was committed. -/
def commit (n : Node) (upTo : Option LogId) : List Outcome × Node :=
  match upTo with
  | none => ([], n)
  | some last =>
    if compareLast n.committed upTo = .lt then
      let entries := n.storage.entries (.included (nextIndex n.committed)) (.included last.index)
      let n := { n with committed := upTo, memberships := n.memberships.commit upTo }
      match entries with
      | .error e => ([], n.halt e)
      | .ok entries =>
        match n.storage.apply entries with
        | (.ok outcomes, storage) => (outcomes, { n with storage })
        | (.error e, storage) => ([], { n with storage }.halt e)
    else ([], n)

/-! ## Votes -/

/-- Holds a vote from now on. -/
def hold (n : Node) (v : Vote) : Node := { n with vote := v, storage := n.storage.saveVote v }

/-- Accepts a vote that is not behind the one held. -/
def acceptVote (n : Node) (v : Vote) : Option Node :=
  match v.compare n.vote with
  | .lt => none
  | .eq => some n
  | .gt => some (n.hold v)

/-- Answers a candidate.  A node that has a leader votes for nobody; else the candidate's log must
not be behind its own, and then the later vote counts. -/
def answerVote (n : Node) (r : VoteRequest) : VoteResponse × Node :=
  if n.vote.committed ∨ compareLast r.lastLogId n.lastLogId = .lt then
    (⟨n.vote, false, n.lastLogId⟩, n)
  else
    match n.acceptVote r.vote with
    | none => (⟨n.vote, false, n.lastLogId⟩, n)
    | some n => (⟨n.vote, true, n.lastLogId⟩, n)

/-! ## Following -/

/-- What the present leader is known to have. -/
def acceptedNow (n : Node) : Option LogId :=
  if n.accepted.1 = n.vote.leaderId then n.accepted.2 else none

/-- Notes that the present leader has the log up to a position. -/
def noteAccepted (n : Node) (upTo : Option LogId) : Node :=
  if compareLast n.acceptedNow upTo = .lt then { n with accepted := (n.vote.leaderId, upTo) } else n

/-- Takes over entries from a leader: those that the log has are passed over, and from the first
that it has not, they replace what is there. -/
def takeOver (n : Node) (entries : List Entry) : Node :=
  match entries.dropWhile fun e => n.hasEntry e.logId with
  | [] => n
  | e :: rest => (n.truncate e.logId.index).appendEntries (e :: rest)

/-- Answers a leader.  Its vote must not be behind, and the entry in front of those it sends must be
there; then the entries are taken over, and what the leader has committed is committed here. -/
def answerAppend (n : Node) (r : AppendRequest) : AppendResponse × Node :=
  match n.acceptVote r.vote with
  | none => (.higherVote n.vote, n)
  | some n =>
    match r.previous.filter fun id => !n.hasEntry id with
    | some missing => (.conflict, n.truncate missing.index)
    | none =>
      let n := n.noteAccepted (maxLast r.previous (r.entries.getLast?.map (·.logId)))
      let n := n.takeOver r.entries
      (.success, (n.commit (minLast n.acceptedNow r.leaderCommit)).2)

/-! ## Snapshots -/

/-- Puts a piece at its offset; a gap in front of it is filled with zeros. -/
def placePiece (data : Bytes) (offset : Nat) (piece : Bytes) : Bytes :=
  if piece.isEmpty then data
  else data.take offset ++ List.replicate (offset - data.length) 0 ++ piece
    ++ data.drop (offset + piece.length)

/-- Takes a piece of a snapshot.  A snapshot begins at offset zero; a piece of another one ends the
one before. -/
def receive (n : Node) (r : InstallRequest) : Except InstallError Incoming :=
  match n.incoming.filter (·.id = r.about.snapshotId) with
  | some i => .ok { i with data := placePiece i.data r.offset.toNat r.data }
  | none =>
    if r.offset = 0 then .ok ⟨r.about.snapshotId, placePiece [] 0 r.data⟩
    else .error (.mismatch ⟨r.about.snapshotId, 0⟩ ⟨r.about.snapshotId, r.offset⟩)

/-- Drops all that is not committed if the log has another entry in the place of one. -/
def dropConflict (n : Node) (last : LogId) : Node :=
  match n.logIdAt? last.index with
  | some id => if id = last then n else n.truncate (nextIndex n.committed)
  | none => n

/-- Installs a whole snapshot, unless its end is committed already.  The snapshot takes the place of
the log up to there. -/
def installSnapshot (n : Node) (snapshot : Snapshot) : Except Storage.Error Unit × Node :=
  match snapshot.about.lastLogId with
  | none => (.ok (), n)
  | some last =>
    if compareLast n.committed (some last) = .lt then
      let n := n.dropConflict last
      let n := { n with
        committed := some last
        memberships := n.memberships.learn snapshot.about.lastMembership }
      match n.storage.installSnapshot snapshot with
      | (.ok (), storage) => (.ok (), { n with storage := storage.purge last })
      | (.error e, storage) => (.error e, { n with storage })
    else (.ok (), n)

/-- Answers a leader that sends a piece of a snapshot.  The last piece makes the snapshot whole. -/
def answerInstall (n : Node) (r : InstallRequest) : Answer InstallError InstallResponse × Node :=
  if r.vote.compare n.vote = .lt then (.ok ⟨n.vote⟩, n)
  else
    match n.receive r with
    | .error e => (.error (.request e), n)
    | .ok incoming =>
      if r.done then
        let n := { n with incoming := none }
        match n.acceptVote r.vote with
        | none => (.ok ⟨n.vote⟩, n)
        | some n =>
          match n.installSnapshot ⟨r.about, incoming.data⟩ with
          | (.ok (), n) => (.ok ⟨n.vote⟩, n)
          | (.error e, n) =>
            let n := n.halt e
            (.error (.fatal (n.fatal.getD .stopped)), n)
      else (.ok ⟨n.vote⟩, { n with incoming := some incoming })

/-! ## Leading -/

/-- Whether the node was ever part of a cluster. -/
def isNew (n : Node) : Bool := n.lastLogId.isNone && n.vote = Vote.initial

/-- Begins a cluster: its membership is the first entry of the log. -/
def initializeLog (n : Node) (membership : Membership) : Node :=
  n.appendEntries [⟨⟨⟨0, 0⟩, 0⟩, .membership membership⟩]

/-- Begins an election: the node votes for itself in the next term. -/
def elect (n : Node) : Node := n.hold ⟨⟨n.vote.leaderId.term + 1, n.id⟩, false⟩

/-- Asks for votes. -/
def voteRequest (n : Node) : VoteRequest := ⟨n.vote, n.lastLogId⟩

/-- Puts an entry at the end of the log of a leader. -/
def propose (n : Node) (payload : Payload) : LogId × Node :=
  let id : LogId := ⟨n.vote.leaderId, nextIndex n.lastLogId⟩
  (id, n.appendEntries [⟨id, payload⟩])

/-- Leads from now on.  A leader begins with a blank entry. -/
def lead (n : Node) : Node := ((n.hold { n.vote with committed := true }).propose .blank).2

/-- What a leader sends to others: its log, all that was not purged. -/
def appendRequest (n : Node) : AppendRequest where
  vote := n.vote
  previous := n.storage.logState.toOption.bind (·.lastPurged)
  entries := (n.storage.entries .unbounded .unbounded).toOption.getD []
  leaderCommit := n.committed

end Node

end ControlPlane
