import ControlPlane.Consensus.Form
import ControlPlane.Consensus.Message

/-!
# ControlPlane.Consensus.Message.Form

The JSON forms of messages, in which they travel.
-/

namespace ControlPlane

open Json

/-! ## Results -/

instance {ε α : Type} [Form ε] [Form α] : Form (Except ε α) where
  toJson
    | .ok a => .record [("Ok", toJson a)]
    | .error e => .record [("Err", toJson e)]
  ofJson?
    | .record [("Ok", a)] => do return .ok (← ofJson? a)
    | .record [("Err", e)] => do return .error (← ofJson? e)
    | _ => none
  reader := Reader.choice [("Ok", .value (Form.reader α)), ("Err", .value (Form.reader ε))]

/-- Nothing is read as a value of a type without values. -/
instance : Form Empty where
  toJson e := nomatch e
  ofJson? _ := none
  reader := throw .shape

namespace Consensus

/-! ## Votes -/

/-- The members of a request for a vote. -/
def VoteRequest.members : List Reader.Member :=
  [member Vote "vote", member (Option LogId) "last_log_id"]

instance : Form VoteRequest where
  toJson r := named VoteRequest.members [toJson r.vote, toJson r.lastLogId]
  ofJson? j := do
    let [vote, lastLogId] ← j.values? | none
    return ⟨← ofJson? vote, ← ofJson? lastLogId⟩
  reader := Reader.record VoteRequest.members

/-- The members of an answer to a request for a vote. -/
def VoteResponse.members : List Reader.Member :=
  [member Vote "vote", member Bool "vote_granted", member (Option LogId) "last_log_id"]

instance : Form VoteResponse where
  toJson r := named VoteResponse.members [toJson r.vote, toJson r.granted, toJson r.lastLogId]
  ofJson? j := do
    let [vote, granted, lastLogId] ← j.values? | none
    return ⟨← ofJson? vote, ← ofJson? granted, ← ofJson? lastLogId⟩
  reader := Reader.record VoteResponse.members

/-! ## Entries -/

/-- The members of a request with entries. -/
def AppendRequest.members : List Reader.Member :=
  [member Vote "vote", member (Option LogId) "prev_log_id", member (List Entry) "entries",
    member (Option LogId) "leader_commit"]

instance : Form AppendRequest where
  toJson r := named AppendRequest.members
    [toJson r.vote, toJson r.previous, toJson r.entries, toJson r.leaderCommit]
  ofJson? j := do
    let [vote, previous, entries, leaderCommit] ← j.values? | none
    return ⟨← ofJson? vote, ← ofJson? previous, ← ofJson? entries, ← ofJson? leaderCommit⟩
  reader := Reader.record AppendRequest.members

instance : Form AppendResponse where
  toJson
    | .success => .text "Success"
    | .partialSuccess upTo => .record [("PartialSuccess", toJson upTo)]
    | .conflict => .text "Conflict"
    | .higherVote vote => .record [("HigherVote", toJson vote)]
  ofJson?
    | .text "Success" => some .success
    | .record [("PartialSuccess", upTo)] => do return .partialSuccess (← ofJson? upTo)
    | .text "Conflict" => some .conflict
    | .record [("HigherVote", vote)] => do return .higherVote (← ofJson? vote)
    | _ => none
  reader := Reader.choice
    [("Success", .nothing), ("PartialSuccess", .value (Form.reader (Option LogId))),
      ("Conflict", .nothing), ("HigherVote", .value (Form.reader Vote))]

/-! ## Snapshots -/

/-- The members of a request with a piece of a snapshot. -/
def InstallRequest.members : List Reader.Member :=
  [member Vote "vote", member SnapshotMeta "meta", member UInt64 "offset", member Bytes "data",
    member Bool "done"]

instance : Form InstallRequest where
  toJson r := named InstallRequest.members
    [toJson r.vote, toJson r.about, toJson r.offset, toJson r.data, toJson r.done]
  ofJson? j := do
    let [vote, about, offset, data, done] ← j.values? | none
    return ⟨← ofJson? vote, ← ofJson? about, ← ofJson? offset, ← ofJson? data, ← ofJson? done⟩
  reader := Reader.record InstallRequest.members

/-- The member of an answer to a piece of a snapshot. -/
def InstallResponse.members : List Reader.Member := [member Vote "vote"]

instance : Form InstallResponse where
  toJson r := named InstallResponse.members [toJson r.vote]
  ofJson? j := do
    let [vote] ← j.values? | none
    return ⟨← ofJson? vote⟩
  reader := Reader.record InstallResponse.members

/-- The members of a place in a snapshot. -/
def Segment.members : List Reader.Member := [member String "id", member UInt64 "offset"]

instance : Form Segment where
  toJson s := named Segment.members [toJson s.id, toJson s.offset]
  ofJson? j := do
    let [id, offset] ← j.values? | none
    return ⟨← ofJson? id, ← ofJson? offset⟩
  reader := Reader.record Segment.members

/-- The members of a refusal of a piece. -/
def InstallError.members : List Reader.Member := [member Segment "expect", member Segment "got"]

instance : Form InstallError where
  toJson
    | .mismatch expected got =>
      .record [("SnapshotMismatch", named InstallError.members [toJson expected, toJson got])]
  ofJson?
    | .record [("SnapshotMismatch", j)] => do
      let [expected, got] ← j.values? | none
      return .mismatch (← ofJson? expected) (← ofJson? got)
    | _ => none
  reader := Reader.choice [("SnapshotMismatch", .value (Reader.record InstallError.members))]

/-! ## Nodes that have stopped -/

/-- The members of a signature. -/
def Signature.members : List Reader.Member :=
  [member (Option LogId) "last_log_id", member (Option LogId) "last_membership_log_id",
    member String "snapshot_id"]

instance : Form Signature where
  toJson s := named Signature.members
    [toJson s.lastLogId, toJson s.lastMembershipLogId, toJson s.snapshotId]
  ofJson? j := do
    let [lastLogId, lastMembershipLogId, snapshotId] ← j.values? | none
    return ⟨← ofJson? lastLogId, ← ofJson? lastMembershipLogId, ← ofJson? snapshotId⟩
  reader := Reader.record Signature.members

instance : Form FaultSubject where
  toJson
    | .store => .text "Store"
    | .vote => .text "Vote"
    | .logs => .text "Logs"
    | .log id => .record [("Log", toJson id)]
    | .apply id => .record [("Apply", toJson id)]
    | .stateMachine => .text "StateMachine"
    | .snapshot signature => .record [("Snapshot", toJson signature)]
    | .nothing => .text "None"
  ofJson?
    | .text "Store" => some .store
    | .text "Vote" => some .vote
    | .text "Logs" => some .logs
    | .record [("Log", id)] => do return .log (← ofJson? id)
    | .record [("Apply", id)] => do return .apply (← ofJson? id)
    | .text "StateMachine" => some .stateMachine
    | .record [("Snapshot", signature)] => do return .snapshot (← ofJson? signature)
    | .text "None" => some .nothing
    | _ => none
  reader := Reader.choice
    [("Store", .nothing), ("Vote", .nothing), ("Logs", .nothing),
      ("Log", .value (Form.reader LogId)), ("Apply", .value (Form.reader LogId)),
      ("StateMachine", .nothing), ("Snapshot", .value (Form.reader (Option Signature))),
      ("None", .nothing)]

instance : Form FaultVerb where
  toJson
    | .read => .text "Read"
    | .write => .text "Write"
    | .seek => .text "Seek"
    | .delete => .text "Delete"
  ofJson?
    | .text "Read" => some .read
    | .text "Write" => some .write
    | .text "Seek" => some .seek
    | .text "Delete" => some .delete
    | _ => none
  reader := Reader.choice
    [("Read", .nothing), ("Write", .nothing), ("Seek", .nothing), ("Delete", .nothing)]

namespace Cause

/-- The members of a cause behind which there are causes of this kind. -/
def membersWith (source : Reader Json) : List Reader.Member :=
  [member (Option String) "typ", member String "msg", ⟨"source", Reader.optional source, some .null,
    none⟩, member (List String) "context", member (Option String) "backtrace"]

/-- A cause as JSON. -/
def json : Cause → Json
  | mk kind message source context trace =>
    let behind :=
      match source with
      | some c => c.json
      | none => .null
    named (membersWith Reader.null)
      [toJson kind, toJson message, behind, toJson context, toJson trace]

/-- A cause with up to so many behind it. -/
def ofJsonWithin? : Nat → Json → Option Cause
  | 0, _ => none
  | depth + 1, j => do
    let [kind, message, source, context, trace] ← j.values? | none
    let source ←
      match source with
      | .null => pure none
      | c => (ofJsonWithin? depth c).map some
    return mk (← ofJson? kind) (← ofJson? message) source (← ofJson? context) (← ofJson? trace)

/-- Reads a cause with up to so many behind it. -/
def readerWithin : Nat → Reader Json
  | 0 => throw .notJson
  | depth + 1 => Reader.record (membersWith (readerWithin depth))

/-- The greatest number of causes behind each other that is read.  A text may be nested 127 deep;
six levels of an answer stand around its first cause, and one more inside the last. -/
def maxDepth : Nat := 120

end Cause

instance : Form Cause where
  toJson := Cause.json
  ofJson? := Cause.ofJsonWithin? Cause.maxDepth
  reader := Cause.readerWithin Cause.maxDepth

/-- The members of a storage fault. -/
def StorageFault.members : List Reader.Member :=
  [member FaultSubject "subject", member FaultVerb "verb", member Cause "source",
    member (Option String) "backtrace"]

instance : Form StorageFault where
  toJson f := named StorageFault.members
    [toJson f.subject, toJson f.verb, toJson f.cause, toJson f.trace]
  ofJson? j := do
    let [subject, verb, cause, trace] ← j.values? | none
    return ⟨← ofJson? subject, ← ofJson? verb, ← ofJson? cause, ← ofJson? trace⟩
  reader := Reader.record StorageFault.members

/-- The member of a failing access. -/
def Fatal.accessMembers : List Reader.Member := [member StorageFault "source"]

instance : Form Fatal where
  toJson
    | .storage fault =>
      .record [("StorageError", .record [("IO", named Fatal.accessMembers [toJson fault])])]
    | .panicked => .text "Panicked"
    | .stopped => .text "Stopped"
  ofJson?
    | .record [("StorageError", .record [("IO", j)])] => do
      let [fault] ← j.values? | none
      return .storage (← ofJson? fault)
    | .text "Panicked" => some .panicked
    | .text "Stopped" => some .stopped
    | _ => none
  reader := Reader.choice
    [("StorageError", .value (Reader.choice [("IO", .value (Reader.record Fatal.accessMembers))])),
      ("Panicked", .nothing), ("Stopped", .nothing)]

instance {ε : Type} [Form ε] : Form (Refusal ε) where
  toJson
    | .request reason => .record [("APIError", toJson reason)]
    | .fatal reason => .record [("Fatal", toJson reason)]
  ofJson?
    | .record [("APIError", reason)] => do return .request (← ofJson? reason)
    | .record [("Fatal", reason)] => do return .fatal (← ofJson? reason)
    | _ => none
  reader := Reader.choice
    [("APIError", .value (Form.reader ε)), ("Fatal", .value (Form.reader Fatal))]

end Consensus

end ControlPlane
