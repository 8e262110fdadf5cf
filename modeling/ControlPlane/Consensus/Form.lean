import ControlPlane.Consensus.Types
import ControlPlane.State.Form

/-!
# ControlPlane.Consensus.Form

The JSON forms of the consensus log, in which it is stored and sent.
-/

namespace ControlPlane

open Json

/-- The members of a node record. -/
def Member.members : List Reader.Member := [member String "addr", member String "hostname"]

instance : Form Member where
  toJson m := named Member.members [toJson m.addr, toJson m.hostname]
  ofJson? j := do
    let [addr, hostname] ← j.values? | none
    return ⟨← ofJson? addr, ← ofJson? hostname⟩
  reader := Reader.record Member.members

instance : Form NodeSet where
  toJson s := toJson s.toList
  ofJson? j := (ofJson? j).map NodeSet.ofList
  reader := Form.reader (List UInt64)

namespace Consensus

/-- The members of a leader. -/
def LeaderId.members : List Reader.Member := [member UInt64 "term", member UInt64 "node_id"]

instance : Form LeaderId where
  toJson l := named LeaderId.members [toJson l.term, toJson l.nodeId]
  ofJson? j := do
    let [term, nodeId] ← j.values? | none
    return ⟨← ofJson? term, ← ofJson? nodeId⟩
  reader := Reader.record LeaderId.members

/-- The members of an entry's identity. -/
def LogId.members : List Reader.Member := [member LeaderId "leader_id", member UInt64 "index"]

instance : Form LogId where
  toJson l := named LogId.members [toJson l.leaderId, toJson l.index]
  ofJson? j := do
    let [leaderId, index] ← j.values? | none
    return ⟨← ofJson? leaderId, ← ofJson? index⟩
  reader := Reader.record LogId.members

/-- The members of a vote. -/
def Vote.members : List Reader.Member := [member LeaderId "leader_id", member Bool "committed"]

instance : Form Vote where
  toJson v := named Vote.members [toJson v.leaderId, toJson v.committed]
  ofJson? j := do
    let [leaderId, committed] ← j.values? | none
    return ⟨← ofJson? leaderId, ← ofJson? committed⟩
  reader := Reader.record Vote.members

/-- The members of a membership. -/
def Membership.members : List Reader.Member :=
  [member (List NodeSet) "configs", member (SortedMap UInt64 Member) "nodes"]

instance : Form Membership where
  toJson m := named Membership.members [toJson m.configs, toJson m.nodes]
  ofJson? j := do
    let [configs, nodes] ← j.values? | none
    return ⟨← ofJson? configs, ← ofJson? nodes⟩
  reader := Reader.record Membership.members

/-- The members of a stored membership. -/
def StoredMembership.members : List Reader.Member :=
  [member (Option LogId) "log_id", member Membership "membership"]

instance : Form StoredMembership where
  toJson s := named StoredMembership.members [toJson s.logId, toJson s.membership]
  ofJson? j := do
    let [logId, membership] ← j.values? | none
    return ⟨← ofJson? logId, ← ofJson? membership⟩
  reader := Reader.record StoredMembership.members

instance : Form Payload where
  toJson
    | .blank => .text "Blank"
    | .normal command => .record [("Normal", toJson command)]
    | .membership m => .record [("Membership", toJson m)]
  ofJson?
    | .text "Blank" => some .blank
    | .record [("Normal", command)] => do return .normal (← ofJson? command)
    | .record [("Membership", m)] => do return .membership (← ofJson? m)
    | _ => none
  reader := Reader.choice
    [("Blank", .nothing), ("Normal", .value (Form.reader Bytes)),
      ("Membership", .value (Form.reader Membership))]

/-- The members of an entry. -/
def Entry.members : List Reader.Member := [member LogId "log_id", member Payload "payload"]

instance : Form Entry where
  toJson e := named Entry.members [toJson e.logId, toJson e.payload]
  ofJson? j := do
    let [logId, payload] ← j.values? | none
    return ⟨← ofJson? logId, ← ofJson? payload⟩
  reader := Reader.record Entry.members

/-- The members of what is known of a snapshot. -/
def SnapshotMeta.members : List Reader.Member :=
  [member (Option LogId) "last_log_id", member StoredMembership "last_membership",
    member String "snapshot_id"]

instance : Form SnapshotMeta where
  toJson m := named SnapshotMeta.members
    [toJson m.lastLogId, toJson m.lastMembership, toJson m.snapshotId]
  ofJson? j := do
    let [lastLogId, lastMembership, snapshotId] ← j.values? | none
    return ⟨← ofJson? lastLogId, ← ofJson? lastMembership, ← ofJson? snapshotId⟩
  reader := Reader.record SnapshotMeta.members

/-- The members of a snapshot at rest. -/
def Snapshot.members : List Reader.Member := [member SnapshotMeta "meta", member Bytes "data"]

instance : Form Snapshot where
  toJson s := named Snapshot.members [toJson s.about, toJson s.data]
  ofJson? j := do
    let [about, data] ← j.values? | none
    return ⟨← ofJson? about, ← ofJson? data⟩
  reader := Reader.record Snapshot.members

end Consensus

end ControlPlane
