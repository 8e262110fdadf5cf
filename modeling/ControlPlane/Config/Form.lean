import ControlPlane.Config
import ControlPlane.State.Form

/-!
# ControlPlane.Config.Form

The JSON forms of settings.  Every setting may be absent, in a list that stands for the record too.
-/

namespace ControlPlane

open Json

/-- The members of a peer. -/
def Peer.members : List Reader.Member :=
  [member UInt64 "node_id", member String "addr", member Bool "is_voter"]

instance : Form Peer where
  toJson p := named Peer.members [toJson p.nodeId, toJson p.addr, toJson p.isVoter]
  ofJson? j := do
    let [nodeId, addr, isVoter] ← j.values? | none
    return ⟨← ofJson? nodeId, ← ofJson? addr, ← ofJson? isVoter⟩
  reader := Reader.record Peer.members

/-- The members of the intervals. -/
def Timing.members : List Reader.Member :=
  let d : Timing := {}
  [memberOr "heartbeat_interval_ms" d.heartbeatIntervalMs,
    memberOr "election_timeout_min_ms" d.electionTimeoutMinMs,
    memberOr "election_timeout_max_ms" d.electionTimeoutMaxMs]

instance : Form Timing where
  toJson t := named Timing.members
    [toJson t.heartbeatIntervalMs, toJson t.electionTimeoutMinMs, toJson t.electionTimeoutMaxMs]
  ofJson? j := do
    let [heartbeat, least, greatest] ← j.values? | none
    return ⟨← ofJson? heartbeat, ← ofJson? least, ← ofJson? greatest⟩
  reader := Reader.record Timing.members

/-- The members of the settings. -/
def Config.members : List Reader.Member :=
  let d := Config.default
  [memberOr "node_id" d.nodeId, memberOr "hostname" d.hostname, memberOr "bind_addr" d.bindAddr,
    memberOr "bind_port" d.bindPort, memberOr "advertise_addr" d.advertiseAddr,
    memberOr "data_dir" d.dataDir, memberOr "peers" d.peers, memberOr "bootstrap" d.bootstrap,
    memberOr "raft" d.raft, memberOr "on_decode_error" d.onDecodeError,
    memberOr "status_interval_secs" d.statusIntervalSecs]

instance : Form Config where
  toJson c := named Config.members
    [toJson c.nodeId, toJson c.hostname, toJson c.bindAddr, toJson c.bindPort,
      toJson c.advertiseAddr, toJson c.dataDir, toJson c.peers, toJson c.bootstrap, toJson c.raft,
      toJson c.onDecodeError, toJson c.statusIntervalSecs]
  ofJson? j := do
    let [nodeId, hostname, bindAddr, bindPort, advertiseAddr, dataDir, peers, bootstrap, raft,
      onDecodeError, statusIntervalSecs] ← j.values? | none
    return {
      nodeId := ← ofJson? nodeId
      hostname := ← ofJson? hostname
      bindAddr := ← ofJson? bindAddr
      bindPort := ← ofJson? bindPort
      advertiseAddr := ← ofJson? advertiseAddr
      dataDir := ← ofJson? dataDir
      peers := ← ofJson? peers
      bootstrap := ← ofJson? bootstrap
      raft := ← ofJson? raft
      onDecodeError := ← ofJson? onDecodeError
      statusIntervalSecs := ← ofJson? statusIntervalSecs }
  reader := Reader.record Config.members

end ControlPlane
