import ControlPlane.Config
import ControlPlane.Toml.Document

/-!
# ControlPlane.Config.Toml

Settings as a TOML document.  Settings that are absent have their defaults, and unknown ones are
passed over.  Where a record is expected an array of its values will do, of which more than needed
are passed over; a date is a record without any known member.
-/

namespace ControlPlane

open Toml (Value)

namespace Toml.Value

/-- The values of these keys of a record, where they are present. -/
def members? (keys : List String) : Value → Option (List (Option Value))
  | .table _ entries => some (keys.map fun key => entries.lookup key)
  | .array items => some ((List.range keys.length).map fun i => items[i]?)
  | .time _ => some (keys.map fun _ => none)
  | _ => none

/-- A text. -/
def text? : Value → Option String
  | .text s => some s
  | _ => none

/-- A truth value. -/
def bool? : Value → Option Bool
  | .bool b => some b
  | _ => none

/-- A whole number within bounds. -/
def nat? (greatest : Nat) : Value → Option Nat
  | .int n => if 0 ≤ n ∧ n ≤ greatest then some n.toNat else none
  | _ => none

/-- A number of 64 bits. -/
def word? (v : Value) : Option UInt64 := (v.nat? 18446744073709551615).map UInt64.ofNat

/-- A number of 16 bits. -/
def half? (v : Value) : Option UInt16 := (v.nat? 65535).map UInt16.ofNat

/-- The items of an array. -/
def items? : Value → Option (List Value)
  | .array items => some items
  | _ => none

/-- Whether a value is an array or table without anything in it. -/
def isNothing : Value → Bool
  | .array items => items.isEmpty
  | .table _ entries => entries.isEmpty
  | _ => false

/-- One of several names: a text, or a table with the name as its only key and nothing at it.  A
table with a header may have further keys behind that one. -/
def name? : Value → Option String
  | .text s => some s
  | .table inBraces ((name, content) :: rest) =>
    if content.isNothing ∧ (inBraces → rest.isEmpty) then some name else none
  | _ => none

/-- A member that may be absent. -/
def orDefault {α : Type} (read : Value → Option α) (default : α) : Option Value → Option α
  | some v => read v
  | none => some default

/-- A member that must be present. -/
def required {α : Type} (read : Value → Option α) : Option Value → Option α
  | some v => read v
  | none => none

end Toml.Value

open Toml.Value

/-- The keys of a peer, in order. -/
def Peer.keys : List String := ["node_id", "addr", "is_voter"]

/-- A peer from its table. -/
def Peer.ofToml? (v : Value) : Option Peer := do
  let [nodeId, addr, isVoter] ← v.members? Peer.keys | none
  return ⟨← required word? nodeId, ← required text? addr, ← required bool? isVoter⟩

/-- The keys of the intervals, in order. -/
def Timing.keys : List String :=
  ["heartbeat_interval_ms", "election_timeout_min_ms", "election_timeout_max_ms"]

/-- The intervals from their table. -/
def Timing.ofToml? (v : Value) : Option Timing := do
  let [heartbeat, least, greatest] ← v.members? Timing.keys | none
  let d : Timing := {}
  return {
    heartbeatIntervalMs := ← orDefault word? d.heartbeatIntervalMs heartbeat
    electionTimeoutMinMs := ← orDefault word? d.electionTimeoutMinMs least
    electionTimeoutMaxMs := ← orDefault word? d.electionTimeoutMaxMs greatest }

/-- The policy of a name. -/
def DecodePolicy.ofToml? (v : Value) : Option DecodePolicy := do
  match ← v.name? with
  | "halt" => return .halt
  | "skip" => return .skip
  | _ => none

namespace Config

/-- The keys of the settings, in order. -/
def keys : List String :=
  ["node_id", "hostname", "bind_addr", "bind_port", "advertise_addr", "data_dir", "peers",
    "bootstrap", "raft", "on_decode_error", "status_interval_secs"]

/-- The settings from the table of a document. -/
def ofToml? (v : Value) : Option Config := do
  let [nodeId, hostname, bindAddr, bindPort, advertiseAddr, dataDir, peers, bootstrap, raft,
    onDecodeError, statusIntervalSecs] ← v.members? keys | none
  let d := Config.default
  return {
    nodeId := ← orDefault word? d.nodeId nodeId
    hostname := ← orDefault (fun v => v.text?.map some) d.hostname hostname
    bindAddr := ← orDefault text? d.bindAddr bindAddr
    bindPort := ← orDefault half? d.bindPort bindPort
    advertiseAddr := ← orDefault (fun v => v.text?.map some) d.advertiseAddr advertiseAddr
    dataDir := ← orDefault text? d.dataDir dataDir
    peers := ← orDefault (fun v => do (← v.items?).mapM Peer.ofToml?) d.peers peers
    bootstrap := ← orDefault bool? d.bootstrap bootstrap
    raft := ← orDefault Timing.ofToml? d.raft raft
    onDecodeError := ← orDefault DecodePolicy.ofToml? d.onDecodeError onDecodeError
    statusIntervalSecs := ← orDefault word? d.statusIntervalSecs statusIntervalSecs }

/-- The settings that a document holds. -/
def parseToml? (s : String) : Option Config := (Toml.parse? s).bind ofToml?

/-! ## Writing -/

/-- A number, if it fits the signed integers of 64 bits that documents are limited to. -/
def wordText? (n : UInt64) : Option String :=
  if n.toNat ≤ 9223372036854775807 then some (Decimal.text n.toNat) else none

/-- A line that sets a key. -/
def settingLine (key value : String) : String := key ++ " = " ++ value ++ "\n"

/-- The text of a truth value. -/
def boolText (b : Bool) : String := if b then "true" else "false"

section Spelled

-- A string has several texts; which one is written is left open here.
variable (spell : String → String)

/-- The table of a peer. -/
def peerText? (p : Peer) : Option String := do
  return "\n[[peers]]\n" ++ settingLine "node_id" (← wordText? p.nodeId)
    ++ settingLine "addr" (spell p.addr) ++ settingLine "is_voter" (boolText p.isVoter)

/-- The tables of the peers. -/
def peersText? : List Peer → Option String
  | [] => some ""
  | p :: rest => do return (← peerText? spell p) ++ (← peersText? rest)

/-- The table of the intervals. -/
def timingText? (t : Timing) : Option String := do
  return "\n[raft]\n" ++ settingLine "heartbeat_interval_ms" (← wordText? t.heartbeatIntervalMs)
    ++ settingLine "election_timeout_min_ms" (← wordText? t.electionTimeoutMinMs)
    ++ settingLine "election_timeout_max_ms" (← wordText? t.electionTimeoutMaxMs)

/-- The line of a text that may be absent. -/
def optionalLine (key : String) : Option String → String
  | some s => settingLine key (spell s)
  | none => ""

/-- The document of the settings: scalars first, then the peers, then the intervals.  There is none
if a number does not fit. -/
def documentText? (c : Config) : Option String := do
  return settingLine "node_id" (← wordText? c.nodeId)
    ++ optionalLine spell "hostname" c.hostname
    ++ settingLine "bind_addr" (spell c.bindAddr)
    ++ settingLine "bind_port" (Decimal.text c.bindPort.toNat)
    ++ optionalLine spell "advertise_addr" c.advertiseAddr
    ++ settingLine "data_dir" (spell c.dataDir)
    ++ (if c.peers.isEmpty then settingLine "peers" "[]" else "")
    ++ settingLine "bootstrap" (boolText c.bootstrap)
    ++ settingLine "on_decode_error" (spell c.onDecodeError.name)
    ++ settingLine "status_interval_secs" (← wordText? c.statusIntervalSecs)
    ++ (← peersText? spell c.peers)
    ++ (← timingText? c.raft)

end Spelled

end Config

end ControlPlane
