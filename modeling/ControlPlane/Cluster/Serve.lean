import ControlPlane.Api
import ControlPlane.Cluster
import ControlPlane.State.Form

/-!
# ControlPlane.Cluster.Serve

How a node answers requests over HTTP.
-/

namespace ControlPlane.Cluster

open Consensus Http
open Json (toJson)

/-- What a node tells of itself. -/
def statusJson (n : Node) : Json :=
  let view := n.view
  .record [("node_id", toJson n.id), ("is_leader", .bool n.leads),
    ("leader_id", toJson view.leaderId), ("term", toJson view.term),
    ("last_applied_index", toJson view.lastAppliedIndex),
    ("storage_groups", .int view.storageGroups.size), ("region_groups", .int view.regionGroupCount)]

/-- The status for a command without effect. -/
def SubmitError.status : SubmitError → Status
  | .rejected _ => .conflict
  | _ => .serverError

/-- An answer to another node; a node that has stopped gives the reason. -/
def unlessFatal {ε α : Type} (n : Node) (answer : Node → Answer ε α × Node) : Answer ε α × Node :=
  match n.fatal with
  | some reason => (.error (.fatal reason), n)
  | none => answer n

/-- Answers a node's message at the node at a place. -/
def exchange {ε α : Type} [Json.Form ε] [Json.Form α] (c : Cluster) (i : Nat) (n : Node)
    (answer : Node → Answer ε α × Node) : Response × Cluster :=
  let (a, n) := unlessFatal n answer
  (⟨.ok, some (toJson a)⟩, c.setNode i n)

/-- Answers a call at the node at a place. -/
def answer (c : Cluster) (i : Nat) (n : Node) : Call → Response × Cluster
  | .health => (⟨.ok, some (.record [("status", .text "ok")])⟩, c)
  | .status => (⟨.ok, some (statusJson n)⟩, c)
  | .partition => (⟨.ok, some (toJson n.view)⟩, c)
  | .submit command done =>
    match c.submit i command with
    | (.ok (), c) => (⟨.created, some done⟩, c)
    | (.error e, c) => (⟨e.status, some (.record [("error", .text e.message)])⟩, c)
  | .vote r => c.exchange (ε := Empty) i n fun n => let (a, n) := n.answerVote r; (.ok a, n)
  | .append r => c.exchange (ε := Empty) i n fun n => let (a, n) := n.answerAppend r; (.ok a, n)
  | .install r => c.exchange i n fun n => n.answerInstall r

/-- Answers a request at the node at a place.  The answer to a `HEAD` has no body. -/
def serve (c : Cluster) (i : Nat) (r : Request) : Response × Cluster :=
  match c.node? i with
  | none => (⟨.serverError, none⟩, c)
  | some n =>
    match Api.call r with
    | .error status => (⟨status, none⟩, c)
    | .ok call =>
      let (response, c) := c.answer i n call
      (if r.method = "HEAD" then { response with body := none } else response, c)

end ControlPlane.Cluster
