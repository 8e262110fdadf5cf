import ControlPlane.Consensus.Message.Form
import ControlPlane.Http
import ControlPlane.Number.Decimal

/-!
# ControlPlane.Remote

Messages to another node over HTTP: a message becomes a request, and what comes back becomes the
answer, or the reason why there is none.
-/

namespace ControlPlane.Remote

open Consensus Http
open Json (Form)

/-- Why a message has no answer. -/
inductive Error (ε : Type)
  /-- Nothing that is an answer came back. -/
  | network (reason : Option String)
  /-- The other node refused it. -/
  | remote (target : UInt64) (reason : Refusal ε)

/-- The request that carries a message to a path for messages. -/
def request {α : Type} [Form α] (path : String) (message : α) : Request where
  method := "POST"
  target := "/raft/" ++ path
  contentType := some "application/json"
  body := Json.writeBytes message

/-- The request for a vote. -/
def vote (r : VoteRequest) : Request := request "vote" r

/-- The request with entries. -/
def append (r : AppendRequest) : Request := request "append_entries" r

/-- The request with a piece of a snapshot. -/
def install (r : InstallRequest) : Request := request "install_snapshot" r

/-- The text for a status that is no success. -/
def statusMessage (target : UInt64) (status : Status) : String :=
  "HTTP error from node " ++ Decimal.natural target.toNat ++ ": " ++ status.label

/-- The answer in what came back from a node, if anything did. -/
def answer {ε α : Type} [Form ε] [Form α] (target : UInt64) :
    Option Received → Except (Error ε) α
  | none => .error (.network none)
  | some r =>
    if r.status.isSuccess then
      match Json.parseBytes (α := Answer ε α) r.body with
      | .ok (.ok a) => .ok a
      | .ok (.error reason) => .error (.remote target reason)
      | .error _ => .error (.network none)
    else .error (.network (some (statusMessage target r.status)))

end ControlPlane.Remote
