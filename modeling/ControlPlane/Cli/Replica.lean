import ControlPlane.Cli.Ending
import ControlPlane.Number.Integer
import ControlPlane.Region
import ControlPlane.Text.Quoted

/-!
# ControlPlane.Cli.Replica

Endpoints and replicas as operators write them: `ip:port`, and `id@ip:port` with the id of the data
node.  An address may hold colons and at signs, so a port is behind the last colon, and an id in
front of the first at sign.
-/

namespace ControlPlane.Cli

/-- Why an argument names no endpoint or no replica. -/
inductive ArgumentError
  | notEndpoint (text : String)
  | badPort (text : String) (fault : Integer.Fault)
  | notReplica (text : String)
  | badNodeId (text : String) (fault : Integer.Fault)
  deriving DecidableEq, Repr

/-- What a program says of a wrong argument. -/
def ArgumentError.failure : ArgumentError → Failure
  | .notEndpoint text => ⟨"endpoint " ++ Text.quoted text ++ " is not ip:port", none⟩
  | .badPort text fault => ⟨"invalid port in " ++ Text.quoted text, some fault.message⟩
  | .notReplica text => ⟨"replica " ++ Text.quoted text ++ " is not id@ip:port", none⟩
  | .badNodeId text fault => ⟨"invalid data node id in " ++ Text.quoted text, some fault.message⟩

/-- Cuts a text where a character first stands. -/
def cutFirst (mark : Char) : List Char → Option (List Char × List Char)
  | [] => none
  | c :: rest =>
    if c = mark then some ([], rest)
    else (cutFirst mark rest).map fun (before, after) => (c :: before, after)

/-- Cuts a text where a character last stands. -/
def cutLast (mark : Char) : List Char → Option (List Char × List Char)
  | [] => none
  | c :: rest =>
    match cutLast mark rest with
    | some (before, after) => some (c :: before, after)
    | none => if c = mark then some ([], rest) else none

/-- Reads an endpoint. -/
def readEndpoint (text : List Char) : Except ArgumentError Endpoint :=
  match cutLast ':' text with
  | none => .error (.notEndpoint (String.ofList text))
  | some (ip, port) =>
    match Integer.readInt32 port with
    | .ok port => .ok ⟨String.ofList ip, port⟩
    | .error fault => .error (.badPort (String.ofList text) fault)

/-- Reads a replica. -/
def readReplica (text : List Char) : Except ArgumentError Location :=
  match cutFirst '@' text with
  | none => .error (.notReplica (String.ofList text))
  | some (id, endpoint) =>
    match Integer.readInt32 id with
    | .ok id => (readEndpoint endpoint).map (⟨id, ·⟩)
    | .error fault => .error (.badNodeId (String.ofList text) fault)

end ControlPlane.Cli
