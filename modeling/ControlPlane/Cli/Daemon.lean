import ControlPlane.Cli.Arguments
import ControlPlane.Cli.Listening
import ControlPlane.Config.File
import ControlPlane.Number.Decimal
import ControlPlane.Text.Quoted

/-!
# ControlPlane.Cli.Daemon

The program that runs a node, writes a first file of settings, or checks one.  It works on the files
of the directory that it was started in.
-/

namespace ControlPlane.Daemon

open Cli

/-! ## Arguments -/

/-- The flag with the file of settings.  Every verb has it; the last verb that it is given to
counts. -/
def configFlag : Flag where
  name := "config"
  short := some 'c'
  valid s := !s.isEmpty

/-- The file of settings if none is named. -/
def defaultConfig : String := "metaplane.toml"

/-- The verbs and flags. -/
def program : Verb where
  name := "node"
  flags := [configFlag]
  verbs := [
    { name := "run", flags := [configFlag] },
    { name := "init", flags := [configFlag, { name := "force", arity := .nothing }] },
    { name := "check", flags := [configFlag] }]

/-- What the program is told to do. -/
inductive Action
  /-- Run a node until it is interrupted. -/
  | run
  /-- Write a file of settings, also in place of another if `force` says so. -/
  | init (force : Bool)
  /-- Show the settings that a node would use. -/
  | check
  deriving DecidableEq, Repr

/-- What a verb asks for. -/
def Action.ofLevel? (l : Level) : Option Action :=
  match l.verb with
  | "run" => some .run
  | "init" => some (.init (l.has "force"))
  | "check" => some .check
  | _ => none

/-- The file of settings, and what to do. -/
def readArguments (args : List String) : Except Stop (String × Action) := do
  let levels ← program.read args
  match levels.getLast?.bind Action.ofLevel? with
  | some action =>
    let config := levels.reverse.findSome? fun l => l.value? configFlag.name
    return (config.getD defaultConfig, action)
  | none => throw .usage

/-! ## Errors -/

/-- Why an action fails. -/
inductive Error
  | badConfig (path : String) (e : Config.LoadError)
  | alreadyThere (path : String)
  | file (e : FileError)
  | cannotListen (address : String) (e : ListenError)
  deriving DecidableEq, Repr

/-- The first line of what is wrong with a file of settings. -/
def loadMessage : Config.LoadError → String
  | .file e => e.message
  | .document => "TOML parse error"
  | .invalid e => e.message

/-- What the program says of an error. -/
def Error.failure : Error → Failure
  | .badConfig path e => ⟨"invalid config " ++ Text.quotedPath path, some (loadMessage e)⟩
  | .alreadyThere path =>
    ⟨Text.quotedPath path ++ " already exists, pass --force to overwrite", none⟩
  | .file e => ⟨e.message, none⟩
  | .cannotListen address e => ⟨"cannot bind " ++ address, some e.message⟩

/-! ## Actions -/

/-- Loads the settings. -/
def load (files : Files) (path : String) : Except Error Config :=
  match Config.load files path with
  | .ok c => .ok c
  | .error e => .error (.badConfig path e)

/-- What is said when a file of settings was written. -/
def written (path : String) : String :=
  "Wrote " ++ Text.quotedPath path ++ "\n" ++
    "Set a unique node_id, list the other nodes under [[peers]] and mark one node " ++
    "bootstrap = true.\n"

/-- Writes a file with the default settings. -/
def writeDefaults (files : Files) (path : String) (force : Bool) : Except Error Files :=
  if files.existsAt path ∧ !force then .error (.alreadyThere path)
  else
    match Config.save .default files path with
    | .ok files => .ok files
    | .error (.file e) => .error (.file e)
    | .error .document => .error (.badConfig path .document)

/-- The name of a way to treat commands that cannot be read, as it is shown. -/
def policyLabel : DecodePolicy → String
  | .halt => "Halt"
  | .skip => "Skip"

/-- The line for a peer. -/
def peerLine (p : Peer) : String :=
  "peer:            " ++ Decimal.natural p.nodeId.toNat ++ " " ++ p.addr ++
    (if p.isVoter then " (voter)\n" else " (learner)\n")

/-- The settings as they are shown. -/
def summary (c : Config) : String :=
  "node_id:         " ++ Decimal.natural c.nodeId.toNat ++ "\n" ++
  "listen:          " ++ c.listenAddr ++ "\n" ++
  "advertise:       " ++ c.effectiveAdvertiseAddr ++ "\n" ++
  "data_dir:        " ++ Text.quotedPath c.dataDir ++ "\n" ++
  "on_decode_error: " ++ policyLabel c.onDecodeError ++ "\n" ++
  String.join (c.peers.map peerLine)

/-- The directory in the data directory where the log is kept. -/
def logDirectory (dataDir : String) : String := if dataDir = "" then "raft" else dataDir ++ "/raft"

/-- Starts a node: settings, directories, address, in this order.  Without a file of settings the
defaults are used. -/
def start (files : Files) (path : String) : Except Error Files := do
  let c ← if files.existsAt path then load files path else .ok .default
  let made := do (← files.makeDirectories c.dataDir).makeDirectories (logDirectory c.dataDir)
  match made with
  | .error e => throw (.file e)
  | .ok files =>
    match canListen c.bindAddr with
    | .ok () => return files
    | .error e => throw (.cannotListen c.listenAddr e)

/-- Carries out an action: what is printed, and the files that are there then. -/
def Action.act (files : Files) (path : String) : Action → Except Error (String × Files)
  | .run => do return ("", ← start files path)
  | .init force => do return (written path, ← writeDefaults files path force)
  | .check => do return (summary (← load files path), files)

/-- Runs the program until it is interrupted: how it ends, and the files that are there then. -/
def run (files : Files) (args : List String) : Ending × Files :=
  match readArguments args with
  | .error stop => (stop.ending, files)
  | .ok (path, action) =>
    match action.act files path with
    | .ok (output, files) => (.done output, files)
    | .error e => (.failed "" e.failure, files)

end ControlPlane.Daemon
