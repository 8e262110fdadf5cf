import ControlPlane.Config.Toml
import ControlPlane.Files

/-!
# ControlPlane.Config.File

Settings in a file.
-/

namespace ControlPlane.Config

/-- Why settings cannot be loaded. -/
inductive LoadError
  | file (e : FileError)
  /-- The file is no TOML document, or not one of settings. -/
  | document
  | invalid (e : Invalid)
  deriving DecidableEq, Repr

/-- The settings in a file, if a node accepts them. -/
def load (files : Files) (path : String) : Except LoadError Config :=
  match files.readText path with
  | .error e => .error (.file e)
  | .ok s =>
    match parseToml? s with
    | none => .error .document
    | some c =>
      match c.validate with
      | .ok () => .ok c
      | .error e => .error (.invalid e)

/-- Why settings cannot be saved. -/
inductive SaveError
  /-- A number does not fit the format. -/
  | document
  | file (e : FileError)
  deriving DecidableEq, Repr

/-- Writes settings to a file, with strings written in some way. -/
def saveSpelled (spell : String → String) (c : Config) (files : Files) (path : String) :
    Except SaveError Files :=
  match c.documentText? spell with
  | none => .error .document
  | some s =>
    match files.write path (Utf8.encode s) with
    | .ok files => .ok files
    | .error e => .error (.file e)

/-- Writes settings to a file. -/
def save (c : Config) (files : Files) (path : String) : Except SaveError Files :=
  c.saveSpelled Toml.quote files path

end ControlPlane.Config
