import ControlPlane.Text.Utf8

/-!
# ControlPlane.Files

A directory with the files below it, as a program finds it that runs there.  Paths are relative to
the directory; what lies outside of it is not modelled, so nothing can be read there.
-/

namespace ControlPlane

/-- Why an access to a file fails. -/
inductive FileError
  | notFound
  | exists
  | notDirectory
  | isDirectory
  /-- The path holds a character that no file name has. -/
  | badPath
  /-- The file is no text in UTF-8. -/
  | notText
  deriving DecidableEq, Repr

/-- The text of a file error. -/
def FileError.message : FileError → String
  | .notFound => "No such file or directory (os error 2)"
  | .exists => "File exists (os error 17)"
  | .notDirectory => "Not a directory (os error 20)"
  | .isDirectory => "Is a directory (os error 21)"
  | .badPath => "file name contained an unexpected NUL byte"
  | .notText => "stream did not contain valid UTF-8"

/-- A file or a directory. -/
inductive Files
  | file (content : Bytes)
  | directory (children : List (String × Files))
  deriving Inhabited

namespace Files

/-- A directory without anything in it. -/
def empty : Files := .directory []

/-- A path, taken apart: the names on the way, whether it starts outside, and whether it ends in a
slash and so has to be a directory. -/
structure Path where
  names : List String
  absolute : Bool
  mustBeDirectory : Bool

/-- Removes the steps upward from a list of names, together with the steps that they undo. -/
def straight (names : List String) : List String :=
  (names.foldl (fun done n => if n = ".." then done.drop 1 else n :: done) []).reverse

/-- The parts of a text between slashes, of which there is one at least. -/
def Path.parts : List Char → List (List Char)
  | [] => [[]]
  | c :: cs =>
    match Path.parts cs with
    | [] => [[c]]
    | part :: rest => if c = '/' then [] :: part :: rest else (c :: part) :: rest

/-- Takes a path apart. -/
def Path.ofString (s : String) : Except FileError Path :=
  if s = "" then .error .notFound
  else if s.toList.contains '\x00' then .error .badPath
  else
    let parts := (Path.parts s.toList).map String.ofList
    let last := parts.getLast?.getD ""
    .ok {
      names := parts.filter fun n => n ≠ "" ∧ n ≠ "."
      absolute := parts.head? = some ""
      mustBeDirectory := last = "" ∨ last = "." ∨ last = ".." }

/-- What is found at the end of a list of names. -/
def find : Files → List String → Except FileError Files
  | here, [] => .ok here
  | .file _, _ :: _ => .error .notDirectory
  | .directory children, n :: rest =>
    match children.lookup n with
    | some child => find child rest
    | none => .error .notFound

/-- Goes on from the end of a list of names.  Every directory that a step upward leaves must
exist. -/
def walk (root : Files) (done : List String) : List String → Except FileError (List String)
  | [] => .ok done
  | n :: rest =>
    if n = ".." then
      match root.find done with
      | .ok (.directory _) => root.walk done.dropLast rest
      | .ok (.file _) => .error .notDirectory
      | .error e => .error e
    else root.walk (done ++ [n]) rest

/-- The names on the way to what a path is for, without steps upward. -/
def resolve (root : Files) (p : Path) : Except FileError (List String) :=
  if p.absolute then .error .notFound else root.walk [] p.names

/-- What is found at a path. -/
def findPath (root : Files) (p : Path) : Except FileError Files := do
  let found ← root.find (← root.resolve p)
  match found with
  | .file _ => if p.mustBeDirectory then throw .notDirectory else return found
  | .directory _ => return found

/-- Whether there is anything at a path. -/
def existsAt (root : Files) (path : String) : Bool :=
  match Path.ofString path >>= root.findPath with
  | .ok _ => true
  | .error _ => false

/-- The content of a file. -/
def read (root : Files) (path : String) : Except FileError Bytes := do
  match ← root.findPath (← Path.ofString path) with
  | .file content => return content
  | .directory _ => throw .isDirectory

/-- The content of a file that is a text. -/
def readText (root : Files) (path : String) : Except FileError String := do
  match Utf8.decode? (← root.read path) with
  | some s => return s
  | none => throw .notText

/-- Puts something at the end of a list of names, in a directory that exists. -/
def put : Files → List String → Files → Except FileError Files
  | _, [], new => .ok new
  | .file _, _ :: _, _ => .error .notDirectory
  | .directory children, [n], new =>
    .ok (.directory (if (children.lookup n).isSome
      then children.map fun c => if c.1 == n then (n, new) else c
      else children ++ [(n, new)]))
  | .directory children, n :: rest, new =>
    match children.lookup n with
    | none => .error .notFound
    | some child => do
      let child ← put child rest new
      return .directory (children.map fun c => if c.1 == n then (n, child) else c)

/-- Writes a file, in place of the one that was there.  The directory that it is in must exist. -/
def write (root : Files) (path : String) (content : Bytes) : Except FileError Files := do
  let p ← Path.ofString path
  let names ← root.resolve p
  match root.findPath p with
  | .ok (.directory _) => throw .isDirectory
  | .ok (.file _) => root.put names (.file content)
  | .error .notFound =>
    let _ ← root.find names.dropLast
    if p.mustBeDirectory then throw .isDirectory
    else root.put names (.file content)
  | .error e => throw e

/-- Makes a directory and all above it that are missing. -/
def makeDirectories (root : Files) (path : String) : Except FileError Files := do
  if path = "" then return root
  let p ← Path.ofString path
  if p.absolute then return root
  let rec make (root : Files) (done : List String) : List String → Except FileError Files
    | [] => .ok root
    | n :: rest =>
      let here := done ++ [n]
      match root.find here with
      | .ok (.directory _) => make root here rest
      | .ok (.file _) => .error (if rest.isEmpty then .exists else .notDirectory)
      | .error .notFound => do make (← root.put here empty) here rest
      | .error e => .error e
  make root [] (straight p.names)

mutual

/-- The files below a directory, each with its path. -/
def list (at' : String) : Files → List (String × Bytes)
  | .file content => [(at', content)]
  | .directory children => listChildren (if at' = "" then "" else at' ++ "/") children

/-- The files below the children of a directory. -/
def listChildren (before : String) : List (String × Files) → List (String × Bytes)
  | [] => []
  | (n, child) :: rest => list (before ++ n) child ++ listChildren before rest

end

end Files

end ControlPlane
