import ControlPlane.Cli.Control
import ControlPlane.Cli.Daemon

/-!
# ControlPlane.Main

The two programs, `control` and `node`.  The first argument says which of them is meant; the others
are its own.  This layer reads and writes the file of settings, which is one of the working
directory, and prints.  It has no transport for HTTP, so `control` finds nobody who answers.
-/

namespace ControlPlane

/-- The working directory, as far as the arguments of `node` ask for it. -/
def readDirectory (args : List String) : IO Files := do
  match Daemon.readArguments args with
  | .error _ => return .empty
  | .ok (path, _) =>
    try
      let content ← IO.FS.readBinFile path
      return .directory [(path, .file content.toList)]
    catch _ => return .empty

/-- Writes the files that are new or have changed. -/
def writeDirectory (before after : Files) : IO Unit := do
  for (path, content) in after.list "" do
    if (before.list "").lookup path ≠ some content then
      IO.FS.writeBinFile path ⟨content.toArray⟩

/-- Prints what a program says, and gives its exit status. -/
def report (ending : Cli.Ending) : IO UInt32 := do
  match ending with
  | .done output => IO.print output
  | .failed output failure =>
    IO.print output
    for line in failure.lines do IO.eprintln line
  | .help | .usage => pure ()
  return UInt32.ofNat ending.status

end ControlPlane

open ControlPlane in
/-- Runs `control` or `node`. -/
def main (args : List String) : IO UInt32 := do
  match args with
  | "control" :: rest => report (Control.run rest none)
  | "node" :: rest =>
    let before ← readDirectory rest
    let (ending, after) := Daemon.run before rest
    writeDirectory before after
    report ending
  | _ => report .usage
