/-!
# ControlPlane.Cli.Ending

How programs end: done, with a word on how they are used, or with an error.
-/

namespace ControlPlane.Cli

/-- Why a program fails, and what caused it if that is not all. -/
structure Failure where
  message : String
  cause : Option String := none
  deriving DecidableEq, Repr

/-- The lines of a text. -/
def lines (s : String) : List String := s.splitOn "\n"

/-- The lines that tell of a failure.  The cause is indented below a headline. -/
def Failure.lines (f : Failure) : List String :=
  Cli.lines ("Error: " ++ f.message) ++
    match f.cause with
    | none => []
    | some cause => "" :: "Caused by:" :: (Cli.lines cause).map ("    " ++ ·)

/-- How a program ends. -/
inductive Ending
  | done (output : String)
  /-- The program was asked how it is used. -/
  | help
  /-- The arguments make no sense. -/
  | usage
  | failed (output : String) (failure : Failure)
  deriving DecidableEq, Repr

/-- The exit status of an ending. -/
def Ending.status : Ending → Nat
  | .done _ | .help => 0
  | .failed .. => 1
  | .usage => 2

end ControlPlane.Cli
