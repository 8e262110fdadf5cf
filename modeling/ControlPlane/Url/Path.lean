import ControlPlane.Http.Percent
import ControlPlane.Url.Address

/-!
# ControlPlane.Url.Path

The paths of URLs.  The steps `.` and `..` are taken when a path is read, so the path that is left
has names only.
-/

namespace ControlPlane.Url

/-- A path: names behind slashes, or a text that is not taken apart. -/
inductive Path
  | names (all : List (List Char))
  | plain (text : List Char)
  deriving DecidableEq, Repr

namespace Path

/-- The text of a path. -/
def text : Path → List Char
  | .names all => all.flatMap ('/' :: ·)
  | .plain text => text

/-- The characters of names that are not encoded. -/
def keeps (c : Char) : Bool :=
  32 < c.toNat && c.toNat < 127 && !("\"#<>?`\x7b\x7d".toList.contains c)

/-- A name in which an encoded dot is a dot, to compare it with the steps. -/
def withDots : List Char → List Char
  | '%' :: '2' :: 'e' :: rest | '%' :: '2' :: 'E' :: rest => '.' :: withDots rest
  | c :: rest => c :: withDots rest
  | [] => []

/-- Whether a name is the step that stays. -/
def stays (name : List Char) : Bool := withDots name == ['.']

/-- Whether a name is the step upward. -/
def goesUp (name : List Char) : Bool := withDots name == ['.', '.']

/-- Whether a name is the letter of a drive, which no step upward leaves. -/
def isDrive : List Char → Bool
  | [letter, mark] => letter.isAlpha && (mark == ':' || mark == '|')
  | _ => false

/-- The names that are left after a step upward. -/
def up (names : List (List Char)) : List (List Char) :=
  if names.getLast?.any isDrive then names else names.dropLast

/-- Takes the steps in a list of names.  A path that ends in a step ends in a slash. -/
def walk (done : List (List Char)) : List (List Char) → List (List Char)
  | [] => done
  | [last] =>
    if goesUp last then up done ++ [[]] else if stays last then done ++ [[]] else done ++ [last]
  | name :: rest =>
    if goesUp name then walk (up done) rest
    else if stays name then walk done rest
    else walk (done ++ [name]) rest

/-- Reads the names of a path, without the slash in front of the first. -/
def parse (special : Bool) (cs : List Char) : Path :=
  let cs := if special then cs.map fun c => if c = '\\' then '/' else c else cs
  .names (walk [] ((splitAt '/' cs).map (Percent.encode keeps)))

end Path

end ControlPlane.Url
