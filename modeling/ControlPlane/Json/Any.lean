import ControlPlane.Json.Form

/-!
# ControlPlane.Json.Any

JSON of any shape, as an answer of an unknown server may be.  Records come out with their members in
order of names, the last of several with one name, and brackets may be nested 127 deep.
-/

namespace ControlPlane.Json

namespace Reader

/-- The members of a record in order of names. -/
def sorted (members : List (String × Json)) : Json :=
  .record (SortedMap.ofList members).entries

/-- A value whose brackets hold values of an inner reader; without one there may be no brackets. -/
def anyWith (inner : Option (Reader Json)) : Reader Json := do
  match ← peekToken? with
  | some 'n' => null
  | some 't' => bool
  | some 'f' => bool
  | some '"' => text
  | some '[' =>
    match inner with
    | none => throw .notJson
    | some value => list value
  | some '{' =>
    match inner with
    | none => throw .notJson
    | some value =>
      match ← textMap value with
      | .record members => return sorted members
      | j => return j
  | _ =>
    match ← number with
    | .int n => return .int n
    | .real x => return .real x.toBits

/-- A value with up to so many brackets inside each other. -/
def any : Nat → Reader Json
  | 0 => anyWith none
  | depth + 1 => anyWith (some (any depth))

end Reader

/-- JSON of any shape is its own form. -/
instance : Form Json where
  toJson := id
  ofJson? := some
  reader := Reader.any 127

end ControlPlane.Json
