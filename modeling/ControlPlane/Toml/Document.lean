import ControlPlane.Toml.Number

/-!
# ControlPlane.Toml.Document

TOML documents: lines that set keys or open tables, and the table that they amount to.  Values in
brackets and braces may be nested 79 deep, and a dotted key may have as many parts.
-/

namespace ControlPlane.Toml

namespace Reader

/-! ## Keys -/

/-- Whether a character may stand in a key without quotes. -/
def isBare (c : Char) : Bool := c.isAlphanum || c == '-' || c == '_'

/-- One part of a key. -/
def keyPart : Reader String := do
  skipBlank
  let part ← basic <|> literal <|> (do return String.ofList (← some' isBare))
  skipBlank
  return part

/-- Further parts of a key, at most `fuel` of them. -/
def moreParts : Nat → Reader (List String)
  | 0 => return []
  | fuel + 1 => do
    if (← peek?) = some '.' then
      word "."
      let part ← keyPart
      return part :: (← moreParts fuel)
    else return []

/-- The greatest number of parts of a key, and of brackets inside each other. -/
def deepest : Nat := 79

/-- A key, as the path to its table and its last part. -/
def key : Reader (List String × String) := do
  let first ← keyPart
  let cs ← get
  let rest ← moreParts cs.length
  if deepest < rest.length + 1 then failure
  let parts := first :: rest
  return (parts.dropLast, parts.getLast?.getD first)

/-! ## Values -/

/-- Takes a comment. -/
def comment : Reader Unit := do
  word "#"
  let _ ← while' isText

/-- Takes blanks, line breaks and comments, as they may stand in an array.  At most `fuel` of
them. -/
def skipLines : Nat → Reader Unit
  | 0 => return
  | fuel + 1 => do
    match ← optional ((do let _ ← one isBlank) <|> newline <|> (comment *> newline)) with
    | some () => skipLines fuel
    | none => return

/-- Takes all blanks, line breaks and comments in front. -/
def skipAllLines : Reader Unit := do
  let cs ← get
  skipLines cs.length

/-- The items of an array up to its bracket, at most `fuel` of them. -/
def arrayItems (item : Reader Value) : Nat → Reader (List Value)
  | 0 => failure
  | fuel + 1 => do
    skipAllLines
    if (← peek?) = some ']' then return []
    else
      let v ← item
      skipAllLines
      match ← peek? with
      | some ',' =>
        word ","
        return v :: (← arrayItems item fuel)
      | some ']' => return [v]
      | _ => failure

/-- An array. -/
def array (item : Reader Value) : Reader Value := do
  word "["
  let cs ← get
  let items ← arrayItems item (cs.length + 1)
  word "]"
  return .array items

/-- A key and its value. -/
def setting (item : Reader Value) : Reader (List String × String × Value) := do
  let (path, last) ← key
  word "="
  skipBlank
  let v ← item
  return (path, last, v)

/-- The settings of a table in braces, at most `fuel` of them. -/
def bracedSettings (item : Reader Value) : Nat → Reader (List (List String × String × Value))
  | 0 => failure
  | fuel + 1 => do
    let s ← setting item
    skipBlank
    if (← peek?) = some ',' then
      word ","
      return s :: (← bracedSettings item fuel)
    else return [s]

/-- A table in braces. -/
def braced (item : Reader Value) : Reader Value := do
  word "\x7b"
  skipBlank
  let cs ← get
  let settings ← if (← peek?) = some '\x7d' then pure [] else bracedSettings item (cs.length + 1)
  word "\x7d"
  match settings.foldlM (fun entries (path, last, v) => Entries.set path last v entries) [] with
  | some entries => return Entries.toValue true entries
  | none => failure

/-- A value without brackets or braces. -/
def scalar : Reader Value := do
  match ← peek? with
  | some 't' => word "true" *> return .bool true
  | some 'f' => word "false" *> return .bool false
  | some 'i' => word "inf" *> return .real "inf"
  | some 'n' => word "nan" *> return .real "nan"
  | some '"' => do return .text (← string)
  | some '\'' => do return .text (← string)
  | _ => number

/-- A value with up to so many brackets inside each other. -/
def value : Nat → Reader Value
  | 0 => scalar
  | depth + 1 => do
    match ← peek? with
    | some '[' => array (value depth)
    | some '\x7b' => braced (value depth)
    | _ => scalar

/-! ## Lines -/

/-- What a line of a document does. -/
inductive Line
  | set (path : List String) (key : String) (v : Value)
  | openTable (path : List String) (key : String)
  | openNext (path : List String) (key : String)

/-- Takes the rest of a line behind what it does. -/
def lineEnd : Reader Unit := do
  skipBlank
  let _ ← optional comment
  if (← get).isEmpty then return else newline

/-- A line that does something. -/
def line : Reader Line := do
  if (← peek?) = some '[' then
    word "["
    if (← peek?) = some '[' then
      word "["
      let (path, last) ← key
      word "]]"
      return .openNext path last
    else
      let (path, last) ← key
      word "]"
      return .openTable path last
  else
    let (path, last, v) ← setting (value deepest)
    return .set path last v

/-- All lines of a document, at most `fuel` of them. -/
def documentLines : Nat → Reader (List Line)
  | 0 => return []
  | fuel + 1 => do
    skipBlank
    match ← peek? with
    | none => return []
    | some c =>
      if c == '#' || c == '\n' || c == '\r' then
        lineEnd
        documentLines fuel
      else
        let l ← line
        lineEnd
        return l :: (← documentLines fuel)

end Reader

open Reader

/-! ## Documents -/

/-- A document while it is read: its tables, and the path of the one that is open. -/
structure Draft where
  entries : Entries
  current : List String

/-- What a line does to a document. -/
def Draft.add (d : Draft) : Line → Option Draft
  | .set path key v => do return { d with entries := ← d.entries.setAt d.current path key v }
  | .openTable path key => do return ⟨← d.entries.openTable path key, path ++ [key]⟩
  | .openNext path key => do return ⟨← d.entries.openNext path key, path ++ [key]⟩

/-- The table that a document is.  A byte order mark in front of it does not count. -/
def parse? (s : String) : Option Value := do
  let cs :=
    match s.toList with
    | '\uFEFF' :: rest => rest
    | cs => cs
  let (lines, rest) ← (documentLines (cs.length + 1)).run cs
  if ¬ rest.isEmpty then failure
  let d ← lines.foldlM Draft.add ⟨[], []⟩
  return Entries.toValue false d.entries

end ControlPlane.Toml
