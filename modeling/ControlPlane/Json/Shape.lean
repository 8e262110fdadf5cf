import ControlPlane.Json.Ignored

/-!
# ControlPlane.Json.Shape

Readers for values of a known shape.  Each returns the value in its standard form: members in the
order of the shape, members that are absent filled in, members that are unknown dropped.
-/

namespace ControlPlane.Json.Reader

/-! ## Scalars -/

/-- The fault when a value of another kind stands where one of this shape should. -/
def otherKind {α : Type} : Reader α := do
  match ← peek? with
  | some 'n' => word "null"
  | some 't' => word "true"
  | some 'f' => word "false"
  | some '"' => let _ ← string
  | some '[' => pure ()
  | some '{' => pure ()
  | some c => if c = '-' ∨ Decimal.isDigit c then let _ ← number else throw .notJson
  | none => throw .notJson
  throw .shape

/-- Nothing. -/
def null : Reader Json := do
  if (← peekToken?) = some 'n' then
    word "null"
    return .null
  else otherKind

/-- A truth value. -/
def bool : Reader Json := do
  match ← peekToken? with
  | some 't' => word "true"; return .bool true
  | some 'f' => word "false"; return .bool false
  | _ => otherKind

/-- An integer in a range, where a number comes next. -/
def integer (low high : Int) : Reader Json := do
  match ← number with
  | .int n => if low ≤ n ∧ n ≤ high then return .int n else throw .shape
  | .real _ => throw .shape

/-- An integer in a range. -/
def int (low high : Int) : Reader Json := do
  match ← peekToken? with
  | some c => if c = '-' ∨ Decimal.isDigit c then integer low high else otherKind
  | none => throw .notJson

/-- A text. -/
def text : Reader Json := do
  if (← peekToken?) = some '"' then return .text (← string) else otherKind

/-- Nothing, or a value. -/
def optional (value : Reader Json) : Reader Json := do
  if (← peekToken?) = some 'n' then
    word "null"
    return .null
  else value

/-! ## Lists -/

/-- Whether a list has another item; takes the comma in front of it, which may not be the last
token. -/
def nextItem (first : Bool) : Reader Bool := do
  match ← peekToken? with
  | some ']' => return false
  | some c =>
    if first then return true
    else if c = ',' then do
      advance
      if (← peekToken?) = some ']' then throw .notJson else return true
    else throw .notJson
  | none => throw .notJson

/-- The items of a list up to its end, at most `fuel` of them. -/
def items (item : Reader Json) : Nat → Bool → Reader (List Json)
  | 0, _ => throw .notJson
  | fuel + 1, first => do
    if ← nextItem first then
      let a ← item
      let rest ← items item fuel false
      return a :: rest
    else return []

/-- A list.  Each item takes a character at least, so the text bounds their number. -/
def list (item : Reader Json) : Reader Json := do
  if (← peekToken?) = some '[' then
    advance
    let left := (← get).length
    let found ← items item (left + 1) true
    expect ']'
    return .list found
  else otherKind

/-! ## Records -/

/-- A member that a record may have: its name, its value, and what is taken for it when it is
absent, in a record and in a list that stands for one. -/
structure Member where
  name : String
  value : Reader Json
  absent : Option Json
  absentInList : Option Json

/-- Whether a record has another member; takes the comma in front of it. -/
def nextMember (first : Bool) : Reader Bool := do
  match ← peekToken? with
  | some '}' => return false
  | some c =>
    if first then
      if c = '"' then return true else throw .notJson
    else if c = ',' then do
      advance
      if (← peekToken?) = some '"' then return true else throw .notJson
    else throw .notJson
  | none => throw .notJson

/-- The members of a record up to its end, at most `fuel` of them.  An unknown member is passed
over; a known one that comes twice is refused at its name. -/
def membersFound (members : List Member) :
    Nat → Bool → List (String × Json) → Reader (List (String × Json))
  | 0, _, _ => throw .notJson
  | fuel + 1, first, found => do
    if ← nextMember first then
      let name ← string
      match members.find? (·.name == name) with
      | some m =>
        if (found.lookup name).isSome then throw .shape
        expect ':'
        let v ← m.value
        membersFound members fuel false (found ++ [(name, v)])
      | none =>
        expect ':'
        ignored
        membersFound members fuel false found
    else return found

/-- The members in order, those absent filled in. -/
def complete (found : List (String × Json)) : List Member → Reader (List (String × Json))
  | [] => return []
  | m :: rest =>
    match found.lookup m.name <|> m.absent with
    | some v => do return (m.name, v) :: (← complete found rest)
    | none => throw .shape

/-- The items of a list that stands for a record, in the order of the members. -/
def membersInList : List Member → Bool → Reader (List (String × Json))
  | [], _ => return []
  | m :: rest, first => do
    if (← peekToken?) = some ']' then
      match m.absentInList with
      | some v => return (m.name, v) :: (← membersInList rest first)
      | none => throw .shape
    else if ← nextItem first then
      let v ← m.value
      return (m.name, v) :: (← membersInList rest false)
    else throw .shape

/-- A record, or a list that stands for one. -/
def record (members : List Member) : Reader Json := do
  match ← peekToken? with
  | some '{' =>
    advance
    let left := (← get).length
    let found ← membersFound members (left + 1) true []
    let all ← complete found members
    expect '}'
    return .record all
  | some '[' =>
    advance
    let all ← membersInList members true
    expect ']'
    return .record all
  | _ => otherKind

/-! ## Maps -/

/-- The entries of a map up to its end, at most `fuel` of them. -/
def entries (key : Reader String) (value : Reader Json) :
    Nat → Bool → Reader (List (String × Json))
  | 0, _ => throw .notJson
  | fuel + 1, first => do
    if ← nextMember first then
      let k ← key
      expect ':'
      let v ← value
      let rest ← entries key value fuel false
      return (k, v) :: rest
    else return []

/-- A map with these keys. -/
def mapWith (key : Reader String) (value : Reader Json) : Reader Json := do
  if (← peekToken?) = some '{' then
    advance
    let left := (← get).length
    let found ← entries key value (left + 1) true
    expect '}'
    return .record found
  else otherKind

/-- A map from texts. -/
def textMap (value : Reader Json) : Reader Json := mapWith string value

/-- An integer between quotes. -/
def integerKey (low high : Int) : Reader String := do
  advance
  match ← peek? with
  | some c =>
    if c = '-' ∨ Decimal.isDigit c then
      match ← integer low high with
      | .int n =>
        if (← peek?) = some '"' then
          advance
          return Decimal.text n
        else throw .notJson
      | _ => throw .shape
    else throw .notJson
  | none => throw .notJson

/-- A map from integers. -/
def intMap (low high : Int) (value : Reader Json) : Reader Json :=
  mapWith (integerKey low high) value

/-! ## Choices -/

/-- What a variant of a choice holds. -/
inductive Content
  | nothing
  | value (reader : Reader Json)

/-- One of several variants.  A variant without content is its name; one with content is a record
with the name as its only member, and a variant without content may be written so too. -/
def choice (variants : List (String × Content)) : Reader Json := do
  match ← peekToken? with
  | some '"' =>
    let name ← string
    match variants.lookup name with
    | some .nothing => return .text name
    | _ => throw .shape
  | some '{' =>
    advance
    if (← peekToken?) = some '"' then
      let name ← string
      match variants.lookup name with
      | some content =>
        expect ':'
        let found ←
          match content with
          | .nothing => do
            let _ ← null
            pure (Json.text name)
          | .value reader => do
            let v ← reader
            pure (Json.record [(name, v)])
        expect '}'
        return found
      | none => throw .shape
    else otherKind
  | _ => throw .notJson

end ControlPlane.Json.Reader
