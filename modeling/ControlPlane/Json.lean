import ControlPlane.Number.Decimal
import ControlPlane.Number.Hexadecimal
import ControlPlane.Number.Shortest

/-!
# ControlPlane.Json

JSON values, and their texts: a compact one, in which this library stores and sends everything, and
one laid out over lines for people to read.  The members of a record keep their order.
-/

namespace ControlPlane

/-- A JSON value. -/
inductive Json
  | null
  | bool (b : Bool)
  | int (n : Int)
  /-- A number with a fraction or an exponent, as the bits of the double that it is read as. -/
  | real (bits : UInt64)
  | text (s : String)
  | list (items : List Json)
  | record (members : List (String × Json))
  deriving Inhabited, Repr

namespace Json

/-! ## Texts of scalars -/

/-- A character inside a JSON string.  Only what the format forbids to stand there is escaped. -/
def escapeChar (c : Char) : List Char :=
  match c with
  | '"' => ['\\', '"']
  | '\\' => ['\\', '\\']
  | '\x08' => ['\\', 'b']
  | '\x0c' => ['\\', 'f']
  | '\n' => ['\\', 'n']
  | '\r' => ['\\', 'r']
  | '\t' => ['\\', 't']
  | c =>
    if c.toNat < 32 then
      ['\\', 'u', '0', '0', Hexadecimal.digitChar (c.toNat / 16),
        Hexadecimal.digitChar (c.toNat % 16)]
    else [c]

/-- A text as a JSON string. -/
def quote (s : String) : List Char := '"' :: (s.toList.flatMap escapeChar ++ ['"'])

/-- A double: its shortest digits, written positionally for decimal exponents from -5 to 15, and
with an exponent that always has its sign otherwise. -/
def realText (bits : UInt64) : List Char :=
  let negative := bits.toNat ≥ 9223372036854775808
  let magnitude := UInt64.ofNat (bits.toNat % 9223372036854775808)
  let sign := if negative then ['-'] else []
  if magnitude = 0 then sign ++ ['0', '.', '0']
  else
    let (ds, e) := (Shortest.Binary.ofBits magnitude).shortest.normal
    let body :=
      if e < -5 ∨ e > 15 then
        ds.take 1 ++ (if ds.length > 1 then '.' :: ds.drop 1 else [])
          ++ ['e', if e < 0 then '-' else '+'] ++ Decimal.digits e.natAbs
      else if e < 0 then
        ['0', '.'] ++ List.replicate (e.natAbs - 1) '0' ++ ds
      else
        let whole := e.toNat + 1
        if ds.length ≤ whole then ds ++ List.replicate (whole - ds.length) '0' ++ ['.', '0']
        else ds.take whole ++ '.' :: ds.drop whole
    sign ++ body

/-! ## Compact text -/

mutual

/-- The compact text of a value. -/
def compact : Json → List Char
  | .null => "null".toList
  | .bool b => if b then "true".toList else "false".toList
  | .int n => Decimal.signed n
  | .real bits => realText bits
  | .text s => quote s
  | .list items => '[' :: (compactItems items ++ [']'])
  | .record members => '{' :: (compactMembers members ++ ['}'])

/-- The items of a list, with commas between them. -/
def compactItems : List Json → List Char
  | [] => []
  | [item] => compact item
  | item :: rest => compact item ++ ',' :: compactItems rest

/-- The members of a record, with commas between them. -/
def compactMembers : List (String × Json) → List Char
  | [] => []
  | [(name, value)] => quote name ++ ':' :: compact value
  | (name, value) :: rest => quote name ++ ':' :: (compact value ++ ',' :: compactMembers rest)

end

/-- The compact text of a value. -/
def render (j : Json) : String := String.ofList j.compact

/-! ## Text over lines -/

/-- A new line, indented to a depth. -/
def newline (depth : Nat) : List Char := '\n' :: List.replicate (2 * depth) ' '

mutual

/-- The text of a value over lines, two spaces a level.  Empty lists and records stay on their
line. -/
def layout (depth : Nat) : Json → List Char
  | .list [] => ['[', ']']
  | .record [] => ['{', '}']
  | .list items => '[' :: (layoutItems (depth + 1) items ++ newline depth ++ [']'])
  | .record members => '{' :: (layoutMembers (depth + 1) members ++ newline depth ++ ['}'])
  | .null => "null".toList
  | .bool b => if b then "true".toList else "false".toList
  | .int n => Decimal.signed n
  | .real bits => realText bits
  | .text s => quote s

/-- The items of a list, each on its line. -/
def layoutItems (depth : Nat) : List Json → List Char
  | [] => []
  | [item] => newline depth ++ layout depth item
  | item :: rest => newline depth ++ layout depth item ++ ',' :: layoutItems depth rest

/-- The members of a record, each on its line. -/
def layoutMembers (depth : Nat) : List (String × Json) → List Char
  | [] => []
  | [(name, value)] => newline depth ++ quote name ++ ':' :: ' ' :: layout depth value
  | (name, value) :: rest =>
    newline depth ++ quote name ++ ':' :: ' ' :: layout depth value
      ++ ',' :: layoutMembers depth rest

end

/-- The text of a value over lines. -/
def pretty (j : Json) : String := String.ofList (j.layout 0)

/-! ## Access -/

/-- The value of a member of a record; of two with one name the later. -/
def member? (j : Json) (name : String) : Option Json :=
  match j with
  | .record members => (members.reverse.find? (·.1 == name)).map (·.2)
  | _ => none

/-- The values of a record, in order. -/
def values? : Json → Option (List Json)
  | .record members => some (members.map (·.2))
  | _ => none

end Json

end ControlPlane
