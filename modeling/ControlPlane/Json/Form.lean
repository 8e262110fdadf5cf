import ControlPlane.Json.Shape
import ControlPlane.SortedMap
import ControlPlane.Text.Utf8

/-!
# ControlPlane.Json.Form

Types with a JSON form.  A form has three parts: the value as JSON, the reader that accepts every
text of the shape and brings it to standard form, and the value that a standard form stands for.
-/

namespace ControlPlane.Json

/-- A type with a JSON form. -/
class Form (α : Type) where
  /-- The JSON of a value. -/
  toJson : α → Json
  /-- The value of a JSON in standard form. -/
  ofJson? : Json → Option α
  /-- Reads a text of the shape into standard form. -/
  reader : Reader Json
  /-- What is taken for a member of this type that is absent from a record. -/
  absent : Option Json := none

export Form (toJson ofJson?)

section Parsing

variable {α : Type} [Form α]

/-- Reads a value off the front of a text. -/
def Form.read : Reader α := do
  match ofJson? (← Form.reader α) with
  | some a => return a
  | none => throw .shape

/-- The value that characters are, with nothing but blanks around it. -/
def parseChars (cs : List Char) : Except Fault α := do
  let (a, rest) ← (Form.read (α := α)).run cs
  if rest.all Reader.isBlank then return a else throw .notJson

/-- The value that a text is. -/
def parse (s : String) : Except Fault α := parseChars s.toList

/-- The value that bytes are.  Only the strings that are read have to be UTF-8. -/
def parseBytes (b : Bytes) : Except Fault α := parseChars (Reader.characters b)

/-- The value at the front of bytes; what follows it is not looked at. -/
def parseFront (b : Bytes) : Except Fault α := do
  let (a, _) ← (Form.read (α := α)).run (Reader.characters b)
  return a

/-- The compact text of a value. -/
def write (a : α) : String := (toJson a).render

/-- The UTF-8 bytes of the compact text of a value. -/
def writeBytes (a : α) : Bytes := Utf8.encode (write a)

end Parsing

/-! ## Scalars -/

instance : Form Bool where
  toJson := .bool
  ofJson?
    | .bool b => some b
    | _ => none
  reader := Reader.bool

instance : Form String where
  toJson := .text
  ofJson?
    | .text s => some s
    | _ => none
  reader := Reader.text

/-- The integer of a JSON. -/
def int? : Json → Option Int
  | .int n => some n
  | _ => none

instance : Form Int32 where
  toJson n := .int n.toInt
  ofJson? j := j.int?.map Int32.ofInt
  reader := Reader.int (-2147483648) 2147483647

instance : Form Int64 where
  toJson n := .int n.toInt
  ofJson? j := j.int?.map Int64.ofInt
  reader := Reader.int (-9223372036854775808) 9223372036854775807

instance : Form UInt64 where
  toJson n := .int n.toNat
  ofJson? j := j.int?.map fun n => UInt64.ofNat n.toNat
  reader := Reader.int 0 18446744073709551615

instance : Form UInt16 where
  toJson n := .int n.toNat
  ofJson? j := j.int?.map fun n => UInt16.ofNat n.toNat
  reader := Reader.int 0 65535

instance : Form UInt8 where
  toJson n := .int n.toNat
  ofJson? j := j.int?.map fun n => UInt8.ofNat n.toNat
  reader := Reader.int 0 255

/-! ## Containers -/

instance {α : Type} [Form α] : Form (Option α) where
  toJson
    | none => .null
    | some a => toJson a
  ofJson?
    | .null => some none
    | j => (ofJson? j).map some
  reader := Reader.optional (Form.reader α)
  absent := some .null

instance {α : Type} [Form α] : Form (List α) where
  toJson l := .list (l.map toJson)
  ofJson?
    | .list items => items.mapM ofJson?
    | _ => none
  reader := Reader.list (Form.reader α)

/-- The entries of a record, their keys and values read. -/
def entries? {κ ν : Type} (key? : String → Option κ) [Form ν] : Json → Option (List (κ × ν))
  | .record members => members.mapM fun (k, v) => do return (← key? k, ← ofJson? v)
  | _ => none

instance {ν : Type} [Form ν] : Form (SortedMap String ν) where
  toJson m := .record (m.entries.map fun (k, v) => (k, toJson v))
  ofJson? j := (entries? some j).map SortedMap.ofList
  reader := Reader.textMap (Form.reader ν)

/-- The integer that a text in decimal digits is. -/
def keyInt? (s : String) : Option Int :=
  match s.toList with
  | '-' :: ds => some (-(Decimal.value ds : Int))
  | ds => some (Decimal.value ds : Int)

instance {ν : Type} [Form ν] : Form (SortedMap Int32 ν) where
  toJson m := .record (m.entries.map fun (k, v) => (Decimal.text k.toInt, toJson v))
  ofJson? j := (entries? (fun k => (keyInt? k).map Int32.ofInt) j).map SortedMap.ofList
  reader := Reader.intMap (-2147483648) 2147483647 (Form.reader ν)

instance {ν : Type} [Form ν] : Form (SortedMap UInt64 ν) where
  toJson m := .record (m.entries.map fun (k, v) => (Decimal.text k.toNat, toJson v))
  ofJson? j := (entries? (fun k => (keyInt? k).map fun n => UInt64.ofNat n.toNat) j).map
    SortedMap.ofList
  reader := Reader.intMap 0 18446744073709551615 (Form.reader ν)

/-! ## Members of records -/

/-- A member of this type. -/
def member (α : Type) [Form α] (name : String) : Reader.Member :=
  ⟨name, Form.reader α, Form.absent α, none⟩

/-- A member of this type that has a default. -/
def memberOr {α : Type} [Form α] (name : String) (default : α) : Reader.Member :=
  ⟨name, Form.reader α, some (toJson default), some (toJson default)⟩

/-- Gives the values their names, in the order of the members. -/
def named (members : List Reader.Member) (values : List Json) : Json :=
  .record ((members.map (·.name)).zip values)

end ControlPlane.Json
