/-!
# ControlPlane.Toml.Value

TOML values, and the tables of a document while its lines are read.  A table knows how it came into
being, since that decides what may still be added to it: a table with a header of its own may not
get a second one, one that dotted keys have made may not get a header, and one that headers merely
passed through may get one later.
-/

namespace ControlPlane.Toml

/-- A TOML value. -/
inductive Value
  | text (s : String)
  | int (n : Int)
  /-- A number with a fraction or an exponent, as it is written. -/
  | real (written : String)
  | bool (b : Bool)
  /-- A date, a time or both, as it is written. -/
  | time (written : String)
  | array (items : List Value)
  /-- A table; one in braces stands on one line. -/
  | table (inBraces : Bool) (entries : List (String × Value))
  deriving Inhabited, Repr

/-- How a table came into being. -/
inductive Origin
  /-- By a header of its own. -/
  | header
  /-- As part of the path of a header. -/
  | passedThrough
  /-- By dotted keys. -/
  | dotted
  deriving DecidableEq, Repr

/-- What stands at a key of a table under construction. -/
inductive Item
  | value (v : Value)
  | table (origin : Origin) (entries : List (String × Item))
  /-- Tables that follow each other under one header. -/
  | tables (all : List (List (String × Item)))
  deriving Inhabited, Repr

/-- The entries of a table under construction. -/
abbrev Entries := List (String × Item)

namespace Entries

/-- What stands at a key. -/
def find (entries : Entries) (key : String) : Option Item := List.lookup key entries

/-- Puts an item at a key, in place of the one that stood there, or at the end. -/
def put (entries : Entries) (key : String) (item : Item) : Entries :=
  if (entries.find key).isSome then entries.map fun e => if e.1 == key then (key, item) else e
  else entries ++ [(key, item)]

/-- Changes the table at a path.  Tables that are missing on the way are made.  Dotted keys may not
reach into a table that has a header.  Where tables follow each other, the path leads to the last
one. -/
def within (dotted : Bool) (change : Origin → Entries → Option Entries) :
    List String → Origin → Entries → Option Entries
  | [], origin, entries => change origin entries
  | key :: rest, _, entries =>
    match entries.find key with
    | none => do
      let made := if dotted then .dotted else .passedThrough
      return entries.put key (.table made (← within dotted change rest made []))
    | some (.value _) => none
    | some (.table origin inner) =>
      if dotted ∧ origin = .header then none
      else do return entries.put key (.table origin (← within dotted change rest origin inner))
    | some (.tables all) =>
      match all.getLast? with
      | none => none
      | some last => do
        let last ← within dotted change rest .header last
        return entries.put key (.tables (all.dropLast ++ [last]))

/-- Sets a key, which must be new.  Behind dots it must be in a table that dotted keys have made. -/
def set (path : List String) (key : String) (v : Value) (entries : Entries) : Option Entries :=
  within true (fun origin entries =>
    if ¬ path.isEmpty ∧ origin ≠ .dotted then none
    else if (entries.find key).isSome then none
    else some (entries.put key (.value v))) path .header entries

/-- Opens the table of a header, which must have none yet. -/
def openTable (path : List String) (key : String) (entries : Entries) : Option Entries :=
  within false (fun _ entries =>
    match entries.find key with
    | none => some (entries.put key (.table .header []))
    | some (.table .passedThrough inner) => some (entries.put key (.table .header inner))
    | some _ => none) path .header entries

/-- Opens one more table under a header in double brackets. -/
def openNext (path : List String) (key : String) (entries : Entries) : Option Entries :=
  within false (fun _ entries =>
    match entries.find key with
    | none => some (entries.put key (.tables [[]]))
    | some (.tables all) => some (entries.put key (.tables (all ++ [[]])))
    | some _ => none) path .header entries

/-- Sets a key in the table at a path. -/
def setAt (table : List String) (path : List String) (key : String) (v : Value)
    (entries : Entries) : Option Entries :=
  within false (fun _ entries => entries.set path key v) table .header entries

end Entries

mutual

/-- The value of a finished item. -/
def Item.toValue (inBraces : Bool) : Item → Value
  | .value v => v
  | .table _ entries => .table inBraces (Item.entryValues inBraces entries)
  | .tables all => .array (Item.tableValues inBraces all)

/-- The values of finished entries. -/
def Item.entryValues (inBraces : Bool) : List (String × Item) → List (String × Value)
  | [] => []
  | (key, item) :: rest => (key, item.toValue inBraces) :: Item.entryValues inBraces rest

/-- The values of finished tables. -/
def Item.tableValues (inBraces : Bool) : List (List (String × Item)) → List Value
  | [] => []
  | entries :: rest =>
    .table inBraces (Item.entryValues inBraces entries) :: Item.tableValues inBraces rest

end

/-- The value of a finished table. -/
def Entries.toValue (inBraces : Bool) (entries : Entries) : Value :=
  .table inBraces (Item.entryValues inBraces entries)

end ControlPlane.Toml
