import ControlPlane.Number.Decimal
import ControlPlane.Number.Hexadecimal

/-!
# ControlPlane.Url.Address

Numeric addresses in URLs.  An IPv4 address is one to four numbers, the last of which fills what the
others leave; an IPv6 address is eight pieces, of which a run of zeros may be left out.
-/

namespace ControlPlane.Url

/-- The parts of a text between the places where a separator stands. -/
def splitAt (separator : Char) : List Char → List (List Char)
  | [] => [[]]
  | c :: rest =>
    match splitAt separator rest with
    | [] => [[c]]
    | part :: parts => if c = separator then [] :: part :: parts else (c :: part) :: parts

namespace Ipv4

/-- The number that a part spells: in hexadecimal digits behind `0x`, in octal ones behind a zero,
else in decimal ones. -/
def part? (cs : List Char) : Option Nat :=
  match cs with
  | [] => none
  | '0' :: 'x' :: ds | '0' :: 'X' :: ds => Hexadecimal.value? ds
  | '0' :: d :: ds =>
    if (d :: ds).all fun c => '0' ≤ c && c ≤ '7' then
      some ((d :: ds).foldl (fun n c => n * 8 + Decimal.digitValue c) 0)
    else none
  | _ => if cs.all Decimal.isDigit then some (Decimal.value cs) else none

/-- The parts of a name, without the empty one behind a final dot. -/
def parts (name : List Char) : List (List Char) :=
  let all := splitAt '.' name
  if all.getLast? = some [] then all.dropLast else all

/-- Whether a name has to be an address because its last part is a number. -/
def isNumeric (name : List Char) : Bool :=
  match (parts name).getLast? with
  | none => false
  | some last => (!last.isEmpty && last.all Decimal.isDigit) || (part? last).isSome

/-- The address that a name spells. -/
def parse? (name : List Char) : Option Nat := do
  let numbers ← (parts name).mapM part?
  let last ← numbers.getLast?
  let front := numbers.dropLast
  if 3 < front.length ∨ front.any (255 < ·) ∨ Nat.pow 256 (4 - front.length) ≤ last then none
  else return front.foldl (· * 256 + ·) 0 * Nat.pow 256 (4 - front.length) + last

/-- An address is shown as four decimal numbers. -/
def text (address : Nat) : List Char :=
  let byte (i : Nat) := Decimal.digits (address / Nat.pow 256 i % 256)
  byte 3 ++ '.' :: byte 2 ++ '.' :: byte 1 ++ '.' :: byte 0

/-- One of the four numbers of an address at the end of an IPv6 address: decimal digits below 256,
without zeros in front. -/
def strictPart? (cs : List Char) : Option Nat :=
  if cs.isEmpty ∨ !cs.all Decimal.isDigit ∨ (cs.head? = some '0' ∧ cs.length ≠ 1)
    ∨ 255 < Decimal.value cs then none
  else some (Decimal.value cs)

/-- The address that four strict numbers spell. -/
def parseStrict? (cs : List Char) : Option Nat := do
  let [a, b, c, d] ← (splitAt '.' cs).mapM strictPart? | none
  return ((a * 256 + b) * 256 + c) * 256 + d

end Ipv4

namespace Ipv6

/-- The number of pieces of an address. -/
def size : Nat := 8

/-- The piece that up to four hexadecimal digits spell. -/
def piece? (cs : List Char) : Option Nat :=
  if cs.isEmpty ∨ 4 < cs.length then none else Hexadecimal.value? cs

/-- The pieces in a text with colons between them.  At the end of an address the last two may be
written as an IPv4 address. -/
def pieces? (atEnd : Bool) (cs : List Char) : Option (List Nat) :=
  if cs.isEmpty then some []
  else
    let parts := splitAt ':' cs
    let last := parts.getLast?.getD []
    if atEnd ∧ '.' ∈ last then do
      let front ← parts.dropLast.mapM piece?
      let address ← Ipv4.parseStrict? last
      return front ++ [address / 65536, address % 65536]
    else parts.mapM piece?

/-- A text cut at the first double colon. -/
def cutAtGap : List Char → Option (List Char × List Char)
  | ':' :: ':' :: rest => some ([], rest)
  | c :: rest => (cutAtGap rest).map fun (before, after) => (c :: before, after)
  | [] => none

/-- The address that a text spells.  A double colon stands for the pieces that are missing. -/
def parse? (cs : List Char) : Option (List Nat) :=
  match cutAtGap cs with
  | some (before, after) => do
    let front ← pieces? false before
    let back ← pieces? true after
    let given := front.length + back.length
    if size ≤ given then none else return front ++ List.replicate (size - given) 0 ++ back
  | none => do
    let all ← pieces? true cs
    if all.length = size then some all else none

/-- Where the first longest run of zeros starts, and how long it is. -/
def longestGap (pieces : List Nat) : Nat × Nat :=
  (List.range pieces.length).foldl (fun best start =>
    let length := ((pieces.drop start).takeWhile (· == 0)).length
    if best.2 < length then (start, length) else best) (0, 0)

/-- Pieces with colons between them. -/
def join (pieces : List Nat) : List Char :=
  List.intercalate [':'] (pieces.map Hexadecimal.digits)

/-- An address is shown without its longest run of zeros, if that is two or more. -/
def text (pieces : List Nat) : List Char :=
  let (start, length) := longestGap pieces
  if length < 2 then join pieces
  else join (pieces.take start) ++ ':' :: ':' :: join (pieces.drop (start + length))

end Ipv6

end ControlPlane.Url
