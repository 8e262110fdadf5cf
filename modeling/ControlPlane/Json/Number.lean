import ControlPlane.Json.Reader

/-!
# ControlPlane.Json.Number

Numbers in a JSON text.  A number is an integer if it has neither fraction nor exponent and fits 64
bits, signed when it has a minus sign; `-0` is not an integer.  Every other number is a double: the
first digits, as many as fit 64 bits, are scaled by one power of ten.
-/

namespace ControlPlane.Json

/-- A number as it is read. -/
inductive Numeral
  | int (n : Int)
  | real (x : Float)

namespace Numeral

/-- Continues a significand with digits for as long as it fits 64 bits; returns it with the number
of digits used. -/
def significand (start : Nat) : List Char → Nat × Nat
  | [] => (start, 0)
  | d :: rest =>
    let next := start * 10 + Decimal.digitValue d
    if next ≤ 18446744073709551615 then
      let (s, used) := significand next rest
      (s, used + 1)
    else (start, 0)

/-- A power of ten as a double. -/
def powerOfTen (n : Nat) : Float := Float.ofScientific 1 false n

/-- A double times a power of ten.  Powers below the range of doubles are taken in two or more
steps; a product beyond it does not exist. -/
def scale (x : Float) (exponent : Int) : Option Float :=
  if 0 ≤ exponent then
    if exponent ≤ 308 then
      let y := x * powerOfTen exponent.toNat
      if y.isInf then none else some y
    else if x == 0 then some x
    else none
  else if -308 ≤ exponent then some (x / powerOfTen exponent.natAbs)
  else if x == 0 then some x
  else scale (x / powerOfTen 308) (exponent + 308)
termination_by exponent.natAbs
decreasing_by omega

/-- A significand times a power of ten, with its sign. -/
def ofParts (negative : Bool) (s : Nat) (exponent : Int) : Option Float := do
  let x ← scale (UInt64.ofNat s).toFloat exponent
  return if negative then -x else x

/-- The double with this exponent part, given as a sign and digits.  Exponents beyond 32 bits leave
only zeros. -/
def withExponent (negative : Bool) (s : Nat) (start : Int) (negativeExponent : Bool)
    (ds : List Char) : Option Float :=
  let e := Decimal.value ds
  if 2147483647 < e then
    if s ≠ 0 ∧ ¬ negativeExponent then none else some (if negative then -0.0 else 0.0)
  else ofParts negative s (if negativeExponent then start - e else start + e)

/-- An integer that fits 64 bits, with its sign. -/
def ofInteger (negative : Bool) (s : Nat) : Numeral :=
  if ¬ negative then .int s
  else if s = 0 then .real (-0.0)
  else if s ≤ 9223372036854775808 then .int (-s)
  else .real (-(UInt64.ofNat s).toFloat)

/-- The digits in front, and what follows them. -/
def splitDigits (cs : List Char) : List Char × List Char :=
  (cs.takeWhile Decimal.isDigit, cs.dropWhile Decimal.isDigit)

/-- What follows the fraction: an exponent part, or the end of the number. -/
def readExponent (negative : Bool) (s : Nat) (start : Int) (cs : List Char) :
    Option (Float × List Char) :=
  let exponent (negativeExponent : Bool) (rest : List Char) : Option (Float × List Char) :=
    let (ds, rest) := splitDigits rest
    if ds.isEmpty then none
    else (withExponent negative s start negativeExponent ds).map (·, rest)
  match cs with
  | c :: rest =>
    if c = 'e' ∨ c = 'E' then
      match rest with
      | '+' :: rest => exponent false rest
      | '-' :: rest => exponent true rest
      | rest => exponent false rest
    else (ofParts negative s start).map (·, cs)
  | [] => (ofParts negative s start).map (·, [])

/-- A number behind its sign. -/
def readMagnitude (negative : Bool) (cs : List Char) : Option (Numeral × List Char) :=
  let (ds, rest) := splitDigits cs
  if ds.isEmpty ∨ (ds.head? = some '0' ∧ ds.length ≠ 1) then none
  else
    let (s, used) := significand 0 ds
    let dropped := ds.length - used
    match rest with
    | '.' :: rest =>
      let (fraction, rest) := splitDigits rest
      if fraction.isEmpty then none
      else
        let (s, used) := significand s fraction
        (readExponent negative s (Int.ofNat dropped - Int.ofNat used) rest).map
          fun (x, rest) => (.real x, rest)
    | c :: _ =>
      if c = 'e' ∨ c = 'E' ∨ dropped ≠ 0 then
        (readExponent negative s dropped rest).map fun (x, rest) => (.real x, rest)
      else some (ofInteger negative s, rest)
    | [] =>
      if dropped ≠ 0 then (ofParts negative s dropped).map fun x => (.real x, [])
      else some (ofInteger negative s, [])

end Numeral

/-- A number. -/
def Reader.number : Reader Numeral := fun cs =>
  let read :=
    match cs with
    | '-' :: rest => Numeral.readMagnitude true rest
    | cs => Numeral.readMagnitude false cs
  match read with
  | some r => .ok r
  | none => .error .notJson

end ControlPlane.Json
