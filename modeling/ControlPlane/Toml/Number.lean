import ControlPlane.Toml.Text
import ControlPlane.Toml.Value

/-!
# ControlPlane.Toml.Number

Numbers, dates and times in a TOML document.  A value that begins with a sign or a digit is a date
or a time if it can be, else a float, else an integer.
-/

namespace ControlPlane.Toml.Reader

/-! ## Numbers -/

/-- Digits with single underscores between them; the underscores are dropped.  At most `fuel`
digits. -/
def moreDigits (p : Char → Bool) : Nat → Reader (List Char)
  | 0 => return []
  | fuel + 1 => do
    match ← optional (one p <|> (word "_" *> one p)) with
    | some d => return d :: (← moreDigits p fuel)
    | none => return []

/-- One or more digits with single underscores between them. -/
def digitsWith (p : Char → Bool) : Reader (List Char) := do
  let d ← one p
  let cs ← get
  return d :: (← moreDigits p cs.length)

/-- An optional sign; `true` for a minus. -/
def sign : Reader Bool := do
  match ← optional (one fun c => c == '+' || c == '-') with
  | some c => return c == '-'
  | none => return false

/-- Decimal digits without leading zeros. -/
def decimal : Reader (List Char) := do
  if (← peek?) = some '0' then
    let c ← one fun _ => true
    return [c]
  else digitsWith Decimal.isDigit

/-- An integer of 64 bits. -/
def fitting (n : Int) : Reader Value :=
  if -9223372036854775808 ≤ n ∧ n ≤ 9223372036854775807 then return .int n else failure

/-- The number that digits spell in a base. -/
def valueIn (base : Nat) (ds : List Char) : Nat :=
  ds.foldl (fun n d => n * base + (Hexadecimal.digitValue? d).getD 0) 0

/-- An integer in another base than ten. -/
def based (mark : String) (base : Nat) : Reader Value := do
  word mark
  let ds ← digitsWith fun c => (Hexadecimal.digitValue? c).any (· < base)
  fitting (valueIn base ds)

/-- An integer. -/
def integer : Reader Value :=
  based "0x" 16 <|> based "0o" 8 <|> based "0b" 2 <|> do
    let negative ← sign
    let ds ← decimal
    let n : Int := Decimal.value ds
    fitting (if negative then -n else n)

/-- Whether a decimal is beyond all doubles: digits as a whole number, times a power of ten. -/
def isHuge (ds : List Char) (exponent : Int) : Bool :=
  let significant := ds.dropWhile (· == '0')
  if significant.isEmpty then false
  else
    let size := Int.ofNat significant.length + exponent
    if size > 310 then true
    else if size < 300 then false
    else
      -- the midpoint between the greatest double and the next power of two
      let bound := (Nat.pow 2 54 - 1) * Nat.pow 2 970
      let n := Decimal.value significant
      if 0 ≤ exponent then bound ≤ n * Nat.pow 10 exponent.toNat
      else bound * Nat.pow 10 exponent.natAbs ≤ n

/-- An exponent part. -/
def exponent : Reader (Int × List Char) := do
  let mark ← one fun c => c == 'e' || c == 'E'
  let plus ← optional (one fun c => c == '+' || c == '-')
  let ds ← digitsWith Decimal.isDigit
  let n : Int := Decimal.value ds
  return (if plus = some '-' then -n else n, mark :: plus.toList ++ ds)

/-- A fraction. -/
def fraction : Reader (List Char) := do
  word "."
  digitsWith Decimal.isDigit

/-- A float; one that is too great does not exist. -/
def real : Reader Value := do
  let negative ← sign
  let shown (cs : List Char) : Value := .real (String.ofList (if negative then '-' :: cs else cs))
  match ← optional ((word "inf" *> pure "inf") <|> (word "nan" *> pure "nan")) with
  | some name => return shown name.toList
  | none =>
    let whole ← decimal
    match ← optional exponent with
    | some (e, written) =>
      if ¬ negative ∧ isHuge whole e then failure
      return shown (whole ++ written)
    | none =>
      let part ← fraction
      let (e, written) := (← optional exponent).getD (0, [])
      if ¬ negative ∧ isHuge (whole ++ part) (e - Int.ofNat part.length) then failure
      return shown (whole ++ '.' :: part ++ written)

/-! ## Dates and times -/

/-- A number of exactly so many digits. -/
def fixedDigits (n : Nat) : Reader Nat := do
  let cs ← get
  let ds := cs.take n
  if ds.length = n ∧ ds.all Decimal.isDigit then
    set (cs.drop n)
    return Decimal.value ds
  else failure

/-- A number of two digits within bounds. -/
def twoDigits (least greatest : Nat) : Reader Nat := do
  let n ← fixedDigits 2
  if least ≤ n ∧ n ≤ greatest then return n else failure

/-- The number of days of a month. -/
def daysOf (year month : Nat) : Nat :=
  if month = 2 then
    if year % 4 = 0 ∧ (year % 100 ≠ 0 ∨ year % 400 = 0) then 29 else 28
  else if month = 4 ∨ month = 6 ∨ month = 9 ∨ month = 11 then 30
  else 31

/-- A date. -/
def date : Reader Unit := do
  let year ← fixedDigits 4
  word "-"
  let month ← twoDigits 1 12
  word "-"
  let day ← twoDigits 1 31
  if daysOf year month < day then failure

/-- A time of the day. -/
def timeOfDay : Reader Unit := do
  let _ ← twoDigits 0 23
  word ":"
  let _ ← twoDigits 0 59
  word ":"
  let _ ← twoDigits 0 60
  let _ ← optional (word "." *> some' Decimal.isDigit)

/-- A distance from universal time. -/
def offset : Reader Unit := do
  match ← one fun c => c == 'Z' || c == 'z' || c == '+' || c == '-' with
  | '+' | '-' => do
    let _ ← twoDigits 0 23
    word ":"
    let _ ← twoDigits 0 59
  | _ => return

/-- A date, a time, or both. -/
def time : Reader Value := do
  let start ← get
  (do date
      let _ ← optional (do
        let _ ← one fun c => c == 'T' || c == 't' || c == ' '
        timeOfDay
        optional offset)) <|> timeOfDay
  let left ← get
  return .time (String.ofList (start.take (start.length - left.length)))

/-- A number, a date or a time. -/
def number : Reader Value := time <|> real <|> integer

end ControlPlane.Toml.Reader
