import ControlPlane.Number.Decimal

/-!
# ControlPlane.Number.Integer

Integers as people write them: decimal digits, which may have zeros in front, behind a sign or not.
A reader is told the range, and says what is wrong with a text that is no integer in it.
-/

namespace ControlPlane.Integer

/-- Why a text is no integer of a range. -/
inductive Fault
  | empty
  | invalidDigit
  | tooLarge
  | tooSmall
  deriving DecidableEq, Repr

/-- The text for a fault. -/
def Fault.message : Fault → String
  | .empty => "cannot parse integer from empty string"
  | .invalidDigit => "invalid digit found in string"
  | .tooLarge => "number too large to fit in target type"
  | .tooSmall => "number too small to fit in target type"

/-- Reads digits upward from a number that was read already.  The first fault counts: a number that
leaves the range, or a character that is no digit. -/
def readUp (high : Int) (n : Int) : List Char → Except Fault Int
  | [] => .ok n
  | c :: rest =>
    if !Decimal.isDigit c then .error .invalidDigit
    else
      let n := n * 10 + Decimal.digitValue c
      if high < n then .error .tooLarge else readUp high n rest

/-- Reads digits downward, for what follows a minus sign. -/
def readDown (low : Int) (n : Int) : List Char → Except Fault Int
  | [] => .ok n
  | c :: rest =>
    if !Decimal.isDigit c then .error .invalidDigit
    else
      let n := n * 10 - Decimal.digitValue c
      if n < low then .error .tooSmall else readDown low n rest

/-- Reads an integer of a range.  A sign alone is no integer. -/
def read (low high : Int) : List Char → Except Fault Int
  | [] => .error .empty
  | ['+'] | ['-'] => .error .invalidDigit
  | '+' :: ds => readUp high 0 ds
  | '-' :: ds => readDown low 0 ds
  | ds => readUp high 0 ds

/-- Reads an integer of 32 bits. -/
def readInt32 (cs : List Char) : Except Fault Int32 :=
  (read Int32.minValue.toInt Int32.maxValue.toInt cs).map Int32.ofInt

/-- Reads an integer of 64 bits. -/
def readInt64 (cs : List Char) : Except Fault Int64 :=
  (read Int64.minValue.toInt Int64.maxValue.toInt cs).map Int64.ofInt

/-- Whether a text is an integer of 32 bits. -/
def isInt32 (s : String) : Bool := (readInt32 s.toList).isOk

/-- Whether a text is an integer of 64 bits. -/
def isInt64 (s : String) : Bool := (readInt64 s.toList).isOk

end ControlPlane.Integer
