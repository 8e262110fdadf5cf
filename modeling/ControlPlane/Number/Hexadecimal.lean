/-!
# ControlPlane.Number.Hexadecimal

Hexadecimal digits, which spell code points and bytes in escapes.
-/

namespace ControlPlane.Hexadecimal

/-- The digit of a number below 16, in lower case. -/
def digitChar (n : Nat) : Char := if n < 10 then Char.ofNat (48 + n) else Char.ofNat (87 + n)

/-- The digit of a number below 16, in upper case. -/
def upperDigitChar (n : Nat) : Char := if n < 10 then Char.ofNat (48 + n) else Char.ofNat (55 + n)

/-- The number that a digit of either case stands for. -/
def digitValue? (c : Char) : Option Nat :=
  if '0' ≤ c ∧ c ≤ '9' then some (c.toNat - 48)
  else if 'a' ≤ c ∧ c ≤ 'f' then some (c.toNat - 87)
  else if 'A' ≤ c ∧ c ≤ 'F' then some (c.toNat - 55)
  else none

/-- The digits of a number, without leading zeros. -/
def digits (n : Nat) : List Char :=
  if _h : n < 16 then [digitChar n] else digits (n / 16) ++ [digitChar (n % 16)]
termination_by n
decreasing_by omega

/-- The number that digits spell, if they are all digits. -/
def value? (ds : List Char) : Option Nat :=
  ds.foldlM (fun n c => (digitValue? c).map (n * 16 + ·)) 0

/-- Bytes as pairs of digits. -/
def ofBytes (b : List UInt8) : String :=
  String.ofList (b.flatMap fun x => [digitChar (x.toNat / 16), digitChar (x.toNat % 16)])

/-- The bytes that pairs of digits spell. -/
def toBytes? : List Char → Option (List UInt8)
  | [] => some []
  | [_] => none
  | a :: b :: rest => do
    let high ← digitValue? a
    let low ← digitValue? b
    return UInt8.ofNat (high * 16 + low) :: (← toBytes? rest)

theorem digitValue?_digitChar {n : Nat} (h : n < 16) : digitValue? (digitChar n) = some n := by
  have : ∀ n < 16, digitValue? (digitChar n) = some n := by decide
  exact this n h

theorem digitValue?_upperDigitChar {n : Nat} (h : n < 16) :
    digitValue? (upperDigitChar n) = some n := by
  have : ∀ n < 16, digitValue? (upperDigitChar n) = some n := by decide
  exact this n h

end ControlPlane.Hexadecimal
