import ControlPlane.Number.Decimal

/-!
# ControlPlane.Number.Shortest

The fewest decimal digits that read back as a given binary floating-point number.  A finite double
is a whole number `m` times a power of two, and every real in an interval around it rounds to it.
For one, two, … digits, the two neighbours of the number on that decimal grid are tested; the first
grid with a hit decides, and of two hits the nearer counts.
-/

namespace ControlPlane.Shortest

/-- A finite positive double as a whole number times a power of two, with the width of the gap below
it: half as wide when the number is a power of two. -/
structure Binary where
  /-- The significand. -/
  m : Nat
  /-- The exponent of two. -/
  q : Int
  /-- Whether the gap to the next smaller double is only half of that to the next greater one. -/
  narrowBelow : Bool

/-- The parts of a finite positive double, from its bits. -/
def Binary.ofBits (bits : UInt64) : Binary :=
  let raw := bits.toNat
  let fraction := raw % 4503599627370496
  let exponent := raw / 4503599627370496 % 2048
  if exponent = 0 then ⟨fraction, -1074, false⟩
  else ⟨fraction + 4503599627370496, Int.ofNat exponent - 1075, fraction == 0 && exponent != 1⟩

/-- A decimal: digits as a whole number, times a power of ten. -/
structure Digits where
  coefficient : Nat
  exponent : Int
  deriving DecidableEq, Repr

/-- A ratio of whole numbers. -/
structure Ratio where
  num : Nat
  den : Nat

/-- A whole number times powers of two and ten, as a ratio. -/
def Ratio.scaled (n : Nat) (two ten : Int) : Ratio where
  num := n * Nat.pow 2 two.toNat * Nat.pow 10 ten.toNat
  den := Nat.pow 2 (-two).toNat * Nat.pow 10 (-ten).toNat

/-- Comparison of ratios. -/
def Ratio.compare (a b : Ratio) : Ordering := Ord.compare (a.num * b.den) (b.num * a.den)

/-- Whether a decimal rounds to the double: it lies between the midpoints to the two neighbours, or
on one of them if the significand is even. -/
def Binary.readsBack (x : Binary) (d : Digits) : Bool :=
  let v := Ratio.scaled d.coefficient 0 d.exponent
  let low := if x.narrowBelow then Ratio.scaled (4 * x.m - 1) (x.q - 2) 0
    else Ratio.scaled (2 * x.m - 1) (x.q - 1) 0
  let high := Ratio.scaled (2 * x.m + 1) (x.q - 1) 0
  let even := x.m % 2 == 0
  match v.compare low, v.compare high with
  | .gt, .lt => true
  | .eq, .lt => even
  | .gt, .eq => even
  | _, _ => false

/-- The greatest multiple of a power of ten that is not above the double. -/
def Binary.floorAt (x : Binary) (exponent : Int) : Nat :=
  let r := Ratio.scaled x.m x.q (-exponent)
  r.num / r.den

/-- The decimal exponent of the leading digit of the double: the greatest power of ten not above
it, searched downward. -/
def Binary.leading (x : Binary) : Nat → Int → Int
  | 0, e => e
  | fuel + 1, e => if x.floorAt e = 0 then x.leading fuel (e - 1) else e

/-- The better of the two neighbours on one decimal grid, if one reads back.  Of two that do, the
nearer counts; a tie goes to the even coefficient. -/
def Binary.onGrid (x : Binary) (exponent : Int) : Option Digits :=
  let below : Digits := ⟨x.floorAt exponent, exponent⟩
  let above : Digits := ⟨x.floorAt exponent + 1, exponent⟩
  match x.readsBack below, x.readsBack above with
  | true, false => some below
  | false, true => some above
  | false, false => none
  | true, true =>
    let twice := Ratio.scaled (2 * x.m) x.q (-exponent)
    let middle : Ratio := ⟨2 * below.coefficient + 1, 1⟩
    match twice.compare middle with
    | .lt => some below
    | .gt => some above
    | .eq => some (if below.coefficient % 2 = 0 then below else above)

/-- The decimal on the coarsest grid that has one which reads back. -/
def Binary.search (x : Binary) : Nat → Int → Digits
  | 0, e => ⟨x.floorAt e, e⟩
  | fuel + 1, e => (x.onGrid e).getD (x.search fuel (e - 1))

/-- The shortest decimal of a finite positive double.  Seventeen digits always suffice. -/
def Binary.shortest (x : Binary) : Digits := x.search 17 (x.leading 700 309)

/-- The digits of a decimal without trailing zeros, and the decimal exponent of the first. -/
def Digits.normal (d : Digits) : List Char × Int :=
  let ds := Decimal.digits d.coefficient
  let kept := (ds.reverse.dropWhile (· == '0')).reverse
  (if kept.isEmpty then ['0'] else kept, d.exponent + Int.ofNat ds.length - 1)

end ControlPlane.Shortest
