/-!
# ControlPlane.Url.Punycode

Labels of host names that are not ASCII, written in ASCII: first the characters that are, then
numbers that say where the others go.  Each number is written with digits whose weights depend on
the numbers before it.
-/

namespace ControlPlane.Url.Punycode

/-- The digit of a number below 36. -/
def digit (n : Nat) : Char := if n < 26 then Char.ofNat (97 + n) else Char.ofNat (22 + n)

/-- The threshold of a digit: how much it stands for on its own. -/
def threshold (position bias : Nat) : Nat := min 26 (max 1 (36 * (position + 1) - bias))

/-- The digits of a number, least first. -/
def number (bias position n : Nat) : List Char :=
  let t := threshold position bias
  if _h : n < t then [digit n]
  else digit (t + (n - t) % (36 - t)) :: number bias (position + 1) ((n - t) / (36 - t))
termination_by n
decreasing_by
  have hl : 1 ≤ threshold position bias := by unfold threshold; omega
  have hu : threshold position bias ≤ 26 := by unfold threshold; omega
  have : (n - threshold position bias) / (36 - threshold position bias)
      ≤ n - threshold position bias := Nat.div_le_self _ _
  omega

/-- Divides by 35 until the number is at most 455, and counts how often. -/
def shrink (n : Nat) : Nat × Nat :=
  if 455 < n then
    let (times, rest) := shrink (n / 35)
    (times + 1, rest)
  else (0, n)
termination_by n
decreasing_by omega

/-- The bias behind a number. -/
def adapt (first : Bool) (n count : Nat) : Nat :=
  let n := if first then n / 700 else n / 2
  let (times, rest) := shrink (n + n / count)
  36 * times + 36 * rest / (rest + 38)

/-- What is carried from one number to the next. -/
structure Progress where
  /-- The characters below it have been placed. -/
  reached : Nat
  delta : Nat := 0
  bias : Nat := 72
  placed : Nat
  output : List Char

/-- Passes over one character when all below `code` are placed: writes a number if it is the
character, and counts it if it stands in front of one that is to come. -/
def pass (basic code : Nat) (p : Progress) (c : Char) : Progress :=
  if c.toNat < code then { p with delta := p.delta + 1 }
  else if c.toNat = code then
    { p with
      output := p.output ++ number p.bias 0 p.delta
      bias := adapt (p.placed == basic) p.delta (p.placed + 1)
      delta := 0
      placed := p.placed + 1 }
  else p

/-- Places all occurrences of one character. -/
def place (label : List Char) (basic : Nat) (p : Progress) (code : Nat) : Progress :=
  let p := { p with delta := p.delta + (code - p.reached) * (p.placed + 1), reached := code }
  let p := label.foldl (pass basic code) p
  { p with delta := p.delta + 1, reached := code + 1 }

/-- A label in ASCII. -/
def encode (label : List Char) : List Char :=
  let basic := label.filter fun c => c.toNat < 128
  let codes := (label.filterMap fun c => if c.toNat < 128 then none else some c.toNat)
  let start := if basic.isEmpty then [] else basic ++ ['-']
  let p := (codes.mergeSort (· ≤ ·)).eraseDups.foldl (place label basic.length)
    { reached := 128, placed := basic.length, output := start }
  p.output

end ControlPlane.Url.Punycode
