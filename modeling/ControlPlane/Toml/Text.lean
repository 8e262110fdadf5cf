import ControlPlane.Number.Decimal
import ControlPlane.Number.Hexadecimal

/-!
# ControlPlane.Toml.Text

Strings in a TOML document: between quotes with escapes, between apostrophes as they are, and either
way over several lines between three of them.  Documents that this library writes hold only strings
between quotes.

A reader takes characters from the front; it fails without saying why.
-/

namespace ControlPlane.Toml

/-- A reader takes characters from the front and returns its result with the characters left. -/
abbrev Reader (α : Type) : Type := StateT (List Char) Option α

namespace Reader

/-! ## Characters -/

/-- The next character, which stays. -/
def peek? : Reader (Option Char) := do return (← get).head?

/-- Takes one character that passes a test. -/
def one (p : Char → Bool) : Reader Char := fun cs =>
  match cs with
  | c :: rest => if p c then some (c, rest) else none
  | [] => none

/-- Takes these characters. -/
def word (w : String) : Reader Unit := fun cs =>
  if w.toList.isPrefixOf cs then some ((), cs.drop w.length) else none

/-- Takes characters for as long as they pass a test. -/
def while' (p : Char → Bool) : Reader (List Char) := fun cs =>
  some (cs.takeWhile p, cs.dropWhile p)

/-- Takes one or more characters that pass a test. -/
def some' (p : Char → Bool) : Reader (List Char) := do
  let found ← while' p
  if found.isEmpty then failure else return found

/-- Tries a reader; if it fails nothing is taken. -/
def optional {α : Type} (r : Reader α) : Reader (Option α) := fun cs =>
  match r cs with
  | some (a, rest) => some (some a, rest)
  | none => some (none, cs)

/-- Whether a character is a blank within a line. -/
def isBlank (c : Char) : Bool := c == ' ' || c == '\t'

/-- Takes the blanks in front. -/
def skipBlank : Reader Unit := do let _ ← while' isBlank

/-- Takes the end of a line. -/
def newline : Reader Unit := word "\n" <|> word "\r\n"

/-- Whether a character may stand in a comment: tabs, and all that is printable or not ASCII. -/
def isText (c : Char) : Bool := c == '\t' || (32 ≤ c.toNat && c.toNat ≠ 127)

/-! ## Strings -/

/-- Whether a character may stand between quotes as it is. -/
def isPlain (c : Char) : Bool := isText c && c ≠ '"' && c ≠ '\\'

/-- Whether a character may stand between apostrophes. -/
def isLiteral (c : Char) : Bool := isText c && c ≠ '\''

/-- A code point in so many hexadecimal digits. -/
def codePoint (digits : Nat) : Reader Char := do
  let cs ← get
  let ds := cs.take digits
  if ds.length ≠ digits then failure
  match Hexadecimal.value? ds with
  | some n =>
    if n.isValidChar then
      set (cs.drop digits)
      return Char.ofNat n
    else failure
  | none => failure

/-- What stands behind a backslash. -/
def escape : Reader Char := do
  match ← one fun _ => true with
  | 'b' => return '\x08'
  | 't' => return '\t'
  | 'n' => return '\n'
  | 'f' => return '\x0c'
  | 'r' => return '\r'
  | '"' => return '"'
  | '\\' => return '\\'
  | 'u' => codePoint 4
  | 'U' => codePoint 8
  | _ => failure

/-- The rest of a string between quotes, at most `fuel` characters. -/
def basicBody : Nat → Reader (List Char)
  | 0 => failure
  | fuel + 1 => do
    match ← one fun _ => true with
    | '"' => return []
    | '\\' => do
      let c ← escape
      return c :: (← basicBody fuel)
    | c => if isPlain c then do return c :: (← basicBody fuel) else failure

/-- A string between quotes. -/
def basic : Reader String := do
  word "\""
  let cs ← get
  return String.ofList (← basicBody (cs.length + 1))

/-- A string between apostrophes. -/
def literal : Reader String := do
  word "'"
  let body ← while' isLiteral
  word "'"
  return String.ofList body

/-- Takes the end of a string over several lines: three of the marks, behind up to two that belong
to the string. -/
def closing (mark : Char) : Reader (List Char) := fun cs =>
  let marks := (cs.takeWhile (· == mark)).length
  if 3 ≤ marks then
    let extra := min (marks - 3) 2
    some (List.replicate extra mark, cs.drop (extra + 3))
  else none

/-- Takes a line break that a backslash has joined, with all blanks and breaks behind it. -/
def joinedLines : Reader Unit := do
  skipBlank
  newline
  let cs ← get
  let rec skip : Nat → List Char → List Char
    | 0, cs => cs
    | _ + 1, [] => []
    | n + 1, '\r' :: '\n' :: rest => skip n rest
    | n + 1, c :: rest => if isBlank c || c == '\n' then skip n rest else c :: rest
  set (skip cs.length cs)

/-- The rest of a string over several lines, at most `fuel` characters.  Every line break counts as
one line feed. -/
def linesBody (mark : Char) (escapes : Bool) : Nat → Reader (List Char)
  | 0 => failure
  | fuel + 1 => do
    match ← optional (closing mark) with
    | some extra => return extra
    | none =>
      match ← optional newline with
      | some () => return '\n' :: (← linesBody mark escapes fuel)
      | none =>
        let c ← one isText
        if escapes && c == '\\' then
          match ← optional joinedLines with
          | some () => linesBody mark escapes fuel
          | none =>
            let e ← escape
            return e :: (← linesBody mark escapes fuel)
        else return c :: (← linesBody mark escapes fuel)

/-- A string over several lines, with or without escapes.  A line break right behind the opening
marks does not count. -/
def lines (mark : Char) (escapes : Bool) : Reader String := do
  word (String.ofList [mark, mark, mark])
  let _ ← optional newline
  let cs ← get
  return String.ofList (← linesBody mark escapes (cs.length + 1))

/-- A string of any sort. -/
def string : Reader String :=
  lines '"' true <|> basic <|> lines '\'' false <|> literal

end Reader

/-! ## Writing -/

/-- A character between quotes. -/
def escapeChar (c : Char) : List Char :=
  match c with
  | '\x08' => ['\\', 'b']
  | '\t' => ['\\', 't']
  | '\n' => ['\\', 'n']
  | '\x0c' => ['\\', 'f']
  | '\r' => ['\\', 'r']
  | '"' => ['\\', '"']
  | '\\' => ['\\', '\\']
  | c =>
    if c.toNat < 32 ∨ c.toNat = 127 then
      ['\\', 'u', '0', '0', Hexadecimal.upperDigitChar (c.toNat / 16),
        Hexadecimal.upperDigitChar (c.toNat % 16)]
    else [c]

/-- A string between quotes. -/
def quote (s : String) : String :=
  String.ofList ('"' :: (s.toList.flatMap escapeChar ++ ['"']))

end ControlPlane.Toml
