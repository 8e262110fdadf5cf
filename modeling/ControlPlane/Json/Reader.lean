import ControlPlane.Json
import ControlPlane.Text.Utf8

/-!
# ControlPlane.Json.Reader

Readers of JSON text.  A reader takes characters from the front; the first fault in the order of the
text is the one that counts.  There are two sorts of faults: text that is no JSON, and JSON of
another shape than the one asked for.  Where a value of another kind stands, the value is looked at
only as far as its kind: a string or number is read first and may itself be bad, a list or record is
refused at its bracket.
-/

namespace ControlPlane.Json

/-- Why a text is refused. -/
inductive Fault
  /-- The text is not JSON. -/
  | notJson
  /-- It is, but not of the shape asked for. -/
  | shape
  deriving DecidableEq, Repr

/-- A reader takes characters from the front and returns its result with the characters left. -/
abbrev Reader (α : Type) : Type := StateT (List Char) (Except Fault) α

namespace Reader

/-! ## Characters -/

/-- Whether a character may stand between the tokens of a JSON text. -/
def isBlank (c : Char) : Bool := c == ' ' || c == '\n' || c == '\t' || c == '\r'

/-- Takes the blanks in front. -/
def skipBlank : Reader Unit := modify (·.dropWhile isBlank)

/-- The next character, which stays. -/
def peek? : Reader (Option Char) := do return (← get).head?

/-- Takes one character. -/
def advance : Reader Unit := modify (·.drop 1)

/-- The next character that is not blank, which stays. -/
def peekToken? : Reader (Option Char) := do
  skipBlank
  peek?

/-- Takes this character, which has to come next after blanks. -/
def expect (c : Char) : Reader Unit := do
  if (← peekToken?) = some c then advance else throw .notJson

/-- Takes these characters, which have to come next. -/
def word (w : String) : Reader Unit := fun cs =>
  if w.toList.isPrefixOf cs then .ok ((), cs.drop w.length) else .error .notJson

/-! ## Strings -/

/-- A code unit of four hexadecimal digits. -/
def codeUnit? (cs : List Char) : Option Nat :=
  if (cs.take 4).length = 4 then Hexadecimal.value? (cs.take 4) else none

/-- What the characters behind a backslash stand for, and how many of them belong to the escape.
Two escapes of surrogates in a row stand for one character; a surrogate alone for none. -/
def escape (cs : List Char) : Option (Char × Nat) :=
  match cs with
  | '"' :: _ => some ('"', 1)
  | '\\' :: _ => some ('\\', 1)
  | '/' :: _ => some ('/', 1)
  | 'b' :: _ => some ('\x08', 1)
  | 'f' :: _ => some ('\x0c', 1)
  | 'n' :: _ => some ('\n', 1)
  | 'r' :: _ => some ('\r', 1)
  | 't' :: _ => some ('\t', 1)
  | 'u' :: rest => do
    let high ← codeUnit? rest
    if high < 0xD800 ∨ 0xDFFF < high then
      return (Char.ofNat high, 5)
    else if high < 0xDC00 ∧ (rest.drop 4).take 2 = ['\\', 'u'] then do
      let low ← codeUnit? (rest.drop 6)
      if 0xDC00 ≤ low ∧ low ≤ 0xDFFF then
        return (Char.ofNat (0x10000 + (high - 0xD800) * 0x400 + (low - 0xDC00)), 11)
      else none
    else none
  | _ => none

/-- The characters of a string up to its closing quote, and what is left behind that. -/
def stringBody (cs : List Char) : Option (List Char × List Char) :=
  match cs with
  | [] => none
  | '"' :: rest => some ([], rest)
  | '\\' :: rest => do
    let (c, taken) ← escape rest
    let (s, rest) ← stringBody (rest.drop taken)
    return (c :: s, rest)
  | c :: rest =>
    if c.toNat < 32 then none
    else do
      let (s, rest) ← stringBody rest
      return (c :: s, rest)
termination_by cs.length
decreasing_by all_goals simp only [List.length_drop, List.length_cons]; omega

/-- A string, from its opening quote. -/
def string : Reader String := fun cs =>
  match stringBody (cs.drop 1) with
  | some (s, rest) => .ok (String.ofList s, rest)
  | none => .error .notJson

/-! ## Bytes -/

/-- How a byte that belongs to no character is read.  Between tokens this is a fault, and so it is
in a string that is read, since no character has this surrogate alone; but a string that is passed
over may hold it.  The character in front of the escape is there for a backslash in front of the
byte, which would escape that of the escape. -/
def stray : List Char := ['\uFFFD', '\\', 'u', 'D', 'C', '0', '0']

/-- Bytes as a reader takes them. -/
@[irreducible] def characters (b : Bytes) : List Char := Utf8.charactersFrom stray 0 b

end Reader

end ControlPlane.Json
