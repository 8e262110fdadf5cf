import ControlPlane.Json.Number

/-!
# ControlPlane.Json.Ignored

Passing over the value of a member that nobody asked for.  Its form is checked, but not what it
stands for: a lone surrogate or a number beyond all doubles does no harm here.  Lists and records
may be nested without limit, so the open brackets are kept on a stack.
-/

namespace ControlPlane.Json.Reader

/-- Passes over a string from behind its opening quote; the result is what is left. -/
def ignoredString (cs : List Char) : Option (List Char) :=
  match cs with
  | [] => none
  | '"' :: rest => some rest
  | '\\' :: c :: rest =>
    if c = 'u' then
      if (codeUnit? rest).isSome then ignoredString (rest.drop 4) else none
    else if "\"\\/bfnrt".toList.contains c then ignoredString rest
    else none
  | c :: rest => if c.toNat < 32 ∨ c = '\\' then none else ignoredString rest
termination_by cs.length
decreasing_by all_goals simp only [List.length_drop, List.length_cons]; omega

/-- Passes over an exponent part, if there is one. -/
def ignoredExponent (cs : List Char) : Option (List Char) :=
  match cs with
  | c :: rest =>
    if c = 'e' ∨ c = 'E' then
      let rest :=
        match rest with
        | '+' :: rest => rest
        | '-' :: rest => rest
        | rest => rest
      let (ds, rest) := Numeral.splitDigits rest
      if ds.isEmpty then none else some rest
    else some cs
  | [] => some []

/-- Passes over a number behind its sign. -/
def ignoredNumber (cs : List Char) : Option (List Char) :=
  let (ds, rest) := Numeral.splitDigits cs
  if ds.isEmpty ∨ (ds.head? = some '0' ∧ ds.length ≠ 1) then none
  else
    match rest with
    | '.' :: rest =>
      let (fraction, rest) := Numeral.splitDigits rest
      if fraction.isEmpty then none else ignoredExponent rest
    | rest => ignoredExponent rest

/-- A bracket that is open. -/
inductive Bracket
  | list
  | record
  deriving DecidableEq

/-- Passes over the rest of a scalar, its first character included. -/
def ignoredScalar (cs : List Char) : Option (List Char) :=
  match cs with
  | 'n' :: 'u' :: 'l' :: 'l' :: rest => some rest
  | 't' :: 'r' :: 'u' :: 'e' :: rest => some rest
  | 'f' :: 'a' :: 'l' :: 's' :: 'e' :: rest => some rest
  | '"' :: rest => ignoredString rest
  | '-' :: rest => ignoredNumber rest
  | cs => ignoredNumber cs

/-- Passes over the name of a member and its colon. -/
def ignoredName (cs : List Char) : Option (List Char) :=
  match cs.dropWhile isBlank with
  | '"' :: rest => do
    let rest ← ignoredString rest
    match rest.dropWhile isBlank with
    | ':' :: rest => some rest
    | _ => none
  | _ => none

mutual

/-- Passes over a value inside the brackets that are open, and on to the end of the outermost. -/
def ignoredValue : Nat → List Bracket → List Char → Option (List Char)
  | 0, _, _ => none
  | fuel + 1, opened, cs =>
    match cs.dropWhile isBlank with
    | '[' :: rest =>
      match rest.dropWhile isBlank with
      | ']' :: rest => ignoredRest fuel opened rest
      | rest => ignoredValue fuel (.list :: opened) rest
    | '{' :: rest =>
      match rest.dropWhile isBlank with
      | '}' :: rest => ignoredRest fuel opened rest
      | rest => (ignoredName rest).bind (ignoredValue fuel (.record :: opened))
    | cs => (ignoredScalar cs).bind (ignoredRest fuel opened)

/-- Goes on behind a value: to the next one, or out of the brackets. -/
def ignoredRest : Nat → List Bracket → List Char → Option (List Char)
  | 0, _, _ => none
  | _ + 1, [], cs => some cs
  | fuel + 1, bracket :: opened, cs =>
    match cs.dropWhile isBlank, bracket with
    | ',' :: rest, .list => ignoredValue fuel (.list :: opened) rest
    | ',' :: rest, .record => (ignoredName rest).bind (ignoredValue fuel (.record :: opened))
    | ']' :: rest, .list => ignoredRest fuel opened rest
    | '}' :: rest, .record => ignoredRest fuel opened rest
    | _, _ => none

end

/-- Passes over a value.  Every step but the last takes a character, and no step without one is
followed by another, so twice the length of the text is enough. -/
def ignored : Reader Unit := fun cs =>
  match ignoredValue (2 * cs.length + 2) [] cs with
  | some rest => .ok ((), rest)
  | none => .error .notJson

end ControlPlane.Json.Reader
