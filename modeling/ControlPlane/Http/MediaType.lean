/-!
# ControlPlane.Http.MediaType

Media types, and which of them announce JSON: `application/json`, also with parameters, and types
like `application/problem+json`, whose suffix says so.
-/

namespace ControlPlane.MediaType

/-- Whether a character may stand in a name.  Only ASCII may. -/
def isTokenChar (c : Char) : Bool := c.isAlphanum || "!#$%&'*+-.^_`|~".toList.contains c

/-- Whether a character may stand between quotes. -/
def isQuotedChar (c : Char) : Bool := 32 ≤ c.toNat && c.toNat ≠ 127

/-- What is left behind the closing quote of a quoted value.  The first character does not close
it. -/
def afterQuoted (first : Bool) : List Char → Option (List Char)
  | [] => none
  | '"' :: rest => if first then afterQuoted false rest else some rest
  | '\\' :: c :: rest => if isQuotedChar c then afterQuoted false rest else none
  | c :: rest => if isQuotedChar c then afterQuoted false rest else none

/-- What is left behind a value: nothing, or the next parameters behind a semicolon. -/
def afterValue (cs : List Char) : Option (List Char) :=
  match cs with
  | '"' :: quoted => do
    match (← afterQuoted true quoted).dropWhile (· == ' ') with
    | [] => some []
    | ';' :: rest => some rest
    | _ => none
  | _ =>
    match cs.dropWhile isTokenChar with
    | [] => some []
    | ';' :: rest => if cs.head? = some ';' then none else some rest
    | _ => none

/-- Whether a text is a list of parameters, of which there are at most `fuel`. -/
def areParameters : Nat → List Char → Bool
  | 0, _ => false
  | fuel + 1, cs =>
    let cs := cs.dropWhile (· == ' ')
    if cs.isEmpty then true
    else
      match cs.dropWhile isTokenChar with
      | '=' :: value =>
        cs.head? ≠ some '=' &&
          match afterValue value with
          | some rest => areParameters fuel rest
          | none => false
      | _ => false

/-- The subtype and suffix of what is behind the slash. -/
def splitSuffix (name : List Char) : List Char × List Char :=
  let behind := (name.reverse.takeWhile (· ≠ '+')).reverse
  let before := name.take (name.length - behind.length - 1)
  if before.isEmpty then (name, []) else (before, behind)

/-- Whether a header says that the body is JSON.  Upper and lower case do not differ. -/
def isJson (header : String) : Bool :=
  let cs := header.toList
  let kind := cs.takeWhile isTokenChar
  match cs.drop kind.length with
  | '/' :: rest =>
    let name := rest.takeWhile isTokenChar
    let (subtype, suffix) := splitSuffix (name.map Char.toLower)
    let parametersOk :=
      match rest.drop name.length with
      | [] => true
      | ';' :: parameters => !name.isEmpty && areParameters (parameters.length + 1) parameters
      | _ => false
    kind.map Char.toLower = "application".toList
      && (subtype = "json".toList || suffix = "json".toList)
      && parametersOk && cs.all fun c => 32 ≤ c.toNat && c.toNat < 127
  | _ => false

end ControlPlane.MediaType
