import ControlPlane.Url.Host
import ControlPlane.Url.Path

/-!
# ControlPlane.Url

URLs, as clients of HTTP read them: a text is taken apart leniently, and what is left has one
spelling.  Whoever asks for a URL sends its `target` to its `authority`.
-/

namespace ControlPlane

/-- A URL.  A port that its scheme has anyway is left out. -/
structure Url where
  scheme : List Char
  host : Option Url.Host
  port : Option Nat
  path : Url.Path
  query : Option (List Char)
  fragment : Option (List Char)
  deriving DecidableEq, Repr

namespace Url

/-! ## Schemes -/

/-- The schemes of hosts in the network, with their ports. -/
def ports : List (List Char × Nat) :=
  [("http".toList, 80), ("https".toList, 443), ("ws".toList, 80), ("wss".toList, 443),
    ("ftp".toList, 21)]

/-- The scheme of files. -/
def fileScheme : List Char := "file".toList

/-- Whether HTTP can ask for a URL. -/
def isHttp (u : Url) : Bool := u.scheme = "http".toList || u.scheme = "https".toList

/-! ## Printing -/

/-- The port in a URL, if it is not left out. -/
def portText (u : Url) : List Char :=
  match u.port with
  | some p => ':' :: Decimal.digits p
  | none => []

/-- The path of a URL.  Without a host, a path that starts with an empty name has a step in front,
so that it is not taken for a host. -/
def pathText (u : Url) : List Char :=
  match u.host, u.path with
  | none, .names ([] :: _ :: _) => '/' :: '.' :: u.path.text
  | _, _ => u.path.text

/-- An optional part of a URL behind its mark. -/
def marked (mark : Char) : Option (List Char) → List Char
  | some cs => mark :: cs
  | none => []

/-- The text of a URL. -/
def text (u : Url) : String :=
  String.ofList (u.scheme ++ ':' ::
    ((match u.host with
      | some h => '/' :: '/' :: (h.text ++ u.portText)
      | none => [])
    ++ u.pathText ++ marked '?' u.query ++ marked '#' u.fragment))

/-- What is asked for at the host. -/
def target (u : Url) : String := String.ofList (u.path.text ++ marked '?' u.query)

/-- The host and port that are asked. -/
def authority (u : Url) : String :=
  String.ofList ((u.host.map Host.text).getD [] ++ ':' ::
    Decimal.digits (u.port.getD ((ports.lookup u.scheme).getD 0)))

/-! ## Reading -/

/-- A text without what is ignored: control characters and spaces around it, tabs and line ends
anywhere. -/
def clean (cs : List Char) : List Char :=
  let blank (c : Char) : Bool := c.toNat ≤ 32
  let trimmed := ((cs.dropWhile blank).reverse.dropWhile blank).reverse
  trimmed.filter fun c => c ≠ '\t' ∧ c ≠ '\n' ∧ c ≠ '\r'

/-- Reads a scheme, which starts with a letter and ends at a colon. -/
def readScheme? (cs : List Char) : Option (List Char × List Char) :=
  let scheme := cs.takeWhile fun c => c.isAlphanum || c = '+' || c = '-' || c = '.'
  match cs.drop scheme.length with
  | ':' :: rest =>
    if scheme.head?.any Char.isAlpha then some (scheme.map Char.toLower, rest) else none
  | _ => none

/-- Whether a character ends an authority. -/
def endsAuthority (special : Bool) (c : Char) : Bool :=
  c = '/' || c = '?' || c = '#' || (special && c = '\\')

/-- What is left behind the last at sign of an authority. -/
def dropUser (special : Bool) (cs : List Char) : List Char :=
  let authority := cs.takeWhile fun c => !endsAuthority special c
  if authority.contains '@' then
    (authority.reverse.takeWhile (· ≠ '@')).reverse ++ cs.drop authority.length
  else cs

/-- Cuts behind a host.  A colon between brackets belongs to it. -/
def cutHost (special bracket : Bool) : List Char → List Char × List Char
  | [] => ([], [])
  | c :: rest =>
    if endsAuthority special c || (c = ':' && !bracket) then ([], c :: rest)
    else
      let (host, rest) := cutHost special (c = '[' || (bracket && c ≠ ']')) rest
      (c :: host, rest)

/-- Reads a port, which may be empty. -/
def readPort? (cs : List Char) : Option (Option Nat × List Char) :=
  match cs with
  | ':' :: rest =>
    let ds := rest.takeWhile Decimal.isDigit
    let rest := rest.drop ds.length
    if 65535 < Decimal.value ds then none
    else if rest.head?.any fun c => !endsAuthority true c then none
    else some (if ds.isEmpty then none else some (Decimal.value ds), rest)
  | _ => some (none, cs)

/-- The characters of a query that are not encoded. -/
def keepsInQuery (special : Bool) (c : Char) : Bool :=
  32 < c.toNat && c.toNat < 127 && !("\"#<>".toList.contains c) && !(special && c = '\'')

/-- The characters of a fragment that are not encoded. -/
def keepsInFragment (c : Char) : Bool :=
  32 < c.toNat && c.toNat < 127 && !("\"<>`".toList.contains c)

/-- Reads what follows the path. -/
def readTail (special : Bool) (cs : List Char) : Option (List Char) × Option (List Char) :=
  let front := cs.takeWhile (· ≠ '#')
  let query :=
    match front with
    | '?' :: q => some (Percent.encode (keepsInQuery special) q)
    | _ => none
  let fragment :=
    match cs.drop front.length with
    | '#' :: f => some (Percent.encode keepsInFragment f)
    | _ => none
  (query, fragment)

/-- A URL of which everything in front of the path has been read. -/
def finish (scheme : List Char) (special : Bool) (host : Option Host) (port : Option Nat)
    (readPath : List Char → Path) (cs : List Char) : Url :=
  let path := cs.takeWhile fun c => c ≠ '?' ∧ c ≠ '#'
  let (query, fragment) := readTail special (cs.drop path.length)
  { scheme, host, port, path := readPath path, query, fragment }

/-- Reads a path behind a host.  Only a scheme of the network has a path if nothing is there. -/
def pathBehindHost (special : Bool) (cs : List Char) : Path :=
  match cs with
  | [] => .names (if special then [[]] else [])
  | '/' :: rest => Path.parse special rest
  | '\\' :: rest => Path.parse special (if special then rest else cs)
  | _ => Path.parse special cs

/-- Reads what follows the slashes in front of an authority. -/
def readAuthority? (scheme : List Char) (special : Bool) (cs : List Char) : Option Url := do
  let behindUser := dropUser special cs
  let (host, rest) := cutHost special false behindUser
  if host.isEmpty ∧ (special ∨ rest.head? = some ':' ∨ behindUser.length < cs.length) then none
  else
    let host ← if special then Host.parse? host else Host.parseOther? host
    let (port, rest) ← readPort? rest
    let port := if port = ports.lookup scheme then none else port
    return finish scheme special (some host) port (pathBehindHost special) rest

/-- Reads the URL of a file behind its scheme.  A host is named behind two slashes. -/
def readFile? (cs : List Char) : Option Url := do
  let slash (c : Char) : Bool := c = '/' || c = '\\'
  let here : Host := .name []
  match cs with
  | a :: b :: rest =>
    if slash a && slash b then
      let host := rest.takeWhile fun c => !endsAuthority true c
      if Path.isDrive host then
        return finish fileScheme true (some here) none (pathBehindHost true) rest
      else
        let host ← if host.isEmpty then some here else Host.parse? host
        let host := if host = .name "localhost".toList then here else host
        return finish fileScheme true (some host) none (pathBehindHost true)
          (rest.drop (rest.takeWhile fun c => !endsAuthority true c).length)
    else return finish fileScheme true (some here) none (pathBehindHost true) cs
  | _ => return finish fileScheme true (some here) none (pathBehindHost true) cs

/-- The URL that a text spells. -/
def parse? (s : String) : Option Url := do
  let (scheme, rest) ← readScheme? (clean s.toList)
  if (ports.lookup scheme).isSome then
    readAuthority? scheme true (rest.dropWhile fun c => c = '/' || c = '\\')
  else if scheme = fileScheme then readFile? rest
  else
    match rest with
    | '/' :: '/' :: rest => readAuthority? scheme false rest
    | '/' :: rest => return finish scheme false none none (Path.parse false) rest
    | _ =>
      let plain cs := Path.plain (Percent.encode (fun c => c.toNat < 127 && !Host.isControl c) cs)
      return finish scheme false none none plain rest

end Url

end ControlPlane
