import ControlPlane.Http.Percent
import ControlPlane.Url.Address
import ControlPlane.Url.Punycode

/-!
# ControlPlane.Url.Host

The hosts of URLs: names and numeric addresses.  Names of schemes that are looked up in the network
are in lower case and in ASCII; those of other schemes stay as they are.
-/

namespace ControlPlane.Url

/-- A host. -/
inductive Host
  | name (text : List Char)
  | ipv4 (address : Nat)
  | ipv6 (pieces : List Nat)
  deriving DecidableEq, Repr

namespace Host

/-- The text of a host. -/
def text : Host → List Char
  | .name text => text
  | .ipv4 address => Ipv4.text address
  | .ipv6 pieces => '[' :: (Ipv6.text pieces ++ [']'])

/-- Whether a character is a control character. -/
def isControl (c : Char) : Bool := c.toNat < 32 || c.toNat = 127

/-- The characters besides control characters that no name may have. -/
def forbidden : List Char := " #/:<>?@[\\]^|".toList

/-- Reads an address between brackets. -/
def bracketed? (cs : List Char) : Option Host :=
  if cs.getLast? = some ']' then (Ipv6.parse? cs.dropLast).map .ipv6 else none

/-- Whether a character separates the labels of a name. -/
def isDot (c : Char) : Bool := c ∈ ['.', '。', '．', '｡']

/-- A label of a name in ASCII. -/
def label (cs : List Char) : List Char :=
  if cs.all fun c => c.toNat < 128 then cs else "xn--".toList ++ Punycode.encode cs

/-- A name in lower case and in ASCII. -/
def normalize (cs : List Char) : List Char :=
  List.intercalate ['.']
    ((splitAt '.' (cs.map fun c => if isDot c then '.' else c.toLower)).map label)

/-- Reads a host that is looked up in the network. -/
def parse? (cs : List Char) : Option Host :=
  match cs with
  | '[' :: rest => bracketed? rest
  | _ => do
    let name := normalize (← Percent.decodeText? cs).toList
    if name.isEmpty ∨ name.any (fun c => isControl c || c ∈ '%' :: forbidden) then none
    else if Ipv4.isNumeric name then (Ipv4.parse? name).map .ipv4
    else return .name name

/-- Reads a host of another scheme. -/
def parseOther? (cs : List Char) : Option Host :=
  match cs with
  | '[' :: rest => bracketed? rest
  | _ =>
    if cs.any fun c => c = '\x00' || c ∈ forbidden then none
    else some (.name (Percent.encode (fun c => c.toNat < 127 && !isControl c) cs))

end Host

end ControlPlane.Url
