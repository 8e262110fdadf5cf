import ControlPlane.Url.Address

/-!
# ControlPlane.Cli.Listening

Which hosts a program can listen at without asking the network: the addresses of the machine itself.
-/

namespace ControlPlane.Cli

/-- Why a program cannot listen at a host. -/
inductive ListenError
  /-- The name holds a character that no name has. -/
  | badName
  /-- The name is not known. -/
  | unknownName
  /-- The address is not one of this machine. -/
  | foreignAddress
  deriving DecidableEq, Repr

/-- The text for a host that cannot be listened at. -/
def ListenError.message : ListenError → String
  | .badName => "file name contained an unexpected NUL byte"
  | .unknownName => "failed to lookup address information: Name or service not known"
  | .foreignAddress => "Cannot assign requested address (os error 99)"

/-- Whether an IPv4 address is one of this machine: any of them at once, or a loopback address. -/
def isOwnIpv4 (address : Nat) : Bool := address == 0 || address / 16777216 == 127

/-- Whether an IPv6 address is one of this machine. -/
def isOwnIpv6 (pieces : List Nat) : Bool := pieces.take 7 == List.replicate 7 0

/-- The address between brackets, or the whole text without them. -/
def withoutBrackets : List Char → List Char
  | '[' :: rest => if rest.getLast? = some ']' then rest.dropLast else '[' :: rest
  | cs => cs

/-- Whether a program can listen at a host. -/
def canListen (host : String) : Except ListenError Unit :=
  let cs := host.toList
  if cs.contains '\x00' then .error .badName
  else if host = "localhost" then .ok ()
  else
    match Url.Ipv6.parse? (withoutBrackets cs) with
    | some pieces => if isOwnIpv6 pieces then .ok () else .error .foreignAddress
    | none =>
      match if cs.getLast? = some '.' then none else Url.Ipv4.parse? cs with
      | some address => if isOwnIpv4 address then .ok () else .error .foreignAddress
      | none => .error .unknownName

end ControlPlane.Cli
