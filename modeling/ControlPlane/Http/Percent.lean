import ControlPlane.Number.Hexadecimal
import ControlPlane.Text.Utf8

/-!
# ControlPlane.Http.Percent

Percent-encoding: a byte that may not stand in a URL is written as a percent sign and two
hexadecimal digits.  A percent sign without two digits behind it stands for itself.
-/

namespace ControlPlane.Percent

/-- The bytes that percent-encoded bytes stand for. -/
def decode : Bytes → Bytes
  | 37 :: high :: low :: rest =>
    match Hexadecimal.digitValue? (Char.ofNat high.toNat),
        Hexadecimal.digitValue? (Char.ofNat low.toNat) with
    | some h, some l => UInt8.ofNat (16 * h + l) :: decode rest
    | _, _ => 37 :: decode (high :: low :: rest)
  | b :: rest => b :: decode rest
  | [] => []

/-- The text that a percent-encoded text stands for, unless it is none. -/
def decodeText? (cs : List Char) : Option String :=
  Utf8.decode? (decode (Utf8.encode (String.ofList cs)))

/-- An encoded byte. -/
def encodeByte (b : UInt8) : List Char :=
  ['%', Hexadecimal.upperDigitChar (b.toNat / 16), Hexadecimal.upperDigitChar (b.toNat % 16)]

/-- A text of which the characters that fail a test are encoded. -/
def encode (keep : Char → Bool) (cs : List Char) : List Char :=
  cs.flatMap fun c =>
    if keep c then [c] else (Utf8.encode (String.ofList [c])).flatMap encodeByte

end ControlPlane.Percent
