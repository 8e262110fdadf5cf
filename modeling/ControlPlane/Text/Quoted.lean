import ControlPlane.Number.Hexadecimal
import ControlPlane.Text.Unprintable

/-!
# ControlPlane.Text.Quoted

A text between double quotes, with everything that would not show on a terminal line spelled out.
Error texts quote names this way, so that an odd name cannot forge or hide part of a message.
-/

namespace ControlPlane.Text

/-- One character inside the quotes: five short escapes, `\u{…}` for what is unprintable, all else
as it is. -/
def quoteChar (c : Char) : List Char :=
  match c with
  | '\x00' => ['\\', '0']
  | '\t' => ['\\', 't']
  | '\r' => ['\\', 'r']
  | '\n' => ['\\', 'n']
  | '\\' => ['\\', '\\']
  | '"' => ['\\', '"']
  | c => if isUnprintable c then ['\\', 'u', '{'] ++ Hexadecimal.digits c.toNat ++ ['}'] else [c]

/-- A text between double quotes. -/
def quoted (s : String) : String :=
  String.ofList ('"' :: (s.toList.flatMap quoteChar ++ ['"']))

/-- A path between double quotes.  Here single quotes are spelled out too. -/
def quotedPath (s : String) : String :=
  String.ofList ('"' :: (s.toList.flatMap fun c => if c = '\'' then ['\\', c] else quoteChar c)
    ++ ['"'])

end ControlPlane.Text
