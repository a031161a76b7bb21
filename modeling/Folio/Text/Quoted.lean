import Folio.Text.Visible

/-!
# Quoted texts in messages

Messages show an offending text between double quotes. Quotes, backslashes and
the common control characters are written with a backslash, and characters
without a visible form by their number, so the text stays on one line.
-/

namespace Folio.Text

def quotedChar : Char → List Char
  | '"' => ['\\', '"']
  | '\\' => ['\\', '\\']
  | '\n' => ['\\', 'n']
  | '\r' => ['\\', 'r']
  | '\t' => ['\\', 't']
  | '\x00' => ['\\', '0']
  | c =>
    if isVisible c then [c]
    else ['\\', 'u', '{'] ++ Nat.toDigits 16 c.toNat ++ ['}']

def quoted (text : String) : String :=
  String.ofList ('"' :: text.toList.flatMap quotedChar ++ ['"'])

end Folio.Text
