import DocumentDb.Text.Hex
import DocumentDb.Text.Printable

/-! # Quoted text

The form in which messages show a text that may hold anything: between double quotes, with the
quote, the backslash, and every character without a visible form of its own escaped.
-/

namespace DocumentDb.Text

/-- One character inside the quotes. -/
def escape (c : Char) : List Char :=
  match c with
  | '"' => ['\\', '"']
  | '\\' => ['\\', '\\']
  | '\t' => ['\\', 't']
  | '\r' => ['\\', 'r']
  | '\n' => ['\\', 'n']
  | '\x00' => ['\\', '0']
  | c => if isPrintable c then [c] else ['\\', 'u', '{'] ++ Hex.digits c.toNat ++ ['}']

/-- A text between double quotes, with its special characters escaped. -/
def quoted (s : String) : String :=
  String.ofList ('"' :: s.toList.flatMap escape ++ ['"'])

end DocumentDb.Text
