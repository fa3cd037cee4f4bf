import DocumentDb.Json.Basic
import DocumentDb.Text.Hex

/-! # The compact text of a JSON value

No blanks, members in the order of their names, and in strings only the quote, the backslash and the
characters below the blank escaped. Objects that list the same members have the same text, so this
is also the canonical text of a value.
-/

namespace DocumentDb.Json

/-- Numbers are written shortest, positionally for the exponents -5 to 15, a half goes to the even
neighbour, and a whole number keeps one zero after the point. -/
def numberLayout : Layout where
  tie := .toEven
  positional := some (-5, 15)
  pointZero := true

/-- The text of a number. -/
def Number.chars : Number → List Char
  | .nat n => Numeral.digits n
  | .neg n => '-' :: Numeral.digits n
  | .float x => x.render numberLayout

/-- One character inside a string. -/
def escape (c : Char) : List Char :=
  if c = '"' then ['\\', '"']
  else if c = '\\' then ['\\', '\\']
  else if c = '\x08' then ['\\', 'b']
  else if c = '\x0c' then ['\\', 'f']
  else if c = '\n' then ['\\', 'n']
  else if c = '\r' then ['\\', 'r']
  else if c = '\t' then ['\\', 't']
  else if c.toNat < 0x20 then ['\\', 'u'] ++ Hex.padded 4 c.toNat
  else [c]

/-- The text of a string. -/
def quote (s : String) : List Char := '"' :: s.toList.flatMap escape ++ ['"']

mutual

/-- The text of a value. -/
def chars : Json → List Char
  | null => "null".toList
  | bool true => "true".toList
  | bool false => "false".toList
  | number n => n.chars
  | string s => quote s
  | array items => '[' :: itemChars items ++ [']']
  | members entries => '{' :: memberChars entries ++ ['}']

/-- The texts of the items of an array, with commas between them. -/
def itemChars : List Json → List Char
  | [] => []
  | [v] => chars v
  | v :: rest => chars v ++ ',' :: itemChars rest

/-- The texts of the members of an object, with commas between them. -/
def memberChars : List (String × Json) → List Char
  | [] => []
  | [(name, v)] => quote name ++ ':' :: chars v
  | (name, v) :: rest => quote name ++ ':' :: (chars v ++ ',' :: memberChars rest)

end

/-- The compact text of a value. -/
def text (v : Json) : String := String.ofList (chars v)

end DocumentDb.Json
