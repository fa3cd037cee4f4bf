import DocumentDb.Json.Scan

/-! # Reading JSON

`Json.parse?` reads a text that holds one value between blanks. Strict rules apply: arrays and
objects nest at most 127 deep, surrogates come in pairs, floating-point numbers are finite. Of
several members of one name the last counts.

An object whose first member has the name `Json.embeddingName` embeds a text: it has no other
member, the value of this one is a string, and the object stands for the value that the string
spells in turn. Behind another member the name is an ordinary one.
-/

namespace DocumentDb.Json

/-! ## Embedded texts -/

/-- The name of the only member of an object that embeds a text. -/
def embeddingName : String := "$serde_json::private::RawValue"

/-- The name of the first member of an object, behind its opening brace. -/
def firstName? (rules : Rules) (cs : List Char) : Option String := do
  let rest ← dropWord ['"'] (skipBlank cs)
  let (name, _) ← scanString rules rest
  return name

/-- Whether an object embeds a text, as its first name tells; shape alone tells nothing. -/
def embeds (rules : Rules) (cs : List Char) : Bool :=
  rules.checked && firstName? rules cs == some embeddingName

/-- The text that an object embeds, behind its opening brace. -/
def scanEmbedded (rules : Rules) (cs : List Char) : Option (List Char × List Char) := do
  let rest ← dropWord ['"'] (skipBlank cs)
  let (_, rest) ← scanString rules rest
  let rest ← dropWord [':'] (skipBlank rest)
  let rest ← dropWord ['"'] (skipBlank rest)
  let (text, rest) ← scanString rules rest
  let rest ← dropWord ['}'] (skipBlank rest)
  return (text.toList, rest)

/-! ## Values -/

mutual

/-- A value with the characters behind it; `fuel` bounds the length of the derivation. -/
def scanValue (rules : Rules) : Nat → Nat → List Char → Option (Json × List Char)
  | 0, _, _ => none
  | fuel + 1, depth, cs =>
    match skipBlank cs with
    | [] => none
    | c :: cs =>
      if c = '"' then (scanString rules cs).map fun (s, rest) => (string s, rest)
      else if c = '[' then
        match depth with
        | 0 => none
        | depth + 1 =>
          (scanItems rules fuel depth true cs).map fun (vs, rest) => (array vs, rest)
      else if c = '{' then
        match depth with
        | 0 => none
        | depth + 1 =>
          if embeds rules cs then do
            let (text, rest) ← scanEmbedded rules cs
            let (v, more) ← scanValue rules fuel Rules.strict.depth text
            guard (skipBlank more).isEmpty
            return (v, rest)
          else (scanMembers rules fuel depth true cs).map fun (es, rest) => (object es, rest)
      else if c = '-' then
        (scanNumber rules true cs).map fun (n, rest) => (number n, rest)
      else if c.isDigit then
        (scanNumber rules false (c :: cs)).map fun (n, rest) => (number n, rest)
      else if c = 'n' then (dropWord ['u', 'l', 'l'] cs).map (null, ·)
      else if c = 't' then (dropWord ['r', 'u', 'e'] cs).map (bool true, ·)
      else if c = 'f' then (dropWord ['a', 'l', 's', 'e'] cs).map (bool false, ·)
      else none

/-- The items of an array up to its closing bracket; only the first may be absent. -/
def scanItems (rules : Rules) : Nat → Nat → Bool → List Char → Option (List Json × List Char)
  | 0, _, _, _ => none
  | fuel + 1, depth, first, cs =>
    match first, skipBlank cs with
    | true, ']' :: rest => some ([], rest)
    | _, cs => do
      let (v, rest) ← scanValue rules fuel depth cs
      match skipBlank rest with
      | ']' :: rest => some ([v], rest)
      | ',' :: rest =>
        let (vs, rest) ← scanItems rules fuel depth false rest
        some (v :: vs, rest)
      | _ => none

/-- The members of an object up to its closing brace; only the first may be absent. -/
def scanMembers (rules : Rules) :
    Nat → Nat → Bool → List Char → Option (List (String × Json) × List Char)
  | 0, _, _, _ => none
  | fuel + 1, depth, first, cs =>
    match first, skipBlank cs with
    | true, '}' :: rest => some ([], rest)
    | _, '"' :: rest => do
      let (name, rest) ← scanString rules rest
      let rest ← dropWord [':'] (skipBlank rest)
      let (v, rest) ← scanValue rules fuel depth rest
      match skipBlank rest with
      | '}' :: rest => some ([(name, v)], rest)
      | ',' :: rest =>
        let (es, rest) ← scanMembers rules fuel depth false rest
        some ((name, v) :: es, rest)
      | _ => none
    | _, _ => none

end

/-- Fuel that suffices for every derivation over some characters. -/
def fuelFor (cs : List Char) : Nat := 2 * cs.length + 2

/-- The value of a whole list of characters, in which arrays and objects nest so deep at most. -/
def parseChars? (depth : Nat) (cs : List Char) : Option Json := do
  let (v, rest) ← scanValue .strict (fuelFor cs) depth cs
  guard (skipBlank rest).isEmpty
  return v

/-- The value of a whole list of characters, the outermost object taken as it is written, also where
it would embed a text. -/
def parsePlain? (depth : Nat) (cs : List Char) : Option Json :=
  match depth, skipBlank cs with
  | depth + 1, '{' :: cs => do
    let (es, rest) ← scanMembers .strict (fuelFor cs) depth true cs
    guard (skipBlank rest).isEmpty
    return object es
  | depth, cs => parseChars? depth cs

/-- The value of a whole text. -/
def parse? (text : String) : Option Json := parseChars? Rules.strict.depth text.toList

end DocumentDb.Json
