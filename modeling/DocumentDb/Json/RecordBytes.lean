import DocumentDb.Json.Parser
import DocumentDb.Json.Record
import DocumentDb.Text.Utf8

/-! # Records read from bytes

`Json.Fields.ofBytes?` reads a record from bytes, as an object or as an array. Members of the object
that are no field are passed over: they may nest to any depth, and their strings need not be
well-formed text. The value of a field is taken as it is written, so no text is embedded in its
outermost layer. The marks of the grammar lie below 128, where a byte and a character agree; the
shape is read off the bytes one by one, and only names and values of fields are decoded.
-/

namespace DocumentDb.Json

/-- The bytes as characters, one by one. -/
def marks (bytes : List UInt8) : List Char := bytes.map fun b => Char.ofNat b.toNat

/-- The text whose bytes are the characters in front of some that are left. -/
def textBefore? (cs rest : List Char) : Option (List Char) :=
  let bytes := (cs.take (cs.length - rest.length)).map fun c => UInt8.ofNat c.toNat
  (Utf8.decode? bytes).map String.toList

/-- The characters behind a value. -/
def skipValue (cs : List Char) : Option (List Char) :=
  let rules := Rules.shape cs
  (scanValue rules (fuelFor cs) rules.depth cs).map (·.2)

/-- The name of a member, behind its opening quote. -/
def scanName (cs : List Char) : Option (String × List Char) := do
  let (_, rest) ← scanString (Rules.shape cs) cs
  let (name, _) ← scanString .strict (← textBefore? cs rest)
  return (name, rest)

/-- The value of a field. It lies one level inside the record. -/
def scanField (cs : List Char) : Option (Json × List Char) := do
  let rest ← skipValue cs
  let v ← parsePlain? (Rules.strict.depth - 1) (← textBefore? cs rest)
  return (v, rest)

/-- The fields of an object up to its closing brace, in the order of the text and with repetitions;
only the first member may be absent. -/
def scanNamed (names : List String) :
    Nat → Bool → List Char → Option (List (String × Json) × List Char)
  | 0, _, _ => none
  | fuel + 1, first, cs =>
    match first, skipBlank cs with
    | true, '}' :: rest => some ([], rest)
    | _, '"' :: rest => do
      let (name, rest) ← scanName rest
      let rest ← dropWord [':'] (skipBlank rest)
      let (es, rest) ←
        if name ∈ names then (scanField rest).map fun (v, rest) => ([(name, v)], rest)
        else (skipValue rest).map ([], ·)
      match skipBlank rest with
      | '}' :: rest => some (es, rest)
      | ',' :: rest =>
        let (more, rest) ← scanNamed names fuel false rest
        some (es ++ more, rest)
      | _ => none
    | _, _ => none

/-- The fields of an array up to its closing bracket; only the first may be absent. -/
def scanPositional : Nat → Bool → List Char → Option (List Json × List Char)
  | 0, _, _ => none
  | fuel + 1, first, cs =>
    match first, skipBlank cs with
    | true, ']' :: rest => some ([], rest)
    | _, cs => do
      let (v, rest) ← scanField cs
      match skipBlank rest with
      | ']' :: rest => some ([v], rest)
      | ',' :: rest =>
        let (vs, rest) ← scanPositional fuel false rest
        some (v :: vs, rest)
      | _ => none

/-- The fields of the record with some names that bytes hold. No field comes twice. -/
def Fields.ofBytes? (names : List String) (bytes : List UInt8) : Option Fields :=
  let cs := skipBlank (marks bytes)
  match cs with
  | '{' :: cs => do
    let (es, rest) ← scanNamed names (cs.length + 1) true cs
    guard ((skipBlank rest).isEmpty ∧ (es.map (·.1)).Nodup)
    return named (Entries.ofList es)
  | '[' :: cs => do
    let (vs, rest) ← scanPositional (cs.length + 1) true cs
    guard ((skipBlank rest).isEmpty ∧ vs.length ≤ names.length)
    return positional vs
  | _ => none

end DocumentDb.Json
