import DocumentDb.Toml.Scan

/-! # Moments spelled by tables

A table whose first key is the reserved one spells a moment: the text under that key, whatever else
the table holds. The key is an ordinary one anywhere behind the first place and in the document
itself.

* `Moment.ofText?`: the moment that a whole text spells, and nothing but the moment.
* `Toml.read`: a value with the moments in it in the place of the tables that spell them.
-/

namespace DocumentDb.Toml

/-! ## Texts of moments -/

/-- A moment with the characters behind it: a colon at the third place begins a time. -/
def scanSpelled (cs : List Char) : Option (Moment × List Char) :=
  if cs[2]? = some ':' then (scanTime cs).map fun (t, rest) => (.time t, rest)
  else do
    let (d, rest) ← scanDate cs
    match rest with
    | [] => return (.date d, [])
    | c :: rest =>
      guard (c = 'T' ∨ c = 't' ∨ c = ' ')
      let (t, rest) ← scanTime rest
      let (offset, rest) ← scanOffset rest
      return (.both d t offset, rest)

/-- The moment that a whole text spells. -/
def Moment.ofText? (text : String) : Option Moment := do
  let (m, rest) ← scanSpelled text.toList
  guard rest.isEmpty
  return m

/-! ## Tables that spell them -/

/-- The key under which a table spells a moment. -/
def momentKey : String := "$__toml_private_datetime"

/-- The moment that a value under the reserved key spells. -/
def spelled? : Toml → Option Moment
  | string s => Moment.ofText? s
  | _ => none

mutual

/-- A value with the moments in it in the place of the tables that spell them; none if such a table
spells nothing. -/
def read : Toml → Option Toml
  | array vs => (readItems vs).map array
  | table form es => readTable form es
  | tables elements => (readTables elements).map array
  | v => some v

/-- The values of a list, each read. -/
def readItems : List Toml → Option (List Toml)
  | [] => some []
  | v :: vs => do return (← read v) :: (← readItems vs)

/-- The values of some entries, each read. -/
def readEntries : List (String × Toml) → Option (List (String × Toml))
  | [] => some []
  | (key, v) :: es => do return (key, ← read v) :: (← readEntries es)

/-- What a table with some entries stands for. -/
def readTable (form : TableForm) : List (String × Toml) → Option Toml
  | [] => some (table form [])
  | (key, v) :: es =>
    if key = momentKey then (spelled? v).map moment
    else do return table form ((key, ← read v) :: (← readEntries es))

/-- What several tables under one header stand for. -/
def readTables : List (List (String × Toml)) → Option (List Toml)
  | [] => some []
  | es :: rest => do return (← readTable .explicit es) :: (← readTables rest)

end

end DocumentDb.Toml
