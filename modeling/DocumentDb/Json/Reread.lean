import DocumentDb.Json.Parser

/-! # Values read from values

A value that is handed on in the place of its text is read once more. The members of an object then
come in the order of their names, so an object embeds a text if the least of its names is
`Json.embeddingName`.

* `Json.reread?`: what a value stands for. `Json.embedded?` reads the text that it embeds.
-/

namespace DocumentDb.Json

/-- The value of the text that the value of an embedding member holds. -/
def embedded? : Json → Option Json
  | string text => parse? text
  | _ => none

mutual

/-- A value with those in it that embed a text replaced; none if one of them spells no value. -/
def reread? : Json → Option Json
  | array vs => (rereadItems? vs).map array
  | members es => rereadObject? es
  | v => some v

/-- The values of a list, each read again. -/
def rereadItems? : List Json → Option (List Json)
  | [] => some []
  | v :: vs => do return (← reread? v) :: (← rereadItems? vs)

/-- The values of some members, each read again. -/
def rereadMembers? : List (String × Json) → Option (List (String × Json))
  | [] => some []
  | (name, v) :: es => do return (name, ← reread? v) :: (← rereadMembers? es)

/-- What an object with some members stands for. -/
def rereadObject? : List (String × Json) → Option Json
  | [] => some emptyObject
  | (name, v) :: es =>
    if name = embeddingName then (if es.isEmpty then embedded? v else none)
    else do return members ((name, ← reread? v) :: (← rereadMembers? es))

end

end DocumentDb.Json
