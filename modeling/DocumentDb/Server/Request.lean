/-! # Requests

A request as it arrives: the method, the target, header fields and the bytes of the body.
-/

namespace DocumentDb

/-- A header field. -/
structure HeaderField where
  name : String
  value : String

/-- A request. -/
structure Request where
  method : String
  /-- The path with the query string. -/
  target : String
  headers : List HeaderField
  body : List UInt8

namespace Request

/-- A letter with its case dropped; other characters as they are. -/
def foldCase (c : Char) : Char :=
  if 'A' ≤ c ∧ c ≤ 'Z' then Char.ofNat (c.toNat + 32) else c

/-- A list of characters with the case of its letters dropped. -/
def foldChars (s : String) : List Char := s.toList.map foldCase

/-- Whether two texts differ in the case of letters at most. -/
def sameWord (a b : String) : Bool := foldChars a == foldChars b

/-- The value of the first header field with a name. -/
def header? (r : Request) (name : String) : Option String :=
  (r.headers.find? fun h => sameWord h.name name).map (·.value)

end Request

end DocumentDb
