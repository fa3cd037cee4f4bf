import DocumentDb.Number.Layout
import DocumentDb.SortedMap.Basic

/-! # JSON values

* `Json.Number`: integers that fit 64 bits are kept as integers, all others as floating-point
  numbers.
* `Json`: a value; the members of an object are listed in ascending order of their names.
* `Json.get?`, `Json.object`: members by name, and an object from members in any order.
-/

namespace DocumentDb

/-- A JSON number. -/
inductive Json.Number where
  /-- An integer without a sign. -/
  | nat (n : Nat)
  /-- An integer below zero, by its magnitude. -/
  | neg (n : Nat)
  | float (x : Binary64)
deriving DecidableEq

/-- A JSON value. -/
inductive Json where
  | null
  | bool (b : Bool)
  | number (n : Json.Number)
  | string (s : String)
  | array (items : List Json)
  /-- The members in ascending order of their names. -/
  | members (entries : List (String × Json))

namespace Json

instance : Inhabited Json := ⟨null⟩

/-- The object of some members, in which a later one replaces an earlier one of the same name. -/
def object (entries : List (String × Json)) : Json := members (Entries.ofList entries)

/-- The object of a map. -/
def ofMap (m : SortedMap String Json) : Json := members m.toList

/-- The object without members. -/
def emptyObject : Json := members []

/-- A natural number as a value. -/
def nat (n : Nat) : Json := number (.nat n)

/-- A list of texts as a value. -/
def strings (ss : List String) : Json := array (ss.map string)

/-- Whether a value is an object. -/
def isObject : Json → Bool
  | members _ => true
  | _ => false

/-- A member of an object. -/
def get? (name : String) : Json → Option Json
  | members entries => Entries.get? name entries
  | _ => none

end Json

end DocumentDb
