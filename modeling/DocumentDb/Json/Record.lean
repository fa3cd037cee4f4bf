import DocumentDb.Json.Basic
import DocumentDb.Text.Numeral

/-! # Records as JSON values

A record is an object with a member per field, in any order and among others, or an array with the
fields in order.

* `Json.fields?`: the fields of a value that has the form of a record.
* `Json.Fields.required`, `Json.Fields.optional`, `Json.Fields.withDefault`: one field.
-/

namespace DocumentDb.Json

/-- The fields of a record. -/
inductive Fields where
  | named (entries : List (String × Json))
  | positional (items : List Json)

/-- The fields of a value that has the form of a record with so many fields. -/
def fields? (count : Nat) : Json → Option Fields
  | members entries => some (.named entries)
  | array items => if items.length ≤ count then some (.positional items) else none
  | _ => none

namespace Fields

/-- The value of the field with a position and a name. -/
def slot (f : Fields) (i : Nat) (name : String) : Option Json :=
  match f with
  | named entries => Entries.get? name entries
  | positional items => items[i]?

/-- A field that has to be there. -/
def required {α : Type} (f : Fields) (i : Nat) (name : String) (decode : Json → Option α) :
    Option α :=
  (f.slot i name).bind decode

/-- A field that may be null and, in an object, absent. -/
def optional {α : Type} (f : Fields) (i : Nat) (name : String) (decode : Json → Option α) :
    Option (Option α) :=
  match f, f.slot i name with
  | named _, none => some none
  | positional _, none => none
  | _, some null => some none
  | _, some v => (decode v).map some

/-- A field with a value of its own where it is absent. -/
def withDefault {α : Type} (f : Fields) (i : Nat) (name : String) (default : α)
    (decode : Json → Option α) : Option α :=
  match f.slot i name with
  | none => some default
  | some v => decode v

end Fields

/-! ## Values of fields -/

/-- A boolean. -/
def bool? : Json → Option Bool
  | bool b => some b
  | _ => none

/-- A text. -/
def string? : Json → Option String
  | string s => some s
  | _ => none

/-- A natural number, if it is written as an integer. -/
def nat? : Json → Option Nat
  | number (.nat n) => some n
  | _ => none

/-- A list whose items all decode. -/
def list? {α : Type} (decode : Json → Option α) : Json → Option (List α)
  | array items => items.mapM decode
  | _ => none

/-- The members of an object, whose values all decode. -/
def map? {α : Type} (decode : Json → Option α) : Json → Option (SortedMap String α)
  | members entries =>
    (entries.mapM fun e => (decode e.2).map fun v => (e.1, v)).map SortedMap.ofList
  | _ => none

/-- A value that may be null. -/
def nullable? {α : Type} (decode : Json → Option α) : Json → Option (Option α)
  | null => some none
  | v => (decode v).map some

end DocumentDb.Json
