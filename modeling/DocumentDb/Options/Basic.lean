import DocumentDb.Error
import DocumentDb.Json.Parser
import DocumentDb.Json.Printer
import DocumentDb.Json.Record
import DocumentDb.Json.Reread

/-! # Options

Every call takes a set of options, JSON values by name. Sets are layered: what a later layer sets
hides the earlier ones.

* `Options.layer`, `Options.merged`: layering. `Options.get?_layer` says which layer counts.
* `Options.ofQuery`: the options of a query string, whose values are JSON or else plain texts.
* `Options.getString`, `Options.getBool`, `Options.getNat`: typed look-ups.
-/

namespace DocumentDb

/-- Option values by name. -/
structure Options where
  values : SortedMap String Json

namespace Options

/-- No options. -/
def empty : Options := ⟨.empty⟩

instance : Inhabited Options := ⟨empty⟩

/-- The options with one set. -/
def set (o : Options) (key : String) (value : Json) : Options := ⟨o.values.insert key value⟩

/-- The options with those of another set on top. -/
def layer (o top : Options) : Options := ⟨o.values.layer top.values⟩

/-- Some sets layered, the first at the bottom. -/
def merged (layers : List Options) : Options := layers.foldl layer empty

/-- The options of some pairs, in which a later one replaces an earlier one of the same key. -/
def ofList (pairs : List (String × Json)) : Options := ⟨.ofList pairs⟩

/-- The value that a text of a query string stands for. -/
def queryValue (text : String) : Json := (Json.parse? text).getD (.string text)

/-- The options of the pairs of a query string. -/
def ofQuery (pairs : List (String × String)) : Options :=
  ofList (pairs.map fun p => (p.1, queryValue p.2))

/-- The value of an option. -/
def get? (o : Options) (key : String) : Option Json := o.values.get? key

/-- The upper layer answers for the options it sets, the lower one for all others. -/
theorem get?_layer (o top : Options) (key : String) :
    (o.layer top).get? key = (top.get? key).or (o.get? key) :=
  o.values.get?_layer top.values key

/-- Whether an option is set. -/
def contains (o : Options) (key : String) : Bool := o.values.contains key

/-- The value of the first of some keys that is set. -/
def firstOf (o : Options) (keys : List String) : Option Json := keys.findSome? o.get?

/-- The options as a value. -/
def encode (o : Options) : Json := .ofMap o.values

/-- The options that a value holds. -/
def decode? (v : Json) : Option Options := (v.map? Json.reread?).map Options.mk

/-! ## Typed look-ups -/

/-- The failure of a look-up that meets a value of another kind than the expected one. -/
def invalid (key expected : String) (got : Json) : Error :=
  .badRequest ("option " ++ Text.quoted key ++ " must be " ++ expected ++ ", got " ++ got.text)

/-- An option that is a text; numbers stand for their texts. -/
def getString (o : Options) (key : String) : Except Error (Option String) :=
  match o.get? key with
  | none => .ok none
  | some .null => .ok none
  | some (.string s) => .ok (some s)
  | some (.number n) => .ok (some (String.ofList n.chars))
  | some v => .error (invalid key "a string" v)

/-- An option that is true or false, as a boolean or as a text. -/
def getBool (o : Options) (key : String) : Except Error (Option Bool) :=
  match o.get? key with
  | none => .ok none
  | some .null => .ok none
  | some (.bool b) => .ok (some b)
  | some v =>
    if v matches .string "true" then .ok (some true)
    else if v matches .string "false" then .ok (some false)
    else .error (invalid key "a boolean" v)

/-- An option that is a natural number of 64 bits, as a number or as a numeral. -/
def getNat (o : Options) (key : String) : Except Error (Option Nat) :=
  match o.get? key with
  | none => .ok none
  | some .null => .ok none
  | some (.number (.nat n)) => .ok (some n)
  | some (.string s) =>
    match Numeral.read? Numeral.max64 s with
    | some n => .ok (some n)
    | none => .error (invalid key "a non-negative integer" (.string s))
  | some v => .error (invalid key "a non-negative integer" v)

/-- A boolean option that is false unless it is set. -/
def flag (o : Options) (key : String) : Except Error Bool :=
  (o.getBool key).map (·.getD false)

end Options

end DocumentDb
