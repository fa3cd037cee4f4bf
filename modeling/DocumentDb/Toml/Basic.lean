import DocumentDb.Number.Layout
import DocumentDb.SortedMap.Entries

/-! # TOML values

* `Toml`: a value. A table remembers how it was written, which decides what may be added to it.
* `Toml.Moment`: a date, a time, or both; `Toml.Moment.text` is its normal form.
* `Toml.Real`: a floating-point number with the infinities and not-a-number.
-/

namespace DocumentDb

namespace Toml

/-- How a table was written. -/
inductive TableForm where
  /-- With a header of its own, or as the whole document. -/
  | explicit
  /-- By the header of a table inside it. -/
  | implied
  /-- By a dotted key. -/
  | dotted
  /-- Between braces. -/
  | inline
deriving DecidableEq

/-- A floating-point number. -/
inductive Real where
  | finite (x : Binary64)
  | infinite (negative : Bool)
  | nan
deriving DecidableEq

/-- A day. -/
structure Date where
  year : Nat
  month : Nat
  day : Nat
deriving DecidableEq

/-- A time of day. -/
structure Time where
  hour : Nat
  minute : Nat
  second : Nat
  /-- The digits of the fraction of a second. -/
  fraction : List Char
deriving DecidableEq

/-- A distance from universal time. -/
inductive Offset where
  | universal
  | ofMinutes (minutes : Int)
deriving DecidableEq

/-- A date, a time, or both. -/
inductive Moment where
  | date (d : Date)
  | time (t : Time)
  | both (d : Date) (t : Time) (offset : Option Offset)
deriving DecidableEq

end Toml

/-- A TOML value. -/
inductive Toml where
  | string (s : String)
  | integer (n : Int)
  | float (x : Toml.Real)
  | boolean (b : Bool)
  | moment (m : Toml.Moment)
  | array (items : List Toml)
  /-- The entries in the order in which their keys came up. -/
  | table (form : Toml.TableForm) (entries : List (String × Toml))
  /-- Tables under one header, which is repeated; oldest first. -/
  | tables (elements : List (List (String × Toml)))

namespace Toml

instance : Inhabited Toml := ⟨boolean false⟩

/-! ## Texts of scalars -/

/-- Numbers are written shortest, always positionally, of two neighbours the upper, and a whole
number without a point. -/
def Real.layout : Layout where
  tie := .up
  positional := none
  pointZero := false

/-- The text of a floating-point number. -/
def Real.text : Real → String
  | finite x => String.ofList (x.render layout)
  | infinite negative => if negative then "-inf" else "inf"
  | nan => "NaN"

/-- A number with so many digits at least. -/
def padded (width n : Nat) : String :=
  String.ofList (List.replicate (width - (Numeral.digits n).length) '0' ++ Numeral.digits n)

/-- The text of a day. -/
def Date.text (d : Date) : String :=
  padded 4 d.year ++ "-" ++ padded 2 d.month ++ "-" ++ padded 2 d.day

/-- The text of a time, without needless zeros in the fraction. -/
def Time.text (t : Time) : String :=
  let fraction := (t.fraction.reverse.dropWhile (· = '0')).reverse
  padded 2 t.hour ++ ":" ++ padded 2 t.minute ++ ":" ++ padded 2 t.second ++
    (if fraction.isEmpty then "" else String.ofList ('.' :: fraction))

/-- The text of a distance from universal time. -/
def Offset.text : Offset → String
  | universal => "Z"
  | ofMinutes n =>
    (if n < 0 then "-" else "+") ++ padded 2 (n.natAbs / 60) ++ ":" ++ padded 2 (n.natAbs % 60)

/-- The text of a moment. -/
def Moment.text : Moment → String
  | date d => d.text
  | time t => t.text
  | both d t offset => d.text ++ "T" ++ t.text ++ (offset.map Offset.text).getD ""

/-- The text of an integer. -/
def integerText (n : Int) : String :=
  (if n < 0 then "-" else "") ++ Numeral.text n.natAbs

/-- The text of a scalar; none for arrays and tables. -/
def scalarText? : Toml → Option String
  | string s => some s
  | integer n => some (integerText n)
  | float x => some x.text
  | boolean b => some (if b then "true" else "false")
  | moment m => some m.text
  | array _ => none
  | table _ _ => none
  | tables _ => none

end Toml

end DocumentDb
