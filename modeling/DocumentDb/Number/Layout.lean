import DocumentDb.Number.Shortest
import DocumentDb.Text.Numeral

/-! # Written forms of floating-point numbers

A `Layout` holds the decisions of one format; `Binary64.render` writes the shortest decimal in it.
-/

namespace DocumentDb

/-- The decisions of a format for floating-point numbers. -/
structure Layout where
  /-- Which of two equally near shortest decimals is written. -/
  tie : Tie
  /-- The least and the greatest exponent of the first digit that are written without an exponent;
  all of them where there is none. -/
  positional : Option (Int × Int)
  /-- Whether a whole number is written with one zero after the point. -/
  pointZero : Bool

namespace Decimal

/-- The digits with the point put after the digit of exponent zero. -/
def positionalText (pointZero : Bool) (ds : List Char) (lead : Int) : List Char :=
  if lead < 0 then '0' :: '.' :: List.replicate (-lead - 1).toNat '0' ++ ds
  else
    let whole := lead.toNat + 1
    if ds.length ≤ whole then
      ds ++ List.replicate (whole - ds.length) '0' ++ (if pointZero then ['.', '0'] else [])
    else ds.take whole ++ '.' :: ds.drop whole

/-- The first digit, the others after a point, and the exponent with its sign. -/
def scientificText (ds : List Char) (lead : Int) : List Char :=
  let fraction := if ds.length ≤ 1 then [] else '.' :: ds.drop 1
  ds.take 1 ++ fraction ++ ['e', if lead < 0 then '-' else '+'] ++ Numeral.digits lead.natAbs

end Decimal

/-- The text of a number in a format. -/
def Binary64.render (layout : Layout) (x : Binary64) : List Char :=
  let d := Decimal.shortest layout.tie x
  let ds := Numeral.digits d.digits
  let lead := d.exponent + Int.ofNat ds.length - 1
  let positional :=
    match layout.positional with
    | none => true
    | some (least, greatest) => decide (least ≤ lead ∧ lead ≤ greatest)
  let body :=
    if positional then Decimal.positionalText layout.pointZero ds lead
    else Decimal.scientificText ds lead
  if x.negative then '-' :: body else body

end DocumentDb
