import DocumentDb.Number.Binary64

/-! # Shortest decimals

The decimal with the fewest digits that rounds back to a floating-point number and, of several, the
one nearest to it. The numbers that round to `m * 2 ^ e` form an interval around it, ends included
when `m` is even; on a decimal grid that meets the interval, one of the two neighbours of the number
lies in it.
-/

namespace DocumentDb

/-- The number `digits * 10 ^ exponent`. -/
structure Decimal where
  digits : Nat
  exponent : Int
deriving DecidableEq

/-- Which of two neighbours at the same distance is taken. -/
inductive Tie where
  | toEven
  | up
deriving DecidableEq

namespace Decimal

/-- The decimal without trailing zeros among its digits; `fuel` bounds their number. -/
def trim : Nat → Decimal → Decimal
  | 0, d => d
  | fuel + 1, d =>
    if d.digits ≠ 0 ∧ d.digits % 10 = 0 then trim fuel ⟨d.digits / 10, d.exponent + 1⟩ else d

/-- A power with an integer exponent as a numerator and a denominator. -/
def power (base : Nat) (e : Int) : Nat × Nat :=
  if 0 ≤ e then (Nat.pow base e.toNat, 1) else (1, Nat.pow base (-e).toNat)

/-- The number of decimal places, `fuel` at most, that a ratio below one has to be moved by to reach
one. -/
def placesBelowOne : Nat → Nat → Nat → Nat
  | 0, _, _ => 0
  | fuel + 1, num, den => if den ≤ num then 0 else placesBelowOne fuel (10 * num) den + 1

/-- The decimal exponent of the first digit of a positive ratio. -/
def leadingExponent (num den : Nat) : Int :=
  if den ≤ num then Int.ofNat (Nat.toDigits 10 (num / den)).length - 1
  else -Int.ofNat (placesBelowOne 400 num den)

/-- The neighbour of a number on the grid of the multiples of `10 ^ k` that rounds back to it and is
nearer, if one does. -/
def onGrid? (tie : Tie) (x : Binary64) (k : Int) : Option Decimal :=
  let (twoNum, twoDen) := power 2 (x.exponent - 2)
  let (tenNum, tenDen) := power 10 k
  let unit := tenNum * twoDen
  let quarter := twoNum * tenDen
  let value := 4 * x.mantissa * quarter
  let below :=
    if x.mantissa = Binary64.leastMantissa ∧ Binary64.minExponent < x.exponent then 1 else 2
  let low := (4 * x.mantissa - below) * quarter
  let high := (4 * x.mantissa + 2) * quarter
  let inside (c : Nat) : Bool :=
    if x.mantissa % 2 = 0 then low ≤ c * unit && c * unit ≤ high
    else low < c * unit && c * unit < high
  let a := value / unit
  let toLower := value - a * unit
  let toUpper := (a + 1) * unit - value
  let lowerWins :=
    toLower < toUpper || (toLower == toUpper && tie == .toEven && a % 2 == 0)
  match inside a, inside (a + 1) with
  | true, true => some ⟨if lowerWins then a else a + 1, k⟩
  | true, false => some ⟨a, k⟩
  | false, true => some ⟨a + 1, k⟩
  | false, false => none

/-- The shortest decimal of a number, its sign apart. -/
def shortest (tie : Tie) (x : Binary64) : Decimal :=
  if x.mantissa = 0 then ⟨0, 0⟩
  else
    let (num, den) := x.ratio
    let lead := leadingExponent num den
    let found := (List.range 17).findSome? fun n => onGrid? tie x (lead - Int.ofNat n)
    trim 20 (found.getD ⟨0, 0⟩)

end Decimal

end DocumentDb
