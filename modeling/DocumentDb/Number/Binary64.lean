/-! # Finite 64-bit floating-point numbers

A number is a sign and a multiple of a power of two, computed with exact natural arithmetic.

* `Binary64.ofRatio?`: the number nearest to a ratio, a tie going to the even mantissa; none when
  the nearest would be infinite.
* `Binary64.mul?`, `Binary64.div?`: arithmetic on magnitudes, rounded once.
* `Binary64.ofDecimal?`: a decimal rounded once.
* `Binary64.ofScaled?`: a significand scaled by powers of ten in floating-point steps.
-/

namespace DocumentDb

/-- The number `± mantissa * 2 ^ exponent`, where the mantissa has 53 bits or the exponent is the
least one. -/
structure Binary64 where
  negative : Bool
  mantissa : Nat
  exponent : Int
deriving DecidableEq

namespace Binary64

/-- The exponent of the smallest numbers. -/
def minExponent : Int := -1074

/-- The exponent of the greatest numbers. -/
def maxExponent : Int := 971

/-- The smallest mantissa of 53 bits. -/
def leastMantissa : Nat := 4503599627370496

/-- Zero of either sign. -/
def zero (negative : Bool) : Binary64 := ⟨negative, 0, minExponent⟩

instance : Inhabited Binary64 := ⟨zero false⟩

/-- The number with the given sign. -/
def withSign (negative : Bool) (x : Binary64) : Binary64 := { x with negative }

/-! ## Rounding -/

/-- A quotient rounded to the nearest integer, a tie going to the even one. -/
def roundDiv (num den : Nat) : Nat :=
  let q := num / den
  let r := num % den
  if 2 * r < den then q
  else if den < 2 * r then q + 1
  else if q % 2 = 0 then q
  else q + 1

/-- The ratio `num / (den * 2 ^ e)` as a numerator and a denominator. -/
def unscale (num den : Nat) (e : Int) : Nat × Nat :=
  if 0 ≤ e then (num, den * Nat.pow 2 e.toNat) else (num * Nat.pow 2 (-e).toNat, den)

/-- The exponent at which a positive ratio has a mantissa of 53 bits, or the least exponent. -/
def exponentOf (num den : Nat) : Int :=
  let e : Int := Int.ofNat (Nat.log2 num) - Int.ofNat (Nat.log2 den) - 52
  let (n, d) := unscale num den e
  max minExponent (if n / d < leastMantissa then e - 1 else e)

/-- The number nearest to a ratio, unless it is infinite. -/
def ofRatio? (num den : Nat) : Option Binary64 :=
  if num = 0 then some (zero false)
  else
    let e := exponentOf num den
    let (n, d) := unscale num den e
    let m := roundDiv n d
    let (m, e) := if m = 2 * leastMantissa then (leastMantissa, e + 1) else (m, e)
    if maxExponent < e then none else some ⟨false, m, e⟩

/-- The magnitude of a number as a numerator and a denominator. -/
def ratio (x : Binary64) : Nat × Nat :=
  if 0 ≤ x.exponent then (x.mantissa * Nat.pow 2 x.exponent.toNat, 1)
  else (x.mantissa, Nat.pow 2 (-x.exponent).toNat)

/-! ## Arithmetic on magnitudes -/

/-- The rounded product of two magnitudes. -/
def mul? (x y : Binary64) : Option Binary64 :=
  let (xn, xd) := x.ratio
  let (yn, yd) := y.ratio
  ofRatio? (xn * yn) (xd * yd)

/-- The rounded quotient of two magnitudes. -/
def div? (x y : Binary64) : Option Binary64 :=
  let (xn, xd) := x.ratio
  let (yn, yd) := y.ratio
  ofRatio? (xn * yd) (xd * yn)

/-- The number nearest to a natural number below the range's end. -/
def ofNat (n : Nat) : Binary64 := (ofRatio? n 1).getD (zero false)

/-- The number nearest to a power of ten up to the 308th. -/
def powerOfTen (n : Nat) : Binary64 := ofNat (Nat.pow 10 n)

/-! ## Decimals -/

/-- The number nearest to `digits * 10 ^ exponent`, unless it is infinite. -/
def ofDecimal? (digits : Nat) (exponent : Int) : Option Binary64 :=
  if digits = 0 then some (zero false)
  else
    let top := Int.ofNat (Nat.log2 digits / 3) + exponent
    let low := Int.ofNat (Nat.log2 digits / 4) + exponent
    if 400 < low then none
    else if top < -400 then some (zero false)
    else if 0 ≤ exponent then ofRatio? (digits * Nat.pow 10 exponent.toNat) 1
    else ofRatio? digits (Nat.pow 10 (-exponent).toNat)

/-- A number divided some times by the greatest power of ten in the range, or zero once it is
reached. -/
def lowerBlocks : Nat → Binary64 → Option Binary64
  | 0, x => some x
  | n + 1, x =>
    if x.mantissa = 0 then some x else (x.div? (powerOfTen 308)).bind (lowerBlocks n)

/-- A number divided by a power of ten, at most 308 decimal places at a time. -/
def lower (x : Binary64) (places : Nat) : Option Binary64 := do
  let blocks := (places - 1) / 308
  let y ← lowerBlocks blocks x
  y.div? (powerOfTen (places - 308 * blocks))

/-- A significand of 64 bits scaled by a power of ten in floating-point steps, unless the outcome is
infinite. -/
def ofScaled? (significand : Nat) (exponent : Int) : Option Binary64 :=
  let x := ofNat significand
  if exponent < 0 then x.lower (-exponent).toNat
  else if exponent ≤ 308 then x.mul? (powerOfTen exponent.toNat)
  else if x.mantissa = 0 then some x
  else none

end Binary64

end DocumentDb
