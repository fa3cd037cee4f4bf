import DocumentDb.Json.Basic
import DocumentDb.Text.Hex

/-! # Leaves of the JSON grammar

Scanners for the parts of a JSON text that do not nest. Each takes the characters that are left and
returns what it read with the characters behind it.

* `Json.scanString`: the characters of a string, behind its opening quote.
* `Json.scanNumeral`: the digits of a number in three groups.
* `Json.Spelling.value?`: the number that such digits spell.
-/

namespace DocumentDb.Json

/-- How closely a text is examined. -/
structure Rules where
  /-- How deep arrays and objects may nest. -/
  depth : Nat
  /-- Whether numbers have to be in range, escaped surrogates have to come in pairs and embedded
  texts have to spell a value. -/
  checked : Bool

/-- The rules for values that are kept. -/
def Rules.strict : Rules := ⟨127, true⟩

/-- The rules for values that are passed over: only their shape counts. -/
def Rules.shape (text : List Char) : Rules := ⟨text.length, false⟩

/-- Whether a character may stand between the parts of a text. -/
def isBlank (c : Char) : Bool := c = ' ' || c = '\t' || c = '\n' || c = '\r'

/-- The characters behind the blanks. -/
def skipBlank (cs : List Char) : List Char := cs.dropWhile isBlank

/-- The characters behind a word, if they begin with it. -/
def dropWord : List Char → List Char → Option (List Char)
  | [], cs => some cs
  | w :: word, c :: cs => if w = c then dropWord word cs else none
  | _ :: _, [] => none

/-! ## Strings -/

/-- The character that a single letter behind a backslash stands for. -/
def simpleEscape? (c : Char) : Option Char :=
  if c = '"' ∨ c = '\\' ∨ c = '/' then some c
  else if c = 'b' then some '\x08'
  else if c = 'f' then some '\x0c'
  else if c = 'n' then some '\n'
  else if c = 'r' then some '\r'
  else if c = 't' then some '\t'
  else none

/-- The number that four hexadecimal digits spell. -/
def scanHex : List Char → Option (Nat × List Char)
  | a :: b :: c :: d :: rest => (Hex.number? [a, b, c, d]).map (·, rest)
  | _ => none

/-- The character behind the first half of a surrogate pair. -/
def scanPair (high : Nat) (cs : List Char) : Option (Char × List Char) := do
  let rest ← dropWord ['\\', 'u'] cs
  let (low, rest) ← scanHex rest
  guard (0xDC00 ≤ low ∧ low ≤ 0xDFFF)
  return (Char.ofNat (0x10000 + (high - 0xD800) * 0x400 + (low - 0xDC00)), rest)

/-- The character of an escape, behind its backslash. -/
def scanEscape (rules : Rules) : List Char → Option (Char × List Char)
  | [] => none
  | c :: cs =>
    if c = 'u' then do
      let (n, rest) ← scanHex cs
      if n < 0xD800 ∨ 0xDFFF < n then return (Char.ofNat n, rest)
      else if !rules.checked then return ('\uFFFD', rest)
      else if n ≤ 0xDBFF then scanPair n rest
      else none
    else (simpleEscape? c).map (·, cs)

/-- The characters of a string up to its closing quote; `fuel` bounds their number. -/
def scanChars (rules : Rules) : Nat → List Char → Option (List Char × List Char)
  | 0, _ => none
  | _ + 1, [] => none
  | fuel + 1, c :: cs =>
    if c = '"' then some ([], cs)
    else if c = '\\' then do
      let (e, rest) ← scanEscape rules cs
      let (s, rest) ← scanChars rules fuel rest
      return (e :: s, rest)
    else if c.toNat < 0x20 then none
    else do
      let (s, rest) ← scanChars rules fuel cs
      return (c :: s, rest)

/-- A string, behind its opening quote. -/
def scanString (rules : Rules) (cs : List Char) : Option (String × List Char) :=
  (scanChars rules (cs.length + 1) cs).map fun (s, rest) => (String.ofList s, rest)

/-! ## Numbers -/

/-- The digits of a number: before the point, behind it, and those of the exponent with its sign. -/
structure Spelling where
  integer : List Char
  fraction : Option (List Char)
  exponent : Option (Bool × List Char)

/-- The leading digits, of which there has to be one. -/
def scanDigits (cs : List Char) : Option (List Char × List Char) :=
  let ds := cs.takeWhile Char.isDigit
  if ds.isEmpty then none else some (ds, cs.dropWhile Char.isDigit)

/-- The digits behind a point, if there is one. -/
def scanFraction : List Char → Option (Option (List Char) × List Char)
  | '.' :: cs => (scanDigits cs).map fun (ds, rest) => (some ds, rest)
  | cs => some (none, cs)

/-- The sign of an exponent, true for a minus. -/
def scanSign : List Char → Bool × List Char
  | '+' :: cs => (false, cs)
  | '-' :: cs => (true, cs)
  | cs => (false, cs)

/-- The exponent, if there is one. -/
def scanExponent : List Char → Option (Option (Bool × List Char) × List Char)
  | [] => some (none, [])
  | c :: cs =>
    if c = 'e' ∨ c = 'E' then
      let (negative, rest) := scanSign cs
      (scanDigits rest).map fun (ds, rest) => (some (negative, ds), rest)
    else some (none, c :: cs)

/-- The digits of a number behind its sign. A zero before the point stands alone. -/
def scanNumeral (cs : List Char) : Option (Spelling × List Char) := do
  let (integer, rest) ← scanDigits cs
  guard (integer.head? ≠ some '0' ∨ integer.length = 1)
  let (fraction, rest) ← scanFraction rest
  let (exponent, rest) ← scanExponent rest
  return (⟨integer, fraction, exponent⟩, rest)

namespace Spelling

/-- The leading digits taken into a number of 64 bits as far as they fit, and the digits left. -/
def takeFitting : Nat → List Char → Nat × List Char
  | n, [] => (n, [])
  | n, c :: cs =>
    let n' := 10 * n + (c.toNat - '0'.toNat)
    if n' ≤ Numeral.max64 then takeFitting n' cs else (n, c :: cs)

/-- A whole number: floating-point if it is a negative zero or beyond the range of integers. -/
def whole (negative : Bool) (n : Nat) : Number :=
  if !negative then .nat n
  else if 0 < n ∧ n ≤ Numeral.maxSigned64 + 1 then .neg n
  else .float ((Binary64.ofNat n).withSign true)

/-- The greatest exponent that is computed with. -/
def maxExponent : Nat := 2147483647

/-- The value of a significand and its exponent after the written exponent is added. -/
def scaled? (significand : Nat) (exponent : Int) : Option (Bool × List Char) → Option Binary64
  | none => Binary64.ofScaled? significand exponent
  | some (negative, ds) =>
    let e := Nat.ofDigitChars 10 ds 0
    if e ≤ maxExponent then
      Binary64.ofScaled? significand (if negative then exponent - e else exponent + e)
    else if negative || significand == 0 then some (Binary64.zero false)
    else none

/-- The number that the digits spell, unless it is out of range. A number with a fraction, an
exponent or too many digits is floating-point; digits beyond the significand only count as
places. -/
def value? (negative : Bool) (d : Spelling) : Option Number :=
  let (n, more) := takeFitting 0 d.integer
  if d.fraction.isNone && d.exponent.isNone && more.isEmpty then some (whole negative n)
  else
    let fraction := d.fraction.getD []
    let (significand, beyond) := takeFitting n fraction
    let exponent : Int :=
      Int.ofNat more.length - Int.ofNat (fraction.length - beyond.length)
    (scaled? significand exponent d.exponent).map fun x => .float (x.withSign negative)

end Spelling

/-- A number behind its sign. -/
def scanNumber (rules : Rules) (negative : Bool) (cs : List Char) :
    Option (Number × List Char) := do
  let (d, rest) ← scanNumeral cs
  if rules.checked then
    let n ← d.value? negative
    return (n, rest)
  else return (.nat 0, rest)

end DocumentDb.Json
