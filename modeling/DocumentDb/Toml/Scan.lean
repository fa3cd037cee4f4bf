import DocumentDb.Text.Hex
import DocumentDb.Toml.Basic

/-! # Leaves of the TOML grammar

Scanners for the parts of a TOML text that do not nest. Each takes the characters that are left and
returns what it read with the characters behind it.

* `Toml.skipLine`, `Toml.skipLines`: blanks, comments and line ends.
* `Toml.scanString`, `Toml.scanKey`: the four kinds of strings, and keys with dots.
* `Toml.scanMoment`, `Toml.scanFloat`, `Toml.scanInteger`: dates, times and numbers.
-/

namespace DocumentDb.Toml

/-! ## Blanks, comments and line ends -/

/-- Whether a character is a blank inside a line. -/
def isBlank (c : Char) : Bool := c = ' ' || c = '\t'

/-- The characters behind the blanks. -/
def skipBlank (cs : List Char) : List Char := cs.dropWhile isBlank

/-- Whether a character may stand in a comment. -/
def isPlain (c : Char) : Bool := c = '\t' || (0x20 ≤ c.toNat && c.toNat ≠ 0x7F)

/-- The characters behind a line end. -/
def scanNewline : List Char → Option (List Char)
  | '\n' :: cs => some cs
  | '\r' :: '\n' :: cs => some cs
  | _ => none

/-- The characters behind a comment. -/
def skipComment (cs : List Char) : List Char := cs.dropWhile isPlain

/-- The characters behind the rest of a line, which may hold a comment. -/
def skipLine (cs : List Char) : Option (List Char) :=
  let cs := skipBlank cs
  let cs := if cs.head? = some '#' then skipComment cs else cs
  if cs.isEmpty then some [] else scanNewline cs

/-- The characters behind blanks, comments and line ends; `fuel` bounds the number of lines. -/
def skipLinesFor : Nat → List Char → Option (List Char)
  | 0, _ => none
  | fuel + 1, cs =>
    match skipBlank cs with
    | '#' :: cs => (scanNewline (skipComment cs)).bind (skipLinesFor fuel)
    | '\n' :: cs => skipLinesFor fuel cs
    | '\r' :: cs => (scanNewline ('\r' :: cs)).bind (skipLinesFor fuel)
    | cs => some cs

/-- The characters behind blanks, comments and line ends. -/
def skipLines (cs : List Char) : Option (List Char) := skipLinesFor (cs.length + 1) cs

/-! ## Strings -/

/-- The character that a letter behind a backslash stands for. -/
def simpleEscape? : Char → Option Char
  | 'b' => some '\x08'
  | 't' => some '\t'
  | 'n' => some '\n'
  | 'f' => some '\x0c'
  | 'r' => some '\r'
  | '"' => some '"'
  | '\\' => some '\\'
  | _ => none

/-- The character whose code point so many hexadecimal digits spell. -/
def scanCodePoint (width : Nat) (cs : List Char) : Option (Char × List Char) := do
  let ds := cs.take width
  guard (ds.length = width)
  let n ← Hex.number? ds
  guard n.isValidChar
  return (Char.ofNat n, cs.drop width)

/-- The character of an escape, behind its backslash. -/
def scanEscape : List Char → Option (Char × List Char)
  | 'u' :: cs => scanCodePoint 4 cs
  | 'U' :: cs => scanCodePoint 8 cs
  | c :: cs => (simpleEscape? c).map (·, cs)
  | [] => none

/-- The characters of a string in one line up to its closing quote; `fuel` bounds their number. -/
def scanInLine (quote : Char) (escapes : Bool) : Nat → List Char → Option (List Char × List Char)
  | 0, _ => none
  | _ + 1, [] => none
  | fuel + 1, c :: cs =>
    if c = quote then some ([], cs)
    else if c = '\\' ∧ escapes then do
      let (e, rest) ← scanEscape cs
      let (s, rest) ← scanInLine quote escapes fuel rest
      return (e :: s, rest)
    else if isPlain c then do
      let (s, rest) ← scanInLine quote escapes fuel cs
      return (c :: s, rest)
    else none

/-- The characters behind blanks and line ends; `fuel` bounds the number of lines. -/
def skipBlankLines : Nat → List Char → List Char
  | 0, cs => cs
  | fuel + 1, cs =>
    let cs := skipBlank cs
    match scanNewline cs with
    | some rest => skipBlankLines fuel rest
    | none => cs

/-- The characters behind a backslash at the end of a line: the blanks and line ends up to the next
other character are left out. -/
def scanContinuation (cs : List Char) : Option (List Char) :=
  (scanNewline (skipBlank cs)).map fun rest => skipBlankLines (rest.length + 1) rest

/-- The characters of a string of several lines up to its closing quotes. Fewer than three quotes
may stand inside, also right before the closing ones. -/
def scanAcrossLines (quote : Char) (escapes : Bool) :
    Nat → List Char → Option (List Char × List Char)
  | 0, _ => none
  | _ + 1, [] => none
  | fuel + 1, c :: cs =>
    if c = quote then
      let run := 1 + (cs.takeWhile (· = quote)).length
      if run < 3 then do
        let (s, rest) ← scanAcrossLines quote escapes fuel cs
        return (c :: s, rest)
      else
        let inside := min (run - 3) 2
        some (List.replicate inside quote, cs.drop (inside + 2))
    else if c = '\\' ∧ escapes then
      match scanEscape cs with
      | some (e, rest) => do
        let (s, rest) ← scanAcrossLines quote escapes fuel rest
        return (e :: s, rest)
      | none => do
        let rest ← scanContinuation cs
        scanAcrossLines quote escapes fuel rest
    else if isPlain c then do
      let (s, rest) ← scanAcrossLines quote escapes fuel cs
      return (c :: s, rest)
    else do
      let rest ← scanNewline (c :: cs)
      let (s, rest) ← scanAcrossLines quote escapes fuel rest
      return ('\n' :: s, rest)

/-- A string in one line. -/
def scanShortString : List Char → Option (List Char × List Char)
  | '"' :: cs => scanInLine '"' true (cs.length + 1) cs
  | '\x27' :: cs => scanInLine '\x27' false (cs.length + 1) cs
  | _ => none

/-- The characters behind a line end right behind the opening quotes. -/
def dropNewline (cs : List Char) : List Char := (scanNewline cs).getD cs

/-- A string of either length. -/
def scanString : List Char → Option (List Char × List Char)
  | '"' :: '"' :: '"' :: cs => scanAcrossLines '"' true (cs.length + 1) (dropNewline cs)
  | '\x27' :: '\x27' :: '\x27' :: cs =>
    scanAcrossLines '\x27' false (cs.length + 1) (dropNewline cs)
  | cs => scanShortString cs

/-! ## Keys -/

/-- Whether a character may stand in a bare key. -/
def isBare (c : Char) : Bool := c.isAlphanum || c = '-' || c = '_'

/-- One part of a key. -/
def scanKeyPart (cs : List Char) : Option (String × List Char) :=
  match cs with
  | '"' :: _ => (scanShortString cs).map fun (s, rest) => (String.ofList s, rest)
  | '\x27' :: _ => (scanShortString cs).map fun (s, rest) => (String.ofList s, rest)
  | _ =>
    let s := cs.takeWhile isBare
    if s.isEmpty then none else some (String.ofList s, cs.dropWhile isBare)

/-- The parts of a key between dots, with blanks around them; `fuel` bounds their number. -/
def scanKeyFor : Nat → List Char → Option (List String × List Char)
  | 0, _ => none
  | fuel + 1, cs => do
    let (part, rest) ← scanKeyPart (skipBlank cs)
    match skipBlank rest with
    | '.' :: rest =>
      let (parts, rest) ← scanKeyFor fuel rest
      return (part :: parts, rest)
    | rest => return ([part], rest)

/-- How deep values and keys may nest. -/
def maxDepth : Nat := 79

/-- A key: the names on the way to it, and its own. -/
def scanKey (cs : List Char) : Option (List String × String × List Char) := do
  let (parts, rest) ← scanKeyFor maxDepth cs
  let name ← parts.getLast?
  return (parts.dropLast, name, rest)

/-! ## Dates and times -/

/-- The number that exactly so many digits spell, if it lies in a range. -/
def scanFixed (width low high : Nat) (cs : List Char) : Option (Nat × List Char) := do
  let ds := cs.take width
  guard (ds.length = width ∧ ds.all Char.isDigit)
  let n := Nat.ofDigitChars 10 ds 0
  guard (low ≤ n ∧ n ≤ high)
  return (n, cs.drop width)

/-- The characters behind one that is expected. -/
def scanChar (expected : Char) : List Char → Option (List Char)
  | [] => none
  | c :: cs => if c = expected then some cs else none

/-- Whether a year has a day more. -/
def isLeapYear (year : Nat) : Bool := year % 4 = 0 ∧ (year % 100 ≠ 0 ∨ year % 400 = 0)

/-- The number of days of a month. -/
def daysOf (year month : Nat) : Nat :=
  if month = 2 then (if isLeapYear year then 29 else 28)
  else if month ∈ [4, 6, 9, 11] then 30
  else 31

/-- A day. -/
def scanDate (cs : List Char) : Option (Date × List Char) := do
  let (year, cs) ← scanFixed 4 0 9999 cs
  let (month, cs) ← scanFixed 2 1 12 (← scanChar '-' cs)
  let (day, cs) ← scanFixed 2 1 31 (← scanChar '-' cs)
  guard (day ≤ daysOf year month)
  return (⟨year, month, day⟩, cs)

/-- The fraction of a second, of which nine digits are kept. -/
def scanSecondFraction : List Char → Option (List Char × List Char)
  | '.' :: cs =>
    let ds := cs.takeWhile Char.isDigit
    if ds.isEmpty then none else some (ds.take 9, cs.dropWhile Char.isDigit)
  | cs => some ([], cs)

/-- A time of day. -/
def scanTime (cs : List Char) : Option (Time × List Char) := do
  let (hour, cs) ← scanFixed 2 0 23 cs
  let (minute, cs) ← scanFixed 2 0 59 (← scanChar ':' cs)
  let (second, cs) ← scanFixed 2 0 60 (← scanChar ':' cs)
  let (fraction, cs) ← scanSecondFraction cs
  return (⟨hour, minute, second, fraction⟩, cs)

/-- A number of hours and minutes, in minutes. -/
def scanHours (cs : List Char) : Option (Nat × List Char) := do
  let (hours, cs) ← scanFixed 2 0 23 cs
  let (minutes, cs) ← scanFixed 2 0 59 (← scanChar ':' cs)
  return (60 * hours + minutes, cs)

/-- A distance from universal time, if there is one. -/
def scanOffset : List Char → Option (Option Offset × List Char)
  | 'Z' :: cs => some (some .universal, cs)
  | 'z' :: cs => some (some .universal, cs)
  | '+' :: cs => (scanHours cs).map fun (n, rest) => (some (.ofMinutes n), rest)
  | '-' :: cs => (scanHours cs).map fun (n, rest) => (some (.ofMinutes (-n)), rest)
  | cs => some (none, cs)

/-- A time behind a day, if there is one. -/
def scanTimeOfDay (d : Date) (cs : List Char) : Option (Moment × List Char) :=
  match cs with
  | [] => some (.date d, cs)
  | c :: rest =>
    if c = 'T' ∨ c = 't' ∨ c = ' ' then
      match scanTime rest with
      | none => if c = ' ' then some (.date d, cs) else none
      | some (t, rest) => (scanOffset rest).map fun (o, rest) => (.both d t o, rest)
    else some (.date d, cs)

/-- A moment. -/
def scanMoment (cs : List Char) : Option (Moment × List Char) :=
  match scanDate cs with
  | some (d, rest) => scanTimeOfDay d rest
  | none => (scanTime cs).map fun (t, rest) => (.time t, rest)

/-! ## Numbers -/

/-- Digits among which single underscores may stand. -/
def scanMoreDigits (isDigit : Char → Bool) : List Char → Option (List Char × List Char)
  | [] => some ([], [])
  | c :: cs =>
    if isDigit c then (scanMoreDigits isDigit cs).map fun (ds, rest) => (c :: ds, rest)
    else if c = '_' then
      match cs with
      | [] => none
      | d :: cs =>
        if isDigit d then (scanMoreDigits isDigit cs).map fun (ds, rest) => (d :: ds, rest)
        else none
    else some ([], c :: cs)

/-- One or more digits among which single underscores may stand. -/
def scanGrouped (isDigit : Char → Bool) (cs : List Char) : Option (List Char × List Char) := do
  let c ← cs.head?
  guard (isDigit c)
  scanMoreDigits isDigit cs

/-- A sign, true for a minus. -/
def scanSign : List Char → Bool × List Char
  | '+' :: cs => (false, cs)
  | '-' :: cs => (true, cs)
  | cs => (false, cs)

/-- The digits of a decimal integer; a zero at the front stands alone. -/
def scanDecimal (cs : List Char) : Option (List Char × List Char) :=
  match cs with
  | '0' :: rest => some (['0'], rest)
  | _ => scanGrouped Char.isDigit cs

/-- An integer of 64 bits from its sign and magnitude. -/
def int64? (negative : Bool) (n : Nat) : Option Toml :=
  if negative then (if n ≤ Numeral.maxSigned64 + 1 then some (.integer (-n)) else none)
  else if n ≤ Numeral.maxSigned64 then some (.integer n)
  else none

/-- An integer in a base that is a power of two, behind the letter of the base. -/
def scanRadix (base : Nat) (cs : List Char) : Option (Toml × List Char) := do
  let isDigit (c : Char) : Bool := (Hex.value? c).any (· < base)
  let (ds, rest) ← scanGrouped isDigit cs
  let n := ds.foldl (fun n c => base * n + (Hex.value? c).getD 0) 0
  return (← int64? false n, rest)

/-- An integer. -/
def scanInteger (cs : List Char) : Option (Toml × List Char) :=
  match cs with
  | '0' :: 'x' :: rest => scanRadix 16 rest
  | '0' :: 'o' :: rest => scanRadix 8 rest
  | '0' :: 'b' :: rest => scanRadix 2 rest
  | _ => do
    let (negative, rest) := scanSign cs
    let (ds, rest) ← scanDecimal rest
    return (← int64? negative (Nat.ofDigitChars 10 ds 0), rest)

/-- The exponent of a floating-point number, if there is one. -/
def scanExponent (cs : List Char) : Option (Option Int × List Char) :=
  match cs with
  | [] => some (none, cs)
  | c :: rest =>
    if c = 'e' ∨ c = 'E' then do
      let (negative, rest) := scanSign rest
      let (ds, rest) ← scanGrouped Char.isDigit rest
      let n := Int.ofNat (Nat.ofDigitChars 10 ds 0)
      return (some (if negative then -n else n), rest)
    else some (none, cs)

/-- The digits behind the point of a floating-point number, if there is one. -/
def scanFraction : List Char → Option (Option (List Char) × List Char)
  | '.' :: cs => (scanGrouped Char.isDigit cs).map fun (ds, rest) => (some ds, rest)
  | cs => some (none, cs)

/-- The number nearest to a decimal. One beyond the range is infinite if it is negative, and refused
if it is positive. -/
def real? (negative : Bool) (digits : Nat) (exponent : Int) : Option Real :=
  match Binary64.ofDecimal? digits exponent with
  | some x => some (.finite (x.withSign negative))
  | none => if negative then some (.infinite true) else none

/-- A floating-point number in digits, with a fraction or an exponent. -/
def scanDigitsFloat (cs : List Char) : Option (Real × List Char) := do
  let (negative, rest) := scanSign cs
  let (whole, rest) ← scanDecimal rest
  let (fraction, rest) ← scanFraction rest
  let (exponent, rest) ← scanExponent rest
  guard (fraction.isSome || exponent.isSome)
  let fraction := fraction.getD []
  let digits := Nat.ofDigitChars 10 (whole ++ fraction) 0
  let x ← real? negative digits (exponent.getD 0 - Int.ofNat fraction.length)
  return (x, rest)

/-- An infinity or not-a-number. -/
def scanSpecialFloat (cs : List Char) : Option (Real × List Char) :=
  let (negative, rest) := scanSign cs
  match rest with
  | 'i' :: 'n' :: 'f' :: rest => some (.infinite negative, rest)
  | 'n' :: 'a' :: 'n' :: rest => some (.nan, rest)
  | _ => none

/-- A floating-point number. -/
def scanFloat (cs : List Char) : Option (Toml × List Char) :=
  ((scanDigitsFloat cs).or (scanSpecialFloat cs)).map fun (x, rest) => (.float x, rest)

/-- A date, a time or a number. -/
def scanQuantity (cs : List Char) : Option (Toml × List Char) :=
  match scanMoment cs with
  | some (m, rest) => some (.moment m, rest)
  | none => (scanFloat cs).or (scanInteger cs)

end DocumentDb.Toml
