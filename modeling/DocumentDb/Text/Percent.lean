import DocumentDb.Text.Hex
import DocumentDb.Text.Split
import DocumentDb.Text.Utf8

/-! # Percent decoding and query strings

* `Percent.bytes`: the bytes of a text in which `%` and two hexadecimal digits stand for a byte; a
  `%` without them stands for itself.
* `Percent.decode?`: the same bytes as a text, if they are well formed.
* `Percent.pairs`: the keys and values of a query string.
-/

namespace DocumentDb.Percent

/-- The byte that three bytes stand for, if they are a `%` and two hexadecimal digits. -/
def escaped? (b high low : UInt8) : Option UInt8 := do
  guard (b = 0x25)
  let h ← Hex.value? (Char.ofNat high.toNat)
  let l ← Hex.value? (Char.ofNat low.toNat)
  return UInt8.ofNat (16 * h + l)

/-- Resolves the escapes of a list of bytes. -/
def unescape : List UInt8 → List UInt8
  | b :: h :: l :: rest =>
    match escaped? b h l with
    | some c => c :: unescape rest
    | none => b :: unescape (h :: l :: rest)
  | bytes => bytes

/-- The bytes of a text with its escapes resolved. -/
def bytes (s : String) : List UInt8 := unescape (Utf8.encode s)

/-- The text with its escapes resolved, if the bytes are well formed. -/
def decode? (s : String) : Option String := Utf8.decode? (bytes s)

/-- One side of a pair in a query string: a plus sign stands for a blank. -/
def component (cs : List Char) : String :=
  Utf8.decodeLossy (bytes (String.ofList (cs.map fun c => if c = '+' then ' ' else c)))

/-- One pair of a query string; the value is empty where no equals sign stands. -/
def pair (cs : List Char) : String × String :=
  let (key, value) := Text.cut '=' cs
  (component key, component (value.getD []))

/-- The pairs of a query string in order, the empty ones left out. -/
def pairs (query : String) : List (String × String) :=
  ((Text.pieces '&' query.toList).filter (!·.isEmpty)).map pair

end DocumentDb.Percent
