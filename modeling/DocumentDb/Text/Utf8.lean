/-! # UTF-8

Text as bytes and back. `decode?` refuses ill-formed input; `decodeLossy` puts one replacement
character for each longest run of bytes that begins a well-formed sequence and is cut short, and for
each byte that begins none.

* `Utf8.decode?_eq_some_iff`: decoding accepts exactly what encoding produces.
* `Utf8.encode_append`: texts are encoded piece by piece.
-/

namespace DocumentDb.Utf8

/-- The bytes of a text. -/
def encode (s : String) : List UInt8 := s.toUTF8.data.toList

/-- The text with these bytes, if they are well formed. -/
def decode? (bytes : List UInt8) : Option String :=
  String.fromUTF8? (ByteArray.mk bytes.toArray)

theorem decode?_encode (s : String) : decode? (encode s) = some s :=
  dif_pos s.isValidUTF8

/-- Decoding accepts exactly what encoding produces. -/
theorem decode?_eq_some_iff {bytes : List UInt8} {s : String} :
    decode? bytes = some s ↔ bytes = encode s := by
  refine ⟨fun h => ?_, fun h => h ▸ decode?_encode s⟩
  unfold decode? String.fromUTF8? at h
  split at h
  · obtain rfl := Option.some.inj h
    simp [encode, String.fromUTF8]
  · simp at h

theorem encode_append (s t : String) : encode (s ++ t) = encode s ++ encode t := by
  simp [encode]

/-- The character put in the place of ill-formed bytes. -/
def replacement : Char := '\uFFFD'

/-- What a decoder knows between two bytes. -/
inductive State where
  /-- At the start of a character. -/
  | fresh
  /-- Inside a character: its bits so far, the bytes still to come, and the range of the next. -/
  | partway (bits more : Nat) (low high : Nat)

/-- The state after a first byte, or the character that the byte is; none for a byte that begins
no character. -/
def begin (b : Nat) : Option (State ⊕ Char) :=
  if b ≤ 0x7F then some (.inr (Char.ofNat b))
  else if 0xC2 ≤ b ∧ b ≤ 0xDF then some (.inl (.partway (b - 0xC0) 1 0x80 0xBF))
  else if b = 0xE0 then some (.inl (.partway 0 2 0xA0 0xBF))
  else if b = 0xED then some (.inl (.partway 0xD 2 0x80 0x9F))
  else if 0xE1 ≤ b ∧ b ≤ 0xEF then some (.inl (.partway (b - 0xE0) 2 0x80 0xBF))
  else if b = 0xF0 then some (.inl (.partway 0 3 0x90 0xBF))
  else if 0xF1 ≤ b ∧ b ≤ 0xF3 then some (.inl (.partway (b - 0xF0) 3 0x80 0xBF))
  else if b = 0xF4 then some (.inl (.partway 4 3 0x80 0x8F))
  else none

/-- The state and the characters that follow from one byte at the start of a character. -/
def start (b : Nat) : State × List Char :=
  match begin b with
  | some (.inl s) => (s, [])
  | some (.inr c) => (.fresh, [c])
  | none => (.fresh, [replacement])

/-- The state and the characters that follow from one byte. -/
def step : State → Nat → State × List Char
  | .fresh, b => start b
  | .partway bits more low high, b =>
    if low ≤ b ∧ b ≤ high then
      let bits := 64 * bits + (b - 0x80)
      if more ≤ 1 then (.fresh, [Char.ofNat bits]) else (.partway bits (more - 1) 0x80 0xBF, [])
    else
      let (s, cs) := start b
      (s, replacement :: cs)

/-- The characters of the bytes that are read from a state on. -/
def decodeFrom : State → List UInt8 → List Char
  | .fresh, [] => []
  | .partway .., [] => [replacement]
  | s, b :: rest =>
    let (s', cs) := step s b.toNat
    cs ++ decodeFrom s' rest

/-- The text of some bytes, with replacement characters where they are ill formed. -/
def decodeLossy (bytes : List UInt8) : String :=
  String.ofList (decodeFrom .fresh bytes)

end DocumentDb.Utf8
