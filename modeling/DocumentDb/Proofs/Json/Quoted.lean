import DocumentDb.Json.Printer
import DocumentDb.Json.Scan
import Mathlib.Tactic.SplitIfs

/-! # Quoted strings read back

A string is written with an escape for the quote, for the backslash and for the characters below the
blank. Whatever follows, scanning finds the end of the string and the characters that were written.

* `Json.scanChars_escape`: one character.
* `Json.scanString_quoted`: a string.
* `Json.quote_append_inj`: where one string ends in a text is determined by the text.
-/

namespace DocumentDb.Json

theorem length_padded_of_lt {n : Nat} (h : n < 0x20) : (Hex.padded 4 n).length = 4 :=
  (by decide : ∀ n < 0x20, (Hex.padded 4 n).length = 4) n h

theorem scanHex_append {ds : List Char} (hlen : ds.length = 4) (rest : List Char) :
    scanHex (ds ++ rest) = (Hex.number? ds).map (·, rest) := by
  match ds, hlen with
  | [a, b, c, d], _ => rfl

variable (rules : Rules) {rest : List Char}

theorem scanEscape_control {c : Char} (h : c.toNat < 0x20) :
    scanEscape rules ('u' :: Hex.padded 4 c.toNat ++ rest) = some (c, rest) := by
  have hscan : scanHex (Hex.padded 4 c.toNat ++ rest) = some (c.toNat, rest) := by
    rw [scanHex_append (length_padded_of_lt h), Hex.number?_padded]
    rfl
  have hplain : c.toNat < 0xD800 ∨ 0xDFFF < c.toNat := .inl (by omega)
  simp only [scanEscape, List.cons_append, if_true]
  rw [hscan]
  simp only [Option.bind_eq_bind, Option.bind_some, if_pos hplain, Char.ofNat_toNat]
  rfl

theorem scanChars_backslash {fuel : Nat} {cs : List Char} {c : Char}
    (h : scanEscape rules cs = some (c, rest)) :
    scanChars rules (fuel + 1) ('\\' :: cs) =
      (scanChars rules fuel rest).map fun (s, rest) => (c :: s, rest) := by
  have hbackslash : ('\\' = '"') = False := by decide
  simp only [scanChars, hbackslash, if_false, if_true]
  rw [h]
  show (scanChars rules fuel rest >>= _) = _
  cases scanChars rules fuel rest <;> rfl

/-- An escaped character takes one step to read. -/
theorem scanChars_escape (fuel : Nat) (c : Char) :
    scanChars rules (fuel + 1) (escape c ++ rest) =
      (scanChars rules fuel rest).map fun (s, rest) => (c :: s, rest) := by
  unfold escape
  split_ifs with hquote hbackslash hback hform hline hreturn htab hcontrol
  · subst hquote
    exact scanChars_backslash rules rfl
  · subst hbackslash
    exact scanChars_backslash rules rfl
  · subst hback
    exact scanChars_backslash rules rfl
  · subst hform
    exact scanChars_backslash rules rfl
  · subst hline
    exact scanChars_backslash rules rfl
  · subst hreturn
    exact scanChars_backslash rules rfl
  · subst htab
    exact scanChars_backslash rules rfl
  · exact scanChars_backslash rules (scanEscape_control rules hcontrol)
  · simp only [List.singleton_append, scanChars, hquote, hbackslash, hcontrol, if_false]
    cases scanChars rules fuel rest <;> rfl

theorem scanChars_quoted {fuel : Nat} {s : List Char} (h : s.length < fuel) :
    scanChars rules fuel (s.flatMap escape ++ '"' :: rest) = some (s, rest) := by
  induction s generalizing fuel with
  | nil =>
    match fuel, h with
    | fuel + 1, _ => rfl
  | cons c s ih =>
    match fuel, h with
    | fuel + 1, h =>
      rw [List.flatMap_cons, List.append_assoc, scanChars_escape, ih (Nat.lt_of_succ_lt_succ h)]
      rfl

theorem length_le_flatMap_escape (s : List Char) : s.length ≤ (s.flatMap escape).length := by
  induction s with
  | nil => exact Nat.le_refl 0
  | cons c s ih =>
    have hone : 1 ≤ (escape c).length := by
      unfold escape
      split_ifs <;> simp
    rw [List.flatMap_cons, List.length_append, List.length_cons]
    omega

/-- A quoted string reads back, behind its opening quote, with what follows it. -/
theorem scanString_quoted (s : String) :
    scanString rules (s.toList.flatMap escape ++ '"' :: rest) = some (s, rest) := by
  have hlen := length_le_flatMap_escape s.toList
  have hfuel : s.toList.length < (s.toList.flatMap escape ++ '"' :: rest).length + 1 := by
    rw [List.length_append]
    omega
  unfold scanString
  rw [scanChars_quoted rules hfuel]
  simp

theorem quote_append_inj {s t : String} {r r' : List Char} (h : quote s ++ r = quote t ++ r') :
    s = t ∧ r = r' := by
  have hscan : ∀ (s : String) (r : List Char),
      scanString Rules.strict ((quote s ++ r).drop 1) = some (s, r) := by
    intro s r
    have hbody : (quote s ++ r).drop 1 = s.toList.flatMap escape ++ '"' :: r := by
      simp [quote]
    rw [hbody, scanString_quoted]
  have hsame := hscan s r
  rw [h, hscan t r'] at hsame
  cases hsame
  exact ⟨rfl, rfl⟩

end DocumentDb.Json
