import DocumentDb.Proofs.Json.Alike

/-! # Texts without control characters

Strings are written with escapes for all characters below the blank, and nothing else brings such a
character into the text of a value.
-/

namespace DocumentDb.Json

/-- Whether a character is none of those that strings always escape. -/
def isPlain (c : Char) : Bool := 0x20 ≤ c.toNat

theorem isPlain_of_isNumberChar {c : Char} (h : isNumberChar c = true) : isPlain c = true := by
  simp only [isNumberChar, Bool.or_eq_true, decide_eq_true_eq] at h
  obtain (((hdigit | rfl) | rfl) | rfl) | rfl := h
  · have hlow : '0'.toNat ≤ c.toNat := (Char.isDigit_iff_toNat.1 hdigit).1
    exact decide_eq_true (Nat.le_trans (by decide) hlow)
  · decide
  · decide
  · decide
  · decide

theorem plain_padded {n : Nat} (h : n < 0x20) : (Hex.padded 4 n).all isPlain = true :=
  (by decide : ∀ n < 0x20, (Hex.padded 4 n).all isPlain = true) n h

theorem plain_escape (c : Char) : (escape c).all isPlain = true := by
  unfold escape
  split_ifs with hquote hbackslash hback hform hline hreturn htab hcontrol
  · decide
  · decide
  · decide
  · decide
  · decide
  · decide
  · decide
  · rw [List.all_append, plain_padded hcontrol]
    decide
  · have hc : isPlain c = true := decide_eq_true (Nat.le_of_not_lt hcontrol)
    simp only [List.all_cons, hc, List.all_nil, Bool.and_self]

theorem plain_quote (s : String) : (quote s).all isPlain = true := by
  have hquote : isPlain '"' = true := by decide
  have hbody : (s.toList.flatMap escape).all isPlain = true := by
    rw [List.all_flatMap, List.all_eq_true]
    exact fun c _ => plain_escape c
  simp only [quote, List.all_append, List.all_cons, hquote, hbody, List.all_nil, Bool.and_self]

theorem plain_number (n : Number) : n.chars.all isPlain = true := by
  rw [List.all_eq_true]
  intro c hc
  exact isPlain_of_isNumberChar (List.all_eq_true.1 n.all_chars c hc)

mutual

theorem plain_chars (v : Json) : v.chars.all isPlain = true := by
  cases v with
  | null => decide
  | bool b => cases b <;> decide
  | number n => exact plain_number n
  | string s => exact plain_quote s
  | array vs =>
    have hopen : isPlain '[' = true := by decide
    have hclose : isPlain ']' = true := by decide
    cases vs with
    | nil => decide
    | cons v vs =>
      simp only [chars, itemChars_cons, List.all_cons, List.all_append, hopen, hclose,
        plain_chars v, plain_moreItems vs, List.all_nil, Bool.and_self]
  | members es =>
    have hopen : isPlain '\x7b' = true := by decide
    have hclose : isPlain '\x7d' = true := by decide
    have hcolon : isPlain ':' = true := by decide
    cases es with
    | nil => decide
    | cons e es =>
      obtain ⟨name, v⟩ := e
      simp only [chars, memberChars_cons, List.all_cons, List.all_append, hopen, hclose, hcolon,
        plain_quote, plain_chars v, plain_moreMembers es, List.all_nil, Bool.and_self]

theorem plain_moreItems (vs : List Json) : (moreItems vs).all isPlain = true := by
  cases vs with
  | nil => rfl
  | cons v vs =>
    have hcomma : isPlain ',' = true := by decide
    simp only [moreItems_cons, List.all_cons, List.all_append, hcomma, plain_chars v,
      plain_moreItems vs, Bool.and_self]

theorem plain_moreMembers (es : List (String × Json)) : (moreMembers es).all isPlain = true := by
  cases es with
  | nil => rfl
  | cons e es =>
    obtain ⟨name, v⟩ := e
    have hcomma : isPlain ',' = true := by decide
    have hcolon : isPlain ':' = true := by decide
    simp only [moreMembers_cons, List.all_cons, List.all_append, hcomma, hcolon, plain_quote,
      plain_chars v, plain_moreMembers es, Bool.and_self]

end

end DocumentDb.Json
