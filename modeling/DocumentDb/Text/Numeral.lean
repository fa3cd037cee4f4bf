/-! # Unsigned decimal numerals

* `Numeral.text`: a number written with the fewest digits.
* `Numeral.read?`: the number that a text spells, up to a bound. An optional plus sign and leading
  zeros are accepted; blanks, separators and other digits than the ASCII ones are not.
* `Numeral.read?_text`: every number within the bound reads back.
-/

namespace DocumentDb.Numeral

/-- The greatest number of 64 bits. -/
def max64 : Nat := 18446744073709551615

/-- The greatest number of 64 bits one of which is a sign. -/
def maxSigned64 : Nat := 9223372036854775807

/-- The digits of a number, most significant first. -/
def digits (n : Nat) : List Char := Nat.toDigits 10 n

/-- A number written with the fewest digits. -/
def text (n : Nat) : String := String.ofList (digits n)

/-- The number that one or more digits spell. -/
def ofDigits? (cs : List Char) : Option Nat :=
  if cs.isEmpty then none
  else if cs.all Char.isDigit then some (Nat.ofDigitChars 10 cs 0)
  else none

/-- The text less one leading plus sign. -/
def dropPlus : List Char → List Char
  | '+' :: cs => cs
  | cs => cs

/-- The number that a text spells, if it does not exceed the bound. -/
def read? (bound : Nat) (s : String) : Option Nat :=
  (ofDigits? (dropPlus s.toList)).filter (· ≤ bound)

/-! ## Digits -/

theorem digits_ne_nil (n : Nat) : digits n ≠ [] := Nat.toDigits_ne_nil

theorem isDigit_of_mem_digits {n : Nat} {c : Char} (h : c ∈ digits n) : c.isDigit = true :=
  Nat.isDigit_of_mem_toDigits (by decide) (by decide) h

@[simp] theorem toList_text (n : Nat) : (text n).toList = digits n := String.toList_ofList

@[simp] theorem ofDigits?_digits (n : Nat) : ofDigits? (digits n) = some n := by
  have hall : (digits n).all Char.isDigit = true :=
    List.all_eq_true.2 fun _ hc => isDigit_of_mem_digits hc
  have hne : (digits n).isEmpty = false := by
    cases h : digits n with
    | nil => exact absurd h (digits_ne_nil n)
    | cons _ _ => rfl
  unfold ofDigits?
  rw [hall, hne]
  simp [digits, Nat.ofDigitChars_ten_toDigits]

theorem dropPlus_digits (n : Nat) : dropPlus (digits n) = digits n := by
  cases h : digits n with
  | nil => rfl
  | cons c cs =>
    have hc : c.isDigit = true := isDigit_of_mem_digits (n := n) (h ▸ List.mem_cons_self)
    unfold dropPlus
    split
    · next heq =>
      cases heq
      exact absurd hc (by decide)
    · rfl

/-- Every number within the bound reads back. -/
theorem read?_text {bound n : Nat} (h : n ≤ bound) : read? bound (text n) = some n := by
  simp [read?, dropPlus_digits, h]

theorem read?_le {bound n : Nat} {s : String} (h : read? bound s = some n) : n ≤ bound := by
  simp only [read?, Option.filter_eq_some_iff, decide_eq_true_eq] at h
  exact h.2

end DocumentDb.Numeral
