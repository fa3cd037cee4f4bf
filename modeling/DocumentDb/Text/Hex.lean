/-! # Hexadecimal digits

Lower-case digits of numbers and bytes, and the value of a digit of either case.

* `Hex.number?_padded`: padded digits spell their number.
-/

namespace DocumentDb.Hex

/-- The lower-case digit of a value below sixteen. -/
def digit (n : Nat) : Char := Nat.digitChar n

/-- The digits of a number, without leading zeros. -/
def digits (n : Nat) : List Char := Nat.toDigits 16 n

/-- The digits of a number, padded with zeros to a width. -/
def padded (width n : Nat) : List Char :=
  List.replicate (width - (digits n).length) '0' ++ digits n

/-- The two digits of every byte in turn. -/
def ofBytes (bytes : List UInt8) : List Char :=
  bytes.flatMap fun b => [digit (b.toNat / 16), digit (b.toNat % 16)]

/-- The value of a digit of either case. -/
def value? (c : Char) : Option Nat :=
  if '0' ≤ c ∧ c ≤ '9' then some (c.toNat - '0'.toNat)
  else if 'a' ≤ c ∧ c ≤ 'f' then some (c.toNat - 'a'.toNat + 10)
  else if 'A' ≤ c ∧ c ≤ 'F' then some (c.toNat - 'A'.toNat + 10)
  else none

/-- The number that a run of digits spells; no digit at all spells zero. -/
def number? (cs : List Char) : Option Nat :=
  cs.foldlM (fun n c => (value? c).map (16 * n + ·)) 0

/-! ## Reading digits -/

theorem number?_concat {d : Nat} (h : d < 16) (cs : List Char) :
    number? (cs ++ [digit d]) = (number? cs).map (16 * · + d) := by
  have hvalue : value? (digit d) = some d := (by decide : ∀ d < 16, value? (digit d) = some d) d h
  unfold number?
  rw [List.foldlM_append]
  simp only [List.foldlM_cons, List.foldlM_nil, hvalue, bind_pure, Option.map_some]
  cases cs.foldlM (fun n c => (value? c).map (16 * n + ·)) 0 <;> rfl

theorem number?_digits (n : Nat) : number? (digits n) = some n := by
  induction n using Nat.strongRecOn with
  | ind n ih =>
    by_cases hlt : n < 16
    · have hdigits : digits n = [] ++ [digit n] := Nat.toDigits_of_lt_base hlt
      rw [hdigits, number?_concat hlt]
      exact congrArg some (Nat.zero_add n)
    · have hdigits : digits n = digits (n / 16) ++ [digit (n % 16)] :=
        Nat.toDigits_of_base_le (by decide) (by omega)
      rw [hdigits, number?_concat (Nat.mod_lt n (by decide)), ih (n / 16) (by omega)]
      exact congrArg some (Nat.div_add_mod n 16)

/-- Zeros in front do not count. -/
theorem number?_padded (width n : Nat) : number? (padded width n) = some n := by
  have hzeros : ∀ count, number? (List.replicate count '0' ++ digits n) = some n := by
    intro count
    induction count with
    | zero => exact number?_digits n
    | succ count ih => exact ih
  exact hzeros _

theorem padded_inj {width m n : Nat} : padded width m = padded width n ↔ m = n := by
  constructor
  · intro h
    have hnumber := number?_padded width m
    rw [h, number?_padded] at hnumber
    exact (Option.some.inj hnumber).symm
  · rintro rfl
    rfl

theorem le_length_padded (width n : Nat) : width ≤ (padded width n).length := by
  unfold padded
  rw [List.length_append, List.length_replicate]
  omega

end DocumentDb.Hex
